import OpenDataGov.Core.Basic
import OpenDataGov.Lib.PosixPath
import OpenDataGov.Lib.Yaml

/-!
# Suites of expectations

The files that the quality gate loads its expectations from (`loadSuite`): a request names a
suite and a layer, and each of them is put into the name of a file under the directory of
the expectations.

The first of these files that exists is opened. What there is in the file system is not known
here, so the question is what may be opened, whatever files there are (`OpenedPath`), and where it
is once the path has been resolved (`Lib.PosixPath`). The names are texts of the request, in which
a slash makes parts of its own, and `..` goes up.

* `openedPath_iff`: what may be opened, with the files that there happen to be;
* `resolve_suitePath`: where it is;
* `confined_iff`: in the directory itself exactly if what stands before the last slash in
  the names leads back to it;
* `confined_of_no_slash`: so it is if there is no slash.

Symbolic links are left out: a part of a path leads to the directory with its name.
-/

namespace OpenDataGov

namespace Quality

open Posix

/-- The character that no path of a file has. -/
def nul : Char := Char.ofNat 0

/-- A path that a file may have. -/
def Possible (p : Path) : Prop := ∀ n ∈ p.parts, nul ∉ n

/-- The files that there are: what is read from them, or the error that this raises. -/
structure FileSystem where
  read : Path → Option (Except String Yaml.Value)
  possible : ∀ p, read p ≠ none → Possible p

/-- `path.exists()` -/
def FileSystem.exists (fs : FileSystem) (path : Path) : Bool := (fs.read path).isSome

/-- Request to validate a dataset against a quality suite. -/
structure ValidateRequest where
  datasetId : Bounded 1 200
  domainId : Bounded 1 100
  layer : Bounded 1 20
  suiteName : Bounded 0 200
  triggeredBy : Option UUID

/-- The engine, with the directory of its expectations. -/
structure QualityEngine where
  dir : Path
  dir_possible : Possible dir

namespace QualityEngine

/-- The file of a suite. -/
def suitePath (engine : QualityEngine) (suite : String) : Path :=
  engine.dir.join (.parse (suite.toList ++ ".yaml".toList))

/-- The files that are tried, one after another. -/
def candidates (engine : QualityEngine) (suiteName layer : String) : List Path :=
  [engine.suitePath suiteName, engine.suitePath ("default_" ++ layer)]

/-- The file that is opened. -/
def openedPath (engine : QualityEngine) (fs : FileSystem) (suiteName layer : String) :
    Option Path :=
  (engine.candidates suiteName layer).find? fs.exists

/-- Loading expectations from a suite file. -/
def loadSuite (engine : QualityEngine) (fs : FileSystem) (suiteName layer : String) :
    Except String Yaml.Value :=
  match (engine.openedPath fs suiteName layer).bind fs.read with
  | none => .ok (.seq [])
  | some (.error e) => .error e
  | some (.ok (.map data)) => .ok (Yaml.Mapping.getD data "expectations" (.seq []))
  | some (.ok _) => .ok (.seq [])

end QualityEngine

variable {engine : QualityEngine} {fs : FileSystem} {suite suiteName layer : String}
  {path : Path} {cwd : List Name} {body : ValidateRequest}

/-- With some files or other, each candidate may be opened that is a path of a file. -/
theorem openedPath_iff : (∃ fs, engine.openedPath fs suiteName layer = some path) ↔
    path ∈ engine.candidates suiteName layer ∧ Possible path := by
  constructor
  · rintro ⟨fs, hopened⟩
    have hexists : fs.exists path = true := List.find?_some hopened
    refine ⟨List.mem_of_find?_eq_some hopened, fs.possible path fun hnone => ?_⟩
    rw [FileSystem.exists, hnone] at hexists
    cases hexists
  · rintro ⟨hmem, hpossible⟩
    -- The path is that of the only file.
    let only : FileSystem := {
      read := fun p => if p = path then some (.ok (.scalar .null)) else none
      possible := fun p hp => by
        split_ifs at hp with hpath
        · exact hpath ▸ hpossible
        · exact absurd rfl hp }
    have honly (p : Path) : only.exists p = true ↔ p = path := by
      have hread : only.read p = if p = path then some (.ok (.scalar .null)) else none := rfl
      rw [FileSystem.exists, hread]
      split_ifs with hpath <;> simp [hpath]
    refine ⟨only, ?_⟩
    rw [QualityEngine.openedPath]
    cases hfind : (engine.candidates suiteName layer).find? only.exists with
    | none =>
      exact absurd ((honly path).2 rfl) (by simpa using List.find?_eq_none.1 hfind path hmem)
    | some p => rw [(honly p).1 (List.find?_some hfind)]

/-- A name without a slash, with its extension, is one part of a path. -/
theorem isPart_yaml {n : List Char} (h : '/' ∉ n) : IsPart (n ++ ".yaml".toList) := by
  refine ⟨by simp, fun hdot => ?_, by simp [h]⟩
  have hlength := congrArg List.length hdot
  simp at hlength

/-- Where the file of a suite is. -/
theorem resolve_suitePath : (engine.suitePath suite).resolve cwd =
    (engine.dir.join (.parse (upToSlash suite.toList))).resolve cwd ++
      [afterSlash suite.toList ++ ".yaml".toList] := by
  have hext : '/' ∉ ".yaml".toList := by simp
  have hafter := afterSlash_append (s := suite.toList) hext
  have hpart := isPart_yaml (slash_notMem_afterSlash suite.toList)
  rw [← hafter] at hpart
  rw [QualityEngine.suitePath, resolve_join_parse hpart, upToSlash_append hext, hafter]
  intro hdots
  have hlength := congrArg List.length hdots
  rw [hafter] at hlength
  simp at hlength

/-- Any name can be that of a file, unless it has a null character. -/
theorem possible_suitePath : Possible (engine.suitePath suite) ↔ nul ∉ suite.toList := by
  have hparts : (∃ n ∈ (Path.parse (suite.toList ++ ".yaml".toList)).parts, nul ∈ n) ↔
      nul ∈ suite.toList := by
    rw [mem_parts_parse (by decide) (by decide)]
    simp [nul]
  rw [← hparts, QualityEngine.suitePath, Possible, Path.join]
  split_ifs with habsolute
  · push Not
    rfl
  · push Not
    rw [List.forall_mem_append]
    exact ⟨fun h => h.2, fun h => ⟨engine.dir_possible, h⟩⟩

/-- Whatever is opened for a request is directly in the directory of the expectations. -/
def Confined (engine : QualityEngine) (cwd : List Name) (body : ValidateRequest) : Prop :=
  ∀ fs path, engine.openedPath fs body.suiteName.text body.layer.text = some path →
    ∃ name, path.resolve cwd = engine.dir.resolve cwd ++ [name]

/-- What stands before the last slash leads back to the directory of the expectations, unless
    nothing can be opened. -/
def LeadsBack (engine : QualityEngine) (cwd : List Name) (suite : String) : Prop :=
  nul ∈ suite.toList ∨
    (engine.dir.join (.parse (upToSlash suite.toList))).resolve cwd = engine.dir.resolve cwd

/-- What leads back to the directory is what leads to a file in it. -/
theorem leadsBack_iff : LeadsBack engine cwd suite ↔
    (Possible (engine.suitePath suite) →
      ∃ name, (engine.suitePath suite).resolve cwd = engine.dir.resolve cwd ++ [name]) := by
  rw [possible_suitePath, LeadsBack, resolve_suitePath]
  by_cases hnul : nul ∈ suite.toList
  · simp [hnul]
  · simp only [hnul, false_or, not_false_eq_true, true_implies]
    constructor
    · intro h
      exact ⟨_, by rw [h]⟩
    · rintro ⟨name, hname⟩
      exact (List.append_inj' hname rfl).1

/-- For any files: each candidate that is a path of a file is in the directory. -/
theorem confined_candidates : Confined engine cwd body ↔
    ∀ path ∈ engine.candidates body.suiteName.text body.layer.text, Possible path →
      ∃ name, path.resolve cwd = engine.dir.resolve cwd ++ [name] := by
  constructor
  · intro h path hmem hpossible
    obtain ⟨fs, hopened⟩ := openedPath_iff.2 ⟨hmem, hpossible⟩
    exact h fs path hopened
  · intro h fs path hopened
    obtain ⟨hmem, hpossible⟩ := openedPath_iff.1 ⟨fs, hopened⟩
    exact h path hmem hpossible

/-- What is opened is in the directory of the expectations, for any files, exactly if what
    stands before the last slash in the names leads back to it. -/
theorem confined_iff (engine : QualityEngine) (cwd : List Name) (body : ValidateRequest) :
    Confined engine cwd body ↔
      LeadsBack engine cwd body.suiteName.text ∧
      LeadsBack engine cwd ("default_" ++ body.layer.text) := by
  rw [confined_candidates, leadsBack_iff, leadsBack_iff, QualityEngine.candidates,
    List.forall_mem_cons, List.forall_mem_singleton]

/-- Without a slash, what is opened is in the directory of the expectations. -/
theorem confined_of_no_slash (hsuite : '/' ∉ body.suiteName.text.toList)
    (hlayer : '/' ∉ body.layer.text.toList) : Confined engine cwd body := by
  have hback {suite : String} (h : '/' ∉ suite.toList) : LeadsBack engine cwd suite := by
    refine .inr ?_
    rw [upToSlash_eq_nil h, Path.resolve_join]
    rfl
  have hdefault : '/' ∉ ("default_" ++ body.layer.text).toList := by
    rw [String.toList_append, List.mem_append, not_or]
    exact ⟨by simp, hlayer⟩
  rw [confined_candidates, QualityEngine.candidates, List.forall_mem_cons,
    List.forall_mem_singleton]
  exact ⟨leadsBack_iff.1 (hback hsuite), leadsBack_iff.1 (hback hdefault)⟩

namespace Gate

/-- The engine of the quality gate. -/
def qualityGate : QualityEngine where
  dir := .parse "/app/config/expectations".toList
  dir_possible n hn hmem := by
    have hnul := (mem_parts_parse (by decide) (by decide)).1 ⟨n, hn, hmem⟩
    simp [nul] at hnul

/-- A request for a suite in the parent directory. -/
def request : ValidateRequest :=
  ⟨⟨"orders", by decide⟩, ⟨"sales", by decide⟩, ⟨"gold", by decide⟩, ⟨"../secrets", by decide⟩,
    none⟩

/-- The suite is not in the directory of the expectations. -/
theorem not_confined_request : ¬∀ engine cwd body, Confined engine cwd body := fun h => by
  have hback := leadsBack_iff.2
    (confined_candidates.1 (h qualityGate [] request) _ List.mem_cons_self)
  rcases hback with hnul | hleads
  · simp [request, nul] at hnul
  · exact absurd hleads (by decide)

end Gate

end Quality

end OpenDataGov
