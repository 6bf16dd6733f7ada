import Mathlib.Data.List.Basic
import Mathlib.Data.List.DropRight
import Mathlib.Data.List.TakeWhile

/-!
# POSIX paths

Paths with slashes: what they are made of (`Path.parse`), how they are joined (`Path.join`),
and where they lead in a file system without symbolic links (`Path.resolve`), from the
directory that a relative path starts in.

* `resolve_join`: a path joined to another one leads where it leads from there, unless it is
  absolute;
* `parse_eq`: of a text, what comes after the last slash is the last part;
* `resolve_join_parse`: so it leads to this part, in the directory that what comes before
  leads to.
-/

namespace Posix

/-- The names in a path, from one slash to the next. -/
abbrev Name := List Char

/-- A name that a path goes on with. -/
def IsPart (n : Name) : Prop := n ≠ [] ∧ n ≠ ['.'] ∧ '/' ∉ n

/-- A path: its parts, and whether it begins at the root. -/
structure Path where
  absolute : Bool
  parts : List Name
  parts_valid : ∀ n ∈ parts, IsPart n
  deriving DecidableEq

/-- One step on a path: two dots lead back, but not out of the root. -/
def step (loc : List Name) (n : Name) : List Name :=
  if n = ['.', '.'] then loc.dropLast else loc ++ [n]

/-- Where some parts lead from a directory. -/
def walk (loc : List Name) (parts : List Name) : List Name := parts.foldl step loc

namespace Path

/-- A part of a text has no separator, -/
theorem not_mem_of_mem_splitOn {c : Char} {s n : List Char} (h : n ∈ s.splitOn c) : c ∉ n := by
  induction s generalizing n with
  | nil =>
    obtain rfl := List.mem_singleton.1 h
    exact List.not_mem_nil
  | cons d s ih =>
    rw [List.splitOn_cons_eq_if_modifyHead] at h
    split_ifs at h with hd
    · rcases List.mem_cons.1 h with rfl | h
      · exact List.not_mem_nil
      · exact ih h
    · obtain ⟨first, rest, hs⟩ := List.exists_cons_of_ne_nil (List.splitOn_ne_nil c s)
      rw [hs, List.modifyHead_cons] at h
      rcases List.mem_cons.1 h with rfl | h
      · have hfirst := ih (hs ▸ List.mem_cons_self)
        have hne : c ≠ d := fun heq => hd (by simp [heq])
        simp [hne, hfirst]
      · exact ih (hs ▸ List.mem_cons_of_mem _ h)

/-- The path that a text stands for. -/
def parse (s : List Char) : Path where
  absolute := s.head? = some '/'
  parts := (s.splitOn '/').filter fun n => n ≠ [] ∧ n ≠ ['.']
  parts_valid n hn := by
    obtain ⟨hmem, hn⟩ := List.mem_filter.1 hn
    obtain ⟨hnil, hdot⟩ := of_decide_eq_true hn
    exact ⟨hnil, hdot, not_mem_of_mem_splitOn hmem⟩

/-- and the parts of a path are those of its text that say something. -/
theorem parts_parse (s : List Char) :
    (parse s).parts = (s.splitOn '/').filter fun n => n ≠ [] ∧ n ≠ ['.'] := rfl

/-- `p / q`: an absolute path replaces the one before. -/
def join (p q : Path) : Path :=
  if q.absolute then q
  else ⟨p.absolute, p.parts ++ q.parts, List.forall_mem_append.2 ⟨p.parts_valid, q.parts_valid⟩⟩

/-- Where a path leads from the directory `cwd`. -/
def resolve (cwd : List Name) (p : Path) : List Name :=
  walk (if p.absolute then [] else cwd) p.parts

variable {cwd : List Name} {p q : Path} {s t : List Char}

/-- A path joined to `p` leads where it leads from there. -/
theorem resolve_join : (p.join q).resolve cwd = q.resolve (p.resolve cwd) := by
  by_cases hq : q.absolute = true
  · simp [join, resolve, hq]
  · simp [join, resolve, hq, walk]

end Path

/-! ### The last slash -/

/-- What comes up to the last slash, and after it. -/
def upToSlash (s : List Char) : List Char := s.rdropWhile (· ≠ '/')

/-- What comes after the last slash, -/
def afterSlash (s : List Char) : List Char := s.rtakeWhile (· ≠ '/')

variable {cwd : List Name} {p : Path} {s t : List Char}

/-- with what comes before it, is the text, -/
theorem upToSlash_append_afterSlash (s : List Char) : upToSlash s ++ afterSlash s = s :=
  List.rdropWhile_append_rtakeWhile

/-- and has no slash. -/
theorem slash_notMem_afterSlash (s : List Char) : '/' ∉ afterSlash s := fun h => by
  simpa using List.mem_rtakeWhile_imp h

/-- Before the name, there is a slash or nothing. -/
theorem upToSlash_cases (s : List Char) : upToSlash s = [] ∨ ∃ t, upToSlash s = t ++ ['/'] := by
  by_cases h : upToSlash s = []
  · exact .inl h
  · have hlast := List.rdropWhile_last_not (fun c : Char => c ≠ '/') s h
    have hslash : (upToSlash s).getLast h = '/' := by simpa [upToSlash] using hlast
    exact .inr ⟨_, by rw [← hslash, List.dropLast_append_getLast]⟩

theorem parts_parse_of_isPart {n : Name} (h : IsPart n) : (Path.parse n).parts = [n] := by
  rw [Path.parts_parse, List.splitOn_eq_singleton h.2.2]
  simp [h.1, h.2.1]

theorem parts_parse_append (s t : List Char) :
    (Path.parse (s ++ '/' :: t)).parts = (Path.parse s).parts ++ (Path.parse t).parts := by
  simp only [Path.parts_parse, List.splitOn_append_cons_self, List.filter_append]

/-- Of a text, what comes after the last slash is the last part. -/
theorem parse_eq (hpart : IsPart (afterSlash s)) :
    (Path.parse s).absolute = (Path.parse (upToSlash s)).absolute ∧
      (Path.parse s).parts = (Path.parse (upToSlash s)).parts ++ [afterSlash s] := by
  have hs := upToSlash_append_afterSlash s
  generalize afterSlash s = n at hs hpart
  rcases upToSlash_cases s with hnil | ⟨t, ht⟩
  · rw [hnil, List.nil_append] at hs
    subst hs
    rw [hnil, parts_parse_of_isPart hpart]
    refine ⟨?_, rfl⟩
    obtain ⟨c, cs, rfl⟩ := List.exists_cons_of_ne_nil hpart.1
    have hc : c ≠ '/' := fun h => hpart.2.2 (h ▸ List.mem_cons_self)
    simp [Path.parse, hc]
  · rw [ht, List.append_assoc, List.singleton_append] at hs
    have hdir : (Path.parse (t ++ ['/'])).parts = (Path.parse t).parts := by
      rw [parts_parse_append]
      exact List.append_nil _
    rw [ht, ← hs, parts_parse_append, hdir, parts_parse_of_isPart hpart]
    refine ⟨?_, rfl⟩
    cases t <;> simp [Path.parse]

/-- An ending without a slash belongs to the name. -/
theorem upToSlash_append (h : '/' ∉ t) : upToSlash (s ++ t) = upToSlash s := by
  induction t using List.reverseRecOn with
  | nil => rw [List.append_nil]
  | append_singleton t c ih =>
    simp only [List.mem_append, List.mem_singleton, not_or] at h
    rw [← List.append_assoc, upToSlash, List.rdropWhile_concat_pos]
    · exact ih h.1
    · simpa using Ne.symm h.2

/-- What has no slash is added to the last part, -/
theorem afterSlash_append (h : '/' ∉ t) : afterSlash (s ++ t) = afterSlash s ++ t := by
  have hst := upToSlash_append_afterSlash (s ++ t)
  rw [upToSlash_append h] at hst
  have heq : upToSlash s ++ afterSlash (s ++ t) = upToSlash s ++ (afterSlash s ++ t) := by
    rw [hst, ← List.append_assoc, upToSlash_append_afterSlash]
  exact List.append_cancel_left heq

/-- and nothing comes before it if there is no slash at all. -/
theorem upToSlash_eq_nil (h : '/' ∉ s) : upToSlash s = [] := by
  rw [upToSlash, List.rdropWhile_eq_nil_iff]
  intro c hc
  have hne : c ≠ '/' := fun heq => h (heq ▸ hc)
  simpa using hne

/-- The characters of a text other than dots and slashes are in its parts. -/
theorem mem_parts_parse {c : Char} (hslash : c ≠ '/') (hdot : c ≠ '.') :
    (∃ n ∈ (Path.parse s).parts, c ∈ n) ↔ c ∈ s := by
  have hsplit : (∃ n ∈ s.splitOn '/', c ∈ n) ↔ c ∈ s := by
    induction s with
    | nil => simp
    | cons d s ih =>
      rw [List.splitOn_cons_eq_if_modifyHead, List.mem_cons, ← ih]
      split_ifs with hd
      · have hne : c ≠ d := fun heq => hslash (heq.trans (by simpa using hd))
        simp [hne]
      · obtain ⟨first, rest, hs⟩ := List.exists_cons_of_ne_nil (List.splitOn_ne_nil '/' s)
        rw [hs, List.modifyHead_cons]
        simp [or_assoc]
  -- The parts left out are empty or a single dot, in which there is no `c`.
  rw [← hsplit, Path.parts_parse]
  constructor
  · rintro ⟨n, hn, hc⟩
    exact ⟨n, (List.mem_filter.1 hn).1, hc⟩
  · rintro ⟨n, hn, hc⟩
    refine ⟨n, List.mem_filter.2 ⟨hn, ?_⟩, hc⟩
    have hnil : n ≠ [] := List.ne_nil_of_mem hc
    have hne : n ≠ ['.'] := fun h => hdot (List.mem_singleton.1 (h ▸ hc))
    simp [hnil, hne]

/-- A text leads to its last part, in the directory of what comes before. -/
theorem resolve_join_parse (hpart : IsPart (afterSlash s)) (hdots : afterSlash s ≠ ['.', '.']) :
    (p.join (Path.parse s)).resolve cwd =
      (p.join (Path.parse (upToSlash s))).resolve cwd ++ [afterSlash s] := by
  obtain ⟨habsolute, hparts⟩ := parse_eq hpart
  rw [Path.resolve_join, Path.resolve_join, Path.resolve, Path.resolve, habsolute, hparts, walk,
    List.foldl_append, List.foldl_cons, List.foldl_nil, step, if_neg hdots]
  rfl

end Posix
