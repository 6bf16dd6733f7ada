import Mathlib.Computability.Language

/-!
# Regular expressions

Regular expressions without repetitions: what they match (`Regex.lang`), the matching
(`Regex.rest`) and the search for a pattern in a text (`Pattern.search`), which may have to
begin with the text.

* `Regex.mem_rest_iff`: the matching finds what the expression matches;
* `Pattern.search_iff`: so does the search;
* `Pattern.search_alternatives`: a pattern is found exactly if one of its alternatives is;
* `Pattern.search_of_literal`, `Pattern.search_of_seq`: what is found with a pattern;
* `ignoreCase`: the text in which a pattern in small letters is searched for without regard
  to case.
-/

namespace Regexp

/-- A class of characters. -/
inductive CharClass
  | lit (c : Char)
  | oneOf (cs : List Char)
  /-- Any character but the end of a line. -/
  | any
  deriving DecidableEq

/-- The characters of a class. The point of a pattern stands for any but the end of a line. -/
def CharClass.accepts : CharClass → Char → Bool
  | .lit c, d => c = d
  | .oneOf cs, d => cs.any fun c => c = d
  | .any, d => d ≠ '\n'

/-- A regular expression without repetitions. -/
inductive Regex
  | empty
  | one (k : CharClass)
  | seq (r s : Regex)
  | alt (r s : Regex)
  deriving DecidableEq

namespace Regex

/-- The expression that matches only `text`. -/
def literal : List Char → Regex
  | [] => empty
  | c :: cs => seq (one (.lit c)) (literal cs)

/-- The expression `r?`. -/
def opt (r : Regex) : Regex := alt r empty

/-- One expression after another. -/
def concat : List Regex → Regex
  | [] => empty
  | [r] => r
  | r :: rs => seq r (concat rs)

/-- One of the expressions, or the other one. -/
def oneOf (r : Regex) : List Regex → Regex
  | [] => r
  | s :: rs => alt r (oneOf s rs)

/-- The texts that an expression matches. -/
def lang : Regex → Language Char
  | empty => 1
  | one k => { u | ∃ c, k.accepts c = true ∧ u = [c] }
  | seq r s => lang r * lang s
  | alt r s => lang r + lang s

/-- What may remain of a text of which an expression has matched the beginning. -/
def rest : Regex → List Char → List (List Char)
  | empty, x => [x]
  | one _, [] => []
  | one k, c :: x => if k.accepts c then [x] else []
  | seq r s, x => (rest r x).flatMap (rest s)
  | alt r s, x => rest r x ++ rest s x

variable {r s : Regex} {k : CharClass} {u x y : List Char}

/-- What a class matches is one of its characters, -/
theorem mem_lang_one : u ∈ (one k).lang ↔ ∃ c, k.accepts c = true ∧ u = [c] := Iff.rfl

/-- What remains is what follows a text that the expression matches. -/
theorem mem_rest_iff : y ∈ r.rest x ↔ ∃ u ∈ r.lang, u ++ y = x := by
  induction r generalizing x y with
  | empty =>
    rw [rest, lang, List.mem_singleton]
    simp only [Language.mem_one, exists_eq_left, List.nil_append]
  | one k =>
    cases x with
    | nil => simp [rest, mem_lang_one]
    | cons c x =>
      rw [rest]
      constructor
      · intro hy
        split_ifs at hy with hc
        · obtain rfl := List.mem_singleton.1 hy
          exact ⟨[c], ⟨c, hc, rfl⟩, rfl⟩
        · exact absurd hy List.not_mem_nil
      · rintro ⟨_, ⟨d, hd, rfl⟩, hx⟩
        obtain ⟨rfl, rfl⟩ := List.cons.inj hx
        rw [if_pos hd]
        exact List.mem_singleton.2 rfl
  | seq r s ihr ihs =>
    simp only [rest, lang, List.mem_flatMap, ihr, ihs, Language.mem_mul]
    constructor
    · rintro ⟨z, ⟨u, hu, rfl⟩, v, hv, rfl⟩
      exact ⟨u ++ v, ⟨u, hu, v, hv, rfl⟩, List.append_assoc u v y⟩
    · rintro ⟨_, ⟨u, hu, v, hv, rfl⟩, rfl⟩
      exact ⟨v ++ y, ⟨u, hu, (List.append_assoc u v y).symm⟩, v, hv, rfl⟩
  | alt r s ihr ihs =>
    simp only [rest, lang, List.mem_append, ihr, ihs, Language.mem_add, or_and_right, exists_or]

/-- and what a literal matches is itself. -/
theorem mem_lang_literal {cs : List Char} : u ∈ (literal cs).lang ↔ u = cs := by
  induction cs generalizing u with
  | nil => rw [literal, lang, Language.mem_one]
  | cons c cs ih =>
    rw [literal, lang, Language.mem_mul]
    simp only [mem_lang_one, ih, CharClass.accepts, decide_eq_true_eq]
    constructor
    · rintro ⟨_, ⟨_, rfl, rfl⟩, _, rfl, rfl⟩
      rfl
    · rintro rfl
      exact ⟨[c], ⟨c, rfl, rfl⟩, cs, rfl, rfl⟩

/-- The expressions that an expression is one of. -/
def alternatives : Regex → List Regex
  | alt r s => alternatives r ++ alternatives s
  | r => [r]

/-- What an expression matches, one of its alternatives does. -/
theorem mem_lang_alternatives : u ∈ r.lang ↔ ∃ a ∈ r.alternatives, u ∈ a.lang := by
  induction r with
  | alt r s ihr ihs =>
    simp only [alternatives, lang, Language.mem_add, ihr, ihs, List.mem_append, or_and_right,
      exists_or]
  | empty => simp [alternatives]
  | one k => simp [alternatives]
  | seq r s => simp [alternatives]

end Regex

/-! ## The search -/

/-- A pattern to be searched for, at the beginning of a text only if it is anchored. -/
structure Pattern where
  anchored : Bool
  body : Regex
  deriving DecidableEq

namespace Pattern

/-- The pattern is found in a text. -/
def search (p : Pattern) (x : List Char) : Bool :=
  (if p.anchored then [x] else x.tails).any fun y => !(p.body.rest y).isEmpty

variable {p q : Pattern} {r s : Regex} {anchored : Bool} {x : List Char}

/-- A pattern is found in a text exactly if the text has a part that the pattern matches, at
    its beginning if the pattern is anchored. -/
theorem search_iff : p.search x = true ↔
    ∃ a u b, a ++ u ++ b = x ∧ u ∈ p.body.lang ∧ (p.anchored = true → a = []) := by
  have hrest : ∀ y, (!(p.body.rest y).isEmpty) = true ↔ ∃ u ∈ p.body.lang, ∃ b, u ++ b = y := by
    intro y
    rw [Bool.not_eq_true', List.isEmpty_eq_false_iff_exists_mem]
    simp only [Regex.mem_rest_iff]
    exact ⟨fun ⟨b, u, hu, hb⟩ => ⟨u, hu, b, hb⟩, fun ⟨u, hu, b, hb⟩ => ⟨b, u, hu, hb⟩⟩
  rw [search, List.any_eq_true]
  simp only [hrest]
  -- An anchored pattern is tried at the start of the text only, any other one at each place.
  cases hp : p.anchored with
  | true =>
    simp only [if_true, List.mem_singleton, exists_eq_left, true_implies]
    constructor
    · rintro ⟨u, hu, b, rfl⟩
      exact ⟨[], u, b, rfl, hu, rfl⟩
    · rintro ⟨_, u, b, rfl, hu, rfl⟩
      exact ⟨u, hu, b, rfl⟩
  | false =>
    simp only [Bool.false_eq_true, if_false, List.mem_tails, false_implies, and_true]
    constructor
    · rintro ⟨_, ⟨a, rfl⟩, u, hu, b, rfl⟩
      exact ⟨a, u, b, List.append_assoc a u b, hu⟩
    · rintro ⟨a, u, b, rfl, hu⟩
      exact ⟨u ++ b, ⟨a, (List.append_assoc a u b).symm⟩, u, hu, b, rfl⟩

/-- The patterns of the alternatives of a pattern. -/
def alternatives (p : Pattern) : List Pattern := p.body.alternatives.map (.mk p.anchored)

/-- A pattern is found exactly if one of its alternatives is. -/
theorem search_alternatives :
    p.search x = true ↔ ∃ a ∈ p.alternatives, a.search x = true := by
  simp only [search_iff, alternatives, List.mem_map, exists_exists_and_eq_and]
  constructor
  · rintro ⟨a, u, b, hx, hu, hp⟩
    obtain ⟨r, hr, hu⟩ := Regex.mem_lang_alternatives.1 hu
    exact ⟨r, hr, a, u, b, hx, hu, hp⟩
  · rintro ⟨r, hr, a, u, b, hx, hu, hp⟩
    exact ⟨a, u, b, hx, Regex.mem_lang_alternatives.2 ⟨r, hr, hu⟩, hp⟩

/-- Where a text is found, so is a pattern that is found in it. -/
theorem search_of_literal {cs : List Char} (hq : search ⟨false, r⟩ cs = true)
    (hp : search ⟨anchored, .literal cs⟩ x = true) : search ⟨false, r⟩ x = true := by
  rw [search_iff] at *
  obtain ⟨a, u, b, rfl, hu, -⟩ := hp
  obtain rfl := Regex.mem_lang_literal.1 hu
  obtain ⟨a', v, b', rfl, hv, -⟩ := hq
  exact ⟨a ++ a', v, b' ++ b, by simp, hv, fun h => nomatch h⟩

/-- Where a sequence is found, so is what it begins with. -/
theorem search_of_seq (h : search ⟨anchored, .seq r s⟩ x = true) :
    search ⟨anchored, r⟩ x = true := by
  rw [search_iff] at *
  obtain ⟨a, _, b, rfl, ⟨u, hu, v, hv, rfl⟩, hanchored⟩ := h
  exact ⟨a, u, v ++ b, by simp, hu, hanchored⟩

end Pattern

/-! ## Case -/

/-- The small letter of ASCII that a character is matched by, without regard to case: also
    the dotted and the dotless I, the long S and the sign for Kelvin are. -/
def foldCase (c : Char) : Char :=
  if c = 'İ' ∨ c = 'ı' then 'i'
  else if c = 'ſ' then 's'
  else if c = '\u212a' then 'k'
  else c.toLower

/-- The text in which a pattern in small letters is searched for without regard to case. -/
def ignoreCase (s : String) : List Char := s.toList.map foldCase

end Regexp
