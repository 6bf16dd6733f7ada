import Mathlib.Data.List.TakeWhile
import OpenDataGov.Lib.Json

/-!
# Reading JSON scalars

What `json.loads` reads of a text up to the end of a string, a number or a constant. A
surrogate that is not one of a pair is not a character here, so that a string with one is not
read.

Numbers are what the regular expression of the scanner matches, part by part: an integer, then
possibly a fraction and an exponent. A match is what has been matched and what is left
(`Match`). Three things are needed of each part: a match of a text is one of a longer text, if what
follows stops it (the lemmas `_append`), what is matched and what is left make up the text (the
lemmas `_parts`), and something is matched (the lemmas `_ne_nil`).

* `readChars_flatMap_escape`: a string is read as it was written, whatever follows it;
* `matchNumber_append`: a number ends where something follows that is no part of it;
* `readScalar_write`: so a number or a constant is read as it was written, too.
-/

namespace Json

open Text

/-! ## Strings -/

/-- The value of a hexadecimal digit. -/
def hexDigit? (c : Char) : Option ℕ :=
  if c.isDigit then some (c.toNat - 48)
  else if 'a' ≤ c ∧ c ≤ 'f' then some (c.toNat - 87)
  else if 'A' ≤ c ∧ c ≤ 'F' then some (c.toNat - 55)
  else none

/-- The code unit written by four hexadecimal digits. -/
def codeUnit? (a b c d : Char) : Option ℕ := do
  let a ← hexDigit? a
  let b ← hexDigit? b
  let c ← hexDigit? c
  let d ← hexDigit? d
  return ((a * 16 + b) * 16 + c) * 16 + d

/-- What a character after a backslash stands for. -/
def backslash : Char → Option Char
  | '"' => some '"'
  | '\\' => some '\\'
  | '/' => some '/'
  | 'b' => some '\x08'
  | 'f' => some '\x0c'
  | 'n' => some '\n'
  | 'r' => some '\r'
  | 't' => some '\t'
  | _ => none

/-- The first half of a surrogate pair, -/
abbrev IsHigh (n : ℕ) : Prop := 0xd800 ≤ n ∧ n < 0xdc00

/-- and the second one. -/
abbrev IsLow (n : ℕ) : Prop := 0xdc00 ≤ n ∧ n < 0xe000

/-- A character before others. -/
def charThen (c : Char) : List Char × List Char → List Char × List Char := Prod.map (c :: ·) id

/-- The characters up to the quote at the end of a string, and what follows it. -/
def readChars : List Char → Option (List Char × List Char)
  | '"' :: s => some ([], s)
  | '\\' :: 'u' :: a :: b :: c :: d :: s =>
    match codeUnit? a b c d with
    | none => none
    | some n =>
      if IsHigh n then
        match s with
        | '\\' :: 'u' :: a' :: b' :: c' :: d' :: s' =>
          match codeUnit? a' b' c' d' with
          | none => none
          | some m =>
            if IsLow m then
              (readChars s').map
                (charThen (Char.ofNat (0x10000 + (n - 0xd800) * 0x400 + (m - 0xdc00))))
            else none
        | _ => none
      else if IsLow n then none
      else (readChars s).map (charThen (Char.ofNat n))
  | '\\' :: c :: s =>
    match backslash c with
    | none => none
    | some c => (readChars s).map (charThen c)
  | c :: s => if c = '\\' ∨ c.toNat < 0x20 then none else (readChars s).map (charThen c)
  | [] => none

theorem hexDigit?_hexDigit : ∀ n < 16, hexDigit? (hexDigit n) = some n := by decide

theorem codeUnit?_hexDigits {n : ℕ} (h : n < 0x10000) :
    codeUnit? (hexDigit (n / 4096 % 16)) (hexDigit (n / 256 % 16)) (hexDigit (n / 16 % 16))
      (hexDigit (n % 16)) = some n := by
  have hlt : ∀ m : ℕ, m % 16 < 16 := fun m => Nat.mod_lt _ (by decide)
  simp only [codeUnit?, hexDigit?_hexDigit _ (hlt _), Option.bind_eq_bind, Option.bind_some,
    Option.pure_def, Option.some.injEq]
  omega

/-- A code unit that is no surrogate is a character. -/
theorem readChars_codeUnit {n : ℕ} (hn : n < 0x10000) (hhigh : ¬IsHigh n) (hlow : ¬IsLow n)
    (s : List Char) :
    readChars (codeUnit n ++ s) = (readChars s).map (charThen (Char.ofNat n)) := by
  simp only [codeUnit, List.cons_append, List.nil_append]
  rw [readChars, codeUnit?_hexDigits hn]
  exact (if_neg hhigh).trans (if_neg hlow)

/-- Two surrogates are one. -/
theorem readChars_codeUnits {n m : ℕ} (hn : IsHigh n) (hm : IsLow m) (s : List Char) :
    readChars (codeUnit n ++ codeUnit m ++ s) = (readChars s).map
      (charThen (Char.ofNat (0x10000 + (n - 0xd800) * 0x400 + (m - 0xdc00)))) := by
  simp only [codeUnit, List.cons_append, List.nil_append]
  rw [readChars, codeUnit?_hexDigits (by omega)]
  refine (if_pos hn).trans ?_
  simp only [codeUnit?_hexDigits (show m < 0x10000 by omega)]
  exact if_pos hm

/-- A character as written is read again. -/
theorem readChars_escape (c : Char) (s : List Char) :
    readChars (escape c ++ s) = (readChars s).map (charThen c) := by
  have hc := toNat_valid c
  -- Seven characters have a short escape, a printable one stands for itself, and the others are
  -- written as one code unit or two.
  have hshort : ∀ {d e : Char}, d ≠ 'u' → backslash d = some e →
      readChars ('\\' :: d :: s) = (readChars s).map (charThen e) := by
    intro d e hd he
    rw [readChars, he]
    rintro _ _ _ _ _ rfl
    exact absurd rfl hd
  unfold escape
  split_ifs with h₁ h₂ h₃ h₄ h₅ h₆ h₇ h₈ h₉
  · exact h₁ ▸ hshort (d := '"') (by decide) rfl
  · exact h₂ ▸ hshort (d := '\\') (by decide) rfl
  · exact h₃ ▸ hshort (by decide) rfl
  · exact h₄ ▸ hshort (by decide) rfl
  · exact h₅ ▸ hshort (by decide) rfl
  · exact h₆ ▸ hshort (by decide) rfl
  · exact h₇ ▸ hshort (by decide) rfl
  · have hge : 0x20 ≤ c.toNat := h₈.1
    rw [List.singleton_append, readChars, if_neg (not_or.2 ⟨h₂, by omega⟩)]
    all_goals simp_all
  · rw [readChars_codeUnit h₉ (by omega) (by omega), Char.ofNat_toNat]
  · rw [readChars_codeUnits (by omega) (by omega),
      show 0x10000 + (0xd800 + (c.toNat - 0x10000) / 0x400 - 0xd800) * 0x400 +
        (0xdc00 + (c.toNat - 0x10000) % 0x400 - 0xdc00) = c.toNat by omega, Char.ofNat_toNat]

/-- So is a string. -/
theorem readChars_flatMap_escape (cs s : List Char) :
    readChars (cs.flatMap escape ++ '"' :: s) = some (cs, s) := by
  induction cs with
  | nil => rfl
  | cons c cs ih =>
    rw [List.flatMap_cons, List.append_assoc, readChars_escape, ih]
    rfl

/-! ## Numbers -/

/-- A part of a text, and what follows it. -/
abbrev Match := List Char × List Char

/-- What follows a character. -/
def eat (c : Char) (s : List Char) : Option (List Char) :=
  if s.head? = some c then some s.tail else none

/-- One digit or more. -/
def matchDigits (s : List Char) : Option Match :=
  if s.takeWhile Char.isDigit = [] then none
  else some (s.takeWhile Char.isDigit, s.dropWhile Char.isDigit)

/-- A natural number, without zeros in front. -/
def matchNatural (s : List Char) : Option Match :=
  match eat '0' s with
  | some s => some (['0'], s)
  | none => matchDigits s

/-- `-?(?:0|[1-9][0-9]*)` -/
def matchInteger (s : List Char) : Option Match :=
  match eat '-' s with
  | some s => (matchNatural s).map (Prod.map ('-' :: ·) id)
  | none => matchNatural s

/-- The fraction of a number, if there is one. -/
def matchFraction (s : List Char) : Match :=
  (((eat '.' s).bind matchDigits).map (Prod.map ('.' :: ·) id)).getD ([], s)

/-- A sign, if there is one. -/
def matchSign (s : List Char) : Match :=
  match eat '+' s, eat '-' s with
  | some s, _ => (['+'], s)
  | none, some s => (['-'], s)
  | none, none => ([], s)

/-- The sign and the digits of an exponent. -/
def matchScale (s : List Char) : Option Match :=
  (matchDigits (matchSign s).2).map (Prod.map ((matchSign s).1 ++ ·) id)

/-- The exponent of a number, if there is one. -/
def matchExponent (s : List Char) : Match :=
  match eat 'e' s, eat 'E' s with
  | some s', _ => ((matchScale s').map (Prod.map ('e' :: ·) id)).getD ([], s)
  | none, some s' => ((matchScale s').map (Prod.map ('E' :: ·) id)).getD ([], s)
  | none, none => ([], s)

/-- The parts of a number, and what follows it. -/
structure NumberMatch where
  integer : List Char
  fraction : List Char
  exponent : List Char
  rest : List Char
  deriving DecidableEq

/-- The number that a text starts with. -/
def matchNumber (s : List Char) : Option NumberMatch :=
  (matchInteger s).map fun i =>
    let f := matchFraction i.2
    let e := matchExponent f.2
    ⟨i.1, f.1, e.1, e.2⟩

section Matching

variable {s t : List Char} {c : Char}

/-- What else follows. -/
abbrev followed (s : List Char) : Match → Match := Prod.map id (· ++ s)

/-- What follows the text does not change what is matched in it: a character, -/
theorem eat_append (hc : IsTokenChar c) (h : Stops s) :
    eat c (t ++ s) = (eat c t).map (· ++ s) := by
  cases t with
  | nil =>
    have hne : s.head? ≠ some c := fun he => h c he hc
    rw [List.nil_append, eat, if_neg hne]
    rfl
  | cons d t =>
    rw [eat, eat]
    by_cases hd : d = c <;> simp [hd]

/-- where digits do not stop a token, -/
theorem isTokenChar_of_isDigit (h : c.isDigit = true) : IsTokenChar c := by
  intro hmem
  simp only [List.mem_cons, List.not_mem_nil, or_false] at hmem
  rcases hmem with rfl | rfl | rfl | rfl | rfl | rfl <;> exact absurd h (by decide)

/-- digits, -/
theorem takeWhile_append_stops (h : Stops s) :
    (t ++ s).takeWhile Char.isDigit = t.takeWhile Char.isDigit ∧
      (t ++ s).dropWhile Char.isDigit = t.dropWhile Char.isDigit ++ s := by
  induction t with
  | nil =>
    cases s with
    | nil => exact ⟨rfl, rfl⟩
    | cons c s =>
      have hc : ¬c.isDigit = true := fun hdigit => h c rfl (isTokenChar_of_isDigit hdigit)
      simp [hc]
  | cons c t ih =>
    rw [List.cons_append, List.takeWhile_cons, List.takeWhile_cons, List.dropWhile_cons,
      List.dropWhile_cons, ih.1, ih.2]
    split_ifs <;> exact ⟨rfl, rfl⟩

/-! Each part ends where the number does. -/

/-- at least one of them, -/
theorem matchDigits_append (h : Stops s) :
    matchDigits (t ++ s) = (matchDigits t).map (followed s) := by
  rw [matchDigits, matchDigits, (takeWhile_append_stops h).1, (takeWhile_append_stops h).2]
  split_ifs <;> rfl

/-- a natural number, -/
theorem matchNatural_append (h : Stops s) :
    matchNatural (t ++ s) = (matchNatural t).map (followed s) := by
  rw [matchNatural, matchNatural, eat_append (by decide) h, matchDigits_append h]
  cases eat '0' t <;> rfl

/-- an integer, -/
theorem matchInteger_append (h : Stops s) :
    matchInteger (t ++ s) = (matchInteger t).map (followed s) := by
  rw [matchInteger, matchInteger, eat_append (by decide) h, matchNatural_append h]
  cases eat '-' t with
  | none => rfl
  | some t =>
    simp only [Option.map_some, matchNatural_append h, Option.map_map]
    rfl

/-- a fraction, -/
theorem matchFraction_append (h : Stops s) :
    matchFraction (t ++ s) = followed s (matchFraction t) := by
  rw [matchFraction, matchFraction, eat_append (by decide) h]
  cases eat '.' t with
  | none => rfl
  | some t =>
    simp only [Option.map_some, Option.bind_some, matchDigits_append h]
    cases matchDigits t <;> rfl

/-- a sign, -/
theorem matchSign_append (h : Stops s) : matchSign (t ++ s) = followed s (matchSign t) := by
  rw [matchSign, matchSign, eat_append (by decide) h, eat_append (by decide) h]
  cases eat '+' t <;> cases eat '-' t <;> rfl

/-- a sign with digits, -/
theorem matchScale_append (h : Stops s) :
    matchScale (t ++ s) = (matchScale t).map (followed s) := by
  rw [matchScale, matchScale, matchSign_append h, Prod.map_snd, matchDigits_append h]
  cases matchDigits (matchSign t).2 <;> rfl

/-- and an exponent. -/
theorem matchExponent_append (h : Stops s) :
    matchExponent (t ++ s) = followed s (matchExponent t) := by
  rw [matchExponent, matchExponent, eat_append (by decide) h, eat_append (by decide) h]
  cases eat 'e' t with
  | some t =>
    simp only [Option.map_some, matchScale_append h]
    cases matchScale t <;> rfl
  | none =>
    cases eat 'E' t with
    | none => rfl
    | some t =>
      simp only [Option.map_some, Option.map_none, matchScale_append h]
      cases matchScale t <;> rfl

/-- So does a number. -/
theorem matchNumber_append (h : Stops s) : matchNumber (t ++ s) =
    (matchNumber t).map fun m => { m with rest := m.rest ++ s } := by
  rw [matchNumber, matchNumber, matchInteger_append h]
  cases matchInteger t with
  | none => rfl
  | some i =>
    simp only [Option.map_some, Prod.map_snd, matchFraction_append h, matchExponent_append h]
    rfl

end Matching

/-! ### Integers -/

/-- A number does not begin with a zero, unless it is zero. -/
theorem head_toDigits {n : ℕ} (h : 0 < n) : (Nat.toDigits 10 n).head? ≠ some '0' := by
  have hdigit : ∀ n < 10, 0 < n → [n.digitChar].head? ≠ some '0' := by decide
  induction n using Nat.strong_induction_on with
  | _ n ih =>
    by_cases hlt : n < 10
    · rw [Nat.toDigits_of_lt_base hlt]
      exact hdigit n hlt h
    · rw [Nat.toDigits_of_base_le (by decide) (by omega), List.head?_append_of_ne_nil _
        Nat.toDigits_ne_nil]
      exact ih (n / 10) (by omega) (by omega)

/-- A natural number is matched as it is written, -/
theorem matchNatural_toDigits (n : ℕ) :
    matchNatural (Nat.toDigits 10 n) = some (Nat.toDigits 10 n, []) := by
  rcases Nat.eq_zero_or_pos n with rfl | hn
  · decide
  · have hdigits : ∀ c ∈ Nat.toDigits 10 n, c.isDigit = true := isDigit_toDigits
    rw [matchNatural, eat, if_neg (head_toDigits hn)]
    simp only [matchDigits, List.takeWhile_eq_self_iff.2 hdigits,
      List.dropWhile_eq_nil_iff.2 hdigits, Nat.toDigits_ne_nil, if_false]

/-- The integer of a text of digits, perhaps with a sign. -/
def integerOf (t : List Char) : ℤ :=
  match eat '-' t with
  | some t => -(Nat.ofDigitChars 10 t 0 : ℕ)
  | none => (Nat.ofDigitChars 10 t 0 : ℕ)

/-- without a sign, -/
theorem eat_sign_toDigits (n : ℕ) : eat '-' (Nat.toDigits 10 n) = none := by
  refine if_neg fun h => ?_
  exact absurd (isDigit_toDigits '-' (List.mem_of_mem_head? h)) (by decide)

/-- an integer also, -/
theorem matchInteger_intText (i : ℤ) : matchInteger (intText i) = some (intText i, []) := by
  rw [matchInteger, intText]
  split_ifs with h
  · simp only [eat, List.head?_cons, if_true, List.tail_cons, matchNatural_toDigits]
    rfl
  · rw [eat_sign_toDigits]
    exact matchNatural_toDigits _

/-- and it is the integer that it was. -/
theorem integerOf_intText (i : ℤ) : integerOf (intText i) = i := by
  rw [integerOf, intText]
  split_ifs with h
  · simp only [eat, List.head?_cons, if_true, List.tail_cons, Nat.ofDigitChars_ten_toDigits]
    omega
  · rw [eat_sign_toDigits]
    simp only [Nat.ofDigitChars_ten_toDigits]
    omega

/-! ## Scalars -/

/-- A number with a fraction or an exponent, as `repr` writes floats. -/
def IsFloatText (t : List Char) : Prop :=
  ∃ m ∈ matchNumber t, m.rest = [] ∧ (m.fraction ≠ [] ∨ m.exponent ≠ [])

instance : DecidablePred IsFloatText := fun t =>
  inferInstanceAs (Decidable (∃ m ∈ matchNumber t, _))

/-- Which floats texts are read as. -/
class FloatReader where
  float : List Char → PyFloat
  /-- What is written for a float is read as this float. -/
  float_text : ∀ x : PyFloat, IsFloatText x.text → float x.text = x

/-- Floats read from what is written for them. Other texts are not looked into. -/
@[reducible] def FloatReader.byText : FloatReader where
  float t :=
    if h : t.all IsFloatChar ∧ ('.' ∈ t ∨ 'e' ∈ t) then
      .finite t (fun c hc => of_decide_eq_true (List.all_eq_true.1 h.1 c hc)) h.2
    else .nan
  float_text x hx := by
    cases x with
    | finite t chars shape =>
      exact dif_pos ⟨List.all_eq_true.2 fun c hc => decide_eq_true (chars c hc), shape⟩
    | nan => exact absurd hx (by decide)
    | inf neg => cases neg <;> exact absurd hx (by decide)

section Scalars

variable [FloatReader]

/-- The number that a text starts with, and what follows it. -/
def readNumber (s : List Char) : Option (Scalar × List Char) :=
  (matchNumber s).map fun m =>
    (if m.fraction = [] ∧ m.exponent = [] then .int (integerOf m.integer)
      else .float (FloatReader.float (m.integer ++ (m.fraction ++ m.exponent))), m.rest)

omit [FloatReader] in
/-- The constant that a text starts with, and what follows it. -/
def readConstant : List Char → Option (Scalar × List Char)
  | 'n' :: 'u' :: 'l' :: 'l' :: s => some (.null, s)
  | 't' :: 'r' :: 'u' :: 'e' :: s => some (.bool true, s)
  | 'f' :: 'a' :: 'l' :: 's' :: 'e' :: s => some (.bool false, s)
  | 'N' :: 'a' :: 'N' :: s => some (.float .nan, s)
  | 'I' :: 'n' :: 'f' :: 'i' :: 'n' :: 'i' :: 't' :: 'y' :: s => some (.float (.inf false), s)
  | '-' :: 'I' :: 'n' :: 'f' :: 'i' :: 'n' :: 'i' :: 't' :: 'y' :: s =>
    some (.float (.inf true), s)
  | _ => none

/-- A number or a constant. No text starts with both. -/
def readScalar (s : List Char) : Option (Scalar × List Char) :=
  (readNumber s).or (readConstant s)

/-- A scalar that Python has: its text, if it is a finite float, is that of a float. -/
def Scalar.WellFormed : Scalar → Prop
  | .float (.finite t _ _) => IsFloatText t
  | _ => True

section Parts

variable {c : Char} {s t : List Char} {m : Match}

omit [FloatReader]

/-- What is matched and what is left make up the text: a character, -/
theorem eq_cons_of_eat (h : eat c s = some t) : s = c :: t := by
  obtain ⟨hhead, ht⟩ := Option.ite_none_right_eq_some.1 h
  rw [← Option.some.inj ht]
  exact (List.cons_head?_tail hhead).symm

/-- digits, -/
theorem matchDigits_parts (h : matchDigits s = some m) : m.1 ++ m.2 = s := by
  obtain ⟨-, hm⟩ := Option.ite_none_left_eq_some.1 h
  rw [← Option.some.inj hm]
  exact List.takeWhile_append_dropWhile

/-- a natural number, -/
theorem matchNatural_parts (h : matchNatural s = some m) : m.1 ++ m.2 = s := by
  rw [matchNatural] at h
  split at h
  · next he =>
    cases h
    exact (eq_cons_of_eat he).symm
  · exact matchDigits_parts h

/-- an integer, -/
theorem matchInteger_parts (h : matchInteger s = some m) : m.1 ++ m.2 = s := by
  rw [matchInteger] at h
  split at h
  · next he =>
    obtain ⟨m, hm, rfl⟩ := Option.map_eq_some_iff.1 h
    rw [eq_cons_of_eat he, ← matchNatural_parts hm]
    rfl
  · exact matchNatural_parts h

/-- a fraction, -/
theorem matchFraction_parts (s : List Char) : (matchFraction s).1 ++ (matchFraction s).2 = s := by
  rw [matchFraction]
  cases he : eat '.' s with
  | none => rfl
  | some t =>
    rw [Option.bind_some, eq_cons_of_eat he]
    cases hm : matchDigits t with
    | none => rfl
    | some m => exact congrArg ('.' :: ·) (matchDigits_parts hm)

/-- a sign, -/
theorem matchSign_parts (s : List Char) : (matchSign s).1 ++ (matchSign s).2 = s := by
  rw [matchSign]
  split
  · next he => exact (eq_cons_of_eat he).symm
  · next he => exact (eq_cons_of_eat he).symm
  · rfl

/-- a sign with digits, -/
theorem matchScale_parts (h : matchScale s = some m) : m.1 ++ m.2 = s := by
  obtain ⟨m, hm, rfl⟩ := Option.map_eq_some_iff.1 h
  rw [Prod.map_fst, Prod.map_snd, id_eq, List.append_assoc, matchDigits_parts hm,
    matchSign_parts]

/-- and an exponent. -/
theorem matchExponent_parts (s : List Char) :
    (matchExponent s).1 ++ (matchExponent s).2 = s := by
  have hpart : ∀ {c t}, eat c s = some t →
      (((matchScale t).map (Prod.map (c :: ·) id)).getD ([], s)).1 ++
        (((matchScale t).map (Prod.map (c :: ·) id)).getD ([], s)).2 = s := by
    intro c t he
    rw [eq_cons_of_eat he]
    cases hm : matchScale t with
    | none => rfl
    | some m => exact congrArg (c :: ·) (matchScale_parts hm)
  rw [matchExponent]
  split
  · next he => exact hpart he
  · next he => exact hpart he
  · rfl

/-- Something is matched: of digits, -/
theorem matchDigits_ne_nil (h : matchDigits s = some m) : m.1 ≠ [] := by
  obtain ⟨hne, hm⟩ := Option.ite_none_left_eq_some.1 h
  rwa [← Option.some.inj hm]

/-- of a natural number, -/
theorem matchNatural_ne_nil (h : matchNatural s = some m) : m.1 ≠ [] := by
  rw [matchNatural] at h
  split at h
  · cases h
    exact List.cons_ne_nil _ _
  · exact matchDigits_ne_nil h

/-- and of an integer. -/
theorem matchInteger_ne_nil (h : matchInteger s = some m) : m.1 ≠ [] := by
  rw [matchInteger] at h
  split at h
  · obtain ⟨m, -, rfl⟩ := Option.map_eq_some_iff.1 h
    exact List.cons_ne_nil _ _
  · exact matchNatural_ne_nil h

/-- The parts of a number make up the text. -/
theorem matchNumber_parts {m : NumberMatch} (h : matchNumber s = some m) :
    m.integer ++ (m.fraction ++ (m.exponent ++ m.rest)) = s := by
  obtain ⟨i, hi, rfl⟩ := Option.map_eq_some_iff.1 h
  rw [matchExponent_parts, matchFraction_parts, matchInteger_parts hi]

end Parts

variable {s : List Char}

/-- An integer is read as it was written, -/
theorem readNumber_intText (i : ℤ) (h : Stops s) :
    readNumber (intText i ++ s) = some (.int i, s) := by
  have hmatch : matchNumber (intText i) = some ⟨intText i, [], [], []⟩ := by
    rw [matchNumber, matchInteger_intText]
    rfl
  rw [readNumber, matchNumber_append h, hmatch]
  simp [integerOf_intText]

/-- and so is a float, -/
theorem readNumber_float {x : PyFloat} (hx : IsFloatText x.text) (h : Stops s) :
    readNumber (x.text ++ s) = some (.float x, s) := by
  obtain ⟨m, hm, hrest, hpart⟩ := hx
  have hparts := matchNumber_parts hm
  rw [hrest, List.append_nil] at hparts
  rw [readNumber, matchNumber_append h, hm]
  simp only [Option.map_some, if_neg (not_and_or.2 hpart), hrest, List.nil_append, hparts,
    FloatReader.float_text x ⟨m, hm, hrest, hpart⟩]

/-- and any scalar that is no string. -/
theorem readScalar_write {x : Scalar} (hx : x.WellFormed) (hstr : ∀ t, x ≠ .str t)
    (h : Stops s) : readScalar (x.write ++ s) = some (x, s) := by
  match x with
  | .null => rfl
  | .bool true => rfl
  | .bool false => rfl
  | .int i => exact congrArg (Option.or · _) (readNumber_intText i h)
  | .float (.finite t chars shape) =>
    exact congrArg (Option.or · _) (readNumber_float (x := .finite t chars shape) hx h)
  | .float .nan => rfl
  | .float (.inf false) => rfl
  | .float (.inf true) => rfl
  | .str t => exact absurd rfl (hstr t)

end Scalars

end Json
