import Mathlib.Data.List.Perm.Basic
import Mathlib.Data.Prod.Lex
import Mathlib.Data.String.Basic
import OpenDataGov.Lib.Table
import OpenDataGov.Lib.Text

/-!
# Canonical JSON texts

JSON values and the text `json.dumps` writes for them, with `sort_keys` and the
default `ensure_ascii`: characters out of the printable ASCII range are escaped,
by UTF-16 code units, and the members of an object are written in the order of
their keys. A value is first put in canonical order (`Value.sortKeys`), then
written (`Value.write`).

The texts are compared by *cancellation*: if two texts begin with what two values are written as,
and go on with whatever may follow a value there (`Stops`), then the values are the same, and so
is the rest. This is the statement that goes through the induction over values, as the text
of an array or an object is that of its first value with the others after it. It needs to be
known of each token where it ends, and of different kinds of values that their texts begin
differently (`Value.bracket`).

* `unescape_escape`: an escaped character can be read back, whatever follows;
* `Value.write_cancel`: the written text of a value cannot be confused with that
  of another one, whatever follows them, if it is not part of the value. Hence
  writing is injective (`Value.write_injective`);
* `Dict`: finite maps with their order of insertion, the `dict` of Python;
  sorting the items of two of them gives the same list exactly when they are the
  same maps (`Dict.sorted_eq_iff`).

Floats are represented by the text Python writes for them, which determines them.
-/

namespace Json

open Text

/-! ## Strings -/

/-- The value of a hexadecimal digit. -/
def hexVal (c : Char) : ℕ := if c.toNat < 58 then c.toNat - 48 else c.toNat - 87

/-- The escape sequence of a UTF-16 code unit. -/
def codeUnit (n : ℕ) : List Char :=
  ['\\', 'u', hexDigit (n / 4096 % 16), hexDigit (n / 256 % 16), hexDigit (n / 16 % 16),
    hexDigit (n % 16)]

/-- A character as written within a string. -/
def escape (c : Char) : List Char :=
  if c = '"' then ['\\', '"']
  else if c = '\\' then ['\\', '\\']
  else if c = '\n' then ['\\', 'n']
  else if c = '\r' then ['\\', 'r']
  else if c = '\t' then ['\\', 't']
  else if c = '\x0c' then ['\\', 'f']
  else if c = '\x08' then ['\\', 'b']
  else if ' ' ≤ c ∧ c ≤ '~' then [c]
  else if c.toNat < 0x10000 then codeUnit c.toNat
  else codeUnit (0xd800 + (c.toNat - 0x10000) / 0x400) ++
    codeUnit (0xdc00 + (c.toNat - 0x10000) % 0x400)

/-- The number written by four hexadecimal digits. -/
def hex4 (a b c d : Char) : ℕ := ((hexVal a * 16 + hexVal b) * 16 + hexVal c) * 16 + hexVal d

/-- The character written first, and what follows it. -/
def unescape : List Char → Option (Char × List Char)
  | '\\' :: 'u' :: a :: b :: c :: d :: rest =>
    let hi := hex4 a b c d
    if 0xd800 ≤ hi ∧ hi < 0xdc00 then
      match rest with
      | _ :: _ :: a' :: b' :: c' :: d' :: rest' =>
        some (Char.ofNat (0x10000 + (hi - 0xd800) * 0x400 + (hex4 a' b' c' d' - 0xdc00)), rest')
      | _ => none
    else some (Char.ofNat hi, rest)
  | '\\' :: 'n' :: rest => some ('\n', rest)
  | '\\' :: 'r' :: rest => some ('\r', rest)
  | '\\' :: 't' :: rest => some ('\t', rest)
  | '\\' :: 'f' :: rest => some ('\x0c', rest)
  | '\\' :: 'b' :: rest => some ('\x08', rest)
  | '\\' :: c :: rest => some (c, rest)
  | c :: rest => some (c, rest)
  | [] => none

theorem hexVal_hexDigit {n : ℕ} (h : n < 16) : hexVal (hexDigit n) = n := by
  revert n
  decide

theorem hex4_codeUnit {n : ℕ} (h : n < 0x10000) :
    hex4 (hexDigit (n / 4096 % 16)) (hexDigit (n / 256 % 16)) (hexDigit (n / 16 % 16))
      (hexDigit (n % 16)) = n := by
  simp only [hex4, hexVal_hexDigit (Nat.mod_lt _ (by decide : 16 > 0))]
  omega

/-- The code of a character is not that of a surrogate. -/
theorem toNat_valid (c : Char) : c.toNat < 0xd800 ∨ 0xdfff < c.toNat ∧ c.toNat < 0x110000 :=
  c.valid

/-- A code unit that is not a high surrogate is a character. -/
theorem unescape_codeUnit {n : ℕ} (hn : n < 0x10000) (hlow : ¬(0xd800 ≤ n ∧ n < 0xdc00))
    (rest : List Char) : unescape (codeUnit n ++ rest) = some (Char.ofNat n, rest) := by
  rw [← hex4_codeUnit hn] at hlow
  refine (if_neg hlow).trans ?_
  rw [hex4_codeUnit hn]
  rfl

/-- A high surrogate is one with the code unit after it. -/
theorem unescape_codeUnits {m n : ℕ} (hm : 0xd800 ≤ m ∧ m < 0xdc00) (hn : n < 0x10000)
    (rest : List Char) : unescape (codeUnit m ++ codeUnit n ++ rest) =
      some (Char.ofNat (0x10000 + (m - 0xd800) * 0x400 + (n - 0xdc00)), rest) := by
  have hm' : m < 0x10000 := by omega
  rw [← hex4_codeUnit hm'] at hm
  refine (if_pos hm).trans ?_
  rw [hex4_codeUnit hm', hex4_codeUnit hn]
  rfl

/-- A character is written as a short escape sequence, as itself, or in code units. -/
theorem escape_cases (c : Char) :
    (∃ d, escape c = ['\\', d] ∧ ∀ rest, unescape ('\\' :: d :: rest) = some (c, rest)) ∨
    (c ≠ '"' ∧ c ≠ '\\' ∧ escape c = [c]) ∨
    (c.toNat < 0x10000 ∧ escape c = codeUnit c.toNat) ∨
    (0x10000 ≤ c.toNat ∧ escape c = codeUnit (0xd800 + (c.toNat - 0x10000) / 0x400) ++
      codeUnit (0xdc00 + (c.toNat - 0x10000) % 0x400)) := by
  have hshort : ∀ c ∈ ['"', '\\', '\n', '\r', '\t', '\x0c', '\x08'],
      ∃ d, escape c = ['\\', d] ∧ ∀ rest, unescape ('\\' :: d :: rest) = some (c, rest) := by
    simp only [List.forall_mem_cons]
    exact ⟨⟨_, rfl, fun _ => rfl⟩, ⟨_, rfl, fun _ => rfl⟩, ⟨_, rfl, fun _ => rfl⟩,
      ⟨_, rfl, fun _ => rfl⟩, ⟨_, rfl, fun _ => rfl⟩, ⟨_, rfl, fun _ => rfl⟩,
      ⟨_, rfl, fun _ => rfl⟩, List.forall_mem_nil _⟩
  by_cases hc : c ∈ ['"', '\\', '\n', '\r', '\t', '\x0c', '\x08']
  · exact .inl (hshort c hc)
  · simp only [List.mem_cons, List.not_mem_nil, not_or, or_false] at hc
    obtain ⟨h₁, h₂, h₃, h₄, h₅, h₆, h₇⟩ := hc
    rw [escape, if_neg h₁, if_neg h₂, if_neg h₃, if_neg h₄, if_neg h₅, if_neg h₆, if_neg h₇]
    split_ifs with h₈ h₉
    · exact .inr (.inl ⟨h₁, h₂, rfl⟩)
    · exact .inr (.inr (.inl ⟨h₉, rfl⟩))
    · exact .inr (.inr (.inr ⟨not_lt.1 h₉, rfl⟩))

/-- An escaped character is read back, whatever follows it, -/
theorem unescape_escape (c : Char) (rest : List Char) :
    unescape (escape c ++ rest) = some (c, rest) := by
  have hc := toNat_valid c
  rcases escape_cases c with ⟨d, h, hd⟩ | ⟨-, hne, h⟩ | ⟨hlt, h⟩ | ⟨hle, h⟩ <;> rw [h]
  · exact hd rest
  · simp [unescape, hne]
  · rw [unescape_codeUnit hlt (by omega), Char.ofNat_toNat]
  · rw [unescape_codeUnits (by omega) (by omega),
      show 0x10000 + (0xd800 + (c.toNat - 0x10000) / 0x400 - 0xd800) * 0x400 +
        (0xdc00 + (c.toNat - 0x10000) % 0x400 - 0xdc00) = c.toNat by omega, Char.ofNat_toNat]

/-- so that escaped characters cannot be confused, -/
theorem escape_cancel {c d : Char} {x y : List Char} (h : escape c ++ x = escape d ++ y) :
    c = d ∧ x = y := by
  have := congrArg unescape h
  rw [unescape_escape, unescape_escape] at this
  simpa using this

/-- nor with the quotation mark at the end of a string. -/
theorem escape_ne_quote (c : Char) (x y : List Char) : escape c ++ x ≠ '"' :: y := by
  have hslash : ∀ l : List Char, '\\' :: l ≠ '"' :: y := fun _ h =>
    absurd (List.cons.inj h).1 (by decide)
  rcases escape_cases c with ⟨d, h, _⟩ | ⟨hne, _, h⟩ | ⟨_, h⟩ | ⟨_, h⟩ <;> rw [h]
  · exact hslash _
  · exact fun h => hne (List.cons.inj h).1
  · exact hslash _
  · exact hslash _

/-- A string as written. -/
def writeString (s : String) : List Char := '"' :: (s.toList.flatMap escape ++ ['"'])

/-- The same of all characters up to that mark, -/
theorem flatMap_escape_cancel {cs ds x y : List Char}
    (h : cs.flatMap escape ++ '"' :: x = ds.flatMap escape ++ '"' :: y) : cs = ds ∧ x = y := by
  induction cs generalizing ds with
  | nil =>
    cases ds with
    | nil => simpa using h
    | cons d ds => exact absurd h.symm (by simpa using escape_ne_quote d _ x)
  | cons c cs ih =>
    cases ds with
    | nil => exact absurd h (by simpa using escape_ne_quote c _ y)
    | cons d ds =>
      rw [List.flatMap_cons, List.flatMap_cons, List.append_assoc, List.append_assoc] at h
      obtain ⟨rfl, h'⟩ := escape_cancel h
      obtain ⟨rfl, rfl⟩ := ih h'
      exact ⟨rfl, rfl⟩

/-- and of strings. -/
theorem writeString_cancel {s s' : String} {x y : List Char}
    (h : writeString s ++ x = writeString s' ++ y) : s = s' ∧ x = y := by
  simp only [writeString, List.cons_append, List.append_assoc, List.nil_append,
    List.cons.injEq, true_and] at h
  obtain ⟨hs, rfl⟩ := flatMap_escape_cancel h
  exact ⟨String.toList_injective hs, rfl⟩

/-! ## Scalars -/

/-- The characters of the text of a finite float. -/
def IsFloatChar (c : Char) : Prop := c.isDigit = true ∨ c ∈ ['.', 'e', '+', '-']

instance : DecidablePred IsFloatChar := fun c =>
  inferInstanceAs (Decidable (c.isDigit = true ∨ c ∈ ['.', 'e', '+', '-']))

/-- A float. A finite one is given by its text, which has a fraction or an
    exponent (it would be that of an integer otherwise). -/
inductive PyFloat
  | finite (text : List Char) (chars : ∀ c ∈ text, IsFloatChar c)
      (shape : '.' ∈ text ∨ 'e' ∈ text)
  | nan
  | inf (neg : Bool)

/-- The text of a float. -/
def PyFloat.text : PyFloat → List Char
  | .finite text _ _ => text
  | .nan => ['N', 'a', 'N']
  | .inf false => ['I', 'n', 'f', 'i', 'n', 'i', 't', 'y']
  | .inf true => ['-', 'I', 'n', 'f', 'i', 'n', 'i', 't', 'y']

/-- The values that are neither arrays nor objects. -/
inductive Scalar
  | null
  | bool (b : Bool)
  | int (i : ℤ)
  | float (x : PyFloat)
  | str (s : String)

/-- The text of an integer. -/
def intText (i : ℤ) : List Char :=
  if i < 0 then '-' :: Nat.toDigits 10 i.natAbs else Nat.toDigits 10 i.natAbs

/-- A scalar as written. -/
def Scalar.write : Scalar → List Char
  | .null => ['n', 'u', 'l', 'l']
  | .bool true => ['t', 'r', 'u', 'e']
  | .bool false => ['f', 'a', 'l', 's', 'e']
  | .int i => intText i
  | .float x => x.text
  | .str s => writeString s

/-- An integer is written with digits, and possibly a sign, -/
theorem intText_chars {i : ℤ} {c : Char} (hc : c ∈ intText i) : c.isDigit = true ∨ c = '-' := by
  unfold intText at hc
  split_ifs at hc
  · rcases List.mem_cons.1 hc with hc | hc
    · exact .inr hc
    · exact .inl (isDigit_toDigits _ hc)
  · exact .inl (isDigit_toDigits _ hc)

/-- and at least one digit. -/
theorem intText_ne_nil (i : ℤ) : intText i ≠ [] := by
  unfold intText
  split_ifs
  · exact List.cons_ne_nil _ _
  · exact Nat.toDigits_ne_nil

/-- Different integers are written differently. -/
theorem intText_injective : Function.Injective intText := by
  -- No natural number starts with a sign.
  have hneg : ∀ m n : ℕ, '-' :: Nat.toDigits 10 m ≠ Nat.toDigits 10 n := fun m n h =>
    absurd (isDigit_toDigits '-' (h ▸ List.mem_cons_self)) (by decide)
  intro i j h
  unfold intText at h
  split_ifs at h
  · have := toDigits_injective (List.cons.inj h).2
    omega
  · exact absurd h (hneg _ _)
  · exact absurd h.symm (hneg _ _)
  · have := toDigits_injective h
    omega

/-- The letters of the other numbers and of constants are not in a finite float. -/
theorem not_isFloatChar {c : Char} (h : c ∈ ['N', 'I', 'n', 't', 'f', 'l']) : ¬IsFloatChar c := by
  simp only [List.mem_cons, List.not_mem_nil, or_false] at h
  rcases h with rfl | rfl | rfl | rfl | rfl | rfl <;> decide

/-- Different floats are written differently. -/
theorem PyFloat.text_injective : Function.Injective PyFloat.text := by
  -- The other texts have a character no finite float has.
  have hfin : ∀ (t t' : List Char) (c : Char), (∀ c ∈ t, IsFloatChar c) → c ∈ t' →
      c ∈ ['N', 'I', 'n', 't', 'f', 'l'] → t ≠ t' := fun t t' c ht hc hne h =>
    not_isFloatChar hne (ht c (h ▸ hc))
  intro x y h
  match x, y with
  | .finite _ _ _, .finite _ _ _ => simpa [PyFloat.text] using h
  | .finite t ht _, .nan => exact absurd h (hfin t _ 'N' ht (by decide) (by decide))
  | .finite t ht _, .inf false => exact absurd h (hfin t _ 'I' ht (by decide) (by decide))
  | .finite t ht _, .inf true => exact absurd h (hfin t _ 'I' ht (by decide) (by decide))
  | .nan, .finite t ht _ => exact absurd h.symm (hfin t _ 'N' ht (by decide) (by decide))
  | .inf false, .finite t ht _ => exact absurd h.symm (hfin t _ 'I' ht (by decide) (by decide))
  | .inf true, .finite t ht _ => exact absurd h.symm (hfin t _ 'I' ht (by decide) (by decide))
  | .nan, .nan => rfl
  | .nan, .inf false => exact absurd h (by decide)
  | .nan, .inf true => exact absurd h (by decide)
  | .inf false, .nan => exact absurd h (by decide)
  | .inf true, .nan => exact absurd h (by decide)
  | .inf false, .inf false => rfl
  | .inf true, .inf true => rfl
  | .inf false, .inf true => exact absurd h (by decide)
  | .inf true, .inf false => exact absurd h (by decide)

/-- A character that a number, `true`, `false` and `null` may have: not a delimiter. -/
def IsTokenChar (c : Char) : Prop := c ∉ ['"', ',', ']', '}', '[', '{']

instance : DecidablePred IsTokenChar := fun c =>
  inferInstanceAs (Decidable (c ∉ ['"', ',', ']', '}', '[', '{']))

/-- Numbers and constants are written with characters of tokens: -/
theorem isTokenChar_of_mem {t : List Char} {c : Char} (ht : t.all fun c => IsTokenChar c)
    (hc : c ∈ t) : IsTokenChar c :=
  of_decide_eq_true (List.all_eq_true.1 ht c hc)

/-- floats, -/
theorem PyFloat.isTokenChar {x : PyFloat} {c : Char} (hc : c ∈ x.text) : IsTokenChar c := by
  match x with
  | .finite t ht _ =>
    rcases ht c hc with h | h
    · intro hmem
      simp only [List.mem_cons, List.not_mem_nil, or_false] at hmem
      rcases hmem with rfl | rfl | rfl | rfl | rfl | rfl <;> exact absurd h (by decide)
    · simp only [List.mem_cons, List.not_mem_nil, or_false] at h
      rcases h with rfl | rfl | rfl | rfl <;> decide
  | .nan => exact isTokenChar_of_mem (by decide) hc
  | .inf false => exact isTokenChar_of_mem (by decide) hc
  | .inf true => exact isTokenChar_of_mem (by decide) hc

/-- and all scalars but strings. -/
theorem Scalar.isTokenChar {v : Scalar} (hv : ∀ s, v ≠ .str s) {c : Char} (hc : c ∈ v.write) :
    IsTokenChar c := by
  match v with
  | .null => exact isTokenChar_of_mem (by decide) hc
  | .bool true => exact isTokenChar_of_mem (by decide) hc
  | .bool false => exact isTokenChar_of_mem (by decide) hc
  | .int i =>
    have := intText_chars hc
    intro hmem
    simp only [List.mem_cons, List.not_mem_nil, or_false] at hmem
    rcases hmem with rfl | rfl | rfl | rfl | rfl | rfl <;> revert this <;> decide
  | .float x => exact PyFloat.isTokenChar hc
  | .str s => exact absurd rfl (hv s)

/-- Something is written for any scalar. -/
theorem Scalar.write_ne_nil (v : Scalar) : v.write ≠ [] := by
  match v with
  | .null => exact List.cons_ne_nil _ _
  | .bool true => exact List.cons_ne_nil _ _
  | .bool false => exact List.cons_ne_nil _ _
  | .int i => exact intText_ne_nil i
  | .float (.finite t _ ht) =>
    rintro rfl
    exact ht.elim List.not_mem_nil List.not_mem_nil
  | .float .nan => exact List.cons_ne_nil _ _
  | .float (.inf false) => exact List.cons_ne_nil _ _
  | .float (.inf true) => exact List.cons_ne_nil _ _
  | .str s => exact List.cons_ne_nil _ _

/-- What a scalar starts with. -/
theorem Scalar.write_eq_cons (v : Scalar) :
    ∃ c t, v.write = c :: t ∧ (c = '"' ∧ (∃ s, v = .str s) ∨ IsTokenChar c ∧ ∀ s, v ≠ .str s) := by
  by_cases hv : ∃ s, v = .str s
  · obtain ⟨s, rfl⟩ := hv
    exact ⟨_, _, rfl, .inl ⟨rfl, s, rfl⟩⟩
  · push Not at hv
    obtain ⟨c, t, hw⟩ := List.exists_cons_of_ne_nil v.write_ne_nil
    exact ⟨c, t, hw, .inr ⟨Scalar.isTokenChar hv (hw ▸ List.mem_cons_self), hv⟩⟩

/-- The kind of a scalar can be read off its text: its first character, and whether it has
    a character no integer has. -/
def textKind (t : List Char) : ℕ :=
  if t.head? = some '"' then 0
  else if t.head? = some 'n' then 1
  else if t.head? = some 't' then 2
  else if t.head? = some 'f' then 3
  else if '.' ∈ t ∨ 'e' ∈ t ∨ 'N' ∈ t ∨ 'I' ∈ t then 4
  else 5

/-- The kind of a scalar. -/
def Scalar.kind : Scalar → ℕ
  | .str _ => 0
  | .null => 1
  | .bool true => 2
  | .bool false => 3
  | .float _ => 4
  | .int _ => 5

/-- A text that begins as a number is one of the two kinds of numbers. -/
theorem textKind_of_number {t : List Char} (h : ∀ c ∈ ['"', 'n', 't', 'f'], t.head? ≠ some c) :
    textKind t = if '.' ∈ t ∨ 'e' ∈ t ∨ 'N' ∈ t ∨ 'I' ∈ t then 4 else 5 := by
  simp only [List.forall_mem_cons] at h
  rw [textKind, if_neg h.1, if_neg h.2.1, if_neg h.2.2.1, if_neg h.2.2.2.1]

/-- Integers have no point and no letters, -/
theorem textKind_intText (i : ℤ) : textKind (intText i) = 5 := by
  have hchars : ∀ c ∈ intText i, ¬(c.isDigit = true ∨ c = '-') → False := fun c hc hn =>
    hn (intText_chars hc)
  rw [textKind_of_number, if_neg]
  · rintro (h | h | h | h) <;> exact hchars _ h (by decide)
  · intro c hc hhead
    simp only [List.mem_cons, List.not_mem_nil, or_false] at hc
    have hmem := List.mem_of_mem_head? hhead
    rcases hc with rfl | rfl | rfl | rfl <;> exact hchars _ hmem (by decide)

/-- and floats have one of these. -/
theorem textKind_float (x : PyFloat) : textKind x.text = 4 := by
  match x with
  | .finite t ht hshape =>
    rw [textKind_of_number, if_pos]
    · exact hshape.elim .inl fun h => .inr (.inl h)
    · intro c hc hhead
      have hfloat := ht c (List.mem_of_mem_head? hhead)
      simp only [List.mem_cons, List.not_mem_nil, or_false] at hc
      rcases hc with rfl | rfl | rfl | rfl <;> exact absurd hfloat (by decide)
  | .nan => decide
  | .inf false => decide
  | .inf true => decide

/-- So the text of a scalar says of what kind it is, -/
theorem Scalar.textKind_write (v : Scalar) : textKind v.write = v.kind := by
  match v with
  | .null => decide
  | .bool true => decide
  | .bool false => decide
  | .int i => exact textKind_intText i
  | .float x => exact textKind_float x
  | .str s => rfl

/-- and different scalars are written differently, -/
theorem Scalar.write_injective : Function.Injective Scalar.write := by
  intro v w h
  have hkind : v.kind = w.kind := by rw [← textKind_write, ← textKind_write, h]
  match v, w with
  | .null, .null => rfl
  | .bool true, .bool true => rfl
  | .bool false, .bool false => rfl
  | .int i, .int j => rw [intText_injective h]
  | .float x, .float y => rw [PyFloat.text_injective h]
  | .str s, .str s' =>
    have hs : writeString s ++ [] = writeString s' ++ [] := congrArg (· ++ []) h
    rw [(writeString_cancel hs).1]

/-- What follows a value is a separator, a bracket or nothing. -/
abbrev Stops (x : List Char) : Prop := StopsAt IsTokenChar x

/-- also with something after them. -/
theorem Scalar.write_cancel {v w : Scalar} {x y : List Char} (hx : Stops x) (hy : Stops y)
    (h : v.write ++ x = w.write ++ y) : v = w ∧ x = y := by
  obtain ⟨c, t, hv, hc⟩ := v.write_eq_cons
  obtain ⟨c', t', hw, hc'⟩ := w.write_eq_cons
  have hcc : c = c' := by
    rw [hv, hw] at h
    exact (List.cons.inj h).1
  have hquote : ¬IsTokenChar '"' := by decide
  rcases hc with ⟨rfl, s, rfl⟩ | ⟨hc, hvs⟩ <;> rcases hc' with ⟨hq, s', rfl⟩ | ⟨hc', hws⟩
  · obtain ⟨rfl, rfl⟩ := writeString_cancel h
    exact ⟨rfl, rfl⟩
  · exact absurd (hcc ▸ hc') hquote
  · exact absurd (hq ▸ hcc ▸ hc) hquote
  · obtain ⟨ht, rfl⟩ := span_cancel (fun _ => Scalar.isTokenChar hvs)
      (fun _ => Scalar.isTokenChar hws) hx hy h
    exact ⟨Scalar.write_injective ht, rfl⟩

/-! ## Values -/

/-- JSON values. -/
inductive Value
  | scalar (x : Scalar)
  | arr (vs : List Value)
  | obj (kvs : List (String × Value))

variable (pad : List Char)

mutual

/-- A value as written, with `pad` after the separators. -/
def Value.write : Value → List Char
  | .scalar x => x.write
  | .arr [] => ['[', ']']
  | .arr (v :: vs) => '[' :: (v.write ++ writeItems vs)
  | .obj [] => ['{', '}']
  | .obj ((k, v) :: kvs) => '{' :: (writeString k ++ ':' :: (pad ++ (v.write ++ writeMembers kvs)))

/-- The items of an array after the first one, and its end. -/
def writeItems : List Value → List Char
  | [] => [']']
  | v :: vs => ',' :: (pad ++ (v.write ++ writeItems vs))

/-- The members of an object after the first one, and its end. -/
def writeMembers : List (String × Value) → List Char
  | [] => ['}']
  | (k, v) :: kvs =>
    ',' :: (pad ++ (writeString k ++ ':' :: (pad ++ (v.write ++ writeMembers kvs))))

end

theorem stops_writeItems (vs : List Value) (x : List Char) : Stops (writeItems pad vs ++ x) := by
  cases vs <;> exact stopsAt_cons (by decide)

theorem stops_writeMembers (kvs : List (String × Value)) (x : List Char) :
    Stops (writeMembers pad kvs ++ x) := by
  cases kvs <;> exact stopsAt_cons (by decide)

/-- The bracket a value is written in. -/
def Value.bracket : Value → Option Char
  | .scalar _ => none
  | .arr _ => some '['
  | .obj _ => some '{'

/-- What a value starts with: its bracket, or that of a scalar. -/
theorem Value.write_eq_cons (v : Value) : ∃ c t, v.write pad = c :: t ∧
    c ∉ [',', ']', '}'] ∧ (if c ∈ ['[', '{'] then some c else none) = v.bracket := by
  match v with
  | .scalar x =>
    obtain ⟨c, t, hw, ⟨rfl, _⟩ | ⟨hc, _⟩⟩ := x.write_eq_cons
    · exact ⟨_, t, hw, by decide, rfl⟩
    · have hc' : c ∉ [',', ']', '}'] ∧ c ∉ ['[', '{'] := by
        constructor <;> (intro hmem; refine hc ?_; revert hmem; simp; tauto)
      exact ⟨c, t, hw, hc'.1, by rw [if_neg hc'.2]; rfl⟩
  | .arr [] => exact ⟨_, _, rfl, by decide, rfl⟩
  | .arr (_ :: _) => exact ⟨_, _, rfl, by decide, rfl⟩
  | .obj [] => exact ⟨_, _, rfl, by decide, rfl⟩
  | .obj ((_, _) :: _) => exact ⟨_, _, rfl, by decide, rfl⟩

/-- The text of a value does not begin as the end of an array or an object does, -/
theorem Value.write_ne_cons (v : Value) {c : Char} (hc : c ∈ [',', ']', '}']) (x y : List Char) :
    v.write pad ++ x ≠ c :: y := by
  obtain ⟨c', t, hw, hne, _⟩ := v.write_eq_cons pad
  rw [hw]
  intro h
  rw [(List.cons.inj h).1] at hne
  exact hne hc

/-- and it says whether the value is one of these. -/
theorem Value.bracket_eq {v w : Value} {x y : List Char}
    (h : v.write pad ++ x = w.write pad ++ y) : v.bracket = w.bracket := by
  obtain ⟨c, t, hv, _, hcv⟩ := v.write_eq_cons pad
  obtain ⟨c', t', hw, _, hcw⟩ := w.write_eq_cons pad
  rw [hv, hw] at h
  rw [← hcv, ← hcw, (List.cons.inj h).1]

variable {pad}

mutual

/-- A written value is not confused with another one, if what follows is not part of them. -/
theorem Value.write_cancel (v w : Value) {x y : List Char} (hx : Stops x) (hy : Stops y)
    (h : v.write pad ++ x = w.write pad ++ y) : v = w ∧ x = y := by
  have hbracket := Value.bracket_eq pad h
  -- The first characters tell the kinds apart, so only values of one kind are left.
  match v, w with
  | .scalar a, .scalar b =>
    obtain ⟨rfl, rfl⟩ := Scalar.write_cancel hx hy h
    exact ⟨rfl, rfl⟩
  | .arr [], .arr [] => exact ⟨rfl, by simpa [Value.write] using h⟩
  | .arr [], .arr (w :: ws) =>
    simp only [Value.write, List.cons_append, List.append_assoc, List.cons.injEq, true_and] at h
    exact absurd h.symm (w.write_ne_cons pad (by decide) _ _)
  | .arr (v :: vs), .arr [] =>
    simp only [Value.write, List.cons_append, List.append_assoc, List.cons.injEq, true_and] at h
    exact absurd h (v.write_ne_cons pad (by decide) _ _)
  | .arr (v :: vs), .arr (w :: ws) =>
    simp only [Value.write, List.cons_append, List.append_assoc, List.cons.injEq, true_and] at h
    obtain ⟨rfl, h₁⟩ := Value.write_cancel v w (stops_writeItems pad vs x)
      (stops_writeItems pad ws y) h
    obtain ⟨rfl, rfl⟩ := writeItems_cancel vs ws h₁
    exact ⟨rfl, rfl⟩
  | .obj [], .obj [] => exact ⟨rfl, by simpa [Value.write] using h⟩
  | .obj [], .obj ((k, w) :: ws) => simp [Value.write, writeString] at h
  | .obj ((k, v) :: vs), .obj [] => simp [Value.write, writeString] at h
  | .obj ((k, v) :: vs), .obj ((k', w) :: ws) =>
    simp only [Value.write, List.cons_append, List.append_assoc, List.cons.injEq, true_and] at h
    obtain ⟨rfl, h₁⟩ := writeString_cancel h
    have h₂ := List.append_cancel_left (List.cons.inj h₁).2
    obtain ⟨rfl, h₃⟩ := Value.write_cancel v w (stops_writeMembers pad vs x)
      (stops_writeMembers pad ws y) h₂
    obtain ⟨rfl, rfl⟩ := writeMembers_cancel vs ws h₃
    exact ⟨rfl, rfl⟩

/-- nor can those of the other items of an array, -/
theorem writeItems_cancel (vs ws : List Value) {x y : List Char}
    (h : writeItems pad vs ++ x = writeItems pad ws ++ y) : vs = ws ∧ x = y := by
  match vs, ws with
  | [], [] => exact ⟨rfl, by simpa [writeItems] using h⟩
  | [], w :: ws => simp [writeItems] at h
  | v :: vs, [] => simp [writeItems] at h
  | v :: vs, w :: ws =>
    simp only [writeItems, List.cons_append, List.append_assoc, List.cons.injEq, true_and] at h
    have h := List.append_cancel_left h
    obtain ⟨rfl, h₁⟩ := Value.write_cancel v w (stops_writeItems pad vs x)
      (stops_writeItems pad ws y) h
    obtain ⟨rfl, rfl⟩ := writeItems_cancel vs ws h₁
    exact ⟨rfl, rfl⟩

/-- or the other members of an object. -/
theorem writeMembers_cancel (vs ws : List (String × Value)) {x y : List Char}
    (h : writeMembers pad vs ++ x = writeMembers pad ws ++ y) : vs = ws ∧ x = y := by
  match vs, ws with
  | [], [] => exact ⟨rfl, by simpa [writeMembers] using h⟩
  | [], (k, w) :: ws => simp [writeMembers] at h
  | (k, v) :: vs, [] => simp [writeMembers] at h
  | (k, v) :: vs, (k', w) :: ws =>
    simp only [writeMembers, List.cons_append, List.append_assoc, List.cons.injEq, true_and] at h
    obtain ⟨rfl, h₁⟩ := writeString_cancel (List.append_cancel_left h)
    have h₂ := List.append_cancel_left (List.cons.inj h₁).2
    obtain ⟨rfl, h₃⟩ := Value.write_cancel v w (stops_writeMembers pad vs x)
      (stops_writeMembers pad ws y) h₂
    obtain ⟨rfl, rfl⟩ := writeMembers_cancel vs ws h₃
    exact ⟨rfl, rfl⟩

end

/-- Different values are written differently. -/
theorem Value.write_injective : Function.Injective (Value.write pad) := fun v w h =>
  (Value.write_cancel v w stopsAt_nil stopsAt_nil (congrArg (· ++ []) h)).1

/-! ## Canonical order -/

/-- Members are ordered by their keys. -/
def keyLE {α : Type} (a b : String × α) : Bool := decide (a.1 ≤ b.1)

mutual

/-- A value with the members of its objects ordered by their keys. -/
def Value.sortKeys : Value → Value
  | .scalar x => .scalar x
  | .arr vs => .arr (sortItems vs)
  | .obj kvs => .obj ((sortMembers kvs).mergeSort keyLE)

/-- The items of an array, in canonical order inside. -/
def sortItems : List Value → List Value
  | [] => []
  | v :: vs => v.sortKeys :: sortItems vs

/-- The members of an object, in canonical order inside. -/
def sortMembers : List (String × Value) → List (String × Value)
  | [] => []
  | (k, v) :: kvs => (k, v.sortKeys) :: sortMembers kvs

end

variable (pad) in
/-- `json.dumps` with `sort_keys=True`. -/
def dumps (v : Value) : String := String.ofList (v.sortKeys.write pad)

/-- Values are written alike if they are the same in canonical order. -/
theorem dumps_eq_iff {v w : Value} : dumps pad v = dumps pad w ↔ v.sortKeys = w.sortKeys :=
  ⟨fun h => Value.write_injective (String.ofList_injective h), fun h => by rw [dumps, h, dumps]⟩

section Sorting

variable {α : Type} {l l' : List (String × α)}

/-- Lists of members with distinct keys are equal once sorted when they have the
    same members. -/
theorem mergeSort_eq_iff (hl : (l.map Prod.fst).Nodup) :
    l.mergeSort keyLE = l'.mergeSort keyLE ↔ l.Perm l' := by
  have htrans : ∀ a b c : String × α, keyLE a b = true → keyLE b c = true → keyLE a c = true :=
    fun a b c hab hbc => by
      simp only [keyLE, decide_eq_true_eq] at *
      exact hab.trans hbc
  have htotal : ∀ a b : String × α, (keyLE a b || keyLE b a) = true := fun a b => by
    simpa [keyLE] using le_total a.1 b.1
  constructor
  · intro h
    exact (List.mergeSort_perm l keyLE).symm.trans (h ▸ List.mergeSort_perm l' keyLE)
  · intro h
    have hperm : (l.mergeSort keyLE).Perm (l'.mergeSort keyLE) :=
      (List.mergeSort_perm l keyLE).trans (h.trans (List.mergeSort_perm l' keyLE).symm)
    refine List.Perm.eq_of_pairwise (fun a b ha hb hab hba => ?_)
      (List.pairwise_mergeSort htrans htotal l) (List.pairwise_mergeSort htrans htotal l') hperm
    simp only [keyLE, decide_eq_true_eq] at hab hba
    exact List.inj_on_of_nodup_map hl ((List.mergeSort_perm l keyLE).mem_iff.1 ha)
      (h.mem_iff.2 ((List.mergeSort_perm l' keyLE).mem_iff.1 hb)) (le_antisymm hab hba)

/-- Lists of members with the same distinct keys, in the same order, are equal
    when they have the same members. -/
theorem eq_of_perm (hk : l.map Prod.fst = l'.map Prod.fst) (hl : (l.map Prod.fst).Nodup)
    (h : l.Perm l') : l = l' := by
  induction l generalizing l' with
  | nil => exact h.nil_eq
  | cons a l ih =>
    cases l' with
    | nil => exact absurd hk (by simp)
    | cons b l' =>
      obtain ⟨hab, hk'⟩ := List.cons.inj hk
      rw [List.map_cons, List.nodup_cons] at hl
      have ha : a = b := by
        rcases List.mem_cons.1 (h.mem_iff.1 List.mem_cons_self) with e | e
        · exact e
        · exact absurd (hk' ▸ List.mem_map_of_mem e) hl.1
      subst ha
      rw [ih hk' hl.2 h.cons_inv]

/-- The members keep their keys when their values are put in order, -/
theorem keys_sortMembers (kvs : List (String × Value)) :
    (sortMembers kvs).map Prod.fst = kvs.map Prod.fst := by
  induction kvs with
  | nil => rfl
  | cons kv kvs ih => simp only [sortMembers, List.map_cons, ih]

/-- Objects with the same distinct keys, in the same order, are written alike when
    their members are. -/
theorem sortKeys_obj_eq_iff {kvs kvs' : List (String × Value)}
    (hk : kvs.map Prod.fst = kvs'.map Prod.fst) (hn : (kvs.map Prod.fst).Nodup) :
    (Value.obj kvs).sortKeys = (Value.obj kvs').sortKeys ↔ sortMembers kvs = sortMembers kvs' := by
  simp only [Value.sortKeys, Value.obj.injEq]
  rw [mergeSort_eq_iff (by rwa [keys_sortMembers])]
  refine ⟨fun h => eq_of_perm ?_ (by rwa [keys_sortMembers]) h, fun h => h ▸ .refl _⟩
  rw [keys_sortMembers, keys_sortMembers, hk]

end Sorting

/-! ## Dictionaries -/

/-- Finite maps with an order of insertion. -/
abbrev Dict (α : Type) := Keyed.Table (Prod.fst : String × α → String)

namespace Dict

/-- A dictionary of scalars as a JSON object. -/
def value (d : Dict Scalar) : Value := .obj (d.rows.map fun kv => (kv.1, .scalar kv.2))

/-- and stay the same if these are scalars. -/
theorem sortMembers_scalars (kvs : List (String × Scalar)) :
    sortMembers (kvs.map fun kv => (kv.1, .scalar kv.2)) =
      kvs.map fun kv => (kv.1, .scalar kv.2) := by
  induction kvs with
  | nil => rfl
  | cons kv kvs ih => simp only [List.map_cons, sortMembers, Value.sortKeys, ih]

/-- Two dictionaries are written alike when they are the same maps, whatever the
    orders of insertion. -/
theorem sortKeys_value_eq_iff {d d' : Dict Scalar} :
    d.value.sortKeys = d'.value.sortKeys ↔ ∀ k, d.get? k = d'.get? k := by
  have hinj : Function.Injective fun kv : String × Scalar => (kv.1, Value.scalar kv.2) := by
    rintro ⟨k, v⟩ ⟨k', v'⟩ h
    simpa using h
  have hkeys : ((d.rows.map fun kv => (kv.1, Value.scalar kv.2)).map Prod.fst).Nodup := by
    rw [List.map_map]
    exact d.nodup
  simp only [value, Value.sortKeys, Value.obj.injEq, sortMembers_scalars]
  rw [mergeSort_eq_iff hkeys, List.map_perm_map_iff hinj, Keyed.Table.perm_iff]

end Dict

/-! ### Comparing -/

/-- How floats are compared, with each other and with integers. -/
class FloatEq where
  eq : PyFloat → PyFloat → Bool
  eqInt : PyFloat → ℤ → Bool

/-- Floats compared by their texts, which is right but for the two zeros and for integers that
    a text does not show. -/
@[reducible] def FloatEq.byText : FloatEq where
  eq x y := x.text = y.text && x.text ≠ ['N', 'a', 'N']
  eqInt x i := x.text = intText i ++ ['.', '0']

/-- The integer that a truth value or an integer is. -/
def Scalar.int? : Scalar → Option ℤ
  | .bool b => some b.toInt
  | .int i => some i
  | .null | .float _ | .str _ => none

/-- `==`: numbers are compared by their values, and truth values are numbers. -/
def Scalar.eq [FloatEq] : Scalar → Scalar → Bool
  | .null, .null => true
  | .str s, .str s' => s = s'
  | .float x, .float y => FloatEq.eq x y
  | .float x, v | v, .float x => v.int?.any (FloatEq.eqInt x)
  | v, w => v.int?.any fun i => w.int? = some i

/-- `==`: the same keys, with equal values. -/
def Dict.eq [FloatEq] (d d' : Dict Scalar) : Bool :=
  d.rows.length = d'.rows.length &&
    d.rows.all fun kv => (d'.get? kv.1).any fun kv' => kv.2.eq kv'.2

end Json
