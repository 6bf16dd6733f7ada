import OpenDataGov.Core.Audit
import OpenDataGov.Lib.Slices

/-!
# Masking of personal data

The maskers of `odg_core.privacy.masking`: by a hash, by a fixed text, by covering all but
some characters at the ends, and the masker of addresses of email, which hashes what comes
before the last `@` and keeps what comes after it.

What a masker hides is said by which texts it makes look alike. The numbers of characters that a
partial masker shows are any integers, as the source does not check them, and the slices that it
takes are those of Python, where a negative number counts from the end (`Lib.Slices`).

* `PartialMasker.mask_eq_mask_iff`: two texts look alike when partially masked exactly if they
  are as long, and too short to show anything or the same at both ends;
* `EmailMasker.mask_eq_mask_iff`: two addresses look alike exactly if their domains are the
  same and their hashes begin alike.
-/

namespace OpenDataGov

open Slices

namespace Privacy

/-- The first `k` digits of the hash of a text. -/
def digest [Hashlib] (k : ℤ) (s : String) : List Char := upTo (Hashlib.sha256 s).text.toList k

/-- Masking by hashing. -/
structure HashMasker where
  salt : String := ""

/-- The beginning of the hash of the text, with a salt. -/
def HashMasker.mask [Hashlib] (m : HashMasker) (value : String) : String :=
  String.ofList (digest 16 (m.salt ++ value))

/-- Masking by replacing with a fixed text. -/
structure RedactMasker where
  replacement : String := "[REDACTED]"

/-- The same text, whatever is masked. -/
def RedactMasker.mask (m : RedactMasker) (_value : String) : String := m.replacement

/-- Masking by showing only some characters, at both ends. -/
structure PartialMasker where
  showFirst : ℤ := 0
  showLast : ℤ := 4

/-- All is covered but the characters at the ends; a text that is no longer than these is covered as
    a whole. -/
def PartialMasker.mask (m : PartialMasker) (value : String) : String :=
  let n : ℤ := value.length
  if n ≤ m.showFirst + m.showLast then String.ofList (times '*' n)
  else
    let first := upTo value.toList m.showFirst
    -- A slice from `-0` on would be the whole text.
    let last := if 0 < m.showLast then onwards value.toList (-m.showLast) else []
    let middle := times '*' (n - m.showFirst - m.showLast)
    String.ofList (first ++ middle ++ last)

/-- The masker of CPF numbers shows the last 4 digits. -/
def cpfMasker : PartialMasker where
  showFirst := 0
  showLast := 4

/-- Masking an address of email by hashing the local part, keeping the domain. -/
def EmailMasker.mask [Hashlib] (value : String) : String :=
  if value.toList.contains '@' then
    let (name, domain) := rsplit '@' value.toList
    String.ofList (digest 8 (String.ofList name) ++ '@' :: domain)
  else HashMasker.mask {} value

section Hashing

variable [Hashlib] {k : ℤ} {name name' domain domain' : List Char} {value : String}

/-- The beginning of a hash has the length that is asked for. -/
theorem length_digest (h₀ : 0 ≤ k) (h₆₄ : k ≤ 64) (s : String) :
    (digest k s).length = k.toNat := by
  have hlength := Hashlib.length_sha256 s
  rw [digest, upTo_of_nonneg h₀, List.length_take, String.length_toList, hlength]
  omega

/-- A hash tells nothing of the length of what is masked. -/
theorem HashMasker.length_mask (m : HashMasker) : (m.mask value).length = 16 := by
  rw [mask, String.length_ofList, length_digest (by decide) (by decide)]
  rfl

/-- What comes after the last `@` is the domain, and is kept. -/
theorem EmailMasker.mask_append (h : '@' ∉ domain) :
    EmailMasker.mask (String.ofList (name ++ '@' :: domain)) =
      String.ofList (digest 8 (String.ofList name) ++ '@' :: domain) := by
  have hmem : (name ++ '@' :: domain).contains '@' = true := by simp
  rw [EmailMasker.mask, String.toList_ofList, if_pos hmem, rsplit_append h]

/-- What a masked address shows: its domain, and how the hash of its local part begins. -/
theorem EmailMasker.mask_eq_mask_iff (h : '@' ∉ domain) (h' : '@' ∉ domain') :
    EmailMasker.mask (String.ofList (name ++ '@' :: domain)) =
        EmailMasker.mask (String.ofList (name' ++ '@' :: domain')) ↔
      domain = domain' ∧ digest 8 (String.ofList name) = digest 8 (String.ofList name') := by
  have hlength : (digest 8 (String.ofList name)).length =
      (digest 8 (String.ofList name')).length := by
    rw [length_digest (by decide) (by decide), length_digest (by decide) (by decide)]
  rw [mask_append h, mask_append h', String.ofList_inj]
  constructor
  · intro heq
    obtain ⟨hdigest, hrest⟩ := List.append_inj heq hlength
    exact ⟨(List.cons.inj hrest).2, hdigest⟩
  · rintro ⟨rfl, hdigest⟩
    rw [hdigest]

end Hashing

/-! ### Partial masks -/

namespace PartialMasker

/-- The text is too short for its ends to be shown. -/
def Short (m : PartialMasker) (value : String) : Prop :=
  (value.length : ℤ) ≤ m.showFirst + m.showLast

instance (m : PartialMasker) : DecidablePred m.Short := fun value =>
  inferInstanceAs (Decidable ((value.length : ℤ) ≤ m.showFirst + m.showLast))

/-- The characters shown at the start of a text that is long enough. -/
def shownFirst (m : PartialMasker) (value : String) : List Char :=
  value.toList.take m.showFirst.toNat

/-- The characters shown at its end. -/
def shownLast (m : PartialMasker) (value : String) : List Char :=
  value.toList.drop (value.length - m.showLast.toNat)

variable {m : PartialMasker} {value value' : String}

/-- A text that is short is covered as a whole. -/
theorem mask_of_short (h : m.Short value) :
    m.mask value = String.ofList (List.replicate value.length '*') := by
  have hle : (value.length : ℤ) ≤ m.showFirst + m.showLast := h
  rw [mask, if_pos hle, times, Int.toNat_natCast]

section

variable (hf : 0 ≤ m.showFirst) (hl : 0 ≤ m.showLast)
include hf hl

/-- What is shown leaves something to cover. -/
theorem lt_length_of_not_short (h : ¬m.Short value) :
    m.showFirst.toNat + m.showLast.toNat < value.toList.length := by
  have hlt : m.showFirst + m.showLast < value.length := Int.not_le.1 h
  rw [String.length_toList]
  omega

/-- A text that is long enough has its middle covered. -/
theorem mask_of_not_short (h : ¬m.Short value) :
    (m.mask value).toList = cover '*' m.showFirst.toNat m.showLast.toNat value.toList := by
  have hlast : (if 0 < m.showLast then onwards value.toList (-m.showLast) else []) =
      value.toList.drop (value.toList.length - m.showLast.toNat) := by
    split_ifs with hpos
    · exact onwards_neg hpos
    · have hzero : m.showLast.toNat = 0 := by omega
      rw [hzero, Nat.sub_zero, List.drop_length]
  have hmiddle : times '*' (value.length - m.showFirst - m.showLast) =
      List.replicate (value.toList.length - m.showFirst.toNat - m.showLast.toNat) '*' := by
    rw [times, String.length_toList]
    congr 1
    omega
  have hlt : ¬(value.length : ℤ) ≤ m.showFirst + m.showLast := h
  rw [mask, if_neg hlt, String.toList_ofList, upTo_of_nonneg hf, hlast, hmiddle, cover]

/-- A masked text is as long as the text. -/
theorem length_mask : (m.mask value).length = value.length := by
  by_cases h : m.Short value
  · rw [mask_of_short h, String.length_ofList, List.length_replicate]
  · have hlt := lt_length_of_not_short hf hl h
    rw [← String.length_toList, mask_of_not_short hf hl h, length_cover hlt.le,
      String.length_toList]

/-- Two texts look alike when masked if they are as long, and short, or shown alike. -/
theorem mask_eq_mask_iff : m.mask value = m.mask value' ↔ value.length = value'.length ∧
    (m.Short value ∨
      m.shownFirst value = m.shownFirst value' ∧ m.shownLast value = m.shownLast value') := by
  by_cases hlen : value.length = value'.length
  · have hshort : m.Short value ↔ m.Short value' := by rw [Short, Short, hlen]
    rw [and_iff_right hlen]
    by_cases h : m.Short value
    · rw [mask_of_short h, mask_of_short (hshort.1 h), hlen]
      exact iff_of_true rfl (.inl h)
    · have hlist : value.toList.length = value'.toList.length := by
        rw [String.length_toList, String.length_toList, hlen]
      rw [or_iff_right h, ← String.toList_inj, mask_of_not_short hf hl h,
        mask_of_not_short hf hl (hshort.not.1 h), cover_eq_cover_iff hlist]
      rfl
  · refine iff_of_false (fun heq => hlen ?_) fun h => hlen h.1
    rw [← length_mask hf hl, heq, length_mask hf hl]

/-- The characters of a mask: stars in the middle, or everywhere, and those of the text. -/
theorem getElem?_mask (i : ℕ) : (m.mask value).toList[i]? =
    if m.Short value ∨ m.showFirst ≤ i ∧
        i < m.showFirst + (value.length - m.showFirst - m.showLast) then
      value.toList[i]?.map fun _ => '*'
    else value.toList[i]? := by
  by_cases h : m.Short value
  · rw [mask_of_short h, String.toList_ofList, if_pos (.inl h), List.getElem?_replicate]
    split_ifs with hi
    · rw [List.getElem?_eq_getElem (by rwa [String.length_toList]), Option.map_some]
    · rw [List.getElem?_eq_none (by rw [String.length_toList]; omega), Option.map_none]
  · have hlt := lt_length_of_not_short hf hl h
    have hlength : value.toList.length = value.length := String.length_toList
    rw [mask_of_not_short hf hl h, getElem?_cover hlt.le, hlength]
    split_ifs with hi hmid hmid
    · rw [List.getElem?_eq_getElem (by omega), Option.map_some]
    · exact absurd (.inr (by omega)) hmid
    · have hshown := hmid.resolve_left h
      exact absurd (by omega) hi
    · rfl

/-- Partial masking hides what it should: all of a short text, and the middle of a longer
    one, of which it shows both ends. -/
theorem mask_hides (hlen : value.length = value'.length) :
    (value.length ≤ m.showFirst + m.showLast →
      m.mask value = String.ofList (List.replicate value.length '*') ∧
        m.mask value' = m.mask value) ∧
    (m.showFirst + m.showLast < value.length →
      (m.mask value = m.mask value' ↔
        value.toList.take m.showFirst.toNat = value'.toList.take m.showFirst.toNat ∧
        value.toList.drop (value.length - m.showLast.toNat) =
          value'.toList.drop (value.length - m.showLast.toNat))) ∧
    (m.mask value).length = value.length ∧
    ∀ i < value.length, (m.mask value).toList[i]? =
      if value.length ≤ m.showFirst + m.showLast ∨ m.showFirst ≤ i ∧
          i < m.showFirst + (value.length - m.showFirst - m.showLast) then some '*'
      else value.toList[i]? := by
  refine ⟨fun h => ?_, fun h => ?_, length_mask hf hl, fun i hi => ?_⟩
  · have hshort : m.Short value := h
    exact ⟨mask_of_short hshort, ((mask_eq_mask_iff hf hl).2 ⟨hlen, .inl hshort⟩).symm⟩
  · have hlong : ¬m.Short value := Int.not_le.2 h
    rw [mask_eq_mask_iff hf hl, and_iff_right hlen, or_iff_right hlong, shownFirst, shownFirst,
      shownLast, shownLast, hlen]
  · have hget := List.getElem?_eq_getElem (l := value.toList) (by rwa [String.length_toList])
    rw [getElem?_mask hf hl, hget, Option.map_some]
    rfl

end

/-- Two CPF numbers with the same last four digits. -/
theorem mask_hides_cpf : cpfMasker.mask "12345678901" = cpfMasker.mask "98765438901" :=
  ((mask_hides (by decide) (by decide) (by decide)).2.1 (by decide)).2 ⟨by decide, by decide⟩

example : cpfMasker.mask "12345678901" = "*******8901" := by decide

end PartialMasker

end Privacy

end OpenDataGov
