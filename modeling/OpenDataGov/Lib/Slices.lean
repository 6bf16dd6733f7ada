import Mathlib.Data.List.Basic
import Mathlib.Data.List.DropRight
import OpenDataGov.Lib.Text

/-!
# Slices

The slices of a sequence up to an index and from an index on, as Python takes them: an index
below zero counts from the end, and one out of range stands for the nearest end.

* `cover`: a sequence with its middle covered, so many items being left at each end;
  `getElem?_cover` says what stands where, and `cover_eq_cover_iff` when two sequences
  look alike then: exactly when their ends are the same;
* `rsplit`: a text split at the last separator, which is the only way to split it with no
  separator in the second part (`rsplit_append`).
-/

namespace Slices

variable {α : Type}

/-- The position that an index stands for, among `n` items. -/
def position (n : ℕ) (i : ℤ) : ℕ := if i < 0 then (n + i).toNat else min i.toNat n

/-- `l[:stop]`. -/
def upTo (l : List α) (stop : ℤ) : List α := l.take (position l.length stop)

/-- `l[start:]`. -/
def onwards (l : List α) (start : ℤ) : List α := l.drop (position l.length start)

/-- `[a] * k`, which is empty for `k` below zero. -/
def times (a : α) (k : ℤ) : List α := List.replicate k.toNat a

variable {l l' : List α} {a : α} {i : ℤ}

theorem upTo_of_nonneg (h : 0 ≤ i) : upTo l i = l.take i.toNat := by
  rw [upTo, position, if_neg (Int.not_lt.2 h), List.take_eq_take_iff, Nat.min_assoc, Nat.min_self]

theorem onwards_neg (h : 0 < i) : onwards l (-i) = l.drop (l.length - i.toNat) := by
  have hposition : position l.length (-i) = l.length - i.toNat := by
    rw [position, if_pos (by omega)]
    omega
  rw [onwards, hposition]

/-! ### Covering the middle -/

/-- The sequence `l` with all but its first `f` and its last `k` items covered by `a`. -/
def cover (a : α) (f k : ℕ) (l : List α) : List α :=
  l.take f ++ List.replicate (l.length - f - k) a ++ l.drop (l.length - k)

section Cover

variable {f k j : ℕ}

/-- Covering keeps the length. -/
theorem length_cover (h : f + k ≤ l.length) : (cover a f k l).length = l.length := by
  simp only [cover, List.length_append, List.length_take, List.length_replicate,
    List.length_drop]
  omega

/-- The middle is covered, and everything else is in its place. -/
theorem getElem?_cover (h : f + k ≤ l.length) : (cover a f k l)[j]? =
    if f ≤ j ∧ j < l.length - k then some a else l[j]? := by
  have hfirst : (l.take f).length = f := List.length_take_of_le (by omega)
  rw [cover, List.append_assoc]
  by_cases hj : j < f
  · rw [if_neg (by omega), List.getElem?_append_left (by omega), List.getElem?_take_of_lt hj]
  · rw [List.getElem?_append_right (by omega), hfirst]
    by_cases hk : j < l.length - k
    · have hmid : j - f < (List.replicate (l.length - f - k) a).length := by
        rw [List.length_replicate]
        omega
      rw [if_pos ⟨by omega, hk⟩, List.getElem?_append_left hmid, List.getElem?_replicate,
        if_pos (by omega)]
    · have hmid : (List.replicate (l.length - f - k) a).length ≤ j - f := by
        rw [List.length_replicate]
        omega
      rw [if_neg fun hj => hk hj.2, List.getElem?_append_right hmid, List.length_replicate,
        List.getElem?_drop]
      congr 1
      omega

/-- Two sequences with covered middles look alike if their ends are the same. -/
theorem cover_eq_cover_iff (hlen : l.length = l'.length) : cover a f k l = cover a f k l' ↔
    l.take f = l'.take f ∧ l.drop (l.length - k) = l'.drop (l'.length - k) := by
  have hfirst : (l.take f).length = (l'.take f).length := by
    rw [List.length_take, List.length_take, hlen]
  rw [cover, cover, List.append_assoc, List.append_assoc, hlen]
  constructor
  · intro heq
    obtain ⟨htake, hrest⟩ := List.append_inj heq hfirst
    exact ⟨htake, (List.append_inj hrest rfl).2⟩
  · rintro ⟨htake, hdrop⟩
    rw [htake, hdrop]

end Cover

/-! ### The last separator -/

section Split

variable {c : Char} {s x y : List Char}

/-- `s.rsplit(c, 1)`: what comes before the last `c`, and what comes after it. -/
def rsplit (c : Char) (s : List Char) : List Char × List Char :=
  ((s.rdropWhile (· ≠ c)).dropLast, s.rtakeWhile (· ≠ c))

/-- The parts with the separator between them. -/
theorem append_rsplit (h : c ∈ s) : (rsplit c s).1 ++ c :: (rsplit c s).2 = s := by
  have hne : s.rdropWhile (· ≠ c) ≠ [] := fun hnil =>
    absurd (List.rdropWhile_eq_nil_iff.1 hnil c h) (by simp)
  have hlast : (s.rdropWhile (· ≠ c)).getLast hne = c := by
    simpa using List.rdropWhile_last_not (· ≠ c) s hne
  have hdrop := List.dropLast_append_getLast hne
  rw [hlast] at hdrop
  calc (rsplit c s).1 ++ c :: (rsplit c s).2
      = ((s.rdropWhile (· ≠ c)).dropLast ++ [c]) ++ s.rtakeWhile (· ≠ c) := by simp [rsplit]
    _ = s.rdropWhile (· ≠ c) ++ s.rtakeWhile (· ≠ c) := by rw [hdrop]
    _ = s := List.rdropWhile_append_rtakeWhile

/-- The separator is not in the second part. -/
theorem notMem_rsplit : c ∉ (rsplit c s).2 := fun h => by
  simpa using List.mem_rtakeWhile_imp h

/-- Texts are split in a single way, the second part being without separators. -/
theorem rsplit_append (h : c ∉ y) : rsplit c (x ++ c :: y) = (x, y) := by
  have hmem : c ∈ x ++ c :: y := by simp
  rcases Text.append_cons_eq_iff.1 (append_rsplit hmem) with heq | ⟨z, _, hz⟩ | ⟨z, _, hz⟩
  · exact Prod.ext heq.1 heq.2
  · exact absurd (hz ▸ List.mem_append_right z List.mem_cons_self) notMem_rsplit
  · exact absurd (hz ▸ List.mem_append_right z List.mem_cons_self) h

end Split

end Slices
