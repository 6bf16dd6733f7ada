import Mathlib.Data.List.Count
import Mathlib.Order.Lattice

/-!
# Paging through a listing

A listing is ordered by a key, and a client reads it page by page while it changes. An item is
found at its *rank*, the number of items with smaller keys (`getElem?_rank`), so it is on the
page that its rank falls into (`mem_page_iff`).

`exists_mem_page`: an item whose rank never decreases is on one of the pages, if the client goes
on until a page is not full. Items that come in before others push these to later pages only,
where they are read again: reading twice is possible, and missing one is not.
-/

namespace Paging

variable {α κ : Type} [LinearOrder κ] {key : α → κ} {l : List α} {x : α}

/-- The page of at most `limit` items after the first `offset` ones. -/
def page (limit offset : ℕ) (l : List α) : List α := (l.drop offset).take limit

/-- The number of items before the ones with the key `k`. -/
def rank (key : α → κ) (k : κ) (l : List α) : ℕ := l.countP fun y => key y < k

/-- The order of the items does not matter for ranks. -/
theorem rank_perm {l' : List α} {k : κ} (h : l.Perm l') : rank key k l = rank key k l' :=
  h.countP_eq _

/-- In an ordered list, the only item with its key is found at its rank. -/
theorem getElem?_rank (hsorted : l.Pairwise fun y z => key y ≤ key z) (hx : x ∈ l)
    (honly : ∀ y ∈ l, key y = key x → y = x) : l[rank key (key x) l]? = some x := by
  induction l with
  | nil => exact absurd hx List.not_mem_nil
  | cons y l ih =>
    obtain ⟨hy, hl⟩ := List.pairwise_cons.1 hsorted
    by_cases hyx : y = x
    · -- No item comes before the first one.
      subst hyx
      have hzero : rank key (key y) (y :: l) = 0 := by
        refine List.countP_eq_zero.2 fun z hz => ?_
        rw [decide_eq_true_eq, not_lt]
        rcases List.mem_cons.1 hz with rfl | hz
        · exact le_rfl
        · exact hy z hz
      rw [hzero, List.getElem?_cons_zero]
    · have hxl : x ∈ l := (List.mem_cons.1 hx).resolve_left fun h => hyx h.symm
      have hlt : key y < key x :=
        lt_of_le_of_ne (hy x hxl) fun h => hyx (honly y List.mem_cons_self h)
      have hsucc : rank key (key x) (y :: l) = rank key (key x) l + 1 :=
        List.countP_cons_of_pos (decide_eq_true hlt)
      rw [hsucc, List.getElem?_cons_succ]
      exact ih hl hxl fun z hz => honly z (List.mem_cons_of_mem _ hz)

/-- The ranks that fall into a page are those of its items. -/
theorem mem_page {limit offset i : ℕ} (h : l[i]? = some x) (hge : offset ≤ i)
    (hlt : i < offset + limit) : x ∈ page limit offset l := by
  refine List.mem_of_getElem? (i := i - offset) ?_
  rw [page, List.getElem?_take_of_lt (by omega), List.getElem?_drop, Nat.add_sub_cancel' hge]
  exact h

/-- A page that is not full is the last one. -/
theorem length_le_of_page {limit offset : ℕ} (h : (page limit offset l).length < limit) :
    l.length < offset + limit := by
  rw [page, List.length_take, List.length_drop] at h
  omega

/-- From one reading to the next, the rank of an item never decreases: the item is on one of
    the pages, up to the first one that is not full. -/
theorem exists_mem_page {l : ℕ → List α} {x : ℕ → α} {n m : ℕ}
    (hsorted : ∀ k ≤ m, (l k).Pairwise fun y z => key y ≤ key z) (hx : ∀ k ≤ m, x k ∈ l k)
    (honly : ∀ k ≤ m, ∀ y ∈ l k, key y = key (x k) → y = x k)
    (hmono : ∀ k < m, rank key (key (x k)) (l k) ≤ rank key (key (x (k + 1))) (l (k + 1)))
    (hlast : (page n (m * n) (l m)).length < n) : ∃ k ≤ m, x k ∈ page n (k * n) (l k) := by
  by_contra hnone
  have hrank : ∀ k ≤ m, (l k)[rank key (key (x k)) (l k)]? = some (x k) := fun k hk =>
    getElem?_rank (hsorted k hk) (hx k hk) (honly k hk)
  -- An item that has not been read is behind all the pages.
  have hbehind : ∀ k ≤ m, k * n ≤ rank key (key (x k)) (l k) := by
    intro k hk
    induction k with
    | zero => rw [Nat.zero_mul]; exact Nat.zero_le _
    | succ k ih =>
      refine Nat.le_trans ?_ (hmono k hk)
      by_contra hlt
      refine hnone ⟨k, by omega, mem_page (hrank k (by omega)) (ih (by omega)) ?_⟩
      rw [Nat.succ_mul] at hlt
      omega
  have hlt : rank key (key (x m)) (l m) < (l m).length := by
    by_contra hge
    have hnil := hrank m (Nat.le_refl m)
    rw [List.getElem?_eq_none (Nat.le_of_not_lt hge)] at hnil
    cases hnil
  refine hnone ⟨m, Nat.le_refl m, mem_page (hrank m (Nat.le_refl m)) (hbehind m (Nat.le_refl m)) ?_⟩
  exact Nat.lt_trans hlt (length_le_of_page hlast)

end Paging
