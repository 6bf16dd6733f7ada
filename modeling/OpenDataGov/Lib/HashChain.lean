import Mathlib.Data.List.Forall2
import Mathlib.Data.List.Induction

/-!
# Hash chains

A chain of records each of which carries its own hash and that of its
predecessor (`Chaining`). A list of records is *linked* from a hash `h`
(`Linked`) if its first record points to `h`, each later one to the one before
it, and every record carries its own digest.

* `linked_append`, `Linked.take`: a linked list is linked piece by piece, so its
  prefixes are linked, and a record can be appended exactly when it is linked to
  the end (`linked_concat`);
* `linked_iff_getElem?`: being linked, checked at every index;
* `Linked.determined`: without collisions, the hash at the end of a chain linked
  from the genesis determines the whole chain. Whatever of the records their
  digests determine, agrees all along;
* `Linked.isPrefix`: without collisions, a chain has no way around one of its
  records, and its records do not change places (`Linked.not_swap`);
* `Sealing.linked_iff_exists_build`: the linked lists are those that are built by sealing what
  records say, one after the other;
* `Chained`: chains whose records carry their own hashes only. They are linked
  when each record is paired with the hash before it (`follow`), and determined
  by the last hash as well (`Chained.determined`).
-/

namespace HashChain

variable {ε H : Type}

/-- How records are chained. -/
structure Chaining (ε H : Type) where
  /-- The hash a record carries for its predecessor. -/
  prev : ε → H
  /-- The hash a record carries for itself. -/
  hash : ε → H
  /-- The hash of what a record says. -/
  digest : ε → H

variable (C : Chaining ε H)

/-- The records are linked from the hash `h`. -/
def Linked : H → List ε → Prop
  | _, [] => True
  | h, e :: es => C.prev e = h ∧ C.hash e = C.digest e ∧ Linked (C.hash e) es

/-- The hash at the end of a list of records appended to a chain ending with `h`. -/
def tip : H → List ε → H
  | h, [] => h
  | _, e :: es => tip (C.hash e) es

variable {C} {h h' : H} {e : ε} {es es' : List ε}

/-- The hash at the end of two chains, one after the other, -/
@[simp] theorem tip_append : tip C h (es ++ es') = tip C (tip C h es) es' := by
  induction es generalizing h with
  | nil => rfl
  | cons e es ih => exact ih

/-- which is that of the last record. -/
theorem tip_eq_getLast? : tip C h es = ((es.getLast?).map C.hash).getD h := by
  induction es generalizing h with
  | nil => rfl
  | cons e es ih =>
    rw [tip, ih, List.getLast?_cons]
    cases es.getLast? <;> rfl

theorem linked_append : Linked C h (es ++ es') ↔ Linked C h es ∧ Linked C (tip C h es) es' := by
  induction es generalizing h with
  | nil => simp [Linked, tip]
  | cons e es ih => simp only [List.cons_append, Linked, tip, ih, and_assoc]

/-- A record can be appended to a linked list when it is linked to its end. -/
theorem linked_concat : Linked C h (es ++ [e]) ↔
    Linked C h es ∧ C.prev e = tip C h es ∧ C.hash e = C.digest e := by
  simp [linked_append, Linked]

theorem Linked.take (hl : Linked C h es) (n : ℕ) : Linked C h (es.take n) :=
  (linked_append.1 (by rwa [List.take_append_drop])).1

/-- The records carry their own digests. -/
theorem Linked.digest_eq (hl : Linked C h es) : ∀ e ∈ es, C.hash e = C.digest e := by
  induction es generalizing h with
  | nil => exact fun _ he => absurd he List.not_mem_nil
  | cons e es ih => exact List.forall_mem_cons.2 ⟨hl.2.1, ih hl.2.2⟩

/-- A record is linked to what is before it. -/
theorem Linked.prev_eq (hl : Linked C h (es ++ e :: es')) : C.prev e = tip C h es :=
  (linked_append.1 hl).2.1

/-- The end of a chain up to a record is the hash of the record. -/
theorem tip_take_succ {i : ℕ} (he : es[i]? = some e) : tip C h (es.take (i + 1)) = C.hash e := by
  rw [List.take_add_one, he, tip_append]
  rfl

/-- Being linked, record by record: each carries its digest, and points to the end
    of what is before it. -/
theorem linked_iff_getElem? : Linked C h es ↔
    ∀ i e, es[i]? = some e → C.hash e = C.digest e ∧ C.prev e = tip C h (es.take i) := by
  induction es generalizing h with
  | nil => simp [Linked]
  | cons e es ih =>
    rw [Linked, ih]
    constructor
    · rintro ⟨hp, hd, hl⟩ (_ | i) e' he'
      · cases he'
        exact ⟨hd, hp⟩
      · exact hl i e' he'
    · intro hl
      obtain ⟨hd, hp⟩ := hl 0 e rfl
      exact ⟨hp, hd, fun i e' he' => hl (i + 1) e' he'⟩

/-- The hash at the end of a chain determines the chain, if records with the same
    digest agree, those that agree have the same predecessor, and no record has
    the digest of the genesis. -/
theorem Linked.determined {Agree : ε → ε → Prop} {xs ys : List ε} {g : H}
    (hx : Linked C g xs) (hy : Linked C g ys) (htip : tip C g xs = tip C g ys)
    (hdigest : ∀ x ∈ xs, ∀ y ∈ ys, C.digest x = C.digest y → Agree x y)
    (hprev : ∀ x y, Agree x y → C.prev x = C.prev y)
    (hgenesis : ∀ e ∈ xs ++ ys, C.digest e ≠ g) : List.Forall₂ Agree xs ys := by
  -- Backwards: the last records have the same hash, hence they agree, hence they
  -- point to the same hash, the one at the end of the records before them.
  induction xs using List.reverseRecOn generalizing ys with
  | nil =>
    cases ys using List.reverseRecOn with
    | nil => exact .nil
    | append_singleton ys y =>
      obtain ⟨_, _, hd⟩ := linked_concat.1 hy
      rw [tip_append] at htip
      exact absurd (hd.symm.trans htip.symm) (hgenesis y (by simp))
  | append_singleton xs x ih =>
    obtain ⟨hx, hpx, hdx⟩ := linked_concat.1 hx
    cases ys using List.reverseRecOn with
    | nil =>
      rw [tip_append] at htip
      exact absurd (hdx.symm.trans htip) (hgenesis x (by simp))
    | append_singleton ys y =>
      obtain ⟨hy, hpy, hdy⟩ := linked_concat.1 hy
      rw [tip_append, tip_append] at htip
      have hxy : Agree x y := hdigest x (by simp) y (by simp) (hdx.symm.trans (htip.trans hdy))
      have htip' : tip C g xs = tip C g ys := by
        rw [← hpx, ← hpy, hprev x y hxy]
      refine List.rel_append (ih hx hy htip' (fun x hx y hy => ?_) fun e he => ?_) (.cons hxy .nil)
      · exact hdigest x (List.mem_append_left _ hx) y (List.mem_append_left _ hy)
      · rcases List.mem_append.1 he with he | he
        · exact hgenesis e (List.mem_append_left _ (List.mem_append_left _ he))
        · exact hgenesis e (List.mem_append_right _ (List.mem_append_left _ he))

/-- Records of a chain that are themselves linked from its genesis are its first ones,
    if no two records have the same digest and none has that of the genesis. -/
theorem Linked.isPrefix {xs ys : List ε} {g : H} (hx : Linked C g xs) (hy : Linked C g ys)
    (hsub : ys ⊆ xs) (hdigest : ∀ x ∈ xs, ∀ y ∈ xs, C.digest x = C.digest y → x = y)
    (hgenesis : ∀ e ∈ xs, C.digest e ≠ g) : ys <+: xs := by
  cases ys using List.reverseRecOn with
  | nil => exact List.nil_prefix
  | append_singleton ys y =>
    -- The chain up to the last of the records ends with the same hash as they do.
    obtain ⟨before, after, rfl⟩ := List.append_of_mem (hsub (by simp : y ∈ ys ++ [y]))
    have hsplit : before ++ y :: after = (before ++ [y]) ++ after := by simp
    rw [hsplit] at hx hsub hdigest hgenesis ⊢
    have heq : List.Forall₂ Eq (ys ++ [y]) (before ++ [y]) := by
      refine hy.determined (linked_append.1 hx).1 (by simp [tip]) (fun a ha b hb => ?_)
        (fun _ _ h => congrArg C.prev h) fun e he => ?_
      · exact hdigest a (hsub ha) b (List.mem_append_left _ hb)
      · rcases List.mem_append.1 he with he | he
        · exact hgenesis e (hsub he)
        · exact hgenesis e (List.mem_append_left _ he)
    rw [List.forall₂_eq_eq_eq] at heq
    rw [heq]
    exact List.prefix_append _ _

/-- Without collisions, no record of a chain points to itself. -/
theorem Linked.hash_ne_prev {xs : List ε} {g : H} (hx : Linked C g xs)
    (hdigest : ∀ x ∈ xs, ∀ y ∈ xs, C.digest x = C.digest y → C.prev x = C.prev y)
    (hgenesis : ∀ e ∈ xs, C.digest e ≠ g) : ∀ e ∈ xs, C.hash e ≠ C.prev e := by
  induction xs using List.reverseRecOn with
  | nil => exact fun _ he => absurd he List.not_mem_nil
  | append_singleton xs x ih =>
    obtain ⟨hl, hp, hd⟩ := linked_concat.1 hx
    have hsub : ∀ {e}, e ∈ xs → e ∈ xs ++ [x] := fun he => List.mem_append_left _ he
    replace ih := ih hl (fun x hx y hy => hdigest x (hsub hx) y (hsub hy))
      fun e he => hgenesis e (hsub he)
    intro e he heq
    rcases List.mem_append.1 he with he | he
    · exact ih e he heq
    rw [List.mem_singleton.1 he] at heq
    -- The last record has the hash of the one before it, which then points to itself.
    cases xs using List.reverseRecOn with
    | nil => exact hgenesis x (by simp) (hd.symm.trans (heq.trans hp))
    | append_singleton xs y =>
      rw [tip_append] at hp
      have hdy := hl.digest_eq y (by simp)
      have hprev := hdigest x (by simp) y (by simp)
        (hd.symm.trans (heq.trans (hp.trans hdy)))
      exact ih y (by simp) (hp.symm.trans hprev)

/-- Without collisions, two neighbours of a chain do not change places. -/
theorem Linked.not_swap {xs ys : List ε} {x y : ε} {g : H}
    (hx : Linked C g (xs ++ x :: y :: ys)) (hy : Linked C g (xs ++ y :: x :: ys))
    (hdigest : ∀ a ∈ xs ++ x :: y :: ys, ∀ b ∈ xs ++ x :: y :: ys,
      C.digest a = C.digest b → C.prev a = C.prev b)
    (hgenesis : ∀ e ∈ xs ++ x :: y :: ys, C.digest e ≠ g) : False := by
  have hprev : C.prev y = C.hash x := by
    have hsplit : xs ++ x :: y :: ys = (xs ++ [x]) ++ y :: ys := by simp
    rw [hsplit] at hx
    rw [hx.prev_eq, tip_append]
    rfl
  refine hx.hash_ne_prev hdigest hgenesis x (by simp) ?_
  rw [← hprev, hy.prev_eq, hx.prev_eq]

/-! ### Chains that are built -/

/-- How records are made from what they say, of type `κ`: after a hash, and with their own
    digests. -/
structure Sealing (C : Chaining ε H) (κ : Type) where
  /-- The record that says something after a hash. -/
  after : H → κ → ε
  /-- What a record says. -/
  content : ε → κ
  prev_after : ∀ h c, C.prev (after h c) = h
  hash_after : ∀ h c, C.hash (after h c) = C.digest (after h c)
  after_content : ∀ e, C.hash e = C.digest e → after (C.prev e) (content e) = e

namespace Sealing

variable {κ : Type} (S : Sealing C κ) (g : H)

/-- The chain that is built by appending records, each after the hash at the end. -/
def build (cs : List κ) : List ε := cs.foldl (fun es c => es ++ [S.after (tip C g es) c]) []

@[simp] theorem build_nil : S.build g [] = [] := rfl

@[simp] theorem build_concat (cs : List κ) (c : κ) :
    S.build g (cs ++ [c]) = S.build g cs ++ [S.after (tip C g (S.build g cs)) c] := by
  rw [build, List.foldl_append]
  rfl

/-- What is built is linked. -/
theorem linked_build (cs : List κ) : Linked C g (S.build g cs) := by
  induction cs using List.reverseRecOn with
  | nil => trivial
  | append_singleton cs c ih =>
    rw [build_concat, linked_concat]
    exact ⟨ih, S.prev_after .., S.hash_after ..⟩

/-- What is linked is built from what its records say. -/
theorem build_content (hl : Linked C g es) : S.build g (es.map S.content) = es := by
  induction es using List.reverseRecOn with
  | nil => rfl
  | append_singleton es e ih =>
    obtain ⟨hl, hprev, hdigest⟩ := linked_concat.1 hl
    rw [List.map_append, List.map_singleton, build_concat, ih hl, ← hprev,
      S.after_content e hdigest]

/-- The linked lists are those that are built. -/
theorem linked_iff_exists_build : Linked C g es ↔ ∃ cs, es = S.build g cs :=
  ⟨fun hl => ⟨_, (S.build_content g hl).symm⟩, fun ⟨cs, hcs⟩ => hcs ▸ S.linked_build g cs⟩

end Sealing

/-! ### Records that do not say what they follow -/

section Following

variable (hash : ε → H) (digest : H → ε → H)

/-- The records after the hash `h`, each with the hash that it follows. -/
def follow : H → List ε → List (H × ε)
  | _, [] => []
  | h, e :: es => (h, e) :: follow (hash e) es

/-- The hash of the last of the records after the hash `h`. -/
def lastHash (h : H) (es : List ε) : H := ((es.getLast?).map hash).getD h

/-- How records are chained that carry their own hashes only. -/
def following : Chaining (H × ε) H where
  prev := Prod.fst
  hash x := hash x.2
  digest x := digest x.1 x.2

/-- The records are chained from the hash `h`: each carries the digest of what it says
    after the hash before. -/
def Chained (h : H) (es : List ε) : Prop := Linked (following hash digest) h (follow hash h es)

variable {hash digest}

@[simp] theorem lastHash_nil : lastHash hash h [] = h := rfl

@[simp] theorem lastHash_concat : lastHash hash h (es ++ [e]) = hash e := by
  simp [lastHash]

theorem lastHash_cons : lastHash hash h (e :: es) = lastHash hash (hash e) es := by
  rw [lastHash, lastHash, List.getLast?_cons]
  cases es.getLast? <;> rfl

/-- With the hash before it, each record is linked to the one before it. -/
@[simp] theorem tip_follow : tip (following hash digest) h (follow hash h es) =
    lastHash hash h es := by
  induction es generalizing h with
  | nil => rfl
  | cons e es ih => rw [lastHash_cons, ← ih]; rfl

/-- The hash before a record is the last one of those before it. -/
theorem follow_append : follow hash h (es ++ es') =
    follow hash h es ++ follow hash (lastHash hash h es) es' := by
  induction es generalizing h with
  | nil => rfl
  | cons e es ih => simp only [List.cons_append, follow, lastHash_cons, ih]

/-- The records stay as they are. -/
@[simp] theorem map_snd_follow : (follow hash h es).map Prod.snd = es := by
  induction es generalizing h with
  | nil => rfl
  | cons e es ih => simp only [follow, List.map_cons, ih]

@[simp] theorem chained_nil : Chained hash digest h [] := trivial

theorem chained_cons : Chained hash digest h (e :: es) ↔
    hash e = digest h e ∧ Chained hash digest (hash e) es :=
  ⟨fun hl => hl.2, fun hl => ⟨rfl, hl⟩⟩

theorem chained_concat : Chained hash digest h (es ++ [e]) ↔
    Chained hash digest h es ∧ hash e = digest (lastHash hash h es) e := by
  rw [Chained, follow_append, linked_append, tip_follow]
  exact and_congr_right fun _ => ⟨fun hl => hl.2.1, fun hl => ⟨rfl, hl, trivial⟩⟩

/-- What holds of all digests holds of all hashes that the records of a chain follow. -/
theorem Chained.forall_fst {P : H → Prop} (hl : Chained hash digest h es) (hh : P h)
    (hdigest : ∀ h e, P (digest h e)) : ∀ x ∈ follow hash h es, P x.1 := by
  induction es generalizing h with
  | nil => exact fun _ hx => absurd hx List.not_mem_nil
  | cons e es ih =>
    obtain ⟨he, hl⟩ := chained_cons.1 hl
    exact List.forall_mem_cons.2 ⟨hh, ih hl (he ▸ hdigest h e)⟩

/-- The last hash of a chain determines its records, if the digests determine the hashes
    before them, and what of the records is to be the same. -/
theorem Chained.determined {Agree : ε → ε → Prop} {xs ys : List ε} {g : H}
    (hx : Chained hash digest g xs) (hy : Chained hash digest g ys)
    (hlast : lastHash hash g xs = lastHash hash g ys)
    (hdigest : ∀ x ∈ follow hash g xs, ∀ y ∈ follow hash g ys,
      digest x.1 x.2 = digest y.1 y.2 → x.1 = y.1 ∧ Agree x.2 y.2)
    (hgenesis : ∀ x ∈ follow hash g xs ++ follow hash g ys, digest x.1 x.2 ≠ g) :
    List.Forall₂ Agree xs ys := by
  have hagree : List.Forall₂ (fun x y => x.1 = y.1 ∧ Agree x.2 y.2) (follow hash g xs)
      (follow hash g ys) :=
    Linked.determined hx hy (by rw [tip_follow, tip_follow, hlast]) hdigest (fun _ _ h => h.1)
      hgenesis
  have hsnd : List.Forall₂ Agree ((follow hash g xs).map Prod.snd)
      ((follow hash g ys).map Prod.snd) := by
    rw [List.forall₂_map_left_iff, List.forall₂_map_right_iff]
    exact hagree.imp fun _ _ h => h.2
  rwa [map_snd_follow, map_snd_follow] at hsnd

end Following

end HashChain
