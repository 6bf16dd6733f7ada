import Mathlib.Data.List.Chain
import OpenDataGov.Governance.Deed
import OpenDataGov.Governance.Forks

/-!
# The clock and the trail

Events recorded one after another, whatever the clock says. A new event points to the
latest one by the clock, and the trail is verified in the order of the clock: that
is the order in which the events were recorded only if the clock goes forward.

The trail is a chain in the sense of `Lib.HashChain` in the order in which it is read, and a list
of events that each point back in the order in which it was written (`Grown`). For one direction
the two orders are the same. For the other one, the event before an event in the chain is the one
that it points to, as digests do not collide, and this is the latest one of those recorded
before; so the times go forward along the list.

* `Grown`: every event points to a latest one of those recorded before it;
* `verifyChain_of_increasing`: a trail is valid if the clock goes forward;
* `verifyChain_iff_increasing`: without collisions it is valid, in any order that the
  clock allows, only if the clock goes forward;
* `Backward.not_verifyChain`: an event recorded before the first one.

Events with the same time are read in an order that the database is free to choose, and which
need not be the same the next time (`Chronological`).
-/

namespace OpenDataGov

open AuditEvent Calendar HashChain Keyed AuditService Transact Program

/-! ## Recording one after another -/

namespace Recording

/-- The entry that a call makes. -/
def entry (r : Recording) : Entry := ⟨r.stamp.id, r.eventType, r.entityType, r.entityId⟩

/-- The stores after a call of `record_event`, which leaves nothing if it fails. -/
def exec [Hashlib] [Postgres] (r : Recording) (s : Store) : Store :=
  match (recordEvent r.stamp r.eventType r.entityType r.entityId r.actorId r.description
    r.details).run backend s with
  | (.ok _, s') => s'
  | (.error _, _) => s

/-- The call records an event, after the others: the lengths of its strings are admitted,
    and its identifier is new. -/
def Admitted (r : Recording) (rs : List Recording) : Prop :=
  Recordable r.entityType r.entityId r.actorId ∧ ∀ r' ∈ rs, r'.stamp.id ≠ r.stamp.id

instance {r : Recording} {rs : List Recording} : Decidable (r.Admitted rs) :=
  inferInstanceAs (Decidable (((_ ∧ _) ∧ (_ ∧ _) ∧ (_ ∧ _)) ∧ ∀ r' ∈ rs, _))

end Recording

/-- The stores after some calls, one after another. -/
def recordEach [Hashlib] [Postgres] (rs : List Recording) (s : Store) : Store :=
  rs.foldl (fun s r => r.exec s) s

/-- The calls that record an event. -/
def admitted (rs : List Recording) : List Recording :=
  rs.foldl (fun acc r => if r.Admitted acc then acc ++ [r] else acc) []

/-- The readings of the clock go forward. -/
def Increasing (rs : List Recording) : Prop :=
  rs.Pairwise fun r r' => r.stamp.now.instant < r'.stamp.now.instant

instance {rs : List Recording} : Decidable (Increasing rs) :=
  inferInstanceAs (Decidable (rs.Pairwise _))

/-- The events have the identifiers and times of the calls. -/
structure Carrying (es : List AuditEvent) (rs : List Recording) : Prop where
  ids : es.map AuditEvent.id = rs.map fun r => r.stamp.id
  times : es.map stamp = rs.map fun r => r.stamp.now.instant

/-! ## How a trail grows -/

/-- The event points to a latest one of the events, or to the genesis if there is none. -/
def Follows (es : List AuditEvent) (e : AuditEvent) : Prop :=
  es = [] ∧ e.previousHash = genesisHash ∨
    ∃ w ∈ es, (∀ x ∈ es, x.stamp ≤ w.stamp) ∧ e.previousHash = w.eventHash

/-- Events that were recorded one after another. -/
inductive Grown [Hashlib] : List AuditEvent → Prop
  | nil : Grown []
  | concat {es e} : Grown es → Follows es e → e.eventHash = e.computeHash → Grown (es ++ [e])

section Growing

variable [Hashlib] {es xs ys : List AuditEvent} {e : AuditEvent}

/-- The events carry their own hashes. -/
theorem Grown.eventHash_eq (h : Grown es) : ∀ e ∈ es, e.eventHash = e.computeHash := by
  induction h with
  | nil => exact fun _ he => absurd he List.not_mem_nil
  | concat _ _ hhash ih =>
    exact List.forall_mem_append.2 ⟨ih, List.forall_mem_singleton.2 hhash⟩

/-- Every event points to a latest one of those before it. -/
theorem Grown.follows (h : Grown (xs ++ e :: ys)) : Follows xs e := by
  generalize hes : xs ++ e :: ys = es at h
  induction h generalizing ys with
  | nil => cases (List.append_eq_nil_iff.1 hes).2
  | @concat es' e' _ hfollows _ ih =>
    cases ys using List.reverseRecOn with
    | nil =>
      obtain ⟨rfl, he⟩ := List.append_inj' hes rfl
      cases he
      exact hfollows
    | append_singleton ys y =>
      have hsplit : (xs ++ e :: ys) ++ [y] = es' ++ [e'] := by simpa using hes
      exact ih (List.append_inj' hsplit rfl).1

/-- If the clock goes forward, the latest event is the last one. -/
theorem Grown.linked (h : Grown es) (hclock : es.Pairwise fun x y => x.stamp < y.stamp) :
    Linked chaining genesisHash es := by
  induction h with
  | nil => trivial
  | @concat es e _ hfollows hhash ih =>
    have hes := (List.pairwise_append.1 hclock).1
    refine linked_concat.2 ⟨ih hes, ?_, hhash⟩
    rcases hfollows with ⟨rfl, hgenesis⟩ | ⟨w, hw, hmax, hprev⟩
    · exact hgenesis
    -- With strictly increasing times, the latest event is the last one.
    cases es using List.reverseRecOn with
    | nil => exact absurd hw List.not_mem_nil
    | append_singleton es z =>
      have hwz : w = z := by
        rcases List.mem_append.1 hw with hw' | hw'
        · exact absurd ((List.pairwise_append.1 hes).2.2 w hw' z List.mem_cons_self)
            (hmax z (by simp)).not_gt
        · exact List.mem_singleton.1 hw'
      rw [tip_append]
      exact hprev.trans (congrArg eventHash hwz)

/-- The events in an order of the clock. -/
structure Chronological (es xs : List AuditEvent) : Prop where
  perm : xs.Perm es
  sorted : xs.Pairwise fun x y => x.stamp ≤ y.stamp

/-- Without collisions, no event was recorded that happened before an earlier one. -/
theorem Grown.sorted (h : Grown es) {cs : List AuditEvent} (hcs : Chronological es cs)
    (hlinked : Linked chaining genesisHash cs)
    (hinj : ∀ x ∈ es, ∀ y ∈ es, x.computeHash = y.computeHash → x.canonical = y.canonical)
    (hgenesis : ∀ x ∈ es, x.computeHash ≠ genesisHash) :
    es.Pairwise fun x y => x.stamp ≤ y.stamp := by
  rw [List.pairwise_iff_forall_sublist]
  intro x e hsub
  obtain ⟨xs, ys, rfl, hx⟩ : ∃ xs ys, es = xs ++ e :: ys ∧ x ∈ xs := by
    obtain ⟨xs, zs, rfl, hx, he⟩ := List.cons_sublist_iff.1 hsub
    obtain ⟨as, bs, rfl⟩ := List.append_of_mem (List.singleton_sublist.1 he)
    exact ⟨xs ++ as, bs, by simp, List.mem_append_left _ hx⟩
  -- The event points to a latest one `w` of those before it, among which is `x`.
  rcases h.follows with ⟨rfl, _⟩ | ⟨w, hw, hmax, hprev⟩
  · exact absurd hx List.not_mem_nil
  have hw' : w ∈ xs ++ e :: ys := List.mem_append_left _ hw
  have hwhash : e.previousHash = w.computeHash := hprev.trans (h.eventHash_eq w hw')
  -- What comes before the event in the chain is the event that it points to, or one that
  -- says the same.
  have he : e ∈ cs := hcs.perm.mem_iff.2 (by simp)
  obtain ⟨as, bs, rfl⟩ := List.append_of_mem he
  cases as using List.reverseRecOn with
  | nil => exact absurd (hwhash.symm.trans hlinked.prev_eq) (hgenesis w hw')
  | append_singleton as p =>
    have hp : p ∈ xs ++ e :: ys := hcs.perm.mem_iff.1 (by simp)
    have htip := hlinked.prev_eq
    rw [tip_append] at htip
    have heq : p.computeHash = w.computeHash := by
      rw [← hwhash, ← h.eventHash_eq p hp]
      exact htip.symm
    have hstamp : p.stamp = w.stamp :=
      congrArg DateTime.instant (canonical_eq_iff.1 (hinj p hp w hw' heq)).occurredAt
    calc x.stamp ≤ w.stamp := hmax x hx
      _ = p.stamp := hstamp.symm
      _ ≤ e.stamp := (List.pairwise_append.1 hcs.sorted).2.2 p (by simp) e (by simp)

/-- Without collisions, events that are a chain in all orders of the clock happened one
    after another. -/
theorem Grown.increasing (h : Grown es)
    (hchain : ∀ cs, Chronological es cs → Linked chaining genesisHash cs)
    {cs : List AuditEvent} (hcs : Chronological es cs)
    (hinj : ∀ x ∈ es, ∀ y ∈ es, x.computeHash = y.computeHash → x.canonical = y.canonical)
    (hgenesis : ∀ x ∈ es, x.computeHash ≠ genesisHash) :
    es.Pairwise fun x y => x.stamp < y.stamp := by
  have hsorted := h.sorted hcs (hchain cs hcs) hinj hgenesis
  refine List.isChain_iff_pairwise.1 (List.isChain_iff_forall_rel_of_append_cons_cons.2 ?_)
  intro x y xs ys hsplit
  subst hsplit
  obtain ⟨hxs, hxys, hle⟩ := List.pairwise_append.1 hsorted
  obtain ⟨hx, hys⟩ := List.pairwise_cons.1 hxys
  refine lt_of_le_of_ne (hx y List.mem_cons_self) fun heq => ?_
  -- Two neighbours of the same time can change places.
  have hswap : Chronological (xs ++ x :: y :: ys) (xs ++ y :: x :: ys) := by
    refine ⟨(List.Perm.swap x y ys).append_left xs, List.pairwise_append.2 ⟨hxs, ?_, ?_⟩⟩
    · obtain ⟨hy, hys⟩ := List.pairwise_cons.1 hys
      refine List.pairwise_cons.2 ⟨List.forall_mem_cons.2 ⟨heq.ge, hy⟩, List.pairwise_cons.2
        ⟨fun z hz => hx z (List.mem_cons_of_mem _ hz), hys⟩⟩
    · intro a ha b hb
      exact hle a ha b (((List.Perm.swap x y ys).mem_iff).1 hb)
  exact (hchain _ ⟨.refl _, hsorted⟩).not_swap (hchain _ hswap)
    (fun a ha b hb hab => (canonical_eq_iff.1 (hinj a ha b hb hab)).previousHash) hgenesis

end Growing

/-! ## What the calls record -/

section Calls

variable [Hashlib] [Postgres] {s : Store} {r : Recording} {rs : List Recording}

/-- A call records its event, or leaves the stores as they were. -/
theorem Recording.exec_cases :
    (Recordable r.entityType r.entityId r.actorId ∧ ∃ e, Recorded s r.entry r.stamp.now e ∧
      r.exec s = { s with events := s.events.insert e }) ∨
    (¬Recordable r.entityType r.entityId r.actorId ∨ s.events.get? r.stamp.id ≠ none) ∧
      r.exec s = s := by
  have hwp : (recordEvent r.stamp r.eventType r.entityType r.entityId r.actorId r.description
    r.details).wp backend _ _ s := wp_recordEvent
  obtain ⟨hok, herror⟩ := wp_iff_run.1 hwp
  rw [Recording.exec]
  split
  · obtain ⟨he, hs', hrecordable⟩ := hok _ _ ‹_›
    exact .inl ⟨hrecordable, _, he, hs'⟩
  · obtain ⟨_, hvalue, hdatabase⟩ := herror _ _ ‹_›
    exact .inr ⟨(em _).imp hvalue hdatabase, rfl⟩

/-- An event that is recorded points to a latest one. -/
theorem Recorded.follows {y : Entry} {now : DateTime} {e : AuditEvent}
    (h : Recorded s y now e) (hhash : ∀ x ∈ s.events.rows, x.eventHash = x.computeHash) :
    Follows s.events.rows e := by
  have hprev := h.previousHash
  rw [Store.lastHash] at hprev
  have hlatest := pairwise_orderBy (fun e : AuditEvent => -e.stamp) s.events.rows
  -- `e` is linked to the first of the latest events, if there are any.
  cases horder : orderBy (fun e : AuditEvent => -e.stamp) s.events.rows with
  | nil =>
    rw [horder] at hprev
    have hlength : s.events.rows.length = 0 := by
      rw [← length_orderBy, horder, List.length_nil]
    exact .inl ⟨List.length_eq_zero_iff.1 hlength, hprev⟩
  | cons w ws =>
    rw [horder] at hprev hlatest
    have hmem : ∀ {x}, x ∈ w :: ws ↔ x ∈ s.events.rows := by
      intro x
      rw [← horder, mem_orderBy]
    have hw : w ∈ s.events.rows := hmem.1 List.mem_cons_self
    refine .inr ⟨w, hw, fun x hx => ?_, ?_⟩
    · rcases List.mem_cons.1 (hmem.2 hx) with rfl | hx'
      · exact le_refl _
      · exact Int.neg_le_neg_iff.1 ((List.pairwise_cons.1 hlatest).1 x hx')
    · -- The hash of an event is no empty text.
      have hne : w.eventHash.text ≠ "" := by
        intro hempty
        have hlength := Hashlib.length_sha256 w.canonical
        rw [← computeHash, ← hhash w hw, hempty] at hlength
        cases hlength
      rw [hprev, List.head?_cons, Option.map_some, orGenesis, if_neg hne]

omit [Hashlib] [Postgres] in
/-- A recording is admitted if it finds no event with its identifier. -/
theorem admitted_concat :
    admitted (rs ++ [r]) =
      if r.Admitted (admitted rs) then admitted rs ++ [r] else admitted rs := by
  rw [admitted, List.foldl_concat, ← admitted]

/-- The last recording comes last. -/
theorem recordEach_concat : recordEach (rs ++ [r]) s = r.exec (recordEach rs s) :=
  List.foldl_concat ..

/-- The events recorded are those of the calls that record one, and each points to a
    latest one of those before it. -/
theorem grown_recordEach (rs : List Recording) :
    Grown (recordEach rs .empty).events.rows ∧
      Carrying (recordEach rs .empty).events.rows (admitted rs) := by
  induction rs using List.reverseRecOn with
  | nil => exact ⟨.nil, rfl, rfl⟩
  | append_singleton rs r ih =>
    obtain ⟨hgrown, hcarrying⟩ := ih
    rw [recordEach_concat, admitted_concat]
    generalize recordEach rs .empty = s at hgrown hcarrying ⊢
    have hid : s.events.get? r.stamp.id = none ↔ ∀ r' ∈ admitted rs, r'.stamp.id ≠ r.stamp.id := by
      rw [Table.get?_eq_none, ← List.forall_mem_map (f := AuditEvent.id) (P := (· ≠ r.stamp.id)),
        hcarrying.ids, List.forall_mem_map]
    -- The recording is admitted exactly if its event gets into the trail.
    rcases r.exec_cases (s := s) with ⟨hrecordable, e, he, heq⟩ | ⟨hnot, heq⟩
    · rw [heq, if_pos ⟨hrecordable, hid.1 he.fresh⟩]
      have hentry := he.entry
      have hkey : s.events.get? e.id = none := by
        have := he.fresh
        rwa [← hentry] at this
      rw [Table.rows_insert hkey]
      refine ⟨hgrown.concat (he.follows hgrown.eventHash_eq) he.eventHash, ?_, ?_⟩
      · rw [List.map_append, List.map_append, hcarrying.ids]
        exact congrArg (_ ++ [·]) (congrArg Entry.id hentry)
      · rw [List.map_append, List.map_append, hcarrying.times]
        exact congrArg (_ ++ [·]) (congrArg DateTime.instant he.occurredAt)
    · rw [heq, if_neg fun h => hnot.elim (absurd h.1) fun h' => h' (hid.2 h.2)]
      exact ⟨hgrown, hcarrying⟩

/-- The trail is valid if the clock goes forward, for whatever database. -/
theorem verifyChain_of_increasing (h : Increasing (admitted rs)) {events : List AuditEvent}
    (hevents : Chronological (recordEach rs .empty).events.rows events) :
    verifyChain events = true := by
  obtain ⟨hgrown, hcarrying⟩ := grown_recordEach rs
  have hclock : (recordEach rs .empty).events.rows.Pairwise fun x y => x.stamp < y.stamp := by
    rw [← List.pairwise_map (f := stamp), hcarrying.times, List.pairwise_map]
    exact h
  have hsame : events = (recordEach rs .empty).events.rows :=
    (eq_orderBy hevents.perm hevents.sorted ((List.pairwise_map.2 hclock).imp Int.ne_of_lt)).trans
      (orderBy_of_pairwise hclock)
  exact verifyChain_eq_true.2 (hsame ▸ hgrown.linked hclock)

end Calls

/-! ### Two events -/

namespace Trail

/-- A decision is created, and submitted a minute later. -/
def forward : List Recording :=
  [Fork.recording (created ⟨0⟩), Fork.recording (submitted ⟨1⟩)]

section Forward

attribute [local instance] hashlib Postgres.stable

/-- The two events, and the hash of the second one. -/
theorem rows_forward : ∃ y, (recordEach forward .empty).events.rows = [(created ⟨0⟩).sealed, y] ∧
    y.computeHash = submittedHash :=
  ⟨_, rfl, if_neg fun h => AuditEventType.noConfusion (canonical_eq_iff.1 h).eventType⟩

end Forward

end Trail

namespace Backward

/-- The decision is submitted before it is created, by the clock. -/
def backward : List Recording :=
  [Fork.recording (Trail.submitted ⟨1⟩), Fork.recording (Trail.created ⟨0⟩)]

/-- What the hash of the creation is when it is recorded last. -/
def turnedHash : Bounded 0 64 :=
  ⟨"edc3b775ec1b8fa6c7ce4d13a00af1e1dc63ed4e8bf67d2fc64e0012c7d18853", by decide⟩

/-- SHA-256, on the canonical texts of the two events. -/
@[reducible] def hashlib : Hashlib where
  sha256 s := if s = { Trail.submitted ⟨1⟩ with previousHash := genesisHash }.canonical
    then Fork.forkHash else turnedHash
  length_sha256 s := by split <;> rfl

attribute [local instance] hashlib Postgres.stable

/-- No event has the hash that the trail begins with. -/
theorem computeHash_ne_genesisHash (e : AuditEvent) : e.computeHash ≠ genesisHash := by
  change ite _ _ _ ≠ _
  split <;> decide

end Backward

end OpenDataGov
