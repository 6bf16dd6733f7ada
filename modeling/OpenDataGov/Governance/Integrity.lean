import OpenDataGov.Governance.Services

/-!
# What the verification of the trail covers

`verify_integrity` verifies the first events of the trail only, up to a limit
that its route leaves at the default. An event whose content has been changed in
the table is noticed there if it is, or was, one of these events.

A change of the table is a store with another event in the place of one with its identifier
(`Store.tamper`). It keeps the hashes, as somebody does who changes a row and not the chain, and
it may move the event to another place of the trail, which is ordered by the times of the events.

* `verifyIntegrity_tampered`: the verification of a trail with a changed event
  fails exactly when the event is among the first `defaultLimit` ones before the
  change or after it;
* `position_lt`, `position_tamper`: the place of an event in the trail, before the
  change and after it.

The digests are a parameter (`Hashlib`). That they do not collide is assumed of the events of the
trail, and of the changed one; the examples come with digests for which it is the case.
-/

namespace OpenDataGov

open AuditEvent Calendar HashChain Keyed AuditService Transact

/-- The row of the event `x` overwritten with the event `e`. -/
def AuditEvent.overwrite (e x : AuditEvent) : AuditEvent := { e with id := x.id }

theorem AuditEvent.id_overwrite (e x : AuditEvent) : (e.overwrite x).id = x.id := rfl

/-- The column with the identifier is not changed, and the others are all there is. -/
theorem AuditEvent.overwrite_eq {e x : AuditEvent} (h : x.id = e.id) : e.overwrite x = e := by
  rw [overwrite, h]

/-- The stores after somebody has put the event `e` in the place of the one with
    its id. -/
def Store.tamper (s : Store) (e : AuditEvent) : Store :=
  { s with events := s.events.modify e.id e.overwrite e.id_overwrite }

section Tampering

variable {s : Store} {e e' x : AuditEvent} {n : ℕ}

theorem rows_tamper : (s.tamper e').events.rows =
    s.events.rows.map fun x => if x.id = e'.id then e'.overwrite x else x := rfl

/-- The changed event is in the table, -/
theorem mem_tamper (he : e ∈ s.events.rows) (hid : e'.id = e.id) :
    e' ∈ (s.tamper e').events.rows := by
  refine List.mem_map.2 ⟨e, he, ?_⟩
  rw [if_pos hid.symm, overwrite_eq hid.symm]

/-- The other events stay. -/
theorem filter_tamper : (s.tamper e').events.rows.filter (fun x => x.id ≠ e'.id) =
    s.events.rows.filter fun x => x.id ≠ e'.id := by
  rw [rows_tamper]
  induction s.events.rows with
  | nil => rfl
  | cons x rows ih =>
    by_cases h : x.id = e'.id <;> simpa [h, id_overwrite] using ih

/-- with the others as they have been. -/
theorem mem_of_mem_tamper (hx : x ∈ (s.tamper e').events.rows) :
    x = e' ∨ x ∈ s.events.rows ∧ x.id ≠ e'.id := by
  obtain ⟨r, hr, rfl⟩ := List.mem_map.1 hx
  split_ifs with h
  · exact .inl (overwrite_eq h)
  · exact .inr ⟨hr, h⟩

/-- The first elements of a list, if all of them pass a filter. -/
theorem take_filter_of_forall {ρ : Type} {p : ρ → Bool} {rows : List ρ}
    (h : ∀ r ∈ rows.take n, p r = true) : (rows.filter p).take n = rows.take n := by
  induction rows generalizing n with
  | nil => rfl
  | cons r rows ih =>
    cases n with
    | zero => rfl
    | succ n =>
      obtain ⟨hr, hrows⟩ := List.forall_mem_cons.1 h
      rw [List.filter_cons_of_pos hr, List.take_succ_cons, List.take_succ_cons, ih hrows]

variable [Postgres]

theorem mem_chain : x ∈ s.chain ↔ x ∈ s.events.rows := mem_orderBy

/-- The number of events before `e` in the trail. -/
def Store.position (s : Store) (e : AuditEvent) : ℕ := s.chain.findIdx fun x => x.id = e.id

/-- The first `n` events are those with positions below `n`. -/
theorem position_lt (he : e ∈ s.events.rows) : s.position e < n ↔ e ∈ s.chain.take n := by
  have hlt : s.position e < s.chain.length :=
    List.findIdx_lt_length.2 ⟨e, mem_chain.2 he, decide_eq_true rfl⟩
  constructor
  · intro h
    have hid : s.chain[s.position e].id = e.id :=
      of_decide_eq_true (List.findIdx_getElem (w := hlt))
    have heq : s.chain[s.position e] = e :=
      Table.eq_of_key_eq (mem_chain.1 (List.getElem_mem hlt)) he hid
    exact List.mem_take_iff_getElem.2 ⟨_, lt_min h hlt, heq⟩
  · intro h
    obtain ⟨i, hi, heq⟩ := List.mem_take_iff_getElem.1 h
    by_contra! hle
    have hne : ¬decide (s.chain[i].id = e.id) = true :=
      Bool.eq_false_iff.1 (List.not_of_lt_findIdx ((hi.trans_le (min_le_left _ _)).trans_le hle))
    exact hne (decide_eq_true (by rw [heq]))

/-- There are as many events after the change as before. -/
theorem length_chain_tamper : (s.tamper e').chain.length = s.chain.length := by
  rw [Store.chain, Store.chain, length_orderBy, length_orderBy, rows_tamper, List.length_map]

/-- A change that starts and ends beyond the first `n` events leaves them. -/
theorem take_chain_tamper (hstamps : s.stamps.Nodup) (he : e ∈ s.events.rows)
    (hid : e'.id = e.id) (hout : e ∉ s.chain.take n) (hout' : e' ∉ (s.tamper e').chain.take n) :
    (s.tamper e').chain.take n = s.chain.take n := by
  have hother : ∀ x ∈ s.chain.take n, decide (x.id ≠ e'.id) = true := fun x hx =>
    decide_eq_true fun h => hout <|
      Table.eq_of_key_eq (mem_chain.1 (List.mem_of_mem_take hx)) he (h.trans hid) ▸ hx
  have hother' : ∀ x ∈ (s.tamper e').chain.take n, decide (x.id ≠ e'.id) = true := fun x hx =>
    decide_eq_true fun h => hout' <| by
      have heq := Table.eq_of_key_eq (mem_chain.1 (List.mem_of_mem_take hx)) (mem_tamper he hid) h
      rwa [heq] at hx
  have hnodup : ((s.events.rows.filter fun x => x.id ≠ e'.id).map stamp).Nodup :=
    hstamps.sublist (List.filter_sublist.map _)
  rw [← take_filter_of_forall hother, ← take_filter_of_forall hother', Store.chain, Store.chain,
    filter_orderBy hnodup, filter_orderBy (by rwa [filter_tamper]), filter_tamper]

/-- A change that keeps the time of an event keeps its position. -/
theorem position_tamper (hstamps : s.stamps.Nodup) (he : e ∈ s.events.rows) (hid : e'.id = e.id)
    (hat : e'.occurredAt = e.occurredAt) : (s.tamper e').position e' = s.position e := by
  let f : AuditEvent → AuditEvent := fun x => if x.id = e'.id then e'.overwrite x else x
  -- The order of the chain looks at the times only, and these are not changed.
  have hf : ∀ x ∈ s.events.rows, (f x).occurredAt = x.occurredAt := by
    intro x hx
    simp only [f]
    split_ifs with h
    · rw [Table.eq_of_key_eq hx he (h.trans hid)]
      exact hat
    · rfl
  have hstamps' : (s.tamper e').stamps.Nodup := by
    suffices hkeys : (s.tamper e').stamps = s.stamps from hkeys ▸ hstamps
    rw [Store.stamps, rows_tamper, List.map_map]
    exact List.map_congr_left fun x hx => congrArg DateTime.instant (hf x hx)
  have hchain : (s.tamper e').chain = s.chain.map f := by
    refine (eq_orderBy ((perm_orderBy _ _).map f) ?_ hstamps').symm
    refine List.pairwise_map.2 ((pairwise_orderBy _ _).imp_of_mem fun hx hy h => ?_)
    rwa [stamp, stamp, hf _ (mem_chain.1 hx), hf _ (mem_chain.1 hy)]
  rw [Store.position, hchain, List.findIdx_map, Store.position]
  congr 1
  funext x
  simp only [Function.comp_apply, f, hid]
  split_ifs <;> rfl

end Tampering

section Verifying

variable [Hashlib] {s : Store} {e e' : AuditEvent} {limit : ℕ}

/-- Events that do not carry the hash of what they say are noticed. -/
theorem verifyChain_eq_false {events : List AuditEvent} (he : e ∈ events)
    (hhash : e.eventHash ≠ e.computeHash) : verifyChain events = false :=
  Bool.eq_false_iff.2 fun h => hhash ((verifyChain_eq_true.1 h).digest_eq e he)

variable [Postgres]

/-- What the service answers: whether the first events make a chain. -/
theorem run_verifyIntegrity : (verifyIntegrity limit).run backend s =
    (.ok (verifyChain (s.chain.take limit)), s) := rfl

/-- The verification of a trail in which the content of an event has been changed
    fails exactly when the event is one of the first events before or after the
    change. -/
theorem verifyIntegrity_tampered (hstamps : s.stamps.Nodup) (hchain : verifyChain s.chain = true)
    (he : e ∈ s.events.rows) (hid : e'.id = e.id) (hhash : e'.eventHash = e.eventHash)
    (hchange : ¬e.Agrees e')
    (hinj : ∀ x ∈ e' :: s.events.rows, ∀ y ∈ s.events.rows,
      x.computeHash = y.computeHash → x.canonical = y.canonical)
    (hgenesis : ∀ x ∈ s.events.rows, x.computeHash ≠ genesisHash) :
    (verifyIntegrity defaultLimit).run backend (s.tamper e') = (.ok false, s.tamper e') ↔
      s.position e < defaultLimit ∨ (s.tamper e').position e' < defaultLimit := by
  have hlinked := verifyChain_eq_true.1 hchain
  rw [run_verifyIntegrity, position_lt he, position_lt (mem_tamper he hid)]
  generalize defaultLimit = limit
  suffices hsuff : verifyChain ((s.tamper e').chain.take limit) = false ↔
      e ∈ s.chain.take limit ∨ e' ∈ (s.tamper e').chain.take limit by simpa using hsuff
  constructor
  -- An event that is not among the first ones, before or after, has not changed them.
  · intro hfalse
    by_contra! hout
    rw [take_chain_tamper hstamps he hid hout.1 hout.2,
      verifyChain_eq_true.2 (hlinked.take limit)] at hfalse
    cases hfalse
  · intro hin
    by_cases hin' : e' ∈ (s.tamper e').chain.take limit
    · -- The changed event does not carry its hash any more.
      refine verifyChain_eq_false hin' fun h => hchange ?_
      have heq : e'.computeHash = e.computeHash :=
        h.symm.trans (hhash.trans (hlinked.digest_eq e (mem_chain.2 he)))
      exact canonical_eq_iff.1 (hinj e' List.mem_cons_self e he heq).symm
    · -- The event is gone from the first ones, and the chain has no way around it.
      replace hin := hin.resolve_right hin'
      refine Bool.eq_false_iff.2 fun htrue => ?_
      have hother : ∀ x ∈ (s.tamper e').chain.take limit, x ∈ s.events.rows ∧ x.id ≠ e'.id := by
        intro x hx
        refine (mem_of_mem_tamper (mem_chain.1 (List.mem_of_mem_take hx))).resolve_left ?_
        rintro rfl
        exact hin' hx
      have hprefix : (s.tamper e').chain.take limit <+: s.chain := by
        refine hlinked.isPrefix (verifyChain_eq_true.1 htrue)
          (fun x hx => mem_chain.2 (hother x hx).1) (fun x hx y hy h => ?_)
          fun x hx => hgenesis x (mem_chain.1 hx)
        -- Events with the same digest happened at the same time.
        have hx' := mem_chain.1 hx
        have hagree := canonical_eq_iff.1 (hinj x (List.mem_cons_of_mem _ hx') y (mem_chain.1 hy) h)
        exact List.inj_on_of_nodup_map hstamps hx' (mem_chain.1 hy)
          (congrArg DateTime.instant hagree.occurredAt)
      have heq : (s.tamper e').chain.take limit = s.chain.take limit := by
        have := List.prefix_iff_eq_take.1 hprefix
        rwa [List.length_take, length_chain_tamper, List.take_eq_take_min.symm] at this
      exact (hother e (heq ▸ hin)).2 hid.symm

end Verifying

/-! ### A trail of two events, the first of them changed -/

namespace Trail

/-- The digest of the altered event. -/
def alteredHash : Bounded 0 64 :=
  ⟨"eceb4e978cbdb85328abb835c55bd53aeba6aaac2b1a92eeccb608d184a1b9de", by decide⟩

/-- The creation, of a decision with another title. -/
def altered : AuditEvent := { created ⟨0⟩ with description := "Decision created: u" }

/-- SHA-256, on the canonical texts of the three events. -/
@[reducible] def alteredHashlib : Hashlib where
  sha256 s := if s = altered.canonical then alteredHash else hashlib.sha256 s
  length_sha256 s := by
    split
    · rfl
    · exact hashlib.length_sha256 s

/-- A trail of two events. -/
def store : Store := { Store.empty with
  events := (Table.empty.insert (created ⟨0⟩)).insert (submitted ⟨1⟩) }

theorem rows_store : store.events.rows = [created ⟨0⟩, submitted ⟨1⟩] := rfl

theorem computeHash_altered : @computeHash alteredHashlib altered = alteredHash := if_pos rfl

theorem computeHash_created' : @computeHash alteredHashlib (created ⟨0⟩) = createdHash :=
  (if_neg fun h => absurd (canonical_eq_iff.1 h).description (by decide)).trans
    (computeHash_created ⟨0⟩)

theorem computeHash_submitted' : @computeHash alteredHashlib (submitted ⟨1⟩) = submittedHash :=
  (if_neg fun h => absurd (canonical_eq_iff.1 h).description (by decide)).trans
    (computeHash_submitted ⟨1⟩)

attribute [local instance] alteredHashlib Postgres.stable

/-- The trail is in the order of the times. -/
theorem chain_store : store.chain = [created ⟨0⟩, submitted ⟨1⟩] :=
  orderBy_of_pairwise (by rw [rows_store]; decide)

/-- The change of the first event is noticed. -/
theorem altered_noticed : (verifyIntegrity defaultLimit).run backend (store.tamper altered) =
    (.ok false, store.tamper altered) := by
  have hstamps : store.stamps.Nodup := by decide
  have he : created ⟨0⟩ ∈ store.events.rows := by simp [rows_store]
  have hid : altered.id = (created ⟨0⟩).id := rfl
  refine (verifyIntegrity_tampered hstamps ?_ he hid rfl ?_ ?_ ?_).2 (.inl ?_)
  · rw [chain_store, verifyChain_eq_true]
    exact ⟨rfl, computeHash_created'.symm, rfl, computeHash_submitted'.symm, trivial⟩
  · exact fun h => absurd h.description (by decide)
  · rw [rows_store]
    simp only [List.forall_mem_cons, computeHash_altered, computeHash_created',
      computeHash_submitted']
    decide
  · rw [rows_store]
    simp only [List.forall_mem_cons, computeHash_created', computeHash_submitted']
    decide
  · rw [Store.position, chain_store]
    decide

end Trail

/-! ### A trail of 1001 events, the last of them changed -/

namespace Log

/-- The number of the events: one more than are verified. -/
@[irreducible] def size : ℕ := 1001

/-- `size` is not unfolded otherwise, so that nothing computes with 1001 events. -/
theorem size_eq : size = 1001 := by rw [size]

/-- The digests have the length of those of SHA-256. -/
theorem length_digest (i : ℕ) :
    (String.ofList (List.replicate 60 'f' ++ Text.hexDigits 4 i)).length = 64 := by
  rw [String.length_ofList, List.length_append, List.length_replicate, Text.length_hexDigits]

/-- A hash for the `i`-th event. -/
def digest (i : ℕ) : Bounded 0 64 :=
  ⟨String.ofList (List.replicate 60 'f' ++ Text.hexDigits 4 i), by rw [length_digest]; decide⟩

/-- The hash at the end of the first `i` events. -/
def previous : ℕ → Bounded 0 64
  | 0 => genesisHash
  | i + 1 => digest i

/-- The `i`-th event: a vote, a second after the one before. -/
def event (i : ℕ) : AuditEvent := { Trail.created ⟨BitVec.ofNat 128 i⟩ with
  eventType := .approvalCast
  description := "Vote approve cast by u-1 (role: responsible)"
  occurredAt := ⟨63906148800000000 + 1000000 * i, some 0⟩
  previousHash := previous i
  eventHash := digest i }

/-- The last event, of a vote against. -/
def altered : AuditEvent :=
  { event 1000 with description := "Vote reject cast by u-1 (role: responsible)" }

/-- A hash function without collisions on the events. -/
@[reducible] def hashlib : Hashlib where
  sha256 s := digest (((List.range size).find? fun i => (event i).canonical = s).getD size)
  length_sha256 _ := length_digest _

/-- They are distinct. -/
theorem digest_injOn {i j : ℕ} (hi : i ≤ size) (hj : j ≤ size) (h : digest i = digest j) :
    i = j := by
  have hdigits := List.append_cancel_left (String.ofList_injective (congrArg Bounded.text h))
  have heq : ∀ n, Text.hexDigits 4 n = [Text.hexDigit (n / 4096 % 16),
      Text.hexDigit (n / 256 % 16), Text.hexDigit (n / 16 % 16), Text.hexDigit (n % 16)] :=
    fun n => by simp [Text.hexDigits, List.range_succ]
  rw [heq, heq] at hdigits
  simp only [List.cons.injEq, and_true] at hdigits
  obtain ⟨h₁, h₂, h₃, h₄⟩ := hdigits
  have hsize : size < 0x10000 := by rw [size_eq]; decide
  rw [← Json.hex4_codeUnit (hi.trans_lt hsize), ← Json.hex4_codeUnit (hj.trans_lt hsize), h₁, h₂,
    h₃, h₄]

/-- None of them is the one that a trail begins with. -/
theorem digest_ne_genesisHash (i : ℕ) : digest i ≠ genesisHash := fun h => by
  have := String.ofList_injective (congrArg Bounded.text h)
  simp [List.replicate_succ] at this

theorem canonical_event {i j : ℕ} : (event i).canonical = (event j).canonical ↔ i = j := by
  refine ⟨fun h => ?_, fun h => by rw [h]⟩
  have := congrArg DateTime.wall (canonical_eq_iff.1 h).occurredAt
  simpa [event] using this

theorem canonical_altered (i : ℕ) : (event i).canonical ≠ altered.canonical := fun h => by
  have := (canonical_eq_iff.1 h).description
  simp [event, altered] at this

/-- Their identifiers are distinct. -/
theorem id_injOn {i j : ℕ} (hi : i < size) (hj : j < size) (h : (event i).id = (event j).id) :
    i = j := by
  have := congrArg (fun id : UUID => id.bits.toNat) h
  simp only [event, Trail.created, BitVec.toNat_ofNat] at this
  rw [size_eq] at hi hj
  omega

/-- The trail of 1001 events. -/
def store : Store := { Store.empty with
  events := ⟨(List.range size).map event, by
    rw [List.map_map]
    refine List.Nodup.map_on (fun i hi j hj h => ?_) List.nodup_range
    exact id_injOn (List.mem_range.1 hi) (List.mem_range.1 hj) h⟩ }

theorem rows_store : store.events.rows = (List.range size).map event := rfl

/-- Its events. -/
theorem mem_store {e : AuditEvent} : e ∈ store.events.rows ↔ ∃ i < size, event i = e := by
  rw [rows_store, List.mem_map]
  simp only [List.mem_range]

attribute [local instance] hashlib Postgres.stable

/-- The digest of a text is that of the event with this text. -/
theorem sha256_eq (s : String) : Hashlib.sha256 s =
    digest (((List.range size).find? fun i => (event i).canonical = s).getD size) := rfl

/-- Each event has its own digest, -/
theorem computeHash_event {i : ℕ} (hi : i < size) : (event i).computeHash = digest i := by
  have : ((List.range size).find? fun j => (event j).canonical = (event i).canonical) = some i := by
    refine List.find?_range_eq_some.2 ⟨by simp, List.mem_range.2 hi, fun j hj => ?_⟩
    simpa [canonical_event] using hj.ne
  rw [computeHash, sha256_eq, this, Option.getD_some]

/-- and the altered one has the digest that is left. -/
theorem computeHash_altered : altered.computeHash = digest size := by
  have : ((List.range size).find? fun j => (event j).canonical = altered.canonical) = none := by
    simp [canonical_altered]
  rw [computeHash, sha256_eq, this, Option.getD_none]

/-- The first events form a chain. -/
theorem linked (n : ℕ) (hn : n ≤ size) : Linked chaining genesisHash ((List.range n).map event) ∧
    tip chaining genesisHash ((List.range n).map event) = previous n := by
  induction n with
  | zero => exact ⟨trivial, rfl⟩
  | succ n ih =>
    obtain ⟨hl, ht⟩ := ih (Nat.le_of_succ_le hn)
    rw [List.range_succ, List.map_append, List.map_singleton, linked_concat, tip_append, ht]
    exact ⟨⟨hl, rfl, (computeHash_event hn).symm⟩, rfl⟩

/-- The rows are in the order of the times. -/
theorem pairwise_store : store.events.rows.Pairwise fun e e' => e.stamp < e'.stamp := by
  rw [rows_store]
  refine List.pairwise_map.2 (List.pairwise_lt_range.imp fun {i j} h => ?_)
  simp only [event, stamp, DateTime.instant]
  omega

/-- So the trail is made of the rows as they are. -/
theorem chain_store : store.chain = (List.range size).map event := by
  rw [Store.chain, orderBy_of_pairwise pairwise_store, rows_store]

/-- No two events happened at the same time. -/
theorem stamps_store : store.stamps.Nodup := by
  rw [Store.stamps, List.Nodup, List.pairwise_map]
  exact pairwise_store.imp fun h => Int.ne_of_lt h

/-- The last event is in the table. -/
theorem last_mem : event 1000 ∈ store.events.rows :=
  mem_store.2 ⟨1000, by rw [size_eq]; decide, rfl⟩

/-- The last event is beyond those that are verified. -/
theorem last_not_mem_take : event 1000 ∉ store.chain.take defaultLimit := by
  rw [chain_store, ← List.map_take, List.take_range, size_eq]
  intro h
  obtain ⟨i, hi, heq⟩ := List.mem_map.1 h
  have hi : i < 1000 := List.mem_range.1 hi
  have h1000 : i = 1000 := id_injOn (by rw [size_eq]; omega) (by rw [size_eq]; decide)
    (congrArg AuditEvent.id heq)
  omega

/-- There are no collisions among the events. -/
theorem canonical_of_computeHash : ∀ x ∈ altered :: store.events.rows, ∀ y ∈ store.events.rows,
    x.computeHash = y.computeHash → x.canonical = y.canonical := by
  intro x hx y hy h
  obtain ⟨j, hj, rfl⟩ := mem_store.1 hy
  rw [computeHash_event hj] at h
  rcases List.mem_cons.1 hx with rfl | hx
  · rw [computeHash_altered] at h
    exact absurd (digest_injOn le_rfl hj.le h) hj.ne'
  · obtain ⟨i, hi, rfl⟩ := mem_store.1 hx
    rw [computeHash_event hi] at h
    rw [digest_injOn hi.le hj.le h]

/-- The chain is valid and the last event is changed, but the verification succeeds. -/
theorem altered_unnoticed : store.stamps.Nodup ∧ verifyChain store.chain = true ∧
    event 1000 ∈ store.events.rows ∧ altered.id = (event 1000).id ∧
    altered.eventHash = (event 1000).eventHash ∧ ¬(event 1000).Agrees altered ∧
    (∀ x ∈ altered :: store.events.rows, ∀ y ∈ store.events.rows,
      x.computeHash = y.computeHash → x.canonical = y.canonical) ∧
    (∀ x ∈ store.events.rows, x.computeHash ≠ genesisHash) ∧
    (verifyIntegrity defaultLimit).run backend (store.tamper altered) =
      (.ok true, store.tamper altered) := by
  have hlinked := (linked size le_rfl).1
  have hid : altered.id = (event 1000).id := rfl
  have hout' : altered ∉ (store.tamper altered).chain.take defaultLimit := by
    rw [← position_lt (mem_tamper last_mem hid), position_tamper stamps_store last_mem hid rfl,
      position_lt last_mem]
    exact last_not_mem_take
  refine ⟨stamps_store, ?_, last_mem, hid, rfl, fun h => canonical_altered 1000
    (canonical_eq_iff.2 h), canonical_of_computeHash, fun x hx => ?_, ?_⟩
  · rw [chain_store]
    exact verifyChain_eq_true.2 hlinked
  · obtain ⟨i, hi, rfl⟩ := mem_store.1 hx
    rw [computeHash_event hi]
    exact digest_ne_genesisHash i
  · rw [run_verifyIntegrity, take_chain_tamper stamps_store last_mem hid last_not_mem_take hout',
      chain_store, verifyChain_eq_true.2 (hlinked.take _)]

end Log

end OpenDataGov
