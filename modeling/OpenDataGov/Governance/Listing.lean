import OpenDataGov.Governance.Mirror

/-!
# Reading the list of decisions page by page

Between two pages of `GET /api/v1/decisions`, others go on creating decisions, voting on them and
vetoing them. A decision keeps its creation time and its domain, and no decision is deleted
(`fixed_isPrefix_serve`), so its place in the list never moves to the front.

The list has the newest decisions first, and a page is a part of it by limit and offset
(`Lib.Paging`). A decision's place is the number of decisions that are newer (`rank_listed`), which
can only grow. So what a client has not been shown yet may be shown to it twice, when new ones push
it to the next page, but it cannot slip past. Two decisions with the same creation time may change
places, as `ORDER BY` leaves their order open, and are excluded.

* `Outcome.fixed_isPrefix`: a call adds decisions at the end of the table, and keeps the others;
* `exists_reading`: a decision of the first page's time is in the list of every later one;
* `mem_listDecisions`: a client that goes on until a page is not full has seen every decision that
  was there when it read the first page.

With a filter by status this is not so, since a decision leaves the list when its status changes.
-/

namespace OpenDataGov

open Transact Program Keyed Api

/-- What of a decision is never changed, among other things. -/
def GovernanceDecision.fixed (d : GovernanceDecision) :
    UUID × Bounded 1 100 × Calendar.DateTime := (d.id, d.domainId, d.createdAt)

section Growing

variable {r r' : Registry} {fresh : ℕ → Stamp} {c : Call}

/-- The status of a decision is none of that. -/
theorem fixed_mark {id : UUID} {status : DecisionStatus} {t : Calendar.DateTime}
    {md : Json.Dict Json.Scalar} :
    (r.mark id status t md).decisions.rows.map GovernanceDecision.fixed =
      r.decisions.rows.map GovernanceDecision.fixed := by
  rw [decisions_mark, Table.rows_modify, List.map_map]
  refine List.map_congr_left fun d _ => ?_
  rw [Function.comp_apply]
  split_ifs <;> rfl

/-- A call adds decisions at the end of the table, and leaves the others there. -/
theorem Outcome.fixed_isPrefix (h : Outcome r fresh c r') :
    r.decisions.rows.map GovernanceDecision.fixed <+:
      r'.decisions.rows.map GovernanceDecision.fixed := by
  cases h with
  | created => exact Table.rows_isPrefix_insert.map _
  | submitted | rejected | approved | vetoed => exact fixed_mark ▸ List.prefix_refl _
  | refused | voted | overridden | assigned | revoked => exact List.prefix_refl _

end Growing

section Paging

variable [Hashlib] [Postgres] {s : Store}

/-- Requests add decisions at the end of the table, and keep the others. -/
theorem fixed_isPrefix_serve (qs : List ApiRequest) (s : Store) :
    s.decisions.rows.map GovernanceDecision.fixed <+:
      (ApiRequest.serve qs s).decisions.rows.map GovernanceDecision.fixed := by
  obtain ⟨rs, heq, -⟩ := exists_execAll qs s
  rw [heq]
  clear heq
  induction rs generalizing s with
  | nil => exact List.prefix_refl _
  | cons q qs ih => exact (Request.outcome q).fixed_isPrefix.trans (ih _)

/-- The decisions of a domain, or all of them, in the order in which they are listed. -/
def listed (domainId : Option String) (s : Store) : List GovernanceDecision :=
  orderBy (fun d : GovernanceDecision => -d.createdAt.instant) (Read.ofDecisions domainId none s)

/-- The page that is shown is a part of the list. -/
theorem respond_listDecisions {domainId : Option String} {limit offset : ℕ} {xs}
    (h : (Read.listDecisions domainId none limit offset).respond s = ⟨200, .decisions xs⟩) :
    xs = (Paging.page limit offset (listed domainId s)).map .modelValidate := by
  rw [Read.respond, page] at h
  split_ifs at h
  · cases h
    rfl
  · cases h

/-- A page with a smaller offset is answered as well. -/
theorem respond_listDecisions_of_le {s' : Store} {domainId : Option String}
    {limit offset offset' : ℕ} {xs}
    (h : (Read.listDecisions domainId none limit offset).respond s = ⟨200, .decisions xs⟩)
    (hle : offset' ≤ offset) :
    (Read.listDecisions domainId none limit offset').respond s' =
      ⟨200, .decisions ((Paging.page limit offset' (listed domainId s')).map .modelValidate)⟩ := by
  rw [Read.respond, page] at h ⊢
  split_ifs at h with hpage
  · rw [if_pos ⟨hpage.1, by omega, by omega⟩]
    rfl
  · cases h

/-- The stores when the page `k` is read: `before k` is what has been requested meanwhile. -/
def reading (before : ℕ → List ApiRequest) : ℕ → Store
  | 0 => ApiRequest.serve (before 0) .empty
  | k + 1 => ApiRequest.serve (before (k + 1)) (reading before k)

/-- The response to the request for the page `k`, of `limit` decisions. -/
def readPage (before : ℕ → List ApiRequest) (domainId : Option String) (limit k : ℕ) :
    HttpResponse :=
  (Read.listDecisions domainId none limit (k * limit : ℕ)).respond (reading before k)

variable {before : ℕ → List ApiRequest} {domainId : Option String} {d : GovernanceDecision}

omit [Hashlib] in
/-- The decisions with a creation time before `t`, as they are counted by what is fixed. -/
theorem rank_listed {t : ℤ} : Paging.rank (fun d : GovernanceDecision => -d.createdAt.instant) t
    (listed domainId s) = (s.decisions.rows.map GovernanceDecision.fixed).countP fun x =>
      decide (-x.2.2.instant < t) && (domainId.filter (· ≠ "")).all (· = x.2.1.text) := by
  rw [listed, Paging.rank_perm (perm_orderBy _ _), Paging.rank, Read.ofDecisions,
    List.countP_filter, List.countP_map]
  refine List.countP_congr fun d _ => ?_
  rw [Option.all_none, Bool.and_true]
  rfl

/-- So decisions stay in the table from one page to a later one. -/
theorem fixed_isPrefix_reading {k m : ℕ} (h : k ≤ m) :
    (reading before k).decisions.rows.map GovernanceDecision.fixed <+:
      (reading before m).decisions.rows.map GovernanceDecision.fixed := by
  induction h with
  | refl => exact List.prefix_refl _
  | step _ ih => exact ih.trans (fixed_isPrefix_serve _ _)

/-- A decision that is there when the first page is read is so later on. -/
theorem exists_reading (hd : d ∈ Read.ofDecisions domainId none (reading before 0)) (k : ℕ) :
    ∃ d' ∈ Read.ofDecisions domainId none (reading before k), d'.fixed = d.fixed := by
  have hmem : d.fixed ∈ (reading before k).decisions.rows.map GovernanceDecision.fixed :=
    (fixed_isPrefix_reading (Nat.zero_le k)).subset (List.mem_map_of_mem (List.mem_filter.1 hd).1)
  obtain ⟨d', hd', hfixed⟩ := List.mem_map.1 hmem
  refine ⟨d', List.mem_filter.2 ⟨hd', ?_⟩, hfixed⟩
  have hdomain : d'.domainId = d.domainId := congrArg (fun x => x.2.1) hfixed
  rw [hdomain]
  exact (List.mem_filter.1 hd).2

/-- A client that reads one page after another, of all decisions or of those of a domain, and goes
    on until a page is not full, is shown every decision that is there when the first page is read
    and whose creation time no other one has. Meanwhile, all kinds of requests are made. -/
theorem mem_listDecisions {limit m : ℕ} {last : List DecisionResponse}
    (hd : d ∈ Read.ofDecisions domainId none (reading before 0))
    (honly : ∀ d' ∈ (reading before m).decisions.rows,
      d'.createdAt.instant = d.createdAt.instant → d'.id = d.id)
    (hlast : readPage before domainId limit m = ⟨200, .decisions last⟩)
    (hfull : last.length < limit) :
    ∃ k ≤ m, ∃ xs, readPage before domainId limit k = ⟨200, .decisions xs⟩ ∧
      ∃ x ∈ xs, x.id = d.id := by
  choose row hrow hfixed using exists_reading hd
  have hid : ∀ k, (row k).id = d.id := fun k => congrArg Prod.fst (hfixed k)
  have htime : ∀ k, (row k).createdAt = d.createdAt := fun k => congrArg (fun x => x.2.2) (hfixed k)
  -- No other decision has the creation time, since none has it in the end.
  have hone : ∀ k ≤ m, ∀ y ∈ listed domainId (reading before k),
      -y.createdAt.instant = -(row k).createdAt.instant → y = row k := by
    intro k hk y hy heq
    have hy' := (List.mem_filter.1 (mem_orderBy.1 hy)).1
    obtain ⟨z, hz, hzy⟩ := List.mem_map.1 ((fixed_isPrefix_reading hk).subset
      (List.mem_map_of_mem hy'))
    have hzt : z.createdAt.instant = d.createdAt.instant := by
      rw [show z.createdAt = y.createdAt from congrArg (fun x => x.2.2) hzy, ← htime k]
      exact Int.neg_inj.1 heq
    refine Table.eq_of_key_eq hy' (List.mem_filter.1 (hrow k)).1 ?_
    rw [hid, ← honly z hz hzt]
    exact (congrArg Prod.fst hzy).symm
  have hpage := respond_listDecisions hlast
  rw [hpage, List.length_map] at hfull
  have hrank : ∀ k < m, Paging.rank (fun d : GovernanceDecision => -d.createdAt.instant)
      (-(row k).createdAt.instant) (listed domainId (reading before k)) ≤
      Paging.rank (fun d : GovernanceDecision => -d.createdAt.instant)
        (-(row (k + 1)).createdAt.instant) (listed domainId (reading before (k + 1))) := by
    intro k _
    rw [htime, htime, rank_listed, rank_listed]
    exact (fixed_isPrefix_reading (Nat.le_succ k)).sublist.countP_le
  obtain ⟨k, hk, hmem⟩ := Paging.exists_mem_page (l := fun k => listed domainId (reading before k))
    (fun k _ => pairwise_orderBy _ _) (fun k _ => mem_orderBy.2 (hrow k)) hone hrank hfull
  refine ⟨k, hk, _, respond_listDecisions_of_le hlast (Nat.mul_le_mul_right limit hk), _,
    List.mem_map_of_mem hmem, hid k⟩

end Paging

namespace Sales

attribute [local instance] Hashlib.standard Postgres.stable

/-- Nora's decision is there, and vera creates another one after the first page. -/
def meanwhile : ℕ → List ApiRequest
  | 0 => posts
  | 1 => [.change (.createDecision ⟨.dataPromotion, ⟨"Promote refunds", by decide⟩, "",
      ⟨"refunds", by decide⟩, ⟨"vera", by decide⟩, none, .empty⟩) (fresh 2)]
  | _ => []

/-- There is a decision when the first page is read. -/
theorem rows_meanwhile : (reading meanwhile 0).decisions.rows ≠ [] := by
  rw [← List.length_pos_iff]
  decide +kernel

/-- The first one. -/
def first : GovernanceDecision := (reading meanwhile 0).decisions.rows.head rows_meanwhile

/-- The third page is empty. -/
theorem page_meanwhile : readPage meanwhile none 1 2 = ⟨200, .decisions []⟩ := by
  have hnil : Paging.page 1 2 (listed none (reading meanwhile 2)) = [] := by
    rw [← List.length_eq_zero_iff]
    decide +kernel
  rw [readPage, Read.respond, page, if_pos (by decide)]
  exact congrArg (fun l => HttpResponse.mk 200 (.decisions (List.map .modelValidate l))) hnil

/-- With pages of one decision, the second page shows it again, and the third one is empty. -/
theorem mem_listDecisions_first : ∃ k ≤ 2, ∃ xs, readPage meanwhile none 1 k =
    ⟨200, .decisions xs⟩ ∧ ∃ x ∈ xs, x.id = first.id :=
  mem_listDecisions (List.mem_filter.2 ⟨List.head_mem rows_meanwhile, rfl⟩) (by decide +kernel)
    page_meanwhile (by decide)

end Sales

end OpenDataGov
