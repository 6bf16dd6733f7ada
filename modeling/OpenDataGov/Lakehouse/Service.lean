import OpenDataGov.Core.Basic
import OpenDataGov.Lakehouse.Buckets

/-!
# The service of the lakehouse

The API of the lakehouse agent: requests to promote a dataset, whose scores have been validated
(`PromoteRequest`), and requests to create the buckets of a domain, one of which the service
makes for itself when it starts. MinIO and its client are a parameter here as well (`Minio`).

* `promoteData_alone`: what a request to promote comes to, depending on what there is. The names
  and keys that the client does not accept, as a key that is blank or goes up with `..`, are an
  error of the server (`Copyable`), since the route handles `PromotionError` only;
* `put_of_step`: what a step puts is what has been read before in the first layer, since a program
  that is about to upload has got the content as the answer to its only query so far;
* `view_bronze`: the first layer stays as it was, as nothing is promoted to it;
* `provenance`: so every version of an object has been there from the start, or is what the
  first layer held from the start on. This is proved from the versions that are there after a
  step: they were there before, or the step has put them (`mem_versions_effect`).
-/

namespace OpenDataGov

namespace Lakehouse

open Transact Program Function MinIOBucketManager

/-! ## Requests -/

/-- The body of a request to promote a dataset. -/
structure PromoteRequest where
  domainId : Bounded 1 100
  sourceLayer : MedallionLayer
  targetLayer : MedallionLayer
  datasetId : Bounded 1 500
  dqScore : { x : ℚ // 0 ≤ x ∧ x ≤ 1 }

/-- The call of the service. -/
def PromoteRequest.call (body : PromoteRequest) (decisionId : UUID) : Promote where
  domainId := body.domainId.text
  sourceLayer := body.sourceLayer
  targetLayer := body.targetLayer
  datasetId := body.datasetId.text
  dqScore := .finite body.dqScore.1
  decisionId := decisionId

/-- The response to a request to promote a dataset. -/
inductive PromoteResponse
  /-- 200 -/
  | result (r : PromotionResult)
  /-- 400 -/
  | badRequest (detail : String)
  /-- 500 -/
  | serverError

/-- The response to a request, from what its call comes to. -/
def promoteData : Except Failure PromotionResult → PromoteResponse
  | .ok r => .result r
  | .error (.promotionError msg) => .badRequest msg
  | .error _ => .serverError

variable {σ ι κ : Type}

/-- Requests about to be served, on a server in the state `s`. -/
def served (s : σ) (requests : ι → PromoteRequest) (decisionIds : ι → UUID)
    (domains : κ → String) :
    Pool (ι ⊕ κ) ClientOp.Answer Failure (PromotionResult ⊕ List String) σ :=
  opened s (fun t => (requests t).call (decisionIds t)) domains

/-! ## What a request comes to -/

namespace PromoteRequest

variable (body : PromoteRequest)

/-- The score that is required for the layers of the request, unless it skips one, or goes back. -/
def threshold : Option ℚ := dqThresholds.find? (body.sourceLayer, body.targetLayer)

/-- The bucket that the dataset may be copied to. -/
def targetBucket : String := bucketName .silver body.domainId.text

end PromoteRequest

/-- A dataset can be copied to the second layer of its domain: it is in the first one, the bucket
    of the second one is there, and the client accepts the names of both with the key. -/
def Copyable (m : Minio σ) (s : σ) (domainId key : String) (data : Bytes) : Prop :=
  (m.accepts (.getObject (bucketName .bronze domainId) key) = true ∧
    m.accepts (.putObject (bucketName .silver domainId) key data) = true) ∧
    m.view s (bucketName .bronze domainId) key = some data ∧
    ∃ b, m.buckets s (bucketName .silver domainId) = some b

section Alone

variable {m : Minio σ} {s : σ} {a : Promote} {data : Bytes}

/-- What a promotion to the second layer sends. -/
theorem via_autoPromotion {β : Type} (f : PromotionResult → β) (hsource : a.sourceLayer = .bronze)
    (htarget : a.targetLayer = .silver) :
    ∃ r : PromotionResult, r.promoted = true ∧ r.governanceDecisionId = none ∧
      a.autoPromotion.via callOf answerOf f =
        .query (.getObject (bucketName .bronze a.domainId) a.datasetId) fun data =>
          .query (.putObject (bucketName .silver a.domainId) a.datasetId data) fun _ =>
            .pure (f r) := by
  rw [Promote.autoPromotion, hsource, htarget]
  exact ⟨_, rfl, rfl, rfl⟩

/-- What can be copied is copied, on a server that serves. -/
theorem run_copied {β : Type} (hm : m.Promises) (hserves : m.Serves) (f : PromotionResult → β)
    (hsource : a.sourceLayer = .bronze) (htarget : a.targetLayer = .silver)
    (h : Copyable m s a.domainId a.datasetId data) : ∃ r s',
    (a.autoPromotion.via callOf answerOf f).run m.client s = (.ok (f r), s') ∧
      r.promoted = true ∧ r.governanceDecisionId = none ∧
      m.view s' = update (m.view s) (bucketName .silver a.domainId)
        (update (m.view s (bucketName .silver a.domainId)) a.datasetId (some data)) := by
  obtain ⟨⟨hget, hput⟩, hdata, b, hb⟩ := h
  obtain ⟨r, hpromoted, hdecision, hvia⟩ := via_autoPromotion f hsource htarget
  obtain ⟨data', hread⟩ := hserves.getObject _ _ s data hget hdata
  obtain ⟨hdata', hbuckets⟩ := hm.getObject hread
  obtain rfl : data' = data := Option.some.inj (hdata'.symm.trans hdata)
  -- The answer has changed nothing that the upload needs.
  obtain ⟨u, hwritten⟩ := hserves.putObject _ _ data'
    (m.effect (.getObject (bucketName .bronze a.domainId) a.datasetId) s) b hput
    (by rw [hbuckets, hb])
  refine ⟨r, _, ?_, hpromoted, hdecision, (hm.view_putObject hwritten).trans ?_⟩
  · rw [hvia]
    refine (run_send (Minio.answer_client.2 hread)).trans ?_
    exact run_send (Minio.answer_client.2 hwritten)
  · rw [Minio.view, hbuckets]
    rfl

/-- What cannot be copied is an error of the store, and nothing has changed. -/
theorem run_not_copied (hm : m.Promises) (hserves : m.Serves) (hsource : a.sourceLayer = .bronze)
    (htarget : a.targetLayer = .silver)
    (h : ∀ data, ¬Copyable m s a.domainId a.datasetId data) : ∃ msg s',
    (a.autoPromotion.via callOf answerOf id).run m.client s = (.error (.storageError msg), s') ∧
      m.buckets s' = m.buckets s := by
  obtain ⟨r, -, -, hvia⟩ := via_autoPromotion id hsource htarget
  rw [hvia]
  cases hget : m.client.answer (.getObject (bucketName .bronze a.domainId) a.datasetId) s with
  | error e =>
    obtain ⟨⟨msg, rfl⟩, -⟩ := Minio.error_client hget
    exact ⟨msg, s, run_send_error hget, rfl⟩
  | ok data =>
    have hread := Minio.answer_client.1 hget
    obtain ⟨hdata, hbuckets⟩ := hm.getObject hread
    cases hput : m.client.answer (.putObject (bucketName .silver a.domainId) a.datasetId data)
        (m.effect (.getObject (bucketName .bronze a.domainId) a.datasetId) s) with
    | error e =>
      obtain ⟨⟨msg, rfl⟩, -⟩ := Minio.error_client hput
      exact ⟨msg, _, (run_send hget).trans (run_send_error hput), hbuckets⟩
    | ok u =>
      -- Then it could have been copied.
      have hwritten := Minio.answer_client.1 hput
      obtain ⟨b, -, hb, -⟩ := hm.putObject hwritten
      rw [hbuckets] at hb
      exact absurd ⟨⟨hserves.accepts hread, hserves.accepts hwritten⟩, hdata, b, hb⟩ (h data)

/-- Between other layers than a layer and the next one, nothing is promoted. -/
theorem promote_eq_promotionError (h : dqThresholds.find? (a.sourceLayer, a.targetLayer) = none) :
    ∃ msg, a.promote = .raise (.promotionError msg) := by
  obtain ⟨domainId, sourceLayer, targetLayer, datasetId, dqScore, decisionId⟩ := a
  simp only at h
  rw [Promote.promote]
  cases sourceLayer <;> cases targetLayer <;> first | exact ⟨_, rfl⟩ | cases h

end Alone

/-- What a request comes to, with the state that it leaves: there is one case for each state of
    the service in which it may be sent. -/
inductive PromoteRequest.Comes (m : Minio σ) (s : σ) (body : PromoteRequest) (decisionId : UUID) :
    PromoteResponse → σ → Prop
  /-- The layers are no step forward. -/
  | badRequest {detail : String} : body.threshold = none → Comes _ _ _ _ (.badRequest detail) s
  /-- The score is too low. -/
  | refused {t : ℚ} {r : PromotionResult} : body.threshold = some t → body.dqScore.1 < t →
      r.promoted = false → r.governanceDecisionId = none → Comes _ _ _ _ (.result r) s
  /-- The layers are governed. -/
  | decision {t : ℚ} {r : PromotionResult} : body.threshold = some t → t ≤ body.dqScore.1 →
      body.sourceLayer ≠ .bronze → r.promoted = false →
      r.governanceDecisionId = some decisionId.str → Comes _ _ _ _ (.result r) s
  /-- The object is copied. -/
  | copied {t : ℚ} {r : PromotionResult} {data : Bytes} {s' : σ} : body.threshold = some t →
      t ≤ body.dqScore.1 → body.sourceLayer = .bronze →
      Copyable m s body.domainId.text body.datasetId.text data → r.promoted = true →
      r.governanceDecisionId = none →
      m.view s' = update (m.view s) body.targetBucket
        (update (m.view s body.targetBucket) body.datasetId.text (some data)) →
      Comes _ _ _ _ (.result r) s'
  /-- It cannot be copied. -/
  | serverError {t : ℚ} {s' : σ} : body.threshold = some t → t ≤ body.dqScore.1 →
      body.sourceLayer = .bronze →
      (∀ data, ¬Copyable m s body.domainId.text body.datasetId.text data) →
      m.buckets s' = m.buckets s → Comes _ _ _ _ .serverError s'

/-- From the first layer, the dataset goes to the second one. -/
theorem targetLayer_of_threshold {body : PromoteRequest} {t : ℚ} (h : body.sourceLayer = .bronze)
    (ht : body.threshold = some t) : body.targetLayer = .silver := by
  rw [PromoteRequest.threshold, h] at ht
  revert ht
  cases body.targetLayer <;> intro ht <;> cases ht
  rfl

/-- What a request comes to that is alone, on a server that serves: it is refused as a bad one, or
    because of its score, or it asks for a decision, or its dataset is copied, unless it cannot
    be, which is an error of the server. Only in one case is there any change, which is the one
    copy. -/
theorem promoteData_alone {m : Minio σ} (hm : m.Promises) (hserves : m.Serves) (s : σ)
    (body : PromoteRequest) (decisionId : UUID) : ∃ r s',
    ((body.call decisionId).promote.via callOf answerOf id).run m.client s = (r, s') ∧
      body.Comes m s decisionId (promoteData r) s' := by
  cases hfind : body.threshold with
  | none =>
    obtain ⟨msg, hraise⟩ := promote_eq_promotionError (a := body.call decisionId) hfind
    exact ⟨.error (.promotionError msg), s, by rw [hraise]; rfl, .badRequest hfind⟩
  | some t =>
    rw [Promote.promote_eq (a := body.call decisionId) hfind]
    -- A score below the threshold, a promotion out of bronze, or one that needs a decision.
    split_ifs with hlt hbronze
    · exact ⟨_, s, rfl, .refused hfind (of_decide_eq_true hlt) rfl rfl⟩
    · have hscore : t ≤ body.dqScore.1 :=
        not_lt.1 (of_decide_eq_false (Bool.eq_false_of_not_eq_true hlt))
      have htarget := targetLayer_of_threshold hbronze hfind
      -- Out of bronze, the object is copied if it can be read and its copy written.
      by_cases hcopyable : ∃ data, Copyable m s body.domainId.text body.datasetId.text data
      · obtain ⟨data, hdata⟩ := hcopyable
        obtain ⟨r, s', hrun, hpromoted, hdecision, hview⟩ :=
          run_copied hm hserves id hbronze htarget hdata
        exact ⟨_, s', hrun, .copied hfind hscore hbronze hdata hpromoted hdecision hview⟩
      · have hnone := not_exists.1 hcopyable
        obtain ⟨msg, s', hrun, hsame⟩ := run_not_copied hm hserves hbronze htarget hnone
        exact ⟨_, s', hrun, .serverError hfind hscore hbronze hnone hsame⟩
    · have hscore : t ≤ body.dqScore.1 :=
        not_lt.1 (of_decide_eq_false (Bool.eq_false_of_not_eq_true hlt))
      exact ⟨_, s, rfl, .decision hfind hscore hbronze rfl rfl⟩

/-! ## Where versions come from -/

section Runs

variable [DecidableEq ι] [DecidableEq κ] {m : Minio σ} {s : σ} {calls : ι → Promote}
  {domains : κ → String}
  {past : Pool.Past (ι ⊕ κ) ClientOp.Answer Failure (PromotionResult ⊕ List String) σ}
  {c c' : Pool (ι ⊕ κ) ClientOp.Answer Failure (PromotionResult ⊕ List String) σ}
  {name key : String} {data : Bytes}

/-- Who puts an object promotes it from the first layer to the second one, where its key had
    the content before. -/
structure Puts (m : Minio σ) (calls : ι → Promote)
    (past : Pool.Past (ι ⊕ κ) ClientOp.Answer Failure (PromotionResult ⊕ List String) σ)
    (t : ι) (name key : String) (data : Bytes) : Prop where
  layers : (calls t).sourceLayer = .bronze ∧ (calls t).targetLayer = .silver
  score : (calls t).dqScore.lt (7 / 10) = false
  name_eq : name = bucketName .silver (calls t).domainId
  key_eq : key = (calls t).datasetId
  read : ∃ y ∈ past, m.view y.1.store (bucketName .bronze (calls t).domainId) key = some data

/-- What a step puts is what has been read before. -/
theorem put_of_step {i : ι ⊕ κ} (hm : m.Promises)
    (h : Pool.Run m.client (opened s calls domains) past c)
    (hst : Pool.Step m.client c (i, .putObject name key data) c') :
    ∃ t, Puts m calls past t name key data := by
  rcases i with t | t
  · obtain ⟨k', hk'⟩ := hst.thread
    obtain ⟨log', hfollows', hlog'⟩ := (hk' ▸ h.answered (.inl t)).log
    obtain ⟨log, p, hfollows, hp, hlog⟩ := Follows.of_via hfollows'
    -- The query is that of an upload.
    obtain ⟨k, rfl⟩ : ∃ k, p = .query (.uploadObject name key data) k := by
      cases p with
      | pure r => cases hp
      | raise e => cases hp
      | query op k =>
        cases op with
        | getObject => cases hp
        | uploadObject bucket key data =>
          cases hp
          exact ⟨k, rfl⟩
    obtain ⟨⟨hsource, htarget, hlt⟩, hname, hkey, rfl⟩ := Promote.promote_follows_upload hfollows
    obtain ⟨x', rest, ⟨r, rfl, rfl⟩, hnil, rfl⟩ := List.forall₂_cons_right_iff.1 hlog
    obtain ⟨y, hy, hanswer⟩ := hlog' _ List.mem_cons_self
    refine ⟨t, ⟨hsource, htarget⟩, hlt, hname, hkey, y, hy, hkey ▸ ?_⟩
    exact (hm.getObject (Minio.answer_client.1 hanswer)).1
  · have hsends : ((opened s calls domains).thread (.inr t)).Sends ClientOp.PutsNothing :=
      ensureLayers_sends.bind fun _ => trivial
    exact absurd rfl (h.sends hst hsends name key data)

/-- The first layer stays as it was. -/
theorem view_bronze (hm : m.Promises) (h : Pool.Run m.client (opened s calls domains) past c)
    (domainId : String) :
    m.view c.store (bucketName .bronze domainId) = m.view s (bucketName .bronze domainId) ∧
    ∀ y ∈ past, m.view y.1.store (bucketName .bronze domainId) =
      m.view s (bucketName .bronze domainId) := by
  induction h with
  | start => exact ⟨rfl, by rintro _ ⟨⟩⟩
  | @step past c c' x hrun hst ih =>
    obtain ⟨hc, hpast⟩ := ih
    refine ⟨?_, List.forall_mem_append.2 ⟨hpast, List.forall_mem_singleton.2 hc⟩⟩
    cases hst with
    | fail => exact hc
    | @answer i q k r hthread hr =>
      have hanswer := Minio.answer_client.1 hr
      -- Only promotions put objects, and these go to other layers.
      by_cases hput : ∃ name key data, q = .putObject name key data
      · obtain ⟨name, key, data, rfl⟩ := hput
        obtain ⟨t, hputs⟩ := put_of_step hm hrun (.answer hthread hr)
        have hne : bucketName .bronze domainId ≠ name := fun heq => by
          cases (bucketName_injective (heq.trans hputs.name_eq)).1
        refine (congrFun (hm.view_putObject hanswer) _).trans ?_
        rw [update_of_ne hne]
        exact hc
      · have hother : q.PutsNothing := fun name key data heq => hput ⟨name, key, data, heq⟩
        exact (congrFun (hm.view_effect hanswer hother) _).trans hc

/-- What a version comes from: it has been there from the start, or a call has promoted it from
    the first layer, where it was from the start. -/
def Origin (m : Minio σ) (s : σ) (calls : ι → Promote) (name key : String) (data : Bytes) : Prop :=
  (∃ b, m.buckets s name = some b ∧ some data ∈ b.versions key) ∨
    ∃ t, ((calls t).sourceLayer = .bronze ∧ (calls t).targetLayer = .silver) ∧
      (calls t).dqScore.lt (7 / 10) = false ∧ name = bucketName .silver (calls t).domainId ∧
      key = (calls t).datasetId ∧ m.view s (bucketName .bronze (calls t).domainId) key = some data

/-- A version that a call leaves has been there before, or is put by the call. -/
theorem mem_versions_effect {q : ClientOp} {r : q.Answer} {b : Bucket} (hm : m.Promises)
    (hr : m.answer q s = .ok r) (hb : m.buckets (m.effect q s) name = some b)
    (hdata : some data ∈ b.versions key) :
    (∃ b, m.buckets s name = some b ∧ some data ∈ b.versions key) ∨
      q = .putObject name key data := by
  -- Other buckets than the one of the call are as they were.
  have hother : ∀ {name' b'}, m.buckets (m.effect q s) = update (m.buckets s) name' (some b') →
      (name = name' → b = b' → (∃ b, m.buckets s name = some b ∧ some data ∈ b.versions key) ∨
        q = .putObject name key data) →
      (∃ b, m.buckets s name = some b ∧ some data ∈ b.versions key) ∨
        q = .putObject name key data := by
    intro name' b' heffect hsame
    rw [heffect] at hb
    by_cases hname : name = name'
    · subst hname
      rw [update_self] at hb
      exact hsame rfl (Option.some.inj hb).symm
    · rw [update_of_ne hname] at hb
      exact .inl ⟨b, hb, hdata⟩
  cases q with
  | bucketExists name' => exact .inl ⟨b, (hm.bucketExists hr).2 ▸ hb, hdata⟩
  | getObject name' key' => exact .inl ⟨b, (hm.getObject hr).2 ▸ hb, hdata⟩
  | makeBucket name' =>
    obtain ⟨b', heffect, hcases⟩ := hm.makeBucket hr
    refine hother heffect ?_
    rintro rfl rfl
    rcases hcases with hthere | ⟨-, hempty⟩
    · exact .inl ⟨b, hthere, hdata⟩
    · rw [hempty] at hdata
      cases hdata
  | setBucketVersioning name' =>
    obtain ⟨b', hthere, heffect⟩ := hm.setBucketVersioning hr
    refine hother heffect ?_
    rintro rfl rfl
    exact .inl ⟨b', hthere, hdata⟩
  | putObject name' key' data' =>
    obtain ⟨b', b'', hthere, hput, heffect⟩ := hm.putObject hr
    refine hother heffect ?_
    rintro rfl rfl
    by_cases hkey : key = key'
    · subst hkey
      obtain ⟨kept, hlatest, hkept, -⟩ := hput.latest
      rw [hlatest] at hdata
      rcases List.mem_cons.1 hdata with heq | hold
      · cases heq
        exact .inr rfl
      · exact .inl ⟨b', hthere, hkept hold⟩
    · rw [hput.others key hkey] at hdata
      exact .inl ⟨b', hthere, hdata⟩

/-- By induction on the run: each step keeps the origin of the versions there were, and what it
    puts has been read in a first layer that is as it was from the start. -/
theorem origin_of_run (hm : m.Promises) (h : Pool.Run m.client (opened s calls domains) past c)
    {b : Bucket} (hb : m.buckets c.store name = some b) (hdata : some data ∈ b.versions key) :
    Origin m s calls name key data := by
  induction h generalizing b with
  | start => exact .inl ⟨b, hb, hdata⟩
  | @step past c c' x hrun hst ih =>
    cases hst with
    | fail => exact ih hb hdata
    | @answer i q k r hthread hr =>
      rcases mem_versions_effect hm (Minio.answer_client.1 hr) hb hdata with
        ⟨b', hb', hdata'⟩ | rfl
      · exact ih hb' hdata'
      · obtain ⟨t, hputs⟩ := put_of_step hm hrun (.answer hthread hr)
        obtain ⟨y, hy, hread⟩ := hputs.read
        refine .inr ⟨t, hputs.layers, hputs.score, hputs.name_eq, hputs.key_eq, ?_⟩
        rw [← (view_bronze hm hrun _).2 y hy]
        exact hread

end Runs

section Requests

variable [DecidableEq ι] [DecidableEq κ] {m : Minio σ} {s : σ} {requests : ι → PromoteRequest}
  {decisionIds : ι → UUID} {domains : κ → String}
  {past : Pool.Past (ι ⊕ κ) ClientOp.Answer Failure (PromotionResult ⊕ List String) σ}
  {c : Pool (ι ⊕ κ) ClientOp.Answer Failure (PromotionResult ⊕ List String) σ}
  {name key : String} {data : Bytes} {b : Bucket}

/-- Whatever requests are served at the same time, every version of every object has been there
    from the start, or it is what the first layer of a domain held from the start on, and a
    request has promoted it to the second layer of the domain, under its key and with a score
    that is good enough. -/
theorem provenance (hm : m.Promises)
    (h : Pool.Run m.client (served s requests decisionIds domains) past c)
    (hb : m.buckets c.store name = some b) (hdata : some data ∈ b.versions key) :
    (∃ b, m.buckets s name = some b ∧ some data ∈ b.versions key) ∨
      ∃ t, ((requests t).sourceLayer = .bronze ∧ (requests t).targetLayer = .silver) ∧
        7 / 10 ≤ (requests t).dqScore.1 ∧
        name = bucketName .silver (requests t).domainId.text ∧
        key = (requests t).datasetId.text ∧
        m.view s (bucketName .bronze (requests t).domainId.text) key = some data := by
  refine (origin_of_run hm h hb hdata).imp_right fun ⟨t, hlayers, hscore, hrest⟩ => ?_
  exact ⟨t, hlayers, not_lt.1 (of_decide_eq_false hscore), hrest⟩

end Requests

namespace Billing

/-- The request for a dataset that is good enough, on a server that has the buckets. -/
def request : PromoteRequest where
  domainId := ⟨"billing", by decide⟩
  sourceLayer := .bronze
  targetLayer := .silver
  datasetId := ⟨"ds-invoices-2024", by decide⟩
  dqScore := ⟨3 / 4, by decide +kernel⟩

/-- There is a dataset in the first layer, and a bucket for the second one. -/
def buckets : Buckets := fun name => match name with
  | "odg-bronze-billing" =>
    some ⟨true, fun key => if key = "ds-invoices-2024" then [some [42]] else []⟩
  | "odg-silver-billing" => some ⟨true, fun _ => []⟩
  | _ => none

/-- The dataset can be copied. -/
theorem copyable : Copyable Memory.server buckets "billing" "ds-invoices-2024" [42] :=
  ⟨⟨rfl, rfl⟩, rfl, _, rfl⟩

/-- The dataset is promoted: no other case is possible. -/
theorem promoteData_alone_copied : ∃ r s',
    ((request.call ⟨0⟩).promote.via callOf answerOf id).run Memory.server.client buckets =
      (r, s') ∧ ∃ result, promoteData r = .result result ∧ result.promoted = true := by
  obtain ⟨r, s', hrun, hcomes⟩ :=
    promoteData_alone Memory.promises_server Memory.serves_server buckets request ⟨0⟩
  refine ⟨r, s', hrun, ?_⟩
  generalize promoteData r = response at hcomes ⊢
  cases hcomes with
  | badRequest h => cases h
  | refused h hlt =>
    cases h
    exact absurd hlt (by decide +kernel)
  | decision _ _ h => exact absurd rfl h
  | copied _ _ _ _ h => exact ⟨_, rfl, h⟩
  | serverError _ _ _ h => exact absurd copyable (h _)

/-- The only request is about to be served. -/
def serving :
    Pool (Unit ⊕ Empty) ClientOp.Answer Failure (PromotionResult ⊕ List String) Buckets :=
  served buckets (fun _ => request) (fun _ => ⟨0⟩) nofun

/-- Once it has been served, the object is in the second layer. -/
theorem exists_served : ∃ past c, Pool.Run Memory.server.client serving past c ∧
    ∃ b, c.store "odg-silver-billing" = some b ∧ some [42] ∈ b.versions "ds-invoices-2024" := by
  obtain ⟨r, s', hrun, -, -, hview⟩ :=
    run_copied (a := request.call ⟨0⟩) Memory.promises_server Memory.serves_server
      (Sum.inl (β := List String)) rfl rfl copyable
  have hthread : serving.thread (.inl ()) =
      (request.call ⟨0⟩).autoPromotion.via callOf answerOf .inl := by
    change (request.call ⟨0⟩).promote.via _ _ _ = _
    have hlt : (request.call ⟨0⟩).dqScore.lt (7 / 10) = false := by decide +kernel
    rw [Promote.promote_eq (a := request.call ⟨0⟩) (t := 7 / 10) rfl,
      if_neg (ne_true_of_eq_false hlt)]
    rfl
  obtain ⟨past, hpast⟩ := Pool.Run.alone .start hthread hrun
  refine ⟨past, _, hpast, ?_⟩
  have hlatest : s'.view "odg-silver-billing" "ds-invoices-2024" = some [42] := by
    refine (congrFun (congrFun hview _) _).trans ?_
    exact (congrFun (update_self ..) _).trans (update_self ..)
  obtain ⟨b, hb, hhead⟩ := Option.bind_eq_some_iff.1 hlatest
  exact ⟨b, hb, List.mem_of_head? (Option.join_eq_some_iff.1 hhead)⟩

/-- After the request, the second layer has it from the first. -/
theorem provenance_served : ∃ past c, Pool.Run Memory.server.client serving past c ∧
    ∃ b, c.store "odg-silver-billing" = some b ∧ some [42] ∈ b.versions "ds-invoices-2024" ∧
      ((∃ b, buckets "odg-silver-billing" = some b ∧ some [42] ∈ b.versions "ds-invoices-2024") ∨
        ∃ _ : Unit, (request.sourceLayer = .bronze ∧ request.targetLayer = .silver) ∧
          7 / 10 ≤ request.dqScore.1 ∧
          "odg-silver-billing" = bucketName .silver request.domainId.text ∧
          "ds-invoices-2024" = request.datasetId.text ∧
          buckets.view (bucketName .bronze request.domainId.text) "ds-invoices-2024" =
            some [42]) := by
  obtain ⟨past, c, h, b, hb, hdata⟩ := exists_served
  exact ⟨past, c, h, b, hb, hdata, provenance Memory.promises_server h hb hdata⟩

end Billing

end Lakehouse

end OpenDataGov
