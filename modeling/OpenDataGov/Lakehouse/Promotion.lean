import Mathlib.Data.Rat.Cast.Order
import OpenDataGov.Core.Enums
import OpenDataGov.Lib.Dict
import OpenDataGov.Lib.Threads

/-!
# Promotion across the layers of the lakehouse

The promotion of datasets, which are objects of a store, to the next layer of the medallion
architecture, and the calls that promote datasets at the same time.

A promotion is a program over two operations of a store: it reads the object in the one bucket and
uploads it to the other. Before that it makes all its checks, so that a promotion that is refused
has touched nothing. Calls at the same time are threads over one store (`Lib.Threads`), of which
any may fail at any operation, and the order of their operations is arbitrary. What is true of all
runs is found from what a single program may send (`promote_follows_upload`).

* `bucketName_injective`: the buckets of different layers and domains have different names;
* `promote_follows_upload`: all that is ever uploaded is what has been read in the first
  layer, into the second one;
* `lakehouse_safe`: so nothing else changes in a run of any calls, and what is uploaded
  was good enough, unless its score is not a number.

A score is a number or one of the others that a float may be (`Score`), as the comparison with the
threshold is false of what is not a number. The store of objects is abstract here;
`Lakehouse.Buckets` has it as what is seen of the buckets of MinIO.
-/

namespace OpenDataGov

namespace Lakehouse

open Keyed Transact Program Function

/-! ## Scores -/

/-- A score of data quality, which is a float: a number, or one that is infinite or none. -/
inductive Score
  | finite (x : ℚ)
  | posInf
  | negInf
  | nan
  deriving DecidableEq

/-- `dq_score < threshold`, as floats are compared: what is not a number is less than
    nothing. -/
def Score.lt : Score → ℚ → Bool
  | .finite x, t => x < t
  | .posInf, _ => false
  | .negInf, _ => true
  | .nan, _ => false

/-- `dq_score >= threshold`, which is not the negation of that. -/
def Score.ge : Score → ℚ → Bool
  | .finite x, t => t ≤ x
  | .posInf, _ => true
  | .negInf, _ => false
  | .nan, _ => false

/-- A score that is not below a threshold has reached it, unless it is not a number. -/
theorem Score.ge_iff {s : Score} {t : ℚ} : s.ge t = true ↔ s.lt t = false ∧ s ≠ .nan := by
  cases s <;> simp [ge, lt]

/-! ## The store of objects -/

/-- The content of an object. -/
abbrev Bytes := List UInt8

/-- The name of the bucket of a layer and a domain. -/
def bucketName (layer : MedallionLayer) (domainId : String) : String :=
  s!"odg-{layer.value}-{domainId}"

/-- The operations of a `BucketManager`. -/
inductive Op
  | getObject (bucket key : String)
  | uploadObject (bucket key : String) (data : Bytes)

/-- The bucket that an operation is about. -/
def Op.bucket : Op → String
  | .getObject bucket _ => bucket
  | .uploadObject bucket _ _ => bucket

/-- What an operation returns. What is returned for an upload is not looked at. -/
def Op.Answer : Op → Type
  | .getObject _ _ => Bytes
  | .uploadObject _ _ _ => Unit

/-- What may be raised. -/
inductive Failure
  /-- A `PromotionError`. -/
  | promotionError (msg : String)
  /-- A `KeyError` of one of the tables. -/
  | keyError
  /-- An error of the store, or of the connection to it. -/
  | storageError (msg : String)
  deriving DecidableEq

/-- The content of the objects there are, by their buckets and keys. -/
abbrev ObjectStore := String → String → Option Bytes

/-- The answer of the store to an operation that does not fail. -/
def answer : (op : Op) → ObjectStore → Except Failure op.Answer
  | .getObject bucket key, s => match s bucket key with
    | some data => .ok data
    | none => .error (.storageError "NoSuchKey")
  | .uploadObject _ _ _, _ => .ok ()

/-- The store after an operation. -/
def effect : Op → ObjectStore → ObjectStore
  | .getObject _ _, s => s
  | .uploadObject bucket key data, s => update s bucket (update (s bucket) key (some data))

/-- Reading an object gives its content, if it is there. -/
theorem answer_getObject {bucket key : String} {s : ObjectStore} {data : Bytes} :
    answer (.getObject bucket key) s = .ok data ↔ s bucket key = some data := by
  rw [answer]
  cases s bucket key with
  | none => simp
  | some _ =>
    constructor
    · exact fun h => congrArg some (Except.ok.inj h)
    · exact fun h => congrArg Except.ok (Option.some.inj h)

/-- An upload replaces one object, and no other. -/
theorem effect_uploadObject {bucket key bucket' key' : String} {data : Bytes} {s : ObjectStore} :
    effect (.uploadObject bucket key data) s bucket' key' =
      if bucket' = bucket ∧ key' = key then some data else s bucket' key' := by
  rw [effect]
  by_cases hb : bucket' = bucket
  · subst hb
    by_cases hk : key' = key <;> simp [hk]
  · simp [hb]

/-- The store, on which nothing is locked. -/
def storage : Backend Op.Answer Failure ObjectStore Unit := ⟨answer, effect, fun _ => []⟩

/-- Programs on the store of objects. -/
abbrev Prog := Program Op.Answer Failure

/-- The operations, as programs: reading, -/
def getObject (bucket key : String) : Prog Bytes := send (Op.getObject bucket key)

/-- and uploading. -/
def uploadObject (bucket key : String) (data : Bytes) : Prog Unit :=
  send (Op.uploadObject bucket key data)

/-! ## The service -/

/-- A formatted string: texts, and scores between them. -/
abbrev Formatted := List (String ⊕ Score)

/-- The outcome of a promotion. -/
structure PromotionResult where
  promoted : Bool
  autoApproved : Bool
  governanceDecisionId : Option String
  sourceLayer : String
  targetLayer : String
  datasetId : String
  dqScore : Score
  reason : Formatted
  deriving DecidableEq

/-- The scores that are required to get from a layer to another. -/
def dqThresholds : Dict (MedallionLayer × MedallionLayer) ℚ := .ofList [
  ((.bronze, .silver), 7 / 10),
  ((.silver, .gold), 85 / 100),
  ((.gold, .platinum), 95 / 100)]

/-- The layers, from the first to the last. -/
def layerOrder : List MedallionLayer := [.bronze, .silver, .gold, .platinum]

/-- What is done once a score is good enough. -/
inductive Strategy
  | autoPromotion
  | governancePromotion
  deriving DecidableEq

/-- How a dataset gets from one layer to the next. -/
def strategies : Dict (MedallionLayer × MedallionLayer) Strategy := .ofList [
  ((.bronze, .silver), .autoPromotion),
  ((.silver, .gold), .governancePromotion),
  ((.gold, .platinum), .governancePromotion)]

/-- A call of `promote`, with the identifier that it may be given for a decision. -/
structure Promote where
  domainId : String
  sourceLayer : MedallionLayer
  targetLayer : MedallionLayer
  datasetId : String
  dqScore : Score
  decisionId : UUID

namespace Promote

variable (a : Promote)

/-- A promotion goes forward by one layer. -/
def validateTransition : Except Failure Unit :=
  match layerOrder.idxOf? a.sourceLayer, layerOrder.idxOf? a.targetLayer with
  | none, _ => .error (.promotionError s!"Unknown layer: {a.sourceLayer.value} is not in list")
  | some _, none =>
    .error (.promotionError s!"Unknown layer: {a.targetLayer.value} is not in list")
  | some src, some tgt =>
    if tgt ≠ src + 1 then
      .error (.promotionError (s!"Invalid promotion: {a.sourceLayer.value} -> " ++
        s!"{a.targetLayer.value}. Promotions must advance exactly one layer."))
    else .ok ()

/-- The result for a score below the threshold. -/
def refusal (threshold : ℚ) : PromotionResult where
  promoted := false
  autoApproved := false
  governanceDecisionId := none
  sourceLayer := a.sourceLayer.value
  targetLayer := a.targetLayer.value
  datasetId := a.datasetId
  dqScore := a.dqScore
  reason := [.inl "Data quality score ", .inr a.dqScore, .inl " is below the required threshold ",
    .inr (.finite threshold),
    .inl s!" for {a.sourceLayer.value} -> {a.targetLayer.value} promotion"]

/-- Copying the dataset to the bucket of the next layer. -/
def autoPromotion : Prog PromotionResult := do
  let sourceBucket := bucketName a.sourceLayer a.domainId
  let targetBucket := bucketName a.targetLayer a.domainId
  let data ← getObject sourceBucket a.datasetId
  uploadObject targetBucket a.datasetId data
  return {
    promoted := true
    autoApproved := true
    governanceDecisionId := none
    sourceLayer := a.sourceLayer.value
    targetLayer := a.targetLayer.value
    datasetId := a.datasetId
    dqScore := a.dqScore
    reason := [.inl (s!"Automatic promotion: DQ score meets {a.sourceLayer.value} -> " ++
      s!"{a.targetLayer.value} threshold")] }

/-- Asking for a decision. -/
def governancePromotion : PromotionResult where
  promoted := false
  autoApproved := false
  governanceDecisionId := some a.decisionId.str
  sourceLayer := a.sourceLayer.value
  targetLayer := a.targetLayer.value
  datasetId := a.datasetId
  dqScore := a.dqScore
  reason := [.inl (s!"Governance decision required for {a.sourceLayer.value} -> " ++
    s!"{a.targetLayer.value} promotion")]

/-- Carrying out a strategy. -/
def execute : Strategy → Prog PromotionResult
  | .autoPromotion => a.autoPromotion
  | .governancePromotion => .pure a.governancePromotion

/-- Promoting a dataset to the next layer. -/
def promote : Prog PromotionResult := do
  ofExcept a.validateTransition
  match dqThresholds.find? (a.sourceLayer, a.targetLayer) with
  | none => raise .keyError
  | some threshold =>
    if a.dqScore.lt threshold then
      return a.refusal threshold
    else
      match strategies.find? (a.sourceLayer, a.targetLayer) with
      | none => raise .keyError
      | some strategy => a.execute strategy

/-- The promotion is refused because of the score. -/
def Refused : Prop :=
  ∃ r, a.promote = .pure r ∧ r.promoted = false ∧ r.governanceDecisionId = none

end Promote

/-! ## Names of buckets -/

/-- The name of a bucket, character by character. -/
theorem toList_bucketName (layer : MedallionLayer) (domainId : String) :
    (bucketName layer domainId).toList =
      "odg-".toList ++ (layer.value.toList ++ '-' :: domainId.toList) := by
  change ("odg-" ++ layer.value ++ "-" ++ domainId).toList = _
  simp

/-- The buckets of different layers and domains have different names. -/
theorem bucketName_injective {layer layer' : MedallionLayer} {domainId domainId' : String}
    (h : bucketName layer domainId = bucketName layer' domainId') :
    layer = layer' ∧ domainId = domainId' := by
  have hvalue : ∀ layer : MedallionLayer, ∀ c ∈ layer.value.toList, c ≠ '-' := by
    intro layer
    cases layer <;> simp [MedallionLayer.value]
  have hlist := congrArg String.toList h
  rw [toList_bucketName, toList_bucketName] at hlist
  -- The name of a layer ends at the first dash after it.
  obtain ⟨hlayer, hdomain⟩ := Text.span_cancel (hvalue layer) (hvalue layer')
    (Text.stopsAt_cons (not_not.2 rfl)) (Text.stopsAt_cons (not_not.2 rfl))
    (List.append_cancel_left hlist)
  refine ⟨?_, String.toList_injective (List.cons.inj hdomain).2⟩
  revert hlayer
  cases layer <;> cases layer' <;> decide

/-! ## What a call does -/

namespace Promote

variable {a : Promote} {t : ℚ}

/-- The layers of a promotion that is admitted, with the score required. -/
theorem promote_eq (h : dqThresholds.find? (a.sourceLayer, a.targetLayer) = some t) :
    a.promote = if a.dqScore.lt t then .pure (a.refusal t)
      else if a.sourceLayer = .bronze then a.autoPromotion else .pure a.governancePromotion := by
  obtain ⟨domainId, sourceLayer, targetLayer, datasetId, dqScore, decisionId⟩ := a
  simp only at h
  rw [promote]
  cases sourceLayer <;> cases targetLayer <;> cases h <;> rfl

/-- Between layers that have no threshold there is no promotion. -/
theorem promote_eq_raise (h : dqThresholds.find? (a.sourceLayer, a.targetLayer) = none) :
    ∃ e, a.promote = .raise e := by
  obtain ⟨domainId, sourceLayer, targetLayer, datasetId, dqScore, decisionId⟩ := a
  simp only at h
  rw [promote]
  cases sourceLayer <;> cases targetLayer <;> first | exact ⟨_, rfl⟩ | cases h

/-- A promotion is refused because of the score exactly if it is below the threshold. -/
theorem refused_iff (h : dqThresholds.find? (a.sourceLayer, a.targetLayer) = some t) :
    a.Refused ↔ a.dqScore.lt t = true := by
  rw [Refused, promote_eq h]
  constructor
  · rintro ⟨r, hr, -, hnone⟩
    split_ifs at hr with hlt
    · exact hlt
    · cases hr
    · cases hr
      cases hnone
  · intro hlt
    rw [if_pos hlt]
    exact ⟨_, rfl, rfl, rfl⟩

/-- Between other layers, nothing is refused because of the score. -/
theorem not_refused (h : dqThresholds.find? (a.sourceLayer, a.targetLayer) = none) :
    ¬a.Refused := by
  rintro ⟨r, hr, -⟩
  obtain ⟨e, he⟩ := promote_eq_raise h
  cases he.symm.trans hr

/-- A call is about the buckets of its domain only. -/
theorem promote_sends :
    a.promote.Sends fun op => ∃ layer, op.bucket = bucketName layer a.domainId := by
  cases h : dqThresholds.find? (a.sourceLayer, a.targetLayer) with
  | none =>
    obtain ⟨e, he⟩ := promote_eq_raise h
    rw [he]
    trivial
  | some t =>
    rw [promote_eq h]
    split_ifs
    · trivial
    · exact ⟨⟨a.sourceLayer, rfl⟩, fun _ => ⟨⟨a.targetLayer, rfl⟩, fun _ => trivial⟩⟩
    · trivial

/-- What is uploaded is what has been read in the first layer, into the second one. -/
theorem promote_follows_upload {log : List (Exchange Op.Answer)} {bucket key : String}
    {data : Bytes} {k : Unit → Prog PromotionResult}
    (h : a.promote.Follows log (.query (.uploadObject bucket key data) k)) :
    (a.sourceLayer = .bronze ∧ a.targetLayer = .silver ∧ a.dqScore.lt (7 / 10) = false) ∧
      bucket = bucketName .silver a.domainId ∧ key = a.datasetId ∧
      log = [⟨.getObject (bucketName .bronze a.domainId) a.datasetId, data⟩] := by
  cases hfind : dqThresholds.find? (a.sourceLayer, a.targetLayer) with
  | none =>
    obtain ⟨e, he⟩ := promote_eq_raise hfind
    rw [he] at h
    cases h
  | some t =>
    rw [promote_eq hfind] at h
    split_ifs at h with hlt hbronze
    · cases h
    · have hnext : a.targetLayer = .silver ∧ t = 7 / 10 := by
        rw [hbronze] at hfind
        revert hfind
        cases a.targetLayer <;> intro hfind <;> cases hfind
        exact ⟨rfl, rfl⟩
      obtain ⟨htarget, rfl⟩ := hnext
      rw [autoPromotion, hbronze, htarget] at h
      -- The object is read, then it is uploaded, and then nothing more is sent.
      cases h with
      | cons h => cases h with
        | nil => exact ⟨⟨hbronze, htarget, Bool.eq_false_of_not_eq_true hlt⟩, rfl, rfl, rfl⟩
        | cons h => cases h
    · cases h

end Promote

/-! ## Calls at the same time -/

variable {ι : Type}

/-- The calls about to start, on the store `s`. -/
def start (s : ObjectStore) (calls : ι → Promote) :
    Pool ι Op.Answer Failure PromotionResult ObjectStore where
  store := s
  thread t := (calls t).promote

/-- What has happened from the store `s` on is safe. Whatever changes next is an object in
    the second layer, uploaded by a call for its domain with a score that is good enough, and
    it then has the content that its key had in the first layer of the domain before. In the
    other layers nothing has changed, and no call is about another domain. -/
structure Safe [DecidableEq ι] (s : ObjectStore) (calls : ι → Promote)
    (past : Pool.Past ι Op.Answer Failure PromotionResult ObjectStore)
    (c : Pool ι Op.Answer Failure PromotionResult ObjectStore) : Prop where
  changes : ∀ m c', Pool.Step storage c m c' → ∀ bucket key,
    c'.store bucket key ≠ c.store bucket key →
    bucket = bucketName .silver (calls m.1).domainId ∧ (calls m.1).dqScore.ge (7 / 10) = true ∧
      ∃ data, c'.store bucket key = some data ∧
        ∃ y ∈ past, y.1.store (bucketName .bronze (calls m.1).domainId) key = some data
  others : ∀ layer ≠ .silver, ∀ domainId key,
    c.store (bucketName layer domainId) key = s (bucketName layer domainId) key
  domains : ∀ m c', Pool.Step storage c m c' → ∀ layer domainId,
    m.2.bucket = bucketName layer domainId → domainId = (calls m.1).domainId

section Runs

variable [DecidableEq ι] {s : ObjectStore} {calls : ι → Promote}
  {past : Pool.Past ι Op.Answer Failure PromotionResult ObjectStore}
  {c c' : Pool ι Op.Answer Failure PromotionResult ObjectStore} {m : ι × Op}

/-- Only uploads change the store. -/
theorem step_eq_upload (h : Pool.Step storage c m c') {bucket key : String}
    (hchange : c'.store bucket key ≠ c.store bucket key) :
    ∃ data, m.2 = .uploadObject bucket key data ∧ c'.store bucket key = some data := by
  rcases h.store with hstore | hstore
  · rw [hstore] at hchange ⊢
    obtain ⟨t, _ | ⟨bucket', key', data⟩⟩ := m
    · exact absurd rfl hchange
    · change effect (.uploadObject bucket' key' data) c.store bucket key ≠ _ at hchange
      change ∃ _, _ ∧ effect (.uploadObject bucket' key' data) c.store bucket key = _
      rw [effect_uploadObject] at hchange ⊢
      split_ifs at hchange ⊢ with hobject
      · obtain ⟨rfl, rfl⟩ := hobject
        exact ⟨data, rfl, rfl⟩
      · exact absurd rfl hchange
  · rw [hstore] at hchange
    exact absurd rfl hchange

/-- What changes is in the second layer, by a call whose score was not too low, and was in
    the first layer before. -/
theorem run_change (h : Pool.Run storage (start s calls) past c)
    (hst : Pool.Step storage c m c') {bucket key : String}
    (hchange : c'.store bucket key ≠ c.store bucket key) :
    ((calls m.1).sourceLayer = .bronze ∧ (calls m.1).targetLayer = .silver ∧
      (calls m.1).dqScore.lt (7 / 10) = false) ∧
      bucket = bucketName .silver (calls m.1).domainId ∧ ∃ data, c'.store bucket key = some data ∧
        ∃ y ∈ past, y.1.store (bucketName .bronze (calls m.1).domainId) key = some data := by
  obtain ⟨data, hop, hdata⟩ := step_eq_upload hst hchange
  obtain ⟨k, hk⟩ := hst.thread
  obtain ⟨t, op⟩ := m
  simp only at hop
  subst hop
  obtain ⟨log, hfollows, hlog⟩ := (hk ▸ h.answered t).log
  obtain ⟨hcall, hbucket, hkey, rfl⟩ := Promote.promote_follows_upload hfollows
  obtain ⟨y, hy, hanswer⟩ := hlog _ (List.mem_singleton_self _)
  rw [hkey]
  exact ⟨hcall, hbucket, data, hkey ▸ hdata, y, hy, answer_getObject.1 hanswer⟩

/-- Whatever calls are made at the same time, and in whatever order their operations are
    carried out, everything that happens is safe, if no score that counts is not a number. -/
theorem lakehouse_safe (hscores : ∀ t, (calls t).sourceLayer = .bronze →
      (calls t).targetLayer = .silver → (calls t).dqScore ≠ .nan)
    (h : Pool.Run storage (start s calls) past c) : Safe s calls past c where
  changes m c' hst bucket key hchange := by
    obtain ⟨⟨hsource, htarget, hlt⟩, hbucket, hdata⟩ := run_change h hst hchange
    exact ⟨hbucket, Score.ge_iff.2 ⟨hlt, hscores m.1 hsource htarget⟩, hdata⟩
  others layer hlayer domainId key := by
    have hsame : ∀ {past c m c'}, Pool.Run storage (start s calls) past c →
        Pool.Step storage c m c' →
        c'.store (bucketName layer domainId) key = c.store (bucketName layer domainId) key := by
      intro past c m c' hrun hst
      by_contra hne
      exact hlayer (bucketName_injective (run_change hrun hst hne).2.1).1
    induction h with
    | start => rfl
    | step hrun hst ih => exact (hsame hrun hst).trans ih
  domains m c' hst layer domainId hbucket := by
    obtain ⟨layer', hbucket'⟩ := h.sends hst (Promote.promote_sends (a := calls m.1))
    exact (bucketName_injective (hbucket.symm.trans hbucket')).2

end Runs

namespace Finance

/-- The promotion of a dataset of the domain finance, with this score. -/
def promotion (dqScore : Score) : Promote where
  domainId := "finance"
  sourceLayer := .bronze
  targetLayer := .silver
  datasetId := "ds-revenue-2024"
  dqScore := dqScore
  decisionId := ⟨0⟩

/-- A lake that has only this dataset, in its first layer. -/
def lake : ObjectStore := fun bucket key =>
  if bucket = "odg-bronze-finance" ∧ key = "ds-revenue-2024" then some [42] else none

/-- The only call is about to start. -/
def started (dqScore : Score) : Pool Unit Op.Answer Failure PromotionResult ObjectStore :=
  start lake fun _ => promotion dqScore

/-- What the call sends first, and then. -/
def get : Unit × Op := ((), .getObject "odg-bronze-finance" "ds-revenue-2024")

/-- The operation that changes something in the example. -/
def upload : Unit × Op := ((), .uploadObject "odg-silver-finance" "ds-revenue-2024" [42])

/-- The program of a promotion whose score is not too low. -/
theorem promote_promotion {dqScore : Score} (h : dqScore.lt (7 / 10) = false) :
    ∃ r, (promotion dqScore).promote =
      .query (.getObject "odg-bronze-finance" "ds-revenue-2024") fun data =>
        .query (.uploadObject "odg-silver-finance" "ds-revenue-2024" data) fun _ => .pure r := by
  rw [Promote.promote_eq (a := promotion dqScore) (t := 7 / 10) rfl]
  change ∃ r, (if dqScore.lt _ = true then _ else _) = _
  rw [h]
  exact ⟨_, rfl⟩

/-- The dataset is read, and then it is uploaded. -/
theorem run_promotion {dqScore : Score} (h : dqScore.lt (7 / 10) = false) :
    ∃ c c', Pool.Run storage (started dqScore) [(started dqScore, get)] c ∧
      Pool.Step storage c upload c' ∧ c.store = lake ∧ c'.store = effect upload.2 lake := by
  obtain ⟨r, hr⟩ := promote_promotion h
  have hread := Pool.Step.answer (B := storage) (c := started dqScore) (t := ()) hr rfl
  exact ⟨_, _, .step .start hread, .answer (r := ()) Pool.thread_set_self rfl, rfl, rfl⟩

/-- The dataset is good enough. -/
theorem safe_promotion : ∃ past c, Pool.Run storage (started (.finite (3 / 4))) past c ∧
    Safe lake (fun _ => promotion (.finite (3 / 4))) past c := by
  have hlt : (Score.finite (3 / 4)).lt (7 / 10) = false := by decide +kernel
  obtain ⟨c, _, hrun, -⟩ := run_promotion hlt
  exact ⟨_, c, hrun, lakehouse_safe (fun _ _ _ => by decide) hrun⟩

/-- A dataset is promoted with a score that is not a number. -/
theorem not_safe : ¬∀ (s : ObjectStore) (calls : Unit → Promote)
    (past : Pool.Past Unit Op.Answer Failure PromotionResult ObjectStore)
    (c : Pool Unit Op.Answer Failure PromotionResult ObjectStore),
    Pool.Run storage (start s calls) past c → Safe s calls past c := by
  intro h
  have hlt : Score.nan.lt (7 / 10) = false := rfl
  obtain ⟨c, c', hrun, hst, hc, hc'⟩ := run_promotion hlt
  have hchange : c'.store "odg-silver-finance" "ds-revenue-2024" ≠
      c.store "odg-silver-finance" "ds-revenue-2024" := by
    rw [hc, hc']
    decide
  exact absurd ((h _ _ _ c hrun).changes _ c' hst _ _ hchange).2.1 (by decide)

end Finance

end Lakehouse

end OpenDataGov
