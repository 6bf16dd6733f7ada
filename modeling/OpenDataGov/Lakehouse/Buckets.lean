import OpenDataGov.Lakehouse.Promotion
import OpenDataGov.Lib.Coupling
import OpenDataGov.Lib.Views

/-!
# The buckets of the lakehouse

The objects of the lakehouse are in the buckets of MinIO, which `MinIOBucketManager` creates and
makes keep the versions of their objects. Domains get their buckets while datasets are promoted:
`ensure_buckets` sends two or three calls for each layer, and anything may happen in between, also
another call for the same domain.

MinIO and its client are not a part of the repository. They are a parameter (`Minio`): a state of
any kind, with what the calls of the client answer there and make of it, and with the buckets that
one may see in it. What the results rest on is documented, and named:

* `Minio.Promises`: what an answered call says of the buckets, and does to them. Any call may
  fail, and one that does changes nothing;
* `Minio.Serves`: a server that is reachable answers all calls whose arguments the client accepts
  (`Minio.accepts`) and which are about something that is there. This is needed only where a call
  is to succeed.

In this sense of the calls, and for any number of promotions and creations of buckets at the same
time,

* `minio_refines`: the promotions on MinIO are promotions on a plain store of objects, whose
  content is that of the latest versions: no creation of buckets can be seen there;
* `versions_kept`: from the time when a call of `ensure_buckets` returns on, the buckets of its
  domain are there, and no version of their objects gets lost;
* `ensureBuckets_alone`: whatever earlier calls have left behind, a call that is alone succeeds
  exactly if the client accepts the names, and it is idempotent.

What carries the second one is an order on what there is (`Keeps`), which every answered call goes
up in: buckets are not deleted, and none whose versions are kept is told to keep them no longer.
The module ends with a server in memory (`Memory`), of which all that is promised.
-/

namespace OpenDataGov

namespace Lakehouse

open Keyed Transact Program Function

/-! ## What there is on MinIO -/

/-- A bucket, with the versions of its objects from the latest on. A version is the content of the
    object, or the marker of its deletion (`none`). -/
structure Bucket where
  versioning : Bool
  versions : String → List (Option Bytes)

/-- The buckets by their names. -/
abbrev Buckets := String → Option Bucket

/-- The contents of the objects: those of their latest versions. -/
def Buckets.view (s : Buckets) : ObjectStore := fun name key =>
  (s name).bind fun b => (b.versions key).head?.join

/-- The buckets that are there stay there; those that keep versions go on with it, and have all
    the versions that they had. -/
def Keeps (s s' : Buckets) : Prop := ∀ name b, s name = some b → ∃ b', s' name = some b' ∧
  (b.versioning = true → b'.versioning = true ∧ ∀ key, b.versions key <:+ b'.versions key)

/-- The bucket keeps the versions of its objects. -/
def Versioned (s : Buckets) (name : String) : Prop := ∃ b, s name = some b ∧ b.versioning = true

/-- The object has been put into the bucket `b`, which is `b'` now. The content is its latest
    version. A bucket that keeps versions has all the earlier ones; any other one may have lost
    some of them, as MinIO replaces a version that has no number. -/
structure Bucket.Put (key : String) (data : Bytes) (b b' : Bucket) : Prop where
  versioning : b'.versioning = b.versioning
  others : ∀ key', key' ≠ key → b'.versions key' = b.versions key'
  latest : ∃ kept, b'.versions key = some data :: kept ∧ kept ⊆ b.versions key ∧
    (b.versioning = true → kept = b.versions key)

section Views

variable {s s' s'' : Buckets} {name key : String} {data : Bytes} {b b' : Bucket}

theorem view_of_eq_none (h : s name = none) : s.view name key = none := by
  rw [Buckets.view, h, Option.bind_none]

theorem view_of_eq_some (h : s name = some b) :
    s.view name key = (b.versions key).head?.join := by
  rw [Buckets.view, h, Option.bind_some]

/-- The bucket `name` becomes another one, with the same latest versions. -/
theorem view_update (h : ∀ key, (b.versions key).head?.join = s.view name key) :
    Buckets.view (update s name (some b)) = s.view := by
  funext name' key
  by_cases hname : name' = name
  · rw [hname, view_of_eq_some (update_self ..)]
    exact h key
  · rw [Buckets.view, update_of_ne hname, Buckets.view]

/-- What is put is the latest version, and no other object changes. -/
theorem Bucket.Put.view_update (h : Bucket.Put key data b b') (hb : s name = some b) :
    Buckets.view (update s name (some b')) =
      update s.view name (update (s.view name) key (some data)) := by
  funext name' key'
  by_cases hname : name' = name
  · subst hname
    rw [update_self, view_of_eq_some (update_self ..)]
    by_cases hkey : key' = key
    · subst hkey
      obtain ⟨kept, hlatest, -⟩ := h.latest
      rw [update_self, hlatest]
      rfl
    · rw [update_of_ne hkey, h.others key' hkey, view_of_eq_some hb]
  · rw [update_of_ne hname, Buckets.view, update_of_ne hname, Buckets.view]

theorem Keeps.refl : Keeps s s := fun _ b hb => ⟨b, hb, fun hv => ⟨hv, fun _ => List.suffix_refl _⟩⟩

theorem Keeps.trans (h : Keeps s s') (h' : Keeps s' s'') : Keeps s s'' := by
  intro name b hb
  obtain ⟨b', hb', hkept⟩ := h name b hb
  obtain ⟨b'', hb'', hkept'⟩ := h' name b' hb'
  refine ⟨b'', hb'', fun hv => ⟨(hkept' (hkept hv).1).1, fun key => ?_⟩⟩
  exact ((hkept hv).2 key).trans ((hkept' (hkept hv).1).2 key)

/-- A bucket that keeps its versions goes on with it. -/
theorem Keeps.versioned (h : Keeps s s') (hv : Versioned s name) : Versioned s' name := by
  obtain ⟨b, hb, hversioning⟩ := hv
  obtain ⟨b', hb', hkept⟩ := h name b hb
  exact ⟨b', hb', (hkept hversioning).1⟩

/-- One bucket becomes another one, or is new. -/
theorem keeps_update (h : ∀ b, s name = some b → b.versioning = true →
    b'.versioning = true ∧ ∀ key, b.versions key <:+ b'.versions key) :
    Keeps s (update s name (some b')) := by
  intro name' b hb
  by_cases hname : name' = name
  · subst hname
    rw [update_self]
    exact ⟨b', rfl, h b hb⟩
  · rw [update_of_ne hname]
    exact Keeps.refl name' b hb

/-- So does a bucket that something is put into. -/
theorem Bucket.Put.keeps (h : Bucket.Put key data b b') (hb : s name = some b) :
    Keeps s (update s name (some b')) := by
  refine keeps_update fun b₀ hb₀ hv => ?_
  cases hb.symm.trans hb₀
  refine ⟨h.versioning.trans hv, fun key' => ?_⟩
  by_cases hkey : key' = key
  · obtain ⟨kept, hlatest, -, hkept⟩ := h.latest
    rw [hkey, hlatest, hkept hv]
    exact List.suffix_cons _ _
  · exact ⟨[], (h.others key' hkey).symm⟩

end Views

/-! ## MinIO and its client -/

/-- The calls of the client that are about a bucket. -/
inductive ClientOp
  | bucketExists (name : String)
  | makeBucket (name : String)
  /-- With `VersioningConfig(ENABLED)`. -/
  | setBucketVersioning (name : String)
  | putObject (name key : String) (data : Bytes)
  | getObject (name key : String)

/-- What a call returns. What is returned for an upload is not looked at. -/
def ClientOp.Answer : ClientOp → Type
  | .bucketExists _ => Bool
  | .getObject _ _ => Bytes
  | .makeBucket _ | .setBucketVersioning _ | .putObject .. => Unit

/-- A call that puts no object. -/
def ClientOp.PutsNothing (q : ClientOp) : Prop := ∀ name key data, q ≠ .putObject name key data

/-- MinIO with its client, both of which come from elsewhere. -/
structure Minio (σ : Type) where
  /-- The calls with names and keys that the client accepts. For others it raises an exception
      without sending anything; the rules are not the same for all calls. -/
  accepts : ClientOp → Bool
  /-- What a call returns, or the text of the exception that it raises. -/
  answer : (q : ClientOp) → σ → Except String q.Answer
  /-- The state of the server after a call that has been answered. -/
  effect : ClientOp → σ → σ
  /-- What there is in a state of the server. -/
  buckets : σ → Buckets

namespace Minio

variable {σ : Type} (m : Minio σ)

/-- The store of the programs that call the client. -/
def client : Backend ClientOp.Answer Failure σ Unit where
  answer q s := (m.answer q s).mapError .storageError
  effect := m.effect
  locks _ := []

/-- The contents of the objects. -/
def view (s : σ) : ObjectStore := (m.buckets s).view

/-- What is documented of calls that are answered. -/
structure Promises : Prop where
  /-- One is told whether there is the bucket. -/
  bucketExists : ∀ {name s r}, m.answer (.bucketExists name) s = .ok r →
    r = (m.buckets s name).isSome ∧ m.buckets (m.effect (.bucketExists name) s) = m.buckets s
  /-- The bucket is there, as it has been, or empty if there was none. -/
  makeBucket : ∀ {name s r}, m.answer (.makeBucket name) s = .ok r →
    ∃ b, m.buckets (m.effect (.makeBucket name) s) = update (m.buckets s) name (some b) ∧
      (m.buckets s name = some b ∨ m.buckets s name = none ∧ ∀ key, b.versions key = [])
  /-- The bucket, which has been there, keeps its versions from now on. -/
  setBucketVersioning : ∀ {name s r}, m.answer (.setBucketVersioning name) s = .ok r →
    ∃ b, m.buckets s name = some b ∧ m.buckets (m.effect (.setBucketVersioning name) s) =
      update (m.buckets s) name (some { b with versioning := true })
  /-- The object is in the bucket, which has been there. -/
  putObject : ∀ {name key data s r}, m.answer (.putObject name key data) s = .ok r →
    ∃ b b', m.buckets s name = some b ∧ Bucket.Put key data b b' ∧
      m.buckets (m.effect (.putObject name key data) s) = update (m.buckets s) name (some b')
  /-- One gets the content of the latest version. -/
  getObject : ∀ {name key s data}, m.answer (.getObject name key) s = .ok data →
    m.view s name key = some data ∧ m.buckets (m.effect (.getObject name key) s) = m.buckets s

/-- Nothing is sent that the client does not accept, and the rest is answered if there is what it
    is about, as by a server that can be reached and has room. -/
structure Serves : Prop where
  refuses : ∀ q s, m.accepts q = false → ∃ e, m.answer q s = .error e
  bucketExists : ∀ name s, m.accepts (.bucketExists name) = true →
    ∃ r, m.answer (.bucketExists name) s = .ok r
  makeBucket : ∀ name s, m.accepts (.makeBucket name) = true → m.buckets s name = none →
    ∃ r, m.answer (.makeBucket name) s = .ok r
  setBucketVersioning : ∀ name s b, m.accepts (.setBucketVersioning name) = true →
    m.buckets s name = some b → ∃ r, m.answer (.setBucketVersioning name) s = .ok r
  putObject : ∀ name key data s b, m.accepts (.putObject name key data) = true →
    m.buckets s name = some b → ∃ r, m.answer (.putObject name key data) s = .ok r
  getObject : ∀ name key s data, m.accepts (.getObject name key) = true →
    m.view s name key = some data → ∃ r, m.answer (.getObject name key) s = .ok r

section Client

variable {m} {q : ClientOp} {s : σ} {r : q.Answer} {e : Failure}

/-- The client returns what the server answers. -/
theorem answer_client : m.client.answer q s = .ok r ↔ m.answer q s = .ok r := by
  change (m.answer q s).mapError _ = _ ↔ _
  cases m.answer q s with
  | ok r' => exact ⟨fun h => congrArg _ (Except.ok.inj h), fun h => congrArg _ (Except.ok.inj h)⟩
  | error e => exact iff_of_false (by rintro ⟨⟩) (by rintro ⟨⟩)

/-- Whatever is raised, it is not because of a promotion. -/
theorem error_client (h : m.client.answer q s = .error e) :
    (∃ msg, e = .storageError msg) ∧ ∃ msg, m.answer q s = .error msg := by
  change (m.answer q s).mapError _ = _ at h
  cases hanswer : m.answer q s with
  | ok r =>
    rw [hanswer] at h
    cases h
  | error msg =>
    rw [hanswer] at h
    cases h
    exact ⟨⟨msg, rfl⟩, msg, rfl⟩

/-- A call that is answered always has not been refused. -/
theorem Serves.accepts (h : m.Serves) (hanswer : m.answer q s = .ok r) : m.accepts q = true := by
  by_contra hnot
  obtain ⟨e, he⟩ := h.refuses q s (Bool.eq_false_of_not_eq_true hnot)
  cases he.symm.trans hanswer

namespace Promises

/-- Creating a bucket and keeping its versions changes no object. -/
theorem view_effect (h : m.Promises) (hr : m.answer q s = .ok r) (hq : q.PutsNothing) :
    m.view (m.effect q s) = m.view s := by
  cases q with
  | bucketExists name => exact congrArg Buckets.view (h.bucketExists hr).2
  | getObject name key => exact congrArg Buckets.view (h.getObject hr).2
  | makeBucket name =>
    obtain ⟨b, hb, hcases⟩ := h.makeBucket hr
    rw [view, hb]
    refine view_update fun key => ?_
    rcases hcases with hthere | ⟨hnone, hempty⟩
    · rw [view_of_eq_some hthere]
    · rw [view_of_eq_none hnone, hempty]
      rfl
  | setBucketVersioning name =>
    obtain ⟨b, hthere, hb⟩ := h.setBucketVersioning hr
    rw [view, hb]
    exact view_update fun key => (view_of_eq_some hthere).symm
  | putObject name key data => exact absurd rfl (hq name key data)

/-- What is put is the latest version. -/
theorem view_putObject {name key : String} {data : Bytes} {u : Unit} (h : m.Promises)
    (hr : m.answer (.putObject name key data) s = .ok u) :
    m.view (m.effect (.putObject name key data) s) =
      update (m.view s) name (update (m.view s name) key (some data)) := by
  obtain ⟨b, b', hthere, hput, hb⟩ := h.putObject hr
  rw [view, hb]
  exact hput.view_update hthere

/-- Whatever is answered, nothing is lost. -/
theorem keeps_effect (h : m.Promises) (hr : m.answer q s = .ok r) :
    Keeps (m.buckets s) (m.buckets (m.effect q s)) := by
  cases q with
  | bucketExists name => rw [(h.bucketExists hr).2]; exact .refl
  | getObject name key => rw [(h.getObject hr).2]; exact .refl
  | makeBucket name =>
    obtain ⟨b, hb, hcases⟩ := h.makeBucket hr
    rw [hb]
    refine keeps_update fun b₀ hb₀ hv => ?_
    rcases hcases with hthere | ⟨hnone, -⟩
    · cases hthere.symm.trans hb₀
      exact ⟨hv, fun _ => List.suffix_refl _⟩
    · cases hnone.symm.trans hb₀
  | setBucketVersioning name =>
    obtain ⟨b, hthere, hb⟩ := h.setBucketVersioning hr
    rw [hb]
    refine keeps_update fun b₀ hb₀ hv => ?_
    cases hthere.symm.trans hb₀
    exact ⟨rfl, fun _ => List.suffix_refl _⟩
  | putObject name key data =>
    obtain ⟨b, b', hthere, hput, hb⟩ := h.putObject hr
    rw [hb]
    exact hput.keeps hthere

/-- The versions are kept once this has been asked for. -/
theorem versioned_effect {name : String} {u : Unit} (h : m.Promises)
    (hr : m.answer (.setBucketVersioning name) s = .ok u) :
    Versioned (m.buckets (m.effect (.setBucketVersioning name) s)) name := by
  obtain ⟨b, -, hb⟩ := h.setBucketVersioning hr
  exact ⟨{ b with versioning := true }, by rw [hb, update_self], rfl⟩

end Promises

end Client

end Minio

/-! ## The manager -/

namespace MinIOBucketManager

/-- The layers that a domain has buckets for, -/
def medallionLayers : List MedallionLayer := [.bronze, .silver, .gold, .platinum]

/-- which are all layers. -/
theorem mem_medallionLayers (layer : MedallionLayer) : layer ∈ medallionLayers := by
  cases layer <;> decide

/-- Creating a bucket if it has not been found. -/
def makeMissing (name : String) : Bool → Program ClientOp.Answer Failure Unit
  | true => .pure ()
  | false => send (ClientOp.makeBucket name)

/-- The loop of `ensure_buckets`, over the layers that are left. -/
def ensureLayers (domainId : String) : List MedallionLayer → List String →
    Program ClientOp.Answer Failure (List String)
  | [], created => .pure created
  | layer :: layers, created => do
    let name := bucketName layer domainId
    let found ← send (ClientOp.bucketExists name)
    makeMissing name found
    -- Versioning is enabled regardless of whether the bucket was there.
    let _ ← send (ClientOp.setBucketVersioning name)
    ensureLayers domainId layers (created ++ [name])

/-- Creating the buckets of a domain, with versioning. -/
def ensureBuckets (domainId : String) : Program ClientOp.Answer Failure (List String) :=
  ensureLayers domainId medallionLayers []

/-- The call of the client by an operation of the manager. -/
def callOf : Op → ClientOp
  | .getObject bucket key => .getObject bucket key
  | .uploadObject bucket key data => .putObject bucket key data

/-- What the operation returns. -/
def answerOf : (op : Op) → (callOf op).Answer → op.Answer
  | .getObject _ _, data => data
  | .uploadObject _ _ _, _ => ()

/-- The names of the buckets of a domain. -/
def bucketNames (domainId : String) : List String :=
  medallionLayers.map fun layer => bucketName layer domainId

end MinIOBucketManager

open MinIOBucketManager

/-- The manager on MinIO implements the store of objects. -/
theorem implements_storage {σ : Type} {m : Minio σ} (h : m.Promises) :
    m.client.Implements storage callOf answerOf m.view where
  answer {q s r} hr := by
    cases q with
    | getObject bucket key =>
      exact answer_getObject.2 (h.getObject (Minio.answer_client.1 hr)).1
    | uploadObject => rfl
  effect {q s r} hr := by
    cases q with
    | getObject bucket key =>
      exact congrArg Buckets.view (h.getObject (Minio.answer_client.1 hr)).2
    | uploadObject => exact h.view_putObject (Minio.answer_client.1 hr)

/-! ## Promotions and creations of buckets at the same time -/

section Pools

variable {σ ι κ : Type} {m : Minio σ}

/-- Calls of `promote` and of `ensure_buckets` about to start. -/
def opened (s : σ) (calls : ι → Promote) (domains : κ → String) :
    Pool (ι ⊕ κ) ClientOp.Answer Failure (PromotionResult ⊕ List String) σ where
  store := s
  thread := Sum.elim (fun t => (calls t).promote.via callOf answerOf .inl) fun t => do
    let created ← ensureBuckets (domains t)
    return .inr created

/-- The queries for creating buckets put no object. -/
theorem ensureLayers_sends {domainId : String} {layers : List MedallionLayer}
    {created : List String} :
    (ensureLayers domainId layers created).Sends ClientOp.PutsNothing := by
  induction layers generalizing created with
  | nil => trivial
  | cons layer layers ih =>
    refine Sends.bind (sends_send (by rintro _ _ _ ⟨⟩)) fun (found : Bool) =>
      Sends.bind ?_ fun _ => Sends.bind (sends_send (by rintro _ _ _ ⟨⟩)) fun _ => ih
    cases found with
    | true => trivial
    | false => exact sends_send (by rintro _ _ _ ⟨⟩)

/-- A call that has gone through all layers has made their buckets keep versions. -/
theorem ensureLayers_follows {domainId : String} {layers : List MedallionLayer}
    {created names : List String} {log : List (Exchange ClientOp.Answer)}
    (h : (ensureLayers domainId layers created >>= fun names => Program.pure
      (Sum.inr (α := PromotionResult) names)).Follows log (.pure (.inr names))) :
    names = created ++ layers.map (bucketName · domainId) ∧ ∀ layer ∈ layers,
      (⟨.setBucketVersioning (bucketName layer domainId), ()⟩ : Exchange ClientOp.Answer) ∈
        log := by
  induction layers generalizing created log with
  | nil =>
    cases h
    exact ⟨(List.append_nil _).symm, fun _ h => absurd h List.not_mem_nil⟩
  | cons layer layers ih =>
    -- Whether or not the bucket is created, versioning is enabled next.
    have hrest : ∃ log', log' <:+ log ∧ (((send (.setBucketVersioning (bucketName layer domainId)) :
        Program ClientOp.Answer Failure _) >>= fun _ => ensureLayers domainId layers
          (created ++ [bucketName layer domainId])) >>= fun names => Program.pure
            (Sum.inr (α := PromotionResult) names)).Follows log' (.pure (.inr names)) := by
      cases h with
      | @cons _ _ found log _ h =>
        change Bool at found
        cases found with
        | true => exact ⟨log, List.suffix_cons _ _, h⟩
        | false => cases h with
          | @cons _ _ _ log _ h => exact ⟨log, ⟨[_, _], rfl⟩, h⟩
    obtain ⟨log', hsuffix, h⟩ := hrest
    cases h with
    | @cons _ _ u log' _ h =>
      obtain ⟨hnames, hlayers⟩ := ih h
      refine ⟨by rw [hnames, List.append_assoc]; rfl, List.forall_mem_cons.2 ⟨?_, fun l hl => ?_⟩⟩
      · exact hsuffix.subset List.mem_cons_self
      · exact hsuffix.subset (List.mem_cons_of_mem _ (hlayers l hl))

section Runs

variable [DecidableEq ι] [DecidableEq κ] {s : σ} {calls : ι → Promote} {domains : κ → String}

/-- Whatever happens on MinIO to the promotions, while buckets are created, happens to promotions
    on a plain store of objects that have the contents of the latest versions. -/
theorem minio_refines {past} {c : Pool (ι ⊕ κ) ClientOp.Answer Failure _ σ} (hm : m.Promises)
    (h : Pool.Run m.client (opened s calls domains) past c) :
    ∃ past' c', Pool.Run storage (start (m.view s) calls) past' c' ∧
      Pool.Seen callOf answerOf .inl m.view c c' := by
  refine h.seen (C := ClientOp.PutsNothing) (implements_storage hm) ⟨rfl, fun _ => rfl⟩
    (fun t => ?_) fun q s r hq hr => ?_
  · exact ensureLayers_sends.bind fun _ => trivial
  · exact hm.view_effect (Minio.answer_client.1 hr) hq

/-- Whatever the programs, nothing is lost in a run. -/
theorem keeps_of_run {α : Type} {past} {c c' : Pool (ι ⊕ κ) ClientOp.Answer Failure α σ}
    (hm : m.Promises) (h : Pool.Run m.client c past c') :
    Keeps (m.buckets c.store) (m.buckets c'.store) := by
  induction h with
  | start => exact .refl
  | step _ hst ih =>
    cases hst with
    | answer _ hr => exact ih.trans (hm.keeps_effect (Minio.answer_client.1 hr))
    | fail => exact ih

/-- From the time when a call of `ensure_buckets` returns on, the buckets of its domain are there,
    and no version of an object in them gets lost. -/
theorem versions_kept {past past₁ past₂}
    {c c₁ c₂ : Pool (ι ⊕ κ) ClientOp.Answer Failure _ σ} {t : κ} {names : List String}
    (hm : m.Promises) (h : Pool.Run m.client (opened s calls domains) past c)
    (ht : c.thread (.inr t) = .pure (.inr names))
    (h₁ : Pool.Run m.client c past₁ c₁) (h₂ : Pool.Run m.client c₁ past₂ c₂) :
    names = bucketNames (domains t) ∧ ∀ layer, ∃ b₁ b₂ : Bucket,
      m.buckets c₁.store (bucketName layer (domains t)) = some b₁ ∧
      m.buckets c₂.store (bucketName layer (domains t)) = some b₂ ∧
      b₁.versioning = true ∧ b₂.versioning = true ∧
      ∀ key, b₁.versions key <:+ b₂.versions key := by
  -- The answer to `set_bucket_versioning` says what holds from then on.
  let P : (q : ClientOp) → q.Answer → σ → Prop
    | .setBucketVersioning name, _, s => Versioned (m.buckets s) name
    | _, _, _ => True
  have hmake : ∀ q s r, m.client.answer q s = .ok r → P q r (m.client.effect q s) := by
    intro q s r hr
    cases q with
    | setBucketVersioning name => exact hm.versioned_effect (Minio.answer_client.1 hr)
    | _ => trivial
  have hkeep : ∀ q s r, True → m.client.answer q s = .ok r → ∀ q' r', P q' r' s →
      P q' r' (m.client.effect q s) := by
    intro q s r _ hr q' r' hP
    cases q' with
    | setBucketVersioning name =>
      exact (hm.keeps_effect (Minio.answer_client.1 hr)).versioned hP
    | _ => trivial
  obtain ⟨e, he⟩ | ⟨log, hfollows, hlog⟩ := h.stable (C := fun _ => True) (P := P)
    (fun _ => sends_true _) hmake hkeep (.inr t)
  · cases ht.symm.trans he
  · rw [ht] at hfollows
    obtain ⟨hnames, hlayers⟩ := ensureLayers_follows hfollows
    refine ⟨hnames, fun layer => ?_⟩
    have hversioned : Versioned (m.buckets c.store) (bucketName layer (domains t)) :=
      hlog _ (hlayers layer (mem_medallionLayers layer))
    -- What holds then holds after both runs.
    obtain ⟨b₁, hb₁, hv₁⟩ := (keeps_of_run hm h₁).versioned hversioned
    obtain ⟨b₂, hb₂, hkept⟩ := keeps_of_run hm h₂ _ b₁ hb₁
    exact ⟨b₁, b₂, hb₁, hb₂, hv₁, (hkept hv₁).1, (hkept hv₁).2⟩

end Runs

end Pools

/-! ## A call alone -/

/-- What has become of the buckets `s`, of which only those with the `names` may be new or keep
    versions now. -/
structure Leaves (names : List String) (s s' : Buckets) : Prop where
  view : s'.view = s.view
  keeps : Keeps s s'
  others : ∀ name, name ∉ names → s' name = s name

/-- The same, where they all keep versions. Nothing has changed if they did before. -/
structure Ensures (names : List String) (s s' : Buckets) : Prop extends Leaves names s s' where
  versioned : ∀ name ∈ names, Versioned s' name
  again : (∀ name ∈ names, Versioned s name) → s' = s

/-- The client accepts the names of a bucket in the calls that are needed for it. -/
def Minio.Ensurable {σ : Type} (m : Minio σ) (s : σ) (name : String) : Prop :=
  (m.accepts (.bucketExists name) = true ∧ m.accepts (.setBucketVersioning name) = true) ∧
    (m.buckets s name = none → m.accepts (.makeBucket name) = true)

section Alone

variable {names names' : List String} {s s' s'' : Buckets} {name : String} {b : Bucket}

theorem Leaves.refl : Leaves names s s := ⟨rfl, .refl, fun _ _ => rfl⟩

/-- First some buckets, then others. -/
theorem Leaves.trans (h : Leaves names s s') (h' : Leaves names' s' s'') :
    Leaves (names ++ names') s s'' where
  view := h'.view.trans h.view
  keeps := h.keeps.trans h'.keeps
  others name hname := by
    rw [List.mem_append, not_or] at hname
    exact (h'.others name hname.2).trans (h.others name hname.1)

/-- First the buckets with the one names are ensured, then those with the others. -/
theorem Ensures.trans (h : Ensures names s s') (h' : Ensures names' s' s'') :
    Ensures (names ++ names') s s'' where
  toLeaves := h.toLeaves.trans h'.toLeaves
  versioned name hname := by
    rcases List.mem_append.1 hname with hname | hname
    · exact h'.keeps.versioned (h.versioned name hname)
    · exact h'.versioned name hname
  again hall := by
    obtain ⟨hnames, hnames'⟩ := List.forall_mem_append.1 hall
    obtain rfl := h.again hnames
    exact h'.again hnames'

/-- An empty bucket is new. -/
theorem leaves_empty (hnone : s name = none) (hempty : ∀ key, b.versions key = []) :
    Leaves [name] s (update s name (some b)) where
  view := view_update fun key => by rw [hempty, view_of_eq_none hnone]; rfl
  keeps := keeps_update fun b₀ hb₀ => absurd hb₀ (by simp [hnone])
  others name' hname' := update_of_ne (by simpa using hname') ..

/-- A bucket is told to keep versions. -/
theorem ensures_versioning (hb : s name = some b) :
    Ensures [name] s (update s name (some { b with versioning := true })) where
  view := view_update fun _ => (view_of_eq_some hb).symm
  keeps := by
    refine keeps_update fun b₀ hb₀ hv => ?_
    cases hb.symm.trans hb₀
    exact ⟨rfl, fun _ => List.suffix_refl _⟩
  others name' hname' := update_of_ne (by simpa using hname') ..
  versioned := List.forall_mem_singleton.2 ⟨_, update_self .., rfl⟩
  again hall := by
    obtain ⟨b', hb', hv⟩ := List.forall_mem_singleton.1 hall
    cases hb.symm.trans hb'
    obtain ⟨versioning, versions⟩ := b
    cases hv
    rw [← hb, update_eq_self]

variable {σ : Type} {m : Minio σ} {layer : MedallionLayer} {layers : List MedallionLayer}
  {domainId : String} {created : List String}

/-- What a bucket needs does not change while others are created. -/
theorem Minio.Ensurable.of_leaves {x x' : σ} {name' : String} (h : m.Ensurable x name)
    (hleaves : Leaves [name] (m.buckets x) (m.buckets x')) (hname : Versioned (m.buckets x') name) :
    m.Ensurable x' name' ↔ m.Ensurable x name' := by
  by_cases heq : name' = name
  · subst heq
    obtain ⟨b, hb, -⟩ := hname
    exact iff_of_true ⟨h.1, fun hnone => absurd hnone (by simp [hb])⟩ h
  · rw [Ensurable, Ensurable, hleaves.others name' (by simpa using heq)]

/-- Telling a bucket to keep its versions, as the last call for it. -/
theorem wp_setBucketVersioning {α : Type} {x y : σ} {k : Unit → Program ClientOp.Answer Failure α}
    {Q : α → σ → Prop} {E : Failure → σ → Prop} (hm : m.Promises) (hserves : m.Serves)
    (hb : m.buckets x name = some b) (hx : Leaves [name] (m.buckets y) (m.buckets x))
    (hsame : Versioned (m.buckets y) name → m.buckets x = m.buckets y)
    (hok : m.accepts (.setBucketVersioning name) = true → ∀ x',
      Ensures [name] (m.buckets y) (m.buckets x') → (k ()).wp m.client Q E x')
    (herror : m.accepts (.setBucketVersioning name) ≠ true → ∀ e, E e x) :
    (send (ClientOp.setBucketVersioning name) >>= k).wp m.client Q E x := by
  refine wp_query (fun u hu => ?_) fun e he => ?_
  · have hanswer := Minio.answer_client.1 hu
    obtain ⟨b', hthere, heffect⟩ := hm.setBucketVersioning hanswer
    refine hok (hserves.accepts hanswer) _ ?_
    have hensures := ensures_versioning hthere
    have hleaves := hx.trans hensures.toLeaves
    change Ensures _ _ (m.buckets (m.effect _ _))
    rw [heffect]
    refine ⟨⟨hleaves.view, hleaves.keeps, fun name' hname' => hleaves.others name' ?_⟩,
      hensures.versioned, fun hall => ?_⟩
    · simpa using hname'
    · have heq := hsame (List.forall_mem_singleton.1 hall)
      rw [← heq]
      exact hensures.again (heq ▸ hall)
  · refine herror (fun haccepts => ?_) e
    obtain ⟨r, hr⟩ := hserves.setBucketVersioning name x b haccepts hb
    obtain ⟨msg, hmsg⟩ := (Minio.error_client he).2
    cases hr.symm.trans hmsg

/-- One round of the loop: the bucket keeps its versions then, or a call for it has not been
    accepted. -/
theorem wp_ensureLayers_cons {x : σ} {Q : List String → σ → Prop} {E : Failure → σ → Prop}
    (hm : m.Promises) (hserves : m.Serves)
    (hok : m.Ensurable x (bucketName layer domainId) → ∀ x',
      Ensures [bucketName layer domainId] (m.buckets x) (m.buckets x') →
        (ensureLayers domainId layers (created ++ [bucketName layer domainId])).wp m.client Q E x')
    (herror : ¬m.Ensurable x (bucketName layer domainId) → ∀ e x',
      Leaves [bucketName layer domainId] (m.buckets x) (m.buckets x') → E e x') :
    (ensureLayers domainId (layer :: layers) created).wp m.client Q E x := by
  rw [ensureLayers]
  generalize bucketName layer domainId = name at hok herror
  refine wp_query (fun (found : Bool) hfound => ?_) fun e he => ?_
  · have hanswer := Minio.answer_client.1 hfound
    obtain ⟨rfl, heffect⟩ := hm.bucketExists hanswer
    have haccepts := hserves.accepts hanswer
    change Program.wp _ _ _ _ (m.effect (.bucketExists name) x)
    generalize m.effect (.bucketExists name) x = x₁ at heffect
    cases hb : m.buckets x name with
    | some b =>
      -- The bucket has been found.
      refine wp_setBucketVersioning (y := x) hm hserves (by rw [heffect, hb])
        (heffect ▸ .refl) (fun _ => heffect) (fun hset => ?_) fun hset e => ?_
      · exact hok ⟨⟨haccepts, hset⟩, fun hnone => absurd hnone (by simp [hb])⟩
      · exact herror (fun h => hset h.1.2) e x₁ (heffect ▸ .refl)
    | none =>
      -- It is created first.
      refine wp_query (fun u hu => ?_) fun e he => ?_
      · have hmade := Minio.answer_client.1 hu
        obtain ⟨b, hmake, hcases⟩ := hm.makeBucket hmade
        obtain ⟨-, hempty⟩ := hcases.resolve_left (by simp [heffect, hb])
        rw [heffect] at hmake
        change Program.wp _ _ _ _ (m.effect (.makeBucket name) x₁)
        generalize m.effect (.makeBucket name) x₁ = x₂ at hmake
        have hleaves : Leaves [name] (m.buckets x) (m.buckets x₂) := by
          rw [hmake]
          exact leaves_empty hb hempty
        refine wp_setBucketVersioning (y := x) (b := b) hm hserves (by rw [hmake, update_self])
          hleaves (fun hv => ?_) (fun hset => ?_) fun hset e => ?_
        · obtain ⟨b', hb', -⟩ := hv
          cases hb.symm.trans hb'
        · exact hok ⟨⟨haccepts, hset⟩, fun _ => hserves.accepts hmade⟩
        · exact herror (fun h => hset h.1.2) e x₂ hleaves
      · refine herror (fun h => ?_) e x₁ (heffect ▸ .refl)
        obtain ⟨r, hr⟩ := hserves.makeBucket name x₁ (h.2 hb) (by rw [heffect, hb])
        obtain ⟨msg, hmsg⟩ := (Minio.error_client he).2
        cases hr.symm.trans hmsg
  · refine herror (fun h => ?_) e x .refl
    obtain ⟨r, hr⟩ := hserves.bucketExists name x h.1.1
    obtain ⟨msg, hmsg⟩ := (Minio.error_client he).2
    cases hr.symm.trans hmsg

/-- What a call leaves, and that it succeeds exactly if the client accepts the names. -/
theorem wp_ensureLayers (hm : m.Promises) (hserves : m.Serves) (domainId : String)
    (layers : List MedallionLayer) (x : σ) (created : List String) :
    (ensureLayers domainId layers created).wp m.client
      (fun names x' => names = created ++ layers.map (bucketName · domainId) ∧
        (∀ layer ∈ layers, m.Ensurable x (bucketName layer domainId)) ∧
        Ensures (layers.map (bucketName · domainId)) (m.buckets x) (m.buckets x'))
      (fun _ x' => ¬(∀ layer ∈ layers, m.Ensurable x (bucketName layer domainId)) ∧
        Leaves (layers.map (bucketName · domainId)) (m.buckets x) (m.buckets x')) x := by
  induction layers generalizing x created with
  | nil =>
    refine wp_pure.2 ⟨(List.append_nil _).symm, fun _ h => absurd h List.not_mem_nil, ?_⟩
    exact ⟨.refl, fun _ h => absurd h List.not_mem_nil, fun _ => rfl⟩
  | cons layer layers ih =>
    refine wp_ensureLayers_cons hm hserves (fun hensurable x' hx' => ?_) fun hnot e x' hx' => ?_
    · -- The other buckets can be ensured after the first one exactly if they could be before it.
      have hall : (∀ layer ∈ layers, m.Ensurable x' (bucketName layer domainId)) ↔
          ∀ layer ∈ layers, m.Ensurable x (bucketName layer domainId) :=
        forall₂_congr fun _ _ =>
          hensurable.of_leaves hx'.toLeaves (hx'.versioned _ List.mem_cons_self)
      refine wp_mono (ih x' (created ++ [bucketName layer domainId])) ?_ ?_
      · rintro names x'' ⟨hnames, hlayers, hx''⟩
        refine ⟨by rw [hnames, List.append_assoc]; rfl, ?_, hx'.trans hx''⟩
        exact List.forall_mem_cons.2 ⟨hensurable, hall.1 hlayers⟩
      · rintro e x'' ⟨hnot, hx''⟩
        refine ⟨fun h => hnot (hall.2 (List.forall_mem_cons.1 h).2), ?_⟩
        exact hx'.toLeaves.trans hx''
    · refine ⟨fun h => hnot (h layer List.mem_cons_self), hx'.view, hx'.keeps, ?_⟩
      intro name hname
      exact hx'.others name fun h => hname (List.mem_cons.2 (.inl (List.mem_singleton.1 h)))

/-- Whatever earlier calls have left, a call that is alone on a server that serves returns the names
    of the buckets, exactly if the client accepts them in the calls that are needed. All buckets
    then keep their versions, and doing it again changes nothing. No object has changed in any
    case, and no other bucket. -/
theorem ensureBuckets_alone (hm : m.Promises) (hserves : m.Serves) (domainId : String) (x : σ) :
    ∃ r x', (ensureBuckets domainId).run m.client x = (r, x') ∧
      m.view x' = m.view x ∧ Keeps (m.buckets x) (m.buckets x') ∧
      (∀ name, name ∉ bucketNames domainId → m.buckets x' name = m.buckets x name) ∧
      ((∃ names, r = .ok names) ↔ ∀ layer, m.Ensurable x (bucketName layer domainId)) ∧
      ∀ names, r = .ok names → names = bucketNames domainId ∧
        (∀ layer, Versioned (m.buckets x') (bucketName layer domainId)) ∧
        ∃ x'', (ensureBuckets domainId).run m.client x' = (.ok names, x'') ∧
          m.buckets x'' = m.buckets x' := by
  have hspec := fun x => wp_iff_run.1 (wp_ensureLayers hm hserves domainId medallionLayers x [])
  have hall : ∀ {P : MedallionLayer → Prop}, (∀ layer ∈ medallionLayers, P layer) ↔
      ∀ layer, P layer :=
    ⟨fun h layer => h layer (mem_medallionLayers layer), fun h layer _ => h layer⟩
  -- The call is known from its specification, whatever it returns.
  rcases hrun : (ensureBuckets domainId).run m.client x with ⟨e | names, x'⟩
  · obtain ⟨hnot, hleaves⟩ := (hspec x).2 e x' hrun
    refine ⟨_, x', rfl, hleaves.view, hleaves.keeps, hleaves.others, ?_, by rintro _ ⟨⟩⟩
    exact iff_of_false (by rintro ⟨_, ⟨⟩⟩) fun h => hnot (hall.2 h)
  · obtain ⟨hnames, hensurable, hx'⟩ := (hspec x).1 names x' hrun
    refine ⟨_, x', rfl, hx'.view, hx'.keeps, hx'.others, ?_, ?_⟩
    · exact iff_of_true ⟨names, rfl⟩ (hall.1 hensurable)
    · rintro _ ⟨⟩
      have hversioned : ∀ layer, Versioned (m.buckets x') (bucketName layer domainId) :=
        fun layer => hx'.versioned _ (List.mem_map_of_mem (mem_medallionLayers layer))
      refine ⟨hnames, hversioned, ?_⟩
      -- The buckets are all found the second time, so that the names are accepted again.
      rcases hagain : (ensureBuckets domainId).run m.client x' with ⟨e | names', x''⟩
      · refine absurd (hall.2 fun layer => ⟨(hall.1 hensurable layer).1, fun hnone => ?_⟩)
          ((hspec x').2 e x'' hagain).1
        obtain ⟨b, hb, -⟩ := hversioned layer
        cases hnone.symm.trans hb
      · obtain ⟨hnames', -, hx''⟩ := (hspec x').1 names' x'' hagain
        rw [hnames, ← hnames']
        refine ⟨x'', rfl, hx''.again fun name hname => ?_⟩
        obtain ⟨layer, -, rfl⟩ := List.mem_map.1 hname
        exact hversioned layer

end Alone

/-! ## A server in memory -/

namespace Memory

/-- A version of an object is added, or replaces the one that there is. -/
def put (key : String) (data : Bytes) (b : Bucket) : Bucket :=
  { b with
    versions := update b.versions key
      (if b.versioning then some data :: b.versions key else [some data]) }

/-- What is answered about buckets. -/
def answer : (q : ClientOp) → Buckets → Except String q.Answer
  | .bucketExists name, s => .ok (s name).isSome
  | .makeBucket name, s => match s name with
    | none => .ok ()
    | some _ => .error "BucketAlreadyOwnedByYou"
  | .setBucketVersioning name, s | .putObject name _ _, s => match s name with
    | none => .error "NoSuchBucket"
    | some _ => .ok ()
  | .getObject name key, s => match s.view name key with
    | none => .error "NoSuchKey"
    | some data => .ok data

/-- The buckets after a call. -/
def effect : ClientOp → Buckets → Buckets
  | .bucketExists _, s | .getObject _ _, s => s
  | .makeBucket name, s => update s name (some ⟨false, fun _ => []⟩)
  | .setBucketVersioning name, s =>
    update s name ((s name).map fun b => { b with versioning := true })
  | .putObject name key data, s => update s name ((s name).map (put key data))

/-- A server whose state is no more than its buckets, with a client that accepts all names. -/
def server : Minio Buckets where
  accepts _ := true
  answer := answer
  effect := effect
  buckets s := s

variable {s : Buckets} {name key : String} {data : Bytes}

/-- What the server makes of a bucket is what is documented. -/
theorem bucketPut (b : Bucket) : Bucket.Put key data b (put key data b) where
  versioning := rfl
  others key' hkey := update_of_ne hkey ..
  latest := by
    have hkey : (put key data b).versions key =
        if b.versioning then some data :: b.versions key else [some data] := update_self ..
    rw [hkey]
    cases b.versioning with
    | true => exact ⟨_, rfl, fun _ h => h, fun _ => rfl⟩
    | false => exact ⟨[], rfl, List.nil_subset _, by rintro ⟨⟩⟩

/-- It answers only if there is the bucket. -/
theorem exists_of_answer {u : Unit} (h : answer (.setBucketVersioning name) s = .ok u) :
    ∃ b, s name = some b := by
  rw [answer] at h
  cases hb : s name with
  | none => rw [hb] at h; cases h
  | some b => exact ⟨b, rfl⟩

/-- It does all that is promised, -/
theorem promises_server : server.Promises where
  bucketExists h := by
    cases h
    exact ⟨rfl, rfl⟩
  makeBucket {name s u} h := by
    change answer (.makeBucket name) s = _ at h
    rw [answer] at h
    cases hb : s name with
    | none => exact ⟨_, rfl, .inr ⟨hb, fun _ => rfl⟩⟩
    | some b => rw [hb] at h; cases h
  setBucketVersioning {name s u} h := by
    obtain ⟨b, hb⟩ := exists_of_answer h
    exact ⟨b, hb, congrArg (fun o : Option Bucket =>
      update s name (o.map fun b : Bucket => { b with versioning := true })) hb⟩
  putObject {name key data s u} h := by
    obtain ⟨b, hb⟩ := exists_of_answer h
    exact ⟨b, put key data b, hb, bucketPut b,
      congrArg (fun o : Option Bucket => update s name (o.map (put key data))) hb⟩
  getObject {name key s data} h := by
    change answer (.getObject name key) s = _ at h
    rw [answer] at h
    change Buckets.view s name key = _ ∧ _
    generalize s.view name key = o at h ⊢
    cases o with
    | none => cases h
    | some data' =>
      cases h
      exact ⟨rfl, rfl⟩

/-- and serves all that is accepted. -/
theorem serves_server : server.Serves where
  refuses _ _ h := by cases h
  bucketExists name s _ := ⟨_, rfl⟩
  makeBucket name s _ h := by
    change s name = none at h
    exact ⟨(), by change answer (.makeBucket name) s = _; rw [answer, h]⟩
  setBucketVersioning name s b _ h := by
    change s name = some b at h
    exact ⟨(), by change answer (.setBucketVersioning name) s = _; rw [answer, h]⟩
  putObject name key data s b _ h := by
    change s name = some b at h
    exact ⟨(), by change answer (.putObject name key data) s = _; rw [answer, h]⟩
  getObject name key s data _ h := by
    change s.view name key = some data at h
    exact ⟨data, by change answer (.getObject name key) s = _; rw [answer, h]⟩

/-- One call, on an empty server. -/
def firstCall :
    Pool (Empty ⊕ Unit) ClientOp.Answer Failure (PromotionResult ⊕ List String) Buckets :=
  opened (fun _ => none) nofun fun _ => "sales"

/-- The call may run to its end. -/
theorem exists_created : ∃ past c, Pool.Run server.client firstCall past c ∧
    c.thread (.inr ()) = .pure (.inr (bucketNames "sales")) := by
  have hspec := wp_iff_run.1 (wp_ensureLayers promises_server serves_server "sales"
    medallionLayers firstCall.store [])
  rcases hrun : (ensureLayers "sales" medallionLayers []).run server.client firstCall.store with
    ⟨e | names, s'⟩
  · exact absurd (fun _ _ => ⟨⟨rfl, rfl⟩, fun _ => rfl⟩) (hspec.2 e s' hrun).1
  · obtain rfl : names = bucketNames "sales" := (hspec.1 names s' hrun).1
    have hcall : (firstCall.thread (.inr ())).run server.client firstCall.store =
        (.ok (.inr (bucketNames "sales")), s') := by
      change (ensureLayers "sales" medallionLayers [] >>= fun names => .pure (Sum.inr names)).run
        _ _ = _
      rw [run_bind, hrun]
      rfl
    obtain ⟨past, hpast⟩ := Pool.Run.alone .start rfl hcall
    exact ⟨past, _, hpast, Pool.thread_set_self⟩

/-- The first call for a domain: the objects seen stay as they were, -/
theorem minio_refines_created : ∃ past c, Pool.Run server.client firstCall past c ∧
    ∃ past' c', Pool.Run storage (start (server.view fun _ => none) nofun) past' c' ∧
      Pool.Seen callOf answerOf .inl server.view c c' := by
  obtain ⟨past, c, h, -⟩ := exists_created
  exact ⟨past, c, h, minio_refines promises_server h⟩

/-- and the buckets are there from then on, with their versions. -/
theorem versions_kept_created : ∃ past c names, Pool.Run server.client firstCall past c ∧
    c.thread (.inr ()) = .pure (.inr names) ∧
    names = bucketNames "sales" ∧ ∀ layer, ∃ b₁ b₂ : Bucket,
      server.buckets c.store (bucketName layer "sales") = some b₁ ∧
      server.buckets c.store (bucketName layer "sales") = some b₂ ∧
      b₁.versioning = true ∧ b₂.versioning = true ∧
      ∀ key, b₁.versions key <:+ b₂.versions key := by
  obtain ⟨past, c, h, ht⟩ := exists_created
  exact ⟨past, c, _, h, ht, versions_kept promises_server h ht .start .start⟩

/-- On an empty server, the buckets are created. -/
theorem ensureBuckets_alone_created : ∃ names s',
    (ensureBuckets "sales").run server.client (fun _ => none) = (.ok names, s') ∧
      names = bucketNames "sales" ∧ ∀ layer, Versioned s' (bucketName layer "sales") := by
  obtain ⟨r, s', hrun, -, -, -, hok, hnames⟩ :=
    ensureBuckets_alone promises_server serves_server "sales" fun _ => none
  obtain ⟨names, rfl⟩ := hok.2 fun _ => ⟨⟨rfl, rfl⟩, fun _ => rfl⟩
  obtain ⟨heq, hversioned, -⟩ := hnames names rfl
  exact ⟨names, s', hrun, heq, hversioned⟩

end Memory

end Lakehouse

end OpenDataGov
