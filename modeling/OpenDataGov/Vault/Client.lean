import OpenDataGov.Lib.Dict
import OpenDataGov.Lib.Json

/-!
# The client of Vault

`VaultClient` reads and writes secrets, and encrypts with the keys of Vault, through a client of
`hvac` that it makes for itself when it is first needed (`ensureClient`). Meanwhile others change
what is in Vault, or whether the token is accepted.

Vault and the package `hvac` come from elsewhere. They are a parameter (`Server`): what a request
with a token is answered in a state, and the state after it, which may be any. The service is a
list of events, calls of the client and changes that others make, in any order. What the client
does is compared with what a plain client of `hvac` would do that never asks whether its token is
accepted (`HvacClient.serve`): from the second call on, they are the same.

What is behind this is that `ensureClient` keeps the client before it asks Vault about the token,
so a client that has failed to authenticate is there for the next call.

* `serve_of_client`: once there is a client of `hvac`, all calls are sent through it as they are;
* `serve_of_failed`: without one that can be made, nothing is sent, and the error is the same
  each time;
* `serve_eq`: so the first call of a client that is configured asks whether the token is accepted,
  and fails if it is not; all later calls are sent without asking, also after such a failure. A
  client that is not configured sends nothing at all;
* `key_kept`: a key that `ensure_transit_key` has found or made is there from then on, in a Vault
  that keeps its keys (`Server.KeepsKeys`), if nobody else removes it.

The module ends with a server of keys (`Encryption`), on which a token is revoked. The headers
for MinIO (`get_sse_headers`) are constant, and left out.
-/

namespace OpenDataGov

namespace Vault

open Keyed

/-! ## Vault -/

/-- A client of `hvac`, which sends its token with all that it sends. -/
structure HvacClient where
  url : String
  token : String

/-- What is sent to Vault. -/
inductive Request
  | isAuthenticated
  | readSecretVersion (path mountPoint : String)
  | createOrUpdateSecret (path : String) (secret : Json.Value) (mountPoint : String)
  | encryptData (name plaintext : String)
  | decryptData (name ciphertext : String)
  | readKey (name : String)
  | createKey (name keyType : String)

/-- Whether the token is accepted is yes or no; all else is answered by JSON. -/
def Request.Answer : Request → Type
  | .isAuthenticated => Bool
  | _ => Json.Value

/-- What may be raised. -/
inductive Failure
  | runtimeError (msg : String)
  /-- An error of Vault, or of the connection to it. -/
  | hvacError (msg : String)
  /-- What is looked for in an answer is not there. -/
  | keyError
  | typeError
  deriving DecidableEq

/-- What Vault answers, and what becomes of its state. -/
structure Server (σ : Type) where
  answer : HvacClient → (q : Request) → σ → Except Failure q.Answer × σ

/-- `value[key]` -/
def item (key : String) : Json.Value → Except Failure Json.Value
  | .obj members => match (Dict.ofList members).find? key with
    | some v => .ok v
    | none => .error .keyError
  | _ => .error .typeError

/-- `response["data"][field]` -/
def dataOf (field : String) (response : Json.Value) : Except Failure Json.Value := do
  let data ← item "data" response
  item field data

section Operations

variable {σ : Type} (server : Server σ)

namespace HvacClient

variable (client : HvacClient) (s : σ)

/-- A request, with what is made of the answer. -/
def request (q : Request) (f : q.Answer → Except Failure Json.Value) :
    Except Failure Json.Value × σ :=
  match server.answer client q s with
  | (.ok r, s') => (f r, s')
  | (.error e, s') => (.error e, s')

/-- Making sure of the key, after a client has been had. -/
def ensureKey (keyName : String) : Bool × σ :=
  match server.answer client (.readKey keyName) s with
  | (.ok _, s') => (true, s')
  | (.error _, s') => match server.answer client (.createKey keyName "aes256-gcm96") s' with
    | (.ok _, s'') => (true, s'')
    | (.error _, s'') => (false, s'')

end HvacClient

/-! ## The client -/

/-- The settings of the environment. -/
structure VaultSettings where
  addr : String
  token : String
  enabled : Bool

/-- A `VaultClient`, with the client of hvac that it may have made. -/
structure VaultClient where
  settings : VaultSettings
  client : Option HvacClient

namespace VaultClient

variable (installed : Bool) (c : VaultClient) (s : σ)

/-- There is something to connect with. -/
def isConfigured : Bool := c.settings.enabled && c.settings.token ≠ ""

/-- Making a client of hvac at the first time, where the package may not be installed. -/
def ensureClient : Except Failure HvacClient × VaultClient × σ :=
  match c.client with
  | some client => (.ok client, c, s)
  | none =>
    if !c.isConfigured then
      (.error (.runtimeError
        "Vault not configured (set VAULT_ENABLED=true and VAULT_TOKEN)"), c, s)
    else if !installed then
      (.error (.runtimeError "hvac package not installed (pip install hvac)"), c, s)
    else
      let client : HvacClient := ⟨c.settings.addr, c.settings.token⟩
      -- The client is kept whatever becomes of it.
      let c := { c with client := some client }
      match server.answer client .isAuthenticated s with
      | (.ok true, s') => (.ok client, c, s')
      | (.ok false, s') => (.error (.runtimeError "Vault authentication failed"), c, s')
      | (.error e, s') => (.error e, c, s')

/-- A request of the client of hvac, once there is one. -/
def send (q : Request) (f : q.Answer → Except Failure Json.Value) :
    Except Failure Json.Value × VaultClient × σ :=
  match c.ensureClient server installed s with
  | (.ok client, c', s') =>
    let (r, s'') := client.request server s' q f
    (r, c', s'')
  | (.error e, c', s') => (.error e, c', s')

/-- The data of a secret, which the answer has under `data` twice. -/
def readSecret (path mountPoint : String) : Except Failure Json.Value × VaultClient × σ :=
  c.send server installed s (.readSecretVersion path mountPoint) (dataOf "data")

/-- Nothing is returned, which is `None`. -/
def writeSecret (path : String) (data : Json.Value) (mountPoint : String) :
    Except Failure Json.Value × VaultClient × σ :=
  c.send server installed s (.createOrUpdateSecret path data mountPoint) fun _ =>
    .ok (.scalar .null)

/-- The text that Vault has made of the given one, which is in base 64. -/
def transitEncrypt (keyName plaintextB64 : String) :
    Except Failure Json.Value × VaultClient × σ :=
  c.send server installed s (.encryptData keyName plaintextB64) (dataOf "ciphertext")

/-- The other way round. -/
def transitDecrypt (keyName ciphertext : String) :
    Except Failure Json.Value × VaultClient × σ :=
  c.send server installed s (.decryptData keyName ciphertext) (dataOf "plaintext")

/-- Whether there is the key, which is made if it is not found. -/
def ensureTransitKey (keyName : String) : Bool × VaultClient × σ :=
  match c.ensureClient server installed s with
  | (.ok client, c', s') =>
    let (r, s'') := client.ensureKey server s' keyName
    (r, c', s'')
  | (.error _, c', s') => (false, c', s')

end VaultClient

/-! ## Calls -/

/-- The calls of the client. -/
inductive Call
  | readSecret (path mountPoint : String)
  | writeSecret (path : String) (data : Json.Value) (mountPoint : String)
  | transitEncrypt (keyName plaintextB64 : String)
  | transitDecrypt (keyName ciphertext : String)
  | ensureTransitKey (keyName : String)

/-- What happens to Vault: a call of the client, or something that others do. -/
inductive Event (σ : Type)
  | call (q : Call)
  | other (f : σ → σ)

/-- What a call returns, with the client and the state of Vault after it. -/
def VaultClient.call (installed : Bool) (c : VaultClient) (s : σ) :
    Call → Except Failure Json.Value × VaultClient × σ
  | .readSecret path mountPoint => c.readSecret server installed s path mountPoint
  | .writeSecret path data mountPoint => c.writeSecret server installed s path data mountPoint
  | .transitEncrypt keyName plaintextB64 =>
    c.transitEncrypt server installed s keyName plaintextB64
  | .transitDecrypt keyName ciphertext => c.transitDecrypt server installed s keyName ciphertext
  | .ensureTransitKey keyName =>
    let (b, c', s') := c.ensureTransitKey server installed s keyName
    (.ok (.scalar (.bool b)), c', s')

/-- The results of the calls, and what is left. -/
def VaultClient.serve (installed : Bool) (c : VaultClient) (s : σ) :
    List (Event σ) → List (Except Failure Json.Value) × VaultClient × σ
  | [] => ([], c, s)
  | .other f :: es => c.serve installed (f s) es
  | .call q :: es =>
    let (r, c', s') := c.call server installed s q
    let (rs, rest) := c'.serve installed s' es
    (r :: rs, rest)

/-- What a call comes to if a client of hvac is there. -/
def HvacClient.call (client : HvacClient) (s : σ) : Call → Except Failure Json.Value × σ
  | .readSecret path mountPoint =>
    client.request server s (.readSecretVersion path mountPoint) (dataOf "data")
  | .writeSecret path data mountPoint =>
    client.request server s (.createOrUpdateSecret path data mountPoint) fun _ =>
      .ok (.scalar .null)
  | .transitEncrypt keyName plaintextB64 =>
    client.request server s (.encryptData keyName plaintextB64) (dataOf "ciphertext")
  | .transitDecrypt keyName ciphertext =>
    client.request server s (.decryptData keyName ciphertext) (dataOf "plaintext")
  | .ensureTransitKey keyName =>
    let (b, s') := client.ensureKey server s keyName
    (.ok (.scalar (.bool b)), s')

/-- The results of the calls if each of them is just sent. -/
def HvacClient.serve (client : HvacClient) (s : σ) :
    List (Event σ) → List (Except Failure Json.Value) × σ
  | [] => ([], s)
  | .other f :: es => client.serve (f s) es
  | .call q :: es =>
    let (r, s') := client.call server s q
    let (rs, s'') := client.serve s' es
    (r :: rs, s'')

/-- The client of hvac for the settings. -/
def VaultSettings.hvacClient (settings : VaultSettings) : HvacClient :=
  ⟨settings.addr, settings.token⟩

/-- What a call comes to if there is no client. -/
def Call.refuse (e : Failure) : Call → Except Failure Json.Value
  | .ensureTransitKey _ => .ok (.scalar (.bool false))
  | _ => .error e

/-- The first call, before which Vault is asked whether the token is accepted. -/
def HvacClient.firstCall (client : HvacClient) (s : σ) (q : Call) :
    Except Failure Json.Value × σ :=
  match server.answer client .isAuthenticated s with
  | (.ok true, s') => client.call server s' q
  | (.ok false, s') => (q.refuse (.runtimeError "Vault authentication failed"), s')
  | (.error e, s') => (q.refuse e, s')

/-- What others do. -/
def meanwhile : σ → List (Event σ) → σ
  | s, [] => s
  | s, .other f :: es => meanwhile (f s) es
  | s, .call _ :: es => meanwhile s es

/-- The calls among some events. -/
def callsOf : List (Event σ) → List Call
  | [] => []
  | .other _ :: es => callsOf es
  | .call q :: es => q :: callsOf es

section Serving

variable {server} {installed : Bool} {c c' : VaultClient} {client : HvacClient} {s s' : σ}
  {e : Failure} {q : Call} {es : List (Event σ)}

/-- With a client of hvac, a request is sent by it. -/
theorem send_of_ensured {q : Request} {f : q.Answer → Except Failure Json.Value}
    (h : c.ensureClient server installed s = (.ok client, c', s')) :
    c.send server installed s q f =
      ((client.request server s' q f).1, c', (client.request server s' q f).2) := by
  rw [VaultClient.send, h]

/-- Without one, the error is that of making it. -/
theorem send_of_failed {q : Request} {f : q.Answer → Except Failure Json.Value}
    (h : c.ensureClient server installed s = (.error e, c', s')) :
    c.send server installed s q f = (.error e, c', s') := by
  rw [VaultClient.send, h]

/-- Once there is a client of hvac, a call is one of that client. -/
theorem call_of_ensured (h : c.ensureClient server installed s = (.ok client, c', s')) :
    c.call server installed s q =
      ((client.call server s' q).1, c', (client.call server s' q).2) := by
  cases q with
  | readSecret | writeSecret | transitEncrypt | transitDecrypt => exact send_of_ensured h
  | ensureTransitKey keyName =>
    rw [VaultClient.call, VaultClient.ensureTransitKey, h]
    rfl

/-- No call sends anything then. -/
theorem call_of_failed (h : c.ensureClient server installed s = (.error e, c', s')) :
    c.call server installed s q = (q.refuse e, c', s') := by
  cases q with
  | readSecret | writeSecret | transitEncrypt | transitDecrypt => exact send_of_failed h
  | ensureTransitKey keyName =>
    rw [VaultClient.call, VaultClient.ensureTransitKey, h]
    rfl

/-- From then on, all calls are sent. -/
theorem serve_of_client (h : c.client = some client) : c.serve server installed s es =
    ((client.serve server s es).1, c, (client.serve server s es).2) := by
  induction es generalizing s with
  | nil => rfl
  | cons event es ih =>
    cases event with
    | other f => exact ih
    | call q =>
      have hclient : c.ensureClient server installed s = (.ok client, c, s) := by
        rw [VaultClient.ensureClient, h]
      rw [VaultClient.serve, call_of_ensured hclient]
      dsimp only
      rw [ih]
      rfl

/-- A client that is not configured, or that finds no package, sends nothing. -/
theorem serve_of_failed (h : ∀ s, c.ensureClient server installed s = (.error e, c, s)) :
    c.serve server installed s es =
      ((callsOf es).map (·.refuse e), c, meanwhile s es) := by
  induction es generalizing s with
  | nil => rfl
  | cons event es ih =>
    cases event with
    | other f => exact ih
    | call q =>
      rw [VaultClient.serve, call_of_failed (h s)]
      dsimp only
      rw [ih]
      rfl

/-- The first call asks whether the token is accepted, and leaves the client in any case. -/
theorem call_first {settings : VaultSettings} (hc : (⟨settings, none⟩ : VaultClient).isConfigured) :
    VaultClient.call server true ⟨settings, none⟩ s q =
      ((settings.hvacClient.firstCall server s q).1, ⟨settings, some settings.hvacClient⟩,
        (settings.hvacClient.firstCall server s q).2) := by
  have hensure : VaultClient.ensureClient server true ⟨settings, none⟩ s =
      match server.answer settings.hvacClient .isAuthenticated s with
      | (.ok true, s') => (.ok settings.hvacClient, ⟨settings, some settings.hvacClient⟩, s')
      | (.ok false, s') => (.error (.runtimeError "Vault authentication failed"),
          ⟨settings, some settings.hvacClient⟩, s')
      | (.error e, s') => (.error e, ⟨settings, some settings.hvacClient⟩, s') := by
    rw [VaultClient.ensureClient, hc]
    rfl
  rw [HvacClient.firstCall]
  -- Whatever Vault answers, the client has been kept by then.
  cases hanswer : server.answer settings.hvacClient .isAuthenticated s with
  | mk r s' =>
    rw [hanswer] at hensure
    cases r with
    | error e => exact call_of_failed hensure
    | ok b =>
      change Bool at b
      cases b with
      | true => exact call_of_ensured hensure
      | false => exact call_of_failed hensure

/-- Whatever happens to Vault meanwhile: the first call of a client that is configured asks whether
    the token is accepted, and all later ones are sent without asking. This is so also after the
    first one has failed because the token is not accepted. A client that is not configured, or
    that finds no package, never sends anything. -/
theorem serve_eq (server : Server σ) (settings : VaultSettings) (installed : Bool) (s : σ)
    (q : Call) (es : List (Event σ)) :
    (¬((⟨settings, none⟩ : VaultClient).isConfigured = true ∧ installed = true) → ∃ msg,
      VaultClient.serve server installed ⟨settings, none⟩ s (.call q :: es) =
        ((q :: callsOf es).map (·.refuse (.runtimeError msg)), ⟨settings, none⟩,
          meanwhile s es)) ∧
    ((⟨settings, none⟩ : VaultClient).isConfigured = true ∧ installed = true →
      ∃ first s₁, settings.hvacClient.firstCall server s q = (first, s₁) ∧
        VaultClient.serve server installed ⟨settings, none⟩ s (.call q :: es) =
          (first :: (settings.hvacClient.serve server s₁ es).1,
            ⟨settings, some settings.hvacClient⟩,
            (settings.hvacClient.serve server s₁ es).2)) := by
  constructor
  · intro hnot
    -- Nothing is kept of such a failure, so it is the same one each time.
    have hfailed : ∃ msg, ∀ s, VaultClient.ensureClient server installed ⟨settings, none⟩ s =
        (.error (.runtimeError msg), ⟨settings, none⟩, s) := by
      cases hc : (⟨settings, none⟩ : VaultClient).isConfigured with
      | false => exact ⟨_, fun s => by rw [VaultClient.ensureClient, hc]; rfl⟩
      | true =>
        have hinstalled : installed = false := by simpa [hc] using hnot
        exact ⟨_, fun s => by rw [VaultClient.ensureClient, hc, hinstalled]; rfl⟩
    obtain ⟨msg, hmsg⟩ := hfailed
    exact ⟨msg, serve_of_failed hmsg⟩
  · rintro ⟨hc, rfl⟩
    rcases hfirst : settings.hvacClient.firstCall server s q with ⟨first, s₁⟩
    refine ⟨first, s₁, rfl, ?_⟩
    rw [VaultClient.serve, call_first hc, hfirst]
    dsimp only
    rw [serve_of_client rfl]

/-- What Vault promises about its keys: one that has been read or made is there, and no request of
    this client removes a key. -/
structure Server.KeepsKeys (server : Server σ) (holds : σ → String → Prop) : Prop where
  read : ∀ client k s, (∃ r, (server.answer client (.readKey k) s).1 = .ok r) →
    holds (server.answer client (.readKey k) s).2 k
  create : ∀ client k type s, (∃ r, (server.answer client (.createKey k type) s).1 = .ok r) →
    holds (server.answer client (.createKey k type) s).2 k
  keep : ∀ client q s k, holds s k → holds (server.answer client q s).2 k

/-- Others do not remove the key. -/
def Event.Keeps (holds : σ → String → Prop) (k : String) : Event σ → Prop
  | .call _ => True
  | .other f => ∀ s, holds s k → holds (f s) k

section Keys

variable {holds : σ → String → Prop} {k : String}

/-- A request loses no key, whatever is made of its answer. -/
theorem Server.KeepsKeys.request (h : server.KeepsKeys holds) {q : Request}
    {f : q.Answer → Except Failure Json.Value} (hk : holds s k) :
    holds (client.request server s q f).2 k := by
  have hkept := h.keep client q s k hk
  rw [HvacClient.request]
  split <;> rename_i heq <;> rw [heq] at hkept <;> exact hkept

/-- Making sure of a key loses none, and the key is there if it has been made sure of. -/
theorem Server.KeepsKeys.ensureKey (h : server.KeepsKeys holds) {keyName : String} :
    (holds s k → holds (client.ensureKey server s keyName).2 k) ∧
      ((client.ensureKey server s keyName).1 = true →
        holds (client.ensureKey server s keyName).2 keyName) := by
  have hread := h.read client keyName s
  have hkeep := h.keep client (.readKey keyName) s k
  rw [HvacClient.ensureKey]
  generalize server.answer client (.readKey keyName) s = x at hread hkeep ⊢
  obtain ⟨_ | r, s'⟩ := x
  · have hcreate := h.create client keyName "aes256-gcm96" s'
    -- It has not been found: it is there if it can be made, and otherwise `False` is returned.
    have hkeep' := h.keep client (.createKey keyName "aes256-gcm96") s' k
    dsimp only
    generalize server.answer client (.createKey keyName "aes256-gcm96") s' = y at hcreate hkeep' ⊢
    obtain ⟨_ | r, s''⟩ := y
    · exact ⟨fun hk => hkeep' (hkeep hk), by rintro ⟨⟩⟩
    · exact ⟨fun hk => hkeep' (hkeep hk), fun _ => hcreate ⟨r, rfl⟩⟩
  · exact ⟨hkeep, fun _ => hread ⟨r, rfl⟩⟩

/-- Neither does making a client of hvac, which may ask Vault once. -/
theorem Server.KeepsKeys.ensureClient (h : server.KeepsKeys holds) (hk : holds s k) :
    holds (c.ensureClient server installed s).2.2 k := by
  have hkept := h.keep c.settings.hvacClient .isAuthenticated s k hk
  rw [VaultClient.ensureClient]
  split
  · exact hk
  · split_ifs
    · exact hk
    · exact hk
    · change holds (server.answer c.settings.hvacClient .isAuthenticated s).2 k at hkept
      dsimp only
      split <;> rename_i heq
      all_goals
        rw [VaultSettings.hvacClient, heq] at hkept
        exact hkept

/-- A call loses no key. -/
theorem Server.KeepsKeys.call (h : server.KeepsKeys holds) (hk : holds s k) :
    holds (c.call server installed s q).2.2 k := by
  -- A call may ask Vault twice: about the token, and then for what is wanted.
  have hensured : holds (c.ensureClient server installed s).2.2 k := h.ensureClient hk
  rcases hensure : c.ensureClient server installed s with ⟨r, c', s'⟩
  rw [hensure] at hensured
  cases r with
  | ok client =>
    rw [call_of_ensured hensure]
    cases q with
    | readSecret | writeSecret | transitEncrypt | transitDecrypt => exact h.request hensured
    | ensureTransitKey keyName => exact h.ensureKey.1 hensured
  | error e =>
    rw [call_of_failed hensure]
    exact hensured

/-- So a key that is there stays there, if others leave it alone. -/
theorem Server.KeepsKeys.serve (h : server.KeepsKeys holds)
    (hothers : ∀ event ∈ es, event.Keeps holds k) (hk : holds s k) :
    holds (c.serve server installed s es).2.2 k := by
  induction es generalizing c s with
  | nil => exact hk
  | cons event es ih =>
    obtain ⟨hevent, hrest⟩ := List.forall_mem_cons.1 hothers
    cases event with
    | other f => exact ih hrest (hevent s hk)
    | call q => exact ih hrest (h.call hk)

/-- A key that has been made sure of is there from then on, whatever calls there are, if nobody else
    removes it. -/
theorem key_kept (h : server.KeepsKeys holds)
    (hsure : (c.call server installed s (.ensureTransitKey k)).1 = .ok (.scalar (.bool true)))
    (hothers : ∀ event ∈ es, event.Keeps holds k) :
    holds (c.serve server installed s (.call (.ensureTransitKey k) :: es)).2.2 k := by
  have hthere : holds (c.call server installed s (.ensureTransitKey k)).2.2 k := by
    rcases hensure : c.ensureClient server installed s with ⟨r, c', s'⟩
    cases r with
    | error e =>
      rw [call_of_failed hensure] at hsure
      cases hsure
    | ok client =>
      rw [call_of_ensured hensure] at hsure ⊢
      have htrue : (client.ensureKey server s' k).1 = true := by
        simpa [HvacClient.call] using hsure
      exact (h.ensureKey (k := k)).2 htrue
  change holds (VaultClient.serve server installed _ _ es).2.2 k
  exact h.serve hothers hthere

end Keys

end Serving

end Operations

/-! ## A server of keys -/

namespace Encryption

/-- A server that has only keys, and takes one token, which may be revoked. -/
structure State where
  accepted : Bool
  keys : List String

/-- Everything is refused without the token. -/
def server : Server State where
  answer _ q s := match q with
    | .isAuthenticated => (.ok s.accepted, s)
    | .readKey name =>
      (if s.accepted ∧ name ∈ s.keys then .ok (.scalar .null) else .error (.hvacError ""), s)
    | .createKey name _ => match s.accepted with
      | true => (.ok (.scalar .null), { s with keys := name :: s.keys })
      | false => (.error (.hvacError ""), s)
    | .readSecretVersion .. | .createOrUpdateSecret .. | .encryptData .. | .decryptData .. =>
      (.error (.hvacError ""), s)

/-- This server keeps its keys. -/
theorem keepsKeys_server : server.KeepsKeys fun s k => k ∈ s.keys where
  read client k s := by
    rintro ⟨r, hr⟩
    change (if _ then _ else _) = _ at hr
    split_ifs at hr with hk
    exact hk.2
  create client k type s := by
    rintro ⟨r, hr⟩
    obtain ⟨accepted, keys⟩ := s
    cases accepted with
    | true => exact List.mem_cons_self
    | false => cases hr
  keep client q s k hk := by
    cases q with
    | createKey name type =>
      obtain ⟨accepted, keys⟩ := s
      cases accepted with
      | true => exact List.mem_cons_of_mem _ hk
      | false => exact hk
    | isAuthenticated | readKey | readSecretVersion | createOrUpdateSecret | encryptData
    | decryptData => exact hk

/-- The token is revoked after the key has been made. -/
def revoke : Event State := .other fun s => { s with accepted := false }

/-- A client that is configured and has not been used. -/
def client : VaultClient := ⟨⟨"http://vault:8200", "s.test-token", true⟩, none⟩

/-- The key is still there after the token has been revoked, and a call has failed. -/
theorem key_kept_revoked : "opendatagov-minio" ∈
    (client.serve server true ⟨true, []⟩ [.call (.ensureTransitKey "opendatagov-minio"), revoke,
      .call (.transitEncrypt "opendatagov-minio" "AA==")]).2.2.keys :=
  key_kept keepsKeys_server rfl <| List.forall_mem_cons.2 ⟨fun _ hk => hk,
    List.forall_mem_singleton.2 trivial⟩

end Encryption

end Vault

end OpenDataGov
