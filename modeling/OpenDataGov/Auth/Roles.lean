import OpenDataGov.Core.Enums

/-!
# Authorization of the routes

The dependency of the routes that require a RACI role (`requireRole`), which asks OPA, or
reads the roles of the user where OPA is not enabled, and the policy that OPA is
deployed with (`Policy.allow`).

The policy is in Rego. Its rules for `allow` are a list of Boolean functions of the input here
(`Policy.rules`), one of which must say so. The action that the dependency asks for is the role
that the route requires, while the policy knows the actions `read` and `write`: that no role is
one of these is what decides about agreement.

* `requireRole_disabled_iff`, `requireRole_authz_iff`: whom the dependency lets through,
  without OPA and with it;
* `Policy.allow_mono`, `requireRole_mono`: further roles take nothing away;
* `requireRole_failing`: nobody is let through while OPA does not answer;
* `requireRole_agrees_iff`: OPA and the roles of the user agree only on users that do not
  have the role.
-/

namespace OpenDataGov

namespace Auth

/-- The user of a request. -/
structure UserContext where
  userId : String
  username : String
  email : String
  roles : List String
  isAuthenticated : Bool

/-- The document that OPA is asked about. -/
structure Input where
  user : String
  roles : List String
  resource : String
  action : String

/-! ### The policy -/

namespace Policy

/-- The rules for `allow` in the package `authz`. -/
def rules : List (Input → Bool) := [
  fun input => input.roles.any fun r => r = "admin",
  fun input => input.action = "read" ∧ 0 < input.roles.length,
  fun input => input.action = "write" ∧ input.roles.any fun r => r = "responsible",
  fun input => input.action = "write" ∧ input.roles.any fun r => r = "accountable"]

/-- `allow` in the package `authz`: what one of the rules says, `false` by default. -/
def allow (input : Input) : Bool := rules.any fun rule => rule input

variable {input : Input}

/-- Whom the policy allows what. -/
theorem allow_iff : allow input = true ↔ "admin" ∈ input.roles ∨
    (input.action = "read" ∧ input.roles ≠ []) ∨
    (input.action = "write" ∧ ("responsible" ∈ input.roles ∨ "accountable" ∈ input.roles)) := by
  simp only [allow, rules, List.any_cons, List.any_nil, Bool.or_false, Bool.or_eq_true,
    decide_eq_true_eq, List.length_pos_iff, List.any_eq_true, exists_eq_right, and_or_left]

/-- Whoever is allowed something is allowed it with further roles. -/
theorem allow_mono {roles : List String} (hroles : ∀ r ∈ input.roles, r ∈ roles)
    (h : allow input = true) : allow { input with roles := roles } = true := by
  rw [allow_iff] at h ⊢
  rcases h with hadmin | ⟨hread, hne⟩ | ⟨hwrite, hrole⟩
  · exact .inl (hroles _ hadmin)
  · obtain ⟨r, hr⟩ := List.exists_mem_of_ne_nil _ hne
    exact .inr (.inl ⟨hread, List.ne_nil_of_mem (hroles r hr)⟩)
  · exact .inr (.inr ⟨hwrite, hrole.imp (hroles _) (hroles _)⟩)

/-- The policy knows the actions `read` and `write`: others are for the administrators. -/
theorem allow_of_action_ne (hread : input.action ≠ "read") (hwrite : input.action ≠ "write") :
    allow input = true ↔ "admin" ∈ input.roles := by
  rw [allow_iff]
  simp only [hread, hwrite, false_and, or_false]

end Policy

/-! ### The dependency -/

/-- `bool` of a value that has been read from JSON. -/
def truthy : Json.Value → Bool
  | .scalar .null => false
  | .scalar (.bool b) => b
  | .scalar (.int i) => i ≠ 0
  | .scalar (.float x) => x.text ≠ ['0', '.', '0'] ∧ x.text ≠ ['-', '0', '.', '0']
  | .scalar (.str s) => s ≠ ""
  | .arr vs => !vs.isEmpty
  | .obj kvs => !kvs.isEmpty

/-- The answer to a request to OPA: the `result` of the policy, if it is defined. -/
inductive Reply
  | result (value : Option Json.Value)
  /-- An error of the connection or of the server, a timeout, or no JSON object. -/
  | failed

/-- The client of OPA, and what is at its URL. -/
structure OPAClient where
  enabled : Bool
  post : Input → Reply

/-- Whether a user is authorized to perform an action on a resource. -/
def OPAClient.checkAccess (opa : OPAClient) (userId : String) (roles : List String)
    (resource action : String) : Bool :=
  if !opa.enabled then true
  else
    match opa.post ⟨userId, roles, resource, action⟩ with
    | .result value => truthy (value.getD (.scalar (.bool false)))
    | .failed => false

/-- What the dependency asks of OPA. -/
def OPAClient.checkPermission (opa : OPAClient) (userId : String) (roles : List String)
    (action resource : String) : Bool :=
  opa.checkAccess userId roles resource action

/-- The error of a response. -/
structure HTTPException where
  statusCode : ℕ
  detail : String
  deriving DecidableEq

/-- The dependency of a route at `path` that requires the role `role`. -/
def requireRole (role : RACIRole) (opa : OPAClient) (path : String) (user : UserContext) :
    Except HTTPException UserContext :=
  if !user.isAuthenticated then .error ⟨401, "Authentication required"⟩
  else if opa.enabled then
    if !opa.checkPermission user.userId user.roles role.value path then
      .error ⟨403, s!"Role {role} required"⟩
    else .ok user
  else if role.value ∉ user.roles then .error ⟨403, s!"Role {role} required"⟩
  else .ok user

variable {role : RACIRole} {opa : OPAClient} {path : String} {user : UserContext}

/-- The user is let through, or nothing is returned at all. -/
theorem requireRole_eq_ok {u : UserContext} (h : requireRole role opa path user = .ok u) :
    u = user := by
  rw [requireRole] at h
  split_ifs at h <;> exact (Except.ok.inj h).symm

/-- Whoever is let through is authenticated. -/
theorem isAuthenticated_of_requireRole (h : requireRole role opa path user = .ok user) :
    user.isAuthenticated = true := by
  rw [requireRole] at h
  split_ifs at h with hauth <;> simpa using hauth

/-- Without OPA, the users that have the role are let through. -/
theorem requireRole_disabled_iff (hopa : opa.enabled = false)
    (hauth : user.isAuthenticated = true) :
    requireRole role opa path user = .ok user ↔ role.value ∈ user.roles := by
  simp only [requireRole, hopa, hauth, Bool.not_true, Bool.false_eq_true, if_false]
  split_ifs with h
  · exact iff_of_true rfl h
  · exact iff_of_false (fun e => nomatch e) h

/-- With OPA, those that it answers something true for are. -/
theorem requireRole_enabled_iff (hopa : opa.enabled = true)
    (hauth : user.isAuthenticated = true) : requireRole role opa path user = .ok user ↔
      ∃ v, opa.post ⟨user.userId, user.roles, path, role.value⟩ = .result (some v) ∧
        truthy v = true := by
  simp only [requireRole, OPAClient.checkPermission, OPAClient.checkAccess, hopa, hauth,
    Bool.not_true, Bool.false_eq_true, if_false, if_true]
  match opa.post ⟨user.userId, user.roles, path, role.value⟩ with
  | .result (some v) => cases truthy v <;> simp
  | .result none => simp [truthy]
  | .failed => simp

/-- Nobody is let through while OPA does not answer. -/
theorem requireRole_failing (hopa : opa.enabled = true)
    (hfail : ∀ input, opa.post input = .failed) :
    requireRole role opa path user ≠ .ok user := fun h => by
  obtain ⟨v, hv, -⟩ := (requireRole_enabled_iff hopa (isAuthenticated_of_requireRole h)).1 h
  exact nomatch (hfail _).symm.trans hv

/-! ### OPA, as deployed -/

/-- The client of a server that answers with the policy `authz`. -/
def authz (enabled : Bool) : OPAClient where
  enabled := enabled
  post input := .result (some (.scalar (.bool (Policy.allow input))))

/-- The roles are not among the actions that the policy knows. -/
theorem RACIRole.value_ne_action (role : RACIRole) :
    role.value ≠ "read" ∧ role.value ≠ "write" := by
  cases role <;> decide

/-- With OPA as deployed, only administrators are let through, whatever role is required. -/
theorem requireRole_authz_iff (hauth : user.isAuthenticated = true) :
    requireRole role (authz true) path user = .ok user ↔ "admin" ∈ user.roles := by
  obtain ⟨hread, hwrite⟩ := RACIRole.value_ne_action role
  rw [requireRole_enabled_iff rfl hauth, authz]
  simp only [Reply.result.injEq, Option.some.injEq, exists_eq_left', truthy]
  exact Policy.allow_of_action_ne hread hwrite

/-- Who has the roles of a user that is let through is let through, with OPA and without it. -/
theorem requireRole_mono {enabled : Bool} {user' : UserContext}
    (hauth' : user'.isAuthenticated = true) (hroles : ∀ r ∈ user.roles, r ∈ user'.roles)
    (h : requireRole role (authz enabled) path user = .ok user) :
    requireRole role (authz enabled) path user' = .ok user' := by
  have hauth := isAuthenticated_of_requireRole h
  cases enabled with
  | false =>
    rw [requireRole_disabled_iff rfl hauth] at h
    exact (requireRole_disabled_iff rfl hauth').2 (hroles _ h)
  | true =>
    rw [requireRole_authz_iff hauth] at h
    exact (requireRole_authz_iff hauth').2 (hroles _ h)

/-- For a user who is no administrator, OPA and the roles of the user agree exactly if the
    user does not have the role: OPA, which is asked about the role as an action, denies
    every such user. -/
theorem requireRole_agrees_iff (hauth : user.isAuthenticated = true)
    (hadmin : "admin" ∉ user.roles) :
    (requireRole role (authz true) path user = .ok user ↔
      requireRole role (authz false) path user = .ok user) ↔ role.value ∉ user.roles := by
  rw [requireRole_authz_iff hauth, requireRole_disabled_iff rfl hauth, iff_false_left hadmin]

/-- A user who is responsible. -/
def bob : UserContext := ⟨"u1", "bob", "", ["responsible"], true⟩

/-- A user without the role, about whom both agree. -/
theorem requireRole_agrees_bob :
    requireRole .accountable (authz true) "/data/promote" bob = .ok bob ↔
      requireRole .accountable (authz false) "/data/promote" bob = .ok bob :=
  (requireRole_agrees_iff rfl (by decide)).2 (by decide)

/-- A user who is responsible is let through without OPA, not with it. -/
theorem not_requireRole_agrees : ¬∀ (role : RACIRole) (path : String) (user : UserContext),
    user.isAuthenticated = true → "admin" ∉ user.roles →
      (requireRole role (authz true) path user = .ok user ↔
        requireRole role (authz false) path user = .ok user) := fun h => by
  have hagree := h .responsible "/data/promote" bob rfl (by decide)
  rw [requireRole_authz_iff rfl, requireRole_disabled_iff rfl rfl] at hagree
  exact absurd (hagree.2 (by decide)) (by decide)

end Auth

end OpenDataGov
