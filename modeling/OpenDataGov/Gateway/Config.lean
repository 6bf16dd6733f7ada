import Mathlib.Algebra.Group.Int.Defs
import OpenDataGov.Lib.PosixPath
import OpenDataGov.Lib.Text

/-!
# The configuration of the gateway

The gateway is configured by environment variables (`loadFromEnv`). Of a port that is not one,
and of what is not set, it takes the default, and of the backends what is between the commas.
Nothing is refused here: there is a configuration in every environment.

A text of the environment has no zero in it (`Environment`), as the operating system ends it
there. What comes out of any environment is a valid configuration (`Config.Valid`): a positive
port of 63 bits, backends without spaces around them and without commas, and an endpoint. It is
exactly that, since a valid configuration can be written back into an environment
(`Config.settings`).

* `atoi_toDigits`: a number that is written in digits is read;
* `parseBackends_intercalate`: so are backends that are joined by commas;
* `valid_loadFromEnv`: what is loaded is valid;
* `exists_loadFromEnv_iff`: which configurations can be loaded, and from where.

The functions of the standard library are modelled as they are documented: `strconv.Atoi`,
`strings.TrimSpace` and `strings.Split`. Which URLs the backends are is not looked at here, but
when the gateway starts (`Gateway.Upstream`).
-/

namespace OpenDataGov

namespace Gateway

/-! ### Texts -/

/-- What ends a text for the operating system. -/
def zeroChar : Char := Char.ofNat 0

/-- `unicode.IsSpace` -/
def isSpace (c : Char) : Bool :=
  (9 ≤ c.toNat ∧ c.toNat ≤ 13) ∨ (0x2000 ≤ c.toNat ∧ c.toNat ≤ 0x200a) ∨
    c.toNat ∈ [0x20, 0x85, 0xa0, 0x1680, 0x2028, 0x2029, 0x202f, 0x205f, 0x3000]

/-- `strings.TrimSpace` -/
def trimSpace (s : List Char) : List Char := (s.dropWhile isSpace).rdropWhile isSpace

/-- What is written in digits. -/
def parseUint (s : List Char) : Option ℕ :=
  if s ≠ [] ∧ s.all Text.IsDigit then some (Nat.ofDigitChars 10 s 0) else none

/-- `strconv.Atoi`, where an `int` has 64 bits. -/
def atoi (s : List Char) : Option ℤ :=
  match s with
  | '-' :: s => (parseUint s).bind fun n => if n ≤ 2 ^ 63 then some (-n : ℤ) else none
  | '+' :: s => (parseUint s).bind fun n => if n < 2 ^ 63 then some (n : ℤ) else none
  | s => (parseUint s).bind fun n => if n < 2 ^ 63 then some (n : ℤ) else none

/-! ### The configuration -/

/-- The environment of a process. A variable that is not set is read as an empty one, and there
    is no zero in a text. -/
structure Environment where
  getenv : String → String
  noZero : ∀ name, zeroChar ∉ (getenv name).toList

/-- The configuration of a gateway. -/
structure Config where
  port : ℤ
  backends : List String
  otelEndpoint : String
  deriving DecidableEq

/-- The port to listen on. -/
def parsePort (v : String) : ℤ :=
  if v ≠ "" then
    match atoi v.toList with
    | some p => if 0 < p then p else 8080
    | none => 8080
  else 8080

/-- The backends, which are separated by commas. -/
def parseBackends (v : String) : List String :=
  if v ≠ "" then
    ((v.toList.splitOn ',').map fun b => String.ofList (trimSpace b)).filter (· ≠ "")
  else []

/-- The configuration in the environment, with defaults for what is not set. -/
def loadFromEnv (env : Environment) : Config where
  port := parsePort (env.getenv "GATEWAY_PORT")
  backends := parseBackends (env.getenv "VLLM_BACKENDS")
  otelEndpoint :=
    let v := env.getenv "OTEL_EXPORTER_OTLP_ENDPOINT"
    if v = "" then "localhost:4317" else v

/-! ### What can be loaded -/

/-- A backend as it is read: a text without spaces around it and without commas. -/
structure IsBackend (b : String) : Prop where
  ne : b ≠ ""
  head : ∀ c ∈ b.toList.head?, isSpace c = false
  last : ∀ c ∈ b.toList.getLast?, isSpace c = false
  noComma : ',' ∉ b.toList
  noZero : zeroChar ∉ b.toList

/-- A configuration that the gateway can have. -/
structure Config.Valid (cfg : Config) : Prop where
  port_pos : 0 < cfg.port
  port_lt : cfg.port < 2 ^ 63
  backends : ∀ b ∈ cfg.backends, IsBackend b
  otelEndpoint_ne : cfg.otelEndpoint ≠ ""
  otelEndpoint_noZero : zeroChar ∉ cfg.otelEndpoint.toList

variable {s : List Char} {n : ℕ} {b v : String} {bs : List String}

/-- Only digits are read. -/
theorem isDigit_of_parseUint (h : parseUint s = some n) : s ≠ [] ∧ ∀ c ∈ s, Text.IsDigit c := by
  rw [parseUint] at h
  split_ifs at h with hs
  exact ⟨hs.1, fun c hc => of_decide_eq_true (List.all_eq_true.1 hs.2 c hc)⟩

/-- What is written in digits is read back. -/
theorem parseUint_toDigits : parseUint (Nat.toDigits 10 n) = some n := by
  have hdigits : (Nat.toDigits 10 n).all Text.IsDigit :=
    List.all_eq_true.2 fun c hc => decide_eq_true (Text.isDigit_toDigits c hc)
  rw [parseUint, if_pos ⟨Nat.toDigits_ne_nil, hdigits⟩, Nat.ofDigitChars_ten_toDigits]

/-- A number that is written in digits is read. -/
theorem atoi_toDigits (h : n < 2 ^ 63) : atoi (Nat.toDigits 10 n) = some (n : ℤ) := by
  have hparse := parseUint_toDigits (n := n)
  unfold atoi
  split
  · next s heq =>
    rw [heq] at hparse
    exact absurd ((isDigit_of_parseUint hparse).2 _ List.mem_cons_self) (by decide)
  · next s heq =>
    rw [heq] at hparse
    exact absurd ((isDigit_of_parseUint hparse).2 _ List.mem_cons_self) (by decide)
  · rw [hparse, Option.bind_some, if_pos h]

/-- The numbers that are read have 64 bits. -/
theorem atoi_lt {p : ℤ} (h : atoi s = some p) : p < 2 ^ 63 := by
  unfold atoi at h
  split at h
  all_goals
    obtain ⟨n, -, hn⟩ := Option.bind_eq_some_iff.1 h
    split_ifs at hn with hle
    cases hn
    omega

/-- Whatever the text, the port is positive and fits in an `int`. -/
theorem parsePort_bounds : 0 < parsePort v ∧ parsePort v < 2 ^ 63 := by
  rw [parsePort]
  split_ifs with hv
  · split
    · next p hp =>
      split_ifs with hpos
      · exact ⟨hpos, atoi_lt hp⟩
      · decide
    · decide
  · decide

/-- A port that is written in digits is read. -/
theorem parsePort_toDigits (hpos : 0 < n) (hlt : n < 2 ^ 63) :
    parsePort (String.ofList (Nat.toDigits 10 n)) = n := by
  have hne : String.ofList (Nat.toDigits 10 n) ≠ "" := fun h =>
    Nat.toDigits_ne_nil (by rw [← String.toList_ofList (l := Nat.toDigits 10 n), h]; rfl)
  rw [parsePort, if_pos hne, String.toList_ofList, atoi_toDigits hlt]
  exact if_pos (by exact_mod_cast hpos)

/-- What is left of a text has no spaces around it. -/
theorem trimSpace_head : ∀ c ∈ (trimSpace s).head?, isSpace c = false := by
  intro c hc
  have hprefix : trimSpace s <+: s.dropWhile isSpace := List.rdropWhile_prefix ..
  obtain ⟨t, ht⟩ := hprefix
  obtain ⟨r, hr⟩ := List.head?_eq_some_iff.1 hc
  have hdrop : s.dropWhile isSpace = c :: (r ++ t) := by rw [← ht, hr, List.cons_append]
  have hne : s.dropWhile isSpace ≠ [] := hdrop ▸ List.cons_ne_nil _ _
  have hhead : (s.dropWhile isSpace).head hne = c := by simp only [hdrop, List.head_cons]
  exact hhead ▸ List.head_dropWhile_not isSpace hne

/-- Neither before nor after it. -/
theorem trimSpace_last : ∀ c ∈ (trimSpace s).getLast?, isSpace c = false := by
  intro c hc
  obtain ⟨hne, rfl⟩ := List.mem_getLast?_eq_getLast hc
  exact Bool.eq_false_iff.2 (List.rdropWhile_last_not isSpace _ hne)

/-- A text without spaces around it is left as it is. -/
theorem trimSpace_eq_self (hhead : ∀ c ∈ s.head?, isSpace c = false)
    (hlast : ∀ c ∈ s.getLast?, isSpace c = false) : trimSpace s = s := by
  have hdrop : s.dropWhile isSpace = s := by
    cases s with
    | nil => rfl
    | cons c s => rw [List.dropWhile_cons_of_neg (by rw [hhead c rfl]; decide)]
  rw [trimSpace, hdrop, List.rdropWhile_eq_self_iff]
  intro hne
  rw [hlast _ (List.getLast?_eq_some_getLast hne)]
  decide

/-- Only characters at the ends are taken away. -/
theorem mem_of_mem_trimSpace {c : Char} (h : c ∈ trimSpace s) : c ∈ s :=
  (List.dropWhile_sublist isSpace).subset ((List.rdropWhile_prefix isSpace _).subset h)

/-- What is in a piece of a text is in the text. -/
theorem mem_of_mem_splitOn {c d : Char} {t : List Char} (ht : t ∈ s.splitOn d) (hc : c ∈ t) :
    c ∈ s := by
  induction s generalizing t with
  | nil =>
    obtain rfl := List.mem_singleton.1 ht
    exact absurd hc List.not_mem_nil
  | cons e s ih =>
    rw [List.splitOn_cons_eq_if_modifyHead] at ht
    obtain ⟨first, rest, hs⟩ := List.exists_cons_of_ne_nil (List.splitOn_ne_nil d s)
    split_ifs at ht with he
    · rcases List.mem_cons.1 ht with rfl | ht
      · exact absurd hc List.not_mem_nil
      · exact List.mem_cons_of_mem _ (ih ht hc)
    · rw [hs, List.modifyHead_cons] at ht
      rcases List.mem_cons.1 ht with rfl | ht
      · exact (List.mem_cons.1 hc).elim (fun h => h ▸ List.mem_cons_self) fun hc =>
          List.mem_cons_of_mem _ (ih (hs ▸ List.mem_cons_self) hc)
      · exact List.mem_cons_of_mem _ (ih (hs ▸ List.mem_cons_of_mem _ ht) hc)

/-- What is in texts that are joined is in one of them, or between them. -/
theorem mem_of_mem_intercalate {c d : Char} {ts : List (List Char)}
    (h : c ∈ [d].intercalate ts) : c = d ∨ ∃ t ∈ ts, c ∈ t := by
  induction ts with
  | nil => cases h
  | cons t ts ih =>
    cases ts with
    | nil => exact .inr ⟨t, List.mem_cons_self, by simpa using h⟩
    | cons t' ts =>
      rw [List.intercalate_cons_cons, List.append_assoc, List.mem_append, List.singleton_append,
        List.mem_cons] at h
      rcases h with h | rfl | h
      · exact .inr ⟨t, List.mem_cons_self, h⟩
      · exact .inl rfl
      · exact (ih h).imp_right fun ⟨t'', ht'', hc⟩ => ⟨t'', List.mem_cons_of_mem _ ht'', hc⟩

/-- All the backends that are read are in order. -/
theorem isBackend_of_mem (hv : zeroChar ∉ v.toList) (hb : b ∈ parseBackends v) : IsBackend b := by
  rw [parseBackends] at hb
  split_ifs at hb with hne
  · obtain ⟨hmem, hb⟩ := List.mem_filter.1 hb
    obtain ⟨t, ht, rfl⟩ := List.mem_map.1 hmem
    refine ⟨by simpa using hb, ?_, ?_, ?_, ?_⟩
    · rw [String.toList_ofList]
      exact trimSpace_head
    · rw [String.toList_ofList]
      exact trimSpace_last
    · rw [String.toList_ofList]
      exact fun h => Posix.Path.not_mem_of_mem_splitOn ht (mem_of_mem_trimSpace h)
    · rw [String.toList_ofList]
      exact fun h => hv (mem_of_mem_splitOn ht (mem_of_mem_trimSpace h))
  · cases hb

/-- Backends that are joined by commas are read. -/
theorem parseBackends_intercalate (h : ∀ b ∈ bs, IsBackend b) :
    parseBackends (String.ofList ([','].intercalate (bs.map String.toList))) = bs := by
  cases bs with
  | nil => rfl
  | cons b bs =>
    have hsplit : ([','].intercalate ((b :: bs).map String.toList)).splitOn ',' =
        (b :: bs).map String.toList := by
      refine List.splitOn_intercalate ',' (fun l hl => ?_) (by simp)
      obtain ⟨b', hb', rfl⟩ := List.mem_map.1 hl
      exact (h b' hb').noComma
    -- The text is not the empty one, for which `parseBackends` has a case of its own.
    have hne : String.ofList ([','].intercalate ((b :: bs).map String.toList)) ≠ "" := by
      intro heq
      rw [← String.toList_inj, String.toList_ofList] at heq
      rw [heq] at hsplit
      have hb : [] = b.toList := (List.cons.inj hsplit).1
      exact (h b List.mem_cons_self).ne (String.toList_eq_nil_iff.1 hb.symm)
    rw [parseBackends, if_pos hne, String.toList_ofList, hsplit, List.map_map]
    -- There is nothing to trim or to leave out.
    have hmap : (b :: bs).map ((fun b => String.ofList (trimSpace b)) ∘ String.toList) =
        b :: bs := by
      conv_rhs => rw [← List.map_id (b :: bs)]
      refine List.map_congr_left fun b' hb' => ?_
      have hb := h b' hb'
      rw [Function.comp_apply, trimSpace_eq_self hb.head hb.last, String.ofList_toList]
      rfl
    rw [hmap, List.filter_eq_self]
    intro b' hb'
    simpa using (h b' hb').ne

/-- How a configuration is set in the environment. -/
def Config.settings (cfg : Config) (name : String) : String :=
  if name = "GATEWAY_PORT" then String.ofList (Nat.toDigits 10 cfg.port.toNat)
  else if name = "VLLM_BACKENDS" then
    String.ofList ([','].intercalate (cfg.backends.map String.toList))
  else if name = "OTEL_EXPORTER_OTLP_ENDPOINT" then cfg.otelEndpoint
  else ""

/-- A valid configuration can be written into an environment. -/
theorem Config.Valid.settings_noZero {cfg : Config} (h : cfg.Valid) (name : String) :
    zeroChar ∉ (cfg.settings name).toList := by
  rw [Config.settings]
  split_ifs
  · rw [String.toList_ofList]
    exact fun hmem => absurd (Text.isDigit_toDigits _ hmem) (by decide)
  · rw [String.toList_ofList]
    intro hmem
    rcases mem_of_mem_intercalate hmem with hcomma | ⟨t, ht, hzero⟩
    · exact absurd hcomma (by decide)
    · obtain ⟨b, hb, rfl⟩ := List.mem_map.1 ht
      exact (h.backends b hb).noZero hzero
  · exact h.otelEndpoint_noZero
  · exact List.not_mem_nil

/-- A valid configuration is loaded as it is set. -/
theorem Config.Valid.loadFromEnv {cfg : Config} (h : cfg.Valid) :
    Gateway.loadFromEnv ⟨cfg.settings, h.settings_noZero⟩ = cfg := by
  have hport : parsePort (cfg.settings "GATEWAY_PORT") = cfg.port := by
    have hnat : (cfg.port.toNat : ℤ) = cfg.port := Int.toNat_of_nonneg (Int.le_of_lt h.port_pos)
    refine (parsePort_toDigits ?_ ?_).trans hnat
    · exact_mod_cast hnat.symm ▸ h.port_pos
    · exact_mod_cast hnat.symm ▸ h.port_lt
  have hbackends : parseBackends (cfg.settings "VLLM_BACKENDS") = cfg.backends :=
    parseBackends_intercalate h.backends
  have hendpoint : cfg.settings "OTEL_EXPORTER_OTLP_ENDPOINT" = cfg.otelEndpoint := rfl
  rw [Gateway.loadFromEnv]
  dsimp only
  rw [hport, hbackends, hendpoint, if_neg h.otelEndpoint_ne]

/-- Whatever the environment has, what is loaded of it is valid. -/
theorem valid_loadFromEnv (env : Environment) : (loadFromEnv env).Valid where
  port_pos := parsePort_bounds.1
  port_lt := parsePort_bounds.2
  backends _ hb := isBackend_of_mem (env.noZero _) hb
  otelEndpoint_ne := by
    change (if _ then _ else _) ≠ _
    split_ifs with hv
    · decide
    · exact hv
  otelEndpoint_noZero := by
    change _ ∉ (if _ then _ else _ : String).toList
    split_ifs with hv
    · decide
    · exact env.noZero _

/-- The configurations that can be loaded are the valid ones, and a valid one is loaded from
    the environment that sets it. -/
theorem exists_loadFromEnv_iff (cfg : Config) :
    ((∃ env, loadFromEnv env = cfg) ↔ cfg.Valid) ∧
      ∀ h : cfg.Valid, loadFromEnv ⟨cfg.settings, h.settings_noZero⟩ = cfg := by
  refine ⟨⟨?_, fun h => ⟨_, h.loadFromEnv⟩⟩, fun h => h.loadFromEnv⟩
  rintro ⟨env, rfl⟩
  exact valid_loadFromEnv env

/-- A backend with a path. -/
def replicated : Config := ⟨8080, ["http://vllm:8000/v1"], "otel:4317"⟩

theorem isBackend_replicated : IsBackend "http://vllm:8000/v1" where
  ne := by decide
  head c hc := by
    obtain rfl : c = 'h' := by simpa [eq_comm] using hc
    decide
  last c hc := by
    obtain rfl : c = '1' := by simpa [eq_comm] using hc
    decide
  noComma := by decide
  noZero := by decide

theorem valid_replicated : replicated.Valid where
  port_pos := by decide
  port_lt := by decide
  backends := List.forall_mem_singleton.2 isBackend_replicated
  otelEndpoint_ne := by decide
  otelEndpoint_noZero := by decide

theorem exists_loadFromEnv_replicated :
    (∃ env, loadFromEnv env = replicated) ∧
      loadFromEnv ⟨replicated.settings, valid_replicated.settings_noZero⟩ = replicated :=
  ⟨(exists_loadFromEnv_iff replicated).1.2 valid_replicated,
    (exists_loadFromEnv_iff replicated).2 valid_replicated⟩

end Gateway

end OpenDataGov
