import Mathlib.Data.List.DropRight
import Mathlib.Data.List.GetD
import Mathlib.Data.List.TakeWhile

/-!
# URLs

The URLs of the package `net/url` of Go, on bytes: how a text is parsed (`parse`), and what a
URL made of its parts is written as (`URL.string`). How a text was written where that
does not change its meaning (`RawPath`, `RawFragment` and `OmitHost`) is not kept. The
releases of Go differ in the hosts that they take, so `parseHost` is a parameter.

The parser cuts the text at its delimiters, one after the other: the fragment at `#`, the scheme at
`:`, the query at `?`, the authority at `/`, the user at `@`. What is written is put together
from escaped parts, which have no delimiters, so that each cut finds its place again. The results
are about this, for texts of the forms that are met in practice.

* `notMem_escape`: an escaped host does not end the authority;
* `parse_of_host`: of a scheme and a host, with or without a slash at the end, parsing gives
  these;
* `string_of_host`: and what a URL with a host and a path is written as.
-/

namespace NetUrl

/-- The strings of Go. -/
abbrev Bytes := List UInt8

/-- The bytes of an ASCII text. -/
def bytes (s : String) : Bytes := s.toList.map Char.toUInt8

/-- The delimiters. -/
def slash : UInt8 := '/'.toUInt8

def colon : UInt8 := ':'.toUInt8

def questionMark : UInt8 := '?'.toUInt8

def hash : UInt8 := '#'.toUInt8

def atSign : UInt8 := '@'.toUInt8

def percent : UInt8 := '%'.toUInt8

/-- The letters and digits of ASCII. -/
abbrev IsLower (c : UInt8) : Prop := 'a'.toUInt8 ≤ c ∧ c ≤ 'z'.toUInt8

abbrev IsUpper (c : UInt8) : Prop := 'A'.toUInt8 ≤ c ∧ c ≤ 'Z'.toUInt8

abbrev IsDigit (c : UInt8) : Prop := '0'.toUInt8 ≤ c ∧ c ≤ '9'.toUInt8

/-- `strings.ToLower`, of an ASCII text. -/
def toLower (s : Bytes) : Bytes := s.map fun c => if IsUpper c then c + 32 else c

/-- `strings.Cut`: what comes before and after the first separator. -/
def cut (sep : UInt8) (s : Bytes) : Bytes × Bytes :=
  (s.takeWhile (· ≠ sep), (s.dropWhile (· ≠ sep)).tail)

/-! ### Escapes -/

/-- The part of a URL that a text is escaped for. -/
inductive Encoding
  | path
  | userPassword
  | host
  | fragment
  deriving DecidableEq

/-- Whether a byte is escaped in a part of a URL. -/
def shouldEscape (c : UInt8) (mode : Encoding) : Bool :=
  if IsLower c ∨ IsUpper c ∨ IsDigit c then false
  else if mode = .host ∧ (bytes "!$&'()*+,;=:[]<>\"").contains c then false
  else if (bytes "-_.~").contains c then false
  else if (bytes "$&+,/:;=?@").contains c then
    match mode with
    | .path => c = questionMark
    | .userPassword => (bytes "@/?:").contains c
    | .host => true
    | .fragment => false
  else if mode = .fragment ∧ (bytes "!()*").contains c then false
  else true

/-- A hexadecimal digit. -/
def upperhex (n : ℕ) : UInt8 := (bytes "0123456789ABCDEF").getD n 0

/-- A byte that has to be escaped is written as two digits after a percent sign. -/
def escapeByte (mode : Encoding) (c : UInt8) : Bytes :=
  if shouldEscape c mode then [percent, upperhex (c.toNat / 16), upperhex (c.toNat % 16)]
  else [c]

/-- A part of a URL, escaped, -/
def escape (mode : Encoding) (s : Bytes) : Bytes := s.flatMap (escapeByte mode)

/-- The value of a hexadecimal digit. -/
def unhex (c : UInt8) : Option UInt8 :=
  if IsDigit c then some (c - '0'.toUInt8)
  else if 'a'.toUInt8 ≤ c ∧ c ≤ 'f'.toUInt8 then some (c - 'a'.toUInt8 + 10)
  else if 'A'.toUInt8 ≤ c ∧ c ≤ 'F'.toUInt8 then some (c - 'A'.toUInt8 + 10)
  else none

/-- The byte of an escape. In a host, only the percent sign and the bytes that are not ASCII
    are escaped. -/
def unescapeByte (mode : Encoding) (high low : UInt8) : Option UInt8 := do
  let h ← unhex high
  let l ← unhex low
  if mode = .host ∧ h < 8 ∧ [high, low] ≠ bytes "25" then none else some (16 * h + l)

/-- and read back. -/
def unescape (mode : Encoding) : Bytes → Option Bytes
  | [] => some []
  | c :: s =>
    if c = percent then
      match s with
      | high :: low :: s => do
        let b ← unescapeByte mode high low
        let rest ← unescape mode s
        some (b :: rest)
      | _ => none
    else if mode = .host ∧ c < 0x80 ∧ shouldEscape c mode then none
    else do
      let rest ← unescape mode s
      some (c :: rest)

/-- `:port`, or nothing. -/
def validOptionalPort (port : Bytes) : Bool :=
  match port with
  | [] => true
  | c :: digits => c = colon ∧ digits.all (IsDigit ·)

/-- A host that is not in brackets. -/
def parseRegName (host : Bytes) : Option Bytes :=
  if host.contains '['.toUInt8 then none
  else if host.contains colon ∧ !validOptionalPort (colon :: host.rtakeWhile (· ≠ colon)) then none
  else unescape .host host

/-! ### URLs -/

/-- The user in an authority. -/
structure Userinfo where
  username : Bytes
  password : Option Bytes
  deriving DecidableEq

/-- A URL. The field `rootless` has what follows the scheme when that is not a path from the
    root. -/
structure URL where
  scheme : Bytes := []
  rootless : Bytes := []
  user : Option Userinfo := none
  host : Bytes := []
  path : Bytes := []
  forceQuery : Bool := false
  rawQuery : Bytes := []
  fragment : Bytes := []
  deriving DecidableEq

/-- What a scheme may have after its first letter. -/
def isSchemeByte (c : UInt8) : Bool :=
  IsLower c ∨ IsUpper c ∨ IsDigit c ∨ (bytes "+-.").contains c

/-- The scheme, and what follows it. A text may have no scheme, but not an empty one. -/
def getScheme (s : Bytes) : Option (Bytes × Bytes) :=
  match s.takeWhile isSchemeByte, s.dropWhile isSchemeByte with
  | _, [] => some ([], s)
  | [], c :: _ => if c = colon then none else some ([], s)
  | first :: scheme, c :: rest =>
    if c = colon ∧ (IsLower first ∨ IsUpper first) then some (first :: scheme, rest)
    else some ([], s)

/-- What comes before the query, whether there is only the mark of a query, and the query. -/
def cutQuery (s : Bytes) : Bytes × Bool × Bytes :=
  if s.getLast? = some questionMark ∧ s.count questionMark = 1 then (s.dropLast, true, [])
  else ((cut questionMark s).1, false, (cut questionMark s).2)

/-- What a user may be written with. -/
def validUserinfo (s : Bytes) : Bool :=
  s.all fun c => IsLower c ∨ IsUpper c ∨ IsDigit c ∨ (bytes "-._:~!$&'()*+,;=%@").contains c

/-- The user, with a password after the first colon if there is one. -/
def parseUserinfo (s : Bytes) : Option Userinfo :=
  if !validUserinfo s then none
  else if s.contains colon then do
    let username ← unescape .userPassword (cut colon s).1
    let password ← unescape .userPassword (cut colon s).2
    some ⟨username, some password⟩
  else do
    let username ← unescape .userPassword s
    some ⟨username, none⟩

/-- The user information ends at the last `@`. -/
def parseAuthority (parseHost : Bytes → Option Bytes) (authority : Bytes) :
    Option (Option Userinfo × Bytes) :=
  if authority.contains atSign then do
    let host ← parseHost (authority.rtakeWhile (· ≠ atSign))
    let user ← parseUserinfo (authority.rdropWhile (· ≠ atSign)).dropLast
    some (some user, host)
  else do
    let host ← parseHost authority
    some (none, host)

/-- What follows the scheme, up to the query. -/
def parseHierarchy (parseHost : Bytes → Option Bytes) (scheme rest : Bytes) : Option URL :=
  if rest.head? ≠ some slash ∧ scheme ≠ [] then some { scheme, rootless := rest }
  else if rest.head? ≠ some slash ∧ (cut slash rest).1.contains colon then none
  else if (scheme ≠ [] ∨ rest.take 3 ≠ bytes "///") ∧ rest.take 2 = bytes "//" then do
    let (user, host) ← parseAuthority parseHost ((rest.drop 2).takeWhile (· ≠ slash))
    let path ← unescape .path ((rest.drop 2).dropWhile (· ≠ slash))
    some { scheme, user, host, path }
  else do
    let path ← unescape .path rest
    some { scheme, path }

/-- A text without a fragment. It has no control characters. -/
def parseWhole (parseHost : Bytes → Option Bytes) (s : Bytes) : Option URL :=
  if s.any fun c => c < 0x20 ∨ c = 0x7f then none
  else if s = bytes "*" then some { path := s }
  else do
    let (scheme, rest) ← getScheme s
    let (rest, forceQuery, rawQuery) := cutQuery rest
    let url ← parseHierarchy parseHost (toLower scheme) rest
    some { url with forceQuery, rawQuery }

/-- `url.Parse`: the fragment is cut off first. -/
def parse (parseHost : Bytes → Option Bytes) (s : Bytes) : Option URL := do
  let url ← parseWhole parseHost (cut hash s).1
  let fragment ← unescape .fragment (cut hash s).2
  some { url with fragment }

/-! ### What a URL is written as -/

/-- What a user is written as. -/
def Userinfo.string (user : Userinfo) : Bytes :=
  escape .userPassword user.username ++
    match user.password with
    | some password => colon :: escape .userPassword password
    | none => []

namespace URL

/-- A path is escaped, unless it is `*`. -/
def escapedPath (u : URL) : Bytes := if u.path = bytes "*" then u.path else escape .path u.path

/-- The scheme with its colon, if there is one, -/
def schemePart (u : URL) : Bytes := if u.scheme = [] then [] else u.scheme ++ [colon]

/-- The scheme and the authority. -/
def base (u : URL) : Bytes :=
  u.schemePart ++
    (if (u.scheme ≠ [] ∨ u.host ≠ [] ∨ u.user.isSome) ∧
        (u.host ≠ [] ∨ u.path ≠ [] ∨ u.user.isSome) then bytes "//" else []) ++
    (match u.user with
      | some user => user.string ++ [atSign]
      | none => []) ++
    escape .host u.host

/-- What stands before a path that could be taken for something else. -/
def pathMark (u : URL) : Bytes :=
  if u.escapedPath ≠ [] ∧ u.escapedPath.head? ≠ some slash ∧ u.host ≠ [] then [slash]
  else if u.base = [] ∧ (cut slash u.escapedPath).1.contains colon then bytes "./"
  else []

/-- and the query with its question mark. -/
def query (forceQuery : Bool) (rawQuery : Bytes) : Bytes :=
  if forceQuery ∨ rawQuery ≠ [] then questionMark :: rawQuery else []

/-- `URL.String` -/
def string (u : URL) : Bytes :=
  (if u.rootless ≠ [] then u.schemePart ++ u.rootless
    else u.base ++ u.pathMark ++ u.escapedPath) ++
  query u.forceQuery u.rawQuery ++
  if u.fragment = [] then [] else hash :: escape .fragment u.fragment

end URL

variable {scheme host t s : Bytes} {c sep : UInt8} {mode : Encoding} {url : URL}
  {parseHost : Bytes → Option Bytes}

/-! ### Escaped texts -/

/-- The hexadecimal digits are these. -/
theorem upperhex_mem {n : ℕ} (h : n < 16) : upperhex n ∈ bytes "0123456789ABCDEF" := by
  have hlen : n < (bytes "0123456789ABCDEF").length := h
  rw [upperhex, List.getD_eq_getElem _ _ hlen]
  exact List.getElem_mem hlen

/-- A byte that is escaped does not occur in what is escaped, unless as part of an escape. -/
theorem notMem_escape (hescape : shouldEscape c mode = true) (hpercent : c ≠ percent)
    (hhex : c ∉ bytes "0123456789ABCDEF") : c ∉ escape mode s := by
  intro hc
  obtain ⟨b, -, hb⟩ := List.mem_flatMap.1 hc
  have hlt := b.toNat_lt
  rw [escapeByte] at hb
  split_ifs at hb with hbescape
  · rcases List.mem_cons.1 hb with rfl | hb
    · exact hpercent rfl
    rcases List.mem_cons.1 hb with rfl | hb
    · exact hhex (upperhex_mem (by omega))
    · obtain rfl := List.mem_singleton.1 hb
      exact hhex (upperhex_mem (by omega))
  · obtain rfl := List.mem_singleton.1 hb
    exact hbescape hescape

/-- Only nothing is escaped as nothing. -/
theorem escape_eq_nil : escape mode s = [] ↔ s = [] := by
  cases s with
  | nil => simp [escape]
  | cons c s =>
    rw [escape, List.flatMap_cons, escapeByte]
    split_ifs <;> simp

/-- What needs no escape stays as it is, -/
theorem escape_eq_self (h : ∀ c ∈ s, shouldEscape c mode = false) : escape mode s = s := by
  induction s with
  | nil => rfl
  | cons c s ih =>
    rw [List.forall_mem_cons] at h
    rw [escape, List.flatMap_cons, escapeByte, if_neg (by rw [h.1]; exact Bool.false_ne_true)]
    exact congrArg (c :: ·) (ih h.2)

/-- and is read as it is. -/
theorem unescape_eq_self (h : ∀ c ∈ s, shouldEscape c .host = false) :
    unescape .host s = some s := by
  induction s with
  | nil => rfl
  | cons c s ih =>
    rw [List.forall_mem_cons] at h
    have hpercent : c ≠ percent := by
      rintro rfl
      exact absurd h.1 (by decide)
    have hraw : ¬(Encoding.host = .host ∧ c < 0x80 ∧ shouldEscape c .host = true) := fun hc =>
      absurd hc.2.2 (by rw [h.1]; exact Bool.false_ne_true)
    unfold unescape
    rw [if_neg hpercent, if_neg hraw, ih h.2]
    rfl

/-! ### A scheme and a host -/

/-- The bytes that end a host, or the user information before it. -/
def delimiters : Bytes := [slash, questionMark, hash, atSign]

/-- There is no delimiter in an escaped host. -/
theorem delimiter_notMem_escape (hc : c ∈ delimiters) : c ∉ escape .host s := by
  simp only [delimiters, List.mem_cons, List.not_mem_nil, or_false] at hc
  rcases hc with rfl | rfl | rfl | rfl <;>
    exact notMem_escape (by decide) (by decide) (by decide)

/-- A text without the separator is not cut. -/
theorem cut_of_notMem (h : sep ∉ s) : cut sep s = (s, []) := by
  have hne : ∀ c ∈ s, decide (c ≠ sep) = true := fun c hc => by
    simpa using fun heq : c = sep => h (heq ▸ hc)
  rw [cut, List.takeWhile_eq_self_iff.2 hne, List.dropWhile_eq_nil_iff.2 hne, List.tail_nil]

/-- The scheme of a text that begins with lower-case letters and a colon. -/
theorem getScheme_append (hne : scheme ≠ []) (hlower : ∀ c ∈ scheme, IsLower c) :
    getScheme (scheme ++ colon :: s) = some (scheme, s) := by
  have hscheme : ∀ c ∈ scheme, isSchemeByte c = true := fun c hc =>
    decide_eq_true (.inl (hlower c hc))
  have hcolon : isSchemeByte colon ≠ true := by decide
  rw [getScheme, List.takeWhile_append_of_pos hscheme, List.dropWhile_append_of_pos hscheme,
    List.takeWhile_cons_of_neg hcolon, List.dropWhile_cons_of_neg hcolon, List.append_nil]
  obtain ⟨first, rest, rfl⟩ := List.exists_cons_of_ne_nil hne
  exact if_pos ⟨rfl, .inl (hlower first List.mem_cons_self)⟩

theorem isLower_of_all (h : s.all (IsLower ·) = true) : ∀ c ∈ s, IsLower c := fun c hc =>
  of_decide_eq_true (List.all_eq_true.1 h c hc)

theorem toLower_of_isLower (hlower : ∀ c ∈ s, IsLower c) : toLower s = s := by
  have hsame : ∀ c ∈ s, (if IsUpper c then c + 32 else c) = id c := fun c hc => by
    refine if_neg fun hupper => ?_
    exact absurd (UInt8.le_trans (hlower c hc).1 hupper.2) (by decide)
  rw [toLower, List.map_congr_left hsame, List.map_id]

theorem cutQuery_of_notMem (h : questionMark ∉ s) : cutQuery s = (s, false, []) := by
  have hlast : ¬(s.getLast? = some questionMark ∧ s.count questionMark = 1) := fun hmark =>
    h (List.mem_of_getLast? hmark.1)
  rw [cutQuery, if_neg hlast, cut_of_notMem h]

theorem parseAuthority_of_notMem (h : atSign ∉ host) :
    parseAuthority parseHost host = (parseHost host).map (none, ·) := by
  rw [parseAuthority, if_neg (by simpa using h)]
  cases parseHost host <;> rfl

/-- A path begins with a slash, when there is one. -/
abbrev IsRooted (t : Bytes) : Prop := t = [] ∨ t.head? = some slash

/-- What follows the scheme is an authority and a path. -/
theorem parseHierarchy_of_authority (hne : scheme ≠ []) (hslash : slash ∉ host)
    (hat : atSign ∉ host) (ht : IsRooted t) :
    parseHierarchy parseHost scheme (bytes "//" ++ (host ++ t)) =
      (parseHost host).bind fun host =>
        (unescape .path t).map fun path => { scheme, host, path } := by
  have hhead : (bytes "//" ++ (host ++ t)).head? = some slash := rfl
  have htake : (bytes "//" ++ (host ++ t)).take 2 = bytes "//" := rfl
  have hdrop : (bytes "//" ++ (host ++ t)).drop 2 = host ++ t := rfl
  have hhost : ∀ c ∈ host, decide (c ≠ slash) = true := fun c hc => by
    simpa using fun heq : c = slash => hslash (heq ▸ hc)
  have hrest : t.takeWhile (· ≠ slash) = [] ∧ t.dropWhile (· ≠ slash) = t := by
    rcases ht with rfl | ht
    · exact ⟨rfl, rfl⟩
    · obtain ⟨s, rfl⟩ := List.head?_eq_some_iff.1 ht
      exact ⟨List.takeWhile_cons_of_neg (by simp), List.dropWhile_cons_of_neg (by simp)⟩
  rw [parseHierarchy, if_neg (fun h => h.1 hhead), if_neg (fun h => h.1 hhead),
    if_pos ⟨.inl hne, htake⟩, hdrop, List.takeWhile_append_of_pos hhost,
    List.dropWhile_append_of_pos hhost, hrest.1, hrest.2, List.append_nil,
    parseAuthority_of_notMem hat]
  cases parseHost host with
  | none => rfl
  | some host => cases unescape .path t <;> rfl

/-- What a scheme, a host and a path are parsed to, if they are taken. -/
theorem parse_of_authority (hne : scheme ≠ []) (hlower : ∀ c ∈ scheme, IsLower c)
    (hhost : ∀ c ∈ delimiters, c ∉ host) (ht : IsRooted t) (hquery : questionMark ∉ t)
    (hhash : hash ∉ t)
    (hparse : parse parseHost (scheme ++ bytes "://" ++ (host ++ t)) = some url) :
    url.scheme = scheme ∧ parseHost host = some url.host := by
  have htext : scheme ++ bytes "://" ++ (host ++ t) =
      scheme ++ colon :: (bytes "//" ++ (host ++ t)) := by
    rw [List.append_assoc]
    rfl
  have hmem {c : UInt8} (hc : c ∈ delimiters) (ht : c ∉ t) (hc' : c ∉ bytes "//") :
      c ∉ bytes "//" ++ (host ++ t) := by
    simp [hc', hhost c hc, ht]
  have hcut : hash ∉ scheme ++ colon :: (bytes "//" ++ (host ++ t)) := by
    rw [List.mem_append, List.mem_cons, not_or, not_or]
    refine ⟨fun hc => ?_, by decide, hmem (by decide) hhash (by decide)⟩
    exact absurd (hlower hash hc) (by decide)
  rw [htext, parse, cut_of_notMem hcut] at hparse
  obtain ⟨whole, hwhole, hparse⟩ := Option.bind_eq_some_iff.1 hparse
  obtain ⟨_, _, hurl⟩ := Option.bind_eq_some_iff.1 hparse
  cases hurl
  change whole.scheme = scheme ∧ parseHost host = some whole.host
  rw [parseWhole] at hwhole
  -- The text `*` is a URL of its own, and is shorter than this one.
  split_ifs at hwhole with _ hstar
  · have hlen := congrArg List.length hstar
    have hone : (bytes "*").length = 1 := by decide
    have htwo : (bytes "//").length = 2 := by decide
    simp only [List.length_append, List.length_cons, hone, htwo] at hlen
    omega
  · have hrest := cutQuery_of_notMem (hmem (by decide) hquery (by decide))
    simp only [getScheme_append hne hlower, hrest, toLower_of_isLower hlower,
      parseHierarchy_of_authority hne (hhost slash (by decide)) (hhost atSign (by decide)) ht,
      Option.bind_eq_bind, Option.bind_some] at hwhole
    obtain ⟨_, hhierarchy, hwhole⟩ := Option.bind_eq_some_iff.1 hwhole
    obtain ⟨host', hhost', hpath⟩ := Option.bind_eq_some_iff.1 hhierarchy
    obtain ⟨path, -, rfl⟩ := Option.map_eq_some_iff.1 hpath
    cases hwhole
    exact ⟨rfl, hhost'⟩

/-- What a URL of a scheme, a host, a path and a query is written as. -/
theorem string_of_host (hne : scheme ≠ []) (hhost : host ≠ []) (ht : t.head? = some slash) :
    URL.string { scheme, host, path := t, rawQuery := s } =
      scheme ++ bytes "://" ++ escape .host host ++ escape .path t ++ URL.query false s := by
  obtain ⟨rest, rfl⟩ := List.head?_eq_some_iff.1 ht
  have hpath : escape .path (slash :: rest) = slash :: escape .path rest := rfl
  have hstar : slash :: rest ≠ bytes "*" := fun h => by
    have hslash : slash = '*'.toUInt8 := (List.cons_eq_cons.1 h).1
    exact absurd hslash (by decide)
  have hescaped : URL.escapedPath { scheme, host, path := slash :: rest, rawQuery := s } =
      slash :: escape .path rest := if_neg hstar
  -- The path begins with a slash and comes after a base, so it needs no mark.
  have hmark : URL.pathMark { scheme, host, path := slash :: rest, rawQuery := s } = [] := by
    rw [URL.pathMark, hescaped, if_neg (fun h => h.2.1 rfl), if_neg]
    rintro ⟨hbase, -⟩
    simp [URL.base, URL.schemePart, hne] at hbase
  have hbase : URL.base { scheme, host, path := slash :: rest, rawQuery := s } =
      scheme ++ bytes "://" ++ escape .host host := by
    have hcolon : [colon] ++ bytes "//" = bytes "://" := rfl
    rw [URL.base, URL.schemePart, if_neg hne, if_pos ⟨.inl hne, .inl hhost⟩, List.append_nil,
      List.append_assoc scheme, hcolon]
  rw [URL.string, if_neg (fun h => h rfl), if_pos rfl, List.append_nil, hmark, hbase, hescaped,
    hpath, List.append_nil]

end NetUrl
