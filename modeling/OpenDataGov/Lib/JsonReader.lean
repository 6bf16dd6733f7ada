import OpenDataGov.Lib.Dict
import OpenDataGov.Lib.JsonTokens

/-!
# Reading JSON texts

`json.loads`: the value that a text stands for, if it is one. Values are read by recursion on
a fuel, of which twice the length of the text is enough (`readValue_of_le`). Of the members of
an object with the same key, the last one counts.

There are three functions that call each other, for a value, for the items of an array and for the
members of an object. Whatever is proved of them is proved of all three at once, by induction on
the fuel, or on the value where it is about what has been written. That the fuel is enough has two
parts: what is left of a text is shorter than the text (`shortens`), and so more fuel than twice
the length does not change anything (`suffices_all`).

* `readValue_write`: a value is read as it was written, whatever follows it, but for the
  members of its objects that do not count (`Value.collapse`), if its floats are written the
  way `repr` does (`Value.WellFormed`);
* `loads_write`: so the text of a value is read as this value.
-/

namespace Json

open Text Keyed

/-! ## Values -/

/-- The white space of JSON. -/
abbrev IsSpace (c : Char) : Prop := c = ' ' ∨ c = '\t' ∨ c = '\n' ∨ c = '\r'

/-- What follows the spaces. -/
def skip (s : List Char) : List Char := s.dropWhile fun c => IsSpace c

/-- The object of some members: of those with the same key, the last one counts. -/
def objectOf (kvs : List (String × Value)) : Value := .obj (Dict.ofList kvs).rows

section Values

variable [FloatReader]

mutual

/-- The value that a text starts with, and what follows it. -/
def readValue : ℕ → List Char → Option (Value × List Char)
  | 0, _ => none
  | n + 1, s =>
    match s with
    | '"' :: s => (readChars s).map (Prod.map (fun cs => .scalar (.str (String.ofList cs))) id)
    | '[' :: s =>
      match skip s with
      | ']' :: s => some (.arr [], s)
      | s => (readItems n s).map (Prod.map .arr id)
    | '{' :: s =>
      match skip s with
      | '}' :: s => some (.obj [], s)
      | s => (readMembers n s).map (Prod.map objectOf id)
    | s => (readScalar s).map (Prod.map .scalar id)

/-- The items of an array, to its end. -/
def readItems : ℕ → List Char → Option (List Value × List Char)
  | 0, _ => none
  | n + 1, s => do
    let (v, s) ← readValue n s
    match skip s with
    | ']' :: s => some ([v], s)
    | ',' :: s => (readItems n (skip s)).map (Prod.map (v :: ·) id)
    | _ => none

/-- The members of an object, to its end. -/
def readMembers : ℕ → List Char → Option (List (String × Value) × List Char)
  | 0, _ => none
  | n + 1, s =>
    match s with
    | '"' :: s => do
      let (k, s) ← readChars s
      match skip s with
      | ':' :: s => do
        let (v, s) ← readValue n (skip s)
        match skip s with
        | '}' :: s => some ([(String.ofList k, v)], s)
        | ',' :: s => (readMembers n (skip s)).map (Prod.map ((String.ofList k, v) :: ·) id)
        | _ => none
      | _ => none
    | _ => none

end

/-- `json.loads`: the value that a text is, between spaces. -/
def loads (s : String) : Option Value := do
  let t := skip s.toList
  let (v, t) ← readValue (2 * t.length) t
  if skip t = [] then some v else none

/-! ### What is read of what is written -/

omit [FloatReader] in
mutual

/-- A value whose floats are such as Python has. -/
def Value.WellFormed : Value → Prop
  | .scalar x => x.WellFormed
  | .arr vs => ItemsWellFormed vs
  | .obj kvs => MembersWellFormed kvs

/-- The items of an array are such. -/
def ItemsWellFormed : List Value → Prop
  | [] => True
  | v :: vs => v.WellFormed ∧ ItemsWellFormed vs

/-- The members of an object are such. -/
def MembersWellFormed : List (String × Value) → Prop
  | [] => True
  | (_, v) :: kvs => v.WellFormed ∧ MembersWellFormed kvs

end

omit [FloatReader] in
mutual

/-- A value, with the members of its objects that count. -/
def Value.collapse : Value → Value
  | .scalar x => .scalar x
  | .arr vs => .arr (collapseItems vs)
  | .obj kvs => objectOf (collapseMembers kvs)

/-- The items of an array, with the members that count inside. -/
def collapseItems : List Value → List Value
  | [] => []
  | v :: vs => v.collapse :: collapseItems vs

/-- The members of an object, with the members that count inside. -/
def collapseMembers : List (String × Value) → List (String × Value)
  | [] => []
  | (k, v) :: kvs => (k, v.collapse) :: collapseMembers kvs

end

variable {pad s : List Char} {n : ℕ}

omit [FloatReader] in
theorem skip_pad (hpad : ∀ c ∈ pad, IsSpace c) : skip (pad ++ s) = skip s :=
  List.dropWhile_append_of_pos fun c hc => decide_eq_true (hpad c hc)

omit [FloatReader] in
theorem skip_cons {c : Char} (hc : ¬IsSpace c) : skip (c :: s) = c :: s :=
  List.dropWhile_cons_of_neg (by simpa using hc)

omit [FloatReader] in
/-- No scalar starts with a space. -/
theorem Scalar.not_isSpace {x : Scalar} {c : Char} (hc : c ∈ x.write.head?) : ¬IsSpace c := by
  have hspace : ∀ c : Char, (c.isDigit = true ∨ c ∈ ['.', 'e', '+', '-']) → ¬IsSpace c := by
    rintro c hc (rfl | rfl | rfl | rfl) <;> revert hc <;> decide
  match x with
  | .null | .bool true | .bool false | .str _ | .float .nan | .float (.inf false)
  | .float (.inf true) =>
    cases hc
    decide
  | .int i =>
    exact hspace c ((intText_chars (List.mem_of_mem_head? hc)).imp_right fun h => by simp [h])
  | .float (.finite t chars _) => exact hspace c (chars c (List.mem_of_mem_head? hc))

omit [FloatReader] in
/-- A value starts with no space, and not with the end of another one. -/
theorem Value.write_head (pad : List Char) (v : Value) :
    ∃ c t, v.write pad = c :: t ∧ ¬IsSpace c ∧ c ≠ ']' := by
  obtain ⟨c, t, hw, hne, -⟩ := v.write_eq_cons pad
  refine ⟨c, t, hw, ?_, fun h => hne (by simp [h])⟩
  match v with
  | .scalar x => exact Scalar.not_isSpace (x := x) (by rw [show x.write = c :: t from hw]; rfl)
  | .arr [] | .arr (_ :: _) | .obj [] | .obj (_ :: _) =>
    cases hw
    decide

omit [FloatReader] in
theorem skip_write (v : Value) : skip (v.write pad ++ s) = v.write pad ++ s := by
  obtain ⟨c, t, hw, hc, -⟩ := v.write_head pad
  rw [hw]
  exact skip_cons hc

/-- What begins like a number or a constant is read as a scalar, -/
theorem readValue_of_isTokenChar {c : Char} (hc : IsTokenChar c) :
    readValue (n + 1) (c :: s) = (readScalar (c :: s)).map (Prod.map .scalar id) := by
  rw [readValue]
  all_goals
    rintro _ ⟨⟩
    exact absurd hc (by decide)

/-- what begins with a quotation mark as a string, -/
theorem readValue_str (t : String) :
    readValue (n + 1) (writeString t ++ s) = some (.scalar (.str t), s) := by
  rw [writeString, List.cons_append, List.append_assoc, List.singleton_append, readValue,
    readChars_flatMap_escape]
  simp

/-- and so each scalar as it was written. -/
theorem readValue_scalar {x : Scalar} (hx : x.WellFormed) (hs : Stops s) :
    readValue (n + 1) (x.write ++ s) = some (.scalar x, s) := by
  obtain ⟨c, t, hw, ⟨-, t', rfl⟩ | ⟨hc, hstr⟩⟩ := x.write_eq_cons
  · exact readValue_str t'
  · rw [hw, List.cons_append, readValue_of_isTokenChar hc, ← List.cons_append, ← hw,
      readScalar_write hx hstr hs]
    rfl

mutual

/-- A value is read as it was written, whatever follows that is no part of it. -/
theorem readValue_write {s : List Char} {n : ℕ} (hpad : ∀ c ∈ pad, IsSpace c) (v : Value)
    (hv : v.WellFormed) (hs : Stops s) (hn : 2 * (v.write pad).length ≤ n) :
    readValue n (v.write pad ++ s) = some (v.collapse, s) := by
  obtain ⟨c, t, hw, -⟩ := v.write_head pad
  have hlength : (v.write pad).length = t.length + 1 := by rw [hw, List.length_cons]
  obtain ⟨n, rfl⟩ : ∃ m, n = m + 1 := ⟨n - 1, by omega⟩
  -- The fuel suffices for the parts, which are shorter than the value is.
  match v with
  | .scalar x => exact readValue_scalar hv hs
  | .arr [] => rfl
  | .arr (v :: vs) =>
    obtain ⟨c', t', hw', -, hne⟩ := v.write_head pad
    have hitems : readItems n (v.write pad ++ (writeItems pad vs ++ s)) =
        some (collapseItems (v :: vs), s) := readItems_write hpad v vs hv hs (by
        simp only [Value.write, List.length_cons] at hn
        omega)
    rw [Value.write, List.cons_append, List.append_assoc, readValue, skip_write, hw',
      List.cons_append]
    rw [hw', List.cons_append] at hitems
    split
    · next h => exact absurd (List.cons.inj h).1 hne
    · rw [hitems]
      rfl
  | .obj [] => rfl
  | .obj ((k, v) :: kvs) =>
    have hmembers : readMembers n (writeString k ++ (':' :: (pad ++ (v.write pad ++
        (writeMembers pad kvs ++ s))))) = some (collapseMembers ((k, v) :: kvs), s) :=
      readMembers_write hpad k v kvs hv hs (by
        simp only [Value.write, List.length_cons] at hn
        omega)
    simp only [Value.write, List.cons_append, List.append_assoc]
    rw [readValue, writeString, List.cons_append, skip_cons (by decide)]
    exact congrArg (Option.map (Prod.map objectOf id)) hmembers

/-- and so are the items of an array, -/
theorem readItems_write {s : List Char} {n : ℕ} (hpad : ∀ c ∈ pad, IsSpace c) (v : Value)
    (vs : List Value) (hv : ItemsWellFormed (v :: vs)) (hs : Stops s)
    (hn : 2 * (v.write pad ++ writeItems pad vs).length + 1 ≤ n) :
    readItems n (v.write pad ++ (writeItems pad vs ++ s)) = some (collapseItems (v :: vs), s) := by
  obtain ⟨n, rfl⟩ : ∃ m, n = m + 1 := ⟨n - 1, by omega⟩
  rw [List.length_append] at hn
  rw [readItems, readValue_write hpad v hv.1 (stops_writeItems pad vs s) (by omega)]
  match vs with
  | [] => rfl
  | v' :: vs =>
    simp only [writeItems, List.length_cons, List.length_append] at hn
    have hitems := readItems_write hpad v' vs hv.2 hs (n := n) (by
      rw [List.length_append]
      omega)
    simp only [writeItems, List.cons_append, List.append_assoc, Option.bind_eq_bind,
      Option.bind_some, skip_cons (show ¬IsSpace ',' by decide), skip_pad hpad, skip_write]
    rw [hitems]
    rfl

/-- and the members of an object. -/
theorem readMembers_write {s : List Char} {n : ℕ} (hpad : ∀ c ∈ pad, IsSpace c) (k : String)
    (v : Value) (kvs : List (String × Value)) (hv : MembersWellFormed ((k, v) :: kvs))
    (hs : Stops s)
    (hn : 2 * (writeString k ++ (':' :: (pad ++ (v.write pad ++ writeMembers pad kvs)))).length
      + 1 ≤ n) :
    readMembers n (writeString k ++ (':' :: (pad ++ (v.write pad ++
      (writeMembers pad kvs ++ s))))) = some (collapseMembers ((k, v) :: kvs), s) := by
  obtain ⟨n, rfl⟩ : ∃ m, n = m + 1 := ⟨n - 1, by omega⟩
  simp only [List.length_append, List.length_cons] at hn
  have hvalue := readValue_write hpad v hv.1 (stops_writeMembers pad kvs s) (n := n) (by omega)
  simp only [writeString, List.cons_append, List.append_assoc, List.nil_append, readMembers,
    readChars_flatMap_escape, Option.bind_eq_bind, Option.bind_some,
    skip_cons (show ¬IsSpace ':' by decide), skip_pad hpad, skip_write]
  rw [hvalue]
  -- After the first member there is the end of the object, or a comma and the other members.
  match kvs with
  | [] => simp [writeMembers, skip_cons, collapseMembers]
  | (k', v') :: kvs =>
    simp only [writeMembers, List.length_cons, List.length_append] at hn
    have hmembers := readMembers_write hpad k' v' kvs hv.2 hs (n := n) (by
      simp only [List.length_append, List.length_cons]
      omega)
    simp only [writeMembers, List.cons_append, List.append_assoc, Option.bind_some,
      skip_cons (show ¬IsSpace ',' by decide), skip_pad hpad]
    rw [writeString, List.cons_append] at hmembers ⊢
    rw [skip_cons (by decide), hmembers]
    simp [collapseMembers]

end

/-- The text of a value is read as this value. -/
theorem loads_write (hpad : ∀ c ∈ pad, IsSpace c) {v : Value} (hv : v.WellFormed) :
    loads (String.ofList (v.write pad)) = some v.collapse := by
  have hskip : skip (v.write pad) = v.write pad := by simpa using skip_write (s := []) v
  have hread := readValue_write hpad v hv stopsAt_nil (le_refl (2 * (v.write pad).length))
  rw [List.append_nil] at hread
  rw [loads, String.toList_ofList, hskip, hread]
  rfl

/-! ### The fuel -/

omit [FloatReader] in
/-- Reading leaves less of the text: white space, -/
theorem length_skip_le (s : List Char) : (skip s).length ≤ s.length :=
  (List.dropWhile_sublist _).length_le

omit [FloatReader] in
/-- strings, -/
theorem length_readChars {cs t : List Char} (h : readChars s = some (cs, t)) :
    t.length < s.length := by
  have hthen : ∀ {c : Char} {s : List Char} {cs t : List Char},
      (∀ {cs t : List Char}, readChars s = some (cs, t) → t.length < s.length) →
      (readChars s).map (charThen c) = some (cs, t) → t.length < s.length := by
    intro c s cs t ih h
    obtain ⟨⟨cs', t'⟩, hread, heq⟩ := Option.map_eq_some_iff.1 h
    cases heq
    exact ih hread
  fun_induction readChars s generalizing cs t with
  | case1 s =>
    cases h
    exact Nat.lt_succ_self _
  | case4 | case8 | case10 | case12 =>
    rename_i ih
    have := hthen ih h
    simp only [List.length_cons]
    omega
  | _ => cases h

/-- scalars. -/
theorem length_readScalar {x : Scalar} {t : List Char} (h : readScalar s = some (x, t)) :
    t.length < s.length := by
  rcases Option.or_eq_some_iff.1 h with h | ⟨-, h⟩
  · obtain ⟨m, hm, heq⟩ := Option.map_eq_some_iff.1 h
    cases heq
    have hparts := congrArg List.length (matchNumber_parts hm)
    have hne : m.integer ≠ [] := by
      obtain ⟨i, hi, rfl⟩ := Option.map_eq_some_iff.1 hm
      exact matchInteger_ne_nil hi
    have hpos := List.length_pos_iff.2 hne
    simp only [List.length_append] at hparts
    omega
  · unfold readConstant at h
    split at h <;> cases h <;> simp only [List.length_cons] <;> omega

/-- With the fuel `n`, what follows something that has been read is shorter than the text. -/
structure Shortens (n : ℕ) : Prop where
  value : ∀ s v t, readValue n s = some (v, t) → t.length < s.length
  items : ∀ s vs t, readItems n s = some (vs, t) → t.length < s.length
  members : ∀ s kvs t, readMembers n s = some (kvs, t) → t.length < s.length

omit [FloatReader] in
/-- What is made of something that has been read from a part of the text is read from the text. -/
theorem length_of_map {α β : Type} {g : α → β} {b : β} {u s t : List Char}
    {o : Option (α × List Char)} (ho : ∀ a t, o = some (a, t) → t.length < u.length)
    (hu : u.length ≤ s.length) (h : o.map (Prod.map g id) = some (b, t)) :
    t.length < s.length := by
  obtain ⟨⟨_, _⟩, hread, heq⟩ := Option.map_eq_some_iff.1 h
  cases heq
  exact (ho _ _ hread).trans_le hu

/-- So it is with one more, for a value, -/
theorem Shortens.readValue {v : Value} {t : List Char} (hn : Shortens n)
    (h : readValue (n + 1) s = some (v, t)) : t.length < s.length := by
  -- A quote opens a text, and a bracket is closed at once or has items or members after it.
  unfold Json.readValue at h
  split at h
  · exact length_of_map (fun _ _ => length_readChars) (Nat.le_succ _) h
  · next s =>
    have hskip := length_skip_le s
    split at h
    · next heq =>
      cases h
      rw [heq] at hskip
      exact Nat.lt_succ_of_lt hskip
    · exact length_of_map (hn.items _) (Nat.le_succ_of_le hskip) h
  · next s =>
    have hskip := length_skip_le s
    split at h
    · next heq =>
      cases h
      rw [heq] at hskip
      exact Nat.lt_succ_of_lt hskip
    · exact length_of_map (hn.members _) (Nat.le_succ_of_le hskip) h
  · exact length_of_map (fun _ _ => length_readScalar) (Nat.le_refl _) h

/-- for items, -/
theorem Shortens.readItems {vs : List Value} {t : List Char} (hn : Shortens n)
    (h : readItems (n + 1) s = some (vs, t)) : t.length < s.length := by
  obtain ⟨⟨v, s'⟩, hv, h⟩ := Option.bind_eq_some_iff.1 h
  have hlt := (length_skip_le s').trans_lt (hn.value _ _ _ hv)
  simp only at h
  split at h
  · next heq =>
    cases h
    rw [heq] at hlt
    exact Nat.lt_of_succ_lt hlt
  · next s'' heq =>
    rw [heq] at hlt
    exact length_of_map (hn.items _)
      ((length_skip_le s'').trans (Nat.le_of_lt (Nat.lt_of_succ_lt hlt))) h
  · cases h

/-- and for members. -/
theorem Shortens.readMembers {kvs : List (String × Value)} {t : List Char} (hn : Shortens n)
    (h : readMembers (n + 1) s = some (kvs, t)) : t.length < s.length := by
  unfold Json.readMembers at h
  split at h
  · next s =>
    obtain ⟨⟨k, s₁⟩, hk, h⟩ := Option.bind_eq_some_iff.1 h
    have hlt₁ := (length_skip_le s₁).trans_lt (length_readChars hk)
    simp only at h
    split at h
    · next s₂ heq₂ =>
      rw [heq₂, List.length_cons] at hlt₁
      obtain ⟨⟨v, s₃⟩, hv, h⟩ := Option.bind_eq_some_iff.1 h
      have hlt₃ := (length_skip_le s₃).trans_lt
        ((hn.value _ _ _ hv).trans_le (length_skip_le s₂))
      simp only at h
      split at h
      · next heq₄ =>
        cases h
        rw [heq₄, List.length_cons] at hlt₃
        rw [List.length_cons]
        omega
      · next s₄ heq₄ =>
        rw [heq₄, List.length_cons] at hlt₃
        refine length_of_map (hn.members _) ((length_skip_le s₄).trans ?_) h
        rw [List.length_cons]
        omega
      · cases h
    · cases h
  · cases h

/-- Reading leaves less of the text, with any fuel. -/
theorem shortens (n : ℕ) : Shortens n := by
  induction n with
  | zero => exact ⟨nofun, nofun, nofun⟩
  | succ n ih =>
    exact ⟨fun _ _ _ => ih.readValue, fun _ _ _ => ih.readItems, fun _ _ _ => ih.readMembers⟩

/-- The fuel `n` is enough for all texts that are so short. An item, or a member, is read with one
    less than the array or the object that it is in. -/
structure Suffices (n : ℕ) : Prop where
  value : ∀ s, 2 * s.length ≤ n → readValue (n + 1) s = readValue n s
  items : ∀ s, 2 * s.length + 1 ≤ n → readItems (n + 1) s = readItems n s
  members : ∀ s, 2 * s.length + 1 ≤ n → readMembers (n + 1) s = readMembers n s

/-- One more is enough for texts that are longer by so much: to read a value, -/
theorem Suffices.readValue (hn : Suffices n) (hs : 2 * s.length ≤ n + 1) :
    readValue (n + 2) s = readValue (n + 1) s := by
  unfold Json.readValue
  split
  · rfl
  · next s =>
    have hskip := length_skip_le s
    rw [List.length_cons] at hs
    split
    · rfl
    · rw [hn.items _ (by omega)]
  · next s =>
    have hskip := length_skip_le s
    rw [List.length_cons] at hs
    split
    · rfl
    · rw [hn.members _ (by omega)]
  · rfl

/-- items, -/
theorem Suffices.readItems (hn : Suffices n) (hs : 2 * s.length ≤ n) :
    readItems (n + 2) s = readItems (n + 1) s := by
  unfold Json.readItems
  rw [hn.value s hs]
  cases hv : Json.readValue n s with
  | none => rfl
  | some r =>
    obtain ⟨v, s'⟩ := r
    have hlt := (length_skip_le s').trans_lt ((shortens n).value _ _ _ hv)
    simp only [Option.bind_eq_bind, Option.bind_some]
    split
    · rfl
    · next s'' heq =>
      have hskip := length_skip_le s''
      rw [heq, List.length_cons] at hlt
      rw [hn.items _ (by omega)]
    · rfl

/-- and members. -/
theorem Suffices.readMembers (hn : Suffices n) (hs : 2 * s.length ≤ n) :
    readMembers (n + 2) s = readMembers (n + 1) s := by
  unfold Json.readMembers
  split
  · next s =>
    cases hk : readChars s with
    | none => rfl
    | some r =>
      obtain ⟨k, s₁⟩ := r
      have hlt₁ := (length_skip_le s₁).trans_lt (length_readChars hk)
      rw [List.length_cons] at hs
      simp only [Option.bind_eq_bind, Option.bind_some]
      split
      · next s₂ heq₂ =>
        have hskip₂ := length_skip_le s₂
        rw [heq₂, List.length_cons] at hlt₁
        rw [hn.value _ (by omega)]
        cases hv : Json.readValue n (skip s₂) with
        | none => rfl
        | some r =>
          obtain ⟨v, s₃⟩ := r
          have hlt₃ := (length_skip_le s₃).trans_lt ((shortens n).value _ _ _ hv)
          simp only [Option.bind_some]
          split
          · rfl
          · next s₄ heq₄ =>
            have hskip₄ := length_skip_le s₄
            rw [heq₄, List.length_cons] at hlt₃
            rw [hn.members _ (by omega)]
          · rfl
      · rfl
  · rfl

/-- More fuel than enough does not change what is read. -/
theorem suffices_all (n : ℕ) : Suffices n := by
  induction n with
  | zero =>
    refine ⟨fun s hs => ?_, fun s hs => absurd hs (by omega), fun s hs => absurd hs (by omega)⟩
    rw [List.length_eq_zero_iff.1 (show s.length = 0 by omega)]
    rfl
  | succ n ih =>
    exact ⟨fun _ hs => ih.readValue hs, fun _ hs => ih.readItems (by omega),
      fun _ hs => ih.readMembers (by omega)⟩

/-- Twice the length of a text is fuel enough to read it. -/
theorem readValue_of_le (h : 2 * s.length ≤ n) : readValue n s = readValue (2 * s.length) s := by
  induction n, h using Nat.le_induction with
  | base => rfl
  | succ n hn ih => rw [(suffices_all n).value s hn, ih]

end Values

end Json
