import OpenDataGov.Lib.JsonReader

/-!
# Python values as JSON texts

The texts that `json.dumps` writes for Python values with `default=str`, so that what JSON has
no kind for is written as its `str`. Keys that are not strings are written as strings; writing
fails for those that cannot be, and where `str` does.

* `loads_pyDumps`: what is read from the text of a value is the JSON value that it is made
  into (`PyValue.json`).
-/

namespace Json

/-- The scalars of Python. -/
abbrev PyScalar := { x : Scalar // x.WellFormed }

/-- The keys of a Python dictionary. -/
inductive PyKey
  | scalar (x : PyScalar)
  /-- A key that is none of `str`, `int`, `float`, `bool` and `None`. -/
  | other

/-- Python values. -/
inductive PyValue
  | scalar (x : PyScalar)
  /-- A list or a tuple. -/
  | list (vs : List PyValue)
  | dict (kvs : List (PyKey × PyValue))
  /-- Any other object, with its `str`, if that does not fail. -/
  | other (str : Option String)

/-- A key as a string. -/
def PyKey.text : PyKey → Option String
  | .scalar ⟨.str s, _⟩ => some s
  | .scalar x => some (String.ofList x.1.write)
  | .other => none

mutual

/-- The JSON value that is written for a value. -/
def PyValue.encode : PyValue → Option Value
  | .scalar x => some (.scalar x.1)
  | .list vs => (encodeItems vs).map .arr
  | .dict kvs => (encodeMembers kvs).map .obj
  | .other str => str.map fun s => .scalar (.str s)

/-- The items of a list. -/
def encodeItems : List PyValue → Option (List Value)
  | [] => some []
  | v :: vs => do return (← v.encode) :: (← encodeItems vs)

/-- The items of a dictionary. -/
def encodeMembers : List (PyKey × PyValue) → Option (List (String × Value))
  | [] => some []
  | (k, v) :: kvs => do return (← k.text, ← v.encode) :: (← encodeMembers kvs)

end

/-- `json.dumps` with `default=str`. -/
def pyDumps (v : PyValue) : Option String :=
  v.encode.map fun w => String.ofList (w.write [' '])

/-- The JSON value that a value is made into. -/
def PyValue.json (v : PyValue) : Option Value := v.encode.map Value.collapse

mutual

/-- What is made of a value is well formed: of a value, -/
theorem PyValue.wellFormed_encode (v : PyValue) : ∀ w ∈ v.encode, w.WellFormed := by
  intro w hw
  match v with
  | .scalar x =>
    cases hw
    exact x.2
  | .list vs =>
    obtain ⟨ws, hws, rfl⟩ := Option.map_eq_some_iff.1 hw
    exact wellFormed_encodeItems vs ws hws
  | .dict kvs =>
    obtain ⟨ws, hws, rfl⟩ := Option.map_eq_some_iff.1 hw
    exact wellFormed_encodeMembers kvs ws hws
  | .other str =>
    obtain ⟨s, -, rfl⟩ := Option.map_eq_some_iff.1 hw
    trivial

/-- of the items of a list, -/
theorem wellFormed_encodeItems (vs : List PyValue) : ∀ ws ∈ encodeItems vs, ItemsWellFormed ws := by
  intro ws hws
  match vs with
  | [] =>
    cases hws
    trivial
  | v :: vs =>
    obtain ⟨w, hw, hws⟩ := Option.bind_eq_some_iff.1 hws
    obtain ⟨ws, htail, ⟨⟩⟩ := Option.bind_eq_some_iff.1 hws
    exact ⟨v.wellFormed_encode w hw, wellFormed_encodeItems vs _ htail⟩

/-- and of the members of a dictionary. -/
theorem wellFormed_encodeMembers (kvs : List (PyKey × PyValue)) :
    ∀ ws ∈ encodeMembers kvs, MembersWellFormed ws := by
  intro ws hws
  match kvs with
  | [] =>
    cases hws
    trivial
  | (k, v) :: kvs =>
    obtain ⟨t, -, hws⟩ := Option.bind_eq_some_iff.1 hws
    obtain ⟨w, hw, hws⟩ := Option.bind_eq_some_iff.1 hws
    obtain ⟨ws, htail, ⟨⟩⟩ := Option.bind_eq_some_iff.1 hws
    exact ⟨v.wellFormed_encode w hw, wellFormed_encodeMembers kvs _ htail⟩

end

/-- What is read of the text of a value is what the value is made into. -/
theorem loads_pyDumps [FloatReader] {v : PyValue} {t : String} (h : pyDumps v = some t) :
    loads t = v.json := by
  obtain ⟨w, hw, rfl⟩ := Option.map_eq_some_iff.1 h
  rw [PyValue.json, hw]
  exact loads_write (List.forall_mem_singleton.2 (.inl rfl)) (v.wellFormed_encode w hw)

end Json
