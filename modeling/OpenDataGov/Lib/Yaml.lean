import OpenDataGov.Lib.Json

/-!
# YAML values

The values that a safe loader of YAML makes: scalars, sequences, sets and mappings, and the
pairs that `!!omap` and `!!pairs` make sequences of. The keys of a mapping, and the elements
of a set, are scalars.

* `Value.truthy` is `bool` of a value;
* `Mapping.get?` reads the value of a key that is a string;
* `Value.spread?` are the keywords of a call that is given the value after `**`, or no
  keywords where the value is false.
-/

namespace Yaml

/-- The values that have no parts. A timestamp is given by its text. -/
inductive Scalar
  | null
  | bool (b : Bool)
  | int (i : ℤ)
  | float (x : Json.PyFloat)
  | str (s : String)
  | bytes (bs : List UInt8)
  | timestamp (text : String)

/-- YAML values. -/
inductive Value
  | scalar (x : Scalar)
  | seq (vs : List Value)
  | pair (v w : Value)
  | set (xs : List Scalar)
  | map (kvs : List (Scalar × Value))

/-- The items of a mapping. -/
abbrev Mapping := List (Scalar × Value)

/-- `bool` of a scalar. -/
def Scalar.truthy : Scalar → Bool
  | .null => false
  | .bool b => b
  | .int i => i ≠ 0
  | .float x => x.text ≠ ['0', '.', '0'] ∧ x.text ≠ ['-', '0', '.', '0']
  | .str s => s ≠ ""
  | .bytes bs => !bs.isEmpty
  | .timestamp _ => true

/-- `bool` of a value. -/
def Value.truthy : Value → Bool
  | .scalar x => x.truthy
  | .seq vs => !vs.isEmpty
  | .pair _ _ => true
  | .set xs => !xs.isEmpty
  | .map kvs => !kvs.isEmpty

/-- The scalar is the string `s`. -/
def Scalar.isStr (s : String) : Scalar → Bool
  | .str t => t = s
  | _ => false

/-- The scalar is a string. -/
def Scalar.isKeyword : Scalar → Bool
  | .str _ => true
  | _ => false

/-- The value of a key. -/
def Mapping.get? (m : Mapping) (key : String) : Option Value :=
  (m.find? fun kv => kv.1.isStr key).map Prod.snd

/-- The value of a key, or a default. -/
def Mapping.getD (m : Mapping) (key : String) (default : Value) : Value :=
  (m.get? key).getD default

/-- The items that a list can be made of. -/
def Value.items? : Value → Option (List Value)
  | .seq vs => some vs
  | .pair v w => some [v, w]
  | .set xs => some (xs.map .scalar)
  | .scalar _ | .map _ => none

/-- The keywords of a call with the value after `**`: a mapping with strings as keys. -/
def Value.keywords? : Value → Option Mapping
  | .map m => if m.all fun kv => kv.1.isKeyword then some m else none
  | _ => none

/-- The keywords of a call with the value after `**` if it is true, and without if not. -/
def Value.spread? (v : Value) : Option Mapping := if v.truthy then v.keywords? else some []

namespace Mapping

/-- The key is there, with a value of which `P` holds. -/
def Required (m : Mapping) (key : String) (P : Value → Prop) : Prop :=
  ∃ v, m.get? key = some v ∧ P v

/-- The key is not there, or `P` holds of its value. -/
def Optional (m : Mapping) (key : String) (P : Value → Prop) : Prop :=
  ∀ v, m.get? key = some v → P v

end Mapping

end Yaml
