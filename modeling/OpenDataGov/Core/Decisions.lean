import OpenDataGov.Core.Fields
import OpenDataGov.Core.Models
import OpenDataGov.Lib.Dict

/-!
# Validating decisions

How a `GovernanceDecision` is made from a dictionary or from a row of the database
(`modelValidate`). Before its fields are validated, the three values of a promotion, which a
row and old dictionaries have next to the others, are put together (`assemblePromotion`).

A field is given a value of some type (`Given`): one of the type of the field is taken as it
is, a text may stand for a member of an enumeration, and what else pydantic converts is a
parameter (`Conversions`). A field that is not valid is reported by its path.

The validator of the promotion changes the dictionary that it is given, and there are several
forms of dictionaries to be read. What is common to them is said by `Presents`, that the
dictionary has the values of the fields of a decision: it is kept by whatever the validator adds
and takes away, and is all that the fields are read from.

* `Presents.fields_eq_ok`: from a dictionary that has the values of its fields, a decision is
  made again;
* `modelValidate_nested`, `modelValidate_flat`: so it is from both forms of dictionaries, the
  one with the promotion as a field and the one with its values next to the others.
-/

namespace OpenDataGov

open Calendar Keyed

/-- A row of the table `governance_decisions`. The columns for texts have a limit. -/
structure GovernanceDecisionRow where
  id : UUID
  decisionType : Bounded 0 50
  title : Bounded 0 500
  description : String
  status : Bounded 0 30
  domainId : Bounded 0 100
  createdBy : Bounded 0 200
  createdAt : DateTime
  updatedAt : DateTime
  metadataJson : Option (Json.Dict Json.Scalar)
  sourceLayer : Option (Bounded 0 20)
  targetLayer : Option (Bounded 0 20)
  dataClassification : Option (Bounded 0 20)

namespace Decisions

/-! ## What is given -/

/-- A value that is neither a dictionary nor a model. A member of a string enumeration is its
    string. -/
inductive Atom
  | scalar (v : Json.Scalar)
  | uuid (u : UUID)
  | datetime (t : DateTime)
  /-- A value that no field takes. -/
  | other

/-- What is given for a field. -/
inductive Given
  | atom (v : Atom)
  | dict (d : Dict String Atom)
  | promotion (p : PromotionMetadata)

/-- What pydantic makes of texts and numbers that are given for values of other types. -/
class Conversions where
  uuid : String → Option UUID
  datetime : Json.Scalar → Option DateTime

/-- No conversions: all fields are given values of their types. -/
@[reducible] def Conversions.strict : Conversions := ⟨fun _ => none, fun _ => none⟩

/-- What the default factories of a decision make. -/
structure Defaults where
  id : UUID
  createdAt : DateTime
  updatedAt : DateTime

namespace Given

/-- `None`. -/
def null : Given := .atom (.scalar .null)

/-- A text that is given. -/
def text (s : String) : Given := .atom (.scalar (.str s))

/-- A text that may be `None`. -/
def textOrNull (s : Option String) : Given := s.elim null text

/-- A dictionary of scalars. -/
def scalars (d : Json.Dict Json.Scalar) : Given := .dict (Dict.mapValues .scalar d)

/-- `None` is given. -/
def isNull : Given → Bool
  | .atom (.scalar .null) => true
  | _ => false

/-- A value as an item of a dictionary. No field takes a dictionary of dictionaries. -/
def item : Given → Atom
  | .atom v => v
  | .dict _ | .promotion _ => .other

end Given

/-! ## Fields -/

section Fields

variable {α : Type}

/-- A string stands for itself, -/
def str : Atom → Option String
  | .scalar (.str s) => some s
  | _ => none

/-- A member of an enumeration. -/
def member [StrEnum α] (v : Atom) : Option α := (str v).bind StrEnum.ofValue

/-- A member of an enumeration, or `None`. -/
def memberOrNull [StrEnum α] : Atom → Option (Option α)
  | .scalar .null => some none
  | v => (member v).map some

/-- a string may stand for a UUID, -/
def uuid [Conversions] : Atom → Option UUID
  | .uuid u => some u
  | .scalar (.str s) => Conversions.uuid s
  | _ => none

/-- and a string or a number for a time. -/
def datetime [Conversions] : Atom → Option DateTime
  | .datetime t => some t
  | .scalar v => Conversions.datetime v
  | _ => none

/-- The value that is made of what is given for a field. -/
def field (read : Atom → Option α) (path : String) : Given → Validated α
  | .atom v => match read v with
    | none => .error [path]
    | some a => .ok a
  | .dict _ | .promotion _ => .error [path]

/-- A text of `min` to `max` characters. -/
def bounded (min max : ℕ) (path : String) (v : Given) : Validated (Bounded min max) :=
  field str path v >>= Validated.bounded min max path

/-- A value of a dictionary of scalars. What is not a scalar is none of the four types. -/
def scalar (path : String) : Atom → Validated Json.Scalar
  | .scalar v => .ok v
  | _ => .error (["str", "int", "float", "bool"].map fun t => path ++ "." ++ t)

/-- The values of a dictionary, each of them a scalar. -/
def scalars (path : String) : List (String × Atom) → Validated (List (String × Json.Scalar))
  | [] => .ok []
  | kv :: kvs => ((scalar (path ++ "." ++ kv.1) kv.2).and (scalars path kvs)).map fun vs =>
      (kv.1, vs.1) :: vs.2

/-- A dictionary of scalars. Of two values with one key it has the last one. -/
def scalarDict (path : String) : Given → Validated (Json.Dict Json.Scalar)
  | .dict d => (scalars path d.rows).map Dict.ofList
  | _ => .error [path]

/-- A field that must be there. Its path is its key, after what stands before it. -/
def given (d : Dict String Given) (before key : String) (read : String → Given → Validated α) :
    Validated α :=
  match d.find? key with
  | none => .error [before ++ key]
  | some v => read (before ++ key) v

/-- A field with a default. -/
def givenOr (d : Dict String Given) (before key : String) (default : α)
    (read : String → Given → Validated α) : Validated α :=
  match d.find? key with
  | none => .ok default
  | some v => read (before ++ key) v

end Fields

end Decisions

open Decisions

/-- The fields of a `PromotionMetadata`. -/
def PromotionMetadata.fields (before : String) (d : Dict String Given) :
    Validated PromotionMetadata :=
  ((given d before "source_layer" (field member)).and <|
    (given d before "target_layer" (field member)).and <|
    givenOr d before "data_classification" none (field memberOrNull)).map
  fun (sourceLayer, targetLayer, dataClassification) =>
    ⟨sourceLayer, targetLayer, dataClassification⟩

/-- A promotion, which may be `None`. -/
def PromotionMetadata.ofGiven (path : String) : Given → Validated (Option PromotionMetadata)
  | .atom (.scalar .null) => .ok none
  | .atom _ => .error [path]
  | .promotion p => .ok (some p)
  | .dict d => (fields (path ++ ".") (Dict.mapValues .atom d)).map some

/-- The fields of a `GovernanceDecision`. -/
def GovernanceDecision.fields [Conversions] (defaults : Defaults) (d : Dict String Given) :
    Validated GovernanceDecision :=
  ((givenOr d "" "id" defaults.id (field uuid)).and <|
    (given d "" "decision_type" (field member)).and <|
    (given d "" "title" (bounded 1 500)).and <|
    (givenOr d "" "description" "" (field str)).and <|
    (givenOr d "" "status" .pending (field member)).and <|
    (given d "" "domain_id" (bounded 1 100)).and <|
    (given d "" "created_by" (bounded 1 200)).and <|
    (givenOr d "" "created_at" defaults.createdAt (field datetime)).and <|
    (givenOr d "" "updated_at" defaults.updatedAt (field datetime)).and <|
    (givenOr d "" "metadata" .empty scalarDict).and <|
    givenOr d "" "promotion" none PromotionMetadata.ofGiven).map
  fun (id, decisionType, title, description, status, domainId, createdBy, createdAt, updatedAt,
      metadata, promotion) =>
    ⟨id, decisionType, title, description, status, domainId, createdBy, createdAt, updatedAt,
      metadata, promotion⟩

/-! ## Putting promotions together -/

namespace Decisions

/-- What a decision is made from. -/
inductive Data
  | dict (d : Dict String Given)
  | row (r : GovernanceDecisionRow)

/-- The three values of a promotion as a dictionary. -/
def promotionDict (sl tl dc : Given) : Given := .dict
  ⟨[("source_layer", sl.item), ("target_layer", tl.item), ("data_classification", dc.item)],
    by simp⟩

/-- The attributes of a row as a dictionary, but for those of the promotion. -/
def attributes (r : GovernanceDecisionRow) : Dict String Given :=
  ⟨[("id", .atom (.uuid r.id)), ("decision_type", .text r.decisionType.text),
    ("title", .text r.title.text), ("description", .text r.description),
    ("status", .text r.status.text), ("domain_id", .text r.domainId.text),
    ("created_by", .text r.createdBy.text), ("created_at", .atom (.datetime r.createdAt)),
    ("updated_at", .atom (.datetime r.updatedAt)),
    ("metadata", r.metadataJson.elim .null .scalars)], by simp⟩

/-- A dictionary without the values of a promotion that stand next to the others. -/
def popPromotion (d : Dict String Given) : Dict String Given :=
  ((d.erase "source_layer").erase "target_layer").erase "data_classification"

/-- Folding the values of a promotion that stand next to the others into one. A promotion
    that a dictionary has is kept. -/
def assemblePromotion : Data → Dict String Given
  | .dict d =>
    let sl := (d.find? "source_layer").getD .null
    let tl := (d.find? "target_layer").getD .null
    let dc := (d.find? "data_classification").getD .null
    let d := popPromotion d
    if !sl.isNull && !tl.isNull && (d.find? "promotion").isNone then
      d.set "promotion" (promotionDict sl tl dc)
    else d
  | .row r =>
    match r.sourceLayer, r.targetLayer with
    | some sl, some tl => (attributes r).set "promotion" (promotionDict (.text sl.text)
        (.text tl.text) (.textOrNull (r.dataClassification.map Bounded.text)))
    | _, _ => attributes r

end Decisions

/-- Making a decision, or the error that tells which fields are not valid. -/
def GovernanceDecision.modelValidate [Conversions] (defaults : Defaults) (data : Data) :
    Except Error GovernanceDecision :=
  (fields defaults (assemblePromotion data)).model "GovernanceDecision"

/-! ## What is made -/

namespace Decisions

section Reading

variable {α : Type} {x : Dict String Given} {before key path : String}
  {read : String → Given → Validated α} {v : Given} {a default : α} {min max : ℕ}

theorem given_of_find? (h : x.find? key = some v) :
    given x before key read = read (before ++ key) v := by rw [given, h]

theorem givenOr_of_find? (h : x.find? key = some v) :
    givenOr x before key default read = read (before ++ key) v := by rw [givenOr, h]

theorem givenOr_of_find?_eq_none (h : x.find? key = none) :
    givenOr x before key default read = .ok default := by rw [givenOr, h]

theorem field_of_read {read : Atom → Option α} {w : Atom} (h : read w = some a) :
    field read path (.atom w) = .ok a := by rw [field, h]

/-- A member of an enumeration is read back from its string. -/
theorem field_member [StrEnum α] : field member path (.text (StrEnum.value a)) = .ok a :=
  field_of_read StrEnum.ofValue_value

/-- The text of a member, or nothing, is read as the member, or as nothing. -/
theorem field_memberOrNull [StrEnum α] (x : Option α) :
    field memberOrNull path (.textOrNull (x.map StrEnum.value)) = .ok x := by
  cases x with
  | none => rfl
  | some a => exact field_of_read (congrArg (Option.map some) StrEnum.ofValue_value)

/-- A text within its bounds is read as it is, -/
theorem bounded_text (t : Bounded min max) : bounded min max path (.text t.text) = .ok t :=
  Validated.bounded_eq_ok.2 rfl

/-- and so are scalars. -/
theorem scalars_map (kvs : List (String × Json.Scalar)) :
    scalars path (kvs.map fun kv => (kv.1, .scalar kv.2)) = .ok kvs := by
  induction kvs with
  | nil => rfl
  | cons kv kvs ih =>
    rw [List.map_cons, scalars, ih]
    rfl

/-- Dictionaries of scalars are taken as they are. -/
theorem scalarDict_scalars (m : Json.Dict Json.Scalar) : scalarDict path (.scalars m) = .ok m := by
  have hscalars : scalars path (Dict.mapValues Atom.scalar m).rows = .ok m.rows :=
    scalars_map m.rows
  rw [Given.scalars, scalarDict, hscalars]
  exact congrArg Except.ok Dict.ofList_rows

end Reading

/-- The promotion whose values are given as strings. -/
theorem ofGiven_promotionDict (p : PromotionMetadata) (path : String) :
    PromotionMetadata.ofGiven path (promotionDict (.text p.sourceLayer.value)
      (.text p.targetLayer.value) (.textOrNull (p.dataClassification.map StrEnum.value))) =
    .ok (some p) := by
  rw [promotionDict, PromotionMetadata.ofGiven, Validated.map_eq_ok]
  refine ⟨p, ?_, rfl⟩
  rw [PromotionMetadata.fields, Validated.map_eq_ok]
  refine ⟨(p.sourceLayer, p.targetLayer, p.dataClassification), ?_, rfl⟩
  have hatom : Given.atom (Given.item (.textOrNull (p.dataClassification.map StrEnum.value))) =
      .textOrNull (p.dataClassification.map StrEnum.value) := by
    cases p.dataClassification <;> rfl
  simp only [Validated.and_eq_ok]
  refine ⟨?_, ?_, ?_⟩
  · rw [given_of_find? (Dict.find?_mapValues.trans rfl)]
    exact field_member
  · rw [given_of_find? (Dict.find?_mapValues.trans rfl)]
    exact field_member
  · rw [givenOr_of_find? (Dict.find?_mapValues.trans rfl)]
    exact (congrArg (field memberOrNull _) hatom).trans (field_memberOrNull _)

/-- The dictionary `x` has the values of the fields of `d`, but for the promotion. -/
structure Presents (x : Dict String Given) (d : GovernanceDecision) : Prop where
  id : x.find? "id" = some (.atom (.uuid d.id))
  decisionType : x.find? "decision_type" = some (.text d.decisionType.value)
  title : x.find? "title" = some (.text d.title.text)
  description : x.find? "description" = some (.text d.description)
  status : x.find? "status" = some (.text d.status.value)
  domainId : x.find? "domain_id" = some (.text d.domainId.text)
  createdBy : x.find? "created_by" = some (.text d.createdBy.text)
  createdAt : x.find? "created_at" = some (.atom (.datetime d.createdAt))
  updatedAt : x.find? "updated_at" = some (.atom (.datetime d.updatedAt))
  metadata : x.find? "metadata" = some (.scalars d.metadata)

/-- The keys of these fields. -/
def fieldKeys : List String := ["id", "decision_type", "title", "description", "status",
  "domain_id", "created_by", "created_at", "updated_at", "metadata"]

section Presenting

variable {x y : Dict String Given} {d : GovernanceDecision}

/-- Only the values with the keys of fields matter. -/
theorem Presents.congr (h : Presents x d) (hy : ∀ k ∈ fieldKeys, y.find? k = x.find? k) :
    Presents y d := by
  simp only [fieldKeys, List.forall_mem_cons] at hy
  obtain ⟨h₁, h₂, h₃, h₄, h₅, h₆, h₇, h₈, h₉, h₁₀, -⟩ := hy
  exact ⟨h₁.trans h.id, h₂.trans h.decisionType, h₃.trans h.title, h₄.trans h.description,
    h₅.trans h.status, h₆.trans h.domainId, h₇.trans h.createdBy, h₈.trans h.createdAt,
    h₉.trans h.updatedAt, h₁₀.trans h.metadata⟩

/-- Other keys may be set and removed. -/
theorem Presents.set {key : String} (h : Presents x d) (hkey : key ∉ fieldKeys) (v : Given) :
    Presents (x.set key v) d :=
  h.congr fun k hk => by rw [Dict.find?_set, if_neg (ne_of_mem_of_not_mem hk hkey)]

/-- So other keys can be taken away. -/
theorem Presents.erase {key : String} (h : Presents x d) (hkey : key ∉ fieldKeys) :
    Presents (x.erase key) d :=
  h.congr fun k hk => by rw [Dict.find?_erase, if_neg (ne_of_mem_of_not_mem hk hkey)]

/-- From the values of its fields, the decision is made again. -/
theorem Presents.fields_eq_ok [Conversions] (h : Presents x d) (defaults : Defaults)
    (hpromotion : givenOr x "" "promotion" none PromotionMetadata.ofGiven = .ok d.promotion) :
    GovernanceDecision.fields defaults x = .ok d := by
  rw [GovernanceDecision.fields, Validated.map_eq_ok]
  refine ⟨(d.id, d.decisionType, d.title, d.description, d.status, d.domainId, d.createdBy,
    d.createdAt, d.updatedAt, d.metadata, d.promotion), ?_, rfl⟩
  simp only [Validated.and_eq_ok]
  rw [givenOr_of_find? h.id, given_of_find? h.decisionType, given_of_find? h.title,
    givenOr_of_find? h.description, givenOr_of_find? h.status, given_of_find? h.domainId,
    given_of_find? h.createdBy, givenOr_of_find? h.createdAt, givenOr_of_find? h.updatedAt,
    givenOr_of_find? h.metadata]
  exact ⟨rfl, field_member, bounded_text _, rfl, field_member, bounded_text _, bounded_text _,
    rfl, rfl, scalarDict_scalars _, hpromotion⟩

/-- Without a promotion. -/
theorem Presents.fields_of_none [Conversions] (h : Presents x d) (defaults : Defaults)
    (hfind : x.find? "promotion" = none) (hd : d.promotion = none) :
    GovernanceDecision.fields defaults x = .ok d :=
  h.fields_eq_ok defaults (by rw [givenOr_of_find?_eq_none hfind, hd])

/-- With the promotion put together from its values. -/
theorem Presents.fields_of_some [Conversions] {p : PromotionMetadata} (h : Presents x d)
    (defaults : Defaults) (hd : d.promotion = some p) :
    GovernanceDecision.fields defaults (x.set "promotion" (promotionDict (.text p.sourceLayer.value)
      (.text p.targetLayer.value) (.textOrNull (p.dataClassification.map StrEnum.value)))) =
    .ok d := by
  refine (h.set (by decide) _).fields_eq_ok defaults ?_
  rw [givenOr_of_find? (Dict.find?_set.trans (if_pos rfl)), ofGiven_promotionDict, hd]

end Presenting

end Decisions

/-! ### Dictionaries of decisions -/

namespace Decisions

section Popping

variable {x : Dict String Given} {d : GovernanceDecision} {k : String}

theorem find?_popPromotion (h : k ∉ ["source_layer", "target_layer", "data_classification"]) :
    (popPromotion x).find? k = x.find? k := by
  simp only [List.mem_cons, List.not_mem_nil, or_false, not_or] at h
  rw [popPromotion, Dict.find?_erase, if_neg h.2.2, Dict.find?_erase, if_neg h.2.1,
    Dict.find?_erase, if_neg h.1]

theorem Presents.popPromotion (h : Presents x d) : Presents (popPromotion x) d :=
  ((h.erase (by decide)).erase (by decide)).erase (by decide)

/-- Without a layer that a promotion starts from, nothing is put together. -/
theorem assemblePromotion_of_isNull (h : ((x.find? "source_layer").getD .null).isNull = true) :
    assemblePromotion (.dict x) = Decisions.popPromotion x := by
  simp only [assemblePromotion, h]
  rfl

/-- Values that stand next to the others are put together, if there is no promotion yet. -/
theorem assemblePromotion_of_values {sl tl dc : Given}
    (hsl : x.find? "source_layer" = some sl) (htl : x.find? "target_layer" = some tl)
    (hdc : x.find? "data_classification" = some dc) (hsl' : sl.isNull = false)
    (htl' : tl.isNull = false) (hpromotion : x.find? "promotion" = none) :
    assemblePromotion (.dict x) =
      (Decisions.popPromotion x).set "promotion" (promotionDict sl tl dc) := by
  have hrest : (Decisions.popPromotion x).find? "promotion" = none := by
    rw [find?_popPromotion (by decide), hpromotion]
  simp only [assemblePromotion, hsl, htl, hdc, hrest, Option.getD_some, hsl', htl']
  rfl

end Popping

end Decisions

namespace GovernanceDecision

variable (d : GovernanceDecision)

/-- The fields of a decision as a dictionary, but for the promotion. -/
def toDict : Dict String Given :=
  ⟨[("id", .atom (.uuid d.id)), ("decision_type", .text d.decisionType.value),
    ("title", .text d.title.text), ("description", .text d.description),
    ("status", .text d.status.value), ("domain_id", .text d.domainId.text),
    ("created_by", .text d.createdBy.text), ("created_at", .atom (.datetime d.createdAt)),
    ("updated_at", .atom (.datetime d.updatedAt)), ("metadata", .scalars d.metadata)], by simp⟩

/-- With the promotion as a field. -/
def nested : Dict String Given := d.toDict.set "promotion" (d.promotion.elim .null .promotion)

/-- With the values of the promotion next to the other fields. -/
def flat : Dict String Given :=
  ((d.toDict.set "source_layer" (.textOrNull (d.promotion.map (·.sourceLayer.value)))).set
    "target_layer" (.textOrNull (d.promotion.map (·.targetLayer.value)))).set
    "data_classification"
      (.textOrNull (d.promotion.bind fun p => p.dataClassification.map StrEnum.value))

/-- The dictionary of a decision has the values of its fields. -/
theorem presents_toDict : Presents d.toDict d :=
  ⟨rfl, rfl, rfl, rfl, rfl, rfl, rfl, rfl, rfl, rfl⟩

variable [Conversions] (defaults : Defaults)

/-- A decision is made again from the dictionary that has its promotion as a field. -/
theorem modelValidate_nested : modelValidate defaults (.dict d.nested) = .ok d := by
  have hsl : d.nested.find? "source_layer" = none := Dict.find?_set.trans rfl
  rw [modelValidate, Validated.model_eq_ok, assemblePromotion_of_isNull (by rw [hsl]; rfl)]
  refine (d.presents_toDict.set (by decide) _).popPromotion.fields_eq_ok defaults ?_
  rw [givenOr_of_find? ((find?_popPromotion (by decide)).trans
    (Dict.find?_set.trans (if_pos rfl)))]
  cases d.promotion with
  | none => rfl
  | some p => rfl

/-- And from the one that has the values of its promotion next to the other fields. -/
theorem modelValidate_flat : modelValidate defaults (.dict d.flat) = .ok d := by
  have hpresents : Presents (popPromotion d.flat) d :=
    (((d.presents_toDict.set (by decide) _).set (by decide) _).set (by decide) _).popPromotion
  have hpromotion : d.flat.find? "promotion" = none := by
    simp only [flat, Dict.find?_set]
    rfl
  have hsl : d.flat.find? "source_layer" =
      some (.textOrNull (d.promotion.map (·.sourceLayer.value))) := by
    simp only [flat, Dict.find?_set]
    rfl
  have htl : d.flat.find? "target_layer" =
      some (.textOrNull (d.promotion.map (·.targetLayer.value))) := by
    simp only [flat, Dict.find?_set]
    rfl
  have hdc : d.flat.find? "data_classification" =
      some (.textOrNull (d.promotion.bind fun p => p.dataClassification.map StrEnum.value)) := by
    simp only [flat, Dict.find?_set]
    rfl
  -- Without a promotion, the values next to the others are all null, and nothing is put together.
  rw [modelValidate, Validated.model_eq_ok]
  cases hd : d.promotion with
  | none =>
    rw [hd] at hsl
    rw [assemblePromotion_of_isNull (by rw [hsl]; rfl)]
    exact hpresents.fields_of_none defaults ((find?_popPromotion (by decide)).trans hpromotion) hd
  | some p =>
    rw [hd] at hsl htl hdc
    rw [assemblePromotion_of_values hsl htl hdc rfl rfl hpromotion]
    exact hpresents.fields_of_some defaults hd

end GovernanceDecision

end OpenDataGov
