import OpenDataGov.Lib.Regex

/-!
# Detection of personal data

The columns that are taken for personal data by their names: by the core library
(`detectPiiColumns`), and by the data expert (`classifyColumns`).

Both search a name for regular expressions, without regard to case. These are written out here
as they are in the source, with the meaning of `Lib.Regex`, and each comes to a list of terms: words
that the name has at some place, possibly with one character between their parts. So the question
whether the two agree on a name is which terms it has, and of what lists.

* `detected_iff`, `classified_iff`: a column is found exactly if its name has one of the
  terms of the patterns;
* `agrees_iff`: both find the same columns exactly if each name has a term that both know,
  or else terms that only the one knows just when it has terms that only the other knows.
-/

namespace OpenDataGov

open Regexp

namespace Privacy

/-- A word, in small letters. -/
def word (s : String) : Regex := .literal s.toList

/-- Any of the words. -/
def words (s : String) (rest : List String) : Regex := .oneOf (word s) (rest.map word)

/-- Any character, or none. -/
def anySep : Regex := .opt (.one .any)

/-! ### The detector of the core library -/

namespace Detector

/-- The patterns of the types of personal data. -/
def piiPatterns : List (String × Pattern) := [
  ("cpf", ⟨true, words "cpf" ["cnpj", "tax_id", "ssn", "social_security"]⟩),
  ("email", ⟨false, words "email" ["e_mail"]⟩),
  ("phone", ⟨false, words "phone" ["telefone", "celular", "mobile"]⟩),
  ("address", ⟨false, words "address" ["endereco", "street", "cep", "zip_code", "postal"]⟩),
  ("name", ⟨true, words "full_name" ["first_name", "last_name", "nome"]⟩),
  ("birth_date", ⟨false, words "birth" ["nascimento", "dob"]⟩),
  ("financial", ⟨false, words "credit_card" ["card_number", "account_number", "iban"]⟩),
  ("document", ⟨false, words "passport" ["rg_number", "driver_license"]⟩)]

end Detector

/-- A column that personal data are detected in. -/
structure Detection where
  column : String
  piiType : String
  deriving DecidableEq

/-- Detecting personal data by the names of the columns: the first pattern that is found
    gives the type. -/
def detectPiiColumns (columnNames : List String) : List Detection :=
  columnNames.filterMap fun col =>
    (Detector.piiPatterns.find? fun p => p.2.search (ignoreCase col)).map fun p => ⟨col, p.1⟩

/-! ### The classifier of the data expert -/

namespace Classifier

/-- The patterns of personal data. -/
def piiPatterns : List Pattern := [
  ⟨false, .oneOf (word "cpf") [word "ssn", .concat [word "social", anySep, word "security"]]⟩,
  ⟨false, .concat [word "e", .opt (.one (.oneOf ['-', '_', '.'])), word "mail"]⟩,
  ⟨false, words "phone" ["telefone", "celular"]⟩,
  ⟨false, words "address" ["endereco", "cep", "zip"]⟩,
  ⟨false, .oneOf (.concat [word "birth", anySep, word "date"]) [word "nascimento", word "dob"]⟩,
  ⟨false, words "passport" ["rg", "identity"]⟩,
  ⟨false, .oneOf (.concat [word "credit", anySep, word "card"]) [word "cartao"]⟩]

end Classifier

/-- What a column is classified as. -/
structure Classification where
  column : String
  isPii : Bool
  suggestedTag : Option String
  deriving DecidableEq

/-- Classifying columns by their names. -/
def classifyColumns (columns : List String) : List Classification :=
  columns.map fun col =>
    let isPii := Classifier.piiPatterns.any fun p => p.search (ignoreCase col)
    ⟨col, isPii, if isPii then some "pii" else none⟩

/-! ### Terms -/

/-- The name has one of the terms. -/
def HasTerm (terms : List Pattern) (name : String) : Prop :=
  ∃ t ∈ terms, t.search (ignoreCase name) = true

instance (terms : List Pattern) : DecidablePred (HasTerm terms) := fun name =>
  inferInstanceAs (Decidable (∃ t ∈ terms, t.search (ignoreCase name) = true))

/-- The terms of the detector. -/
def Detector.terms : List Pattern := piiPatterns.flatMap fun p => p.2.alternatives

/-- The terms of the classifier. -/
def Classifier.terms : List Pattern := piiPatterns.flatMap Pattern.alternatives

variable {ts ts' : List Pattern} {name : String} {columns : List String}

/-- A name that has one of some terms has one of more, -/
theorem HasTerm.mono (h : ts ⊆ ts') : HasTerm ts name → HasTerm ts' name :=
  fun ⟨t, ht, hname⟩ => ⟨t, h ht, hname⟩

/-- has one of two lists if it has one of either, -/
theorem hasTerm_append : HasTerm (ts ++ ts') name ↔ HasTerm ts name ∨ HasTerm ts' name := by
  simp only [HasTerm, List.mem_append, or_and_right, exists_or]

/-- and the alternatives of a pattern may be taken for patterns of their own. -/
theorem hasTerm_flatMap_alternatives {ps : List Pattern} :
    HasTerm (ps.flatMap Pattern.alternatives) name ↔ HasTerm ps name := by
  simp only [HasTerm, List.mem_flatMap]
  constructor
  · rintro ⟨t, ⟨p, hp, ht⟩, hname⟩
    exact ⟨p, hp, Pattern.search_alternatives.2 ⟨t, ht, hname⟩⟩
  · rintro ⟨p, hp, hname⟩
    obtain ⟨t, ht, hname⟩ := Pattern.search_alternatives.1 hname
    exact ⟨t, ⟨p, hp, ht⟩, hname⟩

/-- A column is detected exactly if its name has a term of the detector. -/
theorem detected_iff : (∃ d ∈ detectPiiColumns columns, d.column = name) ↔
    name ∈ columns ∧ HasTerm Detector.terms name := by
  have hfind : ∀ col, (∃ p, Detector.piiPatterns.find? (fun p =>
      p.2.search (ignoreCase col)) = some p) ↔ HasTerm Detector.terms col := by
    intro col
    have hterms : Detector.terms = (Detector.piiPatterns.map Prod.snd).flatMap
        Pattern.alternatives := by
      rw [List.flatMap_map]
      rfl
    rw [hterms, hasTerm_flatMap_alternatives, ← Option.isSome_iff_exists, List.find?_isSome]
    simp only [HasTerm, List.mem_map, exists_exists_and_eq_and]
  simp only [detectPiiColumns, List.mem_filterMap, Option.map_eq_some_iff]
  constructor
  · rintro ⟨d, ⟨col, hcol, p, hp, rfl⟩, rfl⟩
    exact ⟨hcol, (hfind col).1 ⟨p, hp⟩⟩
  · rintro ⟨hname, hterm⟩
    obtain ⟨p, hp⟩ := (hfind name).2 hterm
    exact ⟨_, ⟨name, hname, p, hp, rfl⟩, rfl⟩

/-- A column is classified as personal exactly if its name has a term of the classifier. -/
theorem classified_iff : (∃ c ∈ classifyColumns columns, c.column = name ∧ c.isPii = true) ↔
    name ∈ columns ∧ HasTerm Classifier.terms name := by
  rw [Classifier.terms, hasTerm_flatMap_alternatives]
  simp only [classifyColumns, List.mem_map, exists_exists_and_eq_and, List.any_eq_true, HasTerm]
  constructor
  · rintro ⟨col, hcol, rfl, hterm⟩
    exact ⟨hcol, hterm⟩
  · rintro ⟨hname, hterm⟩
    exact ⟨name, hname, rfl, hterm⟩

/-! ### Terms of the one and of the other -/

/-- A term of the name. -/
def inName (s : String) : Pattern := ⟨false, word s⟩

/-- A term that the name begins with. -/
def startsName (s : String) : Pattern := ⟨true, word s⟩

/-- Words that both know at the beginning of a name. -/
def commonStarts : List String := ["cpf", "ssn", "social_security"]

/-- Words that both know anywhere in a name. -/
def commonWords : List String :=
  ["email", "e_mail", "phone", "telefone", "celular", "address", "endereco", "cep", "zip_code",
    "nascimento", "dob", "credit_card", "passport", "rg_number"]

/-- The date of a birth, perhaps with a separator. -/
def birthDate : Pattern := ⟨false, .concat [word "birth", anySep, word "date"]⟩

/-- Terms that both know. -/
def commonTerms : List Pattern :=
  commonStarts.map startsName ++ commonWords.map inName ++ [birthDate]

/-- Terms that only the detector knows. -/
def detectorTerms : List Pattern :=
  ["cnpj", "tax_id", "full_name", "first_name", "last_name", "nome"].map startsName ++
  ["mobile", "street", "postal", "birth", "card_number", "account_number", "iban",
    "driver_license"].map inName

/-- Terms that only the classifier knows. -/
def classifierTerms : List Pattern :=
  ["cpf", "ssn", "zip", "rg", "identity", "cartao"].map inName ++ [
  ⟨false, .concat [word "social", anySep, word "security"]⟩,
  ⟨false, .concat [word "e", .opt (.one (.oneOf ['-', '_', '.'])), word "mail"]⟩,
  ⟨false, .concat [word "credit", anySep, word "card"]⟩]

/-- A name with a term that both know has one of the detector. -/
theorem HasTerm.detector_of_common (h : HasTerm commonTerms name) :
    HasTerm Detector.terms name := by
  rw [commonTerms, hasTerm_append] at h
  rcases h with hwords | ⟨t, ht, hname⟩
  · exact hwords.mono (by decide)
  · -- The date of a birth begins with a birth.
    obtain rfl := List.mem_singleton.1 ht
    exact ⟨inName "birth", by decide, Pattern.search_of_seq hname⟩

/-- A name with a word has a term that is found in the word. -/
theorem HasTerm.of_word {anchored : Bool} {w : String} (hts : ∀ t ∈ ts, t.anchored = false)
    (hw : ∃ t ∈ ts, t.search w.toList = true)
    (hname : Pattern.search ⟨anchored, word w⟩ (ignoreCase name) = true) : HasTerm ts name := by
  obtain ⟨⟨anchored', body⟩, ht, hsearch⟩ := hw
  obtain rfl : anchored' = false := hts _ ht
  exact ⟨_, ht, Pattern.search_of_literal hsearch hname⟩

/-- A name with a term that both know has one of the classifier. -/
theorem HasTerm.classifier_of_common (h : HasTerm commonTerms name) :
    HasTerm Classifier.terms name := by
  have hanywhere : ∀ t ∈ Classifier.terms, t.anchored = false := by decide
  have hstarts : ∀ w ∈ commonStarts, ∃ t ∈ Classifier.terms, t.search w.toList = true := by
    decide
  have hwords : ∀ w ∈ commonWords, ∃ t ∈ Classifier.terms, t.search w.toList = true := by
    decide
  simp only [commonTerms, hasTerm_append] at h
  rcases h with (⟨t, ht, hname⟩ | ⟨t, ht, hname⟩) | hbirth
  · obtain ⟨w, hw, rfl⟩ := List.mem_map.1 ht
    exact .of_word hanywhere (hstarts w hw) hname
  · obtain ⟨w, hw, rfl⟩ := List.mem_map.1 ht
    exact .of_word hanywhere (hwords w hw) hname
  · exact hbirth.mono (by decide)

/-- The terms of the detector are those that both know, and its own ones. -/
theorem hasTerm_detector :
    HasTerm Detector.terms name ↔ HasTerm commonTerms name ∨ HasTerm detectorTerms name := by
  constructor
  · intro h
    exact hasTerm_append.1 (h.mono (by decide))
  · rintro (h | h)
    · exact h.detector_of_common
    · exact h.mono (by decide)

/-- The terms of the classifier are those that both know, and its own ones. -/
theorem hasTerm_classifier :
    HasTerm Classifier.terms name ↔ HasTerm commonTerms name ∨ HasTerm classifierTerms name := by
  constructor
  · intro h
    exact hasTerm_append.1 (h.mono (by decide))
  · rintro (h | h)
    · exact h.classifier_of_common
    · exact h.mono (by decide)

/-- The columns that are detected are those that are classified as personal exactly if each
    name has a term that both know, or one that only the detector knows just when it has one
    that only the classifier knows. -/
theorem agrees_iff : (∀ name, (∃ d ∈ detectPiiColumns columns, d.column = name) ↔
    ∃ c ∈ classifyColumns columns, c.column = name ∧ c.isPii = true) ↔
      ∀ name ∈ columns, HasTerm commonTerms name ∨
        (HasTerm detectorTerms name ↔ HasTerm classifierTerms name) := by
  refine forall_congr' fun name => ?_
  rw [detected_iff, classified_iff, hasTerm_detector, hasTerm_classifier]
  tauto

/-- The number of the customer is classified as personal, and not detected. -/
theorem not_agrees : ¬∀ (columns : List String) (name : String),
    (∃ d ∈ detectPiiColumns columns, d.column = name) ↔
      ∃ c ∈ classifyColumns columns, c.column = name ∧ c.isPii = true := fun h => by
  have hcpf := h ["customer_cpf"] "customer_cpf"
  exact absurd (hcpf.2 ⟨_, List.mem_singleton.2 rfl, rfl, by decide⟩) (by decide)

end Privacy

end OpenDataGov
