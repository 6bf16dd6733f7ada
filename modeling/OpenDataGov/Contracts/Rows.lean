import OpenDataGov.Contracts.Breaking

/-!
# The rows of a dataset after a change

What becomes of the rows of a dataset when the schema of its contract changes: they get null
in the columns that are new (`Row.extend`).

This is what a breaking change is about, said without the detection: the rows that there are
must conform to the new schema. One direction holds column by column. For the other one there must
be rows at all, so that the types are taken to have values, and a row is made that is null wherever
the old schema allows it.

* `nonBreaking_iff`: a change that breaks nothing, column by column;
* `exists_conforms`: a schema whose types have values has rows, with null in any column that
  allows it;
* `hasBreaking_iff_rows`: a change breaks nothing exactly if it keeps the columns with
  their types, and all the rows.
-/

namespace OpenDataGov

namespace Contracts

variable {s t : DataContractSchema} {col : ColumnDefinition}

/-- A change breaks nothing exactly if it keeps all columns, and adds only nullable ones. -/
theorem nonBreaking_iff (hs : (s.columns.map ColumnDefinition.name).Nodup)
    (ht : (t.columns.map ColumnDefinition.name).Nodup) : NonBreaking s t ↔
      (∀ oldCol ∈ s.columns, ∃ newCol ∈ t.columns, newCol.name = oldCol.name ∧
        Keeps oldCol newCol) ∧
      ∀ newCol ∈ t.columns, (∀ oldCol ∈ s.columns, oldCol.name ≠ newCol.name) →
        newCol.nullable = true := by
  constructor
  · refine fun h => ⟨fun oldCol hold => h.exists_keeps hs ht hold, fun newCol hnew hnone => ?_⟩
    refine h.added _ _ ((find?_columnsByName ht).2 ⟨hnew, rfl⟩) ?_
    refine Option.eq_none_iff_forall_ne_some.2 fun oldCol hold => ?_
    obtain ⟨hmem, hname⟩ := (find?_columnsByName hs).1 hold
    exact hnone oldCol hmem hname
  · rintro ⟨hkept, hadded⟩
    refine ⟨fun name oldCol hold => ?_, fun name newCol hnew hnone => ?_⟩
    · obtain ⟨hmem, rfl⟩ := (find?_columnsByName hs).1 hold
      obtain ⟨newCol, hnew, hname, hkeeps⟩ := hkept oldCol hmem
      exact ⟨newCol, (find?_columnsByName ht).2 ⟨hnew, hname⟩, hkeeps⟩
    · obtain ⟨hmem, rfl⟩ := (find?_columnsByName ht).1 hnew
      refine hadded newCol hmem fun oldCol hold hname => ?_
      exact Option.some_ne_none oldCol
        (((find?_columnsByName hs).2 ⟨hold, hname⟩).symm.trans hnone)

/-! ### Rows -/

variable {V : Type} {HasType : V → Bounded 1 50 → Prop} {row : Row V}

/-- The row with null in the columns that only the new schema has. -/
def Row.extend (row : Row V) (oldSchema newSchema : DataContractSchema) : Row V := fun name =>
  if (∃ col ∈ newSchema.columns, col.name = name) ∧ ¬∃ col ∈ oldSchema.columns, col.name = name
  then some none else row name

theorem extend_of_mem (hcol : col ∈ s.columns) : row.extend s t col.name = row col.name := by
  rw [Row.extend, if_neg fun h => h.2 ⟨col, hcol, rfl⟩]

theorem extend_of_added (hcol : col ∈ t.columns)
    (hnone : ∀ oldCol ∈ s.columns, oldCol.name ≠ col.name) :
    row.extend s t col.name = some none := by
  rw [Row.extend, if_pos ⟨⟨col, hcol, rfl⟩, fun ⟨oldCol, hold, hname⟩ => hnone oldCol hold hname⟩]

/-- A cell of a row fits a column: it is a value of its type, or null if that is allowed. -/
structure Fits (HasType : V → Bounded 1 50 → Prop) (cell : Option (Option V))
    (col : ColumnDefinition) : Prop where
  present : cell ≠ none
  typed : ∀ v, cell = some (some v) → HasType v col.dataType
  nulls : cell = some none → col.nullable = true

/-- A row conforms to a schema if its value fits each column, -/
theorem conforms_iff_fits :
    Conforms HasType row s ↔ ∀ col ∈ s.columns, Fits HasType (row col.name) col :=
  ⟨fun h col hcol => ⟨h.present col hcol, h.typed col hcol, h.nulls col hcol⟩,
    fun h => ⟨fun col hcol => (h col hcol).present, fun col hcol => (h col hcol).typed,
      fun col hcol => (h col hcol).nulls⟩⟩

/-- which null does if it is allowed, -/
theorem fits_null : Fits HasType (some none) col ↔ col.nullable = true :=
  ⟨fun h => h.nulls rfl, fun h => ⟨Option.some_ne_none _, (fun _ hv => nomatch hv), fun _ => h⟩⟩

/-- and another value if it has the type. -/
theorem fits_value {v : V} : Fits HasType (some (some v)) col ↔ HasType v col.dataType := by
  refine ⟨fun h => h.typed v rfl, fun h => ⟨Option.some_ne_none _, fun v' hv' => ?_, fun hv => ?_⟩⟩
  · obtain rfl := Option.some.inj (Option.some.inj hv')
    exact h
  · exact nomatch hv

/-- A column that is kept fits what it has fitted. -/
theorem Keeps.fits {cell : Option (Option V)} {oldCol newCol : ColumnDefinition}
    (hkeeps : Keeps oldCol newCol) (h : Fits HasType cell oldCol) : Fits HasType cell newCol :=
  ⟨h.present, hkeeps.1 ▸ h.typed, hkeeps.2 ∘ h.nulls⟩

/-- After a change that breaks nothing, a row that conformed to the old schema conforms to
    the new one, with null in the new columns. -/
theorem Conforms.extend (hs : (s.columns.map ColumnDefinition.name).Nodup)
    (ht : (t.columns.map ColumnDefinition.name).Nodup) (h : NonBreaking s t)
    (hrow : Conforms HasType row s) : Conforms HasType (row.extend s t) t := by
  rw [conforms_iff_fits] at *
  intro newCol hnew
  by_cases hnone : ∀ oldCol ∈ s.columns, oldCol.name ≠ newCol.name
  · rw [extend_of_added hnew hnone]
    exact fits_null.2 (((nonBreaking_iff hs ht).1 h).2 newCol hnew hnone)
  · push Not at hnone
    obtain ⟨oldCol, hold, hname⟩ := hnone
    obtain ⟨newCol', hnew', hname', hkeeps⟩ := h.exists_keeps hs ht hold
    obtain rfl := List.inj_on_of_nodup_map ht hnew' hnew (hname'.trans hname)
    rw [← hname, extend_of_mem hold]
    exact hkeeps.fits (hrow oldCol hold)

/-- A schema whose types have values has a row, with null in a given column if that allows
    it. -/
theorem exists_conforms (hs : (s.columns.map ColumnDefinition.name).Nodup)
    (hvalues : ∀ col ∈ s.columns, ∃ v, HasType v col.dataType) (name : Bounded 1 200) :
    ∃ row, Conforms HasType row s ∧
      ∀ col ∈ s.columns, col.name = name → col.nullable = true → row name = some none := by
  have hcell : ∀ n : Bounded 1 200, ∃ cell, ∀ col ∈ s.columns, col.name = n →
      Fits HasType cell col ∧ (n = name → col.nullable = true → cell = some none) := by
    intro n
    by_cases hn : ∃ col ∈ s.columns, col.name = n
    · obtain ⟨col, hcol, rfl⟩ := hn
      have huniq : ∀ col' ∈ s.columns, col'.name = col.name → col' = col := fun col' hcol' =>
        List.inj_on_of_nodup_map hs hcol' hcol
      by_cases hnullable : col.nullable = true
      · refine ⟨some none, fun col' hcol' hname => ?_⟩
        obtain rfl := huniq col' hcol' hname
        exact ⟨fits_null.2 hnullable, fun _ _ => rfl⟩
      · obtain ⟨v, hv⟩ := hvalues col hcol
        refine ⟨some (some v), fun col' hcol' hname => ?_⟩
        obtain rfl := huniq col' hcol' hname
        exact ⟨fits_value.2 hv, fun _ h => absurd h hnullable⟩
    · exact ⟨none, fun col hcol hname => absurd ⟨col, hcol, hname⟩ hn⟩
  -- The row is made of these cells: names are unique, so a cell has one column to fit.
  choose row hrow using hcell
  refine ⟨row, conforms_iff_fits.2 fun col hcol => (hrow _ col hcol rfl).1, ?_⟩
  rintro col hcol rfl
  exact (hrow _ col hcol rfl).2 rfl

/-- Of schemas whose columns have different names, and whose types have values, a change
    breaks nothing exactly if it keeps the columns with their types, and all rows. -/
theorem hasBreaking_iff_rows (hs : (s.columns.map ColumnDefinition.name).Nodup)
    (ht : (t.columns.map ColumnDefinition.name).Nodup)
    (hvalues : ∀ dataType, ∃ v, HasType v dataType) :
    (detectBreakingChanges s t).hasBreaking = false ↔
      (∀ oldCol ∈ s.columns, ∃ newCol ∈ t.columns, newCol.name = oldCol.name ∧
        newCol.dataType = oldCol.dataType) ∧
      ∀ row, Conforms HasType row s → Conforms HasType (row.extend s t) t := by
  rw [hasBreaking_eq_false_iff]
  constructor
  · refine fun h => ⟨fun oldCol hold => ?_, fun row hrow => hrow.extend hs ht h⟩
    obtain ⟨newCol, hnew, hname, hkeeps⟩ := h.exists_keeps hs ht hold
    exact ⟨newCol, hnew, hname, hkeeps.1⟩
  · rintro ⟨htypes, hrows⟩
    have hrow := exists_conforms hs fun col _ => hvalues col.dataType
    refine (nonBreaking_iff hs ht).2 ⟨fun oldCol hold => ?_, fun newCol hnew hnone => ?_⟩
    · -- A row with null in the column still conforms.
      obtain ⟨newCol, hnew, hname, htype⟩ := htypes oldCol hold
      obtain ⟨row, hconforms, hnull⟩ := hrow oldCol.name
      refine ⟨newCol, hnew, hname, htype, fun hnullable => ?_⟩
      refine (hrows row hconforms).nulls newCol hnew ?_
      rw [hname, extend_of_mem hold, hnull oldCol hold rfl hnullable]
    · -- So does any row, with null in the new column.
      obtain ⟨row, hconforms, -⟩ := hrow newCol.name
      exact (hrows row hconforms).nulls newCol hnew (extend_of_added hnew hnone)

namespace Contacts

/-- Any string is a value, of any type. -/
def Untyped (_ : String) (_ : Bounded 1 50) : Prop := True

/-- Notes are added to the contacts: this breaks nothing. -/
theorem hasBreaking_rows_notes :
    (detectBreakingChanges (schema [email false]) (schema [email false, notes])).hasBreaking =
      false ↔
    (∀ oldCol ∈ (schema [email false]).columns, ∃ newCol ∈ (schema [email false, notes]).columns,
      newCol.name = oldCol.name ∧ newCol.dataType = oldCol.dataType) ∧
    ∀ row, Conforms Untyped row (schema [email false]) →
      Conforms Untyped (row.extend (schema [email false]) (schema [email false, notes]))
        (schema [email false, notes]) :=
  hasBreaking_iff_rows (by decide) (by decide) fun _ => ⟨"", trivial⟩

end Contacts

end Contracts

end OpenDataGov
