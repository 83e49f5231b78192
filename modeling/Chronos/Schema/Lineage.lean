import Chronos.Schema.Table

/-!
What the checks on schemas ensure.

* `deduplication_column`: a column of the deduplication key has an ordinal and is
  not nullable.
* `SchemaExtends`: a later schema of a lineage keeps the columns of an earlier one
  in place, with the same roles.
-/

namespace Chronos.Schema

open List Result

/-! ### Roles -/

variable {id : ColumnId}

lemma validateRoleIds_found {columns : List ColumnDefinition} {label : String} :
    ∀ {ids seen : List ColumnId}, validateRoleIds columns true label seen ids = .ok () →
      id ∈ ids → ∃ column, findColumnById columns id = some column ∧ column.nullable = false := by
  intro ids
  induction ids with
  | nil => exact fun _ h => absurd h (not_mem_nil)
  | cons first ids ih =>
    intro _ hok hmem
    rw [validateRoleIds] at hok
    split at hok
    · cases hok
    rename_i column hfound
    split at hok
    · cases hok
    rename_i hnullable
    split at hok
    · cases hok
    rcases mem_cons.1 hmem with rfl | hmem
    · exact ⟨column, hfound, by simpa using hnullable⟩
    · exact ih hok hmem

/-- The checks of the columns and of the deduplication key are checks of a schema. -/
lemma TableSchema.checks (schema : TableSchema) :
    validateDistinctColumns [] schema.columns = .ok () ∧
      validateRoleList schema.columns schema.roles.deduplicationKey false true "deduplication key"
        = .ok () := by
  have hvalid := schema.valid
  rw [validateTableSchema] at hvalid
  iterate 5
    split at hvalid
    · cases hvalid
  obtain ⟨⟨⟩, hdistinct, hvalid⟩ := bind_eq_ok.1 hvalid
  iterate 3
    split at hvalid
    · cases hvalid
  obtain ⟨_, _, hvalid⟩ := bind_eq_ok.1 hvalid
  obtain ⟨_, _, hvalid⟩ := bind_eq_ok.1 hvalid
  obtain ⟨_, _, hvalid⟩ := bind_eq_ok.1 hvalid
  obtain ⟨⟨⟩, hrole, -⟩ := bind_eq_ok.1 hvalid
  exact ⟨hdistinct, hrole⟩

lemma columnOrdinal_eq_some {schema : TableSchema} {ordinal : ℕ} :
    schema.columnOrdinal id = some ordinal ↔
      (∃ definition, schema.columns[ordinal]? = some definition ∧ definition.id = id) ∧
        ∀ i < ordinal, ∀ definition, schema.columns[i]? = some definition →
          definition.id ≠ id := by
  rw [TableSchema.columnOrdinal, findIdx?_eq_some_iff_getElem]
  constructor
  · rintro ⟨hlt, hid, hbefore⟩
    refine ⟨⟨schema.columns[ordinal], List.getElem?_eq_getElem hlt, by simpa using hid⟩, ?_⟩
    intro i hi definition hdefinition heq
    obtain ⟨_, rfl⟩ := List.getElem?_eq_some_iff.1 hdefinition
    exact hbefore i hi (by simpa using heq)
  · rintro ⟨⟨_, hdefinition, hid⟩, hbefore⟩
    obtain ⟨hlt, rfl⟩ := List.getElem?_eq_some_iff.1 hdefinition
    refine ⟨hlt, by simpa using hid, fun i hi => ?_⟩
    have hne := hbefore i hi _ (List.getElem?_eq_getElem (hi.trans hlt))
    simpa using hne

/-- A column of the deduplication key has an ordinal and is not nullable. -/
lemma TableSchema.deduplication_column (schema : TableSchema)
    (hid : id ∈ schema.roles.deduplicationKey) :
    ∃ ordinal definition, schema.columnOrdinal id = some ordinal ∧
      schema.columns[ordinal]? = some definition ∧ definition.id = id ∧
      definition.nullable = false := by
  have hvalid := schema.checks.2
  rw [validateRoleList] at hvalid
  simp only [Bool.false_and, Bool.false_eq_true, if_false] at hvalid
  obtain ⟨column, hfound, hnullable⟩ := validateRoleIds_found hvalid hid
  obtain ⟨hcolumn, before, _, heq, hbefore⟩ := find?_eq_some_iff_append.1 hfound
  have hget : schema.columns[before.length]? = some column := by rw [heq]; simp
  refine ⟨before.length, column, columnOrdinal_eq_some.2 ⟨⟨column, hget, by simpa using hcolumn⟩,
    fun i hi definition hdefinition => ?_⟩, hget, by simpa using hcolumn, hnullable⟩
  rw [heq, getElem?_append_left hi] at hdefinition
  have hne := hbefore definition (mem_of_getElem? hdefinition)
  simpa using hne

/-! ### Evolution -/

/-- A definition keeps the identity, the type and the nullability of another. -/
def ColumnDefinition.Retains (before after : ColumnDefinition) : Prop :=
  after.id = before.id ∧ after.type = before.type ∧ after.nullable = before.nullable

/-- The columns of the first schema are the first columns of the second, with the same roles. -/
structure SchemaExtends (before after : TableSchema) : Prop where
  tableId : after.tableId = before.tableId
  roles : after.roles = before.roles
  columns : ∀ (i : ℕ) definition, before.columns[i]? = some definition →
    ∃ definition', after.columns[i]? = some definition' ∧ definition.Retains definition'

lemma SchemaExtends.refl (schema : TableSchema) : SchemaExtends schema schema :=
  ⟨rfl, rfl, fun _ definition h => ⟨definition, h, rfl, rfl, rfl⟩⟩

lemma SchemaExtends.trans {first second third : TableSchema} (h : SchemaExtends first second)
    (h' : SchemaExtends second third) : SchemaExtends first third where
  tableId := h'.tableId.trans h.tableId
  roles := h'.roles.trans h.roles
  columns i definition hdefinition := by
    obtain ⟨second, hsecond, hid, htype, hnullable⟩ := h.columns i definition hdefinition
    obtain ⟨third, hthird, hid', htype', hnullable'⟩ := h'.columns i second hsecond
    exact ⟨third, hthird, hid'.trans hid, htype'.trans htype, hnullable'.trans hnullable⟩

lemma validateRetainedColumns_retains : ∀ {before after : List ColumnDefinition},
    before.length ≤ after.length → validateRetainedColumns before after = .ok () →
    ∀ (i : ℕ) definition, before[i]? = some definition →
      ∃ definition', after[i]? = some definition' ∧ definition.Retains definition' := by
  intro before
  induction before with
  | nil => exact fun _ _ i definition h => by simp at h
  | cons first before ih =>
    intro after hlength hok i definition hdefinition
    cases after with
    | nil => simp at hlength
    | cons second after =>
      rw [validateRetainedColumns] at hok
      iterate 3
        split at hok
        · cases hok
      rename_i hid htype hnullable
      cases i with
      | zero =>
        obtain rfl : first = definition := by simpa using hdefinition
        exact ⟨second, rfl, (not_not.1 hid).symm, (not_not.1 htype).symm,
          (not_not.1 hnullable).symm⟩
      | succ i =>
        exact ih (by simpa using hlength) hok i definition (by simpa using hdefinition)

/-- What `validate_v1_successor` lets through. -/
structure Succeeds (predecessor successor : TableSchema) : Prop where
  keeps : SchemaExtends predecessor successor
  parent : successor.parentSchemaId = some predecessor.schemaId
  version : successor.version = predecessor.version + 1
  added : ∀ column ∈ successor.columns.drop predecessor.columns.length, column.nullable = true

lemma validateV1Successor_succeeds {predecessor successor : TableSchema}
    (hok : validateV1Successor predecessor successor = .ok ()) :
    Succeeds predecessor successor := by
  rw [validateV1Successor] at hok
  iterate 5
    split at hok
    · cases hok
  rename_i htable hparent _ hversion hlength
  obtain ⟨_, hcolumns, hok⟩ := bind_eq_ok.1 hok
  iterate 3
    split at hok
    · cases hok
  rename_i _ hadded hroles
  exact ⟨⟨(not_not.1 htable).symm, (not_not.1 hroles).symm,
    validateRetainedColumns_retains (not_lt.1 hlength) hcolumns⟩, not_not.1 hparent,
    not_not.1 hversion, fun column hcolumn => by
      by_contra hnullable
      exact hadded ⟨column, hcolumn, by simpa using hnullable⟩⟩

/-- A column keeps its ordinal in later schemas. -/
lemma SchemaExtends.columnOrdinal {before after : TableSchema} (h : SchemaExtends before after)
    (hordinal : before.columnOrdinal id = some ordinal) :
    after.columnOrdinal id = some ordinal := by
  obtain ⟨⟨definition, hdefinition, hid⟩, hbefore⟩ := columnOrdinal_eq_some.1 hordinal
  obtain ⟨definition', hdefinition', hid', -⟩ := h.columns ordinal definition hdefinition
  refine columnOrdinal_eq_some.2 ⟨⟨definition', hdefinition', hid'.trans hid⟩,
    fun i hi later hlater => ?_⟩
  have hlt : i < before.columns.length := hi.trans (List.getElem?_eq_some_iff.1 hdefinition).1
  obtain ⟨_, hlater', hsame, -⟩ := h.columns i _ (List.getElem?_eq_getElem hlt)
  rw [hlater] at hlater'
  cases hlater'
  rw [hsame]
  exact hbefore i hi _ (List.getElem?_eq_getElem hlt)

/-- The schemas of a lineage, each extending all before it. -/
def LineageOrdered (schemas : List TableSchema) : Prop := schemas.Pairwise SchemaExtends

/-- The newest schema is the last one. -/
lemma SchemaLineage.schemas_eq (lineage : SchemaLineage) :
    ∃ before, lineage.schemas = before ++ [lineage.current] := by
  rcases eq_nil_or_concat lineage.successors with h | ⟨before, _, h⟩
  · exact ⟨[], by simp [SchemaLineage.schemas, SchemaLineage.current, h]⟩
  · exact ⟨lineage.initial :: before, by simp [SchemaLineage.schemas, SchemaLineage.current, h]⟩

section Append

variable {lineage lineage' : SchemaLineage} {successor : TableSchema}
  (hok : lineage.append successor = .ok lineage')

include hok

/-- What an append that succeeds has checked. -/
lemma SchemaLineage.append_ok :
    lineage' = { lineage with successors := lineage.successors ++ [successor] } ∧
      Succeeds lineage.current successor ∧
      (∀ schema ∈ lineage.schemas, schema.schemaId ≠ successor.schemaId) ∧
      (∀ candidate ∈ successor.columns, ∀ schema ∈ lineage.schemas,
        ∀ historical ∈ schema.columns,
          historical.name = candidate.name → historical.id = candidate.id) ∧
      ∀ column ∈ successor.columns.drop lineage.current.columns.length,
        ∀ schema ∈ lineage.schemas, ∀ historical ∈ schema.columns, historical.id ≠ column.id := by
  obtain ⟨_, hsuccessor, hok⟩ := bind_eq_ok.1 hok
  iterate 3
    split at hok
    · cases hok
  cases hok
  rename_i hidentity hname hfresh
  push Not at hidentity hname
  refine ⟨rfl, validateV1Successor_succeeds hsuccessor, hidentity, hname,
    fun column hcolumn schema hschema historical hhistorical heq => hfresh
      ⟨column, hcolumn, schema, hschema, ?_⟩⟩
  exact find?_isSome.2 ⟨historical, hhistorical, by simpa using heq⟩

/-- A lineage stays ordered when a successor is appended. -/
lemma SchemaLineage.append_ordered (hordered : LineageOrdered lineage.schemas) :
    lineage'.schemas = lineage.schemas ++ [successor] ∧ LineageOrdered lineage'.schemas := by
  obtain ⟨rfl, hsucceeds, -⟩ := SchemaLineage.append_ok hok
  refine ⟨rfl, ?_⟩
  obtain ⟨_, heq⟩ := lineage.schemas_eq
  refine pairwise_append.2 ⟨hordered, pairwise_singleton _ _, fun schema hmem next hnext => ?_⟩
  rw [mem_singleton.1 hnext]
  rw [LineageOrdered, heq, pairwise_append] at hordered
  rw [heq, mem_append, mem_singleton] at hmem
  rcases hmem with hmem | rfl
  · exact (hordered.2.2 schema hmem _ (mem_singleton_self _)).trans hsucceeds.keeps
  · exact hsucceeds.keeps

/-- The first schema stays. -/
lemma SchemaLineage.append_initial : lineage'.initial = lineage.initial := by
  rw [(SchemaLineage.append_ok hok).1]

end Append

end Chronos.Schema
