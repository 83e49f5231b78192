import Chronos.Schema.Lineage

/-!
`src/schema/schema_lineage.cpp`: the laws of a lineage over its whole history.

* `SchemaLineage.appended`: the lineage after a call of `append`, whatever it returned.
* `Lawful`: what holds between any two schemas of a lineage.
* `schema_lineage_laws`: every lineage is lawful, its names have one identity, and its projections
  map columns by identity and compose.
-/

namespace Chronos.Schema

open List SchemaLineage Option

/-! ### The model -/

/-- The lineage after a call of `append`; a call that fails returns before it stores anything. -/
def SchemaLineage.appended (lineage : SchemaLineage) (successor : TableSchema) : SchemaLineage :=
  match lineage.append successor with
  | .ok next => next
  | .error _ => lineage

/-- `SchemaLineage::historical_column_id`. -/
def SchemaLineage.historicalColumnId (lineage : SchemaLineage) (name : String) :
    Option ColumnId :=
  lineage.schemas.findSome? fun schema =>
    (schema.columns.find? fun column => column.name = name).map (·.id)

/-- `ProjectionRequest`. -/
structure ProjectionRequest where
  ancestorSchemaId : SchemaId
  descendantSchemaId : SchemaId

/-- `ProjectionEntry`. -/
structure ProjectionEntry where
  descendantColumnId : ColumnId
  descendantOrdinal : ℕ
  ancestorOrdinal : Option ℕ

/-- `SchemaProjection`. -/
structure SchemaProjection where
  request : ProjectionRequest
  entries : List ProjectionEntry

/-- The first loop of `projection`: the last index at which an identity was found. -/
def lastIndex (id : SchemaId) : ℕ → Option ℕ → List TableSchema → Option ℕ
  | _, found, [] => found
  | index, found, schema :: schemas =>
    lastIndex id (index + 1) (if schema.schemaId = id then some index else found) schemas

/-- The second loop of `projection`: the columns of the ancestor are the first ones. -/
def projectionEntries (ancestor descendant : TableSchema) : List ProjectionEntry :=
  descendant.columns.mapIdx fun index column =>
    ⟨column.id, index, if index < ancestor.columns.length then some index else none⟩

/-- `SchemaLineage::projection`; both indices are in range. -/
def SchemaLineage.projection (lineage : SchemaLineage) (request : ProjectionRequest) :
    Result SchemaProjection :=
  match lastIndex request.ancestorSchemaId 0 none lineage.schemas,
    lastIndex request.descendantSchemaId 0 none lineage.schemas with
  | some ancestor, some descendant =>
    if ancestor > descendant then
      invalid "projection source must be an ancestor of the destination"
    else .ok ⟨request, projectionEntries (lineage.schemas.getD ancestor lineage.initial)
      (lineage.schemas.getD descendant lineage.initial)⟩
  | _, _ => .error ⟨.notFound, "projection schema is not in the lineage"⟩

/-! ### One schema -/

/-- Two columns differ in identity and in name. -/
def ColumnDefinition.Differs (a b : ColumnDefinition) : Prop := a.id ≠ b.id ∧ a.name ≠ b.name

lemma validateDistinctColumns_pairwise : ∀ {columns seen : List ColumnDefinition},
    seen.Pairwise ColumnDefinition.Differs → validateDistinctColumns seen columns = .ok () →
    (seen ++ columns).Pairwise ColumnDefinition.Differs := by
  intro columns
  induction columns with
  | nil => exact fun hseen _ => by simpa using hseen
  | cons column columns ih =>
    intro seen hseen hok
    rw [validateDistinctColumns] at hok
    split at hok
    · split at hok <;> cases hok
    rename_i hnone
    have hnew : (seen ++ [column]).Pairwise ColumnDefinition.Differs := by
      refine pairwise_append.2 ⟨hseen, pairwise_singleton _ _, fun a ha b hb => ?_⟩
      obtain rfl := mem_singleton.1 hb
      simpa [ColumnDefinition.Differs] using find?_eq_none.1 hnone a ha
    simpa using ih hnew hok

variable {a b : ColumnDefinition}

/-- Columns of one schema that share an identity or a name are the same column. -/
lemma TableSchema.ordinal_eq (schema : TableSchema) {i j : ℕ} (ha : schema.columns[i]? = some a)
    (hb : schema.columns[j]? = some b) (hsame : a.id = b.id ∨ a.name = b.name) : i = j := by
  obtain ⟨hi, rfl⟩ := List.getElem?_eq_some_iff.1 ha
  obtain ⟨hj, rfl⟩ := List.getElem?_eq_some_iff.1 hb
  have hpairwise := List.pairwise_iff_getElem.1
    (validateDistinctColumns_pairwise .nil schema.checks.1)
  rcases lt_trichotomy i j with hlt | heq | hlt
  · have hne := hpairwise i j hi hj hlt
    exact (hsame.elim hne.1 hne.2).elim
  · exact heq
  · have hne := hpairwise j i hj hi hlt
    exact (hsame.elim (hne.1 ·.symm) (hne.2 ·.symm)).elim

lemma TableSchema.id_eq (schema : TableSchema) (ha : a ∈ schema.columns) (hb : b ∈ schema.columns)
    (hname : a.name = b.name) : a.id = b.id := by
  obtain ⟨_, hi⟩ := mem_iff_getElem?.1 ha
  obtain ⟨_, hj⟩ := mem_iff_getElem?.1 hb
  obtain rfl := schema.ordinal_eq hi hj (.inr hname)
  rw [some.inj (hi.symm.trans hj)]

/-! ### The history -/

/-- The laws of the schemas of a lineage, oldest first. -/
structure Lawful (schemas : List TableSchema) : Prop where
  versions : schemas.map (·.version) = List.range' 1 schemas.length
  parents : schemas.map (·.parentSchemaId) =
    none :: schemas.dropLast.map fun schema => some schema.schemaId
  identities : (schemas.map (·.schemaId)).Nodup
  ordered : LineageOrdered schemas
  added : schemas.Pairwise fun before after =>
    ∀ column ∈ after.columns.drop before.columns.length, column.nullable = true
  names : ∀ schema ∈ schemas, ∀ schema' ∈ schemas, ∀ column ∈ schema.columns,
    ∀ column' ∈ schema'.columns, column.name = column'.name → column.id = column'.id
  ordinals : ∀ schema ∈ schemas, ∀ schema' ∈ schemas, ∀ (i j : ℕ) column column',
    schema.columns[i]? = some column → schema'.columns[j]? = some column' →
    column.id = column'.id → i = j

/-- A column of a successor is one of its predecessor or an added one. -/
lemma Succeeds.column {predecessor successor : TableSchema} (h : Succeeds predecessor successor)
    {j : ℕ} {column : ColumnDefinition} (hj : successor.columns[j]? = some column) :
    (∃ kept, predecessor.columns[j]? = some kept ∧ kept.Retains column) ∨
      column ∈ successor.columns.drop predecessor.columns.length := by
  by_cases hlt : j < predecessor.columns.length
  · obtain ⟨_, hcolumn', hretains⟩ := h.keeps.columns j _ (getElem?_eq_getElem hlt)
    obtain rfl := some.inj (hcolumn'.symm.trans hj)
    exact .inl ⟨_, getElem?_eq_getElem hlt, hretains⟩
  · refine .inr (mem_of_getElem? (i := j - predecessor.columns.length) ?_)
    rw [getElem?_drop, ← hj]
    congr 1
    omega

section Append

variable {lineage lineage' : SchemaLineage} {successor schema : TableSchema}
  (h : Lawful lineage.schemas) (hok : lineage.append successor = .ok lineage')

include h hok

/-- A column of a successor stands where its identity has always stood. -/
lemma Lawful.ordinal_of_append (hschema : schema ∈ lineage.schemas) {i j : ℕ}
    {column column' : ColumnDefinition} (hcolumn : schema.columns[i]? = some column)
    (hcolumn' : successor.columns[j]? = some column') (hid : column.id = column'.id) : i = j := by
  obtain ⟨-, hsucceeds, -, -, hfresh⟩ := append_ok hok
  obtain ⟨_, heq⟩ := lineage.schemas_eq
  rcases hsucceeds.column hcolumn' with ⟨_, hkept, hsame, -⟩ | hadded
  · exact h.ordinals schema hschema lineage.current (by simp [heq]) i j _ _ hcolumn hkept
      (hid.trans hsame)
  · exact absurd hid (hfresh column' hadded schema hschema column (mem_of_getElem? hcolumn))

/-- A column that a successor has beyond an earlier schema is nullable. -/
lemma Lawful.added_of_append (hschema : schema ∈ lineage.schemas) :
    ∀ column ∈ successor.columns.drop schema.columns.length, column.nullable = true := by
  obtain ⟨-, hsucceeds, -⟩ := append_ok hok
  intro column hcolumn
  obtain ⟨j, hj⟩ := mem_iff_getElem?.1 hcolumn
  rw [getElem?_drop] at hj
  rcases hsucceeds.column hj with ⟨kept, hkept, -, -, hnullable⟩ | hadded
  · -- it was added to the current schema
    rw [hnullable]
    have hmem : kept ∈ lineage.current.columns.drop schema.columns.length :=
      mem_of_getElem? (i := j) (getElem?_drop ▸ hkept)
    obtain ⟨_, heq⟩ := lineage.schemas_eq
    have hadded := h.added
    rw [heq, pairwise_append] at hadded
    rw [heq, mem_append, mem_singleton] at hschema
    rcases hschema with hschema | rfl
    · exact hadded.2.2 schema hschema _ (mem_singleton_self _) kept hmem
    · simp at hmem
  · exact hsucceeds.added column hadded

/-- An append keeps the laws. -/
lemma Lawful.append : Lawful lineage'.schemas := by
  obtain ⟨hschemas, hordered⟩ := append_ordered hok h.ordered
  obtain ⟨-, hsucceeds, hidentity, hname, -⟩ := append_ok hok
  obtain ⟨_, heq⟩ := lineage.schemas_eq
  have hmem : ∀ {schema}, schema ∈ lineage'.schemas →
      schema ∈ lineage.schemas ∨ schema = successor := by
    intro schema hschema
    simpa [hschemas] using hschema
  refine ⟨?_, ?_, ?_, hordered, ?_,
    fun schema hschema schema' hschema' column hcolumn column' hcolumn' heq => ?_,
    fun schema hschema schema' hschema' i j column column' hi hj hid => ?_⟩
  · have hversions := h.versions
    rw [heq, map_append, length_append, length_singleton, range'_concat] at hversions
    have hlast := (append_inj' hversions rfl).2
    simp only [map_singleton, List.cons.injEq, and_true] at hlast
    rw [hschemas, map_append, h.versions, length_append, length_singleton, range'_concat,
      map_singleton, hsucceeds.version, hlast, heq]
    simp [Nat.add_comm, Nat.add_left_comm]
  · rw [hschemas, map_append, h.parents, dropLast_concat, heq, dropLast_concat]
    simp [hsucceeds.parent]
  · rw [hschemas, map_append, nodup_append]
    refine ⟨h.identities, pairwise_singleton _ _, fun a ha b hb => ?_⟩
    obtain ⟨schema, hschema, rfl⟩ := mem_map.1 ha
    rw [mem_singleton.1 hb]
    exact hidentity schema hschema
  · rw [hschemas]
    refine pairwise_append.2 ⟨h.added, pairwise_singleton _ _, fun a ha b hb => ?_⟩
    rw [mem_singleton.1 hb]
    exact h.added_of_append hok ha
  · rcases hmem hschema with hschema | rfl <;> rcases hmem hschema' with hschema' | rfl
    · exact h.names _ hschema _ hschema' _ hcolumn _ hcolumn' heq
    · exact hname _ hcolumn' _ hschema _ hcolumn heq
    · exact (hname _ hcolumn _ hschema' _ hcolumn' heq.symm).symm
    · exact TableSchema.id_eq _ hcolumn hcolumn' heq
  · rcases hmem hschema with hschema | rfl <;> rcases hmem hschema' with hschema' | rfl
    · exact h.ordinals _ hschema _ hschema' i j _ _ hi hj hid
    · exact h.ordinal_of_append hok hschema hi hj hid
    · exact (h.ordinal_of_append hok hschema' hj hi hid.symm).symm
    · exact TableSchema.ordinal_eq _ hi hj (.inl hid)

end Append

lemma Lawful.create {initial : TableSchema} {start : SchemaLineage}
    (hcreate : create initial = .ok start) : Lawful start.schemas := by
  rw [SchemaLineage.create] at hcreate
  split at hcreate
  · cases hcreate
  rename_i hroot
  cases hcreate
  simp only [ne_eq, not_or, not_not, Bool.not_eq_true, isSome_eq_false_iff,
    isNone_iff_eq_none] at hroot
  refine ⟨by simp [schemas, hroot.1], by simp [schemas, hroot.2],
    pairwise_singleton _ _, pairwise_singleton _ _, pairwise_singleton _ _,
    fun a ha b hb c hc c' hc' heq => ?_, fun a ha b hb i j c c' hi hj hid => ?_⟩
  · rw [mem_singleton.1 ha] at hc
    rw [mem_singleton.1 hb] at hc'
    exact initial.id_eq hc hc' heq
  · rw [mem_singleton.1 ha] at hi
    rw [mem_singleton.1 hb] at hj
    exact initial.ordinal_eq hi hj (.inl hid)

/-- Calls of `append` keep the laws, whatever they return. -/
lemma Lawful.appends (successors : List TableSchema) : ∀ {start : SchemaLineage},
    Lawful start.schemas → Lawful (successors.foldl appended start).schemas := by
  induction successors with
  | nil => exact fun h => h
  | cons successor successors ih =>
    intro start h
    refine ih ?_
    rw [appended]
    split
    · exact h.append ‹_›
    · exact h

/-! ### Names and projections -/

/-- The columns of the ancestor of a projection through another schema. -/
def SchemaProjection.compose (first second : SchemaProjection) : SchemaProjection :=
  ⟨⟨first.request.ancestorSchemaId, second.request.descendantSchemaId⟩,
    second.entries.map fun entry =>
      { entry with ancestorOrdinal := entry.ancestorOrdinal.bind fun ordinal =>
          first.entries[ordinal]?.bind (·.ancestorOrdinal) }⟩

/-- The projection between two schemas. -/
def projectionOf (ancestor descendant : TableSchema) : SchemaProjection :=
  ⟨⟨ancestor.schemaId, descendant.schemaId⟩, projectionEntries ancestor descendant⟩

/-- The first schema stands in a lineage, and the second at its place or later. -/
def SchemaLineage.Precedes (lineage : SchemaLineage) (ancestor descendant : TableSchema) : Prop :=
  ∃ i j : ℕ, i ≤ j ∧ lineage.schemas[i]? = some ancestor ∧ lineage.schemas[j]? = some descendant

namespace Lawful

variable {lineage : SchemaLineage} (h : Lawful lineage.schemas)

include h

lemma historicalColumnId_eq_some {name : String} {id : ColumnId} :
    lineage.historicalColumnId name = some id ↔ ∃ schema ∈ lineage.schemas,
      ∃ column ∈ schema.columns, column.name = name ∧ column.id = id := by
  rw [historicalColumnId]
  constructor
  · intro hfound
    obtain ⟨schema, hschema, hfound⟩ := exists_of_findSome?_eq_some hfound
    obtain ⟨column, hcolumn, rfl⟩ := map_eq_some_iff.1 hfound
    exact ⟨schema, hschema, column, mem_of_find?_eq_some hcolumn,
      by simpa using find?_some hcolumn, rfl⟩
  · rintro ⟨schema, hschema, column, hcolumn, rfl, rfl⟩
    cases hfound : lineage.schemas.findSome? fun schema =>
        (schema.columns.find? fun other => other.name = column.name).map (·.id) with
    | none =>
      have hnone := findSome?_eq_none_iff.1 hfound schema hschema
      simp only [map_eq_none_iff, find?_eq_none, decide_eq_true_eq] at hnone
      exact absurd rfl (hnone column hcolumn)
    | some id =>
      obtain ⟨_, hschema', hfound⟩ := exists_of_findSome?_eq_some hfound
      obtain ⟨_, hcolumn', rfl⟩ := map_eq_some_iff.1 hfound
      rw [h.names _ hschema' _ hschema _ (mem_of_find?_eq_some hcolumn') _ hcolumn
        (by simpa using find?_some hcolumn')]

omit h in
lemma lastIndex_eq_some {id : SchemaId} {i : ℕ} : ∀ {schemas : List TableSchema} {k : ℕ}
    {found : Option ℕ}, (schemas.map (·.schemaId)).Nodup →
    (lastIndex id k found schemas = some i ↔
      (∃ j schema, i = k + j ∧ schemas[j]? = some schema ∧ schema.schemaId = id) ∨
        (∀ schema ∈ schemas, schema.schemaId ≠ id) ∧ found = some i) := by
  intro schemas
  induction schemas with
  | nil => exact fun _ => by simp [lastIndex]
  | cons first schemas ih =>
    intro k found hnodup
    rw [List.map_cons, List.nodup_cons] at hnodup
    rw [lastIndex, ih hnodup.2]
    constructor
    · rintro (⟨j, schema, rfl, hschema, hid⟩ | ⟨hnone, hfound⟩)
      · exact .inl ⟨j + 1, schema, by omega, hschema, hid⟩
      · split at hfound
        · exact .inl ⟨0, first, (Option.some.inj hfound).symm, rfl, ‹_›⟩
        · exact .inr ⟨List.forall_mem_cons.2 ⟨‹_›, hnone⟩, hfound⟩
    · rintro (⟨j, schema, rfl, hschema, hid⟩ | ⟨hnone, rfl⟩)
      · cases j with
        | zero =>
          obtain rfl := Option.some.inj hschema
          refine .inr ⟨fun other hother heq => hnodup.1 ?_, by rw [if_pos hid]; rfl⟩
          exact List.mem_map.2 ⟨other, hother, heq.trans hid.symm⟩
        | succ j => exact .inl ⟨j, schema, by omega, hschema, hid⟩
      · rw [List.forall_mem_cons] at hnone
        exact .inr ⟨hnone.2, if_neg hnone.1⟩

lemma lastIndex_schemas {id : SchemaId} {i : ℕ} : lastIndex id 0 none lineage.schemas = some i ↔
    ∃ schema, lineage.schemas[i]? = some schema ∧ schema.schemaId = id := by
  rw [lastIndex_eq_some h.identities]
  simp

/-- A projection is the one between two schemas of the lineage, the later one after the other. -/
lemma projection_eq_ok {request : ProjectionRequest} {projection : SchemaProjection} :
    lineage.projection request = .ok projection ↔ ∃ ancestor descendant,
      lineage.Precedes ancestor descendant ∧
      request = ⟨ancestor.schemaId, descendant.schemaId⟩ ∧
      projection = projectionOf ancestor descendant := by
  rw [SchemaLineage.projection]
  constructor
  · intro hok
    split at hok
    · rename_i i j hi hj
      split at hok
      · cases hok
      obtain ⟨ancestor, hancestor, ha⟩ := h.lastIndex_schemas.1 hi
      obtain ⟨descendant, hdescendant, hd⟩ := h.lastIndex_schemas.1 hj
      cases hok
      refine ⟨ancestor, descendant, ⟨i, j, by omega, hancestor, hdescendant⟩, by rw [ha, hd], ?_⟩
      rw [projectionOf, ha, hd, getD_eq_getElem?_getD, getD_eq_getElem?_getD, hancestor,
        hdescendant]
      rfl
    · cases hok
  · rintro ⟨ancestor, descendant, ⟨_, _, _, hancestor, hdescendant⟩, rfl, rfl⟩
    rw [h.lastIndex_schemas.2 ⟨ancestor, hancestor, rfl⟩,
      h.lastIndex_schemas.2 ⟨descendant, hdescendant, rfl⟩]
    simp only
    rw [if_neg (by omega), getD_eq_getElem?_getD, getD_eq_getElem?_getD, hancestor, hdescendant]
    rfl

variable {ancestor descendant : TableSchema} (hprecedes : lineage.Precedes ancestor descendant)

include hprecedes

lemma extends_of_precedes : SchemaExtends ancestor descendant := by
  obtain ⟨i, j, hle, hi, hj⟩ := hprecedes
  rcases hle.lt_or_eq with hlt | rfl
  · obtain ⟨hi', rfl⟩ := List.getElem?_eq_some_iff.1 hi
    obtain ⟨hj', rfl⟩ := List.getElem?_eq_some_iff.1 hj
    exact List.pairwise_iff_getElem.1 h.ordered i j hi' hj' hlt
  · rw [some.inj (hi.symm.trans hj)]
    exact .refl _

/-- A column of the descendant is mapped to the ordinal of its identity, or it is nullable. -/
lemma projection_entry {o : ℕ} {column : ColumnDefinition}
    (hcolumn : descendant.columns[o]? = some column) :
    (projectionOf ancestor descendant).entries[o]? =
        some ⟨column.id, o, ancestor.columnOrdinal column.id⟩ ∧
      (ancestor.columnOrdinal column.id = none → column.nullable = true) := by
  have hextends := h.extends_of_precedes hprecedes
  obtain ⟨i, j, hle, hi, hj⟩ := hprecedes
  have hentry : (projectionOf ancestor descendant).entries[o]? =
      some ⟨column.id, o, if o < ancestor.columns.length then some o else none⟩ := by
    simp [projectionOf, projectionEntries, hcolumn]
  by_cases hlt : o < ancestor.columns.length
  · obtain ⟨kept, hkept, hid, -⟩ := hextends.columns o _ (getElem?_eq_getElem hlt)
    obtain rfl := some.inj (hkept.symm.trans hcolumn)
    have hordinal : ancestor.columnOrdinal kept.id = some o :=
      columnOrdinal_eq_some.2 ⟨⟨_, getElem?_eq_getElem hlt, hid.symm⟩,
        fun _ hk _ hother heq => hk.ne (ancestor.ordinal_eq hother
          (getElem?_eq_getElem hlt) (.inl (heq.trans hid)))⟩
    rw [hentry, if_pos hlt, hordinal]
    exact ⟨rfl, nofun⟩
  · have hnone : ancestor.columnOrdinal column.id = none := by
      rw [TableSchema.columnOrdinal, findIdx?_eq_none_iff]
      intro _ hother
      obtain ⟨k, hk⟩ := mem_iff_getElem?.1 hother
      simp only [decide_eq_false_iff_not]
      intro heq
      have := h.ordinals _ (mem_of_getElem? hi) _ (mem_of_getElem? hj) k o _ _ hk hcolumn heq
      exact hlt (this ▸ (List.getElem?_eq_some_iff.1 hk).1)
    rw [hentry, if_neg hlt, hnone]
    refine ⟨rfl, fun _ => ?_⟩
    rcases hle.lt_or_eq with hij | rfl
    · obtain ⟨hi', rfl⟩ := List.getElem?_eq_some_iff.1 hi
      obtain ⟨hj', rfl⟩ := List.getElem?_eq_some_iff.1 hj
      refine List.pairwise_iff_getElem.1 h.added i j hi' hj' hij column
        (mem_of_getElem? (i := o - lineage.schemas[i].columns.length) ?_)
      rw [getElem?_drop, ← hcolumn]
      congr 1
      omega
    · rw [some.inj (hi.symm.trans hj)] at hlt
      exact absurd (List.getElem?_eq_some_iff.1 hcolumn).1 hlt

lemma compose_projection (last : TableSchema) :
    (projectionOf ancestor descendant).compose (projectionOf descendant last) =
      projectionOf ancestor last := by
  have hlength : ancestor.columns.length ≤ descendant.columns.length := by
    by_contra hlt
    obtain ⟨_, hcolumn, -⟩ := (h.extends_of_precedes hprecedes).columns descendant.columns.length _
      (getElem?_eq_getElem (not_le.1 hlt))
    simp at hcolumn
  simp only [projectionOf, SchemaProjection.compose, projectionEntries, SchemaProjection.mk.injEq,
    true_and]
  refine ext_getElem? fun o => ?_
  simp only [getElem?_map, getElem?_mapIdx, Option.map_map]
  congr 1
  funext column
  by_cases ho : o < descendant.columns.length
  · simp [ho]
  · simp [ho, show ¬ o < ancestor.columns.length by omega]

end Lawful

/-- **The laws of a lineage.**  After `create` and any calls of `append`, a lineage is lawful, a
name has one identity in the whole history, a call that fails changes nothing, and projections are
those from a schema to itself or a later one, map columns by identity and compose. -/
theorem schema_lineage_laws (initial : TableSchema) (start : SchemaLineage)
    (hcreate : SchemaLineage.create initial = .ok start) (successors : List TableSchema) :
    let lineage := successors.foldl SchemaLineage.appended start
    Lawful lineage.schemas ∧
    (∀ name id, lineage.historicalColumnId name = some id ↔ ∃ schema ∈ lineage.schemas,
      ∃ column ∈ schema.columns, column.name = name ∧ column.id = id) ∧
    (∀ successor status, lineage.append successor = .error status →
      lineage.appended successor = lineage) ∧
    (∀ request projection, lineage.projection request = .ok projection ↔
      ∃ ancestor descendant, lineage.Precedes ancestor descendant ∧
        request = ⟨ancestor.schemaId, descendant.schemaId⟩ ∧
        projection = projectionOf ancestor descendant) ∧
    ∀ ancestor descendant, lineage.Precedes ancestor descendant →
      (projectionOf ancestor descendant).entries.length = descendant.columns.length ∧
      (∀ (o : ℕ) column, descendant.columns[o]? = some column →
        (projectionOf ancestor descendant).entries[o]? =
            some ⟨column.id, o, ancestor.columnOrdinal column.id⟩ ∧
          (ancestor.columnOrdinal column.id = none → column.nullable = true)) ∧
      ∀ last, lineage.Precedes descendant last →
        (projectionOf ancestor descendant).compose (projectionOf descendant last) =
          projectionOf ancestor last := by
  intro lineage
  have h : Lawful lineage.schemas := (Lawful.create hcreate).appends successors
  refine ⟨h, fun _ _ => h.historicalColumnId_eq_some, fun successor status hfailed => ?_,
    fun _ _ => h.projection_eq_ok, fun ancestor descendant hprecedes => ⟨?_,
      fun _ _ hcolumn => h.projection_entry hprecedes hcolumn,
      fun last _ => h.compose_projection hprecedes last⟩⟩
  · rw [appended, hfailed]
  · simp [projectionOf, projectionEntries]

/-- The event time of the sample. -/
def eventTime : ColumnDefinition := ⟨1, "occurred_at", ⟨.timestampNs, 0, 0⟩, false, by decide⟩

/-- A table with its event time alone. -/
def eventsSchema : TableSchema :=
  ⟨1, 1, 1, none, [eventTime],
    ⟨eventTime.id, [eventTime.id], [eventTime.id], [eventTime.id], []⟩, by decide⟩

/-- The table with a nullable column added. -/
def notedSchema : TableSchema :=
  ⟨eventsSchema.tableId, 2, 2, some eventsSchema.schemaId,
    [eventTime, ⟨2, "note", ⟨.string, 0, 0⟩, true, by decide⟩], eventsSchema.roles,
    by decide⟩

/-- The added column is accepted, and the first schema is not accepted again. -/
theorem schema_lineage_laws_events : SchemaLineage.create eventsSchema = .ok ⟨eventsSchema, []⟩ ∧
    ([notedSchema, eventsSchema].foldl SchemaLineage.appended ⟨eventsSchema, []⟩).schemas.length
      = 2 ∧
    Lawful ([notedSchema, eventsSchema].foldl SchemaLineage.appended ⟨eventsSchema, []⟩).schemas :=
  ⟨rfl, by decide, (schema_lineage_laws eventsSchema _ rfl [notedSchema, eventsSchema]).1⟩

end Chronos.Schema
