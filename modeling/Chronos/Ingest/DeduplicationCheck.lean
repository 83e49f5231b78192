import Chronos.Ingest.Snapshots

/-!
The deduplication check is exact.

* `logicallyEqual_of_cellKey`: cells of two different rows with the same sort key are logically
  equal; a NaN has its row in its key.
* `deduplication_check_exact`: against the published generations of any run of a tablet, a batch is
  accepted if and only if no two of its rows, and no row of it and published row, are logically
  equal in all columns of the key.
-/

namespace Chronos.Ingest

open Schema Columnar Head List

/-- Cells of two rows with the same sort key are logically equal. -/
lemma logicallyEqual_of_cellKey {type : LogicalType} {left right : Cell}
    (hleft : CellTyped type false left) (hright : CellTyped type false right) {row row' : ℕ}
    (hne : row ≠ row') (hkey : cellKey type.kind left row = cellKey type.kind right row') :
    logicallyEqual type.kind left right = true := by
  obtain ⟨l, r, rfl, rfl⟩ | ⟨l, r, rfl, rfl⟩ := hleft.shapes hright
  · revert hkey
    cases l <;> cases r <;> simp [cellKey, logicallyEqual]
  · simp only [cellKey] at hkey
    simp only [logicallyEqual]
    cases hformat : floatFormat type.kind with
    | none =>
      simp only [hformat] at hkey
      exact beq_iff_eq.2 (map_injective_iff.2 (fun _ _ h => UInt8.toNat_inj.1 h) hkey)
    | some format =>
      simp only [hformat, cons.injEq, and_true] at hkey
      obtain ⟨hbits, hrow⟩ := hkey
      have hnan : floatingNan format (ofLe l) = floatingNan format (ofLe r) := by
        rw [← floatingNan_normalize hformat, hbits, floatingNan_normalize hformat]
      -- two NaNs would have their rows in their keys
      have hnumber : floatingNan format (ofLe r) = false := by
        by_contra hnot
        rw [Bool.not_eq_false] at hnot
        rw [hnan, if_pos hnot, if_pos hnot] at hrow
        omega
      simp [hnan, hnumber, hbits]

/-- Two rows with the same sort key have logically equal keys. -/
lemma keysEqual_of_rowKey {batch : ColumnarBatch} {columns : List ColumnVector}
    (hkeys : List.Forall₂ (IsKeyColumn batch) batch.schema.roles.deduplicationKey columns) {a b : ℕ}
    (ha : a < batch.rowCount) (hb : b < batch.rowCount) (hne : a ≠ b)
    (hkey : rowKey columns a = rowKey columns b) :
    KeysEqual batch.schema batch.schema (batch.row a) (batch.row b) := by
  intro _ hid
  obtain ⟨i, hi, rfl⟩ := getElem_of_mem hid
  have hi' : i < columns.length := by rw [← hkeys.length_eq]; exact hi
  have hcolumn := hkeys.get hi hi'
  rw [get_eq_getElem, get_eq_getElem] at hcolumn
  have htyped : ∀ {row : ℕ}, row < batch.rowCount →
      CellTyped columns[i].metadata.type false (columns[i].value row) :=
    (keyColumns_of_isKeyColumn hkeys).typed columns[i] (getElem_mem hi')
  have hcell : cellKey columns[i].metadata.type.kind (columns[i].value a) a =
      cellKey columns[i].metadata.type.kind (columns[i].value b) b := by
    have hat := congrArg (·[i]?) hkey
    simpa [rowKey, hi'] using hat
  rw [keyValue_batch hcolumn, keyValue_batch hcolumn]
  simp [keyValuesEqual, logicallyEqual_of_cellKey (htyped ha) (htyped hb) hne hcell]

/-- The first check passes exactly if no two rows of the batch have logically equal keys. -/
lemma uniqueKeys_iff (batch : ColumnarBatch) :
    uniqueKeys batch = .ok () ↔ ∀ a < batch.rowCount, ∀ b < batch.rowCount, a ≠ b →
      ¬KeysEqual batch.schema batch.schema (batch.row a) (batch.row b) := by
  refine ⟨fun hok a ha b hb hne => uniqueKeys_distinct hok ha hb hne, fun hdistinct => ?_⟩
  obtain ⟨columns, hcolumns, hkeys⟩ := batchKeyColumns_ok batch
  have hunique : uniqueKeys batch = validateUniqueBatchKeys batch columns := by
    rw [uniqueKeys, hcolumns]
    rfl
  rw [hunique, validateUniqueBatchKeys_ok hkeys, pairwise_iff_getElem]
  intro a b ha hb hlt
  rw [length_range] at ha hb
  rw [getElem_range, getElem_range]
  exact fun hkey => hdistinct a ha b hb hlt.ne (keysEqual_of_rowKey hkeys ha hb hlt.ne hkey)

/-- **The deduplication check is exact.**  For a batch with a key whose schema is registered with
the tablet and not older than the active one, and any of the generations that a run of the tablet
has published: the batch is accepted if and only if no two rows of it, and no row of it and row of a
generation, are logically equal in all columns of the key. -/
theorem deduplication_check_exact {schema : TableSchema} {tabletId : TabletId}
    {config : TabletStateConfig} {state : TabletState}
    (hcreate : TabletState.create schema tabletId config = .ok state) (actions : List TabletAction)
    (batch : ColumnarBatch) {index : ℕ}
    (hfound : ((TabletRun.start state).run actions).state.findSchemaIndex batch.schema = some index)
    (hindex : ((TabletRun.start state).run actions).state.activeSchemaIndex ≤ index)
    (hkey : batch.schema.roles.deduplicationKey ≠ [])
    (generations : List (MutableHeadState × HeadPublication))
    (hpublished : generations ⊆
      ((TabletRun.start state).run actions).state.publication.generations.map
        ((TabletRun.start state).run actions).state.generationOf) :
    validateAppendDeduplication batch generations = .ok () ↔
      (∀ a < batch.rowCount, ∀ b < batch.rowCount, a ≠ b →
        ¬KeysEqual batch.schema batch.schema (batch.row a) (batch.row b)) ∧
      ∀ generation ∈ generations, ∀ row ∈ generation.1.rows generation.2,
        ∀ a < batch.rowCount,
          ¬KeysEqual batch.schema generation.1.schema (batch.row a) row.cells := by
  obtain ⟨hrun, -⟩ := (RunSound.start hcreate).run_sound actions
  have hreadable : ∀ generation ∈ generations, Readable batch generation :=
    fun generation hmem => hrun.sound.readable hfound hindex generation (hpublished hmem)
  rw [validateAppendDeduplication_ok hreadable, or_iff_right hkey, uniqueKeys_iff]
  refine and_congr_right fun _ => ⟨fun hno generation hmem row hrow => ?_, fun hno => ?_⟩
  · exact hno (generation.1.schema, row)
      (mem_flatMap.2 ⟨generation, hmem, mem_map_of_mem hrow⟩)
  · intro shown hshown
    obtain ⟨generation, hmem, hrow⟩ := mem_flatMap.1 hshown
    obtain ⟨row, hshows, rfl⟩ := mem_map.1 hrow
    exact hno generation hmem row hshows

/-- A run that has published the key 5: a batch with it is refused, one with the key 6 accepted. -/
theorem deduplication_check_sample :
    let run := (TabletRun.start sampleState).run (sampleAppend ⟨1, by decide⟩ 5 1)
    let generations := run.state.publication.generations.map run.state.generationOf
    validateAppendDeduplication (sampleBatch 5) generations ≠ .ok () ∧
      ∀ generation ∈ generations, ∀ row ∈ generation.1.rows generation.2, ∀ a < 1,
        ¬KeysEqual sampleSchema generation.1.schema ((sampleBatch 6).row a) row.cells := by
  refine ⟨by decide +kernel, ?_⟩
  have hexact := deduplication_check_exact sampleState_created (sampleAppend ⟨1, by decide⟩ 5 1)
    (sampleBatch 6) (show _ = some 0 by decide +kernel) (by decide +kernel) (by decide) _
    (List.Subset.refl _)
  exact (hexact.1 (by decide +kernel)).2

end Chronos.Ingest
