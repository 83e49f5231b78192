import Chronos.Ingest.TabletRun

/-!
What the snapshots of a tablet show.

* `tablet_snapshots_stable_and_complete`: a snapshot shows the same rows, cells and
  metadata whatever is called later, and the current publication shows exactly the
  batches that were published and not retired, in publish order.
* `sampleSchema`, `sampleBatch`, `sampleState`: a small tablet to evaluate on.
-/

namespace Chronos.Ingest

open Schema Columnar Head List

/-! ### A small tablet -/

/-- The one column of the sample table. -/
def timeColumn : ColumnDefinition := ⟨1, "t", ⟨.timestampNs, 0, 0⟩, false, by decide⟩

/-- A table of one column, which is also its deduplication key. -/
def sampleSchema : TableSchema :=
  ⟨1, 1, 1, none, [timeColumn],
    ⟨timeColumn.id, [timeColumn.id], [timeColumn.id], [timeColumn.id], [timeColumn.id]⟩, by decide⟩

/-- One row of the sample table. -/
def sampleBatch (value : UInt8) : ColumnarBatch :=
  ⟨sampleSchema, [⟨⟨timeColumn.id, timeColumn.type, false, 1, 0⟩,
    ⟨[], [], [value, 0, 0, 0, 0, 0, 0, 0]⟩, by rfl⟩], 1, .cons ⟨⟨rfl, rfl, rfl⟩, rfl⟩ .nil⟩

/-- Heads of one row, and one sealed generation at a time. -/
def sampleConfig : TabletStateConfig := ⟨⟨1, [0]⟩, 1, 1, 8⟩

/-- The tablet of the sample. -/
def sampleTablet : TabletId := 7

/-- The first head of the sample. -/
def sampleHead : MutableHeadState := .empty sampleSchema sampleTablet 1 ⟨1, [0]⟩

/-- The sample tablet when it is created. -/
def sampleState : TabletState where
  lineage := ⟨sampleSchema, []⟩
  schemas := [⟨sampleSchema, ⟨1, [0]⟩⟩]
  activeSchemaIndex := 0
  tabletId := sampleTablet
  limits := sampleConfig
  heads := fun _ => sampleHead
  headCount := 1
  activeHead := 0
  publication := ⟨none, [], sampleHead.snapshot 0, ∅⟩
  appendActive := false
  activeToken := 0
  activePhase := .preWal
  nextToken := 1
  recoverySkipThrough := 0
  failed := false

lemma sampleState_created :
    TabletState.create sampleSchema sampleTablet sampleConfig = .ok sampleState := rfl

/-! ### Stability and completeness -/

variable {β : Type}

/-- Rows of batches at increasing positions differ in whatever determines the record sequence and
the row ordinal. -/
lemma published_nodup {f : HeadRowMetadata → β}
    (hf : ∀ m m', f m = f m' → m.commitPosition.recordSequence = m'.commitPosition.recordSequence ∧
      m.rowOrdinal = m'.rowOrdinal)
    {published : List PublishedBatch}
    (hpositions : published.Pairwise fun b b' => b.position.recordSequence <
      b'.position.recordSequence) :
    ((published.flatMap PublishedBatch.rows).map fun row => f row.metadata).Nodup := by
  induction hpositions with
  | nil => exact nodup_nil
  | @cons b published hlt _ ih =>
    rw [flatMap_cons, map_append, nodup_append]
    refine ⟨?_, ih, fun m hm m' hm' heq => ?_⟩
    · rw [PublishedBatch.rows, batchRows, map_map]
      exact List.Nodup.map (fun i j h => (hf _ _ h).2) nodup_range
    obtain ⟨row, hrow, rfl⟩ := mem_map.1 hm
    obtain ⟨row', hrow', rfl⟩ := mem_map.1 hm'
    obtain ⟨b', hb', hrow'⟩ := mem_flatMap.1 hrow'
    obtain ⟨i, -, rfl⟩ := mem_map.1 hrow
    obtain ⟨j, -, rfl⟩ := mem_map.1 hrow'
    exact (hlt b' hb').ne (hf _ _ heq).1

/-- No two rows that a sound run shows agree in what determines the sequence and the ordinal. -/
lemma RunSound.rows_nodup {run : TabletRun} (hrun : RunSound run) {f : HeadRowMetadata → β}
    (hf : ∀ m m', f m = f m' → m.commitPosition.recordSequence = m'.commitPosition.recordSequence ∧
      m.rowOrdinal = m'.rowOrdinal) :
    ((run.state.publication.rows run.state.heads).map fun row => f row.metadata).Nodup := by
  rw [hrun.rows_eq]
  exact published_nodup hf (hrun.positions.sublist filter_sublist)

/-- **Tablet snapshots are stable and complete.**  A snapshot taken at any point of any run of a
tablet shows the same columns, metadata, rows and retry outcomes after any later calls.  Its rows
are those of the batches published and not retired, in publish order, each row once. -/
theorem tablet_snapshots_stable_and_complete {schema : TableSchema} {tabletId : TabletId}
    {config : TabletStateConfig} {state : TabletState}
    (hcreate : TabletState.create schema tabletId config = .ok state)
    (earlier later : List TabletAction) :
    let before := (TabletRun.start state).run earlier
    let after := before.run later
    let snapshot := before.state.publication
    (∀ g ∈ snapshot.generations,
        (∀ ordinal, (after.state.heads g.head).columnView g.publication ordinal
          = (before.state.heads g.head).columnView g.publication ordinal) ∧
        ∀ row, (after.state.heads g.head).metadataOf g.publication row
          = (before.state.heads g.head).metadataOf g.publication row) ∧
      snapshot.rows after.state.heads = snapshot.rows before.state.heads ∧
      (∀ identity outcome, snapshot.retryOutcome identity = some outcome →
        after.state.publication.retryOutcome identity = some outcome) ∧
      snapshot.rows before.state.heads = before.live.flatMap PublishedBatch.rows ∧
      ((snapshot.rows before.state.heads).map (·.metadata)).Nodup := by
  intro before after snapshot
  obtain ⟨hbefore, -⟩ := (RunSound.start hcreate).run_sound earlier
  obtain ⟨-, hlater⟩ := hbefore.run_sound later
  have hheld : Held before.state snapshot := hbefore.sound.held
  have hnodup : ((snapshot.rows before.state.heads).map fun row => id row.metadata).Nodup := by
    refine hbefore.rows_nodup fun m m' h => ?_
    obtain rfl : m = m' := h
    exact ⟨rfl, rfl⟩
  refine ⟨fun g hg => ?_, hlater.rows hheld, hlater.retries, hbefore.rows_eq, hnodup⟩
  obtain ⟨haddress, hcovers⟩ := hheld g hg
  have hretains := hlater.heads g.head haddress
  exact ⟨fun ordinal => hretains.columnView hcovers ordinal,
    fun row => hretains.metadataOf hcovers row⟩

/-- The calls that append one row of the sample at a sequence. -/
def sampleAppend (batchId : Identifier) (value : UInt8) (sequence : ℕ) : List TabletAction :=
  [.prepare none ⟨1, batchId⟩ ⟨sampleSchema.tableId, sampleTablet, sequence⟩
      (sampleBatch value),
    .markWalStarted, .publish (.wal ⟨Vector.replicate 16 1⟩ sequence)]

/-- A row, a second one, which seals the head of the first one, and the retirement of that head. -/
def retireSample : List TabletAction :=
  sampleAppend 1 5 1 ++ sampleAppend 2 6 2 ++ [.retire ⟨sampleSchema.tableId, sampleTablet,
    sampleSchema.schemaId, 1, 1, 1, ⟨Vector.replicate 16 1⟩, 1, 1⟩]

/-- After the retirement of the first row a snapshot shows the second row alone, and it keeps
showing it when a third row is published. -/
theorem sample_snapshot_stable :
    let before := (TabletRun.start sampleState).run retireSample
    let after := before.run (sampleAppend 3 7 3)
    before.retired = [1] ∧ before.live.map (·.generation) = [2] ∧
      after.live.map (·.generation) = [2, 3] ∧
      before.state.publication.rows after.state.heads
        = before.state.publication.rows before.state.heads ∧
      before.state.publication.rows before.state.heads
        = before.live.flatMap PublishedBatch.rows :=
  have h := tablet_snapshots_stable_and_complete sampleState_created retireSample
    (sampleAppend 3 7 3)
  ⟨by decide +kernel, by decide +kernel, by decide +kernel, h.2.1, h.2.2.2.1⟩

end Chronos.Ingest
