import Chronos.Common.Runs
import Chronos.Ingest.Snapshots

/-!
Deduplication keys over the whole life of a tablet.

The check of an append reads the generations that are still in memory.  A row of a
retired generation is only in a flushed part, and the check does not see it.

* `retired_key_accepted`: a key of a retired row is accepted again.
* `keys_unique_of_no_retired_key`: if no published batch has the key of a row that is
  retired by then, no two published rows have the same key.
-/

namespace Chronos.Ingest

open Schema Columnar Head List TabletState

variable {state : TabletState}

/-- A call keeps the first schema of the tablet. -/
lemma TabletRun.step_initial (run : TabletRun) (action : TabletAction) :
    (run.step action).state.lineage.initial = run.state.lineage.initial := by
  obtain ⟨state, handle, _, _⟩ := run
  cases action with
  | registerSchema schema capacity =>
    obtain ⟨status, heq⟩ | ⟨_, -, -, -, hlineage, heq⟩ :=
      registerSchema_cases state schema capacity
    · simp only [step, heq]
    · simp only [step, heq]
      exact SchemaLineage.append_initial hlineage
  | prepare queue retryIdentity mutation batch =>
    obtain ⟨status, state', _, heq, rfl | ⟨head, hhead, rfl⟩⟩ |
      ⟨index, _, ⟨-, _, heq⟩ | ⟨head, _, _, heq⟩⟩ :=
      prepare_cases state queue retryIdentity mutation batch <;>
    simp only [step, heq] <;>
    rfl
  | markWalStarted =>
    cases handle with
    | none => rfl
    | some prepared => simp only [step, (Control.markWalStarted state prepared).lineage]
  | publish position =>
    cases handle with
    | none => rfl
    | some prepared =>
      obtain ⟨_, state', heq, rfl | ⟨_, _, rfl⟩⟩ | ⟨-, -, -, -, -, heq⟩ :=
        publish_cases state prepared position <;>
      simp only [step, heq] <;>
      rfl
  | cancelBeforeWal =>
    cases handle with
    | none => rfl
    | some prepared =>
      have hcontrol := TabletState.Control.cancelBeforeWal state prepared
      rcases heq : state.cancelBeforeWal prepared with ⟨_ | _, _⟩ <;> rw [heq] at hcontrol <;>
        simp only [step, heq] <;>
        exact congrArg _ hcontrol.lineage
  | abandon =>
    cases handle with
    | none => rfl
    | some prepared => simp only [step, (Control.abandon state prepared).lineage]
  | retire receipt =>
    rw [step]
    obtain ⟨_, heq⟩ | ⟨-, -, heq⟩ | ⟨_, _, -, -, -, -, -, heq⟩ := retire_cases state receipt <;>
    simp only [heq]

/-- The rows of a published batch, each with its schema. -/
def PublishedBatch.keyed (published : PublishedBatch) : List (TableSchema × HeadRow) :=
  published.rows.map fun row => (published.batch.schema, row)

namespace TabletRun

/-- All rows ever published, each with its schema, in publish order. -/
def allRows (run : TabletRun) : List (TableSchema × HeadRow) :=
  run.published.flatMap PublishedBatch.keyed

/-- The rows that are only in flushed parts. -/
def retiredRows (run : TabletRun) : List (TableSchema × HeadRow) :=
  (run.published.filter fun b => b.generation ∈ run.retired).flatMap PublishedBatch.keyed

/-- A batch that a call publishes, for its append is still prepared and its position is accepted,
has no key of a retired row. -/
def AvoidsRetired (run : TabletRun) : TabletAction → Prop
  | .publish position => ∀ prepared ∈ run.handle, run.state.ownsAppend prepared = true →
      validatePosition position prepared.base = .ok () →
      NoConflict prepared.headAppend.batch run.retiredRows
  | _ => True

instance (run : TabletRun) (action : TabletAction) : Decidable (run.AvoidsRetired action) := by
  unfold AvoidsRetired NoConflict
  split <;> infer_instance

/-- No two rows ever published have logically equal values in all columns of the key. -/
def KeysUnique (run : TabletRun) : Prop :=
  run.allRows.Pairwise fun older newer =>
    ¬ KeysEqual newer.1 older.1 newer.2.cells older.2.cells

instance (run : TabletRun) : Decidable run.KeysUnique :=
  inferInstanceAs (Decidable (List.Pairwise _ _))

/-- Only a publication changes what was published. -/
lemma step_published (run : TabletRun) (action : TabletAction) :
    (run.step action).published = run.published ∨
      ∃ prepared position, action = .publish position ∧ run.handle = some prepared ∧
        run.state.ownsAppend prepared = true ∧
        validatePosition position prepared.base = .ok () ∧
        (run.step action).published = run.published ++
          [⟨prepared.base.activeGeneration.generation, prepared.headAppend.batch, position⟩] := by
  obtain ⟨state, handle, _, _⟩ := run
  cases action with
  | registerSchema schema capacity => exact .inl rfl
  | retire receipt =>
    rw [step]
    cases state.retireSealedGeneration receipt with
    | mk result rest => cases result <;> exact .inl rfl
  | prepare queue retryIdentity mutation batch =>
    rw [step]
    cases state.prepare queue retryIdentity mutation batch with
    | mk result rest => cases result <;> exact .inl rfl
  | markWalStarted | abandon => cases handle <;> exact .inl rfl
  | publish position =>
    cases handle with
    | none => exact .inl rfl
    | some prepared =>
      obtain ⟨_, state', heq, -⟩ | ⟨howns, -, hposition, -, -, heq⟩ :=
        publish_cases state prepared position
      · simp only [step, heq]
        exact .inl trivial
      · simp only [step, heq]
        exact .inr ⟨prepared, position, rfl, rfl, howns, hposition, rfl⟩
  | cancelBeforeWal =>
    cases handle with
    | none => exact .inl rfl
    | some prepared =>
      rcases heq : state.cancelBeforeWal prepared with ⟨_ | _, _⟩ <;> simp only [step, heq] <;>
        exact .inl trivial

end TabletRun

variable {prepared : PreparedTabletAppend}

/-- The schema of an owned append is one of the lineage. -/
lemma OwnedSound.schema_mem (hsound : TabletSound state) (howned : OwnedSound state prepared) :
    prepared.headAppend.batch.schema ∈ state.lineage.schemas := by
  have hactive := hsound.activeSchema
  rw [← hsound.lineage, howned.reservation.schema, mem_iff_getElem?]
  refine ⟨state.activeSchemaIndex, ?_⟩
  rw [getElem?_map, hactive, hsound.active_eq]
  rfl

/-- The batch of an owned append has no duplicate of its own and no key of a shown row. -/
lemma OwnedSound.unique (hsound : TabletSound state) (howned : OwnedSound state prepared)
    (hkey : state.lineage.initial.roles.deduplicationKey ≠ []) :
    uniqueKeys prepared.headAppend.batch = .ok () ∧ NoConflict prepared.headAppend.batch
      (shownRows (state.publication.generations.map state.generationOf)) := by
  refine howned.distinct.resolve_left fun hempty => hkey ?_
  rcases mem_cons.1 (howned.schema_mem hsound) with heq | hmem
  · rw [← heq, hempty]
  · rw [← ((pairwise_cons.1 hsound.ordered).1 _ hmem).roles, hempty]

/-- A batch without a duplicate of its own has rows with different keys. -/
lemma keyed_pairwise {published : PublishedBatch} (hok : uniqueKeys published.batch = .ok ()) :
    published.keyed.Pairwise fun older newer =>
      ¬ KeysEqual newer.1 older.1 newer.2.cells older.2.cells := by
  rw [PublishedBatch.keyed, PublishedBatch.rows, batchRows, pairwise_map, pairwise_map]
  refine List.Pairwise.imp_of_mem ?_ pairwise_lt_range
  intro _ _ ha hb hlt
  exact uniqueKeys_distinct hok (mem_range.1 hb) (mem_range.1 ha) hlt.ne'

variable {run : TabletRun}

/-- A batch that has no key of the shown rows and none of the retired rows has no key of a row
ever published. -/
lemma RunSound.noConflict (hrun : RunSound run) {batch : ColumnarBatch}
    (hshown :
      NoConflict batch (shownRows (run.state.publication.generations.map run.state.generationOf)))
    (hretired : NoConflict batch run.retiredRows) : NoConflict batch run.allRows := by
  intro keyed hkeyed
  obtain ⟨b, hb, hrow⟩ := mem_flatMap.1 hkeyed
  rcases hrun.accounted b hb with hgone | ⟨g, hg, heq⟩
  · refine hretired keyed (mem_flatMap.2 ⟨b, mem_filter.2 ⟨hb, ?_⟩, hrow⟩)
    exact decide_eq_true hgone
  · obtain ⟨row, hmem, rfl⟩ := mem_map.1 hrow
    refine hshown _ (mem_flatMap.2 ⟨run.state.generationOf g, mem_map_of_mem hg,
      mem_map.2 ⟨row, ?_, ?_⟩⟩)
    · show row ∈ generationRows run.state.heads g
      rw [hrun.rows g hg]
      exact mem_flatMap.2 ⟨b, mem_filter.2 ⟨hb, by simpa using heq.symm⟩, hmem⟩
    · have hschema : (run.state.heads g.head).schema = g.schema := by
        conv_rhs => rw [(hrun.sound.current g hg).2]
        rfl
      show ((run.state.heads g.head).schema, row) = _
      rw [hschema, hrun.schemas b hb g hg heq]

/-- One call that publishes no key of a retired row keeps the keys unique. -/
lemma RunSound.step_keysUnique (hrun : RunSound run) {action : TabletAction}
    (hkey : run.state.lineage.initial.roles.deduplicationKey ≠ [])
    (havoids : run.AvoidsRetired action) (hunique : run.KeysUnique) :
    (run.step action).KeysUnique := by
  rw [TabletRun.KeysUnique, TabletRun.allRows]
  obtain hsame | ⟨prepared, _, rfl, hhandle, howns, hposition, hpublished⟩ :=
    run.step_published action
  · rw [hsame]
    exact hunique
  · have howned : OwnedSound run.state prepared := by
      have hsound := hrun.handle
      rw [hhandle] at hsound
      exact hsound.1 howns
    obtain ⟨hself, hshown⟩ := howned.unique hrun.sound hkey
    have hall := hrun.noConflict hshown (havoids prepared hhandle howns hposition)
    rw [hpublished, flatMap_append, flatMap_singleton]
    refine pairwise_append.2 ⟨hunique, keyed_pairwise hself, fun older holder newer hnewer => ?_⟩
    obtain ⟨_, hrow, rfl⟩ := mem_map.1 hnewer
    obtain ⟨i, hi, rfl⟩ := mem_map.1 hrow
    exact hall older holder i (mem_range.1 hi)

/-- The first schema of a new tablet. -/
lemma create_initial {schema : TableSchema} {tabletId : TabletId} {config : TabletStateConfig}
    (hcreate : TabletState.create schema tabletId config = .ok state) :
    state.lineage.initial = schema := by
  rw [create] at hcreate
  split at hcreate
  · cases hcreate
  obtain ⟨_, _, hcreate⟩ := Result.bind_eq_ok.1 hcreate
  obtain ⟨_, hlineage, hcreate⟩ := Result.bind_eq_ok.1 hcreate
  cases hcreate
  rw [SchemaLineage.create] at hlineage
  split at hlineage <;> cases hlineage
  rfl

/-- **Deduplication keys are unique** along every run in which no published batch has the key of a
row that was retired before. -/
theorem keys_unique_of_no_retired_key {schema : TableSchema} {tabletId : TabletId}
    {config : TabletStateConfig} {state : TabletState}
    (hcreate : TabletState.create schema tabletId config = .ok state)
    (hkey : schema.roles.deduplicationKey ≠ []) (actions : List TabletAction)
    (havoids : Runs.Along TabletRun.step TabletRun.AvoidsRetired (.start state) actions) :
    ((TabletRun.start state).run actions).KeysUnique := by
  refine (havoids.invariant (fun run => RunSound run ∧ run.state.lineage.initial = schema ∧
    run.KeysUnique) ?_ ⟨.start hcreate, create_initial hcreate, .nil⟩).2.2
  rintro run action ⟨hrun, hinitial, hunique⟩ havoids
  exact ⟨(hrun.step action).1, (run.step_initial action).trans hinitial,
    hrun.step_keysUnique (hinitial ▸ hkey) havoids hunique⟩

/-- After the retirement of the key 5 another key is accepted and all keys are unique. -/
theorem sample_keys_unique :
    let run := (TabletRun.start sampleState).run (retireSample ++ sampleAppend 3 7 3)
    run.retiredRows.length = 1 ∧ run.allRows.length = 3 ∧ run.KeysUnique :=
  ⟨by decide +kernel, by decide +kernel,
    keys_unique_of_no_retired_key sampleState_created (by decide) _ (by decide +kernel)⟩

/-- **A key is accepted again** once the generation of its row is retired: the sample then holds
two published rows with the same key. -/
theorem retired_key_accepted :
    TabletState.create sampleSchema sampleTablet sampleConfig = .ok sampleState ∧
      ¬ ((TabletRun.start sampleState).run
        (retireSample ++ sampleAppend 3 5 3)).KeysUnique :=
  ⟨rfl, by decide +kernel⟩

end Chronos.Ingest
