import Chronos.Ingest.TabletSound

/-!
Whole runs of one tablet.

* `TabletAction`, `TabletRun`: any sequence of calls on one tablet and on the append
  it has prepared, with a record of the published batches and the retired
  generations.
* `RunSound`: the invariant of runs, which says what the current publication shows.
* `Later`: what later calls keep of a state.
-/

namespace Chronos.Ingest

open Schema Columnar Head List TabletState

/-! ### Runs -/

/-- A call on a tablet or on the append it has prepared. -/
inductive TabletAction where
  | registerSchema (schema : TableSchema) (capacity : MutableHeadCapacity)
  | prepare (queue : Option FlushQueue) (retryIdentity : RetryIdentity)
      (mutation : MutationIdentity) (batch : ColumnarBatch)
  | markWalStarted
  | publish (position : HeadCommitPosition)
  | cancelBeforeWal
  | abandon
  | retire (receipt : RetirementReceipt)

/-- A batch that was published, with the generation it went to and its position. -/
structure PublishedBatch where
  generation : ℕ
  batch : ColumnarBatch
  position : HeadCommitPosition

/-- The rows of a published batch. -/
def PublishedBatch.rows (published : PublishedBatch) : List HeadRow :=
  batchRows published.batch published.position

/-- A tablet with the owner of its prepared append, all batches published so far and all
generations retired so far.  The owner is gone once its append is published, cancelled or
abandoned. -/
structure TabletRun where
  state : TabletState
  handle : Option PreparedTabletAppend
  published : List PublishedBatch
  retired : List ℕ

namespace TabletRun

/-- A tablet that was just created. -/
def start (state : TabletState) : TabletRun := ⟨state, none, [], []⟩

/-- One call. -/
def step (run : TabletRun) (action : TabletAction) : TabletRun :=
  match action with
  | .registerSchema schema capacity =>
    { run with state := (run.state.registerSchema schema capacity).2 }
  | .prepare queue retryIdentity mutation batch =>
    match run.state.prepare queue retryIdentity mutation batch with
    | (.ok prepared, state, _) => { run with state := state, handle := some prepared }
    | (.error _, state, _) => { run with state := state }
  | .markWalStarted =>
    match run.handle with
    | none => run
    | some prepared => { run with state := (run.state.markWalStarted prepared).2 }
  | .publish position =>
    match run.handle with
    | none => run
    | some prepared =>
      match run.state.publish prepared position with
      | (.ok _, state) =>
        { run with
          state := state
          handle := none
          published := run.published ++
            [⟨prepared.base.activeGeneration.generation, prepared.headAppend.batch, position⟩] }
      | (.error _, state) => { run with state := state }
  | .cancelBeforeWal =>
    match run.handle with
    | none => run
    | some prepared =>
      match run.state.cancelBeforeWal prepared with
      | (.ok _, state) => { run with state := state, handle := none }
      | (.error _, state) => { run with state := state }
  | .abandon =>
    match run.handle with
    | none => run
    | some prepared => { run with state := run.state.abandon prepared, handle := none }
  | .retire receipt =>
    match run.state.retireSealedGeneration receipt with
    | (.ok _, state) =>
      { run with state := state, retired := run.retired ++ [receipt.headGeneration] }
    | (.error _, state) => { run with state := state }

/-- A sequence of calls. -/
def run (start : TabletRun) (actions : List TabletAction) : TabletRun := actions.foldl step start

/-- The batches that were published and not retired. -/
def live (run : TabletRun) : List PublishedBatch :=
  run.published.filter fun published => published.generation ∉ run.retired

end TabletRun

/-! ### The prepared append -/

/-- The active head of a tablet takes an append. -/
structure Ready (state : TabletState) : Prop where
  inactive : state.appendActive = false
  headFailed : (state.heads state.activeHead).failed = false
  headSealed : (state.heads state.activeHead).isSealed = false
  headInactive : (state.heads state.activeHead).appendActive = false

/-- The tablet and its active head know of a prepared append, and in the same phase. -/
structure Armed (state : TabletState) (prepared : PreparedTabletAppend) : Prop where
  owns : state.ownsAppend prepared = true
  headActive : (state.heads state.activeHead).appendActive = true
  headToken : (state.heads state.activeHead).activeToken = prepared.headAppend.token
  headPhase : (state.heads state.activeHead).activePhase = state.activePhase
  headFailed : (state.heads state.activeHead).failed = false
  headSealed : (state.heads state.activeHead).isSealed = false

/-- The invariant of the owner of a prepared append: what the tablet owns is sound, and a tablet
that has not failed owns it. -/
def HandleSound (state : TabletState) : Option PreparedTabletAppend → Prop
  | none => state.failed = false → Ready state
  | some prepared =>
    (state.ownsAppend prepared = true → OwnedSound state prepared) ∧
      (state.failed = false → Armed state prepared)

section Handle

variable {state : TabletState} {prepared : PreparedTabletAppend}

/-- A failed tablet with a prepared append that it does not own. -/
lemma HandleSound.of_failed (hfailed : state.failed = true)
    (howns : state.ownsAppend prepared = true → OwnedSound state prepared) :
    HandleSound state (some prepared) :=
  ⟨howns, fun h => by rw [hfailed] at h; cases h⟩

section

variable (h : HandleSound state (some prepared))
include h

/-- Marking keeps the owner sound. -/
lemma HandleSound.markWalStarted :
    HandleSound (state.markWalStarted prepared).2 (some prepared) := by
  have hcontrol := TabletState.Control.markWalStarted state prepared
  by_cases howns : state.ownsAppend prepared = true
  · have howned := h.1 howns
    refine ⟨fun _ => howned.control hcontrol, ?_⟩
    rw [TabletState.markWalStarted, howned.address]
    simp only [howns, Bool.not_true, Bool.false_eq_true, if_false]
    split
    · exact h.2
    split
    · exact h.2
    rename_i hphase hstate
    have harmed := h.2 (by simpa using hstate)
    obtain ⟨_, hmark⟩ | ⟨-, hmark⟩ :=
      markWalStarted_cases (state.heads state.activeHead) prepared.headAppend.token
    · simp only [hmark]
      exact fun hfailed => by cases hfailed
    · simp only [hmark]
      refine fun _ => ⟨howns, ?_, ?_, ?_, ?_, ?_⟩ <;>
        simp [TabletState.setHead, harmed.headActive, harmed.headToken, harmed.headFailed,
          harmed.headSealed]
  · have hsame : (state.markWalStarted prepared).2 = state := by
      simp [TabletState.markWalStarted, howns]
    rw [hsame]
    exact h

/-- A cancelled append leaves a tablet that takes the next one. -/
lemma HandleSound.cancelBeforeWal :
    (∃ status, state.cancelBeforeWal prepared = (.error status, state)) ∨
      ∃ state', state.cancelBeforeWal prepared = (.ok (), state') ∧ HandleSound state' none := by
  rw [TabletState.cancelBeforeWal]
  split
  · exact .inl ⟨_, rfl⟩
  split
  · exact .inl ⟨_, rfl⟩
  rename_i howns _
  have howned := h.1 (by simpa using howns)
  rw [howned.address]
  obtain ⟨_, hcancel⟩ | hcancel :=
    cancelBeforeWal_cases (state.heads state.activeHead) prepared.headAppend.token
  · simp only [hcancel, setHead_self]
    exact .inl ⟨_, rfl⟩
  · simp only [hcancel]
    refine .inr ⟨_, rfl, fun hfailed => ?_⟩
    have harmed := h.2 hfailed
    refine ⟨rfl, ?_, ?_, ?_⟩ <;> simp [TabletState.setHead, harmed.headFailed, harmed.headSealed]

/-- An abandoned append leaves a tablet that takes the next one, or a failed one. -/
lemma HandleSound.abandon :
    HandleSound (state.abandon prepared) none := by
  intro hfailed
  have htoken : (state.abandon prepared).failed = (state.abandonToken prepared).failed := rfl
  rw [htoken, TabletState.abandonToken] at hfailed
  by_cases howns : state.ownsAppend prepared = true
  · simp only [howns, Bool.not_true, Bool.false_eq_true, if_false] at hfailed
    have howned := h.1 howns
    have hphase : state.activePhase ≠ .walStarted := by
      intro hphase
      rw [if_pos hphase] at hfailed
      cases hfailed
    rw [if_neg hphase] at hfailed
    have harmed := h.2 hfailed
    have hhead : (state.heads state.activeHead).abandon prepared.headAppend.token
        = { state.heads state.activeHead with appendActive := false } := by
      rw [MutableHeadState.abandon, if_neg (by simp [harmed.headActive, harmed.headToken]),
        if_neg (by rw [harmed.headPhase]; exact hphase)]
    simp only [TabletState.abandon, TabletState.abandonToken, howns, Bool.not_true,
      Bool.false_eq_true, if_false, hphase, howned.address]
    refine ⟨rfl, ?_, ?_, ?_⟩ <;>
      simp [TabletState.setHead, hhead, harmed.headFailed, harmed.headSealed]
  · simp only [howns, Bool.not_false, if_true] at hfailed
    exact absurd (h.2 hfailed).owns howns

/-- After a publication the tablet takes the next append. -/
lemma HandleSound.afterPublish {position : HeadCommitPosition}
    (howned : OwnedSound state prepared) :
    HandleSound (state.afterPublish prepared position) none := by
  intro hfailed
  have harmed := h.2 hfailed
  have hhead : (state.afterPublish prepared position).heads state.activeHead = _ :=
    afterPublish_heads_active howned
  refine ⟨rfl, ?_, ?_, ?_⟩
  · show ((state.afterPublish prepared position).heads state.activeHead).failed = false
    rw [hhead]
    exact harmed.headFailed
  · show ((state.afterPublish prepared position).heads state.activeHead).isSealed = false
    rw [hhead]
    exact harmed.headSealed
  · show ((state.afterPublish prepared position).heads state.activeHead).appendActive = false
    rw [hhead]
    rfl

end

variable {retryIdentity : RetryIdentity} {mutation : MutationIdentity} {batch : ColumnarBatch}
  {index : ℕ}

section

variable (hsound : TabletSound state)
  (hadmitted : state.Admitted retryIdentity mutation batch index)
include hsound hadmitted

/-- An append that is prepared in the active head is armed. -/
lemma HandleSound.preparedActive
    (hchecked : (state.heads state.activeHead).checkAppend batch = .ok ()) :
    HandleSound state.preparedActive (some (state.prepared state.publication state.activeHead
      ((state.heads state.activeHead).reservation batch) retryIdentity mutation batch)) := by
  have hhead := AppendChecked.of_checkAppend hchecked
  refine ⟨fun _ => .preparedActive hsound hadmitted hchecked, fun _ => ⟨?_, ?_, ?_, ?_, ?_, ?_⟩⟩ <;>
    simp [TabletState.preparedActive, TabletState.activate, TabletState.setHead,
      TabletState.ownsAppend, TabletState.prepared, MutableHeadState.reserved,
      MutableHeadState.reservation, hhead.failed, hhead.unsealed]

/-- An append that is prepared with a rotation is armed. -/
lemma HandleSound.preparedRotated {head : MutableHeadState}
    (hrotates : state.Rotates index batch head) :
    HandleSound (state.preparedRotated index head) (some (state.prepared (state.topology head)
      state.headCount (head.reservation batch) retryIdentity mutation batch)) := by
  have hhead := AppendChecked.of_checkAppend hrotates.checked
  refine ⟨fun _ => .preparedRotated hsound hadmitted hrotates,
    fun _ => ⟨?_, ?_, ?_, ?_, ?_, ?_⟩⟩ <;>
    simp [TabletState.preparedRotated, TabletState.rotated, TabletState.activate,
      TabletState.ownsAppend, TabletState.prepared, MutableHeadState.reserved,
      MutableHeadState.reservation, hhead.failed, hhead.unsealed]

end

end Handle

/-! ### What later states retain -/

/-- What a reader finds in one state it finds in a later one: the rows at every boundary and the
retry outcomes. -/
structure Later (state state' : TabletState) : Prop extends HeadsRetain state state' where
  retries : ∀ identity outcome, state.publication.retryOutcome identity = some outcome →
    state'.publication.retryOutcome identity = some outcome

namespace Later

variable {state state' state'' : TabletState}

lemma refl (state : TabletState) : Later state state := ⟨.refl state, fun _ _ h => h⟩

lemma trans (h : Later state state') (h' : Later state' state'') : Later state state'' :=
  ⟨h.toHeadsRetain.trans h'.toHeadsRetain,
    fun identity outcome hlookup => h'.retries _ _ (h.retries identity outcome hlookup)⟩

lemma of_retries (h : HeadsRetain state state')
    (hretries : state'.publication.retries = state.publication.retries) : Later state state' :=
  ⟨h, fun _ _ hlookup => by
    rw [TabletPublication.retryOutcome, hretries]
    exact hlookup⟩

lemma control (h : state.Control state') : Later state state' :=
  .of_retries (.control h) (by rw [h.publication])

lemma preparedRotated {index : ℕ} {head : MutableHeadState} :
    Later state (state.preparedRotated index head) :=
  .of_retries .preparedRotated rfl

lemma afterPublish {prepared : PreparedTabletAppend} {position : HeadCommitPosition}
    (hsound : TabletSound state) (howned : OwnedSound state prepared) :
    Later state (state.afterPublish prepared position) := by
  refine ⟨.afterPublish hsound howned, fun identity outcome hlookup => ?_⟩
  have hne : identity ≠ prepared.retryIdentity := by
    rintro rfl
    rw [TabletPublication.retryOutcome, howned.fresh] at hlookup
    cases hlookup
  have hretries : (state.afterPublish prepared position).publication.retries
      = state.publication.retries.insert prepared.retryIdentity
        (.at prepared.outcome.mutation prepared.outcome.appliedRowCount position) := by
    rw [← howned.base]
    rfl
  rw [TabletPublication.retryOutcome, hretries, AList.lookup_insert_ne hne]
  exact hlookup

end Later

/-! ### Rows by generation -/

/-- A list that is sorted by a key is the concatenation of its parts of each key. -/
lemma flatMap_filter_sorted {β : Type} (key : β → ℕ) : ∀ (keys : List ℕ) (l : List β),
    keys.Pairwise (· < ·) → l.Pairwise (key · ≤ key ·) → (∀ b ∈ l, key b ∈ keys) →
    keys.flatMap (fun k => l.filter fun b => key b = k) = l := by
  intro keys
  induction keys with
  | nil =>
    intro l _ _ hmem
    rw [eq_nil_iff_forall_not_mem.2 fun b hb => not_mem_nil (hmem b hb)]
    rfl
  | cons k keys ih =>
    intro l hkeys hl hmem
    obtain ⟨hlt, hkeys⟩ := pairwise_cons.1 hkeys
    -- the parts of the first key stand first
    have hsplit : l.filter (fun b => key b = k) ++ l.filter (fun b => key b ≠ k) = l := by
      clear ih
      induction l with
      | nil => rfl
      | cons b l ihl =>
        obtain ⟨hle, hl⟩ := pairwise_cons.1 hl
        by_cases hb : key b = k
        · rw [filter_cons_of_pos (by simpa using hb), filter_cons_of_neg (by simpa using hb),
            cons_append, ihl hl fun c hc => hmem c (mem_cons_of_mem _ hc)]
        · have hbk : k < key b := by
            rcases mem_cons.1 (hmem b (by simp)) with h | h
            · exact absurd h hb
            · exact hlt _ h
          have hnone : (b :: l).filter (fun c => key c = k) = [] := by
            refine filter_eq_nil_iff.2 fun c hc => ?_
            rcases mem_cons.1 hc with rfl | hc
            · simpa using hb
            · have := hle c hc
              simp only [decide_eq_true_eq]
              omega
          rw [hnone, nil_append]
          refine filter_eq_self.2 fun c hc => ?_
          have hc' := filter_eq_nil_iff.1 hnone c hc
          simpa using hc'
    have hrest := ih (l.filter fun b => key b ≠ k) hkeys (hl.sublist filter_sublist) (by
      intro b hb
      obtain ⟨hb, hne⟩ := mem_filter.1 hb
      rcases mem_cons.1 (hmem b hb) with h | h
      · simp [h] at hne
      · exact h)
    rw [flatMap_cons]
    conv_rhs => rw [← hsplit, ← hrest]
    congr 1
    refine flatMap_congr fun k' hk' => ?_
    rw [filter_filter]
    refine filter_congr fun b _ => ?_
    have hne : k' ≠ k := (hlt k' hk').ne'
    by_cases hb : key b = k'
    · simp [hb, hne]
    · simp [hb]

/-! ### The invariant of runs -/

/-- The batches published in a generation. -/
def publishedIn (published : List PublishedBatch) (generation : ℕ) : List PublishedBatch :=
  published.filter fun batch => batch.generation = generation

/-- The invariant of runs. -/
structure RunSound (run : TabletRun) : Prop where
  sound : TabletSound run.state
  handle : HandleSound run.state run.handle
  rows : ∀ g ∈ run.state.publication.generations, generationRows run.state.heads g
    = (publishedIn run.published g.generation).flatMap PublishedBatch.rows
  sorted : run.published.Pairwise fun b b' => b.generation ≤ b'.generation
  generation_le : ∀ b ∈ run.published,
    b.generation ≤ run.state.publication.activeGeneration.generation
  accounted : ∀ b ∈ run.published, b.generation ∈ run.retired ∨
    ∃ g ∈ run.state.publication.generations, g.generation = b.generation
  retired : ∀ g ∈ run.state.publication.generations, g.generation ∉ run.retired
  retired_lt : ∀ generation ∈ run.retired,
    generation < run.state.publication.activeGeneration.generation
  positions : run.published.Pairwise fun b b' =>
    b.position.recordSequence < b'.position.recordSequence
  applied : ∀ b ∈ run.published, ∃ applied, run.state.publication.appliedPosition = some applied ∧
    b.position.recordSequence ≤ applied.recordSequence
  schemas : ∀ b ∈ run.published, ∀ g ∈ run.state.publication.generations,
    g.generation = b.generation → g.schema = b.batch.schema

/-- An accepted position is above the applied one. -/
lemma validatePosition_advances {position applied : HeadCommitPosition} {base : TabletPublication}
    (hok : validatePosition position base = .ok ())
    (happlied : base.appliedPosition = some applied) :
    applied.recordSequence < position.recordSequence := by
  rw [TabletState.validatePosition] at hok
  split at hok
  · cases hok
  rw [happlied] at hok
  dsimp only at hok
  split at hok
  · cases hok
  rename_i hadvances
  exact not_le.1 fun h => hadvances (.inr h)

namespace RunSound

variable {run : TabletRun} {state : TabletState}

/-- A tablet that was just created. -/
lemma start {schema : TableSchema} {tabletId : TabletId} {config : TabletStateConfig}
    (hcreate : create schema tabletId config = .ok state) : RunSound (TabletRun.start state) := by
  have hsound := TabletSound.create hcreate
  rw [create] at hcreate
  split at hcreate
  · cases hcreate
  obtain ⟨_, hhead, hcreate⟩ := Result.bind_eq_ok.1 hcreate
  obtain ⟨_, _, hcreate⟩ := Result.bind_eq_ok.1 hcreate
  cases hcreate
  obtain ⟨_, _, hhead⟩ := Result.bind_eq_ok.1 hhead
  cases hhead
  refine ⟨hsound, fun _ => ⟨rfl, rfl, rfl, rfl⟩, fun g hg => ?_, .nil,
    fun b hb => absurd hb not_mem_nil, fun b hb => absurd hb not_mem_nil,
    fun g _ => not_mem_nil, fun _ hg => absurd hg not_mem_nil, .nil,
    fun b hb => absurd hb not_mem_nil, fun _ hb => absurd hb not_mem_nil⟩
  rw [mem_singleton.1 hg, generationRows, rows_of_empty rfl]
  rfl

/-- Only control fields and the owner changed. -/
lemma control (hrun : RunSound run) {handle : Option PreparedTabletAppend}
    (hcontrol : run.state.Control state) (hhandle : HandleSound state handle) :
    RunSound { run with state := state, handle := handle } where
  __ := hrun
  sound := hrun.sound.control hcontrol
  handle := hhandle
  rows g hg := by
    rw [hcontrol.publication] at hg
    rw [generationRows, (hcontrol.heads g.head).rows]
    exact hrun.rows g hg
  generation_le := by rw [hcontrol.publication]; exact hrun.generation_le
  accounted := by rw [hcontrol.publication]; exact hrun.accounted
  retired := by rw [hcontrol.publication]; exact hrun.retired
  retired_lt := by rw [hcontrol.publication]; exact hrun.retired_lt
  applied := by rw [hcontrol.publication]; exact hrun.applied
  schemas := by rw [hcontrol.publication]; exact hrun.schemas

/-- A generation without rows holds no published batch. -/
lemma publishedIn_of_empty (hrun : RunSound run) {g : HeadSnapshot}
    (hg : g ∈ run.state.publication.generations) (hempty : g.rowCount = 0) :
    ∀ b ∈ run.published, b.generation ≠ g.generation := by
  intro b hb heq
  have hrows := hrun.rows g hg
  rw [generationRows, rows_of_empty hempty] at hrows
  have hmem : b ∈ publishedIn run.published g.generation :=
    mem_filter.2 ⟨hb, by simpa using heq⟩
  have hnil := flatMap_eq_nil_iff.1 hrows.symm b hmem
  have hpos := b.batch.rowCount_pos
  rw [PublishedBatch.rows, batchRows, map_eq_nil_iff, range_eq_nil] at hnil
  omega

variable {index : ℕ}

section

variable (hrun : RunSound run)
include hrun

/-- A rotation keeps a run sound. -/
lemma preparedRotated {retryIdentity : RetryIdentity} {mutation : MutationIdentity}
    {batch : ColumnarBatch} {head : MutableHeadState}
    (hadmitted : run.state.Admitted retryIdentity mutation batch index)
    (hrotates : run.state.Rotates index batch head) :
    RunSound { run with
      state := run.state.preparedRotated index head
      handle := some (run.state.prepared (run.state.topology head) run.state.headCount
        (head.reservation batch) retryIdentity mutation batch) } := by
  obtain ⟨_, _, _, _, hgeneration, hempty, _⟩ := rotates_head hrotates
  have hactive : ((run.state.preparedRotated index head).publication.activeGeneration).generation
      = run.state.publication.activeGeneration.generation + 1 := hgeneration
  refine ⟨hrun.sound.preparedRotated hadmitted hrotates,
    .preparedRotated hrun.sound hadmitted hrotates, fun g hg => ?_, hrun.sorted, fun b hb => ?_,
    fun b hb => ?_, fun g hg => ?_, fun r hr => ?_, hrun.positions, hrun.applied,
    fun b hb g hg heq => ?_⟩
  · rw [preparedRotated_generations] at hg
    rcases mem_append.1 hg with hg | hg
    · have hold := topology_generations_mem hg
      rw [generationRows, (preparedRotated_heads_of_ne index head g.head
        (hrun.sound.current g hold).1.ne).rows]
      exact hrun.rows g hold
    · rw [mem_singleton.1 hg, generationRows, rows_of_empty
        (show (head.snapshot run.state.headCount).publication.rowCount = 0 from hempty)]
      have hnone : publishedIn run.published
          (head.snapshot run.state.headCount).generation = [] := by
        refine filter_eq_nil_iff.2 fun b hb => ?_
        have hle := hrun.generation_le b hb
        have hnew : (head.snapshot run.state.headCount).generation
            = run.state.publication.activeGeneration.generation + 1 := hgeneration
        simp only [decide_eq_true_eq]
        omega
      rw [hnone]
      rfl
  · have hle := hrun.generation_le b hb
    rw [hactive]
    omega
  · rcases hrun.accounted b hb with hretired | ⟨g, hg, heq⟩
    · exact .inl hretired
    · refine .inr ⟨g, ?_, heq⟩
      rw [preparedRotated_generations, topology]
      refine mem_append_left _ ?_
      dsimp only
      split_ifs with hretain
      · exact hg
      · rcases mem_append.1 hg with hg | hg
        · exact hg
        · rw [mem_singleton.1 hg] at heq
          exact absurd heq.symm (hrun.publishedIn_of_empty (active_mem _)
            (not_not.1 fun h => hretain (decide_eq_true h)) b hb)
  · rw [preparedRotated_generations] at hg
    rcases mem_append.1 hg with hg | hg
    · exact hrun.retired g (topology_generations_mem hg)
    · intro hmem
      have hlt := hrun.retired_lt _ hmem
      rw [mem_singleton.1 hg] at hlt
      have hnew : (head.snapshot run.state.headCount).generation
          = run.state.publication.activeGeneration.generation + 1 := hgeneration
      omega
  · have hlt := hrun.retired_lt r hr
    show r < _
    rw [hactive]
    omega
  · rw [preparedRotated_generations] at hg
    rcases mem_append.1 hg with hg | hg
    · exact hrun.schemas b hb g (topology_generations_mem hg) heq
    · have hle := hrun.generation_le b hb
      have hnew : (head.snapshot run.state.headCount).generation
          = run.state.publication.activeGeneration.generation + 1 := hgeneration
      rw [mem_singleton.1 hg] at heq
      omega

/-- A published append keeps a run sound. -/
lemma afterPublish {prepared : PreparedTabletAppend} {position : HeadCommitPosition}
    (hhandle : run.handle = some prepared) (howns : run.state.ownsAppend prepared = true)
    (hposition : validatePosition position prepared.base = .ok ()) :
    RunSound { run with
      state := run.state.afterPublish prepared position
      handle := none
      published := run.published ++
        [⟨prepared.base.activeGeneration.generation, prepared.headAppend.batch, position⟩] } := by
  have hsome : HandleSound run.state (some prepared) := hhandle ▸ hrun.handle
  have howned := hsome.1 howns
  have hsound := hrun.sound
  have hbase : prepared.base = run.state.publication := howned.base
  have hgeneration :
      (run.state.afterPublish prepared position).publication.activeGeneration.generation
      = run.state.publication.activeGeneration.generation := by
    rw [afterPublish_active hsound howned, hsound.active_eq]
    rfl
  have hactiveSchema :
      (run.state.afterPublish prepared position).publication.activeGeneration.schema
      = run.state.publication.activeGeneration.schema := by
    rw [afterPublish_active hsound howned, hsound.active_eq]
    rfl
  have hincreasing := (pairwise_append.1 hsound.increasing).2.2
  refine ⟨hsound.afterPublish howned, hsome.afterPublish howned, fun g hg => ?_, ?_, fun b hb => ?_,
    fun b hb => ?_, fun g hg => ?_, fun r hr => ?_, ?_, fun b hb => ?_, fun b hb g hg heq => ?_⟩
  · -- the new batch goes to the active generation
    rw [publishedIn, filter_append, flatMap_append, hbase]
    rcases afterPublish_mem howned hg with hg | rfl
    · rw [generationRows, afterPublish_heads_of_ne hsound howned hg]
      have hlt := hincreasing g hg _ (mem_singleton_self _)
      rw [filter_cons_of_neg (by simpa using hlt.ne'), filter_nil, flatMap_nil, append_nil]
      exact hrun.rows g (sealed_mem hg)
    · rw [afterPublish_activeRows hsound howned, hgeneration, hrun.rows _ (active_mem _),
        filter_cons_of_pos (by simp), filter_nil]
      simp [publishedIn, PublishedBatch.rows]
  · refine pairwise_append.2 ⟨hrun.sorted, pairwise_singleton _ _, fun b hb b' hb' => ?_⟩
    rw [mem_singleton.1 hb', hbase]
    exact hrun.generation_le b hb
  · show b.generation ≤ _
    rw [hgeneration]
    rcases mem_append.1 hb with hb | hb
    · exact hrun.generation_le b hb
    · rw [mem_singleton.1 hb, hbase]
  · have hmem : ∀ g ∈ run.state.publication.generations, ∃ g' ∈
        (run.state.afterPublish prepared position).publication.generations,
        g'.generation = g.generation := by
      intro g hg
      rcases mem_append.1 hg with hg | hg
      · exact ⟨g, mem_append_left _ (by rw [afterPublish_sealed howned]; exact hg), rfl⟩
      · exact ⟨_, active_mem _, by rw [hgeneration, mem_singleton.1 hg]⟩
    rcases mem_append.1 hb with hb | hb
    · rcases hrun.accounted b hb with hretired | ⟨g, hg, heq⟩
      · exact .inl hretired
      · obtain ⟨g', hg', heq'⟩ := hmem g hg
        exact .inr ⟨g', hg', heq'.trans heq⟩
    · rw [mem_singleton.1 hb, hbase]
      exact .inr ⟨_, active_mem _, hgeneration⟩
  · rcases afterPublish_mem howned hg with hg | rfl
    · exact hrun.retired g (sealed_mem hg)
    · rw [hgeneration]
      exact hrun.retired _ (active_mem _)
  · show r < _
    rw [hgeneration]
    exact hrun.retired_lt r hr
  · refine pairwise_append.2 ⟨hrun.positions, pairwise_singleton _ _, fun b hb b' hb' => ?_⟩
    rw [mem_singleton.1 hb']
    obtain ⟨applied, happlied, hle⟩ := hrun.applied b hb
    exact hle.trans_lt (validatePosition_advances hposition (hbase ▸ happlied))
  · refine ⟨position, rfl, ?_⟩
    rcases mem_append.1 hb with hb | hb
    · obtain ⟨applied, happlied, hle⟩ := hrun.applied b hb
      exact hle.trans (validatePosition_advances hposition (hbase ▸ happlied)).le
    · rw [mem_singleton.1 hb]
  · rcases mem_append.1 hb with hb | hb
    · rcases afterPublish_mem howned hg with hg | rfl
      · exact hrun.schemas b hb g (sealed_mem hg) heq
      · rw [hactiveSchema]
        exact hrun.schemas b hb _ (active_mem _) (hgeneration.symm.trans heq)
    · rw [mem_singleton.1 hb] at heq ⊢
      rcases afterPublish_mem howned hg with hg | rfl
      · rw [hbase] at heq
        exact absurd heq (hincreasing g hg _ (mem_singleton_self _)).ne
      · rw [hactiveSchema, hsound.active_eq]
        exact howned.reservation.schema.symm

/-- A retirement keeps a run sound. -/
lemma retire (hhandle : run.state.failed = false) (hinactive : run.state.appendActive = false)
    {found : HeadSnapshot} (hfound : run.state.publication.sealedGenerations[index]? = some found) :
    RunSound { run with
      state := run.state.withoutSealed index
      retired := run.retired ++ [found.generation] } := by
  have hsound := hrun.sound
  have hmem : ∀ g ∈ (run.state.withoutSealed index).publication.generations,
      g ∈ run.state.publication.generations := fun g hg => (withoutSealed_sublist index).subset hg
  have hpairwise := pairwise_append.1 hsound.increasing
  have hfoundMem : found ∈ run.state.publication.sealedGenerations := mem_of_getElem? hfound
  have hlt := hpairwise.2.2 found hfoundMem _ (mem_singleton_self _)
  -- generation numbers are unique, so only the one generation is gone
  have hunique : ∀ g ∈ (run.state.withoutSealed index).publication.generations,
      g.generation ≠ found.generation := by
    intro g hg
    rcases mem_append.1 hg with hg | hg
    · obtain ⟨i, hne, hi⟩ := List.mem_eraseIdx_iff_getElem?.1 hg
      obtain ⟨hi', rfl⟩ := List.getElem?_eq_some_iff.1 hi
      obtain ⟨hindex', rfl⟩ := List.getElem?_eq_some_iff.1 hfound
      rcases Nat.lt_or_gt_of_ne hne with h | h
      · exact (pairwise_iff_getElem.1 hpairwise.1 i index hi' hindex' h).ne
      · exact (pairwise_iff_getElem.1 hpairwise.1 index i hindex' hi' h).ne'
    · rw [mem_singleton.1 hg]
      exact hlt.ne'
  refine ⟨hsound.withoutSealed index, ?_, fun g hg => hrun.rows g (hmem g hg), hrun.sorted,
    hrun.generation_le, fun b hb => ?_, fun g hg => ?_, fun r hr => ?_, hrun.positions,
    hrun.applied, fun b hb g hg heq => hrun.schemas b hb g (hmem g hg) heq⟩
  · have hold := hrun.handle
    cases hrunHandle : run.handle with
    | none =>
      rw [hrunHandle] at hold
      exact fun hfailed => ⟨(hold hfailed).inactive, (hold hfailed).headFailed,
        (hold hfailed).headSealed, (hold hfailed).headInactive⟩
    | some prepared =>
      rw [hrunHandle] at hold
      have howns := (hold.2 hhandle).owns
      rw [TabletState.ownsAppend, hinactive] at howns
      cases howns
  · rcases hrun.accounted b hb with hretired | ⟨g, hg, heq⟩
    · exact .inl (mem_append_left _ hretired)
    · by_cases hgone : g.generation = found.generation
      · exact .inl (mem_append_right _ (by rw [← heq, hgone]; exact mem_singleton_self _))
      · refine .inr ⟨g, ?_, heq⟩
        rcases mem_append.1 hg with hg | hg
        · refine mem_append_left _ (List.mem_eraseIdx_iff_getElem?.2 ?_)
          obtain ⟨i, hi⟩ := mem_iff_getElem?.1 hg
          refine ⟨i, ?_, hi⟩
          rintro rfl
          rw [hi] at hfound
          cases hfound
          exact hgone rfl
        · exact mem_append_right _ hg
  · intro hretired
    rcases mem_append.1 hretired with h | h
    · exact hrun.retired g (hmem g hg) h
    · exact hunique g hg (mem_singleton.1 h)
  · rcases mem_append.1 hr with h | h
    · exact hrun.retired_lt r h
    · rw [mem_singleton.1 h]
      exact hlt

/-- A past generation that is no longer shown can be retired again. -/
lemma retireAgain {generation : ℕ}
    (hpast : generation < run.state.publication.activeGeneration.generation)
    (hgone : ∀ g ∈ run.state.publication.sealedGenerations, g.generation ≠ generation) :
    RunSound { run with retired := run.retired ++ [generation] } where
  __ := hrun
  accounted b hb := (hrun.accounted b hb).imp_left (mem_append_left _)
  retired g hg hretired := by
    rcases mem_append.1 hretired with h | h
    · exact hrun.retired g hg h
    · rcases mem_append.1 hg with hg | hg
      · exact hgone g hg (mem_singleton.1 h)
      · rw [mem_singleton.1 hg] at h
        exact hpast.ne' (mem_singleton.1 h)
  retired_lt r hr := by
    rcases mem_append.1 hr with h | h
    · exact hrun.retired_lt r h
    · exact mem_singleton.1 h ▸ hpast

/-- A registered schema keeps a run sound. -/
lemma withSchema (registered : RegisteredSchema) {lineage : SchemaLineage}
    (hlineage : run.state.lineage.append registered.schema = .ok lineage)
    (hfailed : run.state.failed = false) (hinactive : run.state.appendActive = false) :
    RunSound { run with state := run.state.withSchema registered lineage } := by
  refine ⟨hrun.sound.withSchema hlineage, ?_, hrun.rows, hrun.sorted, hrun.generation_le,
    hrun.accounted, hrun.retired, hrun.retired_lt, hrun.positions, hrun.applied, hrun.schemas⟩
  have hold := hrun.handle
  cases hhandle : run.handle with
  | none =>
    rw [hhandle] at hold
    exact fun hfailed => ⟨(hold hfailed).inactive, (hold hfailed).headFailed,
      (hold hfailed).headSealed, (hold hfailed).headInactive⟩
  | some prepared =>
    rw [hhandle] at hold
    have howns := (hold.2 hfailed).owns
    rw [TabletState.ownsAppend, hinactive] at howns
    cases howns

/-- A failure keeps a run sound. -/
lemma failed (hcontrol : run.state.Control state) (hfailed : state.failed = true)
    (howns : ∀ prepared, state.ownsAppend prepared = true → run.state.ownsAppend prepared = true) :
    RunSound { run with state := state } := by
  refine hrun.control hcontrol ?_
  have hold := hrun.handle
  cases hhandle : run.handle with
  | none => exact fun h => by rw [hfailed] at h; cases h
  | some prepared =>
    rw [hhandle] at hold
    exact .of_failed hfailed fun h => (hold.1 (howns prepared h)).control hcontrol

/-- **One call** keeps a run sound and retains what is read. -/
lemma step (action : TabletAction) :
    RunSound (run.step action) ∧ Later run.state (run.step action).state := by
  obtain ⟨state, handle, _, _⟩ := run
  have hhandle := hrun.handle
  cases action with
  | registerSchema schema capacity =>
    rw [TabletRun.step]
    obtain ⟨status, heq⟩ | ⟨_, hfailed, hinactive, -, hlineage, heq⟩ :=
      registerSchema_cases state schema capacity
    · rw [heq]
      exact ⟨hrun, .refl _⟩
    · rw [heq]
      exact ⟨hrun.withSchema ⟨schema, capacity⟩ hlineage hfailed hinactive,
        ⟨⟨le_rfl, fun _ _ => .refl _⟩, fun _ _ h => h⟩⟩
  | prepare queue retryIdentity mutation batch =>
    rw [TabletRun.step]
    obtain ⟨status, state', _, heq, rfl | ⟨head, hhead, rfl⟩⟩ |
      ⟨index, hadmitted, ⟨-, hchecked, heq⟩ | ⟨head, _, hrotates, heq⟩⟩ :=
      prepare_cases state queue retryIdentity mutation batch
    · simp only [heq]
      exact ⟨hrun, .refl _⟩
    · simp only [heq]
      have hcontrol : state.Control { state.setHead state.activeHead head with failed := true } :=
        (TabletState.Control.setHead state hhead).of_heads rfl rfl rfl rfl rfl rfl rfl rfl rfl
      exact ⟨hrun.failed hcontrol rfl fun _ h => h, .control hcontrol⟩
    · simp only [heq]
      exact ⟨hrun.control (Control.preparedActive state)
        (.preparedActive hrun.sound hadmitted hchecked), .control (Control.preparedActive state)⟩
    · simp only [heq]
      exact ⟨hrun.preparedRotated hadmitted hrotates, .preparedRotated⟩
  | markWalStarted =>
    rw [TabletRun.step]
    cases handle with
    | none => exact ⟨hrun, .refl _⟩
    | some prepared =>
      have hcontrol := TabletState.Control.markWalStarted state prepared
      exact ⟨hrun.control hcontrol hhandle.markWalStarted, .control hcontrol⟩
  | publish position =>
    rw [TabletRun.step]
    cases handle with
    | none => exact ⟨hrun, .refl _⟩
    | some prepared =>
      obtain ⟨status, state', heq, rfl | ⟨head, hhead, rfl⟩⟩ | ⟨howns, -, hposition, -, -, heq⟩ :=
        publish_cases state prepared position
      · simp only [heq]
        exact ⟨hrun, .refl _⟩
      · simp only [heq]
        have hcontrol : state.Control (state.setHead prepared.address head).fail :=
          (TabletState.Control.setHead state hhead).of_heads rfl rfl rfl rfl rfl rfl rfl rfl rfl
        exact ⟨hrun.failed hcontrol rfl fun _ h => (by cases h), .control hcontrol⟩
      · simp only [heq]
        exact ⟨hrun.afterPublish rfl howns hposition, .afterPublish hrun.sound (hhandle.1 howns)⟩
  | cancelBeforeWal =>
    rw [TabletRun.step]
    cases handle with
    | none => exact ⟨hrun, .refl _⟩
    | some prepared =>
      have hcontrol := TabletState.Control.cancelBeforeWal state prepared
      obtain ⟨_, heq⟩ | ⟨_, heq, hnone⟩ := hhandle.cancelBeforeWal
      · simp only [heq]
        exact ⟨hrun, .refl _⟩
      · simp only [heq]
        rw [heq] at hcontrol
        exact ⟨hrun.control hcontrol hnone, .control hcontrol⟩
  | abandon =>
    rw [TabletRun.step]
    cases handle with
    | none => exact ⟨hrun, .refl _⟩
    | some prepared =>
      have hcontrol := TabletState.Control.abandon state prepared
      exact ⟨hrun.control hcontrol hhandle.abandon, .control hcontrol⟩
  | retire receipt =>
    rw [TabletRun.step]
    obtain ⟨_, heq⟩ | ⟨hpast, hgone, heq⟩ |
      ⟨_, _, hfailed, hinactive, hfound, hgeneration, -, heq⟩ := retire_cases state receipt
    · simp only [heq]
      exact ⟨hrun, .refl _⟩
    · simp only [heq]
      exact ⟨hrun.retireAgain hpast hgone, .refl _⟩
    · simp only [heq]
      rw [← hgeneration]
      exact ⟨hrun.retire hfailed hinactive hfound, ⟨⟨le_rfl, fun _ _ => .refl _⟩, fun _ _ h => h⟩⟩

/-- **A sequence of calls** keeps a run sound and retains what is read. -/
lemma run_sound (actions : List TabletAction) :
    RunSound (run.run actions) ∧ Later run.state (run.run actions).state := by
  induction actions generalizing run with
  | nil => exact ⟨hrun, .refl _⟩
  | cons action actions ih =>
    obtain ⟨hstep, hretain⟩ := hrun.step action
    obtain ⟨hsound, hretain'⟩ := ih hstep
    exact ⟨hsound, hretain.trans hretain'⟩

/-- The rows that the publication shows are those of the live batches, in publish order. -/
lemma rows_eq :
    run.state.publication.rows run.state.heads = run.live.flatMap PublishedBatch.rows := by
  have hkeys : (run.state.publication.generations.map (·.generation)).Pairwise (· < ·) :=
    pairwise_map.2 hrun.sound.increasing
  have hparts := flatMap_filter_sorted PublishedBatch.generation
    (run.state.publication.generations.map (·.generation)) run.live hkeys
    (hrun.sorted.sublist filter_sublist) (by
      intro b hb
      obtain ⟨hb, hlive⟩ := mem_filter.1 hb
      rcases hrun.accounted b hb with hretired | ⟨g, hg, heq⟩
      · simp [hretired] at hlive
      · exact mem_map.2 ⟨g, hg, heq⟩)
  rw [← hparts, flatMap_map, flatMap_assoc, TabletPublication.rows]
  refine flatMap_congr fun g hg => ?_
  rw [hrun.rows g hg, publishedIn, TabletRun.live, filter_filter]
  congr 1
  refine filter_congr fun b _ => ?_
  by_cases heq : b.generation = g.generation
  · simp [heq, hrun.retired g hg]
  · simp [heq]

end

end RunSound

end Chronos.Ingest
