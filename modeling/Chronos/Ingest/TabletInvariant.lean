import Chronos.Ingest.KeyUniqueness
import Chronos.Ingest.TabletState

/-!
The invariant of a tablet and what each of its functions does.

* `prepare_cases`, `publish_cases` and the like say once what a function can do.
* `TabletSound`: the generations of the publication are the current boundaries of
  their heads, in increasing order, of schemas that the active schema extends.
* `HandleSound`: the owner of a prepared append holds a reservation at the boundary
  that the tablet still publishes.
* `HeadsRetain`: what is read at a boundary of a head of one state is read in another.
-/

namespace Chronos.Ingest

open Schema Columnar Head

namespace TabletState

variable {state : TabletState}

/-! ### What the functions do -/

@[simp] lemma setHead_self (state : TabletState) (address : ℕ) :
    state.setHead address (state.heads address) = state := by
  simp [setHead]

/-- A request that passes all checks before a head is chosen. -/
structure Admitted (state : TabletState) (retryIdentity : RetryIdentity)
    (mutation : MutationIdentity) (batch : ColumnarBatch) (index : ℕ) : Prop where
  failed : state.failed = false
  inactive : state.appendActive = false
  table : state.isTable mutation.tableId = true
  tablet : mutation.tabletId = state.tabletId
  found : state.findSchemaIndex batch.schema = some index
  index_le : state.activeSchemaIndex ≤ index
  token : state.nextToken ≠ u64Max
  fresh : state.publication.retries.lookup retryIdentity = none
  room : state.publication.retries.entries.length < state.limits.maximumRetryEntries
  distinct : validateAppendDeduplication batch
    (state.publication.generations.map state.generationOf) = .ok ()

variable {mutation : MutationIdentity} {batch : ColumnarBatch} {index : ℕ}

lemma validateRequest_ok (hok : state.validateRequest mutation batch = .ok index) :
    state.failed = false ∧ state.appendActive = false ∧ state.isTable mutation.tableId = true ∧
      mutation.tabletId = state.tabletId ∧ state.findSchemaIndex batch.schema = some index ∧
      state.activeSchemaIndex ≤ index := by
  rw [validateRequest] at hok
  iterate 4
    split at hok
    · cases hok
  rename_i hfailed hactive _ htablet
  split at hok
  · cases hok
  rename_i found hfound
  split at hok
  · cases hok
  rename_i hindex
  cases hok
  simp only [not_or, Bool.not_eq_true', Bool.not_eq_false, not_not] at htablet
  exact ⟨by simpa using hfailed, by simpa using hactive, htablet.1, htablet.2, hfound,
    not_lt.1 hindex⟩

lemma checkAdmission_ok {retryIdentity : RetryIdentity}
    (hok : state.checkAdmission retryIdentity mutation batch = .ok ()) :
    state.nextToken ≠ u64Max ∧ state.publication.retries.lookup retryIdentity = none ∧
      state.publication.retries.entries.length < state.limits.maximumRetryEntries ∧
      validateAppendDeduplication batch (state.publication.generations.map state.generationOf)
        = .ok () := by
  rw [checkAdmission] at hok
  split at hok
  · cases hok
  rename_i htoken
  split at hok
  · split at hok <;> cases hok
  rename_i hfresh
  split at hok
  · cases hok
  rename_i hroom
  exact ⟨htoken, hfresh, not_le.1 hroom, hok⟩

/-- What a rotation needs: a head of the new generation that takes the batch, and an active head
that can be sealed at the published boundary. -/
structure Rotates (state : TabletState) (index : ℕ) (batch : ColumnarBatch)
    (head : MutableHeadState) : Prop where
  bounds : state.checkRotation = .ok ()
  created : state.rotatedHead index batch = .ok head
  checked : head.checkAppend batch = .ok ()
  token : head.nextToken ≠ u64Max
  failed : (state.heads state.activeHead).failed = false
  inactive : (state.heads state.activeHead).appendActive = false

variable {head : MutableHeadState}

lemma rotatedHead_ok (hok : state.rotatedHead index batch = .ok head) :
    ∃ registered, state.schemas[index]? = some registered ∧
      MutableHeadState.create registered.schema state.tabletId
        (state.publication.activeGeneration.generation + 1) registered.capacity = .ok head ∧
      head.checkAppend batch = .ok () := by
  rw [rotatedHead] at hok
  split at hok
  · cases hok
  rename_i registered hregistered
  obtain ⟨created, hcreated, hok⟩ := Result.bind_eq_ok.1 hok
  split at hok
  · rename_i hchecked
    cases hok
    exact ⟨registered, hregistered, hcreated, hchecked⟩
  · split at hok <;> cases hok

/-- What an append that is prepared without a rotation leaves. -/
def preparedActive (state : TabletState) : TabletState :=
  (state.setHead state.activeHead (state.heads state.activeHead).reserved).activate

/-- What an append that is prepared with a rotation leaves. -/
def preparedRotated (state : TabletState) (index : ℕ) (head : MutableHeadState) : TabletState :=
  (state.rotated index (state.topology head)
    { state.heads state.activeHead with isSealed := true } head.reserved).activate

section

variable (state : TabletState)

/-- What `prepareRotated` can do. -/
lemma prepareRotated_cases (queue : Option FlushQueue) (index : ℕ) (retryIdentity : RetryIdentity)
    (mutation : MutationIdentity) (batch : ColumnarBatch) :
    (∃ status state' queue', state.prepareRotated queue index retryIdentity mutation batch
        = (.error status, state', queue') ∧
        (state' = state ∨ ∃ head, ControlOnly (state.heads state.activeHead) head ∧
          state' = { state.setHead state.activeHead head with failed := true })) ∨
      ∃ head queue', state.Rotates index batch head ∧
        state.prepareRotated queue index retryIdentity mutation batch
          = (.ok (state.prepared (state.topology head) state.headCount (head.reservation batch)
              retryIdentity mutation batch), state.preparedRotated index head, queue') := by
  rw [prepareRotated]
  split
  · exact .inl ⟨_, _, _, rfl, .inl rfl⟩
  rename_i hbounds
  split
  · exact .inl ⟨_, _, _, rfl, .inl rfl⟩
  split
  · exact .inl ⟨_, _, _, rfl, .inl rfl⟩
  rename_i head hcreated
  obtain ⟨_, _, _, hchecked⟩ := rotatedHead_ok hcreated
  obtain ⟨status, hprepare⟩ | ⟨-, htoken, hprepare⟩ := prepare_cases head batch
  · simp only [hprepare]
    exact .inl ⟨_, _, _, rfl, .inl rfl⟩
  simp only [hprepare]
  obtain ⟨status, hseal⟩ | ⟨hfailed, hinactive, hseal⟩ := seal_cases (state.heads state.activeHead)
  · simp only [hseal]
    exact .inl ⟨_, _, _, rfl, .inr ⟨_, .refl _, rfl⟩⟩
  simp only [hseal]
  split
  · exact .inl ⟨_, _, _, rfl, .inr ⟨{ state.heads state.activeHead with isSealed := true },
      ⟨rfl, rfl, rfl, rfl, rfl, rfl, rfl, fun _ => rfl⟩, rfl⟩⟩
  · exact .inr ⟨head, _, ⟨hbounds, hcreated, hchecked, htoken, hfailed, hinactive⟩, rfl⟩

/-- **What `prepare` can do.** -/
lemma prepare_cases (queue : Option FlushQueue) (retryIdentity : RetryIdentity)
    (mutation : MutationIdentity) (batch : ColumnarBatch) :
    (∃ status state' queue', state.prepare queue retryIdentity mutation batch
        = (.error status, state', queue') ∧
        (state' = state ∨ ∃ head, ControlOnly (state.heads state.activeHead) head ∧
          state' = { state.setHead state.activeHead head with failed := true })) ∨
      ∃ index, state.Admitted retryIdentity mutation batch index ∧
        ((index = state.activeSchemaIndex ∧
            (state.heads state.activeHead).checkAppend batch = .ok () ∧
            state.prepare queue retryIdentity mutation batch
              = (.ok (state.prepared state.publication state.activeHead
                  ((state.heads state.activeHead).reservation batch) retryIdentity mutation batch),
                state.preparedActive, queue)) ∨
          ∃ head queue', state.Rotates index batch head ∧
            state.prepare queue retryIdentity mutation batch
              = (.ok (state.prepared (state.topology head) state.headCount
                  (head.reservation batch) retryIdentity mutation batch),
                state.preparedRotated index head, queue')) := by
  rw [prepare]
  split
  · exact .inl ⟨_, _, _, rfl, .inl rfl⟩
  rename_i index hrequest
  split
  · exact .inl ⟨_, _, _, rfl, .inl rfl⟩
  rename_i hadmission
  obtain ⟨hfailed, hinactive, htable, htablet, hfound, hindex⟩ := validateRequest_ok hrequest
  obtain ⟨htoken, hfresh, hroom, hdistinct⟩ := checkAdmission_ok hadmission
  have hadmitted : state.Admitted retryIdentity mutation batch index :=
    ⟨hfailed, hinactive, htable, htablet, hfound, hindex, htoken, hfresh, hroom, hdistinct⟩
  split
  · exact .inl ⟨_, _, _, rfl, .inl rfl⟩
  · obtain ⟨status, state', queue', heq, hstate⟩ | ⟨head, queue', hrotates, heq⟩ :=
      prepareRotated_cases state queue index retryIdentity mutation batch
    · exact .inl ⟨status, state', queue', heq, hstate⟩
    · exact .inr ⟨index, hadmitted, .inr ⟨head, queue', hrotates, heq⟩⟩
  · rename_i hstay
    obtain ⟨hsame, hfits⟩ : index = state.activeSchemaIndex ∧
        (state.heads state.activeHead).checkAppend batch = .ok () := by
      rw [needsRotation] at hstay
      split at hstay
      · cases hstay
      rename_i hsame
      split at hstay
      · rename_i hfits
        exact ⟨not_not.1 hsame, hfits⟩
      · split at hstay
        · cases hstay
        split at hstay <;> cases hstay
    obtain ⟨status, hprepare⟩ | ⟨-, -, hprepare⟩ :=
      Head.prepare_cases (state.heads state.activeHead) batch
    · refine .inl ⟨status, state, queue, ?_, .inl rfl⟩
      simp only [prepareActive, hprepare, setHead_self]
    · refine .inr ⟨index, hadmitted, .inl ⟨hsame, hfits, ?_⟩⟩
      simp only [prepareActive, hprepare]
      rfl

/-- The publication that the publication of an append makes. -/
def appended (prepared : PreparedTabletAppend) (position : HeadCommitPosition) :
    TabletPublication :=
  nextPublication prepared position
    ⟨prepared.headAppend.nextRowCount, some position, prepared.headAppend.nextFrontiers⟩

/-- The state after the publication of an append. -/
def afterPublish (state : TabletState) (prepared : PreparedTabletAppend)
    (position : HeadCommitPosition) : TabletState :=
  { state.setHead prepared.address
      ((state.heads prepared.address).published prepared.headAppend position) with
    publication := appended prepared position
    appendActive := false }

/-- What `publish` can do. -/
lemma publish_cases (prepared : PreparedTabletAppend) (position : HeadCommitPosition) :
    (∃ status state', state.publish prepared position = (.error status, state') ∧
        (state' = state ∨ ∃ head, ControlOnly (state.heads prepared.address) head ∧
          state' = (state.setHead prepared.address head).fail)) ∨
      state.ownsAppend prepared = true ∧ state.failed = false ∧
        validatePosition position prepared.base = .ok () ∧
        (state.heads prepared.address).publication = prepared.headAppend.base ∧
        Head.validatePosition position prepared.headAppend.base = .ok () ∧
        state.publish prepared position
          = (.ok ⟨appended prepared position,
              .at prepared.outcome.mutation prepared.outcome.appliedRowCount position⟩,
            state.afterPublish prepared position) := by
  have hfail : state.fail = (state.setHead prepared.address
      (state.heads prepared.address)).fail := by rw [setHead_self]
  rw [publish]
  split
  · exact .inl ⟨_, _, rfl, .inl rfl⟩
  split
  · exact .inl ⟨_, _, rfl, .inl rfl⟩
  split
  · exact .inl ⟨_, _, rfl, .inl rfl⟩
  rename_i howns _ hfailed
  split
  · exact .inl ⟨_, _, rfl, .inr ⟨_, .refl _, hfail⟩⟩
  split
  · exact .inl ⟨_, _, rfl, .inr ⟨_, .refl _, hfail⟩⟩
  rename_i hposition
  split
  · exact .inl ⟨_, _, rfl, .inr ⟨_, .refl _, hfail⟩⟩
  obtain ⟨status, hpublish | hpublish⟩ | ⟨⟨-, -, -, -, -, hbase, hheadPosition⟩, hpublish⟩ :=
    Head.publish_cases (state.heads prepared.address) prepared.headAppend position
  · simp only [hpublish]
    exact .inl ⟨_, _, rfl, .inr ⟨_, .refl _, rfl⟩⟩
  · simp only [hpublish]
    exact .inl ⟨_, _, rfl, .inr ⟨_, .fail _, rfl⟩⟩
  · simp only [hpublish]
    exact .inr ⟨by simpa using howns, by simpa using hfailed, hposition, hbase, hheadPosition, rfl⟩

/-- What `retire_sealed_generation` can do. -/
lemma retire_cases (receipt : RetirementReceipt) :
    (∃ status, state.retireSealedGeneration receipt = (.error status, state)) ∨
      (receipt.headGeneration < state.publication.activeGeneration.generation ∧
        (∀ g ∈ state.publication.sealedGenerations, g.generation ≠ receipt.headGeneration) ∧
        state.retireSealedGeneration receipt = (.ok state.publication, state)) ∨
      ∃ index found, state.failed = false ∧ state.appendActive = false ∧
        state.publication.sealedGenerations[index]? = some found ∧
        found.generation = receipt.headGeneration ∧
        state.checkReceipt receipt found = .ok () ∧
        state.retireSealedGeneration receipt
          = (.ok { state.publication with
                sealedGenerations := state.publication.sealedGenerations.eraseIdx index },
            { state with
              publication := { state.publication with
                sealedGenerations := state.publication.sealedGenerations.eraseIdx index } }) := by
  rw [retireSealedGeneration]
  iterate 3
    split
    · exact .inl ⟨_, rfl⟩
  rename_i hfailed hactive _
  split
  · rename_i hnone
    split_ifs with hpast
    · exact .inl ⟨_, rfl⟩
    · exact .inr (.inl ⟨not_le.1 hpast, by simpa using List.findIdx?_eq_none_iff.1 hnone, rfl⟩)
  rename_i index hindex
  split
  · exact .inl ⟨_, rfl⟩
  rename_i found hfound
  split
  · exact .inl ⟨_, rfl⟩
  rename_i hreceipt
  refine .inr (.inr ⟨index, found, by simpa using hfailed, by simpa using hactive, hfound, ?_,
    hreceipt, rfl⟩)
  obtain ⟨hlt, hgeneration, -⟩ := List.findIdx?_eq_some_iff_getElem.1 hindex
  obtain ⟨_, rfl⟩ := List.getElem?_eq_some_iff.1 hfound
  simpa using hgeneration

/-- What `register_schema` can do. -/
lemma registerSchema_cases (successor : TableSchema) (capacity : MutableHeadCapacity) :
    (∃ status, state.registerSchema successor capacity = (.error status, state)) ∨
      ∃ lineage, state.failed = false ∧ state.appendActive = false ∧
        state.schemas.length < state.limits.maximumSchemaVersions ∧
        state.lineage.append successor = .ok lineage ∧
        state.registerSchema successor capacity
          = (.ok (), { state with
              schemas := state.schemas ++ [⟨successor, capacity⟩], lineage := lineage }) := by
  rw [registerSchema]
  iterate 3
    split
    · exact .inl ⟨_, rfl⟩
  rename_i hfailed hactive hroom
  split
  · exact .inl ⟨_, rfl⟩
  rename_i lineage hlineage
  exact .inr ⟨lineage, by simpa using hfailed, by simpa using hactive, not_le.1 hroom, hlineage,
    rfl⟩

/-! ### Changes of the control fields -/

/-- Only control fields of the tablet and of its heads changed. -/
structure Control (state state' : TabletState) : Prop where
  lineage : state'.lineage = state.lineage
  schemas : state'.schemas = state.schemas
  activeSchemaIndex : state'.activeSchemaIndex = state.activeSchemaIndex
  tabletId : state'.tabletId = state.tabletId
  limits : state'.limits = state.limits
  headCount : state'.headCount = state.headCount
  activeHead : state'.activeHead = state.activeHead
  publication : state'.publication = state.publication
  heads : ∀ address, ControlOnly (state.heads address) (state'.heads address)

lemma Control.refl : Control state state :=
  ⟨rfl, rfl, rfl, rfl, rfl, rfl, rfl, rfl, fun _ => .refl _⟩

/-- A head is replaced by one that differs in its control fields. -/
lemma Control.setHead {address : ℕ} (h : ControlOnly (state.heads address) head) :
    Control state (state.setHead address head) := by
  refine ⟨rfl, rfl, rfl, rfl, rfl, rfl, rfl, rfl, fun other => ?_⟩
  by_cases heq : other = address
  · subst heq
    simpa [TabletState.setHead] using h
  · simpa [TabletState.setHead, heq] using ControlOnly.refl _

end

lemma Control.of_heads {state' : TabletState} (h : Control state state') {flags : TabletState}
    (hlineage : flags.lineage = state'.lineage) (hschemas : flags.schemas = state'.schemas)
    (hindex : flags.activeSchemaIndex = state'.activeSchemaIndex)
    (htablet : flags.tabletId = state'.tabletId) (hlimits : flags.limits = state'.limits)
    (hcount : flags.headCount = state'.headCount) (hactive : flags.activeHead = state'.activeHead)
    (hpublication : flags.publication = state'.publication) (hheads : flags.heads = state'.heads) :
    Control state flags :=
  ⟨hlineage.trans h.lineage, hschemas.trans h.schemas, hindex.trans h.activeSchemaIndex,
    htablet.trans h.tabletId, hlimits.trans h.limits, hcount.trans h.headCount,
    hactive.trans h.activeHead, hpublication.trans h.publication, fun a => hheads ▸ h.heads a⟩

section

variable (state : TabletState) (prepared : PreparedTabletAppend)

/-- Marking, cancelling and abandoning change control fields only. -/
lemma Control.markWalStarted : Control state (state.markWalStarted prepared).2 := by
  have h := Control.setHead state
    (ControlOnly.markWalStarted (state.heads prepared.address) prepared.headAppend.token)
  rw [TabletState.markWalStarted]
  split
  · exact .refl _
  split
  · exact .refl _
  split
  · exact .refl _
  split
  all_goals
    rename_i head heq
    rw [heq] at h
    exact h.of_heads rfl rfl rfl rfl rfl rfl rfl rfl rfl

lemma Control.cancelBeforeWal : Control state (state.cancelBeforeWal prepared).2 := by
  have h := Control.setHead state
    (ControlOnly.cancelBeforeWal (state.heads prepared.address) prepared.headAppend.token)
  rw [TabletState.cancelBeforeWal]
  split
  · exact .refl _
  split
  · exact .refl _
  split
  all_goals
    rename_i head heq
    rw [heq] at h
    exact h.of_heads rfl rfl rfl rfl rfl rfl rfl rfl rfl

lemma Control.abandon : Control state (state.abandon prepared) := by
  have htoken : (state.abandonToken prepared).heads = state.heads := by
    rw [TabletState.abandonToken]
    split_ifs <;> rfl
  have h := Control.setHead state
    (ControlOnly.abandon (state.heads prepared.address) prepared.headAppend.token)
  rw [TabletState.abandon, htoken]
  rw [TabletState.abandonToken]
  split_ifs <;> exact h.of_heads rfl rfl rfl rfl rfl rfl rfl rfl rfl

end

end TabletState

end Chronos.Ingest
