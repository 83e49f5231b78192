import Chronos.Ingest.TabletInvariant

/-!
The invariant of a tablet.

* `TabletSound`: the generations of the publication are the current boundaries of
  their heads, in increasing order, of schemas that the active schema extends.
* `OwnedSound`: the owner of a prepared append holds a reservation at the boundary
  that the tablet still publishes.
* `HeadsRetain`: what is read at a boundary of a head of one state is read in another.

Every function of the tablet keeps the three.
-/

namespace Chronos.Ingest

open Schema Columnar Head List TabletState

/-- The invariant of a tablet. -/
structure TabletSound (state : TabletState) : Prop where
  lineage : state.schemas.map (·.schema) = state.lineage.schemas
  ordered : LineageOrdered state.lineage.schemas
  heads : ∀ address < state.headCount, HeadSound (state.heads address) ∧
    (state.heads address).tabletId = state.tabletId
  address : state.publication.activeGeneration.head = state.activeHead
  current : ∀ g ∈ state.publication.generations,
    g.head < state.headCount ∧ g = (state.heads g.head).snapshot g.head
  retained : ∀ g ∈ state.publication.sealedGenerations,
    (state.heads g.head).isSealed = true ∧ g.head ≠ state.activeHead ∧ g.rowCount ≠ 0
  increasing : state.publication.generations.Pairwise fun g g' => g.generation < g'.generation
  schemaOf : ∀ g ∈ state.publication.generations,
    ∃ i ≤ state.activeSchemaIndex, state.schemas[i]?.map (·.schema) = some g.schema
  activeSchema : state.schemas[state.activeSchemaIndex]?.map (·.schema)
    = some state.publication.activeGeneration.schema
  typed : ∀ g ∈ state.publication.generations, ∀ row ∈ generationRows state.heads g,
    RowTyped g.schema row.cells

/-- What is read at a boundary of a head of the first state is read in the second one. -/
structure HeadsRetain (state state' : TabletState) : Prop where
  headCount : state.headCount ≤ state'.headCount
  heads : ∀ address < state.headCount, Retains (state.heads address) (state'.heads address)

/-- A snapshot whose boundaries the heads of a state have published. -/
def Held (state : TabletState) (snapshot : TabletPublication) : Prop :=
  ∀ g ∈ snapshot.generations, g.head < state.headCount ∧ Covers (state.heads g.head) g.publication

lemma HeadsRetain.refl (state : TabletState) : HeadsRetain state state :=
  ⟨le_rfl, fun _ _ => .refl _⟩

variable {state state' : TabletState}

lemma HeadsRetain.trans {state'' : TabletState} (h : HeadsRetain state state')
    (h' : HeadsRetain state' state'') : HeadsRetain state state'' :=
  ⟨h.headCount.trans h'.headCount, fun address haddress =>
    (h.heads address haddress).trans (h'.heads address (haddress.trans_le h.headCount))⟩

/-- A snapshot that is held shows the same rows later. -/
lemma HeadsRetain.rows (h : HeadsRetain state state') {snapshot : TabletPublication}
    (hheld : Held state snapshot) : snapshot.rows state'.heads = snapshot.rows state.heads := by
  refine flatMap_congr fun g hg => ?_
  obtain ⟨haddress, hcovers⟩ := hheld g hg
  exact (h.heads _ haddress).rows hcovers

/-- The publication of a sound tablet is held. -/
lemma TabletSound.held (hsound : TabletSound state) :
    Held state state.publication := by
  intro g hg
  obtain ⟨haddress, hcurrent⟩ := hsound.current g hg
  refine ⟨haddress, ?_⟩
  rw [hcurrent]
  exact .current _

lemma active_mem (publication : TabletPublication) :
    publication.activeGeneration ∈ publication.generations :=
  mem_append_right _ (mem_singleton_self _)

lemma sealed_mem {publication : TabletPublication} {g : HeadSnapshot}
    (hg : g ∈ publication.sealedGenerations) : g ∈ publication.generations :=
  mem_append_left _ hg

namespace TabletSound

variable {state state' : TabletState}

lemma activeHead_lt (hsound : TabletSound state) : state.activeHead < state.headCount := by
  have h := (hsound.current _ (active_mem _)).1
  rwa [hsound.address] at h

lemma active_eq (hsound : TabletSound state) :
    state.publication.activeGeneration
      = (state.heads state.activeHead).snapshot state.activeHead := by
  have h := (hsound.current _ (active_mem _)).2
  rwa [hsound.address] at h

lemma activeHead_sound (hsound : TabletSound state) : HeadSound (state.heads state.activeHead) :=
  (hsound.heads _ hsound.activeHead_lt).1

/-! ### Control -/

/-- A change of control fields keeps a tablet sound. -/
lemma control (hsound : TabletSound state) (h : state.Control state') : TabletSound state' where
  lineage := by rw [h.schemas, h.lineage]; exact hsound.lineage
  ordered := by rw [h.lineage]; exact hsound.ordered
  heads address haddress := by
    rw [h.headCount] at haddress
    obtain ⟨hhead, htablet⟩ := hsound.heads address haddress
    exact ⟨(h.heads address).headSound hhead,
      by rw [(h.heads address).tabletId, h.tabletId]; exact htablet⟩
  address := by rw [h.publication, h.activeHead]; exact hsound.address
  current g hg := by
    rw [h.publication] at hg
    obtain ⟨haddress, hcurrent⟩ := hsound.current g hg
    exact ⟨h.headCount ▸ haddress, by rw [(h.heads g.head).snapshot]; exact hcurrent⟩
  retained g hg := by
    rw [h.publication] at hg
    obtain ⟨hsealed, hne, hrows⟩ := hsound.retained g hg
    exact ⟨(h.heads g.head).sealed_mono hsealed, h.activeHead ▸ hne, hrows⟩
  increasing := by rw [h.publication]; exact hsound.increasing
  schemaOf g hg := by
    rw [h.publication] at hg
    rw [h.activeSchemaIndex, h.schemas]
    exact hsound.schemaOf g hg
  activeSchema := by
    rw [h.activeSchemaIndex, h.schemas, h.publication]
    exact hsound.activeSchema
  typed g hg row hrow := by
    rw [h.publication] at hg
    rw [generationRows, (h.heads g.head).rows] at hrow
    exact hsound.typed g hg row hrow

end TabletSound

lemma HeadsRetain.control (h : state.Control state') :
    HeadsRetain state state' :=
  ⟨h.headCount.ge, fun address _ => (h.heads address).retains⟩

/-! ### Preparing -/

/-- Reserving rows in the active head changes control fields only. -/
lemma Control.preparedActive (state : TabletState) : state.Control state.preparedActive :=
  (TabletState.Control.setHead state (.reserved _)).of_heads rfl rfl rfl rfl rfl rfl rfl rfl rfl

section Rotated

variable {state : TabletState} {retryIdentity : RetryIdentity} {mutation : MutationIdentity}
  {batch : ColumnarBatch} {index : ℕ} {head : MutableHeadState}

/-- The head that a rotation makes. -/
lemma rotates_head (hrotates : state.Rotates index batch head) :
    ∃ registered, state.schemas[index]? = some registered ∧ head.schema = registered.schema ∧
      head.tabletId = state.tabletId ∧
      head.generation = state.publication.activeGeneration.generation + 1 ∧
      head.publication.rowCount = 0 ∧ HeadSound head := by
  obtain ⟨registered, hregistered, hcreate, -⟩ := rotatedHead_ok hrotates.created
  have hsound := HeadSound.create hcreate
  obtain ⟨_, _, hcreate⟩ := Result.bind_eq_ok.1 hcreate
  cases hcreate
  exact ⟨registered, hregistered, rfl, rfl, rfl, rfl, hsound⟩

lemma preparedRotated_heads_of_ne (index : ℕ) (head : MutableHeadState) (address : ℕ)
    (hne : address ≠ state.headCount) :
    ControlOnly (state.heads address) ((state.preparedRotated index head).heads address) := by
  by_cases hactive : address = state.activeHead
  · subst hactive
    simpa [TabletState.preparedRotated, TabletState.rotated, TabletState.activate, hne] using
      (⟨rfl, rfl, rfl, rfl, rfl, rfl, rfl, fun _ => rfl⟩ :
        ControlOnly (state.heads state.activeHead)
          { state.heads state.activeHead with isSealed := true })
  · simpa [TabletState.preparedRotated, TabletState.rotated, TabletState.activate, hne, hactive]
      using ControlOnly.refl _

lemma preparedRotated_heads_new :
    (state.preparedRotated index head).heads state.headCount = head.reserved := by
  simp [TabletState.preparedRotated, TabletState.rotated, TabletState.activate]

lemma preparedRotated_generations :
    (state.preparedRotated index head).publication.generations
      = (state.topology head).sealedGenerations ++ [head.snapshot state.headCount] := rfl

variable {g : HeadSnapshot}

/-- A generation that a rotation retains was a generation before. -/
lemma topology_sealed_mem (hg : g ∈ (state.topology head).sealedGenerations) :
    g ∈ state.publication.sealedGenerations ∨
      g = state.publication.activeGeneration ∧ state.retainsActive = true := by
  rw [topology] at hg
  split_ifs at hg with hretain
  · rcases mem_append.1 hg with hg | hg
    · exact .inl hg
    · exact .inr ⟨mem_singleton.1 hg, hretain⟩
  · exact .inl hg

lemma topology_sealed_sublist :
    (state.topology head).sealedGenerations.Sublist state.publication.generations := by
  rw [topology]
  split_ifs
  · exact .refl _
  · exact sublist_append_left _ _

/-- The rows that a rotation shows are the rows shown before. -/
lemma topology_generations_mem (hg : g ∈ (state.topology head).sealedGenerations) :
    g ∈ state.publication.generations :=
  topology_sealed_sublist.subset hg

/-- **A rotation keeps a tablet sound.** -/
lemma TabletSound.preparedRotated (hsound : TabletSound state)
    (hadmitted : state.Admitted retryIdentity mutation batch index)
    (hrotates : state.Rotates index batch head) :
    TabletSound (state.preparedRotated index head) := by
  obtain ⟨_, hregistered, hschema, htablet, hgeneration, hempty, hhead⟩ :=
    rotates_head hrotates
  have hold : ∀ g ∈ (state.topology head).sealedGenerations,
      g ∈ state.publication.generations := fun g hg => topology_generations_mem hg
  have hne : ∀ g ∈ state.publication.generations, g.head ≠ state.headCount :=
    fun g hg => (hsound.current g hg).1.ne
  refine ⟨hsound.lineage, hsound.ordered, fun address haddress => ?_, rfl, fun g hg => ?_,
    fun g hg => ?_, ?_, fun g hg => ?_, ?_, fun g hg row hrow => ?_⟩
  · -- heads
    rcases Nat.lt_succ_iff_lt_or_eq.1 haddress with hlt | rfl
    · have hcontrol := preparedRotated_heads_of_ne index head address hlt.ne
      exact ⟨hcontrol.headSound (hsound.heads address hlt).1,
        hcontrol.tabletId.trans (hsound.heads address hlt).2⟩
    · rw [preparedRotated_heads_new]
      exact ⟨(ControlOnly.reserved head).headSound hhead, htablet⟩
  · -- current
    rw [preparedRotated_generations] at hg
    rcases mem_append.1 hg with hg | hg
    · obtain ⟨hlt, hcurrent⟩ := hsound.current g (hold g hg)
      refine ⟨hlt.trans (Nat.lt_succ_self _), ?_⟩
      rw [(preparedRotated_heads_of_ne index head g.head hlt.ne).snapshot]
      exact hcurrent
    · rw [mem_singleton.1 hg]
      refine ⟨Nat.lt_succ_self _, ?_⟩
      show head.snapshot state.headCount
        = ((state.preparedRotated index head).heads state.headCount).snapshot state.headCount
      rw [preparedRotated_heads_new]
      exact ((ControlOnly.reserved head).snapshot _).symm
  · -- retained
    rcases topology_sealed_mem hg with hg' | ⟨rfl, hretain⟩
    · obtain ⟨hsealed, -, hrows⟩ := hsound.retained g hg'
      have hg'' := hne g (sealed_mem hg')
      exact ⟨(preparedRotated_heads_of_ne index head g.head hg'').sealed_mono hsealed, hg'', hrows⟩
    · have haddress := hne _ (active_mem state.publication)
      refine ⟨?_, haddress, by simpa [retainsActive] using hretain⟩
      rw [hsound.address] at haddress ⊢
      simp [TabletState.preparedRotated, TabletState.rotated, TabletState.activate, haddress]
  · -- increasing
    rw [preparedRotated_generations, pairwise_append]
    refine ⟨hsound.increasing.sublist topology_sealed_sublist, pairwise_singleton _ _,
      fun g hg g' hg' => ?_⟩
    rw [mem_singleton.1 hg']
    show g.generation < head.generation
    rw [hgeneration]
    rcases mem_append.1 (hold g hg) with hmem | hmem
    · have hlt := (pairwise_append.1 hsound.increasing).2.2 g hmem _ (mem_singleton_self _)
      omega
    · rw [mem_singleton.1 hmem]
      omega
  · -- schemas
    rw [preparedRotated_generations] at hg
    rcases mem_append.1 hg with hg | hg
    · obtain ⟨i, hi, hschemaOf⟩ := hsound.schemaOf g (hold g hg)
      exact ⟨i, hi.trans hadmitted.index_le, hschemaOf⟩
    · rw [mem_singleton.1 hg]
      refine ⟨index, le_rfl, ?_⟩
      show state.schemas[index]?.map (·.schema) = some head.schema
      rw [hregistered, hschema]
      rfl
  · show state.schemas[index]?.map (·.schema) = some head.schema
    rw [hregistered, hschema]
    rfl
  · -- rows
    rw [preparedRotated_generations] at hg
    rcases mem_append.1 hg with hg | hg
    · have hlt := (hsound.current g (hold g hg)).1
      rw [generationRows, (preparedRotated_heads_of_ne index head g.head hlt.ne).rows] at hrow
      exact hsound.typed g (hold g hg) row hrow
    · rw [mem_singleton.1 hg, generationRows, rows_of_empty
        (show (head.snapshot state.headCount).publication.rowCount = 0 from hempty)] at hrow
      cases hrow

lemma HeadsRetain.preparedRotated : HeadsRetain state (state.preparedRotated index head) :=
  ⟨Nat.le_succ _, fun address haddress =>
    (preparedRotated_heads_of_ne index head address haddress.ne).retains⟩

end Rotated

/-! ### The owner of a prepared append -/

/-- A prepared append that its tablet owns: rows reserved in the active head at the boundary that
the tablet publishes, for an identity without an outcome and rows without a conflict. -/
structure OwnedSound (state : TabletState) (prepared : PreparedTabletAppend) : Prop where
  address : prepared.address = state.activeHead
  reservation : PreparedSound (state.heads state.activeHead) prepared.headAppend
  base : prepared.base = state.publication
  fresh : state.publication.retries.lookup prepared.retryIdentity = none
  room : state.publication.retries.entries.length < state.limits.maximumRetryEntries
  distinct : prepared.headAppend.batch.schema.roles.deduplicationKey = [] ∨
    uniqueKeys prepared.headAppend.batch = .ok () ∧ NoConflict prepared.headAppend.batch
      (shownRows (state.publication.generations.map state.generationOf))
  mutation : state.isTable prepared.outcome.mutation.tableId = true ∧
    prepared.outcome.mutation.tabletId = state.tabletId
  pending : prepared.outcome = ⟨prepared.outcome.mutation, .wal, nilWalId, 0, 0,
    prepared.headAppend.batch.rowCount⟩

section Shown

variable {state state' : TabletState} {batch : ColumnarBatch} {index : ℕ}

/-- A batch of a registered schema that is not an ancestor of the active one can be checked
against the generations of the tablet. -/
lemma TabletSound.readable (hsound : TabletSound state)
    (hfound : state.findSchemaIndex batch.schema = some index)
    (hindex : state.activeSchemaIndex ≤ index) :
    ∀ generation ∈ state.publication.generations.map state.generationOf,
      Readable batch generation := by
  intro _ hmem
  obtain ⟨g, hg, rfl⟩ := mem_map.1 hmem
  obtain ⟨haddress, hcurrent⟩ := hsound.current g hg
  have hschema : (state.heads g.head).schema = g.schema := by
    conv_rhs => rw [hcurrent]
    rfl
  obtain ⟨i, hi, hschemaOf⟩ := hsound.schemaOf g hg
  refine ⟨(hsound.heads g.head haddress).1, (hsound.held g hg).2, ?_, ?_⟩
  · -- both schemas are in the lineage, that of the batch not before the other
    show SchemaExtends (state.heads g.head).schema batch.schema
    rw [hschema]
    obtain ⟨hlt, hfoundEq, -⟩ := findIdx?_eq_some_iff_getElem.1 hfound
    have hbatch : (state.schemas.map (·.schema))[index]? = some batch.schema := by
      rw [getElem?_map, getElem?_eq_getElem hlt]
      simpa using hfoundEq
    rw [← getElem?_map] at hschemaOf
    rw [hsound.lineage] at hschemaOf hbatch
    obtain ⟨hi', hschemaEq⟩ := List.getElem?_eq_some_iff.1 hschemaOf
    obtain ⟨hindex', hbatchEq⟩ := List.getElem?_eq_some_iff.1 hbatch
    rw [← hschemaEq, ← hbatchEq]
    rcases Nat.lt_or_eq_of_le (hi.trans hindex) with hlt | rfl
    · exact pairwise_iff_getElem.1 hsound.ordered i index hi' hindex' hlt
    · exact .refl _
  · show ∀ row ∈ (state.heads g.head).rows g.publication, RowTyped (state.heads g.head).schema _
    rw [hschema]
    exact hsound.typed g hg

/-- Control fields do not show in rows. -/
lemma shownRows_control (h : state.Control state') :
    shownRows (state'.publication.generations.map state'.generationOf)
      = shownRows (state.publication.generations.map state.generationOf) := by
  rw [h.publication, shownRows, shownRows, flatMap_map, flatMap_map]
  refine flatMap_congr fun g _ => ?_
  simp only [generationOf, (h.heads g.head).rows, (h.heads g.head).schema]

/-- A change of control fields keeps the owner sound. -/
lemma OwnedSound.control {prepared : PreparedTabletAppend} (howned : OwnedSound state prepared)
    (h : state.Control state') : OwnedSound state' prepared where
  address := h.activeHead ▸ howned.address
  reservation := by
    rw [h.activeHead]
    exact (h.heads _).preparedSound howned.reservation
  base := h.publication ▸ howned.base
  fresh := h.publication ▸ howned.fresh
  room := by rw [h.publication, h.limits]; exact howned.room
  distinct := by rw [shownRows_control h]; exact howned.distinct
  mutation := by
    rw [isTable, h.schemas, h.tabletId]
    exact howned.mutation
  pending := howned.pending

variable {retryIdentity : RetryIdentity} {mutation : MutationIdentity}

/-- An append that is prepared in the active head is owned. -/
lemma OwnedSound.preparedActive (hsound : TabletSound state)
    (hadmitted : state.Admitted retryIdentity mutation batch index)
    (hchecked : (state.heads state.activeHead).checkAppend batch = .ok ()) :
    OwnedSound state.preparedActive (state.prepared state.publication state.activeHead
      ((state.heads state.activeHead).reservation batch) retryIdentity mutation batch) := by
  have howned : OwnedSound state (state.prepared state.publication state.activeHead
      ((state.heads state.activeHead).reservation batch) retryIdentity mutation batch) :=
    ⟨rfl, hsound.activeHead_sound.reservation hchecked, rfl, hadmitted.fresh, hadmitted.room,
      (validateAppendDeduplication_ok (hsound.readable hadmitted.found hadmitted.index_le)).1
        hadmitted.distinct, ⟨hadmitted.table, hadmitted.tablet⟩, rfl⟩
  exact howned.control (Control.preparedActive state)

variable {head : MutableHeadState}

/-- The rows that a rotation shows. -/
lemma shownRows_preparedRotated (hsound : TabletSound state)
    (hrotates : state.Rotates index batch head) :
    shownRows ((state.preparedRotated index head).publication.generations.map
        (state.preparedRotated index head).generationOf)
      = shownRows (state.publication.generations.map state.generationOf) := by
  obtain ⟨_, _, _, _, _, hempty, _⟩ := rotates_head hrotates
  have hsame : ∀ g ∈ state.publication.generations,
      ((state.preparedRotated index head).heads g.head).rows g.publication
        = (state.heads g.head).rows g.publication ∧
      ((state.preparedRotated index head).heads g.head).schema = (state.heads g.head).schema := by
    intro g hg
    have hcontrol := preparedRotated_heads_of_ne index head g.head (hsound.current g hg).1.ne
    exact ⟨hcontrol.rows _, hcontrol.schema⟩
  have hnew : ((state.preparedRotated index head).heads state.headCount).rows head.publication
      = [] := rows_of_empty hempty
  -- the old active generation is either retained or empty
  rw [preparedRotated_generations, topology]
  simp only [shownRows, flatMap_map, TabletPublication.generations, flatMap_append,
    flatMap_cons, flatMap_nil, append_nil, generationOf]
  have hold : ∀ g ∈ state.publication.generations,
      (((state.preparedRotated index head).heads g.head).rows g.publication).map
          (fun row => (((state.preparedRotated index head).heads g.head).schema, row))
        = ((state.heads g.head).rows g.publication).map
          (fun row => ((state.heads g.head).schema, row)) := by
    intro g hg
    rw [(hsame g hg).1, (hsame g hg).2]
  have hsnapshot : (head.snapshot state.headCount).head = state.headCount := rfl
  have hpublication : (head.snapshot state.headCount).publication = head.publication := rfl
  rw [hsnapshot, hpublication, hnew, map_nil, append_nil]
  split_ifs with hretain
  · rw [flatMap_append, flatMap_cons, flatMap_nil, append_nil,
      hold _ (active_mem _), flatMap_congr fun g hg => hold g (sealed_mem hg)]
  · have hrows : (state.heads state.publication.activeGeneration.head).rows
        state.publication.activeGeneration.publication = [] :=
      rows_of_empty (not_not.1 fun h => hretain (decide_eq_true h))
    rw [hrows, map_nil, append_nil, flatMap_congr fun g hg => hold g (sealed_mem hg)]

/-- An append that is prepared with a rotation is owned. -/
lemma OwnedSound.preparedRotated (hsound : TabletSound state)
    (hadmitted : state.Admitted retryIdentity mutation batch index)
    (hrotates : state.Rotates index batch head) :
    OwnedSound (state.preparedRotated index head) (state.prepared (state.topology head)
      state.headCount (head.reservation batch) retryIdentity mutation batch) := by
  obtain ⟨_, _, _, _, _, _, hhead⟩ := rotates_head hrotates
  refine ⟨rfl, ?_, rfl, hadmitted.fresh, hadmitted.room, ?_, ⟨hadmitted.table, hadmitted.tablet⟩,
    rfl⟩
  · show PreparedSound ((state.preparedRotated index head).heads state.headCount) _
    rw [preparedRotated_heads_new]
    exact (ControlOnly.reserved head).preparedSound (hhead.reservation hrotates.checked)
  · rw [shownRows_preparedRotated hsound hrotates]
    exact (validateAppendDeduplication_ok
      (hsound.readable hadmitted.found hadmitted.index_le)).1 hadmitted.distinct

end Shown

/-! ### Publishing -/

section Publish

variable {state : TabletState} {prepared : PreparedTabletAppend} {position : HeadCommitPosition}

variable {g : HeadSnapshot}

lemma afterPublish_heads_of_ne (hsound : TabletSound state) (howned : OwnedSound state prepared)
    (hg : g ∈ state.publication.sealedGenerations) :
    (state.afterPublish prepared position).heads g.head = state.heads g.head := by
  have hne := (hsound.retained g hg).2.1
  rw [← howned.address] at hne
  simp [TabletState.afterPublish, TabletState.setHead, hne]

lemma afterPublish_heads_active (howned : OwnedSound state prepared) :
    (state.afterPublish prepared position).heads state.activeHead
      = (state.heads state.activeHead).published prepared.headAppend position := by
  simp [TabletState.afterPublish, TabletState.setHead, howned.address]

lemma afterPublish_sealed (howned : OwnedSound state prepared) :
    (state.afterPublish prepared position).publication.sealedGenerations
      = state.publication.sealedGenerations := by
  rw [← howned.base]
  rfl

/-- The active generation after a publication is the boundary of the active head. -/
lemma afterPublish_active (hsound : TabletSound state) (howned : OwnedSound state prepared) :
    (state.afterPublish prepared position).publication.activeGeneration
      = ((state.heads state.activeHead).published prepared.headAppend position).snapshot
          state.activeHead := by
  simp only [TabletState.afterPublish, appended, nextPublication, howned.base, hsound.active_eq]
  rfl

/-- The generations after a publication: the sealed ones as before, the active one grown. -/
lemma afterPublish_mem (howned : OwnedSound state prepared)
    (hg : g ∈ (state.afterPublish prepared position).publication.generations) :
    g ∈ state.publication.sealedGenerations ∨
      g = (state.afterPublish prepared position).publication.activeGeneration := by
  rcases mem_append.1 hg with hg | hg
  · rw [afterPublish_sealed howned] at hg
    exact .inl hg
  · exact .inr (mem_singleton.1 hg)

/-- The rows of the active generation after a publication. -/
lemma afterPublish_activeRows (hsound : TabletSound state) (howned : OwnedSound state prepared) :
    generationRows (state.afterPublish prepared position).heads
        (state.afterPublish prepared position).publication.activeGeneration
      = generationRows state.heads state.publication.activeGeneration
        ++ batchRows prepared.headAppend.batch position := by
  rw [afterPublish_active hsound howned, hsound.active_eq]
  show ((state.afterPublish prepared position).heads state.activeHead).rows _ = _
  rw [afterPublish_heads_active howned]
  exact rows_published hsound.activeHead_sound howned.reservation

/-- The rows of a batch are typed. -/
lemma batchRows_typed {batch : ColumnarBatch} {row : HeadRow}
    (hrow : row ∈ batchRows batch position) : RowTyped batch.schema row.cells := by
  obtain ⟨_, hi, rfl⟩ := mem_map.1 hrow
  exact batch_row_typed batch (mem_range.1 hi)

/-- **A publication keeps a tablet sound.** -/
lemma TabletSound.afterPublish (hsound : TabletSound state) (howned : OwnedSound state prepared) :
    TabletSound (state.afterPublish prepared position) := by
  have hactive : (state.afterPublish prepared position).publication.activeGeneration = _ :=
    afterPublish_active hsound howned
  have hschema : (state.afterPublish prepared position).publication.activeGeneration.schema
      = state.publication.activeGeneration.schema := by
    rw [hactive, hsound.active_eq]
    rfl
  refine ⟨hsound.lineage, hsound.ordered, fun address haddress => ?_, ?_, fun g hg => ?_,
    fun g hg => ?_, ?_, fun g hg => ?_, ?_, fun g hg row hrow => ?_⟩
  · by_cases heq : address = state.activeHead
    · subst heq
      rw [afterPublish_heads_active howned]
      exact ⟨hsound.activeHead_sound.published howned.reservation, (hsound.heads _ haddress).2⟩
    · have hsame : (state.afterPublish prepared position).heads address = state.heads address := by
        simp [TabletState.afterPublish, TabletState.setHead, howned.address, heq]
      rw [hsame]
      exact hsound.heads address haddress
  · rw [hactive]
    rfl
  · rcases afterPublish_mem howned hg with hg | rfl
    · rw [afterPublish_heads_of_ne hsound howned hg]
      exact hsound.current g (sealed_mem hg)
    · rw [hactive]
      refine ⟨hsound.activeHead_lt, ?_⟩
      show _ = ((state.afterPublish prepared position).heads state.activeHead).snapshot
        state.activeHead
      rw [afterPublish_heads_active howned]
  · rw [afterPublish_sealed howned] at hg
    rw [afterPublish_heads_of_ne hsound howned hg]
    exact hsound.retained g hg
  · have hincreasing := pairwise_append.1 hsound.increasing
    rw [TabletPublication.generations, afterPublish_sealed howned, pairwise_append]
    refine ⟨hincreasing.1, pairwise_singleton _ _, fun g hg g' hg' => ?_⟩
    rw [mem_singleton.1 hg', hactive]
    have hlt := hincreasing.2.2 g hg _ (mem_singleton_self _)
    rwa [hsound.active_eq] at hlt
  · rcases afterPublish_mem howned hg with hg | rfl
    · exact hsound.schemaOf g (sealed_mem hg)
    · rw [hschema]
      exact hsound.schemaOf _ (active_mem _)
  · rw [hschema]
    exact hsound.activeSchema
  · rcases afterPublish_mem howned hg with hg | rfl
    · rw [generationRows, afterPublish_heads_of_ne hsound howned hg] at hrow
      exact hsound.typed g (sealed_mem hg) row hrow
    · rw [afterPublish_activeRows hsound howned, mem_append] at hrow
      rw [hschema]
      rcases hrow with hrow | hrow
      · exact hsound.typed _ (active_mem _) row hrow
      · have htyped := batchRows_typed hrow
        rw [howned.reservation.schema] at htyped
        rw [hsound.active_eq]
        exact htyped

lemma HeadsRetain.afterPublish (hsound : TabletSound state) (howned : OwnedSound state prepared) :
    HeadsRetain state (state.afterPublish prepared position) := by
  refine ⟨le_rfl, fun address haddress => ?_⟩
  by_cases heq : address = state.activeHead
  · subst heq
    rw [afterPublish_heads_active howned]
    exact .published hsound.activeHead_sound howned.reservation
  · have hsame : (state.afterPublish prepared position).heads address = state.heads address := by
      simp [TabletState.afterPublish, TabletState.setHead, howned.address, heq]
    rw [hsame]
    exact .refl _

end Publish

/-! ### Retirement, schemas and creation -/

section Others

variable {state : TabletState}

/-- The state without one sealed generation. -/
def TabletState.withoutSealed (state : TabletState) (index : ℕ) : TabletState :=
  { state with
    publication := { state.publication with
      sealedGenerations := state.publication.sealedGenerations.eraseIdx index } }

lemma withoutSealed_sublist (index : ℕ) :
    (state.withoutSealed index).publication.generations.Sublist state.publication.generations :=
  (eraseIdx_sublist _ _).append (.refl _)

/-- A retirement keeps a tablet sound. -/
lemma TabletSound.withoutSealed (hsound : TabletSound state) (index : ℕ) :
    TabletSound (state.withoutSealed index) where
  __ := hsound
  current g hg := hsound.current g ((withoutSealed_sublist index).subset hg)
  retained g hg := hsound.retained g (mem_of_mem_eraseIdx hg)
  increasing := hsound.increasing.sublist (withoutSealed_sublist index)
  schemaOf g hg := hsound.schemaOf g ((withoutSealed_sublist index).subset hg)
  typed g hg := hsound.typed g ((withoutSealed_sublist index).subset hg)

/-- The state with one more schema. -/
def TabletState.withSchema (state : TabletState) (registered : RegisteredSchema)
    (lineage : SchemaLineage) : TabletState :=
  { state with schemas := state.schemas ++ [registered], lineage := lineage }

variable {schema : TableSchema}

lemma schemas_append_getElem? (schemas : List RegisteredSchema) (registered : RegisteredSchema)
    {i : ℕ} (h : schemas[i]?.map (·.schema) = some schema) :
    (schemas ++ [registered])[i]?.map (·.schema) = some schema := by
  obtain ⟨_, hfound, -⟩ := Option.map_eq_some_iff.1 h
  rw [List.getElem?_append_left (List.getElem?_eq_some_iff.1 hfound).1]
  exact h

/-- A registered schema keeps a tablet sound. -/
lemma TabletSound.withSchema (hsound : TabletSound state) {registered : RegisteredSchema}
    {lineage : SchemaLineage} (hlineage : state.lineage.append registered.schema = .ok lineage) :
    TabletSound (state.withSchema registered lineage) := by
  obtain ⟨hschemas, hordered⟩ := SchemaLineage.append_ordered hlineage hsound.ordered
  refine ⟨?_, hordered, hsound.heads, hsound.address, hsound.current, hsound.retained,
    hsound.increasing, fun g hg => ?_, ?_, hsound.typed⟩
  · show (state.schemas ++ [registered]).map (·.schema) = lineage.schemas
    rw [map_append, hsound.lineage, hschemas]
    rfl
  · obtain ⟨i, hi, hschema⟩ := hsound.schemaOf g hg
    exact ⟨i, hi, schemas_append_getElem? _ _ hschema⟩
  · exact schemas_append_getElem? _ _ hsound.activeSchema

/-- A tablet is sound when it is created. -/
lemma TabletSound.create {tabletId : TabletId} {config : TabletStateConfig}
    (hcreate : create schema tabletId config = .ok state) : TabletSound state := by
  rw [TabletState.create] at hcreate
  split at hcreate
  · cases hcreate
  obtain ⟨_, hhead, hcreate⟩ := Result.bind_eq_ok.1 hcreate
  obtain ⟨_, hlineage, hcreate⟩ := Result.bind_eq_ok.1 hcreate
  cases hcreate
  have hsound := HeadSound.create hhead
  obtain ⟨_, _, hhead⟩ := Result.bind_eq_ok.1 hhead
  cases hhead
  rw [SchemaLineage.create] at hlineage
  split at hlineage
  · cases hlineage
  cases hlineage
  have hgenerations : ∀ {g : HeadSnapshot} {s : HeadSnapshot},
      g ∈ TabletPublication.generations ⟨none, [], s, ∅⟩ → g = s :=
    fun hg => mem_singleton.1 hg
  refine ⟨rfl, pairwise_singleton _ _, fun _ _ => ⟨hsound, rfl⟩, rfl, fun g hg => ?_,
    fun g hg => absurd hg not_mem_nil, pairwise_singleton _ _, fun g hg => ?_, rfl,
    fun g hg row hrow => ?_⟩
  · rw [hgenerations hg]
    exact ⟨Nat.one_pos, rfl⟩
  · rw [hgenerations hg]
    exact ⟨0, le_rfl, rfl⟩
  · rw [hgenerations hg, generationRows, rows_of_empty rfl] at hrow
    cases hrow

end Others

end Chronos.Ingest
