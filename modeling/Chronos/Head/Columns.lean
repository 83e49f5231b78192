import Chronos.Head.Mutable

/-!
The buffers of a mutable head under an append.

* `StorageSound`: the buffers of a column have the lengths of the head's capacity
  and the offsets of the published rows lie within the published bytes.
* `view_materialize`, `value_retained`, `value_appended`: an append leaves the views
  at earlier boundaries as they were; at the new boundary an old row has its old
  value and a new row the value of the batch.
* `ColumnsFit`: the same for all columns of a head.
-/

namespace Chronos.Head

open Schema Columnar List ColumnStorage

/-! ### Writing into a buffer -/

section WriteAt

variable {α : Type} {buffer values : List α} {offset : ℕ}

lemma writeAt_length (h : offset + values.length ≤ buffer.length) :
    (writeAt buffer offset values).length = buffer.length := by
  simp only [writeAt, length_append, length_take, length_drop]
  omega

variable {n : ℕ}

/-- What lies before the write is kept. -/
lemma take_writeAt (hn : n ≤ offset) (ho : offset ≤ buffer.length) :
    (writeAt buffer offset values).take n = buffer.take n := by
  rw [writeAt, append_assoc, take_append_of_le_length (by simp; omega), take_take, min_eq_left hn]

variable {i : ℕ} {d : α}

lemma getD_writeAt_of_lt (hi : i < offset) (ho : offset ≤ buffer.length) :
    (writeAt buffer offset values).getD i d = buffer.getD i d := by
  simp only [getD_eq_getElem?_getD]
  rw [writeAt, append_assoc, getElem?_append_left (by simp; omega), getElem?_take_of_lt hi]

/-- What was written is read back. -/
lemma getD_writeAt_of_ge {j : ℕ} (hj : j < values.length) (ho : offset ≤ buffer.length) :
    (writeAt buffer offset values).getD (offset + j) d = values.getD j d := by
  have hlength : (buffer.take offset).length = offset := by simp; omega
  simp only [getD_eq_getElem?_getD]
  rw [writeAt, append_assoc, getElem?_append_right (by omega), hlength,
    Nat.add_sub_cancel_left, getElem?_append_left hj]

variable {width : ℕ}

/-- A slice of what was written is read back. -/
lemma slice_writeAt {k : ℕ} (hk : k + width ≤ values.length) (ho : offset ≤ buffer.length) :
    ((writeAt buffer offset values).drop (offset + k)).take width
      = (values.drop k).take width := by
  have hlength : (buffer.take offset).length = offset := by simp; omega
  rw [writeAt, append_assoc, ← drop_drop, drop_append_of_le_length hlength.ge,
    drop_of_length_le hlength.le, nil_append,
    drop_append_of_le_length (by omega), take_append_of_le_length (by simp; omega)]

/-- A slice within the first `n` entries does not see the others. -/
lemma slice_take {first last : ℕ} (hlast : last ≤ n) :
    ((buffer.take n).drop first).take (last - first) = (buffer.drop first).take (last - first) := by
  rw [drop_take, take_take, min_eq_left (by omega)]

/-- A slot of a buffer of fixed slots does not see the slots behind it. -/
lemma slot_take (hi : i < n) :
    ((buffer.take (n * width)).drop (i * width)).take width
      = (buffer.drop (i * width)).take width := by
  have hslot : (i + 1) * width ≤ n * width := Nat.mul_le_mul_right _ hi
  rw [Nat.add_mul, Nat.one_mul] at hslot
  rw [drop_take, take_take, min_eq_left (by omega)]

lemma getD_take (hi : i < n) : (buffer.take n).getD i d = buffer.getD i d := by
  simp only [getD_eq_getElem?_getD, getElem?_take_of_lt hi]

lemma getD_map_range {f : ℕ → α} (hi : i < n) :
    ((List.range n).map f).getD i d = f i := by
  rw [getD_eq_getElem?_getD, getElem?_map, getElem?_range hi]
  rfl

end WriteAt

/-! ### Sound storage -/

/-- A type is not both Boolean and of variable width. -/
lemma kind_ne_bool {type : LogicalType} (h : type.isVariableWidth = true) : type.kind ≠ .bool := by
  intro hbool
  simp [LogicalType.isVariableWidth, hbool] at h

/-- The buffers of one column fit the capacity, and the offsets of the published rows lie within
the published bytes. -/
structure StorageSound (capacity rows : ℕ) (storage : ColumnStorage) (frontier : ℕ) : Prop where
  validity : storage.definition.nullable = true → storage.validity.length = capacity
  booleans : storage.definition.type.kind = .bool → storage.booleanValues.length = capacity
  width : storage.fixedWidth =
    if storage.definition.type.kind = .bool || storage.definition.type.isVariableWidth then 0
    else Schema.fixedWidth storage.definition.type.kind
  slots : storage.fixedValues.length = capacity * storage.fixedWidth
  offsets : storage.definition.type.isVariableWidth = true →
    storage.variableOffsets.length = capacity + 1
  boundary : storage.definition.type.isVariableWidth = true →
    storage.variableOffsets.getD rows 0 = frontier
  bounded : storage.definition.type.isVariableWidth = true →
    ∀ i ≤ rows, storage.variableOffsets.getD i 0 ≤ frontier
  frontier_le : storage.definition.type.isVariableWidth = true →
    frontier ≤ storage.variableValues.length
  values_le : storage.definition.type.isVariableWidth = true →
    storage.variableValues.length ≤ maximumU32

/-- The buffers of a head are sound at its publication. -/
structure HeadSound (head : MutableHeadState) : Prop where
  definitions : head.columns.map (·.definition) = head.schema.columns
  storage : List.Forall₂ (StorageSound head.rowCapacity head.publication.rowCount) head.columns
    head.publication.variableFrontiers
  metadata : head.rowMetadata.length = head.rowCapacity
  rows_le : head.publication.rowCount ≤ head.rowCapacity

lemma StorageSound.empty (definition : ColumnDefinition) (rows : ℕ) {bytes : ℕ}
    (hbytes : definition.type.isVariableWidth = true → bytes ≤ maximumU32) :
    StorageSound rows 0 (empty definition rows bytes) 0 where
  validity h := by simp only [ColumnStorage.empty] at h ⊢; simp [h]
  booleans h := by simp only [ColumnStorage.empty] at h ⊢; simp [h]
  width := rfl
  slots := by
    simp only [ColumnStorage.empty]
    split <;> simp
  offsets h := by simp only [ColumnStorage.empty] at h ⊢; simp [h]
  boundary h := by simp only [ColumnStorage.empty] at h ⊢; simp [h]
  bounded h i hi := by
    obtain rfl : i = 0 := by omega
    simp only [ColumnStorage.empty] at h ⊢
    simp [h]
  frontier_le h := Nat.zero_le _
  values_le h := by
    simp only [ColumnStorage.empty] at h ⊢
    simpa [h] using hbytes h

lemma validateCapacities_le : ∀ {definitions : List ColumnDefinition} {capacities : List ℕ},
    capacities.length = definitions.length →
    validateCapacities definitions capacities = .ok () →
    List.Forall₂ (fun definition bytes =>
      definition.type.isVariableWidth = true → bytes ≤ maximumU32) definitions capacities := by
  intro definitions
  induction definitions with
  | nil =>
    intro capacities hlength _
    rw [length_eq_zero_iff.1 hlength]
    exact .nil
  | cons _ _ ih =>
    intro capacities hlength hok
    cases capacities with
    | nil => cases hlength
    | cons bytes capacities =>
      rw [validateCapacities] at hok
      split at hok
      · cases hok
      split at hok
      · cases hok
      rename_i hvariable
      exact .cons (fun h => by by_contra hgt; exact hvariable ⟨h, by omega⟩)
        (ih (by simpa using hlength) hok)

lemma emptyColumns_sound {definitions : List ColumnDefinition} {capacities : List ℕ} (rows : ℕ)
    (hle : List.Forall₂ (fun definition bytes =>
      definition.type.isVariableWidth = true → bytes ≤ maximumU32) definitions capacities) :
    (List.zipWith (fun definition bytes => empty definition rows bytes)
        definitions capacities).map (·.definition) = definitions ∧
      List.Forall₂ (StorageSound rows 0)
        (List.zipWith (fun definition bytes => empty definition rows bytes)
          definitions capacities) (List.replicate definitions.length 0) := by
  induction hle with
  | nil => exact ⟨rfl, .nil⟩
  | cons hbytes _ ih => exact ⟨congrArg (List.cons _) ih.1, .cons (.empty _ _ hbytes) ih.2⟩

/-- A head is sound when it is created. -/
lemma HeadSound.create {schema : TableSchema} {tabletId : TabletId} {generation : ℕ}
    {capacity : MutableHeadCapacity} {head : MutableHeadState}
    (hcreate : MutableHeadState.create schema tabletId generation capacity = .ok head) :
    HeadSound head := by
  obtain ⟨_, hvalid, hcreate⟩ := Result.bind_eq_ok.1 hcreate
  cases hcreate
  rw [validateHead] at hvalid
  split at hvalid
  · cases hvalid
  split at hvalid
  · cases hvalid
  rename_i hlength
  have hle := validateCapacities_le (not_not.1 hlength) hvalid
  obtain ⟨hdefinitions, hstorage⟩ := emptyColumns_sound capacity.rowCapacity hle
  exact ⟨hdefinitions, hstorage, by simp [MutableHeadState.empty], Nat.zero_le _⟩

/-! ### One column of an append -/

section Materialize

variable {storage : ColumnStorage} {source : ColumnVector} {capacity rows frontier : ℕ}

section

variable (startRow : ℕ)
include startRow

@[simp] lemma materialize_definition :
    (storage.materialize startRow frontier source).definition = storage.definition := by
  simp only [materialize]
  split_ifs <;> rfl

@[simp] lemma materialize_fixedWidth :
    (storage.materialize startRow frontier source).fixedWidth = storage.fixedWidth := by
  simp only [materialize]
  split_ifs <;> rfl

lemma materialize_validity :
    (storage.materialize startRow frontier source).validity =
      if source.metadata.nullable then
        writeAt storage.validity startRow ((List.range source.metadata.rowCount).map
          fun row => if bitAt source.buffers.validity row then 1 else 0)
      else storage.validity := by
  simp only [materialize]
  split_ifs <;> rfl

lemma materialize_booleanValues :
    (storage.materialize startRow frontier source).booleanValues =
      if source.metadata.type.kind = .bool then
        writeAt storage.booleanValues startRow ((List.range source.metadata.rowCount).map
          fun row => if bitAt source.buffers.values row then 1 else 0)
      else storage.booleanValues := by
  simp only [materialize]
  split_ifs <;> rfl

lemma materialize_fixedValues :
    (storage.materialize startRow frontier source).fixedValues =
      if source.metadata.type.kind = .bool || source.metadata.type.isVariableWidth then
        storage.fixedValues
      else writeAt storage.fixedValues (startRow * storage.fixedWidth) source.buffers.values := by
  simp only [materialize, Bool.or_eq_true, decide_eq_true_eq]
  split_ifs <;> simp_all

lemma materialize_variable :
    (storage.materialize startRow frontier source).variableOffsets =
      (if source.metadata.type.isVariableWidth then
        writeAt storage.variableOffsets (startRow + 1) ((List.range source.metadata.rowCount).map
          fun row => (frontier + source.buffers.offset (row + 1)) % 2 ^ 32)
      else storage.variableOffsets) ∧
    (storage.materialize startRow frontier source).variableValues =
      if source.metadata.type.isVariableWidth then
        writeAt storage.variableValues frontier source.buffers.values
      else storage.variableValues := by
  by_cases hvariable : source.metadata.type.isVariableWidth = true
  · simp only [materialize, hvariable, if_true, kind_ne_bool hvariable, if_false]
    split_ifs <;> exact ⟨rfl, rfl⟩
  · simp only [materialize, hvariable, if_false, Bool.false_eq_true]
    split_ifs <;> exact ⟨rfl, rfl⟩

end

/-- The append of one column fits: its rows lie within the capacity and its values within the
variable buffer. -/
structure ColumnFits (capacity rows : ℕ) (storage : ColumnStorage) (frontier : ℕ)
    (source : ColumnVector) : Prop where
  definition : source.Fits storage.definition
  rows_le : rows + source.metadata.rowCount ≤ capacity
  values_le : source.metadata.type.isVariableWidth = true →
    frontier + source.buffers.values.length ≤ storage.variableValues.length

section

variable (hsound : StorageSound capacity rows storage frontier)
  (hfits : ColumnFits capacity rows storage frontier source)
  (hvariable : source.metadata.type.isVariableWidth = true)
include hsound hfits hvariable

/-- The offsets that an append writes are below `2^32`. -/
lemma written_offset {row : ℕ} (hrow : row < source.metadata.rowCount) :
    (frontier + source.buffers.offset (row + 1)) % 2 ^ 32
      = frontier + source.buffers.offset (row + 1) := by
  have hoffsets := source.offsets_sound hvariable
  have hle := hoffsets.mono (show row + 1 ≤ source.metadata.rowCount by omega) le_rfl
  rw [hoffsets.last] at hle
  have hvalues := hfits.values_le hvariable
  have hmax := hsound.values_le (hfits.definition.2.1 ▸ hvariable)
  have : maximumU32 < 2 ^ 32 := by decide
  exact Nat.mod_eq_of_lt (by omega)

/-- The offset of a row of the appended batch. -/
lemma appended_offset {row : ℕ} (hrow : row ≤ source.metadata.rowCount) :
    (storage.materialize rows frontier source).variableOffsets.getD (rows + row) 0
      = frontier + source.buffers.offset row := by
  have hdefinition : storage.definition.type.isVariableWidth = true :=
    hfits.definition.2.1 ▸ hvariable
  have hlength := hsound.offsets hdefinition
  have hcapacity := hfits.rows_le
  rw [(materialize_variable _).1, if_pos hvariable]
  rcases Nat.eq_zero_or_pos row with rfl | hpos
  · rw [getD_writeAt_of_lt (by omega) (by omega), (source.offsets_sound hvariable).first]
    exact hsound.boundary hdefinition
  · obtain ⟨row, rfl⟩ := Nat.exists_eq_succ_of_ne_zero hpos.ne'
    rw [show rows + row.succ = rows + 1 + row by omega,
      getD_writeAt_of_ge (by simp; omega) (by omega)]
    simp only [getD_eq_getElem?_getD, getElem?_map]
    rw [getElem?_range (by omega), Option.map_some, Option.getD_some,
      written_offset hsound hfits hvariable (by omega)]

end

variable {i : ℕ}

section

variable (hsound : StorageSound capacity rows storage frontier)
  (hfits : ColumnFits capacity rows storage frontier source)
include hsound hfits

/-- The offset of a row that was already published. -/
lemma retained_offset (hi : i ≤ rows) (hvariable : source.metadata.type.isVariableWidth = true) :
    (storage.materialize rows frontier source).variableOffsets.getD i 0
      = storage.variableOffsets.getD i 0 := by
  have hlength := hsound.offsets (hfits.definition.2.1 ▸ hvariable)
  have hcapacity := hfits.rows_le
  rw [(materialize_variable _).1, if_pos hvariable, getD_writeAt_of_lt (by omega) (by omega)]

/-- An append keeps the storage of a column sound at the new boundary. -/
lemma StorageSound.materialize :
    StorageSound capacity (rows + source.metadata.rowCount)
      (storage.materialize rows frontier source) (nextFrontier frontier source) := by
  obtain ⟨⟨-, htype, hnullable⟩, hrows, hvalues⟩ := id hfits
  have hoffset := appended_offset hsound hfits
  refine ⟨fun h => ?_, fun h => ?_, ?_, ?_, fun h => ?_, fun h => ?_, fun h i hi => ?_, fun h => ?_,
    fun h => ?_⟩
  · rw [materialize_definition] at h
    have hlength := hsound.validity h
    rw [materialize_validity, if_pos (hnullable.trans h), writeAt_length (by simp; omega)]
    exact hlength
  · rw [materialize_definition] at h
    have hlength := hsound.booleans h
    rw [materialize_booleanValues, if_pos (htype ▸ h), writeAt_length (by simp; omega)]
    exact hlength
  · simpa using hsound.width
  · rw [materialize_fixedValues, materialize_fixedWidth]
    split_ifs with hkind
    · exact hsound.slots
    · simp only [Bool.or_eq_true, decide_eq_true_eq, not_or, Bool.not_eq_true] at hkind
      have hwidth : storage.fixedWidth = Schema.fixedWidth source.metadata.type.kind := by
        rw [hsound.width, ← htype, if_neg (by simp [hkind])]
      rw [writeAt_length, hsound.slots]
      rw [source.fixed_length hkind.2 hkind.1, hsound.slots, ← hwidth, ← Nat.add_mul]
      exact Nat.mul_le_mul_right _ hrows
  · rw [materialize_definition] at h
    have hlength := hsound.offsets h
    rw [(materialize_variable _).1, if_pos (htype ▸ h), writeAt_length (by simp; omega)]
    exact hlength
  · rw [materialize_definition, ← htype] at h
    rw [hoffset h le_rfl, (source.offsets_sound h).last, nextFrontier, if_pos h]
  · rw [materialize_definition, ← htype] at h
    rw [nextFrontier, if_pos h]
    rcases Nat.lt_or_ge i (rows + 1) with _ | _
    · rw [retained_offset hsound hfits (by omega) h]
      exact (hsound.bounded (htype ▸ h) i (by omega)).trans (Nat.le_add_right _ _)
    · obtain ⟨_, rfl⟩ := Nat.exists_eq_add_of_le (show rows ≤ i by omega)
      rw [hoffset h (by omega), ← (source.offsets_sound h).last]
      exact Nat.add_le_add_left ((source.offsets_sound h).mono (by omega) le_rfl) _
  · rw [materialize_definition, ← htype] at h
    rw [nextFrontier, if_pos h, (materialize_variable _).2, if_pos h, writeAt_length (hvalues h)]
    exact hvalues h
  · rw [materialize_definition, ← htype] at h
    rw [(materialize_variable _).2, if_pos h, writeAt_length (hvalues h)]
    exact hsound.values_le (htype ▸ h)

end

variable {n f : ℕ}

/-- An append leaves the view of a column at an earlier boundary as it was. -/
lemma view_materialize (hsound : StorageSound capacity rows storage frontier)
    (hfits : ColumnFits capacity rows storage frontier source) (hn : n ≤ rows) (hf : f ≤ frontier) :
    (storage.materialize rows frontier source).view n f = storage.view n f := by
  obtain ⟨⟨-, htype, hnullable⟩, _, -⟩ := hfits
  simp only [view, materialize_definition, materialize_fixedWidth]
  congr 1
  · refine if_congr Iff.rfl ?_ rfl
    rw [materialize_validity]
    split_ifs with h
    · exact take_writeAt hn (by rw [hsound.validity (hnullable ▸ h)]; omega)
    · rfl
  · refine if_congr Iff.rfl ?_ rfl
    rw [materialize_booleanValues]
    split_ifs with h
    · exact take_writeAt hn (by rw [hsound.booleans (htype ▸ h)]; omega)
    · rfl
  · refine if_congr Iff.rfl rfl ?_
    rw [materialize_fixedValues]
    split_ifs with h
    · rfl
    · refine take_writeAt (Nat.mul_le_mul_right _ hn) ?_
      rw [hsound.slots]
      exact Nat.mul_le_mul_right _ (by omega)
  · refine if_congr Iff.rfl ?_ rfl
    rw [(materialize_variable _).1]
    split_ifs with h
    · exact take_writeAt (by omega) (by rw [hsound.offsets (htype ▸ h)]; omega)
    · rfl
  · refine if_congr Iff.rfl ?_ rfl
    rw [(materialize_variable _).2]
    split_ifs with h
    · exact take_writeAt hf (hsound.frontier_le (htype ▸ h))
    · rfl

/-- A row reads the same at every boundary behind it. -/
lemma view_value_of_le {n' f' : ℕ} (hn : n ≤ n') (hf : f ≤ f') (hi : i < n)
    (hbound : storage.definition.type.isVariableWidth = true →
      storage.variableOffsets.getD (i + 1) 0 ≤ f) :
    (storage.view n' f').value i = (storage.view n f).value i := by
  simp only [HeadColumnView.value, view]
  congr 1
  · by_cases hnullable : storage.definition.nullable = true
    · simp only [hnullable, if_true, Bool.true_and]
      rw [getD_take hi, getD_take (hi.trans_le hn)]
    · simp only [Bool.not_eq_true] at hnullable
      simp only [hnullable, Bool.false_and]
  · refine if_congr Iff.rfl ?_ ?_
    · split
      · rw [getD_take hi, getD_take (hi.trans_le hn)]
      · rfl
    · by_cases hvariable : storage.definition.type.isVariableWidth = true
      · have hle := hbound hvariable
        simp only [hvariable, if_true]
        rw [getD_take (show i < n + 1 by omega), getD_take (show i < n' + 1 by omega),
          getD_take (show i + 1 < n + 1 by omega), getD_take (show i + 1 < n' + 1 by omega),
          slice_take hle, slice_take (hle.trans hf)]
      · simp only [hvariable, Bool.false_eq_true, if_false]
        split
        · rfl
        · rw [slot_take hi, slot_take (hi.trans_le hn)]

section

variable (hsound : StorageSound capacity rows storage frontier)
  (hfits : ColumnFits capacity rows storage frontier source)
include hsound hfits

/-- A published row keeps its value when the column grows. -/
lemma value_retained (hi : i < rows) :
    ((storage.materialize rows frontier source).view (rows + source.metadata.rowCount)
        (nextFrontier frontier source)).value i
      = (storage.view rows frontier).value i := by
  rw [← view_materialize hsound hfits le_rfl le_rfl]
  refine view_value_of_le (Nat.le_add_right _ _) ?_ hi fun h => ?_
  · rw [nextFrontier]
    split_ifs <;> omega
  · rw [materialize_definition] at h
    rw [retained_offset hsound hfits hi (hfits.definition.2.1 ▸ h)]
    exact hsound.bounded h _ hi

/-- An appended row has the value that the batch gave it. -/
lemma value_appended {j : ℕ} (hj : j < source.metadata.rowCount) :
    ((storage.materialize rows frontier source).view (rows + source.metadata.rowCount)
        (nextFrontier frontier source)).value (rows + j)
      = source.value j := by
  obtain ⟨⟨-, htype, hnullable⟩, _, _⟩ := id hfits
  have hlt : rows + j < rows + source.metadata.rowCount := by omega
  simp only [HeadColumnView.value, view, materialize_definition,
    materialize_fixedWidth, ColumnVector.value, rowNull, ← htype, ← hnullable]
  congr 1
  · -- the null marker
    by_cases h : source.metadata.nullable = true
    · simp only [h, if_true, Bool.true_and]
      rw [getD_take hlt, materialize_validity, if_pos h,
        getD_writeAt_of_ge (by simpa using hj) (by rw [hsound.validity (hnullable ▸ h)]; omega),
        getD_map_range hj]
      split_ifs with hbit <;> simp [hbit]
    · simp only [Bool.not_eq_true] at h
      simp only [h, Bool.false_and]
  · refine if_ctx_congr Iff.rfl (fun hbool => ?_) (fun hbool => ?_)
    · -- a Boolean value
      rw [if_pos hbool, getD_take hlt, materialize_booleanValues, if_pos hbool,
        getD_writeAt_of_ge (by simpa using hj) (by rw [hsound.booleans (htype ▸ hbool)]; omega),
        getD_map_range hj]
      split_ifs with hbit <;> simp [hbit]
    · refine if_ctx_congr Iff.rfl (fun hvariable => ?_) (fun hfixed => ?_)
      · -- a slice of the variable buffer
        have hlast := (source.offsets_sound hvariable).mono
          (show j + 1 ≤ source.metadata.rowCount by omega) le_rfl
        rw [(source.offsets_sound hvariable).last] at hlast
        have hmono := (source.offsets_sound hvariable).step j hj
        rw [if_pos hvariable, if_pos hvariable, getD_take (by omega), getD_take (by omega),
          Nat.add_assoc, appended_offset hsound hfits hvariable (by omega),
          appended_offset hsound hfits hvariable (by omega), nextFrontier, if_pos hvariable,
          slice_take (by omega), (materialize_variable _).2, if_pos hvariable,
          show frontier + source.buffers.offset (j + 1) - (frontier + source.buffers.offset j)
            = source.buffers.offset (j + 1) - source.buffers.offset j by omega,
          slice_writeAt (by omega) (hsound.frontier_le (htype ▸ hvariable))]
      · -- a fixed slot
        simp only [Bool.not_eq_true] at hfixed
        have hwidth : storage.fixedWidth = Schema.fixedWidth source.metadata.type.kind := by
          rw [hsound.width, ← htype, if_neg (by simp [hbool, hfixed])]
        have hslot : (j + 1) * storage.fixedWidth
            ≤ source.metadata.rowCount * storage.fixedWidth := Nat.mul_le_mul_right _ hj
        have hlength := source.fixed_length hfixed hbool
        rw [← hwidth] at hlength ⊢
        split
        · rename_i hzero
          simp [hzero]
        · rw [Nat.add_mul] at hslot
          rw [slot_take hlt, materialize_fixedValues, if_neg (by simp [hbool, hfixed]), Nat.add_mul,
            slice_writeAt (by omega) (by
              rw [hsound.slots]; exact Nat.mul_le_mul_right _ (by omega))]

end

end Materialize

/-! ### All columns of an append -/

/-- The columns of a head, its frontiers and the columns of a batch of `count` rows that fits. -/
inductive ColumnsFit (capacity rows count : ℕ) :
    List ColumnStorage → List ℕ → List ColumnVector → Prop
  | nil : ColumnsFit capacity rows count [] [] []
  | cons {storage frontier source columns frontiers sources}
      (sound : StorageSound capacity rows storage frontier)
      (fits : ColumnFits capacity rows storage frontier source)
      (rowCount : source.metadata.rowCount = count)
      (rest : ColumnsFit capacity rows count columns frontiers sources) :
      ColumnsFit capacity rows count (storage :: columns) (frontier :: frontiers)
        (source :: sources)

/-- The columns of `materialize`. -/
def materializeColumns (rows : ℕ) (columns : List ColumnStorage) (frontiers : List ℕ)
    (sources : List ColumnVector) : List ColumnStorage :=
  List.zipWith (fun (storage, frontier) source =>
    ColumnStorage.materialize storage rows frontier source) (columns.zip frontiers) sources

/-- The views of some columns at a boundary. -/
def columnViews (rows : ℕ) (columns : List ColumnStorage) (frontiers : List ℕ) :
    List HeadColumnView :=
  List.zipWith (fun storage frontier => ColumnStorage.view storage rows frontier) columns frontiers

section ColumnsFit

variable {capacity rows count : ℕ} {columns : List ColumnStorage} {frontiers : List ℕ}
  {sources : List ColumnVector}

section

variable (hfit : ColumnsFit capacity rows count columns frontiers sources)
include hfit

lemma materializeColumns_definitions :
    (materializeColumns rows columns frontiers sources).map (·.definition)
      = columns.map (·.definition) := by
  induction hfit with
  | nil => rfl
  | cons _ _ _ _ ih => exact congrArg₂ List.cons (materialize_definition _) ih

lemma materializeColumns_sound :
    List.Forall₂ (StorageSound capacity (rows + count))
      (materializeColumns rows columns frontiers sources)
      (List.zipWith nextFrontier frontiers sources) := by
  induction hfit with
  | nil => exact .nil
  | cons hsound hfits hcount _ ih => exact .cons (hcount ▸ hsound.materialize hfits) ih

lemma columnViews_materialize {n : ℕ} (hn : n ≤ rows) {earlier : List ℕ}
    (hle : List.Forall₂ (· ≤ ·) earlier frontiers) :
    columnViews n (materializeColumns rows columns frontiers sources) earlier
      = columnViews n columns earlier := by
  induction hfit generalizing earlier with
  | nil => rfl
  | cons hsound hfits _ _ ih =>
    cases hle with
    | cons hf hle => exact congrArg₂ List.cons (view_materialize hsound hfits hn hf) (ih hle)

lemma values_retained {i : ℕ} (hi : i < rows) :
    (columnViews (rows + count) (materializeColumns rows columns frontiers sources)
        (List.zipWith nextFrontier frontiers sources)).map (·.value i)
      = (columnViews rows columns frontiers).map (·.value i) := by
  induction hfit with
  | nil => rfl
  | cons hsound hfits hcount _ ih =>
    exact congrArg₂ List.cons (hcount ▸ value_retained hsound hfits hi) ih

lemma values_appended {j : ℕ} (hj : j < count) :
    (columnViews (rows + count) (materializeColumns rows columns frontiers sources)
        (List.zipWith nextFrontier frontiers sources)).map (·.value (rows + j))
      = sources.map (·.value j) := by
  induction hfit with
  | nil => rfl
  | cons hsound hfits hcount _ ih =>
    exact congrArg₂ List.cons (hcount ▸ value_appended hsound hfits (hcount ▸ hj)) ih

lemma frontiers_le_next :
    List.Forall₂ (· ≤ ·) frontiers (List.zipWith nextFrontier frontiers sources) := by
  induction hfit with
  | nil => exact .nil
  | cons _ _ _ _ ih =>
    refine .cons ?_ ih
    rw [nextFrontier]
    split_ifs <;> omega

end

lemma frontiers_le_trans {first second third : List ℕ} (h : List.Forall₂ (· ≤ ·) first second)
    (h' : List.Forall₂ (· ≤ ·) second third) : List.Forall₂ (· ≤ ·) first third := by
  induction h generalizing third with
  | nil => exact h'
  | cons hle _ ih =>
    cases h' with
    | cons hle' h' => exact .cons (hle.trans hle') (ih h')

/-- What `validate_append` has checked of the columns. -/
lemma columnsFit_of_validate (hsound : List.Forall₂ (StorageSound capacity rows) columns frontiers)
    (hshape : List.Forall₂ (fun column definition => ColumnVector.Fits column definition ∧
      column.metadata.rowCount = count) sources (columns.map (·.definition)))
    (hrows : rows + count ≤ capacity) (hok : validateFrontiers columns frontiers sources = .ok ()) :
    ColumnsFit capacity rows count columns frontiers sources := by
  induction hsound generalizing sources with
  | nil =>
    cases hshape
    exact .nil
  | @cons _ _ _ _ hcolumn _ ih =>
    cases hshape with
    | @cons source _ _ _ hsource hshape =>
      obtain ⟨hdefinition, hcount⟩ := hsource
      rw [validateFrontiers] at hok
      by_cases hvariable : source.metadata.type.isVariableWidth = true
      · simp only [hvariable, Bool.not_true, Bool.false_eq_true, if_false] at hok
        split at hok
        · cases hok
        · rename_i next hnext
          split at hok
          · cases hok
          · rename_i hle
            obtain rfl := checkedAdd_eq_some hnext
            exact .cons hcolumn ⟨hdefinition, hcount ▸ hrows, fun _ => not_lt.1 hle⟩ hcount
              (ih hshape hok)
      · simp only [hvariable, Bool.not_false, if_true] at hok
        exact .cons hcolumn ⟨hdefinition, hcount ▸ hrows, fun h => absurd h hvariable⟩ hcount
          (ih hshape hok)

end ColumnsFit

end Chronos.Head
