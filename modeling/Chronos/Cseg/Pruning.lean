import Chronos.Common.Formats
import Chronos.Manifest.Model

/-!
`src/cseg/pruning.cpp`: the granules of a CSEG part that an event-time predicate may match.

* `EventTimePredicate`: an optional lower and an optional upper bound, each open or closed, and
  `EventTimePredicate.Matches`, the times between them.
* `csegEventTimeRangeMayMatch`, `planCsegV1EventTimePruning`: the test of a stored range and the
  plan of a part.
* `Plans`: what a plan is for: the selected granules are some of the granules in increasing order,
  every granule with a matching row is one of them, and the counts are the sums over both kinds.

The counter of skipped granules cannot pass its `uint32`: there are at most as many granules as the
`uint32` limit allows.
-/

namespace Chronos.Cseg

open List Result

open Manifest (PartId)

/-- `EventTimeBound`. -/
structure EventTimeBound where
  value : ℤ
  inclusive : Bool
  deriving DecidableEq, Repr

/-- The times that a lower bound admits. -/
def EventTimeBound.AtLeast (bound : EventTimeBound) (t : ℤ) : Prop :=
  bound.value < t ∨ (bound.value = t ∧ bound.inclusive = true)

/-- The times that an upper bound admits. -/
def EventTimeBound.AtMost (bound : EventTimeBound) (t : ℤ) : Prop :=
  t < bound.value ∨ (t = bound.value ∧ bound.inclusive = true)

/-- `EventTimePredicate`. -/
structure EventTimePredicate where
  lower : Option EventTimeBound
  upper : Option EventTimeBound
  deriving DecidableEq, Repr

/-- `TimestampRangePredicate::matches`, the filter of the rows of a scan. -/
def EventTimePredicate.matchesTimestamp (predicate : EventTimePredicate) (timestampNs : ℤ) : Bool :=
  if predicate.lower.any fun lower =>
      timestampNs < lower.value || (timestampNs == lower.value && !lower.inclusive) then false
  else predicate.upper.all fun upper =>
    timestampNs < upper.value || (timestampNs == upper.value && upper.inclusive)

/-- The times between the bounds of a predicate. -/
def EventTimePredicate.Matches (predicate : EventTimePredicate) (t : ℤ) : Prop :=
  (∀ bound ∈ predicate.lower, bound.AtLeast t) ∧ ∀ bound ∈ predicate.upper, bound.AtMost t

/-- The filter lets through the times between the bounds. -/
lemma EventTimePredicate.matchesTimestamp_iff (predicate : EventTimePredicate) (t : ℤ) :
    predicate.matchesTimestamp t = true ↔ predicate.Matches t := by
  obtain ⟨_ | ⟨_, _⟩, _ | ⟨_, _⟩⟩ := predicate <;>
    simp [EventTimePredicate.matchesTimestamp, EventTimePredicate.Matches, EventTimeBound.AtLeast,
      EventTimeBound.AtMost] <;> grind

/-! ### Ranges -/

/-- `predicate_is_empty`. -/
def predicateIsEmpty (predicate : EventTimePredicate) : Bool :=
  match predicate.lower, predicate.upper with
  | some lower, some upper =>
    if lower.value ≠ upper.value then upper.value < lower.value
    else !lower.inclusive || !upper.inclusive
  | _, _ => false

/-- `range_is_disjoint`. -/
def rangeIsDisjoint (minimum maximum : ℤ) (predicate : EventTimePredicate) : Bool :=
  if predicateIsEmpty predicate then true
  else if predicate.lower.any fun lower =>
      maximum < lower.value || (maximum == lower.value && !lower.inclusive) then true
  else predicate.upper.any fun upper =>
    upper.value < minimum || (minimum == upper.value && !upper.inclusive)

variable {minimum maximum t : ℤ}

/-- A range that counts as disjoint has no matching time. -/
lemma not_matches_of_rangeIsDisjoint {predicate : EventTimePredicate}
    (hdisjoint : rangeIsDisjoint minimum maximum predicate = true) (hmin : minimum ≤ t)
    (hmax : t ≤ maximum) : ¬predicate.Matches t := by
  rintro ⟨hlower, hupper⟩
  obtain ⟨lower, upper⟩ := predicate
  simp only [rangeIsDisjoint] at hdisjoint
  split_ifs at hdisjoint with hempty hbelow
  · match lower, upper with
    | none, _ => cases hempty
    | some _, none => cases hempty
    | some lower, some upper =>
      have hl : lower.AtLeast t := hlower lower rfl
      have hu : upper.AtMost t := hupper upper rfl
      simp only [predicateIsEmpty, EventTimeBound.AtLeast, EventTimeBound.AtMost] at hempty hl hu
      split_ifs at hempty with hne <;> grind
  · obtain ⟨lower, rfl, hbelow⟩ := Option.any_eq_true _ _ |>.1 hbelow
    have hl : lower.AtLeast t := hlower lower rfl
    simp only [EventTimeBound.AtLeast] at hl
    grind
  · obtain ⟨upper, rfl, _⟩ := Option.any_eq_true _ _ |>.1 hdisjoint
    have hu : upper.AtMost t := hupper upper rfl
    simp only [EventTimeBound.AtMost] at hu
    grind

/-- The answer of `cseg_event_time_range_may_match` for an ordered range. -/
def mayMatch (minimum maximum : ℤ) (predicate : Option EventTimePredicate) : Bool :=
  predicate.all fun predicate => !rangeIsDisjoint minimum maximum predicate

/-- `cseg_event_time_range_may_match`. -/
def csegEventTimeRangeMayMatch (minimum maximum : ℤ) (predicate : Option EventTimePredicate) :
    Result Bool :=
  if maximum < minimum then
    .error ⟨.invalidArgument, "CSEG pruning range has reversed stored extrema"⟩
  else .ok (mayMatch minimum maximum predicate)

variable {predicate : Option EventTimePredicate}

lemma csegEventTimeRangeMayMatch_eq_ok {b : Bool} :
    csegEventTimeRangeMayMatch minimum maximum predicate = .ok b ↔
      minimum ≤ maximum ∧ mayMatch minimum maximum predicate = b := by
  rw [csegEventTimeRangeMayMatch]
  split_ifs with hreversed
  · simp [not_le.2 hreversed]
  · simp [not_lt.1 hreversed]

/-- Some predicate, or none, matches a time. -/
def Admits (predicate : Option EventTimePredicate) (t : ℤ) : Prop :=
  ∀ p ∈ predicate, p.Matches t

/-- A range with a matching time may match. -/
lemma mayMatch_of_admits (hmatch : Admits predicate t) (hmin : minimum ≤ t) (hmax : t ≤ maximum) :
    mayMatch minimum maximum predicate = true := by
  cases predicate with
  | none => rfl
  | some predicate =>
    by_contra hnot
    have hdisjoint : rangeIsDisjoint minimum maximum predicate = true := by
      simpa [mayMatch] using hnot
    exact not_matches_of_rangeIsDisjoint hdisjoint hmin hmax (hmatch predicate rfl)

/-! ### Plans -/

/-- The part of `CsegGranuleDescriptor` that pruning reads. -/
structure CsegGranuleDescriptor where
  rowCount : ℕ
  minimumEventTime : ℤ
  maximumEventTime : ℤ
  deriving DecidableEq, Repr

/-- The part of `DecodedCsegMetadataView` that pruning reads. -/
structure CsegMetadata where
  partId : PartId
  minimumEventTime : ℤ
  maximumEventTime : ℤ
  granules : List CsegGranuleDescriptor

/-- `CsegEventTimePruningPlan`. -/
structure CsegEventTimePruningPlan where
  partId : PartId
  selectedGranules : List ℕ
  selectedRows : ℕ
  skippedRows : ℕ
  skippedGranules : ℕ
  deriving DecidableEq

/-- `std::numeric_limits<std::uint32_t>::max()`. -/
def u32Max : ℕ := 2 ^ 32 - 1

/-- The test of a granule: none is read once the part is known to be disjoint. -/
def granuleMayMatch (partMayMatch : Bool) (predicate : Option EventTimePredicate)
    (granule : CsegGranuleDescriptor) : Result Bool :=
  if partMayMatch then
    csegEventTimeRangeMayMatch granule.minimumEventTime granule.maximumEventTime predicate
  else .ok false

/-- The body of the loop of `plan_cseg_v1_event_time_pruning`. -/
def planGranule (partMayMatch : Bool) (predicate : Option EventTimePredicate)
    (plan : CsegEventTimePruningPlan) (entry : CsegGranuleDescriptor × ℕ) :
    Result CsegEventTimePruningPlan := do
  let matched ← granuleMayMatch partMayMatch predicate entry.1
  if matched then
    let rows ← requireSome ⟨.resourceExhausted, "CSEG pruning row accounting overflows"⟩
      (checkedAdd plan.selectedRows entry.1.rowCount)
    require (entry.2 ≤ u32Max) ⟨.resourceExhausted, "CSEG pruning ordinal exceeds uint32"⟩
    .ok { plan with selectedGranules := plan.selectedGranules ++ [entry.2], selectedRows := rows }
  else
    let rows ← requireSome ⟨.resourceExhausted, "CSEG pruning row accounting overflows"⟩
      (checkedAdd plan.skippedRows entry.1.rowCount)
    .ok { plan with skippedRows := rows, skippedGranules := plan.skippedGranules + 1 }

/-- `plan_cseg_v1_event_time_pruning`. -/
def planCsegV1EventTimePruning (metadata : CsegMetadata) (predicate : Option EventTimePredicate)
    (maxGranules : ℕ) : Result CsegEventTimePruningPlan := do
  require (metadata.granules.length ≤ maxGranules)
    ⟨.resourceExhausted, "CSEG pruning plan exceeds its configured granule limit"⟩
  let partMayMatch ←
    csegEventTimeRangeMayMatch metadata.minimumEventTime metadata.maximumEventTime predicate
  metadata.granules.zipIdx.foldlM (planGranule partMayMatch predicate)
    ⟨metadata.partId, [], 0, 0, 0⟩

/-- The rows of the granules whose ordinal has a property. -/
def CsegMetadata.rowsOf (metadata : CsegMetadata) (P : ℕ → Prop) [DecidablePred P] : ℕ :=
  ((metadata.granules.zipIdx.filter fun entry => P entry.2).map fun entry => entry.1.rowCount).sum

/-- The event times of the rows of each granule, which the stored extrema bound. -/
structure Bounds (metadata : CsegMetadata) (times : ℕ → List ℤ) : Prop where
  part : ∀ ordinal < metadata.granules.length, ∀ t ∈ times ordinal,
    metadata.minimumEventTime ≤ t ∧ t ≤ metadata.maximumEventTime
  granule : ∀ entry ∈ metadata.granules.zipIdx, ∀ t ∈ times entry.2,
    entry.1.minimumEventTime ≤ t ∧ t ≤ entry.1.maximumEventTime

/-- The stored extrema are in order. -/
def Ordered (metadata : CsegMetadata) : Prop :=
  metadata.minimumEventTime ≤ metadata.maximumEventTime ∧
    ∀ granule ∈ metadata.granules, granule.minimumEventTime ≤ granule.maximumEventTime

/-- A plan selects granules in increasing order, among them every one with a matching row, and
counts the rows of both kinds. -/
structure Plans (metadata : CsegMetadata) (matched : ℤ → Prop) (times : ℕ → List ℤ)
    (plan : CsegEventTimePruningPlan) : Prop where
  part : plan.partId = metadata.partId
  increasing : plan.selectedGranules.Pairwise (· < ·)
  present : ∀ ordinal ∈ plan.selectedGranules, ordinal < metadata.granules.length
  superset : ∀ ordinal < metadata.granules.length, ∀ t ∈ times ordinal, matched t →
    ordinal ∈ plan.selectedGranules
  selectedRows : plan.selectedRows = metadata.rowsOf (· ∈ plan.selectedGranules)
  skippedRows : plan.skippedRows = metadata.rowsOf (· ∉ plan.selectedGranules)
  skippedGranules :
    plan.skippedGranules + plan.selectedGranules.length = metadata.granules.length

section Loop

variable {partMayMatch : Bool} {predicate : Option EventTimePredicate}

/-- Whether the loop selects a granule. -/
def selects (partMayMatch : Bool) (predicate : Option EventTimePredicate)
    (entry : CsegGranuleDescriptor × ℕ) : Bool :=
  partMayMatch && mayMatch entry.1.minimumEventTime entry.1.maximumEventTime predicate

variable {entry : CsegGranuleDescriptor × ℕ}

lemma granuleMayMatch_eq_ok {b : Bool}
    (h : granuleMayMatch partMayMatch predicate entry.1 = .ok b) :
    b = selects partMayMatch predicate entry := by
  cases partMayMatch with
  | false => exact (Except.ok.inj h).symm
  | true => exact (csegEventTimeRangeMayMatch_eq_ok.1 h).2.symm

variable {plan next : CsegEventTimePruningPlan}

/-- What one step of the loop adds. -/
lemma planGranule_eq_ok (h : planGranule partMayMatch predicate plan entry = .ok next) :
    (selects partMayMatch predicate entry = true ∧
      next = { plan with
        selectedGranules := plan.selectedGranules ++ [entry.2]
        selectedRows := plan.selectedRows + entry.1.rowCount }) ∨
    (selects partMayMatch predicate entry = false ∧
      next = { plan with
        skippedRows := plan.skippedRows + entry.1.rowCount
        skippedGranules := plan.skippedGranules + 1 }) := by
  rw [planGranule, bind_eq_ok] at h
  obtain ⟨_, hmatched, h⟩ := h
  obtain rfl := granuleMayMatch_eq_ok hmatched
  split_ifs at h with hselects
  · simp only [bind_eq_ok, requireSome_eq_ok, require_eq_ok, exists_const] at h
    obtain ⟨rows, hrows, -, h⟩ := h
    obtain rfl := checkedAdd_eq_some hrows
    exact .inl ⟨hselects, (Except.ok.inj h).symm⟩
  · simp only [bind_eq_ok, requireSome_eq_ok] at h
    obtain ⟨_, hrows, h⟩ := h
    obtain rfl := checkedAdd_eq_some hrows
    exact .inr ⟨Bool.eq_false_iff.2 hselects, (Except.ok.inj h).symm⟩

variable {entries : List (CsegGranuleDescriptor × ℕ)}

/-- What the loop adds. -/
lemma planGranules_eq_ok (h : entries.foldlM (planGranule partMayMatch predicate) plan = .ok next) :
    next.partId = plan.partId ∧
    next.selectedGranules = plan.selectedGranules ++
      (entries.filter (selects partMayMatch predicate)).map Prod.snd ∧
    next.selectedRows = plan.selectedRows +
      ((entries.filter (selects partMayMatch predicate)).map (·.1.rowCount)).sum ∧
    next.skippedRows = plan.skippedRows +
      ((entries.filter (!selects partMayMatch predicate ·)).map (·.1.rowCount)).sum ∧
    next.skippedGranules = plan.skippedGranules +
      (entries.filter (!selects partMayMatch predicate ·)).length := by
  induction entries generalizing plan with
  | nil =>
    cases Except.ok.inj h
    simp
  | cons entry entries ih =>
    rw [foldlM_cons, bind_eq_ok] at h
    obtain ⟨_, hstep, h⟩ := h
    obtain ⟨hpart, hselected, hselectedRows, hskippedRows, hskipped⟩ := ih h
    obtain ⟨hselects, rfl⟩ | ⟨hselects, rfl⟩ := planGranule_eq_ok hstep
    · simp only [hselects, filter_cons_of_pos, filter_cons_of_neg, Bool.not_true,
        Bool.false_eq_true, not_false_eq_true, map_cons, sum_cons]
      exact ⟨hpart, by simp [hselected], by simp [hselectedRows, Nat.add_assoc], hskippedRows,
        hskipped⟩
    · simp only [hselects, filter_cons_of_pos, filter_cons_of_neg, Bool.not_false,
        Bool.false_eq_true, not_false_eq_true, map_cons, sum_cons, length_cons]
      exact ⟨hpart, hselected, hselectedRows, by simp [hskippedRows, Nat.add_assoc],
        by rw [hskipped]; simp only; omega⟩

/-- The loop has a result when its counters cannot overflow. -/
lemma planGranules_isOk (partMayMatch : Bool) (predicate : Option EventTimePredicate)
    (hordered : ∀ entry ∈ entries, entry.1.minimumEventTime ≤ entry.1.maximumEventTime)
    (hordinals : ∀ entry ∈ entries, entry.2 ≤ u32Max) (plan : CsegEventTimePruningPlan)
    (hrows : plan.selectedRows + plan.skippedRows + (entries.map (·.1.rowCount)).sum ≤ u64Max) :
    ∃ next, entries.foldlM (planGranule partMayMatch predicate) plan = .ok next := by
  induction entries generalizing plan with
  | nil => exact ⟨plan, rfl⟩
  | cons entry entries ih =>
    rw [forall_mem_cons] at hordered hordinals
    rw [map_cons, sum_cons] at hrows
    obtain ⟨matched, hmatched⟩ : ∃ b, granuleMayMatch partMayMatch predicate entry.1 = .ok b := by
      rw [granuleMayMatch]
      split_ifs
      · exact ⟨_, csegEventTimeRangeMayMatch_eq_ok.2 ⟨hordered.1, rfl⟩⟩
      · exact ⟨false, rfl⟩
    obtain ⟨middle, hstep, hsum⟩ : ∃ middle,
        planGranule partMayMatch predicate plan entry = .ok middle ∧
        middle.selectedRows + middle.skippedRows =
          plan.selectedRows + plan.skippedRows + entry.1.rowCount := by
      rw [planGranule, hmatched]
      cases matched with
      | true =>
        have hadd := checkedAdd_of_le (show plan.selectedRows + entry.1.rowCount ≤ u64Max by omega)
        refine ⟨{ plan with
          selectedGranules := plan.selectedGranules ++ [entry.2]
          selectedRows := plan.selectedRows + entry.1.rowCount }, ?_, by simp only; omega⟩
        simp [bind, Except.bind, hadd, requireSome, require, hordinals.1]
      | false =>
        have hadd := checkedAdd_of_le (show plan.skippedRows + entry.1.rowCount ≤ u64Max by omega)
        refine ⟨{ plan with
          skippedRows := plan.skippedRows + entry.1.rowCount
          skippedGranules := plan.skippedGranules + 1 }, ?_, by simp only; omega⟩
        simp [bind, Except.bind, hadd, requireSome]
    obtain ⟨next, hnext⟩ := ih hordered.2 hordinals.2 middle (by omega)
    exact ⟨next, by rw [foldlM_cons, hstep]; exact hnext⟩

end Loop

/-- The granules of the loop are those of the ordinals it selected. -/
lemma mem_selected_iff {granules : List CsegGranuleDescriptor}
    {P : CsegGranuleDescriptor × ℕ → Bool}
    {entry : CsegGranuleDescriptor × ℕ} (hentry : entry ∈ granules.zipIdx) :
    entry.2 ∈ (granules.zipIdx.filter P).map Prod.snd ↔ P entry = true := by
  constructor
  · intro hmem
    obtain ⟨other, hother, hordinal⟩ := mem_map.1 hmem
    obtain ⟨hother, hP⟩ := mem_filter.1 hother
    have hsame : other = entry := by
      rw [mem_zipIdx_iff_getElem?] at hentry hother
      rw [hordinal, hentry] at hother
      exact Prod.ext (Option.some.inj hother).symm hordinal
    exact hsame ▸ hP
  · intro hP
    exact mem_map_of_mem (mem_filter.2 ⟨hentry, hP⟩)

variable {metadata : CsegMetadata} {maxGranules : ℕ}

/-- A returned plan is one for every predicate at most as wide and all rows within the extrema. -/
lemma plans_of_eq_ok {plan : CsegEventTimePruningPlan}
    (h : planCsegV1EventTimePruning metadata predicate maxGranules = .ok plan)
    {times : ℕ → List ℤ} (hbounds : Bounds metadata times) :
    Plans metadata (Admits predicate) times plan := by
  simp only [planCsegV1EventTimePruning, bind_eq_ok, require_eq_ok, exists_const,
    csegEventTimeRangeMayMatch_eq_ok] at h
  obtain ⟨-, partMayMatch, ⟨-, hpartMayMatch⟩, h⟩ := h
  obtain ⟨hpart, hselected, hselectedRows, hskippedRows, hskipped⟩ := planGranules_eq_ok h
  rw [nil_append] at hselected
  rw [Nat.zero_add] at hselectedRows hskippedRows hskipped
  have hmem : ∀ entry ∈ metadata.granules.zipIdx, (entry.2 ∈ plan.selectedGranules ↔
      selects partMayMatch predicate entry = true) := by
    rw [hselected]
    exact fun entry => mem_selected_iff
  have hordinals : metadata.granules.zipIdx.map Prod.snd = List.range metadata.granules.length := by
    rw [zipIdx_map_snd, range_eq_range']
  refine ⟨hpart, ?_, ?_, ?_, ?_, ?_, ?_⟩
  · -- the ordinals are taken in order from those of all granules
    have hsub : plan.selectedGranules.Sublist (List.range metadata.granules.length) := by
      rw [hselected, ← hordinals]
      exact filter_sublist.map _
    exact pairwise_lt_range.sublist hsub
  · intro ordinal hordinal
    rw [hselected] at hordinal
    obtain ⟨entry, hentry, rfl⟩ := mem_map.1 hordinal
    exact (snd_lt_of_mem_zipIdx (mem_filter.1 hentry).1)
  · intro ordinal hlt t ht hmatched
    have hentry : (metadata.granules[ordinal], ordinal) ∈ metadata.granules.zipIdx := by
      rw [mem_zipIdx_iff_getElem?, getElem?_eq_getElem hlt]
    obtain ⟨hmin, hmax⟩ := hbounds.part ordinal hlt t ht
    obtain ⟨hmin', hmax'⟩ := hbounds.granule _ hentry t ht
    refine (hmem _ hentry).2 ?_
    rw [selects, ← hpartMayMatch, mayMatch_of_admits hmatched hmin hmax,
      mayMatch_of_admits hmatched hmin' hmax', Bool.and_true]
  · rw [hselectedRows, CsegMetadata.rowsOf]
    congr 2
    refine filter_congr fun entry hentry => ?_
    simp [hmem entry hentry]
  · rw [hskippedRows, CsegMetadata.rowsOf]
    congr 2
    refine filter_congr fun entry hentry => ?_
    simp [hmem entry hentry]
  · rw [hskipped, hselected, length_map]
    have hsplit := length_eq_length_filter_add (l := metadata.granules.zipIdx)
      (selects partMayMatch predicate)
    rw [length_zipIdx] at hsplit
    omega

/-- A part with extrema in order has a plan within its limit. -/
lemma exists_plan (hlimit : maxGranules ≤ u32Max)
    (hlength : metadata.granules.length ≤ maxGranules) (hordered : Ordered metadata)
    (hrows : ∀ granule ∈ metadata.granules, granule.rowCount ≤ u32Max) :
    ∃ plan, planCsegV1EventTimePruning metadata predicate maxGranules = .ok plan := by
  have hsum : (metadata.granules.zipIdx.map (·.1.rowCount)).sum ≤ u64Max := by
    have hle := sum_le_card_nsmul (metadata.granules.zipIdx.map (·.1.rowCount)) u32Max (by
      rintro _ hmem
      obtain ⟨entry, hentry, rfl⟩ := mem_map.1 hmem
      exact hrows entry.1 (fst_mem_of_mem_zipIdx hentry))
    rw [length_map, length_zipIdx, smul_eq_mul] at hle
    calc (metadata.granules.zipIdx.map (·.1.rowCount)).sum
        ≤ metadata.granules.length * u32Max := hle
      _ ≤ u32Max * u32Max := Nat.mul_le_mul_right _ (hlength.trans hlimit)
      _ ≤ u64Max := by decide
  obtain ⟨plan, hplan⟩ := planGranules_isOk
    (mayMatch metadata.minimumEventTime metadata.maximumEventTime predicate) predicate
    (fun entry hentry => hordered.2 entry.1 (fst_mem_of_mem_zipIdx hentry))
    (fun entry hentry =>
      (snd_lt_of_mem_zipIdx hentry).le.trans (hlength.trans hlimit))
    ⟨metadata.partId, [], 0, 0, 0⟩ (by simpa using hsum)
  refine ⟨plan, ?_⟩
  simp only [planCsegV1EventTimePruning, bind_eq_ok, require_eq_ok, exists_const,
    csegEventTimeRangeMayMatch_eq_ok]
  exact ⟨hlength, _, ⟨hordered.1, rfl⟩, hplan⟩

end Chronos.Cseg
