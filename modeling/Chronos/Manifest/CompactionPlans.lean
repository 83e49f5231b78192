import Chronos.Manifest.CompactionPlanner

/-!
What the compaction planner plans.

* `mem_deltaParts`: a part is a delta exactly if an earlier one of its group ends after it begins.
* `Plans`: what a plan says of the parts it names.
* `planGroup_spec`, `planGroup_isSome`: every plan is of this kind, and a late part that overlaps an
  earlier one gives a plan if both fit.
* `append_only_compaction_planning`: the same for whole lists of parts, in any order.
-/

namespace Chronos.Manifest

open Schema List PartDescriptor
open Chronos.Sort

/-! ### Keys -/

lemma sameGroup_iff (left right : PartDescriptor) :
    sameGroup left right = true ↔ left.groupKey = right.groupKey := by
  simp [sameGroup, groupKey, Subtype.ext_iff]

variable {κ : Type*} {parts : List PartDescriptor}

/-- A key from which the identity can be read tells the parts apart. -/
lemma nodup_map_key {key : PartDescriptor → κ} (hids : (parts.map (·.partId)).Nodup)
    (hkey : ∀ a b : PartDescriptor, key a = key b → a.partId = b.partId) :
    (parts.map key).Nodup := by
  rw [List.Nodup, pairwise_map] at hids ⊢
  exact hids.imp fun hne h => hne (hkey _ _ h)

variable {a b : PartDescriptor}

lemma arrivalKey_partId (h : a.arrivalKey = b.arrivalKey) :
    a.partId = b.partId :=
  Subtype.ext (congrArg (fun key => (ofLex key).2) h)

lemma classifyKey_partId (h : a.classifyKey = b.classifyKey) :
    a.partId = b.partId :=
  arrivalKey_partId (congrArg (fun key => (ofLex key).2) h)

lemma groupedKey_partId (h : a.groupedKey = b.groupedKey) :
    a.partId = b.partId :=
  Subtype.ext (congrArg (fun key => (ofLex key).2) h)

lemma groupKey_le_of_lex [LinearOrder κ] {g g' : List ℕ} {k k' : κ}
    (h : toLex (g, k) ≤ toLex (g', k')) : g ≤ g' := by
  rcases Prod.Lex.toLex_le_toLex.1 h with hlt | ⟨heq, -⟩
  · exact hlt.le
  · exact heq.le

/-! ### Roles -/

variable {part : PartDescriptor}

lemma mem_deltasFrom {frontier : ℤ}
    (hsorted : parts.Pairwise fun a b => a.arrivalKey < b.arrivalKey) :
    part ∈ deltasFrom frontier parts ↔ part ∈ parts ∧ (part.minimumEventTime < frontier ∨
      ∃ earlier ∈ parts, earlier.arrivalKey < part.arrivalKey ∧
        part.minimumEventTime < earlier.maximumEventTime) := by
  induction parts generalizing frontier with
  | nil => simp [deltasFrom]
  | cons x xs ih =>
    rw [pairwise_cons] at hsorted
    obtain ⟨hfirst, hsorted⟩ := hsorted
    have hrest := @ih (max frontier x.maximumEventTime) hsorted
    have hnot : x ∉ xs := fun hmem => lt_irrefl _ (hfirst x hmem)
    have hmem : part ∈ deltasFrom frontier (x :: xs) ↔ (part = x ∧ x.minimumEventTime < frontier) ∨
          part ∈ deltasFrom (max frontier x.maximumEventTime) xs := by
      rw [deltasFrom]
      split_ifs with hlt <;> simp [hlt]
    rw [hmem, hrest, mem_cons]
    by_cases hpart : part = x
    · -- no part of the rest arrived before the first
      subst hpart
      have hearlier : ∀ earlier ∈ xs, ¬earlier.arrivalKey < part.arrivalKey :=
        fun earlier hin => (hfirst earlier hin).not_gt
      simp only [hnot, false_and, or_false, true_and, exists_mem_cons_iff, lt_irrefl, false_or]
      exact ⟨.inl, fun h => h.resolve_right fun ⟨e, he, hlt, _⟩ => hearlier e he hlt⟩
    · simp only [hpart, false_and, false_or, lt_max_iff, exists_mem_cons_iff]
      refine and_congr_right fun hin => ?_
      simp only [hfirst part hin, true_and, or_assoc]

lemma mem_groupDeltas (hsorted : parts.Pairwise fun a b => a.arrivalKey < b.arrivalKey) :
    part ∈ groupDeltas parts ↔ part ∈ parts ∧ ∃ earlier ∈ parts,
      earlier.arrivalKey < part.arrivalKey ∧
        part.minimumEventTime < earlier.maximumEventTime := by
  cases parts with
  | nil => simp [groupDeltas]
  | cons x xs =>
    rw [pairwise_cons] at hsorted
    rw [groupDeltas, mem_deltasFrom hsorted.2, mem_cons]
    by_cases hpart : part ∈ xs
    · simp [hpart, hsorted.1 part hpart]
    · simp only [hpart, false_and, or_false, exists_mem_cons_iff, false_iff, not_and]
      rintro rfl (⟨hlt, -⟩ | ⟨e, he, hlt, -⟩)
      · exact absurd hlt (lt_irrefl _)
      · exact absurd hlt (hsorted.1 e he).not_gt

/-- A part is a delta exactly if an earlier part of its group ends after it begins. -/
lemma mem_deltaParts (hids : (parts.map (·.partId)).Nodup) :
    part ∈ deltaParts parts ↔ part ∈ parts ∧ ∃ earlier ∈ parts,
      earlier.groupKey = part.groupKey ∧ earlier.arrivalKey < part.arrivalKey ∧
        part.minimumEventTime < earlier.maximumEventTime := by
  have hstrict := sortBy_pairwise_lt (nodup_map_key hids fun _ _ => classifyKey_partId)
  have hsorted : (sortBy classifyKey parts).Pairwise
      fun a b => a.groupKey ≤ b.groupKey := hstrict.imp fun h => groupKey_le_of_lex h.le
  have hgroup : ∀ {c}, c ∈ groups sameGroup (sortBy classifyKey parts) →
      ∀ {a b}, a ∈ c → (b ∈ c ↔ b ∈ parts ∧ b.groupKey = a.groupKey) := by
    intro c hc a b ha
    rw [mem_of_mem_groups sameGroup_iff hsorted hc ha, mem_sortBy]
  have harrival : ∀ {c}, c ∈ groups sameGroup (sortBy classifyKey parts) →
      c.Pairwise fun a b => a.arrivalKey < b.arrivalKey := by
    intro c hc
    refine (hstrict.sublist (sublist_of_mem_chunks _ _ _ hc)).imp_of_mem fun ha hb hlt => ?_
    rcases Prod.Lex.toLex_lt_toLex.1 hlt with h | h
    · exact absurd ((hgroup hc hb).1 ha).2 h.ne
    · exact h.2
  rw [deltaParts, mem_flatMap]
  constructor
  · rintro ⟨c, hc, hmem⟩
    obtain ⟨hpart, earlier, hearlier, hlt, hbefore⟩ := (mem_groupDeltas (harrival hc)).1 hmem
    obtain ⟨hin, hkey⟩ := (hgroup hc hpart).1 hearlier
    exact ⟨((hgroup hc hpart).1 hpart).1, earlier, hin, hkey, hlt, hbefore⟩
  · rintro ⟨hpart, earlier, hearlier, hkey, hlt, hbefore⟩
    obtain ⟨c, hc, hmem⟩ :=
      exists_mem_groups ((mem_sortBy classifyKey).2 hpart)
    exact ⟨c, hc, (mem_groupDeltas (harrival hc)).2
      ⟨hmem, earlier, (hgroup hc hmem).2 ⟨hearlier, hkey⟩, hlt, hbefore⟩⟩

lemma roleOf_eq_delta :
    roleOf parts part = .delta ↔ part ∈ deltaParts parts := by
  simp [roleOf]

variable {parts' : List PartDescriptor}

/-- The roles do not depend on the order of the parts. -/
lemma roleOf_eq_of_perm (hperm : parts.Perm parts') (hids : (parts.map (·.partId)).Nodup) :
    roleOf parts = roleOf parts' := by
  have hids' := (hperm.map (·.partId)).nodup_iff.1 hids
  funext part
  rw [roleOf, roleOf]
  simp only [mem_deltaParts hids, mem_deltaParts hids', hperm.mem_iff]

variable {roles : PartDescriptor → AppendOnlyPartRole}

lemma classifyRoles_eq_ok {maximumParts : ℕ} :
    classifyRoles parts maximumParts = .ok roles ↔ parts.length ≤ maximumParts ∧
      (∀ part ∈ parts, part.Valid) ∧ (parts.map (·.partId)).Nodup ∧ roleOf parts = roles := by
  simp [classifyRoles, Result.bind_eq_ok]

/-- The classification does not depend on the order of the parts. -/
lemma classifyRoles_eq_of_perm (hperm : parts.Perm parts') (maximumParts : ℕ) :
    classifyRoles parts maximumParts = classifyRoles parts' maximumParts := by
  by_cases hids : (parts.map (·.partId)).Nodup
  · rw [classifyRoles, classifyRoles, roleOf_eq_of_perm hperm hids]
    simp only [hperm.length_eq, hperm.mem_iff, (hperm.map (·.partId)).nodup_iff]
  · have hids' : ¬(parts'.map (·.partId)).Nodup := by
      rwa [← (hperm.map (·.partId)).nodup_iff]
    rw [classifyRoles, classifyRoles, hperm.length_eq]
    simp only [hperm.mem_iff, require, if_neg hids, if_neg hids']
    rfl

/-- The plan does not depend on the order of the parts. -/
lemma planAppendOnlyCompaction_eq_of_perm (limits : AppendOnlyCompactionPlannerLimits)
    (hperm : parts.Perm parts') :
    planAppendOnlyCompaction limits parts = planAppendOnlyCompaction limits parts' := by
  rw [planAppendOnlyCompaction, planAppendOnlyCompaction, hperm.length_eq,
    classifyRoles_eq_of_perm hperm]
  cases hroles : classifyRoles parts' limits.maximumManifestParts with
  | error status => rfl
  | ok roles =>
    rw [← classifyRoles_eq_of_perm hperm] at hroles
    rw [sortBy_eq_of_perm hperm
      (nodup_map_key (classifyRoles_eq_ok.1 hroles).2.2.1 fun _ _ => groupedKey_partId)]

/-! ### Selections -/

variable {limits : AppendOnlyCompactionPlannerLimits} {selection : Selection}

lemma Selection.add_eq_some {next : Selection} (h : selection.add limits part = some next) :
    next = ⟨selection.parts ++ [part], selection.bytes + part.fileLength,
      selection.rows + part.rowCount⟩ ∧
    next.bytes ≤ limits.maximumInputBytes ∧ next.rows ≤ limits.maximumInputRows := by
  simp only [Selection.add, Option.bind_eq_bind, Option.bind_eq_some_iff] at h
  obtain ⟨_, hbytes, _, hrows, h⟩ := h
  obtain rfl := checkedAdd_eq_some hbytes
  obtain rfl := checkedAdd_eq_some hrows
  split_ifs at h with hover
  rw [not_or, not_lt, not_lt] at hover
  cases Option.some.inj h
  exact ⟨rfl, hover⟩

lemma Selection.add_of_le (hbytes : selection.bytes + part.fileLength ≤ limits.maximumInputBytes)
    (hrows : selection.rows + part.rowCount ≤ limits.maximumInputRows)
    (hmaximumBytes : limits.maximumInputBytes ≤ u64Max)
    (hmaximumRows : limits.maximumInputRows ≤ u64Max) :
    selection.add limits part = some ⟨selection.parts ++ [part],
      selection.bytes + part.fileLength, selection.rows + part.rowCount⟩ := by
  rw [Selection.add, checkedAdd_of_le (hbytes.trans hmaximumBytes),
    checkedAdd_of_le (hrows.trans hmaximumRows)]
  simp [not_lt.2 hbytes, not_lt.2 hrows]

/-- A selection counts its parts, within the limits. -/
structure Selection.Sound (limits : AppendOnlyCompactionPlannerLimits) (selection : Selection) :
    Prop where
  bytes : selection.bytes = (selection.parts.map (·.fileLength)).sum
  rows : selection.rows = (selection.parts.map (·.rowCount)).sum
  length_le : selection.parts.length ≤ limits.maximumInputParts
  bytes_le : selection.bytes ≤ limits.maximumInputBytes
  rows_le : selection.rows ≤ limits.maximumInputRows

variable {candidates : List PartDescriptor}

/-- The loop takes some of the candidates, in their order, and keeps within the limits. -/
lemma selectParts_sound {required : Bool} {result : Selection}
    (h : selectParts limits required candidates selection = some result)
    (hsound : selection.Sound limits) :
    result.Sound limits ∧ ∃ taken : List PartDescriptor, taken.Sublist candidates ∧
      result.parts = selection.parts ++ taken := by
  induction candidates generalizing required selection with
  | nil =>
    cases Option.some.inj h
    exact ⟨hsound, [], nil_sublist _, (append_nil _).symm⟩
  | cons part candidates ih =>
    rw [selectParts] at h
    by_cases hfull : limits.maximumInputParts ≤ selection.parts.length
    · rw [if_pos hfull] at h
      cases Option.some.inj h
      exact ⟨hsound, [], nil_sublist _, (append_nil _).symm⟩
    · rw [if_neg hfull] at h
      cases hadd : selection.add limits part with
      | none =>
        simp only [hadd] at h
        split_ifs at h
        obtain ⟨hresult, taken, hsub, hparts⟩ := ih h hsound
        exact ⟨hresult, taken, hsub.cons part, hparts⟩
      | some next =>
        simp only [hadd] at h
        obtain ⟨rfl, hbytes, hrows⟩ := Selection.add_eq_some hadd
        obtain ⟨hresult, taken, hsub, hparts⟩ := ih h
          ⟨by simp [hsound.bytes], by simp [hsound.rows],
            by simpa using Nat.succ_le_of_lt (Nat.lt_of_not_le hfull), hbytes, hrows⟩
        refine ⟨hresult, part :: taken, hsub.cons_cons part, ?_⟩
        rw [hparts, append_assoc, singleton_append]

/-- What a plan says of the parts it names. -/
structure Plans (limits : AppendOnlyCompactionPlannerLimits)
    (roles : PartDescriptor → AppendOnlyPartRole) (inputs : List PartDescriptor)
    (plan : PlannedAppendOnlyCompaction) : Prop where
  partIds : plan.inputPartIds = inputs.map (·.partId)
  increasing : plan.inputPartIds.Pairwise (· < ·)
  minimum_le : limits.minimumInputParts ≤ inputs.length
  le_maximum : inputs.length ≤ limits.maximumInputParts
  group : ∀ part ∈ inputs, part.tableId = plan.tableId ∧ part.tabletId = plan.tabletId ∧
    part.schemaId = plan.schemaId ∧ part.schemaVersion = plan.schemaVersion
  bytes : plan.inputBytes = (inputs.map (·.fileLength)).sum
  bytes_le : plan.inputBytes ≤ limits.maximumInputBytes
  rows : plan.inputRows = (inputs.map (·.rowCount)).sum
  rows_le : plan.inputRows ≤ limits.maximumInputRows
  minimum : (∀ part ∈ inputs, plan.minimumEventTime ≤ part.minimumEventTime) ∧
    ∃ part ∈ inputs, plan.minimumEventTime = part.minimumEventTime
  maximum : (∀ part ∈ inputs, part.maximumEventTime ≤ plan.maximumEventTime) ∧
    ∃ part ∈ inputs, plan.maximumEventTime = part.maximumEventTime
  deltas : plan.deltaInputParts = inputs.countP (roles · = .delta)

variable {plan : PlannedAppendOnlyCompaction}

/-- A plan of candidates of one group is a plan of some of them. -/
lemma makePlan_spec {requireFirst : Bool}
    (h : makePlan limits roles candidates requireFirst = some plan)
    (hids : (candidates.map (·.partId)).Nodup)
    (hgroup : ∀ a ∈ candidates, ∀ b ∈ candidates, a.groupKey = b.groupKey) :
    ∃ inputs, inputs ⊆ candidates ∧ Plans limits roles inputs plan := by
  simp only [makePlan, Option.bind_eq_bind, Option.bind_eq_some_iff] at h
  obtain ⟨selection, hselection, h⟩ := h
  split_ifs at h with hfew
  simp only [Option.bind_eq_some_iff, Option.some.injEq] at h
  obtain ⟨first, hfirst, rfl⟩ := h
  obtain ⟨hsound, _, hsub, hparts⟩ := selectParts_sound hselection
    ⟨rfl, rfl, Nat.zero_le _, Nat.zero_le _, Nat.zero_le _⟩
  rw [nil_append] at hparts
  subst hparts
  have hperm := sortBy_perm (fun part : PartDescriptor => part.partId) selection.parts
  have hsubset : sortBy (fun part : PartDescriptor => part.partId) selection.parts ⊆ candidates :=
    List.Subset.trans hperm.subset hsub.subset
  have hmem : first ∈ sortBy (fun part : PartDescriptor => part.partId) selection.parts :=
    mem_of_head? hfirst
  obtain ⟨hleast, -, hleastOne⟩ := foldl_min_spec minimumEventTime
    first.minimumEventTime (sortBy (fun part : PartDescriptor => part.partId) selection.parts)
  obtain ⟨hmost, -, hmostOne⟩ := foldl_max_spec maximumEventTime
    first.maximumEventTime (sortBy (fun part : PartDescriptor => part.partId) selection.parts)
  refine ⟨_, hsubset, rfl, ?_, ?_, ?_, ?_, ?_, hsound.bytes_le, ?_, hsound.rows_le, ⟨hleast, ?_⟩,
    ⟨hmost, ?_⟩, rfl⟩
  · rw [pairwise_map]
    exact sortBy_pairwise_lt ((hsub.map _).nodup hids)
  · rw [length_sortBy]
    exact Nat.le_of_not_lt hfew
  · rw [length_sortBy]
    exact hsound.length_le
  · intro part hpart
    have hkey := (sameGroup_iff part first).2 (hgroup _ (hsubset hpart) _ (hsubset hmem))
    simpa [sameGroup] using hkey
  · rw [(hperm.map _).sum_eq]
    exact hsound.bytes
  · rw [(hperm.map _).sum_eq]
    exact hsound.rows
  · exact hleastOne.elim (fun heq => ⟨first, hmem, heq⟩) id
  · exact hmostOne.elim (fun heq => ⟨first, hmem, heq⟩) id

/-! ### Groups -/

section Group

variable {roles : PartDescriptor → AppendOnlyPartRole} {group : List PartDescriptor}

lemma nodup_seedCandidates {arrival : List PartDescriptor} {seed : PartDescriptor}
    (hids : (arrival.map (·.partId)).Nodup) (hseed : seed ∈ arrival) :
    ((seedCandidates arrival seed).map (·.partId)).Nodup := by
  rw [seedCandidates, map_cons, nodup_cons]
  refine ⟨fun hmem => ?_, (filter_sublist.map _).nodup hids⟩
  obtain ⟨neighbor, hneighbor, heq⟩ := mem_map.1 hmem
  obtain ⟨hin, hne⟩ := mem_filter.1 hneighbor
  have hsame : neighbor = seed := inj_on_of_nodup_map hids hin hseed heq
  simp [hsame] at hne

/-- Every plan of a group names parts of it. -/
lemma planGroup_spec {plan : PlannedAppendOnlyCompaction}
    (h : planGroup limits roles group = some plan) (hids : (group.map (·.partId)).Nodup)
    (hgroup : ∀ a ∈ group, ∀ b ∈ group, a.groupKey = b.groupKey) :
    ∃ inputs, inputs ⊆ group ∧ Plans limits roles inputs plan := by
  have hperm := sortBy_perm arrivalKey group
  have hidsArrival := (hperm.map (·.partId)).nodup_iff.2 hids
  -- candidates of the group with different identities
  have hplan : ∀ {candidates requireFirst},
      makePlan limits roles candidates requireFirst = some plan →
      (candidates.map (·.partId)).Nodup → candidates ⊆ group →
      ∃ inputs, inputs ⊆ group ∧ Plans limits roles inputs plan := by
    intro _ _ hplan hnodup hsub
    obtain ⟨inputs, hinputs, hplans⟩ := makePlan_spec hplan hnodup
      fun a ha b hb => hgroup a (hsub ha) b (hsub hb)
    exact ⟨inputs, List.Subset.trans hinputs hsub, hplans⟩
  rw [planGroup, Option.or_eq_some_iff] at h
  rcases h with h | ⟨-, h⟩
  · obtain ⟨seed, hseed, h⟩ := exists_of_findSome?_eq_some h
    have hin : seed ∈ sortBy arrivalKey group := (mem_filter.1 hseed).1
    refine hplan h (nodup_seedCandidates hidsArrival hin) fun _ hpart => ?_
    rcases mem_cons.1 hpart with rfl | hpart
    · exact hperm.mem_iff.1 hin
    · exact hperm.mem_iff.1 (mem_filter.1 hpart).1
  · obtain ⟨_, hcomponent, h⟩ := exists_of_findSome?_eq_some h
    split_ifs at h
    have hpermRange := (sortBy_perm rangeKey _).trans hperm
    have hsub := sublist_of_mem_chunks _ _ _ hcomponent
    exact hplan h ((hsub.map _).nodup ((hpermRange.map _).nodup_iff.2 hids))
      (List.Subset.trans hsub.subset hpermRange.subset)

variable {late early : PartDescriptor}

/-- After one part that leaves room for another candidate, the loop ends with two parts. -/
lemma two_le_selectParts (hmaximum : 2 ≤ limits.maximumInputParts)
    (hmaximumBytes : limits.maximumInputBytes ≤ u64Max)
    (hmaximumRows : limits.maximumInputRows ≤ u64Max)
    (hbytes : late.fileLength + early.fileLength ≤ limits.maximumInputBytes)
    (hrows : late.rowCount + early.rowCount ≤ limits.maximumInputRows)
    {candidates : List PartDescriptor} {selection : Selection}
    (hstart : 2 ≤ selection.parts.length ∨ early ∈ candidates ∧
      selection = ⟨[late], late.fileLength, late.rowCount⟩) :
    ∃ result, selectParts limits false candidates selection = some result ∧
      2 ≤ result.parts.length := by
  induction candidates generalizing selection with
  | nil =>
    exact ⟨selection, rfl, hstart.resolve_right fun h => absurd h.1 not_mem_nil⟩
  | cons part candidates ih =>
    rw [selectParts]
    by_cases hfull : limits.maximumInputParts ≤ selection.parts.length
    · rw [if_pos hfull]
      exact ⟨selection, rfl, hmaximum.trans hfull⟩
    · rw [if_neg hfull]
      cases hadd : selection.add limits part with
      | some next =>
        obtain ⟨rfl, -⟩ := Selection.add_eq_some hadd
        refine ih (.inl ?_)
        rcases hstart with hstart | ⟨-, rfl⟩
        · simp only [length_append, length_singleton]
          omega
        · simp
      | none =>
        refine ih (hstart.imp_right fun ⟨hmem, hselection⟩ => ⟨?_, hselection⟩)
        -- the early part fits after the late one
        refine (mem_cons.1 hmem).resolve_left fun heq => ?_
        subst heq hselection
        rw [Selection.add_of_le hbytes hrows hmaximumBytes hmaximumRows] at hadd
        cases hadd

/-- A delta and an overlapping part that fit together give a plan of their group. -/
lemma planGroup_isSome (hlimits : limits.Valid) (hminimum : limits.minimumInputParts = 2)
    (hmaximumBytes : limits.maximumInputBytes ≤ u64Max)
    (hmaximumRows : limits.maximumInputRows ≤ u64Max) (hlate : late ∈ group)
    (hearly : early ∈ group) (hne : early ≠ late) (hrole : roles late = .delta)
    (hoverlap : rangesOverlap late early = true)
    (hbytes : late.fileLength + early.fileLength ≤ limits.maximumInputBytes)
    (hrows : late.rowCount + early.rowCount ≤ limits.maximumInputRows) :
    (planGroup limits roles group).isSome := by
  have hmaximum : 2 ≤ limits.maximumInputParts := hlimits.1.trans hlimits.2.1
  have hmem : early ∈ (sortBy arrivalKey group).filter
      fun neighbor => neighbor ≠ late ∧ rangesOverlap late neighbor := by
    simp [hearly, hne, hoverlap]
  have hfirst : (Selection.mk [] 0 0).add limits late =
      some ⟨[late], 0 + late.fileLength, 0 + late.rowCount⟩ :=
    Selection.add_of_le (by simp only; omega) (by simp only; omega) hmaximumBytes hmaximumRows
  obtain ⟨result, hresult, _⟩ := two_le_selectParts hmaximum hmaximumBytes hmaximumRows hbytes
    hrows (.inr ⟨hmem, rfl⟩)
  have hselect : selectParts limits true
      (seedCandidates (sortBy arrivalKey group) late) ⟨[], 0, 0⟩ = some result := by
    rw [seedCandidates, selectParts, if_neg (by simp only [length_nil]; omega), hfirst]
    simpa using hresult
  have hplan : (makePlan limits roles
      (seedCandidates (sortBy arrivalKey group) late) true).isSome := by
    obtain ⟨first, hhead⟩ : ∃ first, (sortBy (fun part : PartDescriptor => part.partId)
        result.parts).head? = some first := by
      rw [← Option.isSome_iff_exists, isSome_head?, ← length_pos_iff, length_sortBy]
      omega
    rw [makePlan, hselect]
    have hnot : ¬result.parts.length < limits.minimumInputParts := by omega
    simp [hnot, hhead]
  rw [planGroup, Option.isSome_or, Bool.or_eq_true]
  refine .inl (findSome?_isSome_iff.2 ⟨late, ?_, hplan⟩)
  simp [hlate, hrole]

end Group

/-! ### All parts -/

/-- The groups of the planner are the classes of the group key. -/
lemma mem_plannerGroup {group : List PartDescriptor}
    (hgroup : group ∈ groups sameGroup (sortBy groupedKey parts)) (ha : a ∈ group) :
    b ∈ group ↔ b ∈ parts ∧ b.groupKey = a.groupKey := by
  have hsorted : (sortBy groupedKey parts).Pairwise fun a b => a.groupKey ≤ b.groupKey :=
    (sortBy_pairwise groupedKey parts).imp groupKey_le_of_lex
  rw [mem_of_mem_groups sameGroup_iff hsorted hgroup ha, mem_sortBy]

section

variable (hlimits : limits.Valid) (hvalid : ∀ part ∈ parts, part.Valid)
  (hids : (parts.map (·.partId)).Nodup)
include hlimits hvalid hids

lemma planAppendOnlyCompaction_eq_ok {result : Option PlannedAppendOnlyCompaction} :
    planAppendOnlyCompaction limits parts = .ok result ↔
      parts.length ≤ limits.maximumManifestParts ∧
      (if parts.length < limits.minimumInputParts then none
        else (groups sameGroup (sortBy groupedKey parts)).findSome?
          (planGroup limits (roleOf parts))) = result := by
  simp only [planAppendOnlyCompaction, Result.bind_eq_ok, require_eq_ok, exists_const,
    classifyRoles_eq_ok]
  constructor
  · rintro ⟨-, _, ⟨hlength, -, -, rfl⟩, h⟩
    split_ifs at h ⊢ <;> exact ⟨hlength, Except.ok.inj h⟩
  · rintro ⟨hlength, h⟩
    refine ⟨hlimits, _, ⟨hlength, hvalid, hids, rfl⟩, ?_⟩
    split_ifs at h ⊢ <;> rw [h]

/-- Every plan names parts of one group of the list. -/
lemma planAppendOnlyCompaction_spec (h : planAppendOnlyCompaction limits parts = .ok (some plan)) :
    ∃ inputs, inputs ⊆ parts ∧ Plans limits (roleOf parts) inputs plan := by
  obtain ⟨-, h⟩ := (planAppendOnlyCompaction_eq_ok hlimits hvalid hids).1 h
  split_ifs at h
  obtain ⟨_, hgroup, h⟩ := exists_of_findSome?_eq_some h
  have hsub := sublist_of_mem_chunks _ _ _ hgroup
  have hperm := sortBy_perm groupedKey parts
  obtain ⟨inputs, hinputs, hplans⟩ := planGroup_spec h
    ((hsub.map _).nodup ((hperm.map (·.partId)).nodup_iff.2 hids))
    fun _ ha _ hb => ((mem_plannerGroup hgroup hb).1 ha).2
  exact ⟨inputs, List.Subset.trans hinputs (List.Subset.trans hsub.subset hperm.subset), hplans⟩

/-- A late part that overlaps an earlier one gives a plan if both fit. -/
lemma exists_plan_of_overlap (hlength : parts.length ≤ limits.maximumManifestParts)
    (hminimum : limits.minimumInputParts = 2) (hmaximumBytes : limits.maximumInputBytes ≤ u64Max)
    (hmaximumRows : limits.maximumInputRows ≤ u64Max) {early late : PartDescriptor}
    (hearly : early ∈ parts) (hlate : late ∈ parts) (hgroup : early.groupKey = late.groupKey)
    (hbefore : early.arrivalKey < late.arrivalKey)
    (hbegins : late.minimumEventTime < early.maximumEventTime)
    (hends : early.minimumEventTime ≤ late.maximumEventTime)
    (hbytes : early.fileLength + late.fileLength ≤ limits.maximumInputBytes)
    (hrows : early.rowCount + late.rowCount ≤ limits.maximumInputRows) :
    ∃ plan, planAppendOnlyCompaction limits parts = .ok (some plan) := by
  have hne : early ≠ late := fun heq => lt_irrefl _ (heq ▸ hbefore)
  have htwo : ¬parts.length < limits.minimumInputParts := by
    rw [hminimum]
    have hsub : [early, late] ⊆ parts := by simp [hearly, hlate]
    exact not_lt.2 (subperm_of_subset (by simp [hne]) hsub).length_le
  obtain ⟨group, hin, hmem⟩ := exists_mem_groups ((mem_sortBy groupedKey).2 hlate)
  have hplan : (planGroup limits (roleOf parts) group).isSome :=
    planGroup_isSome hlimits hminimum hmaximumBytes hmaximumRows hmem
      ((mem_plannerGroup hin hmem).2 ⟨hearly, hgroup⟩) hne
      (roleOf_eq_delta.2 ((mem_deltaParts hids).2 ⟨hlate, early, hearly, hgroup, hbefore, hbegins⟩))
      (by simp [rangesOverlap, hbegins.le, hends]) (by omega) (by omega)
  obtain ⟨plan, hsome⟩ := Option.isSome_iff_exists.1 (findSome?_isSome_iff.2 ⟨group, hin, hplan⟩)
  exact ⟨plan, (planAppendOnlyCompaction_eq_ok hlimits hvalid hids).2
    ⟨hlength, by rw [if_neg htwo, hsome]⟩⟩

end

/-- **Append-only compaction planning.**  For valid parts with different identities and valid
limits: no order of the parts changes the plan, the refusal or the role of a part; a plan names
within the limits some parts of one group, by increasing identity, with their exact sums, extrema
and number of deltas; and if two parts suffice and the list is within the limit of the Manifest, a
part that begins before an earlier one of its group ends, overlaps it and fits with it gives a
plan. -/
theorem append_only_compaction_planning (limits : AppendOnlyCompactionPlannerLimits)
    (hlimits : limits.Valid) (hmaximumBytes : limits.maximumInputBytes ≤ u64Max)
    (hmaximumRows : limits.maximumInputRows ≤ u64Max) (parts : List PartDescriptor)
    (hvalid : ∀ part ∈ parts, part.Valid) (hids : (parts.map (·.partId)).Nodup) :
    (∀ parts', parts'.Perm parts →
      planAppendOnlyCompaction limits parts' = planAppendOnlyCompaction limits parts) ∧
    (∀ maximumParts,
      (∃ status, ∀ parts', parts'.Perm parts →
        classifyAppendOnlyParts parts' maximumParts = .error status) ∨
      ∃ role : PartDescriptor → AppendOnlyPartRole, ∀ parts', parts'.Perm parts →
        classifyAppendOnlyParts parts' maximumParts =
          .ok (parts'.map fun part => ⟨part.partId, role part⟩)) ∧
    (∀ plan, planAppendOnlyCompaction limits parts = .ok (some plan) →
      ∃ role inputs,
        classifyAppendOnlyParts parts limits.maximumManifestParts =
          .ok (parts.map fun part => ⟨part.partId, role part⟩) ∧
        inputs ⊆ parts ∧ Plans limits role inputs plan) ∧
    (limits.minimumInputParts = 2 → parts.length ≤ limits.maximumManifestParts →
      ∀ early ∈ parts, ∀ late ∈ parts, early.groupKey = late.groupKey →
        early.arrivalKey < late.arrivalKey →
        late.minimumEventTime < early.maximumEventTime →
        early.minimumEventTime ≤ late.maximumEventTime →
        early.fileLength + late.fileLength ≤ limits.maximumInputBytes →
        early.rowCount + late.rowCount ≤ limits.maximumInputRows →
        ∃ plan, planAppendOnlyCompaction limits parts = .ok (some plan)) := by
  refine ⟨fun parts' hperm => planAppendOnlyCompaction_eq_of_perm limits hperm,
    fun maximumParts => ?_, fun plan hplan => ?_, ?_⟩
  · cases hroles : classifyRoles parts maximumParts with
    | error status =>
      refine .inl ⟨status, fun parts' hperm => ?_⟩
      rw [classifyAppendOnlyParts, classifyRoles_eq_of_perm hperm, hroles]
      rfl
    | ok role =>
      refine .inr ⟨role, fun parts' hperm => ?_⟩
      rw [classifyAppendOnlyParts, classifyRoles_eq_of_perm hperm, hroles]
      rfl
  · obtain ⟨inputs, hinputs, hplans⟩ :=
      planAppendOnlyCompaction_spec hlimits hvalid hids hplan
    have hlength := ((planAppendOnlyCompaction_eq_ok hlimits hvalid hids).1 hplan).1
    refine ⟨roleOf parts, inputs, ?_, hinputs, hplans⟩
    rw [classifyAppendOnlyParts, classifyRoles_eq_ok.2 ⟨hlength, hvalid, hids, rfl⟩]
    rfl
  · intro hminimum hlength early hearly late hlate hgroup hbefore hbegins hends hbytes hrows
    exact exists_plan_of_overlap hlimits hvalid hids hlength hminimum hmaximumBytes hmaximumRows
      hearly hlate hgroup hbefore hbegins hends hbytes hrows

/-! ### Two overlapping parts -/

/-- A part of one row and one byte with an identity, a record sequence and a range. -/
def samplePart (id : PartId) (sequence : ℕ) (least most : ℤ) : PartDescriptor :=
  ⟨id, 1, 1, 1, 1, 1, 1, sequence, sequence, least, most⟩

/-- The second of three parts begins before the first ends. -/
def sampleParts : List PartDescriptor :=
  [samplePart 1 1 0 10, samplePart 2 2 5 15, samplePart 3 3 20 30]

/-- The overlap of the first two parts is planned. -/
theorem append_only_compaction_planning_sample :
    ∃ plan, planAppendOnlyCompaction {} sampleParts = .ok (some plan) :=
  (append_only_compaction_planning {} (by decide) (by decide) (by decide) sampleParts (by decide)
    (by decide)).2.2.2 rfl (by decide) (samplePart ⟨1, by decide⟩ 1 0 10) (by decide)
    (samplePart ⟨2, by decide⟩ 2 5 15) (by decide) rfl (by decide) (by decide) (by decide)
    (by decide) (by decide)

/-- Limits that admit a Manifest of two parts only. -/
def narrowLimits : AppendOnlyCompactionPlannerLimits :=
  { maximumInputParts := 2, maximumManifestParts := 2 }

/-- The same parts are refused by limits that two of them fit. -/
theorem no_plan_over_manifest_limit :
    narrowLimits.Valid ∧ narrowLimits.minimumInputParts = 2 ∧
      (∀ part ∈ sampleParts, part.Valid) ∧ (sampleParts.map (·.partId)).Nodup ∧
      (∃ early ∈ sampleParts, ∃ late ∈ sampleParts, early.groupKey = late.groupKey ∧
        early.arrivalKey < late.arrivalKey ∧
        late.minimumEventTime < early.maximumEventTime ∧
        early.minimumEventTime ≤ late.maximumEventTime ∧
        early.fileLength + late.fileLength ≤ narrowLimits.maximumInputBytes ∧
        early.rowCount + late.rowCount ≤ narrowLimits.maximumInputRows) ∧
      planAppendOnlyCompaction narrowLimits sampleParts = .error ⟨.resourceExhausted,
        "Append-only part classification exceeds its configured part limit"⟩ :=
  ⟨by decide, rfl, by decide, by decide, by decide, by rfl⟩

end Chronos.Manifest
