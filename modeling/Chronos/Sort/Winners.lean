import Chronos.Sort.BottomUp

/-!
One winner per group: elements fall into groups, and the greatest by a rank is
chosen in each.

* `Selects`: a list holds one element of every group, none of which is outranked.
  Where ranks tell the elements of a group apart, it holds exactly the winners (`Selects.mem_iff`)
  and is unique up to its order (`Selects.perm`).
* `Selects.append`, `Selects.replace`: looking at one more element keeps a selection.
* `best`: the scan for the winner of one group (`selects_best`), whatever the order
  (`best_perm`).
* `selects_compact`: in a list ordered by group, and by falling rank inside a group,
  the first elements of the groups are a selection.
-/

namespace Chronos.Sort

open List

variable {α β γ ρ : Type} [Ord ρ]

/-! ### Selections -/

/-- An element that no element of its group outranks. -/
def IsWinner (group : α → γ) (rank : α → ρ) (rows : List α) (a : α) : Prop :=
  a ∈ rows ∧ ∀ b ∈ rows, group b = group a → (compare (rank b) (rank a)).isLE

/-- One element of each group, and none of the group outranks it. -/
structure Selects (group : α → γ) (rank : α → ρ) (rows chosen : List α) : Prop where
  subset : chosen ⊆ rows
  distinct : chosen.Pairwise fun a b => group a ≠ group b
  covers : ∀ a ∈ rows, ∃ b ∈ chosen, group b = group a ∧ (compare (rank a) (rank b)).isLE

namespace Selects

variable {group : α → γ} {rank : α → ρ} {rows rows' chosen chosen' : List α}

lemma nil : Selects group rank [] [] :=
  ⟨List.Subset.refl _, .nil, fun _ h => absurd h not_mem_nil⟩

/-- A selection does not depend on the order of the elements. -/
lemma of_perm (h : Selects group rank rows chosen) (hperm : rows.Perm rows') :
    Selects group rank rows' chosen :=
  ⟨fun _ ha => hperm.subset (h.subset ha), h.distinct,
    fun a ha => h.covers a (hperm.symm.subset ha)⟩

/-- A selection depends only on which elements fall into one group. -/
lemma of_group_iff {δ : Type} {group' : α → δ} (h : Selects group rank rows chosen)
    (hiff : ∀ a ∈ rows, ∀ b ∈ rows, group a = group b ↔ group' a = group' b) :
    Selects group' rank rows chosen where
  subset := h.subset
  distinct := h.distinct.imp_of_mem fun ha hb hne heq =>
    hne ((hiff _ (h.subset ha) _ (h.subset hb)).2 heq)
  covers a ha := by
    obtain ⟨b, hb, hgroup, hle⟩ := h.covers a ha
    exact ⟨b, hb, (hiff b (h.subset hb) a ha).1 hgroup, hle⟩

lemma map {f : β → α} {rows chosen : List β}
    (h : Selects (fun b => group (f b)) (fun b => rank (f b)) rows chosen) :
    Selects group rank (rows.map f) (chosen.map f) where
  subset := map_subset f h.subset
  distinct := pairwise_map.2 h.distinct
  covers a ha := by
    obtain ⟨b, hb, rfl⟩ := mem_map.1 ha
    obtain ⟨c, hc, hcover⟩ := h.covers b hb
    exact ⟨f c, mem_map_of_mem hc, hcover⟩

/-- The groups of a selection are those of the elements. -/
lemma mem_map_group (h : Selects group rank rows chosen) (g : γ) :
    g ∈ chosen.map group ↔ g ∈ rows.map group := by
  simp only [mem_map]
  constructor
  · rintro ⟨a, ha, rfl⟩
    exact ⟨a, h.subset ha, rfl⟩
  · rintro ⟨a, ha, rfl⟩
    obtain ⟨b, hb, hgroup, -⟩ := h.covers a ha
    exact ⟨b, hb, hgroup⟩

variable {a : α}

/-- Two chosen elements of one group are the same. -/
lemma eq_of_group (h : Selects group rank rows chosen) {b : α} (ha : a ∈ chosen) (hb : b ∈ chosen)
    (hgroup : group a = group b) : a = b := by
  have hsymm : Std.Symm fun a b => group a ≠ group b := ⟨fun _ _ hxy hyx => hxy hyx.symm⟩
  by_contra hne
  exact h.distinct.forall ha hb hne hgroup

/-- Every chosen element is a winner. -/
lemma isWinner (h : Selects group rank rows chosen) (ha : a ∈ chosen) :
    IsWinner group rank rows a := by
  refine ⟨h.subset ha, fun b hb hgroup => ?_⟩
  obtain ⟨c, hc, hcgroup, hle⟩ := h.covers b hb
  rwa [h.eq_of_group hc ha (hcgroup.trans hgroup)] at hle

variable [Std.TransOrd ρ] {row : α}

/-- An element of a new group is appended. -/
lemma append (h : Selects group rank rows chosen) (hnew : ∀ a ∈ chosen, group a ≠ group row) :
    Selects group rank (rows ++ [row]) (chosen ++ [row]) where
  subset := append_subset.2 ⟨List.Subset.trans h.subset (subset_append_left _ _),
    subset_append_right _ _⟩
  distinct := pairwise_append.2 ⟨h.distinct, pairwise_singleton _ _,
    fun a ha b hb => by rw [mem_singleton.1 hb]; exact hnew a ha⟩
  covers a ha := by
    rcases mem_append.1 ha with ha | ha
    · obtain ⟨b, hb, hcover⟩ := h.covers a ha
      exact ⟨b, mem_append_left _ hb, hcover⟩
    · rw [mem_singleton.1 ha]
      exact ⟨row, by simp, rfl, Std.ReflCmp.isLE_rfl⟩

/-- An element of a chosen group takes the place of the chosen one if it outranks it. -/
lemma replace {before after : List α} (h : Selects group rank rows (before ++ a :: after))
    (hgroup : group a = group row) :
    Selects group rank (rows ++ [row])
      (before ++ (if compare (rank row) (rank a) = .gt then row else a) :: after) := by
  set best := if compare (rank row) (rank a) = .gt then row else a with hbest
  have hbestGroup : group best = group a := by rw [hbest]; split_ifs <;> simp [hgroup]
  have hbestA : (compare (rank a) (rank best)).isLE := by
    rw [hbest]
    split_ifs with hgt
    · rw [Std.OrientedCmp.gt_iff_lt.1 hgt]; rfl
    · exact Std.ReflCmp.isLE_rfl
  have hbestRow : (compare (rank row) (rank best)).isLE := by
    rw [hbest]
    split_ifs with hgt
    · exact Std.ReflCmp.isLE_rfl
    · exact Ordering.isLE_iff_ne_gt.2 hgt
  have hmem : ∀ x ∈ before ++ best :: after, x ∈ before ++ a :: after ∨ x = best := by
    simp only [mem_append, mem_cons]
    tauto
  refine ⟨fun x hx => ?_, ?_, fun x hx => ?_⟩
  · rcases hmem x hx with hx | rfl
    · exact mem_append_left _ (h.subset hx)
    · rw [hbest]
      split_ifs
      · simp
      · exact mem_append_left _ (h.subset (by simp))
  · -- the groups are those of the selection before
    have hdistinct : ((before ++ a :: after).map group).Nodup := pairwise_map.2 h.distinct
    have hsame : (before ++ best :: after).map group = (before ++ a :: after).map group := by
      simp only [map_append, map_cons, hbestGroup]
    rw [← hsame] at hdistinct
    exact pairwise_map.1 hdistinct
  · rcases mem_append.1 hx with hx | hx
    · obtain ⟨b, hb, hbgroup, hle⟩ := h.covers x hx
      rcases mem_append.1 hb with hb | hb
      · exact ⟨b, mem_append_left _ hb, hbgroup, hle⟩
      · rcases mem_cons.1 hb with rfl | hb
        · exact ⟨best, by simp, hbestGroup.trans hbgroup, Std.TransCmp.isLE_trans hle hbestA⟩
        · exact ⟨b, by simp [hb], hbgroup, hle⟩
    · rw [mem_singleton.1 hx]
      exact ⟨best, by simp, hbestGroup.trans hgroup, hbestRow⟩

variable [Std.LawfulEqOrd ρ]

/-- Where ranks tell the elements of a group apart, the chosen ones are the winners. -/
lemma mem_iff (h : Selects group rank rows chosen)
    (hinj : ∀ a ∈ rows, ∀ b ∈ rows, group a = group b → rank a = rank b → a = b) :
    a ∈ chosen ↔ IsWinner group rank rows a := by
  refine ⟨h.isWinner, fun ⟨ha, hwin⟩ => ?_⟩
  obtain ⟨b, hb, hgroup, hle⟩ := h.covers a ha
  have hge := hwin b (h.subset hb) hgroup
  have heq := Std.compare_eq_iff_eq.1 (Std.OrientedCmp.isLE_antisymm hle hge)
  rwa [hinj a ha b (h.subset hb) hgroup.symm heq]

/-- Where ranks tell the elements of a group apart, there is one selection up to its order. -/
lemma perm (h : Selects group rank rows chosen) (h' : Selects group rank rows chosen')
    (hinj : ∀ a ∈ rows, ∀ b ∈ rows, group a = group b → rank a = rank b → a = b) :
    chosen.Perm chosen' := by
  have hnodup : ∀ {l : List α}, l.Pairwise (fun a b => group a ≠ group b) → l.Nodup :=
    fun hl => hl.imp fun hne heq => hne (congrArg group heq)
  refine (perm_ext_iff_of_nodup (hnodup h.distinct) (hnodup h'.distinct)).2 fun a => ?_
  rw [h.mem_iff hinj, h'.mem_iff hinj]

end Selects

/-! ### The winner of one group -/

/-- The best of some elements after `winner`, by a scan. -/
def best (rank : α → ρ) : Option α → List α → Option α
  | winner, [] => winner
  | none, row :: rows => best rank (some row) rows
  | some winner, row :: rows =>
    best rank (some (if compare (rank row) (rank winner) = .gt then row else winner)) rows

variable {rank : α → ρ}

/-- The scan selects from all elements as from one group. -/
lemma selects_best [Std.TransOrd ρ] : ∀ {rows seen : List α} {winner : Option α},
    Selects (fun _ => ()) rank seen winner.toList →
    Selects (fun _ => ()) rank (seen ++ rows) (best rank winner rows).toList := by
  intro rows
  induction rows with
  | nil =>
    intro seen winner h
    rwa [append_nil, best]
  | cons row rows ih =>
    intro seen winner h
    rw [append_cons]
    cases winner with
    | none => exact ih (h.append fun _ ha => absurd ha not_mem_nil)
    | some winner =>
      have hone : Selects (fun _ => ()) rank seen ([] ++ winner :: []) := h
      exact ih (hone.replace rfl)

/-- Where ranks tell the elements apart, the order of a scan does not matter. -/
lemma best_perm [Std.TransOrd ρ] [Std.LawfulEqOrd ρ] {rows rows' : List α}
    (hperm : rows.Perm rows') (hinj : ∀ a ∈ rows, ∀ b ∈ rows, rank a = rank b → a = b) :
    best rank none rows = best rank none rows' := by
  have hrows : Selects (fun _ => ()) rank ([] ++ rows) (best rank none rows).toList :=
    selects_best Selects.nil
  have hrows' : Selects (fun _ => ()) rank ([] ++ rows') (best rank none rows').toList :=
    selects_best Selects.nil
  have := hrows.perm (hrows'.of_perm hperm.symm) fun a ha b hb _ => hinj a ha b hb
  revert this
  cases best rank none rows <;> cases best rank none rows' <;> simp

lemma best_map (f : β → α) : ∀ (rows : List β) (winner : Option β),
    best rank (winner.map f) (rows.map f) = (best (fun b => rank (f b)) winner rows).map f := by
  intro rows
  induction rows with
  | nil => exact fun _ => rfl
  | cons row rows ih =>
    rintro (_ | winner)
    · exact ih (some row)
    · rw [map_cons, Option.map_some, best, best, ← ih, Option.map_some, apply_ite f]

/-! ### First elements of ordered groups -/

/-- A group and a rank; within a group the greater rank comes first. -/
structure GroupedKey (γ ρ : Type) where
  group : γ
  rank : ρ

instance [Ord γ] : Ord (GroupedKey γ ρ) where
  compare a b := (compare a.group b.group).then (compare b.rank a.rank)

lemma compare_groupedKey [Ord γ] (a b : GroupedKey γ ρ) :
    compare a b = (compare a.group b.group).then (compare b.rank a.rank) := rfl

instance [Ord γ] [Std.TransOrd γ] [Std.TransOrd ρ] : Std.TransOrd (GroupedKey γ ρ) :=
  inferInstanceAs (Std.TransCmp (compareLex (compareOn GroupedKey.group)
    fun a b => compareOn GroupedKey.rank b a))

section Compact

variable [Ord γ] {group : α → γ} {rank : α → ρ}

/-- In an ordered list the group of the first element is not above any other. -/
lemma group_isLE_of_ordered {kept a : α} {rows : List α}
    (h : Ordered (fun a => GroupedKey.mk (group a) (rank a)) (kept :: rows)) (ha : a ∈ rows) :
    (compare (group kept) (group a)).isLE := by
  have hle := rel_of_pairwise_cons h ha
  rw [compare_groupedKey] at hle
  exact (Ordering.isLE_then_iff_and.1 hle).1

variable [DecidableEq γ]

/-- Keeps `kept` and then the first element of every later run of one group. -/
def compact (group : α → γ) (kept : α) : List α → List α
  | [] => [kept]
  | row :: rows =>
    if group kept = group row then compact group kept rows
    else kept :: compact group row rows

omit [Ord γ] in
lemma compact_subset (group : α → γ) : ∀ (rows : List α) (kept : α),
    compact group kept rows ⊆ kept :: rows := by
  intro rows
  induction rows with
  | nil => exact fun kept => List.Subset.refl _
  | cons row rows ih =>
    intro kept
    rw [compact]
    split_ifs
    · exact List.Subset.trans (ih kept) (List.cons_subset_cons _ (List.subset_cons_self _ _))
    · exact List.cons_subset_cons _ (ih row)

variable [Std.TransOrd γ] [Std.LawfulEqOrd γ] [Std.TransOrd ρ]

/-- **The first elements of the groups.**  In a list ordered by group and falling rank
they are a selection. -/
theorem selects_compact : ∀ (rows : List α) (kept : α),
    Ordered (fun a => GroupedKey.mk (group a) (rank a)) (kept :: rows) →
    Selects group rank (kept :: rows) (compact group kept rows) := by
  intro rows
  induction rows with
  | nil =>
    intro kept _
    exact Selects.nil.append (fun _ h => absurd h not_mem_nil)
  | cons row rows ih =>
    intro kept hordered
    rw [compact]
    split_ifs with hgroup
    · -- the element is outranked by the one kept
      have hrest : Ordered (fun a => GroupedKey.mk (group a) (rank a)) (kept :: rows) :=
        hordered.sublist (List.Sublist.cons_cons _ (sublist_cons_self _ _))
      have hselects := ih kept hrest
      refine ⟨List.Subset.trans hselects.subset
          (cons_subset_cons _ (subset_cons_self _ _)), hselects.distinct, fun a ha => ?_⟩
      have hfirst := rel_of_pairwise_cons hordered (mem_cons_self ..)
      rw [compare_groupedKey] at hfirst
      simp only [Std.compare_eq_iff_eq.2 hgroup, Ordering.then] at hfirst
      rcases mem_cons.1 ha with rfl | ha
      · exact hselects.covers a (mem_cons_self ..)
      · rcases mem_cons.1 ha with rfl | ha
        · obtain ⟨b, hb, hbgroup, hle⟩ := hselects.covers kept (mem_cons_self ..)
          exact ⟨b, hb, hbgroup.trans hgroup, Std.TransCmp.isLE_trans hfirst hle⟩
        · exact hselects.covers a (mem_cons_of_mem _ ha)
    · have hselects := ih row (List.Pairwise.of_cons hordered)
      refine ⟨cons_subset_cons _ hselects.subset,
        pairwise_cons.2 ⟨fun a ha heq => ?_, hselects.distinct⟩, fun a ha => ?_⟩
      · -- the group of `kept` is below that of `row`, which is not above any later group
        have hlt : compare (group kept) (group row) = .lt := by
          have hle := group_isLE_of_ordered hordered (mem_cons_self ..)
          have hne : compare (group kept) (group row) ≠ .eq :=
            fun h => hgroup (Std.compare_eq_iff_eq.1 h)
          revert hle hne
          cases compare (group kept) (group row) <;> simp
        have hlater : (compare (group row) (group a)).isLE := by
          rcases mem_cons.1 (compact_subset group rows row ha) with rfl | ha
          · exact Std.ReflCmp.isLE_rfl
          · exact group_isLE_of_ordered (List.Pairwise.of_cons hordered) ha
        have := Std.TransCmp.lt_of_lt_of_isLE hlt hlater
        rw [Std.compare_eq_iff_eq.2 heq] at this
        cases this
      · rcases mem_cons.1 ha with rfl | ha
        · exact ⟨a, mem_cons_self .., rfl, Std.ReflCmp.isLE_rfl⟩
        · obtain ⟨b, hb, hcover⟩ := hselects.covers a ha
          exact ⟨b, mem_cons_of_mem _ hb, hcover⟩

end Compact

end Chronos.Sort
