import Mathlib.Data.List.Chain
import Mathlib.Data.List.Perm.Basic
import Mathlib.Data.List.TakeDrop
import Mathlib.Tactic.Ring

/-!
Bottom-up merge sort with a comparison that may fail.

* `mergeRuns`, `mergePass`, `sortLoop`: two runs become one; all pairs of runs of
  one width; the passes with doubled width.
* `sort_spec`: where the comparison is that of a key in a total order, the sort
  succeeds and returns the elements in the order of their keys.
* `checkAdjacent_sort`: looking only at neighbours of the result then decides
  whether two elements have the same key.
-/

namespace Chronos.Sort

open List List.Pairwise

variable {α ε κ : Type}

/-! ### The algorithm -/

/-- Merges two runs; at most `remaining` elements are written one by one. -/
def mergeRuns (test : α → α → Except ε Ordering) : ℕ → List α → List α → Except ε (List α)
  | remaining + 1, left :: lefts, right :: rights => do
    if (← test left right) ≠ .gt then
      return left :: (← mergeRuns test remaining lefts (right :: rights))
    else return right :: (← mergeRuns test remaining (left :: lefts) rights)
  | _, lefts, rights => .ok (lefts ++ rights)

/-- Merges the runs of one width in pairs. -/
def mergePass (test : α → α → Except ε Ordering) (width : ℕ) : ℕ → List α → Except ε (List α)
  | remaining + 1, first :: rows => do
    let run ← mergeRuns test (rows.length + 1) ((first :: rows).take width)
      (((first :: rows).drop width).take width)
    return run ++ (← mergePass test width remaining ((first :: rows).drop (2 * width)))
  | _, rows => .ok rows

/-- The passes from one width on. -/
def sortLoop (test : α → α → Except ε Ordering) : ℕ → ℕ → List α → Except ε (List α)
  | remaining + 1, width, rows => do
    if width < rows.length then
      let merged ← mergePass test width rows.length rows
      if width ≥ rows.length - width then return merged
      else sortLoop test remaining (width * 2) merged
    else return rows
  | 0, _, rows => .ok rows

/-- The sort, from runs of one element on. -/
def sort (test : α → α → Except ε Ordering) (rows : List α) : Except ε (List α) :=
  sortLoop test rows.length 1 rows

/-- Fails with `duplicate` where two neighbours compare as equal. -/
def checkAdjacent (test : α → α → Except ε Ordering) (duplicate : ε) : List α → Except ε Unit
  | first :: second :: rows => do
    if (← test first second) = .eq then throw duplicate
    else checkAdjacent test duplicate (second :: rows)
  | _ => .ok ()

/-! ### Correctness -/

section Correct

variable [Ord κ] {test : α → α → Except ε Ordering} {key : α → κ}

/-- The comparison of some elements is that of their keys. -/
def Compares (test : α → α → Except ε Ordering) (key : α → κ) (rows : List α) : Prop :=
  ∀ a ∈ rows, ∀ b ∈ rows, test a b = .ok (compare (key a) (key b))

variable {rows : List α}

lemma Compares.subset {rows' : List α} (h : Compares test key rows) (hsub : rows' ⊆ rows) :
    Compares test key rows' :=
  fun a ha b hb => h a (hsub ha) b (hsub hb)

/-- In the order of the keys. -/
def Ordered (key : α → κ) (rows : List α) : Prop :=
  rows.Pairwise fun a b => (compare (key a) (key b)).isLE

/-- Every run of the given width is ordered. -/
def RunsOrdered (key : α → κ) (width : ℕ) (rows : List α) : Prop :=
  ∀ k, Ordered key ((rows.drop (k * width)).take width)

lemma runsOrdered_one (rows : List α) : RunsOrdered key 1 rows := by
  intro k
  rcases h : rows.drop (k * 1) with _ | ⟨a, rest⟩ <;> simp [Ordered]

variable [Std.TransOrd κ]

lemma mergeRuns_spec : ∀ (remaining : ℕ) (lefts rights : List α),
    lefts.length + rights.length ≤ remaining → Compares test key (lefts ++ rights) →
    Ordered key lefts → Ordered key rights →
    ∃ run, mergeRuns test remaining lefts rights = .ok run ∧ run.Perm (lefts ++ rights) ∧
      Ordered key run := by
  intro remaining
  induction remaining with
  | zero =>
    intro lefts rights hlength _ hlefts _
    obtain rfl : lefts = [] := length_eq_zero_iff.1 (by omega)
    obtain rfl : rights = [] := length_eq_zero_iff.1 (by omega)
    exact ⟨[], rfl, .refl _, hlefts⟩
  | succ remaining ih =>
    intro lefts rights hlength htest hlefts hrights
    match lefts, rights with
    | [], rights => exact ⟨rights, rfl, .refl _, hrights⟩
    | left :: lefts, [] => exact ⟨(left :: lefts) ++ [], rfl, .refl _, by simpa using hlefts⟩
    | left :: lefts, right :: rights =>
      have hfirst := htest left (by simp) right (by simp)
      simp only [length_cons] at hlength
      by_cases hgt : compare (key left) (key right) = .gt
      · -- the right run continues
        obtain ⟨run, hrun, hperm, hordered⟩ := ih (left :: lefts) rights
          (by simp only [length_cons]; omega)
          (htest.subset (by intro a ha; simp at ha ⊢; tauto)) hlefts (of_cons hrights)
        refine ⟨right :: run, ?_, ?_, ?_⟩
        · rw [mergeRuns, hfirst]
          simp only [bind, Except.bind, hgt, ne_eq, not_true, if_false, hrun, pure, Except.pure]
        · exact (hperm.cons right).trans perm_middle.symm
        · refine pairwise_cons.2 ⟨fun a ha => ?_, hordered⟩
          have hle : (compare (key right) (key left)).isLE := by
            rw [Std.OrientedCmp.gt_iff_lt.1 hgt]
            rfl
          rcases mem_append.1 (hperm.mem_iff.1 ha) with ha | ha
          · rcases mem_cons.1 ha with rfl | ha
            · exact hle
            · exact Std.TransCmp.isLE_trans hle (rel_of_pairwise_cons hlefts ha)
          · exact rel_of_pairwise_cons hrights ha
      · -- the left run continues
        obtain ⟨run, hrun, hperm, hordered⟩ := ih lefts (right :: rights)
          (by simp only [length_cons]; omega)
          (htest.subset (by intro a ha; simp at ha ⊢; tauto)) (of_cons hlefts) hrights
        refine ⟨left :: run, ?_, hperm.cons left, ?_⟩
        · rw [mergeRuns, hfirst]
          simp only [bind, Except.bind, ne_eq, hgt, not_false_eq_true, if_true, hrun, pure,
            Except.pure]
        · refine pairwise_cons.2 ⟨fun a ha => ?_, hordered⟩
          have hle : (compare (key left) (key right)).isLE := Ordering.isLE_iff_ne_gt.2 hgt
          rcases mem_append.1 (hperm.mem_iff.1 ha) with ha | ha
          · exact rel_of_pairwise_cons hlefts ha
          · rcases mem_cons.1 ha with rfl | ha
            · exact hle
            · exact Std.TransCmp.isLE_trans hle (rel_of_pairwise_cons hrights ha)

lemma mergePass_spec {width : ℕ} (hwidth : 0 < width) : ∀ (remaining : ℕ) (rows : List α),
    rows.length ≤ remaining → Compares test key rows → RunsOrdered key width rows →
    ∃ merged, mergePass test width remaining rows = .ok merged ∧ merged.Perm rows ∧
      RunsOrdered key (2 * width) merged := by
  intro remaining
  induction remaining with
  | zero =>
    intro rows hlength _ _
    obtain rfl : rows = [] := length_eq_zero_iff.1 (by omega)
    exact ⟨[], rfl, .refl _, fun k => by simp [Ordered]⟩
  | succ remaining ih =>
    intro rows hlength htest hruns
    match rows with
    | [] => exact ⟨[], rfl, .refl _, fun k => by simp [Ordered]⟩
    | first :: rest =>
      generalize hrows : first :: rest = rows at *
      have hlen : rest.length + 1 = rows.length := by rw [← hrows]; rfl
      have hsplit : rows.take width ++ (rows.drop width).take width = rows.take (2 * width) := by
        rw [Nat.two_mul, take_add]
      obtain ⟨run, hrun, hperm, hordered⟩ := mergeRuns_spec (rest.length + 1)
        (rows.take width) ((rows.drop width).take width)
        (by simp only [length_take, length_drop]; omega)
        (htest.subset (by rw [hsplit]; exact take_subset _ _))
        (by simpa using hruns 0) (by simpa using hruns 1)
      rw [hsplit] at hperm
      obtain ⟨merged, hmerged, hmperm, hmruns⟩ := ih (rows.drop (2 * width))
        (by simp only [length_drop]; omega) (htest.subset (drop_subset _ _))
        (fun k => by
          have h := hruns (k + 2)
          rwa [drop_drop, show 2 * width + k * width = (k + 2) * width by ring])
      refine ⟨run ++ merged, ?_, ?_, fun k => ?_⟩
      · rw [← hrows] at hrun hmerged ⊢
        rw [mergePass, hrun]
        simp only [bind, Except.bind, hmerged, pure, Except.pure]
      · exact (hperm.append hmperm).trans (by rw [take_append_drop])
      · have hrunlength : run.length = min (2 * width) rows.length := by
          rw [hperm.length_eq, length_take]
        have hmlength : merged.length = rows.length - 2 * width := by
          rw [hmperm.length_eq, length_drop]
        rcases Nat.lt_or_ge rows.length (2 * width) with hshort | hlong
        · obtain rfl : merged = [] := length_eq_zero_iff.1 (by omega)
          rw [append_nil]
          exact sublist ((take_sublist _ _).trans (drop_sublist _ _)) hordered
        · rcases k with _ | k
          · rw [Nat.zero_mul, drop_zero, take_append_of_le_length (by omega)]
            exact sublist (take_sublist _ _) hordered
          · rw [show (k + 1) * (2 * width) = run.length + k * (2 * width) by
              rw [hrunlength, min_eq_left hlong]; ring, ← drop_drop, drop_left]
            exact hmruns k

lemma sortLoop_spec : ∀ (remaining width : ℕ) (rows : List α), 0 < width →
    rows.length ≤ width + remaining → Compares test key rows → RunsOrdered key width rows →
    ∃ sorted, sortLoop test remaining width rows = .ok sorted ∧ sorted.Perm rows ∧
      Ordered key sorted := by
  have hwhole : ∀ {width : ℕ} {rows : List α}, rows.length ≤ width →
      RunsOrdered key width rows → Ordered key rows := by
    intro width rows hlength hruns
    have h := hruns 0
    rwa [Nat.zero_mul, drop_zero, take_of_length_le hlength] at h
  intro remaining
  induction remaining with
  | zero =>
    intro width rows _ hlength _ hruns
    exact ⟨rows, rfl, .refl _, hwhole (by omega) hruns⟩
  | succ remaining ih =>
    intro width rows hwidth _ htest hruns
    rw [sortLoop]
    by_cases hlt : width < rows.length
    · obtain ⟨merged, hmerged, hperm, hmruns⟩ := mergePass_spec hwidth _ _ le_rfl htest hruns
      rw [if_pos hlt, hmerged]
      simp only [bind, Except.bind]
      by_cases hge : width ≥ rows.length - width
      · rw [if_pos hge]
        exact ⟨merged, rfl, hperm, hwhole (by rw [hperm.length_eq]; omega) hmruns⟩
      · rw [if_neg hge]
        obtain ⟨sorted, hsorted, hsperm, hordered⟩ := ih (width * 2) merged
          (by omega) (by rw [hperm.length_eq]; omega) (htest.subset hperm.subset)
          (by rwa [Nat.mul_comm])
        exact ⟨sorted, hsorted, hsperm.trans hperm, hordered⟩
    · rw [if_neg hlt]
      exact ⟨rows, rfl, .refl _, hwhole (by omega) hruns⟩

/-- The sort returns the elements in the order of their keys. -/
theorem sort_spec (htest : Compares test key rows) :
    ∃ sorted, sort test rows = .ok sorted ∧ sorted.Perm rows ∧ Ordered key sorted :=
  sortLoop_spec _ _ _ Nat.one_pos (by omega) htest (runsOrdered_one rows)

variable [Std.LawfulEqOrd κ] {duplicate : ε}

/-- In an ordered list the neighbours decide whether two elements have the same key. -/
lemma checkAdjacent_spec : ∀ {rows : List α}, Compares test key rows →
    Ordered key rows →
    (checkAdjacent test duplicate rows = .ok () ↔ rows.Pairwise fun a b => key a ≠ key b) := by
  intro rows
  induction rows with
  | nil => exact fun _ _ => ⟨fun _ => .nil, fun _ => rfl⟩
  | cons first rows ih =>
    intro htest hordered
    match rows with
    | [] => exact ⟨fun _ => pairwise_singleton _ _, fun _ => rfl⟩
    | second :: rows =>
      have hfirst := htest first (by simp) second (by simp)
      have hrest := ih (htest.subset (subset_cons_self _ _)) (of_cons hordered)
      rw [checkAdjacent, hfirst]
      simp only [bind, Except.bind]
      by_cases heq : key first = key second
      · rw [if_pos (Std.compare_eq_iff_eq.2 heq)]
        refine ⟨fun h => (by cases h), fun h => ?_⟩
        exact absurd heq (rel_of_pairwise_cons h (by simp))
      · have hne : compare (key first) (key second) ≠ .eq :=
          fun h => heq (Std.compare_eq_iff_eq.1 h)
        rw [if_neg hne, hrest]
        refine ⟨fun h => pairwise_cons.2 ⟨fun a ha => ?_, h⟩, of_cons⟩
        rcases mem_cons.1 ha with rfl | ha
        · exact heq
        · -- the first key is below the second, and that one not above any later key
          have hle := rel_of_pairwise_cons hordered (mem_cons_self ..)
          have hlt : compare (key first) (key second) = .lt := by
            revert hle hne
            cases compare (key first) (key second) <;> simp
          have hlater := Std.TransCmp.lt_of_lt_of_isLE hlt
            (rel_of_pairwise_cons (of_cons hordered) ha)
          intro hkeys
          rw [Std.compare_eq_iff_eq.2 hkeys] at hlater
          cases hlater

/-- Sorting and looking at neighbours decides whether two elements have the same key. -/
theorem checkAdjacent_sort (htest : Compares test key rows) :
    (sort test rows >>= checkAdjacent test duplicate) = .ok () ↔
      rows.Pairwise fun a b => key a ≠ key b := by
  obtain ⟨sorted, hsorted, hperm, hordered⟩ := sort_spec htest
  rw [hsorted]
  simp only [bind, Except.bind]
  rw [checkAdjacent_spec (htest.subset hperm.subset) hordered]
  exact hperm.pairwise_iff fun h => h.symm

end Correct

end Chronos.Sort
