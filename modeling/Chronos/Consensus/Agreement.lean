import Mathlib.Data.List.Basic
import Mathlib.Data.Nat.Find
import Mathlib.Order.Basic
import Mathlib.Tactic.Common

/-!
Agreement of two sequences up to a position.

* `Agree k a b`: both lists reach position `k` and have the same first `k`
  entries.  It is symmetric, transitive and closed downwards.
* `exists_agree_max`: two lists agree up to a greatest position.
-/

namespace Chronos.Consensus

open List

variable {ε : Type*} {a b c : List ε} {j k : ℕ}

/-- Both lists have at least `k` entries, and the same first `k`. -/
def Agree (k : ℕ) (a b : List ε) : Prop :=
  k ≤ a.length ∧ k ≤ b.length ∧ a.take k = b.take k

namespace Agree

lemma left_le (h : Agree k a b) : k ≤ a.length := h.1

lemma right_le (h : Agree k a b) : k ≤ b.length := h.2.1

lemma take_eq (h : Agree k a b) : a.take k = b.take k := h.2.2

lemma refl (h : k ≤ a.length) : Agree k a a := ⟨h, h, rfl⟩

lemma zero (a b : List ε) : Agree 0 a b := ⟨by omega, by omega, by simp⟩

lemma symm (h : Agree k a b) : Agree k b a := ⟨h.right_le, h.left_le, h.take_eq.symm⟩

lemma trans (h : Agree k a b) (h' : Agree k b c) : Agree k a c :=
  ⟨h.left_le, h'.right_le, h.take_eq.trans h'.take_eq⟩

lemma mono (h : Agree k a b) (hj : j ≤ k) : Agree j a b := by
  refine ⟨hj.trans h.left_le, hj.trans h.right_le, ?_⟩
  have := congrArg (take j) h.take_eq
  rwa [take_take, take_take, Nat.min_eq_left hj] at this

/-- Agreement is equality position by position. -/
lemma getElem_eq (h : Agree k a b) {i : ℕ} (hi : i < k) : a[i]? = b[i]? := by
  have := congrArg (fun l : List ε => l[i]?) h.take_eq
  simpa [getElem?_take_of_lt hi] using this

lemma of_getElem (ha : k ≤ a.length) (hb : k ≤ b.length) (h : ∀ i, i < k → a[i]? = b[i]?) :
    Agree k a b := by
  refine ⟨ha, hb, ext_getElem? fun i => ?_⟩
  rw [getElem?_take, getElem?_take]
  split
  · exact h i ‹_›
  · rfl

lemma of_extends (h : a <+: b) : Agree a.length a b := by
  obtain ⟨t, rfl⟩ := h
  exact ⟨le_rfl, by simp, by simp⟩

/-- A longer right list agrees as far. -/
lemma right_mono (h : Agree k a b) (hb : b <+: c) : Agree k a c :=
  h.trans ((of_extends hb).mono h.right_le)

/-- A longer left list agrees as far. -/
lemma left_mono (h : Agree k a b) (ha : a <+: c) : Agree k c b := (h.symm.right_mono ha).symm

lemma take_right (h : Agree k a b) (hj : k ≤ j) : Agree k a (b.take j) := by
  refine ⟨h.left_le, by rw [length_take]; exact le_min hj h.right_le, ?_⟩
  rw [h.take_eq, take_take, Nat.min_eq_left hj]

end Agree

/-- Two lists agree up to a greatest position. -/
lemma exists_agree_max (a b : List ε) : ∃ d, Agree d a b ∧ ∀ k, Agree k a b → k ≤ d := by
  classical
  refine ⟨Nat.findGreatest (fun k => Agree k a b) a.length, ?_, fun k hk => ?_⟩
  · exact Nat.findGreatest_spec (P := fun k => Agree k a b) (Nat.zero_le _) (Agree.zero a b)
  · exact Nat.le_findGreatest hk.left_le hk

end Chronos.Consensus
