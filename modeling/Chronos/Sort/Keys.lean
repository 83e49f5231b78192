import Mathlib.Data.List.Sort
import Mathlib.Data.Prod.Lex
import Mathlib.Order.MinMax

/-!
Lists sorted by a key, and cut where neighbours no longer belong together.

* `sortBy`: the list in the order of a key; keys that tell the elements apart make the result
  independent of the order of the list (`sortBy_eq_of_perm`).
* `chunks`: a scan with a state that closes a chunk when the next element does not join it.
* `groups`: the chunks of the elements that belong with the first one; of a list sorted by a key
  these are the classes of the key (`mem_of_mem_groups`).
* `foldl_min_spec`, `foldl_max_spec`: the extrema that a scan finds.
-/

namespace Chronos.Sort

open List

variable {α κ σ : Type*}

section SortBy

variable [LinearOrder κ] (key : α → κ)

/-- The list in the order of a key. -/
def sortBy (l : List α) : List α := l.insertionSort (Order.Preimage key (· ≤ ·))

lemma sortBy_perm (l : List α) : (sortBy key l).Perm l := perm_insertionSort _ l

lemma sortBy_pairwise (l : List α) : (sortBy key l).Pairwise fun a b => key a ≤ key b :=
  pairwise_insertionSort (Order.Preimage key (· ≤ ·)) l

variable {l : List α}

@[simp] lemma mem_sortBy {a : α} : a ∈ sortBy key l ↔ a ∈ l :=
  (sortBy_perm key l).mem_iff

@[simp] lemma length_sortBy (l : List α) : (sortBy key l).length = l.length :=
  (sortBy_perm key l).length_eq

variable {key}

/-- Of a list whose keys tell its elements apart the sorted list is strictly sorted. -/
lemma sortBy_pairwise_lt (hnodup : (l.map key).Nodup) :
    (sortBy key l).Pairwise fun a b => key a < key b := by
  have hsorted : ((sortBy key l).map key).Nodup := ((sortBy_perm key l).map key).nodup_iff.2 hnodup
  rw [List.Nodup, pairwise_map] at hsorted
  exact ((sortBy_pairwise key l).and hsorted).imp fun h => lt_of_le_of_ne h.1 h.2

/-- Permuted lists have one sorted list if their keys tell the elements apart. -/
lemma sortBy_eq_of_perm {l' : List α} (hperm : l.Perm l') (hnodup : (l.map key).Nodup) :
    sortBy key l = sortBy key l' := by
  have hnodup' : (l'.map key).Nodup := (hperm.map key).nodup_iff.1 hnodup
  refine List.Perm.eq_of_pairwise ?_ (sortBy_pairwise_lt hnodup) (sortBy_pairwise_lt hnodup') ?_
  · exact fun a b _ _ hab hba => absurd (hab.trans hba) (lt_irrefl _)
  · exact ((sortBy_perm key l).trans hperm).trans (sortBy_perm key l').symm

end SortBy

/-! ### Chunks -/

section Chunks

variable (start : α → σ) (joins : σ → α → Bool) (extend : σ → α → σ)

/-- The chunks of a list after an open chunk and its state. -/
def chunksFrom : σ → List α → List α → List (List α)
  | _, current, [] => [current]
  | state, current, x :: xs =>
    if joins state x then chunksFrom (extend state x) (current ++ [x]) xs
    else current :: chunksFrom (start x) [x] xs

/-- A scan that opens a chunk with an element, extends it while elements join and then opens the
next. -/
def chunks : List α → List (List α)
  | [] => []
  | x :: xs => chunksFrom start joins extend (start x) [x] xs

lemma flatten_chunksFrom (state : σ) (current l : List α) :
    (chunksFrom start joins extend state current l).flatten = current ++ l := by
  induction l generalizing state current with
  | nil => simp [chunksFrom]
  | cons x xs ih =>
    rw [chunksFrom]
    split_ifs with hjoins
    · rw [ih, append_assoc, singleton_append]
    · rw [flatten_cons, ih, singleton_append]

lemma flatten_chunks (l : List α) : (chunks start joins extend l).flatten = l := by
  cases l with
  | nil => rfl
  | cons x xs => exact flatten_chunksFrom start joins extend _ [x] xs

lemma sublist_of_mem_chunks {l c : List α} (hc : c ∈ chunks start joins extend l) :
    c.Sublist l := by
  have hsub := sublist_flatten_of_mem hc
  rwa [flatten_chunks] at hsub

end Chunks

/-! ### Groups -/

section Groups

variable (same : α → α → Bool)

/-- The chunks of the elements that belong with the first. -/
def groups : List α → List (List α) := chunks id same fun first _ => first

variable [LinearOrder κ] {key : α → κ} {same} {l c : List α} {a b : α}

lemma mem_of_mem_chunksFrom (hsame : ∀ a b, same a b = true ↔ key a = key b) {first : α}
    {current : List α} (hcurrent : ∀ a ∈ current, key a = key first)
    (hle : ∀ a ∈ l, key first ≤ key a) (hsorted : l.Pairwise fun a b => key a ≤ key b)
    (hc : c ∈ chunksFrom id same (fun first _ => first) first current l) (ha : a ∈ c) :
    b ∈ c ↔ b ∈ current ++ l ∧ key b = key a := by
  induction l generalizing first current with
  | nil =>
    obtain rfl := mem_singleton.1 hc
    rw [append_nil, iff_self_and]
    exact fun hb => (hcurrent b hb).trans (hcurrent a ha).symm
  | cons x xs ih =>
    rw [forall_mem_cons] at hle
    rw [pairwise_cons] at hsorted
    rw [chunksFrom] at hc
    split_ifs at hc with hjoins
    · -- the element joins the chunk
      rw [ih ?_ hle.2 hsorted.2 hc, append_assoc, singleton_append]
      intro a ha
      rcases mem_append.1 ha with ha | ha
      · exact hcurrent a ha
      · rw [mem_singleton.1 ha]
        exact ((hsame first x).1 hjoins).symm
    · -- no later element has the key of the closed chunk
      have hlt : key first < key x :=
        lt_of_le_of_ne hle.1 fun heq => hjoins ((hsame first x).2 heq)
      have hlater : ∀ b ∈ x :: xs, key first < key b := by
        rintro b hb
        rcases mem_cons.1 hb with rfl | hb
        · exact hlt
        · exact hlt.trans_le (hsorted.1 b hb)
      rw [mem_append]
      rcases mem_cons.1 hc with rfl | hc
      · constructor
        · exact fun hb => ⟨.inl hb, (hcurrent b hb).trans (hcurrent a ha).symm⟩
        · rintro ⟨hb | hb, hkey⟩
          · exact hb
          · exact absurd (hkey.trans (hcurrent a ha)) (hlater b hb).ne'
      · have hmem : a ∈ x :: xs := by
          have hsub := sublist_flatten_of_mem hc
          rw [flatten_chunksFrom, singleton_append] at hsub
          exact hsub.subset ha
        rw [ih (by simp) hsorted.1 hsorted.2 hc, singleton_append]
        constructor
        · exact fun hb => ⟨.inr hb.1, hb.2⟩
        · rintro ⟨hb | hb, hkey⟩
          · exact absurd ((hcurrent b hb).symm.trans hkey) (hlater a hmem).ne
          · exact ⟨hb, hkey⟩

/-- A group of a sorted list has every element with the key of its elements. -/
lemma mem_of_mem_groups (hsame : ∀ a b, same a b = true ↔ key a = key b)
    (hsorted : l.Pairwise fun a b => key a ≤ key b) (hc : c ∈ groups same l) (ha : a ∈ c) :
    b ∈ c ↔ b ∈ l ∧ key b = key a := by
  cases l with
  | nil => exact absurd hc not_mem_nil
  | cons x xs =>
    rw [pairwise_cons] at hsorted
    exact mem_of_mem_chunksFrom hsame (by simp) hsorted.1 hsorted.2 hc ha

/-- Every element is in a group. -/
lemma exists_mem_groups (ha : a ∈ l) : ∃ c ∈ groups same l, a ∈ c := by
  rw [← flatten_chunks id same (fun first _ => first) l] at ha
  exact mem_flatten.1 ha

end Groups

/-! ### Extrema -/

/-- The least value of a scan is below all and is one of them. -/
lemma foldl_min_spec [LinearOrder κ] (value : α → κ) (least : κ) (l : List α) :
    (∀ a ∈ l, l.foldl (fun least a => min least (value a)) least ≤ value a) ∧
    l.foldl (fun least a => min least (value a)) least ≤ least ∧
    (l.foldl (fun least a => min least (value a)) least = least ∨
      ∃ a ∈ l, l.foldl (fun least a => min least (value a)) least = value a) := by
  induction l generalizing least with
  | nil => simp
  | cons x xs ih =>
    obtain ⟨hall, hle, hone⟩ := ih (min least (value x))
    rw [foldl_cons, forall_mem_cons]
    refine ⟨⟨hle.trans (min_le_right _ _), hall⟩, hle.trans (min_le_left _ _), ?_⟩
    rcases hone with hone | ⟨a, ha, hone⟩
    · rcases min_choice least (value x) with hmin | hmin
      · exact .inl (hone.trans hmin)
      · exact .inr ⟨x, mem_cons_self, hone.trans hmin⟩
    · exact .inr ⟨a, mem_cons_of_mem _ ha, hone⟩

/-- The greatest value of a scan is above all and is one of them. -/
lemma foldl_max_spec [LinearOrder κ] (value : α → κ) (most : κ) (l : List α) :
    (∀ a ∈ l, value a ≤ l.foldl (fun most a => max most (value a)) most) ∧
    most ≤ l.foldl (fun most a => max most (value a)) most ∧
    (l.foldl (fun most a => max most (value a)) most = most ∨
      ∃ a ∈ l, l.foldl (fun most a => max most (value a)) most = value a) :=
  foldl_min_spec (fun a => OrderDual.toDual (value a)) (OrderDual.toDual most) l

end Chronos.Sort
