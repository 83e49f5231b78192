import Mathlib

/-!
Maps with ordered keys as strictly sorted lists of entries.

* `OrderedMap`: the entries and the proof that their keys increase.
* `find?`, `insert`, `erase`, `mapValues`, `restrict`: the operations, each with its
  membership lemma; `find?_eq_some` ties lookups to membership.
* `lastLE`: the entry before the upper bound of a key.
-/

namespace Chronos

open List

/-- A map whose keys increase along the list of its entries. -/
@[ext]
structure OrderedMap (κ : Type) (α : Type) [LT κ] where
  entries : List (κ × α)
  sorted : entries.Pairwise (fun earlier later => earlier.1 < later.1)

namespace OrderedMap

variable {κ α β : Type} [LinearOrder κ]

instance [DecidableEq α] : DecidableEq (OrderedMap κ α) := fun m n =>
  decidable_of_iff (m.entries = n.entries) OrderedMap.ext_iff.symm

/-- The map without entries. -/
def empty : OrderedMap κ α := ⟨[], .nil⟩

/-- The value of a key. -/
def find? (m : OrderedMap κ α) (key : κ) : Option α :=
  (m.entries.find? (·.1 = key)).map (·.2)

/-- Whether a key has a value. -/
def contains (m : OrderedMap κ α) (key : κ) : Bool := (m.find? key).isSome

/-- The number of entries. -/
def size (m : OrderedMap κ α) : ℕ := m.entries.length

/-! ### Entries -/

variable {m : OrderedMap κ α}

/-- Of two entries with one key there is only one. -/
lemma eq_of_key {first second : κ × α} (hfirst : first ∈ m.entries) (hsecond : second ∈ m.entries)
    (hkey : first.1 = second.1) : first = second := by
  by_contra hne
  rcases pairwise_iff_getElem.mp m.sorted with hsorted
  obtain ⟨i, hi, rfl⟩ := getElem_of_mem hfirst
  obtain ⟨j, hj, rfl⟩ := getElem_of_mem hsecond
  rcases Nat.lt_trichotomy i j with hlt | heq | hlt
  · exact (hsorted i j hi hj hlt).ne hkey
  · exact hne (by simp only [heq])
  · exact (hsorted j i hj hi hlt).ne hkey.symm

variable {key : κ} {value : α}

/-- **Lookups are entries.** -/
lemma find?_eq_some :
    m.find? key = some value ↔ (key, value) ∈ m.entries := by
  rw [find?, Option.map_eq_some_iff]
  constructor
  · rintro ⟨entry, hfind, rfl⟩
    have hkey : entry.1 = key := by simpa using find?_some hfind
    rw [← hkey]
    exact mem_of_find?_eq_some hfind
  · intro hmem
    cases hfind : m.entries.find? (·.1 = key) with
    | none =>
      have := List.find?_eq_none.mp hfind _ hmem
      simp at this
    | some entry =>
      have hkey : entry.1 = key := by simpa using find?_some hfind
      refine ⟨entry, rfl, ?_⟩
      rw [eq_of_key (mem_of_find?_eq_some hfind) hmem hkey]

lemma find?_eq_none :
    m.find? key = none ↔ ∀ value, (key, value) ∉ m.entries := by
  rw [Option.eq_none_iff_forall_ne_some]
  exact forall_congr' fun _ => not_congr find?_eq_some

/-! ### Updates -/

/-- The entries with one key set. -/
def insertEntry (key : κ) (value : α) : List (κ × α) → List (κ × α)
  | [] => [(key, value)]
  | entry :: entries =>
    if key < entry.1 then (key, value) :: entry :: entries
    else if key = entry.1 then (key, value) :: entries
    else entry :: insertEntry key value entries

variable {entries : List (κ × α)} {entry : κ × α}

lemma mem_insertEntry (hsorted : entries.Pairwise (fun earlier later => earlier.1 < later.1)) :
    entry ∈ insertEntry key value entries
      ↔ entry = (key, value) ∨ entry ∈ entries ∧ entry.1 ≠ key := by
  induction entries with
  | nil => simp [insertEntry]
  | cons first rest ih =>
    obtain ⟨hfirst, hrest⟩ := pairwise_cons.mp hsorted
    rw [insertEntry]
    split_ifs with hlt heq
    · have hother : ∀ other ∈ first :: rest, other.1 ≠ key := by
        intro other hmem
        rcases List.mem_cons.mp hmem with rfl | hlater
        · exact hlt.ne'
        · exact (hlt.trans (hfirst other hlater)).ne'
      rw [List.mem_cons]
      exact or_congr_right ⟨fun hmem => ⟨hmem, hother entry hmem⟩, And.left⟩
    · have hother : ∀ other ∈ rest, other.1 ≠ key := fun other hmem =>
        heq ▸ (hfirst other hmem).ne'
      rw [List.mem_cons]
      refine or_congr_right ⟨fun hmem => ⟨mem_cons_of_mem _ hmem, hother entry hmem⟩, ?_⟩
      rintro ⟨hmem, hne⟩
      refine (List.mem_cons.mp hmem).resolve_left ?_
      rintro rfl
      exact hne heq.symm
    · rw [List.mem_cons, ih hrest, List.mem_cons]
      constructor
      · rintro (rfl | rfl | ⟨hmem, hne⟩)
        · exact .inr ⟨.inl rfl, Ne.symm heq⟩
        · exact .inl rfl
        · exact .inr ⟨.inr hmem, hne⟩
      · rintro (rfl | ⟨rfl | hmem, hne⟩)
        · exact .inr (.inl rfl)
        · exact .inl rfl
        · exact .inr (.inr ⟨hmem, hne⟩)

lemma insertEntry_sorted (hsorted : entries.Pairwise (fun earlier later => earlier.1 < later.1)) :
    (insertEntry key value entries).Pairwise (fun earlier later => earlier.1 < later.1) := by
  induction entries with
  | nil => exact pairwise_singleton _ _
  | cons first rest ih =>
    obtain ⟨hfirst, hrest⟩ := pairwise_cons.mp hsorted
    rw [insertEntry]
    split_ifs with hlt heq
    · refine pairwise_cons.mpr ⟨fun other hmem => ?_, hsorted⟩
      rcases List.mem_cons.mp hmem with rfl | hlater
      · exact hlt
      · exact hlt.trans (hfirst other hlater)
    · exact pairwise_cons.mpr ⟨fun other hmem => heq ▸ hfirst other hmem, hrest⟩
    · refine pairwise_cons.mpr ⟨fun other hmem => ?_, ih hrest⟩
      rcases (mem_insertEntry hrest).mp hmem with rfl | ⟨hmem, -⟩
      · exact lt_of_le_of_ne (not_lt.mp hlt) (Ne.symm heq)
      · exact hfirst other hmem

/-- `insert_or_assign`. -/
def insert (m : OrderedMap κ α) (key : κ) (value : α) : OrderedMap κ α :=
  ⟨insertEntry key value m.entries, insertEntry_sorted m.sorted⟩

@[simp]
lemma mem_insert :
    entry ∈ (m.insert key value).entries
      ↔ entry = (key, value) ∨ entry ∈ m.entries ∧ entry.1 ≠ key :=
  mem_insertEntry m.sorted

lemma find?_insert (m : OrderedMap κ α) (key : κ) (value : α) (other : κ) :
    (m.insert key value).find? other = if other = key then some value else m.find? other := by
  split_ifs with heq
  · rw [find?_eq_some, mem_insert, heq]
    exact .inl rfl
  · refine Option.ext fun _ => ?_
    rw [find?_eq_some, find?_eq_some, mem_insert]
    simp [heq]

/-- `emplace`: a key that has a value keeps it. -/
def emplace (m : OrderedMap κ α) (key : κ) (value : α) : OrderedMap κ α :=
  if m.contains key then m else m.insert key value

lemma emplace_of_absent (habsent : m.find? key = none) (value : α) :
    m.emplace key value = m.insert key value := by
  rw [emplace, contains, habsent]
  rfl

/-- Every value replaced by a function of it. -/
def mapValues (m : OrderedMap κ α) (f : α → β) : OrderedMap κ β :=
  ⟨m.entries.map fun entry => (entry.1, f entry.2), List.pairwise_map.mpr m.sorted⟩

@[simp]
lemma mem_mapValues {f : α → β} {entry : κ × β} :
    entry ∈ (m.mapValues f).entries ↔
      ∃ value, (entry.1, value) ∈ m.entries ∧ f value = entry.2 := by
  constructor
  · intro hmem
    obtain ⟨⟨key, value⟩, hin, rfl⟩ := mem_map.mp hmem
    exact ⟨value, hin, rfl⟩
  · rintro ⟨value, hmem, heq⟩
    exact mem_map.mpr ⟨_, hmem, Prod.ext rfl heq⟩

lemma find?_mapValues (m : OrderedMap κ α) (f : α → β) (key : κ) :
    (m.mapValues f).find? key = (m.find? key).map f := by
  refine Option.ext fun _ => ?_
  rw [find?_eq_some, mem_mapValues, Option.map_eq_some_iff]
  exact exists_congr fun _ => and_congr_left' find?_eq_some.symm

/-- The entries that are kept. -/
def restrict (m : OrderedMap κ α) (keep : κ × α → Bool) : OrderedMap κ α :=
  ⟨m.entries.filter keep, m.sorted.sublist List.filter_sublist⟩

@[simp]
lemma mem_restrict {keep : κ × α → Bool} :
    entry ∈ (m.restrict keep).entries ↔ entry ∈ m.entries ∧ keep entry = true :=
  mem_filter

/-- `erase` of a key. -/
def erase (m : OrderedMap κ α) (key : κ) : OrderedMap κ α := m.restrict (·.1 ≠ key)

lemma find?_erase (m : OrderedMap κ α) (key other : κ) :
    (m.erase key).find? other = if other = key then none else m.find? other := by
  split_ifs with heq
  · rw [find?_eq_none]
    intro _
    simp [erase, heq]
  · refine Option.ext fun _ => ?_
    rw [find?_eq_some, find?_eq_some, erase, mem_restrict]
    simp [heq]

/-! ### Bounds -/

/-- The entry before `upper_bound`: the last one whose key is at most `bound`. -/
def lastLE (m : OrderedMap κ α) (bound : κ) : Option (κ × α) :=
  (m.entries.takeWhile (·.1 ≤ bound)).getLast?

variable {bound : κ}

/-- In a list whose elements with a property come first, taking them is filtering them. -/
lemma takeWhile_eq_filter {xs : List α} {p : α → Bool}
    (hsorted : xs.Pairwise fun earlier later => p later = true → p earlier = true) :
    xs.takeWhile p = xs.filter p := by
  induction xs with
  | nil => rfl
  | cons x xs ih =>
    obtain ⟨hx, hxs⟩ := pairwise_cons.mp hsorted
    by_cases hp : p x = true
    · rw [takeWhile_cons_of_pos hp, filter_cons_of_pos hp, ih hxs]
    · have hnone : xs.filter p = [] :=
        filter_eq_nil_iff.mpr fun y hy hpy => hp (hx y hy hpy)
      rw [takeWhile_cons_of_neg hp, filter_cons_of_neg hp, hnone]

lemma mem_takeWhile_iff :
    entry ∈ m.entries.takeWhile (·.1 ≤ bound) ↔ entry ∈ m.entries ∧ entry.1 ≤ bound := by
  rw [takeWhile_eq_filter (m.sorted.imp fun hlt hle => ?_), mem_filter, decide_eq_true_eq]
  exact decide_eq_true (hlt.le.trans (of_decide_eq_true hle))

lemma lastLE_some (hlast : m.lastLE bound = some entry) :
    entry ∈ m.entries ∧ entry.1 ≤ bound
      ∧ ∀ other ∈ m.entries, other.1 ≤ bound → other.1 ≤ entry.1 := by
  obtain ⟨earlier, heq⟩ := getLast?_eq_some_iff.mp hlast
  have hmem : entry ∈ m.entries.takeWhile (·.1 ≤ bound) := by
    rw [heq]
    exact mem_append_right _ mem_cons_self
  obtain ⟨hentry, hle⟩ := mem_takeWhile_iff.mp hmem
  refine ⟨hentry, hle, fun other hother hbound => ?_⟩
  have hsorted := m.sorted.sublist (takeWhile_sublist (·.1 ≤ bound))
  have hin := mem_takeWhile_iff.mpr ⟨hother, hbound⟩
  rw [heq] at hsorted hin
  rcases mem_append.mp hin with hearlier | hlast
  · exact ((pairwise_append.mp hsorted).2.2 other hearlier entry mem_cons_self).le
  · rw [mem_singleton.mp hlast]

lemma lastLE_eq_none :
    m.lastLE bound = none ↔ ∀ entry ∈ m.entries, bound < entry.1 := by
  rw [lastLE, getLast?_eq_none_iff, eq_nil_iff_forall_not_mem]
  refine forall_congr' fun _ => ?_
  rw [mem_takeWhile_iff, not_and, not_le]

/-- **The last entry up to a bound** is the one with the greatest key there. -/
lemma lastLE_eq_some :
    m.lastLE bound = some entry ↔ entry ∈ m.entries ∧ entry.1 ≤ bound
      ∧ ∀ other ∈ m.entries, other.1 ≤ bound → other.1 ≤ entry.1 := by
  refine ⟨lastLE_some, fun ⟨hmem, hle, hlast⟩ => ?_⟩
  cases hfound : m.lastLE bound with
  | none => exact absurd hle (lastLE_eq_none.mp hfound entry hmem).not_ge
  | some found =>
    obtain ⟨hfoundmem, hfoundle, hfoundlast⟩ := lastLE_some hfound
    have hkey := le_antisymm (hlast found hfoundmem hfoundle) (hfoundlast entry hmem hle)
    rw [eq_of_key hfoundmem hmem hkey]

variable {n : OrderedMap κ α}

lemma lastLE_congr (hmem : ∀ entry, entry.1 ≤ bound → (entry ∈ m.entries ↔ entry ∈ n.entries)) :
    m.lastLE bound = n.lastLE bound := by
  refine Option.ext fun entry => ?_
  rw [lastLE_eq_some, lastLE_eq_some]
  constructor
  · rintro ⟨hin, hle, hlast⟩
    exact ⟨(hmem entry hle).mp hin, hle, fun other hother hbound =>
      hlast other ((hmem other hbound).mpr hother) hbound⟩
  · rintro ⟨hin, hle, hlast⟩
    exact ⟨(hmem entry hle).mpr hin, hle, fun other hother hbound =>
      hlast other ((hmem other hbound).mp hother) hbound⟩

/-- A key that no other exceeds is the last one from itself on. -/
lemma lastLE_insert_of_le (hlast : ∀ entry ∈ m.entries, entry.1 ≤ key) (hle : key ≤ bound) :
    (m.insert key value).lastLE bound = some (key, value) := by
  refine lastLE_eq_some.mpr ⟨mem_insert.mpr (.inl rfl), hle, fun other hmem _ => ?_⟩
  rcases mem_insert.mp hmem with rfl | ⟨hother, -⟩
  · exact le_refl _
  · exact hlast other hother

/-- A later key leaves the earlier bounds alone. -/
lemma lastLE_insert_of_lt (hlt : bound < key) :
    (m.insert key value).lastLE bound = m.lastLE bound := by
  refine lastLE_congr fun entry hle => ?_
  rw [mem_insert]
  constructor
  · rintro (rfl | ⟨hmem, -⟩)
    · exact absurd hle hlt.not_ge
    · exact hmem
  · exact fun hmem => .inr ⟨hmem, (hle.trans_lt hlt).ne⟩

/-- Dropping entries before one that stays, up to a bound, leaves the bound alone. -/
lemma lastLE_of_subset (hsubset : n.entries ⊆ m.entries)
    (hstays : ∀ entry ∈ m.entries, entry.1 ≤ bound → ∃ other ∈ n.entries, entry.1 ≤ other.1 ∧
      other.1 ≤ bound) :
    n.lastLE bound = m.lastLE bound := by
  refine Option.ext fun entry => ?_
  rw [lastLE_eq_some, lastLE_eq_some]
  constructor
  · rintro ⟨hin, hle, hlast⟩
    refine ⟨hsubset hin, hle, fun other hother hbound => ?_⟩
    obtain ⟨later, hlater, hkey, hlaterle⟩ := hstays other hother hbound
    exact hkey.trans (hlast later hlater hlaterle)
  · rintro ⟨hin, hle, hlast⟩
    obtain ⟨later, hlater, hkey, hlaterle⟩ := hstays entry hin hle
    have heq : later = entry :=
      eq_of_key (hsubset hlater) hin (le_antisymm (hlast later (hsubset hlater) hlaterle) hkey)
    exact ⟨heq ▸ hlater, hle, fun other hother hbound => hlast other (hsubset hother) hbound⟩

/-! ### Sums -/

/-- The sum of a measure over the values. -/
def sum (m : OrderedMap κ α) (measure : α → ℕ) : ℕ := (m.entries.map (measure ·.2)).sum

lemma sum_insertEntry (measure : α → ℕ)
    (hsorted : entries.Pairwise (fun earlier later => earlier.1 < later.1)) :
    ((insertEntry key value entries).map (measure ·.2)).sum
        + (((entries.find? (·.1 = key)).map (·.2)).map measure).getD 0
      = (entries.map (measure ·.2)).sum + measure value := by
  induction entries with
  | nil => simp [insertEntry]
  | cons first rest ih =>
    obtain ⟨hfirst, hrest⟩ := pairwise_cons.mp hsorted
    rw [insertEntry]
    split_ifs with hlt heq
    · have hnone : (first :: rest).find? (·.1 = key) = none := by
        rw [List.find?_eq_none]
        intro other hmem
        rcases List.mem_cons.mp hmem with rfl | hlater
        · simpa using hlt.ne'
        · simpa using (hlt.trans (hfirst other hlater)).ne'
      rw [hnone]
      simp only [map_cons, sum_cons, Option.map_none, Option.getD_none]
      omega
    · simp only [map_cons, sum_cons, find?_cons, heq, decide_true, Option.map_some,
        Option.getD_some]
      omega
    · have hne : decide (first.1 = key) = false := by simpa using Ne.symm heq
      have := ih hrest
      simp only [map_cons, sum_cons, find?_cons, hne] at this ⊢
      omega

/-- Setting a key replaces its old share of a sum by the new one. -/
lemma sum_insert (m : OrderedMap κ α) (key : κ) (value : α) (measure : α → ℕ) :
    (m.insert key value).sum measure + ((m.find? key).map measure).getD 0
      = m.sum measure + measure value :=
  sum_insertEntry measure m.sorted

lemma size_insert (m : OrderedMap κ α) (key : κ) (value : α) :
    (m.insert key value).size + ((m.find? key).map fun _ => 1).getD 0 = m.size + 1 := by
  simpa [sum, size] using m.sum_insert key value fun _ => 1

@[simp] lemma size_mapValues (m : OrderedMap κ α) (f : α → β) : (m.mapValues f).size = m.size :=
  length_map _

lemma size_erase_lt (hfind : m.find? key = some value) : (m.erase key).size < m.size :=
  length_filter_lt_length_iff_exists.2 ⟨_, find?_eq_some.1 hfind, by simp⟩

lemma sum_mapValues_le (m : OrderedMap κ α) {f : α → α} {measure : α → ℕ}
    (hle : ∀ value, measure (f value) ≤ measure value) :
    (m.mapValues f).sum measure ≤ m.sum measure := by
  rw [sum, sum, mapValues, map_map]
  exact sum_le_sum fun entry _ => hle entry.2

end OrderedMap

end Chronos
