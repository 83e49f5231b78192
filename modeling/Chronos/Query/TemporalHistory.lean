import Chronos.Query.TemporalSnapshot

/-!
As-of queries answer from the commits, whatever was compacted or restored.

* `TemporalCommit`, `historyOf`, `rowAsOf`: the commits of a run, and what the last mutation
  of an identity by a time shows.
* `Tracks`: a provider holds the histories of some commits, less what a retained time no
  longer needs.
* `Tracks.installed`, `Tracks.compacted`, `Tracks.restored`: the operations keep it.
* `Tracks.resolve_eq`: what `resolve` then returns.
-/

namespace Chronos.Query

open Schema List OrderedMap TemporalSnapshotProvider

/-! ### Sorted lists -/

section Sorted

variable {α : Type}

variable {p : α → Bool}

/-- The last element with a property is not lost with a part before an element that has it. -/
lemma getLast?_filter_append {dropped kept : List α}
    (hkept : dropped ≠ [] → ∃ x ∈ kept, p x = true) :
    ((dropped ++ kept).filter p).getLast? = (kept.filter p).getLast? := by
  by_cases hnil : dropped = []
  · rw [hnil, nil_append]
  · obtain ⟨_, hx, hp⟩ := hkept hnil
    rw [filter_append, getLast?_append_of_ne_nil]
    exact ne_nil_of_mem (mem_filter.mpr ⟨hx, hp⟩)

end Sorted

/-! ### Commits -/

/-- A successful call of `apply_committed`. -/
structure TemporalCommit where
  position : ℕ
  time : Int
  mutations : List TemporalMutation
  deriving DecidableEq

/-- The versions of a commit. -/
def TemporalCommit.versions (commit : TemporalCommit) : List TemporalVersion :=
  commit.mutations.map fun mutation => ⟨commit.position, commit.time, mutation⟩

/-- Every version of the commits, in their order. -/
def allVersions (commits : List TemporalCommit) : List TemporalVersion :=
  commits.flatMap (·.versions)

/-- The versions of one identity. -/
def historyOf (commits : List TemporalCommit) (identity : Bytes) : List TemporalVersion :=
  (allVersions commits).filter (·.mutation.logicalIdentity = identity)

/-- The last version of an identity by a time. -/
def lastAsOf (commits : List TemporalCommit) (time : Int) (identity : Bytes) :
    Option TemporalVersion :=
  ((historyOf commits identity).filter (·.commitTimeNs ≤ time)).getLast?

/-- The row that an identity shows at a time. -/
def rowAsOf (schema : TableSchema) (commits : List TemporalCommit) (time : Int)
    (identity : Bytes) : Option ScalarInputRow :=
  (lastAsOf commits time identity).bind (TemporalSnapshotProvider.shownRow schema identity)

/-- The position of the last commit by a time. -/
def positionAsOf (commits : List TemporalCommit) (time : Int) : Option ℕ :=
  ((commits.filter (·.time ≤ time)).getLast?).map (·.position)

/-- Commits in order: positions increase and times do not decrease, and no commit is empty or names
an identity twice. -/
structure CommitsOrdered (commits : List TemporalCommit) : Prop where
  ordered : commits.Pairwise fun earlier later =>
    earlier.position < later.position ∧ earlier.time ≤ later.time
  mutations : ∀ commit ∈ commits, commit.mutations ≠ []
    ∧ (commit.mutations.map (·.logicalIdentity)).Nodup

variable {commits : List TemporalCommit} {version : TemporalVersion}

lemma mem_allVersions :
    version ∈ allVersions commits ↔ ∃ commit ∈ commits, version.mutation ∈ commit.mutations
      ∧ version.commitPosition = commit.position ∧ version.commitTimeNs = commit.time := by
  rw [allVersions, mem_flatMap]
  refine exists_congr fun _ => and_congr_right fun _ => ?_
  rw [TemporalCommit.versions, mem_map]
  constructor
  · rintro ⟨_, hmem, rfl⟩
    exact ⟨hmem, rfl, rfl⟩
  · rintro ⟨hmem, hposition, htime⟩
    exact ⟨_, hmem, by rw [← hposition, ← htime]⟩

lemma mem_historyOf {identity : Bytes} :
    version ∈ historyOf commits identity
      ↔ version ∈ allVersions commits ∧ version.mutation.logicalIdentity = identity := by
  simp [historyOf]

lemma historyOf_append (commits more : List TemporalCommit) (identity : Bytes) :
    historyOf (commits ++ more) identity =
      historyOf commits identity ++ historyOf more identity := by
  simp [historyOf, allVersions]

section

variable (hcommits : CommitsOrdered commits)
include hcommits

/-- The versions of one identity have increasing positions and nondecreasing times. -/
lemma historyOf_ordered (identity : Bytes) :
    (historyOf commits identity).Pairwise fun earlier later =>
      earlier.commitPosition < later.commitPosition
        ∧ earlier.commitTimeNs ≤ later.commitTimeNs := by
  obtain ⟨hordered, hmutations⟩ := hcommits
  induction commits with
  | nil => exact .nil
  | cons commit _ ih =>
    obtain ⟨hfirst, hrest⟩ := pairwise_cons.mp hordered
    have hone : (historyOf [commit] identity).Pairwise fun earlier later =>
        earlier.commitPosition < later.commitPosition
          ∧ earlier.commitTimeNs ≤ later.commitTimeNs := by
      have hdistinct : (allVersions [commit]).Pairwise fun earlier later =>
          earlier.mutation.logicalIdentity ≠ later.mutation.logicalIdentity := by
        rw [allVersions, flatMap_singleton, TemporalCommit.versions, pairwise_map]
        exact pairwise_map.mp (hmutations commit mem_cons_self).2
      refine (hdistinct.sublist filter_sublist).imp_of_mem fun hearlier hlater hne => ?_
      exact absurd ((mem_historyOf.mp hearlier).2.trans (mem_historyOf.mp hlater).2.symm) hne
    rw [← singleton_append, historyOf_append]
    refine pairwise_append.mpr ⟨hone, ih hrest fun c hc => hmutations c
      (mem_cons_of_mem _ hc), fun earlier hearlier later hlater => ?_⟩
    obtain ⟨hearlier, -⟩ := mem_historyOf.mp hearlier
    obtain ⟨hlater, -⟩ := mem_historyOf.mp hlater
    obtain ⟨_, hmem, -, hposition, htime⟩ := mem_allVersions.mp hearlier
    obtain ⟨second, hmem', -, hposition', htime'⟩ := mem_allVersions.mp hlater
    cases mem_singleton.mp hmem
    rw [hposition, htime, hposition', htime']
    exact hfirst second hmem'

/-- A commit after all others extends the order. -/
lemma CommitsOrdered.append {commit : TemporalCommit} (hmutations : commit.mutations ≠ [])
    (hdistinct : (commit.mutations.map (·.logicalIdentity)).Nodup)
    (hlast : ∀ earlier ∈ commits, earlier.position < commit.position ∧ earlier.time ≤ commit.time) :
    CommitsOrdered (commits ++ [commit]) where
  ordered := by
    refine pairwise_append.mpr ⟨hcommits.ordered, pairwise_singleton _ _, ?_⟩
    intro earlier hearlier _ hlater
    cases mem_singleton.mp hlater
    exact hlast earlier hearlier
  mutations := by
    intro other hmem
    rcases mem_append.mp hmem with hold | hnew
    · exact hcommits.mutations other hold
    · cases mem_singleton.mp hnew
      exact ⟨hmutations, hdistinct⟩

/-- Of two commits the one with the smaller position is not the later one. -/
lemma CommitsOrdered.time_le {first second : TemporalCommit} (hfirst : first ∈ commits)
    (hsecond : second ∈ commits) (hle : first.position ≤ second.position) :
    first.time ≤ second.time := by
  have hall : ∀ a ∈ commits, ∀ b ∈ commits, a.position ≤ b.position → a.time ≤ b.time := by
    refine List.Pairwise.forall_of_forall_of_flip (fun _ _ _ => le_refl _) ?_ ?_
    · exact hcommits.ordered.imp fun h _ => h.2
    · refine hcommits.ordered.imp fun h hle => ?_
      have := h.1
      omega
  exact hall first hfirst second hsecond hle

/-- The last commit has the greatest position. -/
lemma CommitsOrdered.exists_greatest (hne : commits ≠ []) :
    ∃ last ∈ commits, ∀ commit ∈ commits, commit.position ≤ last.position := by
  refine ⟨commits.getLast hne, getLast_mem hne, fun commit hmem => ?_⟩
  have hsorted := hcommits.ordered
  rw [← dropLast_append_getLast hne] at hmem hsorted
  rcases mem_append.mp hmem with hearlier | hself
  · exact ((pairwise_append.mp hsorted).2.2 commit hearlier _ mem_cons_self).1.le
  · rw [mem_singleton.mp hself]

end

variable {time : Int}

/-- **The last commit by a time** is the one with the greatest position. -/
lemma positionAsOf_eq_some (hcommits : CommitsOrdered commits) {position : ℕ} :
    positionAsOf commits time = some position
      ↔ (∃ commit ∈ commits, commit.time ≤ time ∧ commit.position = position)
        ∧ ∀ commit ∈ commits, commit.time ≤ time → commit.position ≤ position := by
  have hsome : ∀ last, (commits.filter (·.time ≤ time)).getLast? = some last →
      (last ∈ commits ∧ last.time ≤ time)
        ∧ ∀ commit ∈ commits, commit.time ≤ time → commit.position ≤ last.position := by
    intro last hlast
    obtain ⟨hmem, htime⟩ := mem_filter.mp (mem_of_getLast? hlast)
    refine ⟨⟨hmem, by simpa using htime⟩, fun commit hcommit hle => ?_⟩
    obtain ⟨_, heq⟩ := getLast?_eq_some_iff.mp hlast
    have hin : commit ∈ commits.filter (·.time ≤ time) := by simpa using ⟨hcommit, hle⟩
    have hsorted := hcommits.ordered.sublist (filter_sublist (p := (·.time ≤ time)))
    rw [heq] at hin hsorted
    rcases mem_append.mp hin with hearlier | hself
    · exact ((pairwise_append.mp hsorted).2.2 commit hearlier last mem_cons_self).1.le
    · rw [mem_singleton.mp hself]
  constructor
  · intro hposition
    obtain ⟨last, hlast, rfl⟩ := Option.map_eq_some_iff.mp hposition
    obtain ⟨⟨hmem, htime⟩, hgreatest⟩ := hsome last hlast
    exact ⟨⟨last, hmem, htime, rfl⟩, hgreatest⟩
  · rintro ⟨⟨commit, hcommit, htime, rfl⟩, hgreatest⟩
    have hin : commit ∈ commits.filter (·.time ≤ time) := by simpa using ⟨hcommit, htime⟩
    obtain ⟨last, hlast⟩ :=
      Option.isSome_iff_exists.mp (getLast?_isSome.mpr (ne_nil_of_mem hin))
    obtain ⟨⟨hmem, hlasttime⟩, hlastgreatest⟩ := hsome last hlast
    rw [positionAsOf, hlast, Option.map_some]
    exact congrArg some (le_antisymm (hgreatest last hmem hlasttime)
      (hlastgreatest commit hcommit htime))

/-- Some commit is the last one by a time if any commit is by it. -/
lemma exists_positionAsOf (hcommitted : ∃ commit ∈ commits, commit.time ≤ time) :
    ∃ position, positionAsOf commits time = some position := by
  obtain ⟨commit, hcommit, hle⟩ := hcommitted
  have hin : commit ∈ commits.filter (·.time ≤ time) := by simpa using ⟨hcommit, hle⟩
  obtain ⟨last, hlast⟩ :=
    Option.isSome_iff_exists.mp (getLast?_isSome.mpr (ne_nil_of_mem hin))
  exact ⟨last.position, by rw [positionAsOf, hlast]; rfl⟩

/-- **Positions and times agree**: a version is among the commits by a time exactly if its position
is at most that of the last of them. -/
lemma position_le_iff (hcommits : CommitsOrdered commits) {boundary : ℕ}
    (hboundary : positionAsOf commits time = some boundary)
    (hversion : version ∈ allVersions commits) :
    version.commitPosition ≤ boundary ↔ version.commitTimeNs ≤ time := by
  obtain ⟨⟨_, hlast, hlasttime, rfl⟩, hgreatest⟩ := (positionAsOf_eq_some hcommits).mp hboundary
  obtain ⟨commit, hcommit, -, hposition, htime⟩ := mem_allVersions.mp hversion
  rw [hposition, htime]
  exact ⟨fun hle => (hcommits.time_le hcommit hlast hle).trans hlasttime,
    fun hle => hgreatest commit hcommit hle⟩

/-! ### What a provider holds -/

/-- `time` is not before a boundary, if there is one. -/
def NotExpired (earliest : Option Int) (time : Int) : Prop := ∀ boundary ∈ earliest, boundary ≤ time

/-- The version of an identity that is shown fits the schema. -/
def VersionFits (schema : TableSchema) (version : TemporalVersion) : Prop :=
  version.mutation.kind ≠ .tombstone →
    RowFits schema (TemporalSnapshotProvider.inputRow schema version.mutation.logicalIdentity
      version.mutation.walId version.mutation.recordSequence version.commitPosition
      version.mutation)

/-- The later of the boundary so far and a new one. -/
def laterBoundary (floor : Option Int) (retained : Int) : Int := floor.elim retained (max retained)

lemma le_laterBoundary (floor : Option Int) (retained : Int) :
    retained ≤ laterBoundary floor retained := by
  cases floor with
  | none => exact le_refl _
  | some boundary => exact le_max_left _ _

variable {floor : Option Int}

lemma boundary_le_laterBoundary {boundary : Int} (hboundary : boundary ∈ floor) (retained : Int) :
    boundary ≤ laterBoundary floor retained := by
  cases hboundary
  exact le_max_right _ _

lemma NotExpired.of_later {retained : Int}
    (htime : NotExpired (some (laterBoundary floor retained)) time) :
    retained ≤ time ∧ NotExpired floor time :=
  ⟨(le_laterBoundary floor retained).trans (htime _ rfl),
    fun _ hboundary => (boundary_le_laterBoundary hboundary retained).trans (htime _ rfl)⟩

/-- A provider holds the histories of some commits from a boundary on.  What it has dropped of a
history is older than a version it has kept, and that version is older than the boundary. -/
structure Tracks (floor : Option Int) (commits : List TemporalCommit)
    (provider : TemporalSnapshotProvider) : Prop where
  ordered : CommitsOrdered commits
  positive : ∀ commit ∈ commits, commit.position ≠ 0
  latest : ∀ commit ∈ commits,
    commit.position ≤ provider.latestPosition ∧ commit.time ≤ provider.latestTime
  untouched : provider.latestPosition = 0 → commits = []
  kept : ∀ identity history, (identity, history) ∈ provider.histories.entries →
    history ≠ [] ∧ ∃ dropped, historyOf commits identity = dropped ++ history
      ∧ (dropped ≠ [] → ∃ boundary ∈ floor, ∃ version ∈ history, version.commitTimeNs < boundary)
  absent : ∀ identity, provider.histories.find? identity = none → historyOf commits identity = []
  count : provider.versions = provider.histories.sum List.length
  times : ∀ entry ∈ provider.timeToPosition.entries, ∃ commit ∈ commits, commit.time = entry.1
  earliest : ∀ time, NotExpired floor time → NotExpired provider.earliestRetainedTime time
  boundary : ∀ time, NotExpired floor time →
    (provider.timeToPosition.lastLE time).map (·.2) = positionAsOf commits time
  fits : ∀ version ∈ allVersions commits, VersionFits provider.schema version
  running : provider.failed = false

namespace Tracks

variable {floor : Option Int} {commits : List TemporalCommit}
  {provider : TemporalSnapshotProvider}

lemma fresh (schema : TableSchema) (limits : TemporalStoreLimits) :
    Tracks none [] (fresh schema limits) where
  ordered := ⟨.nil, by simp⟩
  positive := by simp
  latest := by simp
  untouched := fun _ => rfl
  kept := by simp [TemporalSnapshotProvider.fresh, empty]
  absent := fun _ _ => rfl
  count := rfl
  times := by simp [TemporalSnapshotProvider.fresh, empty]
  earliest := fun _ htime => htime
  boundary := fun _ _ => rfl
  fits := by simp [allVersions]
  running := rfl

variable {time : Int} {identity : Bytes} {history : List TemporalVersion}

section

variable (htracks : Tracks floor commits provider) (htime : NotExpired floor time)
include htracks htime

/-- **As-of lookups in a kept history** are those in the whole one. -/
lemma lastAsOf_eq (hmem : (identity, history) ∈ provider.histories.entries) :
    lastAsOf commits time identity
      = (history.filter (·.commitTimeNs ≤ time)).getLast? := by
  obtain ⟨-, _, heq, hdropped⟩ := htracks.kept identity history hmem
  rw [lastAsOf, heq]
  refine getLast?_filter_append fun hne => ?_
  obtain ⟨boundary, hboundary, version, hversion, _⟩ := hdropped hne
  have := htime boundary hboundary
  exact ⟨version, hversion, by simp only [decide_eq_true_eq]; omega⟩

/-- The version that `resolve` finds by position is the last one by time. -/
lemma versionAt_eq {boundary : ℕ} (hboundary : positionAsOf commits time = some boundary)
    (hmem : (identity, history) ∈ provider.histories.entries) :
    versionAt history boundary = lastAsOf commits time identity := by
  obtain ⟨-, _, heq, -⟩ := htracks.kept identity history hmem
  have hsublist : history.Sublist (historyOf commits identity) :=
    heq ▸ sublist_append_right _ _
  have hsorted := (historyOf_ordered htracks.ordered identity).sublist hsublist
  rw [htracks.lastAsOf_eq htime hmem, versionAt, takeWhile_eq_filter]
  · congr 1
    refine filter_congr fun _ hversion => ?_
    have hin := (mem_historyOf.mp (hsublist.subset hversion)).1
    simp only [position_le_iff htracks.ordered hboundary hin]
  · refine hsorted.imp fun _ => ?_
    simp only [decide_eq_true_eq]
    omega

end

variable {version : TemporalVersion}

/-- An identity that shows a row has a history. -/
lemma mem_of_lastAsOf (htracks : Tracks floor commits provider)
    (hlast : lastAsOf commits time identity = some version) :
    ∃ history, (identity, history) ∈ provider.histories.entries := by
  by_contra hnone
  have hfind := find?_eq_none.mpr fun history hmem => hnone ⟨history, hmem⟩
  simp [lastAsOf, htracks.absent identity hfind] at hlast

lemma mem_allVersions_of_lastAsOf (hlast : lastAsOf commits time identity = some version) :
    version ∈ allVersions commits ∧ version.mutation.logicalIdentity = identity
      ∧ version.commitTimeNs ≤ time := by
  have hmem := mem_of_getLast? hlast
  obtain ⟨hmem, htime⟩ := mem_filter.mp hmem
  obtain ⟨hall, hidentity⟩ := mem_historyOf.mp hmem
  exact ⟨hall, hidentity, by simpa using htime⟩

/-- **As-of queries answer from the commits**: the row of every identity whose last mutation by the
time is not a tombstone, and no other row. -/
lemma resolve_eq (htracks : Tracks floor commits provider) {schema : TableSchema}
    (hschema : schema.schemaId = provider.schema.schemaId)
    (hversion : schema.version = provider.schema.version) (htime : NotExpired floor time)
    (hcommitted : ∃ commit ∈ commits, commit.time ≤ time) :
    ∃ boundary, positionAsOf commits time = some boundary
      ∧ provider.resolve schema (some time) = .ok ⟨provider.schema, boundary,
        (provider.histories.entries.map (·.1)).filterMap
          (rowAsOf provider.schema commits time)⟩ := by
  obtain ⟨boundary, hboundary⟩ := exists_positionAsOf hcommitted
  refine ⟨boundary, hboundary, ?_⟩
  have hnonzero : boundary ≠ 0 := by
    obtain ⟨⟨last, hlast, -, rfl⟩, -⟩ := (positionAsOf_eq_some htracks.ordered).mp hboundary
    exact htracks.positive last hlast
  have hexpired : provider.earliestRetainedTime.any (time < ·) = false := by
    cases hearliest : provider.earliestRetainedTime with
    | none => rfl
    | some earliest =>
      have := htracks.earliest time htime earliest hearliest
      simpa using this
  have hrows : (provider.histories.entries.filterMap fun entry =>
      (versionAt entry.2 boundary).bind (shownRow provider.schema entry.1))
      = (provider.histories.entries.map (·.1)).filterMap
        (rowAsOf provider.schema commits time) := by
    rw [filterMap_map]
    refine filterMap_congr fun entry hmem => ?_
    simp only [Function.comp_apply, rowAsOf, htracks.versionAt_eq htime hboundary hmem]
  simp only [resolve, hschema, hversion, ne_eq, not_true_eq_false,
    or_self, if_false, htracks.running, Bool.false_eq_true, Option.any_some, hexpired,
    htracks.boundary time htime, hboundary, Option.getD_some, hrows]
  refine ScalarTableSnapshot.create_ok.mpr ⟨hnonzero, rfl, fun row hmem => ?_⟩
  obtain ⟨_, -, hrow⟩ := mem_filterMap.mp hmem
  obtain ⟨version, hlast, hshown⟩ := Option.bind_eq_some_iff.mp hrow
  obtain ⟨hall, rfl, hle⟩ := mem_allVersions_of_lastAsOf hlast
  have hposition := (position_le_iff htracks.ordered hboundary hall).mpr hle
  rw [shownRow] at hshown
  split_ifs at hshown with hkind
  cases hshown
  exact ⟨htracks.fits version hall hkind, hposition⟩

end Tracks

/-! ### What validation says -/

namespace TemporalSnapshotProvider

/-- What `validate` asks of one mutation. -/
structure MutationAccepted (provider : TemporalSnapshotProvider) (position : ℕ)
    (requireSource allowPredecessor : Bool) (mutation : TemporalMutation) : Prop where
  identity : mutation.logicalIdentity ≠ []
  identity_le : mutation.logicalIdentity.length ≤ provider.limits.maximumIdentityBytes
  source : requireSource = true → mutation.walId ≠ 0 ∧ mutation.recordSequence ≠ 0
  columns : mutation.columns.length = provider.schema.columns.length
  predecessor : provider.histories.contains mutation.logicalIdentity = false →
    allowPredecessor = true ∨ mutation.kind = .original
  revision : provider.histories.contains mutation.logicalIdentity = true →
    mutation.kind ≠ .original
  row : mutation.kind ≠ .tombstone →
    RowFits provider.schema (provider.checkedRow position requireSource mutation)

/-- What `validate` asks of a commit. -/
structure CommitAccepted (provider : TemporalSnapshotProvider) (position : ℕ) (time : Int)
    (mutations : List TemporalMutation) (requireSource allowPredecessor : Bool) : Prop where
  running : provider.failed = false
  positive : position ≠ 0
  nonempty : mutations ≠ []
  advances : provider.latestPosition < position
  time_le : provider.latestPosition = 0 ∨ provider.latestTime ≤ time
  capacity : mutations.length ≤ provider.limits.maximumVersions - provider.versions
  distinct : (mutations.map (·.logicalIdentity)).Nodup
  accepted : ∀ mutation ∈ mutations,
    provider.MutationAccepted position requireSource allowPredecessor mutation
  rows : mutations.countP (fun mutation =>
      !provider.histories.contains mutation.logicalIdentity)
    ≤ provider.limits.maximumLogicalRows - provider.histories.size

variable {provider : TemporalSnapshotProvider} {position : ℕ} {time : Int}
  {requireSource allowPredecessor : Bool}

variable {seen : List Bytes}

lemma validateMutation_ok {mutation : TemporalMutation} :
    provider.validateMutation position requireSource allowPredecessor seen mutation = .ok ()
      ↔ mutation.logicalIdentity ∉ seen
        ∧ provider.MutationAccepted position requireSource allowPredecessor mutation := by
  rw [validateMutation]
  split_ifs with hshape hseen hpredecessor hrevision hkind
  · refine ⟨fun hok => by simp [invalid] at hok, fun ⟨_, h⟩ => ?_⟩
    rcases hshape with hnil | _ | ⟨hrequire, hsource⟩ | hcolumns
    · exact absurd hnil h.identity
    · exact absurd h.identity_le (by omega)
    · have := h.source hrequire
      exact absurd hsource (by simp [this])
    · exact absurd h.columns hcolumns
  · exact ⟨fun hok => by simp [invalid] at hok, fun ⟨h, _⟩ => absurd hseen h⟩
  · refine ⟨fun hok => by simp [invalid] at hok, fun ⟨_, h⟩ => ?_⟩
    rcases h.predecessor hpredecessor.1 with hallow | horiginal
    · simp [hpredecessor.2.1] at hallow
    · exact absurd horiginal hpredecessor.2.2
  · exact ⟨fun hok => by simp [invalid] at hok,
      fun ⟨_, h⟩ => absurd hrevision.2 (h.revision hrevision.1)⟩
  all_goals
    push Not at hshape
    have haccepted : (mutation.kind ≠ .tombstone →
        RowFits provider.schema (provider.checkedRow position requireSource mutation)) →
        provider.MutationAccepted position requireSource allowPredecessor mutation := fun hrow =>
      { identity := hshape.1
        identity_le := hshape.2.1
        source := hshape.2.2.1
        columns := hshape.2.2.2
        predecessor := fun hcontains => by
          cases allowPredecessor with
          | true => exact .inl rfl
          | false => exact .inr (by_contra fun hne => hpredecessor ⟨hcontains, rfl, hne⟩)
        revision := fun hcontains horiginal => hrevision ⟨hcontains, horiginal⟩
        row := hrow }
  · exact ⟨fun _ => ⟨hseen, haccepted fun hne => absurd hkind hne⟩, fun _ => rfl⟩
  · rw [Result.bind_eq_ok]
    constructor
    · rintro ⟨_, hcreate, -⟩
      obtain ⟨-, -, hrows⟩ := ScalarTableSnapshot.create_ok.mp hcreate
      exact ⟨hseen, haccepted fun _ => (hrows _ mem_cons_self).1⟩
    · rintro ⟨-, h⟩
      have hrow := h.row hkind
      refine ⟨_, ScalarTableSnapshot.create_ok.mpr ⟨hrow.position, rfl, ?_⟩, rfl⟩
      intro _ hmem
      cases mem_singleton.mp hmem
      exact ⟨hrow, le_refl _⟩

variable {mutations : List TemporalMutation}

lemma validateMutations_ok {count : ℕ} :
    provider.validateMutations position requireSource allowPredecessor seen mutations = .ok count
      ↔ (∀ mutation ∈ mutations, mutation.logicalIdentity ∉ seen)
        ∧ (mutations.map (·.logicalIdentity)).Nodup
        ∧ (∀ mutation ∈ mutations,
          provider.MutationAccepted position requireSource allowPredecessor mutation)
        ∧ count = mutations.countP (fun mutation =>
          !provider.histories.contains mutation.logicalIdentity) := by
  induction mutations generalizing seen count with
  | nil => simp [validateMutations, eq_comm]
  | cons mutation _ ih =>
    rw [validateMutations, Result.bind_eq_ok]
    constructor
    · rintro ⟨⟨⟩, hfirst, htail⟩
      obtain ⟨_, hrest, hcount⟩ := Result.bind_eq_ok.mp htail
      cases hcount
      obtain ⟨hseen, haccepted⟩ := validateMutation_ok.mp hfirst
      obtain ⟨hothers, hdistinct, hall, rfl⟩ := ih.mp hrest
      simp only [mem_cons, not_or] at hothers
      refine ⟨?_, ?_, ?_, ?_⟩
      · simpa using ⟨hseen, fun other hmem => (hothers other hmem).2⟩
      · rw [map_cons, nodup_cons]
        refine ⟨fun hmem => ?_, hdistinct⟩
        obtain ⟨other, hother, heq⟩ := mem_map.mp hmem
        exact (hothers other hother).1 heq
      · simpa using ⟨haccepted, hall⟩
      · rw [countP_cons]
        cases provider.histories.contains mutation.logicalIdentity <;> rfl
    · rintro ⟨hseen, hdistinct, hall, rfl⟩
      rw [map_cons, nodup_cons] at hdistinct
      refine ⟨(), validateMutation_ok.mpr ⟨hseen mutation mem_cons_self,
        hall mutation mem_cons_self⟩, Result.bind_eq_ok.mpr ⟨_, ih.mpr ⟨?_, hdistinct.2, ?_,
        rfl⟩, ?_⟩⟩
      · intro other hmem hin
        rcases mem_cons.mp hin with heq | hin
        · exact hdistinct.1 (heq ▸ mem_map_of_mem hmem)
        · exact hseen other (mem_cons_of_mem _ hmem) hin
      · exact fun other hmem => hall other (mem_cons_of_mem _ hmem)
      · rw [countP_cons]
        cases provider.histories.contains mutation.logicalIdentity <;> rfl

/-- **A commit is accepted** exactly under the conditions of `CommitAccepted`. -/
lemma validate_ok :
    provider.validate position time mutations requireSource allowPredecessor = .ok ()
      ↔ provider.CommitAccepted position time mutations requireSource allowPredecessor := by
  rw [validate]
  by_cases hfailed : provider.failed = true
  · rw [if_pos hfailed]
    exact ⟨fun hok => by simp at hok, fun h => absurd (h.running.symm.trans hfailed) (by simp)⟩
  rw [if_neg hfailed]
  by_cases horder : position = 0 ∨ mutations = [] ∨ position ≤ provider.latestPosition
      ∨ (provider.latestPosition ≠ 0 ∧ time < provider.latestTime)
  · rw [if_pos horder]
    refine ⟨fun hok => by simp [invalid] at hok, fun h => ?_⟩
    have hadvances := h.advances
    have htime := h.time_le
    rcases horder with hzero | hnil | _ | ⟨_, _⟩
    · exact absurd hzero h.positive
    · exact absurd hnil h.nonempty
    · omega
    · omega
  rw [if_neg horder]
  push Not at horder
  by_cases hcapacity : mutations.length > provider.limits.maximumVersions - provider.versions
  · rw [if_pos hcapacity]
    refine ⟨fun hok => by simp at hok, fun h => ?_⟩
    have := h.capacity
    omega
  rw [if_neg hcapacity, Result.bind_eq_ok]
  constructor
  · rintro ⟨_, hcount, hrows⟩
    obtain ⟨-, hdistinct, hall, rfl⟩ := validateMutations_ok.mp hcount
    split_ifs at hrows with hfull
    exact ⟨by simpa using hfailed, horder.1, horder.2.1, horder.2.2.1, by omega, by omega,
      hdistinct, hall, by omega⟩
  · intro h
    refine ⟨_, validateMutations_ok.mpr ⟨by simp, h.distinct, h.accepted, rfl⟩, ?_⟩
    rw [if_neg (by have := h.rows; omega)]

/-! ### Installing versions -/

section

variable (histories : OrderedMap Bytes (List TemporalVersion)) (versions : List TemporalVersion)
include histories versions

/-- Installing versions appends to every history those of its identity. -/
lemma find?_pushVersions (identity : Bytes) :
    (versions.foldl pushVersion histories).find? identity
      = if versions.filter (·.mutation.logicalIdentity = identity) = [] then
          histories.find? identity
        else some ((histories.find? identity).getD []
          ++ versions.filter (·.mutation.logicalIdentity = identity)) := by
  induction versions generalizing histories with
  | nil => simp
  | cons version _ ih =>
    rw [foldl_cons, ih]
    by_cases hidentity : version.mutation.logicalIdentity = identity
    · rw [filter_cons_of_pos (by simpa using hidentity), if_neg (cons_ne_nil _ _)]
      have hfind : (pushVersion histories version).find? identity
          = some ((histories.find? identity).getD [] ++ [version]) := by
        rw [pushVersion, find?_insert, if_pos hidentity.symm, hidentity]
      rw [hfind]
      split_ifs with hnil
      · rw [hnil]
      · simp
    · rw [filter_cons_of_neg (by simpa using hidentity)]
      have hfind : (pushVersion histories version).find? identity = histories.find? identity := by
        rw [pushVersion, find?_insert, if_neg (Ne.symm hidentity)]
      rw [hfind]

lemma sum_pushVersions :
    (versions.foldl pushVersion histories).sum List.length
      = histories.sum List.length + versions.length := by
  induction versions generalizing histories with
  | nil => rfl
  | cons version _ ih =>
    have hsum := histories.sum_insert version.mutation.logicalIdentity
      ((histories.find? version.mutation.logicalIdentity).getD [] ++ [version]) List.length
    have hold : ((histories.find? version.mutation.logicalIdentity).map List.length).getD 0
        = ((histories.find? version.mutation.logicalIdentity).getD []).length := by
      cases histories.find? version.mutation.logicalIdentity <;> rfl
    rw [hold, length_append, length_singleton] at hsum
    rw [foldl_cons, ih, pushVersion, length_cons]
    omega

end

/-- The histories of an installed commit. -/
lemma installed_histories (provider : TemporalSnapshotProvider) (commit : TemporalCommit) :
    (provider.installed commit.position commit.time commit.mutations).histories
      = commit.versions.foldl pushVersion provider.histories := by
  rw [installed, TemporalCommit.versions, foldl_map]

end TemporalSnapshotProvider

namespace Tracks

variable {floor : Option Int} {commits : List TemporalCommit}
  {provider : TemporalSnapshotProvider}

variable {commit : TemporalCommit} {time : Int}

/-- The last commit by a time is not a later one. -/
lemma positionAsOf_append_of_lt (hlt : time < commit.time) :
    positionAsOf (commits ++ [commit]) time = positionAsOf commits time := by
  have hnot : ¬commit.time ≤ time := by omega
  simp [positionAsOf, filter_append, hnot]

lemma positionAsOf_append_of_le (hle : commit.time ≤ time) :
    positionAsOf (commits ++ [commit]) time = some commit.position := by
  simp [positionAsOf, filter_append, hle]

/-- **An accepted commit** extends the commits that a provider holds. -/
lemma installed (htracks : Tracks floor commits provider) (commit : TemporalCommit)
    {allowPredecessor : Bool}
    (haccepted : provider.CommitAccepted commit.position commit.time commit.mutations true
      allowPredecessor) :
    Tracks floor (commits ++ [commit])
      (provider.installed commit.position commit.time commit.mutations) := by
  have hlast : ∀ earlier ∈ commits,
      earlier.position < commit.position ∧ earlier.time ≤ commit.time := by
    intro earlier hearlier
    have hlatest := htracks.latest earlier hearlier
    have hadvances := haccepted.advances
    refine ⟨by omega, ?_⟩
    rcases haccepted.time_le with hzero | htime
    · rw [htracks.untouched hzero] at hearlier
      simp at hearlier
    · omega
  have hnew : ∀ identity, historyOf [commit] identity
      = commit.versions.filter (·.mutation.logicalIdentity = identity) := by
    intro identity
    rw [historyOf, allVersions, flatMap_singleton]
  have hfind := fun identity => find?_pushVersions provider.histories commit.versions identity
  constructor
  case ordered => exact htracks.ordered.append haccepted.nonempty haccepted.distinct hlast
  case positive =>
    intro other hmem
    rcases mem_append.mp hmem with hold | hself
    · exact htracks.positive other hold
    · rw [mem_singleton.mp hself]
      exact haccepted.positive
  case latest =>
    intro other hmem
    rcases mem_append.mp hmem with hold | hself
    · exact ⟨(hlast other hold).1.le, (hlast other hold).2⟩
    · rw [mem_singleton.mp hself]
      exact ⟨le_refl _, le_refl _⟩
  case untouched => exact fun hzero => absurd hzero haccepted.positive
  case kept =>
    intro identity history hmem
    rw [installed_histories, ← find?_eq_some, hfind] at hmem
    rw [historyOf_append, hnew]
    split_ifs at hmem with hnone
    · obtain ⟨hne, dropped, heq, hdropped⟩ :=
        htracks.kept identity history (find?_eq_some.mp hmem)
      exact ⟨hne, dropped, by rw [hnone, append_nil, heq], hdropped⟩
    · cases hmem
      cases hold : provider.histories.find? identity with
      | none =>
        refine ⟨by simpa using hnone, [], ?_, by simp⟩
        rw [htracks.absent identity hold]
        rfl
      | some old =>
        obtain ⟨-, dropped, heq, hdropped⟩ :=
          htracks.kept identity old (find?_eq_some.mp hold)
        refine ⟨by simp [hnone], dropped, by rw [heq]; simp, fun hne => ?_⟩
        obtain ⟨boundary, hboundary, version, hversion, hlt⟩ := hdropped hne
        exact ⟨boundary, hboundary, version, mem_append_left _ hversion, hlt⟩
  case absent =>
    intro identity hnone
    rw [installed_histories, hfind] at hnone
    split_ifs at hnone with hnil
    rw [historyOf_append, hnew, hnil, htracks.absent identity hnone]
    rfl
  case count =>
    rw [installed_histories, sum_pushVersions, ← htracks.count, TemporalCommit.versions, length_map]
    rfl
  case times =>
    intro entry hmem
    rcases mem_insert.mp hmem with rfl | ⟨hold, -⟩
    · exact ⟨commit, mem_append_right _ mem_cons_self, rfl⟩
    · obtain ⟨other, hother, htime⟩ := htracks.times entry hold
      exact ⟨other, mem_append_left _ hother, htime⟩
  case earliest => exact htracks.earliest
  case boundary =>
    intro time htime
    have hbefore : ∀ entry ∈ provider.timeToPosition.entries, entry.1 ≤ commit.time := by
      intro entry hmem
      obtain ⟨other, hother, heq⟩ := htracks.times entry hmem
      exact heq ▸ (hlast other hother).2
    rcases le_or_gt commit.time time with hle | hlt
    · rw [positionAsOf_append_of_le hle]
      exact congrArg _ (lastLE_insert_of_le hbefore hle)
    · rw [positionAsOf_append_of_lt hlt, ← htracks.boundary time htime]
      exact congrArg _ (lastLE_insert_of_lt hlt)
  case fits =>
    intro version hmem
    obtain ⟨other, hother, hmutation, hposition, htime⟩ := mem_allVersions.mp hmem
    rcases mem_append.mp hother with hold | hself
    · exact htracks.fits version (mem_allVersions.mpr ⟨other, hold, hmutation, hposition, htime⟩)
    · rw [mem_singleton.mp hself] at hmutation hposition
      intro hkind
      have hrow := (haccepted.accepted version.mutation hmutation).row hkind
      rw [hposition]
      exact hrow
  case running => exact haccepted.running

end Tracks

/-! ### Compaction -/

namespace TemporalSnapshotProvider

lemma predecessorIndex_le (history : List TemporalVersion) (retained : Int) (index : ℕ) :
    predecessorIndex history retained index ≤ index := by
  induction index with
  | zero => exact Nat.le_refl _
  | succ index ih =>
    rw [predecessorIndex]
    split_ifs
    · omega
    · exact Nat.le_refl _

lemma predecessorIndex_before (history : List TemporalVersion) (retained : Int) (index : ℕ)
    (hne : predecessorIndex history retained index ≠ 0) :
    ¬(history[predecessorIndex history retained index]?).any (retained ≤ ·.commitTimeNs)
      = true := by
  induction index with
  | zero => exact absurd rfl hne
  | succ index ih =>
    rw [predecessorIndex] at hne ⊢
    split_ifs at hne ⊢ with hlater
    · exact ih hne
    · exact hlater

/-- **What compaction keeps of a history**: a nonempty end, and if something was dropped a version
older than the retained time. -/
lemma compactVersions_eq (oldest : ℕ) (retained : Int) {history : List TemporalVersion}
    (hne : history ≠ []) :
    ∃ dropped, history = dropped ++ compactVersions oldest retained history
      ∧ compactVersions oldest retained history ≠ []
      ∧ (dropped ≠ [] → ∃ version ∈ compactVersions oldest retained history,
        version.commitTimeNs < retained) := by
  rw [compactVersions.eq_def]
  split
  · exact ⟨[], rfl, hne, by simp⟩
  · rename_i keep hkeep
    have hlength : keep < history.length := by
      have := (takeWhile_sublist (l := history) (·.commitPosition < oldest)).length_le
      omega
    have hindex := Nat.lt_of_le_of_lt (predecessorIndex_le history retained keep) hlength
    refine ⟨history.take (predecessorIndex history retained keep), (take_append_drop _ _).symm,
      by simpa using hindex, fun hdropped => ?_⟩
    have hnonzero : predecessorIndex history retained keep ≠ 0 := by
      intro hzero
      simp [hzero] at hdropped
    have hbefore := predecessorIndex_before history retained keep hnonzero
    rw [getElem?_eq_getElem hindex] at hbefore
    refine ⟨history[predecessorIndex history retained keep], ?_, by simpa using hbefore⟩
    rw [drop_eq_getElem_cons hindex]
    exact mem_cons_self

lemma length_compactVersions_le (oldest : ℕ) (retained : Int) (history : List TemporalVersion) :
    (compactVersions oldest retained history).length ≤ history.length := by
  rw [compactVersions.eq_def]
  split
  · exact le_refl _
  · exact (drop_sublist _ _).length_le

variable {retained : Int}

/-- **What compaction keeps of the times** answers every later bound. -/
lemma compactTimes_lastLE {times : OrderedMap Int ℕ} {bound : Int} (hle : retained ≤ bound) :
    (compactTimes retained times).lastLE bound = times.lastLE bound := by
  refine lastLE_of_subset (drop_subset _ _) fun entry hmem hbound => ?_
  have hsplit := take_append_drop
    ((times.entries.takeWhile (·.1 < retained)).length - 1) times.entries
  have hin := hmem
  rw [← hsplit] at hin
  rcases mem_append.mp hin with htaken | hdropped
  · -- the last time before the boundary stays
    have hpositive : (times.entries.takeWhile (·.1 < retained)).length - 1
        < (times.entries.takeWhile (·.1 < retained)).length := by
      have := length_pos_of_mem htaken
      rw [length_take] at this
      omega
    have hlength := (takeWhile_sublist (l := times.entries) (·.1 < retained)).length_le
    have hindex := Nat.lt_of_lt_of_le hpositive hlength
    have hlast : times.entries[(times.entries.takeWhile (·.1 < retained)).length - 1]
        ∈ times.entries.drop ((times.entries.takeWhile (·.1 < retained)).length - 1) := by
      rw [drop_eq_getElem_cons hindex]
      exact mem_cons_self
    have hsorted := times.sorted
    rw [← hsplit] at hsorted
    refine ⟨_, hlast, ((pairwise_append.mp hsorted).2.2 entry htaken _ hlast).le, ?_⟩
    have hbefore : times.entries[(times.entries.takeWhile (·.1 < retained)).length - 1].1
        < retained := by
      have hprefix := takeWhile_prefix (l := times.entries) (·.1 < retained)
      have hget := hprefix.getElem hpositive
      rw [← hget]
      simpa using mem_takeWhile_imp (getElem_mem hpositive)
    omega
  · exact ⟨entry, hdropped, le_refl _, hbound⟩

/-- What a successful compaction says. -/
lemma compactHistory_ok {provider after : TemporalSnapshotProvider} {oldest : ℕ}
    {report : TemporalHistoryCompactionReport}
    (hok : provider.compactHistory oldest retained = (.ok report, after)) :
    NotExpired provider.earliestRetainedTime retained
      ∧ after = { provider with
        histories := provider.histories.mapValues (compactVersions oldest retained)
        timeToPosition := compactTimes retained provider.timeToPosition
        oldestObservablePosition := some oldest
        earliestRetainedTime := some retained
        versions := provider.versions - (provider.histories.sum List.length
          - (provider.histories.mapValues (compactVersions oldest retained)).sum
            List.length) } := by
  rw [compactHistory] at hok
  split_ifs at hok with hfailed hahead hregress
  · simp at hok
  · simp [invalid] at hok
  · simp [invalid] at hok
  refine ⟨fun boundary hboundary => ?_, (congrArg Prod.snd hok).symm⟩
  rw [Option.mem_def] at hboundary
  simp only [hboundary, Option.any_some, Bool.or_eq_true, decide_eq_true_eq, not_or] at hregress
  omega

end TemporalSnapshotProvider

namespace Tracks

open TemporalSnapshotProvider

variable {floor : Option Int} {commits : List TemporalCommit}
  {provider : TemporalSnapshotProvider}

/-- **Compaction** keeps what later as-of queries need. -/
lemma compacted (htracks : Tracks floor commits provider) {oldest : ℕ} {retained : Int}
    {report : TemporalHistoryCompactionReport} {after : TemporalSnapshotProvider}
    (hok : provider.compactHistory oldest retained = (.ok report, after)) :
    Tracks (some (laterBoundary floor retained)) commits after := by
  obtain ⟨-, rfl⟩ := compactHistory_ok hok
  refine { htracks with
    kept := ?_, absent := ?_, count := ?_, times := ?_, earliest := ?_, boundary := ?_ }
  · intro identity history hmem
    obtain ⟨old, hold, heq⟩ := mem_mapValues.mp hmem
    obtain ⟨hne, dropped, hhistory, hdropped⟩ := htracks.kept identity old hold
    obtain ⟨more, hsplit, hkept, hmore⟩ := compactVersions_eq oldest retained hne
    rw [heq] at hsplit hkept hmore
    refine ⟨hkept, dropped ++ more, by rw [hhistory, hsplit, append_assoc], fun hany => ?_⟩
    by_cases hnone : more = []
    · rw [hnone, append_nil] at hany
      obtain ⟨boundary, hboundary, version, hversion, hlt⟩ := hdropped hany
      rw [hsplit, hnone, nil_append] at hversion
      exact ⟨_, rfl, version, hversion, hlt.trans_le (boundary_le_laterBoundary hboundary retained)⟩
    · obtain ⟨version, hversion, hlt⟩ := hmore hnone
      exact ⟨_, rfl, version, hversion, hlt.trans_le (le_laterBoundary floor retained)⟩
  · intro identity hnone
    rw [find?_mapValues, Option.map_eq_none_iff] at hnone
    exact htracks.absent identity hnone
  · have hle : (provider.histories.mapValues (compactVersions oldest retained)).sum List.length
        ≤ provider.histories.sum List.length :=
      sum_mapValues_le _ (length_compactVersions_le oldest retained)
    show provider.versions - (provider.histories.sum List.length - _)
      = (provider.histories.mapValues (compactVersions oldest retained)).sum List.length
    rw [htracks.count]
    omega
  · intro entry hmem
    exact htracks.times entry (drop_subset _ _ hmem)
  · rintro time htime boundary ⟨⟩
    exact htime.of_later.1
  · intro time htime
    show ((compactTimes retained provider.timeToPosition).lastLE time).map _ = _
    rw [compactTimes_lastLE htime.of_later.1]
    exact htracks.boundary time htime.of_later.2

end Tracks

/-! ### Restoring -/

namespace TemporalSnapshotProvider

/-- The versions that a provider holds. -/
def retained (provider : TemporalSnapshotProvider) : List TemporalVersion :=
  provider.histories.entries.flatMap (·.2)

variable {sourceId : Uuid} {versions : List TemporalVersion}

lemma canonicalRows_time {position : ℕ} {time : Int} {ordinal : Option ℕ}
    (hcanonical : canonicalRows sourceId position time ordinal versions = true) :
    ∀ version ∈ versions, version.commitTimeNs = time := by
  induction versions generalizing ordinal with
  | nil => simp
  | cons _ _ ih =>
    simp only [canonicalRows, Bool.and_eq_true, decide_eq_true_eq] at hcanonical
    obtain ⟨⟨⟨⟨htime, -⟩, -⟩, -⟩, hrest⟩ := hcanonical
    intro version hmem
    rcases mem_cons.mp hmem with rfl | hlater
    · exact htime
    · exact ih hrest version hlater

variable {after : TemporalSnapshotProvider}

/-- One round of the restore installs the versions of one position as a commit. -/
lemma restoreCommit_ok {staged : TemporalSnapshotProvider} {previous : Option TemporalVersion}
    (hne : versions ≠ [])
    (hsame : ∀ version ∈ versions, ∀ other ∈ versions,
      version.commitPosition = other.commitPosition)
    (hok : restoreCommit sourceId staged previous versions = .ok after) :
    ∃ commit : TemporalCommit, commit.versions = versions
      ∧ staged.CommitAccepted commit.position commit.time commit.mutations true true
      ∧ after = staged.installed commit.position commit.time commit.mutations := by
  cases versions with
  | nil => exact absurd rfl hne
  | cons first rest =>
    simp only [restoreCommit] at hok
    split_ifs at hok with horder hrows
    · simp [invalid] at hok
    · simp [invalid] at hok
    obtain ⟨⟨⟩, hvalid, hinstalled⟩ := Result.bind_eq_ok.mp hok
    cases hinstalled
    refine ⟨⟨first.commitPosition, first.commitTimeNs, (first :: rest).map (·.mutation)⟩, ?_,
      validate_ok.mp hvalid, rfl⟩
    have htimes := canonicalRows_time (by simpa using hrows)
    rw [TemporalCommit.versions, map_map]
    refine (map_congr_left fun version hmem => ?_).trans (map_id _)
    simp only [Function.comp_apply, id_eq, hsame first mem_cons_self version hmem,
      ← htimes version hmem]

/-- The versions in one group of `splitBy` have one position. -/
lemma splitBy_same {group : List TemporalVersion}
    (hgroup : group ∈
      versions.splitBy fun left right => left.commitPosition = right.commitPosition) :
    ∀ version ∈ group, ∀ other ∈ group, version.commitPosition = other.commitPosition := by
  have hchain := isChain_of_mem_splitBy hgroup
  have hpairwise : group.Pairwise fun left right => left.commitPosition = right.commitPosition := by
    refine List.IsChain.pairwise (R := fun left right : TemporalVersion =>
      left.commitPosition = right.commitPosition) (hchain.imp fun _ _ h => by simpa using h)
  exact List.Pairwise.forall_of_forall_of_flip (fun _ _ => rfl) hpairwise
    (hpairwise.imp fun h => h.symm)

/-- What a successful restore into a fresh provider says. -/
lemma restoreRetainedHistory_ok {schema : TableSchema} {limits : TemporalStoreLimits}
    {retainedTime : Int}
    (hok : (fresh schema limits).restoreRetainedHistory retainedTime versions = (.ok (), after)) :
    versions ≠ [] ∧ ∃ sourceId staged, restoreCommits sourceId (fresh schema limits) none
        (versions.splitBy fun left right => left.commitPosition = right.commitPosition) = .ok staged
      ∧ retainedTime ≤ staged.latestTime
      ∧ after = { fresh schema limits with
        histories := staged.histories
        timeToPosition := staged.timeToPosition
        latestPosition := staged.latestPosition
        latestTime := staged.latestTime
        earliestRetainedTime := some retainedTime
        versions := staged.versions } := by
  cases versions with
  | nil => simp [restoreRetainedHistory, invalid] at hok
  | cons first rest =>
    refine ⟨cons_ne_nil _ _, first.mutation.walId, ?_⟩
    rw [restoreRetainedHistory, if_neg (by simp [fresh, size, empty])] at hok
    split at hok
    · simp at hok
    · rename_i staged hstaged
      split_ifs at hok with hahead
      · simp [invalid] at hok
      · exact ⟨staged, hstaged, by omega, (congrArg Prod.snd hok).symm⟩

end TemporalSnapshotProvider

namespace Tracks

open TemporalSnapshotProvider

variable {floor : Option Int} {commits : List TemporalCommit}
  {provider : TemporalSnapshotProvider}

variable {after : TemporalSnapshotProvider}

/-- The rounds of the restore install the versions of the groups as further commits. -/
lemma restoreCommits {sourceId : Uuid} {groups : List (List TemporalVersion)}
    (hgroups : ∀ group ∈ groups, group ≠ [] ∧ ∀ version ∈ group, ∀ other ∈ group,
      version.commitPosition = other.commitPosition) {staged : TemporalSnapshotProvider}
    {previous : Option TemporalVersion} (htracks : Tracks floor commits staged)
    (hok : restoreCommits sourceId staged previous groups = .ok after) :
    ∃ more, Tracks floor (commits ++ more) after ∧ allVersions more = groups.flatten
      ∧ after.schema = staged.schema := by
  induction groups generalizing commits staged previous with
  | nil =>
    cases hok
    exact ⟨[], by simpa using htracks, rfl, rfl⟩
  | cons group _ ih =>
    rw [restoreCommits] at hok
    obtain ⟨_, hnext, hrest⟩ := Result.bind_eq_ok.mp hok
    obtain ⟨hne, hsame⟩ := hgroups group mem_cons_self
    obtain ⟨commit, hversions, haccepted, rfl⟩ := restoreCommit_ok hne hsame hnext
    obtain ⟨more, hmore, hall, hschema⟩ :=
      ih (fun other hmem => hgroups other (mem_cons_of_mem _ hmem))
        (htracks.installed commit haccepted) hrest
    refine ⟨commit :: more, by simpa using hmore, ?_, hschema⟩
    rw [flatten_cons, ← hall, ← hversions]
    rfl

/-- The versions that a provider holds are versions of the commits. -/
lemma mem_retained (htracks : Tracks floor commits provider) {version : TemporalVersion}
    (hmem : version ∈ provider.retained) :
    ∃ history, (version.mutation.logicalIdentity, history) ∈ provider.histories.entries
      ∧ version ∈ history ∧ version ∈ allVersions commits := by
  obtain ⟨⟨identity, history⟩, hentry, hversion⟩ := mem_flatMap.mp hmem
  obtain ⟨-, _, heq, -⟩ := htracks.kept identity history hentry
  have hin : version ∈ historyOf commits identity := heq ▸ mem_append_right _ hversion
  obtain ⟨hall, rfl⟩ := mem_historyOf.mp hin
  exact ⟨history, hentry, hversion, hall⟩

/-- **The last commit by a time that has not expired** is still held. -/
lemma last_retained (htracks : Tracks floor commits provider) {time : Int}
    (htime : NotExpired floor time) {commit : TemporalCommit} (hcommit : commit ∈ commits)
    (hgreatest : ∀ other ∈ commits, other.time ≤ time → other.position ≤ commit.position) :
    ∃ version ∈ provider.retained,
      version.commitPosition = commit.position ∧ version.commitTimeNs = commit.time := by
  obtain ⟨mutation, hmutation⟩ :=
    exists_mem_of_ne_nil _ (htracks.ordered.mutations commit hcommit).1
  have hall : (⟨commit.position, commit.time, mutation⟩ : TemporalVersion) ∈ allVersions commits :=
    mem_allVersions.mpr ⟨commit, hcommit, hmutation, rfl, rfl⟩
  have hin : (⟨commit.position, commit.time, mutation⟩ : TemporalVersion)
      ∈ historyOf commits mutation.logicalIdentity := mem_historyOf.mpr ⟨hall, rfl⟩
  cases hfind : provider.histories.find? mutation.logicalIdentity with
  | none =>
    rw [htracks.absent _ hfind] at hin
    simp at hin
  | some history =>
    have hentry := find?_eq_some.mp hfind
    obtain ⟨-, _, heq, hdropped⟩ := htracks.kept _ history hentry
    refine ⟨⟨commit.position, commit.time, mutation⟩, mem_flatMap.mpr ⟨_, hentry, ?_⟩, rfl, rfl⟩
    have hsorted := historyOf_ordered htracks.ordered mutation.logicalIdentity
    rw [heq] at hin hsorted
    refine (mem_append.mp hin).resolve_left fun hlost => ?_
    -- a kept version older than the boundary would be a later commit by the time
    obtain ⟨boundary, hboundary, version, hversion, _⟩ :=
      hdropped (ne_nil_of_mem hlost)
    have hbefore := ((pairwise_append.mp hsorted).2.2 _ hlost version hversion).1
    have hversionall : version ∈ allVersions commits :=
      (mem_historyOf.mp (heq ▸ mem_append_right _ hversion)).1
    obtain ⟨other, hother, -, _, _⟩ := mem_allVersions.mp hversionall
    have hexpired := htime boundary hboundary
    have := hgreatest other hother (by omega)
    simp only at hbefore
    omega

variable {identity : Bytes} {history : List TemporalVersion}

/-- A provider that has dropped nothing holds every version. -/
lemma kept_all (htracks : Tracks none commits provider)
    (hmem : (identity, history) ∈ provider.histories.entries) :
    history = historyOf commits identity := by
  obtain ⟨-, dropped, heq, hdropped⟩ := htracks.kept identity history hmem
  cases dropped with
  | nil => exact heq.symm
  | cons version rest =>
    obtain ⟨_, hboundary, -⟩ := hdropped (cons_ne_nil _ _)
    simp at hboundary

/-- The history of an identity in two sets of commits with the same held versions. -/
lemma history_eq (htracks : Tracks floor commits provider) {others : List TemporalCommit}
    (hothers : CommitsOrdered others)
    (hsame : ∀ version, version ∈ allVersions others ↔ version ∈ provider.retained)
    (hmem : (identity, history) ∈ provider.histories.entries) :
    historyOf others identity = history := by
  obtain ⟨-, _, heq, -⟩ := htracks.kept identity history hmem
  have hsublist : history.Sublist (historyOf commits identity) :=
    heq ▸ sublist_append_right _ _
  have hold := (historyOf_ordered htracks.ordered identity).sublist hsublist
  have hnew := historyOf_ordered hothers identity
  have hnodup : ∀ {xs : List TemporalVersion}, (xs.Pairwise fun earlier later =>
      earlier.commitPosition < later.commitPosition
        ∧ earlier.commitTimeNs ≤ later.commitTimeNs) → xs.Nodup :=
    fun hsorted => hsorted.imp fun h heq => h.1.ne (congrArg TemporalVersion.commitPosition heq)
  have hperm : (historyOf others identity).Perm history := by
    refine (perm_ext_iff_of_nodup (hnodup hnew) (hnodup hold)).mpr fun version => ?_
    rw [mem_historyOf, hsame]
    constructor
    · rintro ⟨hretained, rfl⟩
      obtain ⟨_, hfound, hversion, -⟩ := htracks.mem_retained hretained
      have := eq_of_key hfound hmem rfl
      cases this
      exact hversion
    · intro hversion
      exact ⟨mem_flatMap.mpr ⟨_, hmem, hversion⟩, (mem_historyOf.mp (hsublist.subset hversion)).2⟩
  refine hperm.eq_of_pairwise (fun a b _ _ hab hba => ?_) hnew hold
  have := hab.1
  have := hba.1
  omega

/-- **Restoring the held versions** into a fresh provider keeps the answers. -/
lemma restored (htracks : Tracks floor commits provider) {limits : TemporalStoreLimits}
    {retainedTime : Int} {versions : List TemporalVersion}
    (hversions : versions.Perm provider.retained)
    (hok : (TemporalSnapshotProvider.fresh provider.schema limits).restoreRetainedHistory
      retainedTime versions = (.ok (), after)) :
    Tracks (some (laterBoundary floor retainedTime)) commits after := by
  obtain ⟨hne, _, staged, hstaged, -, rfl⟩ := restoreRetainedHistory_ok hok
  obtain ⟨others, hothers, hall, _⟩ := Tracks.restoreCommits
    (fun group hgroup => ⟨ne_nil_of_mem_splitBy hgroup, splitBy_same hgroup⟩)
    (Tracks.fresh provider.schema limits) hstaged
  rw [flatten_splitBy] at hall
  rw [nil_append] at hothers
  have hsame : ∀ version, version ∈ allVersions others ↔ version ∈ provider.retained := by
    intro version
    rw [hall, hversions.mem_iff]
  have hinto : ∀ other ∈ others, ∃ commit ∈ commits,
      commit.position = other.position ∧ commit.time = other.time := by
    intro other hother
    obtain ⟨mutation, hmutation⟩ :=
      exists_mem_of_ne_nil _ (hothers.ordered.mutations other hother).1
    have hversion : (⟨other.position, other.time, mutation⟩ : TemporalVersion)
        ∈ allVersions others := mem_allVersions.mpr ⟨other, hother, hmutation, rfl, rfl⟩
    obtain ⟨-, -, -, hversion⟩ := htracks.mem_retained ((hsame _).mp hversion)
    obtain ⟨commit, hcommit, -, hposition, htime⟩ := mem_allVersions.mp hversion
    exact ⟨commit, hcommit, hposition.symm, htime.symm⟩
  have hfrom : ∀ time, NotExpired floor time → ∀ commit ∈ commits,
      (∀ other ∈ commits, other.time ≤ time → other.position ≤ commit.position) →
      ∃ other ∈ others, other.position = commit.position ∧ other.time = commit.time := by
    intro time htime commit hcommit hgreatest
    obtain ⟨version, hversion, hposition, hversiontime⟩ := htracks.last_retained
      htime hcommit hgreatest
    obtain ⟨other, hother, -, hother', htime'⟩ := mem_allVersions.mp ((hsame version).mpr hversion)
    exact ⟨other, hother, hother'.symm.trans hposition, htime'.symm.trans hversiontime⟩
  constructor
  case ordered => exact htracks.ordered
  case positive => exact htracks.positive
  case latest =>
    intro commit hcommit
    obtain ⟨last, hlast, hgreatest⟩ := htracks.ordered.exists_greatest (ne_nil_of_mem hcommit)
    obtain ⟨other, hother, hposition, htime⟩ :=
      hfrom (laterBoundary floor retainedTime)
        (fun _ hboundary => boundary_le_laterBoundary hboundary retainedTime) last hlast
        fun c hc _ => hgreatest c hc
    have hlatest := hothers.latest other hother
    have hle := hgreatest commit hcommit
    have htimele := htracks.ordered.time_le hcommit hlast hle
    show commit.position ≤ staged.latestPosition ∧ commit.time ≤ staged.latestTime
    omega
  case untouched =>
    intro hzero
    rw [hothers.untouched hzero] at hall
    exact absurd hall.symm hne
  case kept =>
    intro identity history hmem
    have hhistory := hothers.kept_all hmem
    have hnonempty := (hothers.kept identity history hmem).1
    cases hfind : provider.histories.find? identity with
    | none =>
      obtain ⟨version, hversion⟩ := exists_mem_of_ne_nil _ hnonempty
      rw [hhistory, mem_historyOf, hsame] at hversion
      obtain ⟨found, hfound, -⟩ := htracks.mem_retained hversion.1
      rw [hversion.2] at hfound
      exact absurd hfound (find?_eq_none.mp hfind found)
    | some old =>
      have hold := find?_eq_some.mp hfind
      rw [hhistory, htracks.history_eq hothers.ordered hsame hold]
      obtain ⟨hne, dropped, heq, hdropped⟩ := htracks.kept identity old hold
      refine ⟨hne, dropped, heq, fun hany => ?_⟩
      obtain ⟨boundary, hboundary, version, hversion, hlt⟩ := hdropped hany
      exact ⟨_, rfl, version, hversion,
        hlt.trans_le (boundary_le_laterBoundary hboundary retainedTime)⟩
  case absent =>
    intro identity habsent
    refine htracks.absent identity (Option.eq_none_iff_forall_ne_some.mpr fun old hfind => ?_)
    have hold := find?_eq_some.mp hfind
    have hhistory := htracks.history_eq hothers.ordered hsame hold
    rw [hothers.absent identity habsent] at hhistory
    exact (htracks.kept identity old hold).1 hhistory.symm
  case count => exact hothers.count
  case times =>
    intro entry hmem
    obtain ⟨other, hother, htime⟩ := hothers.times entry hmem
    obtain ⟨commit, hcommit, -, htime'⟩ := hinto other hother
    exact ⟨commit, hcommit, htime'.trans htime⟩
  case earliest =>
    rintro time htime boundary ⟨⟩
    exact htime.of_later.1
  case boundary =>
    intro time htime
    have hbound := htime.of_later.2
    have hstagedboundary := hothers.boundary time (by simp [NotExpired])
    refine Eq.trans hstagedboundary (Option.ext fun position => ?_)
    rw [positionAsOf_eq_some hothers.ordered, positionAsOf_eq_some htracks.ordered]
    constructor
    · rintro ⟨⟨other, hother, hle, rfl⟩, hgreatest⟩
      obtain ⟨commit, hcommit, hposition, hcommittime⟩ := hinto other hother
      refine ⟨⟨commit, hcommit, hcommittime.trans_le hle, hposition⟩,
        fun earlier hearlier hby => ?_⟩
      obtain ⟨position, hlast⟩ := exists_positionAsOf ⟨earlier, hearlier, hby⟩
      obtain ⟨⟨last, hmem, hlasttime, rfl⟩, hlastgreatest⟩ :=
        (positionAsOf_eq_some htracks.ordered).mp hlast
      obtain ⟨same, hin, hsameposition, hsametime⟩ := hfrom time hbound last hmem hlastgreatest
      calc earlier.position ≤ last.position := hlastgreatest earlier hearlier hby
        _ = same.position := hsameposition.symm
        _ ≤ other.position := hgreatest same hin (hsametime.trans_le hlasttime)
    · rintro ⟨⟨commit, hcommit, hle, rfl⟩, hgreatest⟩
      obtain ⟨other, hother, hposition, hothertime⟩ := hfrom time hbound commit hcommit hgreatest
      refine ⟨⟨other, hother, hothertime.trans_le hle, hposition⟩, fun earlier hearlier hby => ?_⟩
      obtain ⟨origin, horigin, horiginposition, horigintime⟩ := hinto earlier hearlier
      rw [← horiginposition]
      exact hgreatest origin horigin (horigintime.trans_le hby)
  case fits => exact htracks.fits
  case running => rfl

end Tracks

end Chronos.Query
