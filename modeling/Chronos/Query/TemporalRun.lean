import Chronos.Common.Runs
import Chronos.Ingest.Snapshots
import Chronos.Query.TemporalHistory

/-!
Runs of the temporal provider: commits, compactions and restores in any order.

* `TemporalRun`: the provider with the commits it has accepted and the latest retained time.
* `TemporalRun.tracks`: after every run the provider holds what as-of queries need.
* `as_of_queries_exact`: every query that has not expired returns the last mutations by its time.
* `validated_command_applies`: what is validated is accepted at any later record.
-/

namespace Chronos.Query

open Schema TemporalSnapshotProvider

/-- One call on the provider. -/
inductive TemporalAction where
  /-- `apply_committed`. -/
  | apply (position : ℕ) (time : Int) (mutations : List TemporalMutation)
  /-- `compact_history`. -/
  | compact (oldestObservableCommitPosition : ℕ) (retainedSystemTimeNs : Int)
  /-- `restore_retained_history` into a new provider, which replaces the old one. -/
  | restore (limits : TemporalStoreLimits) (retainedSystemTimeNs : Int)
    (versions : List TemporalVersion)

/-- A provider, the commits that were applied with success, and the latest retained time. -/
structure TemporalRun where
  provider : TemporalSnapshotProvider
  commits : List TemporalCommit
  boundary : Option Int

namespace TemporalRun

/-- The run at its start. -/
def start (provider : TemporalSnapshotProvider) : TemporalRun := ⟨provider, [], none⟩

/-- A new provider with the given versions. -/
def restoredProvider (schema : TableSchema) (limits : TemporalStoreLimits)
    (retainedSystemTimeNs : Int) (versions : List TemporalVersion) :
    Result TemporalSnapshotProvider := do
  let provider ← TemporalSnapshotProvider.create schema limits
  match provider.restoreRetainedHistory retainedSystemTimeNs versions with
  | (.ok (), restored) => .ok restored
  | (.error status, _) => .error status

/-- One call; a call that fails leaves the commits and the boundary as they were. -/
def step (run : TemporalRun) : TemporalAction → TemporalRun
  | .apply position time mutations =>
    match run.provider.applyCommitted position time mutations with
    | (.ok (), provider) =>
      ⟨provider, run.commits ++ [⟨position, time, mutations⟩], run.boundary⟩
    | (.error _, provider) => ⟨provider, run.commits, run.boundary⟩
  | .compact oldest retained =>
    match run.provider.compactHistory oldest retained with
    | (.ok _, provider) => ⟨provider, run.commits, some (laterBoundary run.boundary retained)⟩
    | (.error _, provider) => ⟨provider, run.commits, run.boundary⟩
  | .restore limits retained versions =>
    match restoredProvider run.provider.schema limits retained versions with
    | .ok provider => ⟨provider, run.commits, some (laterBoundary run.boundary retained)⟩
    | .error _ => run

/-- A restore gets the versions that the provider holds, in some order. -/
def FromRetained (run : TemporalRun) : TemporalAction → Prop
  | .restore _ _ versions => versions.Perm run.provider.retained
  | _ => True

instance (run : TemporalRun) (action : TemporalAction) : Decidable (run.FromRetained action) :=
  match action with
  | .apply .. | .compact .. => inferInstanceAs (Decidable True)
  | .restore _ _ versions => inferInstanceAs (Decidable (versions.Perm run.provider.retained))

/-- The run after a list of calls. -/
def after (run : TemporalRun) (actions : List TemporalAction) : TemporalRun :=
  actions.foldl step run

end TemporalRun

/-! ### What a run keeps -/

namespace TemporalSnapshotProvider

variable {provider after : TemporalSnapshotProvider} {position : ℕ} {time : Int}
  {mutations : List TemporalMutation}

lemma applyCommitted_ok (hok : provider.applyCommitted position time mutations = (.ok (), after)) :
    provider.CommitAccepted position time mutations true false
      ∧ after = provider.installed position time mutations := by
  rw [applyCommitted] at hok
  split at hok
  · simp at hok
  · rename_i hvalid
    exact ⟨validate_ok.mp hvalid, (congrArg Prod.snd hok).symm⟩

variable {status : Status}

/-- **A rejected commit** changes nothing. -/
lemma applyCommitted_error
    (herror : provider.applyCommitted position time mutations = (.error status, after)) :
    after = provider := by
  rw [applyCommitted] at herror
  split at herror
  · exact (congrArg Prod.snd herror).symm
  · simp at herror

lemma compactHistory_error {oldest : ℕ} {retained : Int}
    (herror : provider.compactHistory oldest retained = (.error status, after)) :
    after = provider := by
  rw [compactHistory] at herror
  split_ifs at herror with hfailed hahead hregress
  · exact (congrArg Prod.snd herror).symm
  · exact (congrArg Prod.snd herror).symm
  · exact (congrArg Prod.snd herror).symm
  · simp at herror

end TemporalSnapshotProvider

namespace TemporalRun

/-- What every run keeps. -/
structure Sound (schema : TableSchema) (run : TemporalRun) : Prop where
  tracks : Tracks run.boundary run.commits run.provider
  schema_eq : run.provider.schema = schema

variable {schema : TableSchema} {limits : TemporalStoreLimits} {provider : TemporalSnapshotProvider}

lemma restoredProvider_ok {retained : Int} {versions : List TemporalVersion}
    (hok : restoredProvider schema limits retained versions = .ok provider) :
    (fresh schema limits).restoreRetainedHistory retained versions
      = (.ok (), provider) := by
  obtain ⟨_, hcreated, hrestored⟩ := Result.bind_eq_ok.mp hok
  rw [create] at hcreated
  split_ifs at hcreated
  · simp [invalid] at hcreated
  · cases hcreated
    split at hrestored
    · rename_i restored hok
      cases hrestored
      exact hok
    · simp at hrestored

lemma Sound.step {run : TemporalRun} (hsound : run.Sound schema) {action : TemporalAction}
    (hretained : run.FromRetained action) : (run.step action).Sound schema := by
  cases action with
  | apply position time mutations =>
    rw [TemporalRun.step.eq_def]
    dsimp only
    split
    · rename_i provider hok
      obtain ⟨haccepted, rfl⟩ := applyCommitted_ok hok
      exact ⟨hsound.tracks.installed ⟨position, time, mutations⟩ haccepted, hsound.schema_eq⟩
    · rename_i status provider herror
      obtain rfl := applyCommitted_error herror
      exact hsound
  | compact oldest retained =>
    rw [TemporalRun.step.eq_def]
    dsimp only
    split
    · rename_i report provider hok
      refine ⟨hsound.tracks.compacted hok, ?_⟩
      obtain ⟨-, rfl⟩ := compactHistory_ok hok
      exact hsound.schema_eq
    · rename_i status provider herror
      obtain rfl := compactHistory_error herror
      exact hsound
  | restore =>
    rw [TemporalRun.step.eq_def]
    dsimp only
    split
    · rename_i provider hok
      have hrestored := restoredProvider_ok hok
      refine ⟨hsound.tracks.restored hretained hrestored, ?_⟩
      obtain ⟨-, _, _, -, -, rfl⟩ :=
        restoreRetainedHistory_ok hrestored
      exact hsound.schema_eq
    · exact hsound

/-- **Every run** of commits, compactions and restores keeps what as-of queries need. -/
lemma tracks (hcreate : create schema limits = .ok provider) {actions : List TemporalAction}
    (hactions : Runs.Along step FromRetained (start provider) actions) :
    ((start provider).after actions).Sound schema := by
  rw [create] at hcreate
  split_ifs at hcreate
  · simp [invalid] at hcreate
  · cases hcreate
    exact hactions.invariant (Sound schema) (fun _ _ hsound => hsound.step)
      ⟨.fresh schema limits, rfl⟩

end TemporalRun

/-! ### As-of queries -/

/-- The rows of the last mutations by a time: one row for each identity whose last mutation by
that time is not a tombstone, with the values of that mutation. -/
def RowsAsOf (schema : TableSchema) (commits : List TemporalCommit) (time : Int)
    (rows : List ScalarInputRow) : Prop :=
  ∃ identities : List Bytes, identities.Nodup
    ∧ (∀ identity, identity ∈ identities ↔ ∃ version,
      lastAsOf commits time identity = some version ∧ version.mutation.kind ≠ .tombstone)
    ∧ List.Forall₂ (fun identity row => ∃ version,
      lastAsOf commits time identity = some version
        ∧ row = TemporalSnapshotProvider.inputRow schema identity version.mutation.walId
          version.mutation.recordSequence version.commitPosition version.mutation) identities rows

variable {schema : TableSchema} {commits : List TemporalCommit} {time : Int}

lemma rowAsOf_eq_some {identity : Bytes} {row : ScalarInputRow} :
    rowAsOf schema commits time identity = some row ↔ ∃ version,
      lastAsOf commits time identity = some version ∧ version.mutation.kind ≠ .tombstone
        ∧ row = inputRow schema identity version.mutation.walId
          version.mutation.recordSequence version.commitPosition version.mutation := by
  rw [rowAsOf, Option.bind_eq_some_iff]
  refine exists_congr fun _ => and_congr_right fun _ => ?_
  rw [shownRow]
  split_ifs with hkind
  · simp [hkind]
  · simp [hkind, eq_comm]

/-- The rows of a list of identities that has every identity with a row. -/
lemma rowsAsOf_filterMap {keys : List Bytes} (hnodup : keys.Nodup)
    (hkeys : ∀ identity version, lastAsOf commits time identity = some version → identity ∈ keys) :
    RowsAsOf schema commits time (keys.filterMap (rowAsOf schema commits time)) := by
  refine ⟨keys.filter fun identity => (rowAsOf schema commits time identity).isSome,
    hnodup.filter _, fun identity => ?_, ?_⟩
  · rw [List.mem_filter, Option.isSome_iff_exists]
    simp only [rowAsOf_eq_some]
    constructor
    · rintro ⟨-, row, version, hlast, hkind, -⟩
      exact ⟨version, hlast, hkind⟩
    · rintro ⟨version, hlast, hkind⟩
      exact ⟨hkeys identity version hlast, _, version, hlast, hkind, rfl⟩
  · clear hnodup hkeys
    induction keys with
    | nil => exact .nil
    | cons identity _ ih =>
      cases hrow : rowAsOf schema commits time identity with
      | none => simpa [hrow] using ih
      | some row =>
        obtain ⟨version, hlast, -, heq⟩ := rowAsOf_eq_some.mp hrow
        simp only [List.filterMap_cons, hrow, List.filter_cons, Option.isSome_some, if_true]
        exact .cons ⟨version, hlast, heq⟩ ih

/-- **As-of queries are exact.**  After every run of commits, compactions and restores from the
retained versions: a query at a time that is not before the latest retained time, and by which
something was committed, returns exactly the rows of the last mutations by that time; the version
count is the sum of the history lengths; and a rejected commit changes nothing. -/
theorem as_of_queries_exact (schema : TableSchema) (limits : TemporalStoreLimits)
    (provider : TemporalSnapshotProvider)
    (hcreate : TemporalSnapshotProvider.create schema limits = .ok provider)
    (actions : List TemporalAction)
    (hactions : Runs.Along TemporalRun.step TemporalRun.FromRetained (.start provider) actions) :
    let run := (TemporalRun.start provider).after actions
    (∀ time, NotExpired run.boundary time → (∃ commit ∈ run.commits, commit.time ≤ time) →
      ∃ snapshot, run.provider.resolve schema (some time) = .ok snapshot
        ∧ RowsAsOf schema run.commits time snapshot.rows)
    ∧ run.provider.versions = run.provider.histories.sum List.length
    ∧ ∀ position time mutations status unchanged,
      run.provider.applyCommitted position time mutations = (.error status, unchanged) →
        unchanged = run.provider := by
  intro run
  have hsound : run.Sound schema := TemporalRun.tracks hcreate hactions
  refine ⟨fun time htime hcommitted => ?_, hsound.tracks.count, fun _ _ _ _ _ herror =>
    applyCommitted_error herror⟩
  obtain ⟨_, -, hresolve⟩ := hsound.tracks.resolve_eq
    (congrArg TableSchema.schemaId hsound.schema_eq.symm)
    (congrArg TableSchema.version hsound.schema_eq.symm) htime hcommitted
  refine ⟨_, hresolve, ?_⟩
  rw [hsound.schema_eq]
  refine rowsAsOf_filterMap ?_ fun identity version hlast => ?_
  · exact (List.pairwise_map.mpr run.provider.histories.sorted).imp fun hlt => ne_of_lt hlt
  · obtain ⟨_, hmem⟩ := hsound.tracks.mem_of_lastAsOf hlast
    exact List.mem_map_of_mem hmem

/-- A mutation of the sample table, by the record of its commit. -/
def sampleMutation (identity : Fin 256) (value : Int) (position : ℕ) (kind : TemporalMutationKind) :
    TemporalMutation where
  logicalIdentity := [identity]
  columns := [⟨some ⟨.timestampNs, 0, 0⟩, .signed value⟩]
  eventTimeNs := value
  receiveTimeNs := value
  walId := 9
  recordSequence := position
  rowOrdinal := 0
  kind := kind

/-- Limits for two rows of three versions. -/
def sampleLimits : TemporalStoreLimits := ⟨2, 3, 8⟩

/-- The identity of the row that is corrected. -/
def sampleIdentity : Fin 256 := 1

/-- The second of the versions of the sample. -/
def sampleVersion : TemporalVersion := ⟨2, 20, sampleMutation 1 6 2 .correction⟩

/-- A row, its correction, a compaction, a restore, another row, and a commit past the limits. -/
def sampleActions : List TemporalAction :=
  [.apply 1 10 [sampleMutation 1 5 1 .original], .apply 2 20 [sampleMutation 1 6 2 .correction],
    .compact 2 20, .restore sampleLimits 20 [⟨1, 10, sampleMutation 1 5 1 .original⟩,
    sampleVersion],
    .apply 3 20 [sampleMutation 2 7 3 .original], .apply 4 30 [sampleMutation 1 6 4 .tombstone]]

/-- After the restore, the rows of time 20 are those committed by then. -/
theorem sample_as_of_queries_exact :
    let provider := TemporalSnapshotProvider.fresh Ingest.sampleSchema sampleLimits
    let run := (TemporalRun.start provider).after sampleActions
    TemporalSnapshotProvider.create Ingest.sampleSchema sampleLimits = .ok provider
      ∧ Runs.Along TemporalRun.step TemporalRun.FromRetained (.start provider) sampleActions
      ∧ run.boundary = some 20
      ∧ ∃ snapshot, run.provider.resolve Ingest.sampleSchema (some 20) = .ok snapshot
        ∧ RowsAsOf Ingest.sampleSchema run.commits 20 snapshot.rows :=
  ⟨rfl, by decide +kernel, by decide +kernel,
    (as_of_queries_exact Ingest.sampleSchema sampleLimits _ rfl sampleActions
      (by decide +kernel)).1 20 (by unfold NotExpired; decide +kernel) (by decide +kernel)⟩

/-- **A validated command can be applied**: what passes `validate_next_commit` is accepted by
`apply_committed` at the record that the log assigns to it. -/
theorem validated_command_applies {provider : TemporalSnapshotProvider} {time : Int}
    {mutations : List TemporalMutation} {walId : Uuid} {recordSequence : ℕ}
    (h : provider.validateNextCommit time mutations = .ok ()) (hwal : walId ≠ 0)
    (hadvances : provider.latestPosition < recordSequence) :
    let logged := mutations.map fun mutation => { mutation with walId, recordSequence }
    (provider.applyCommitted recordSequence time logged).1 = .ok () := by
  intro logged
  have hpositive : recordSequence ≠ 0 := by omega
  rw [validateNextCommit] at h
  split_ifs at h
  have hvalid := validate_ok.mp h
  have haccepted : ∀ mutation ∈ logged,
      provider.MutationAccepted recordSequence true false mutation := by
    refine List.forall_mem_map.mpr fun mutation hmem => ?_
    have hmutation := hvalid.accepted mutation hmem
    -- only the source and the position of the checked row are new
    exact { hmutation with
      source := fun _ => ⟨hwal, hpositive⟩
      row := fun hkind => { hmutation.row hkind with
        walId := hwal
        recordSequence := hpositive
        position := hpositive } }
  have hlogged : provider.CommitAccepted recordSequence time logged true false := { hvalid with
    positive := hpositive
    nonempty := by simpa [logged] using hvalid.nonempty
    advances := hadvances
    capacity := by simpa [logged] using hvalid.capacity
    distinct := by simpa [logged, Function.comp_def] using hvalid.distinct
    accepted := haccepted
    rows := by simpa [logged, List.countP_map, Function.comp_def] using hvalid.rows }
  rw [applyCommitted, validate_ok.mpr hlogged]

/-- A command that is checked without a position is applied at record 7. -/
theorem sample_validated_command_applies :
    let provider := TemporalSnapshotProvider.fresh Ingest.sampleSchema sampleLimits
    provider.validateNextCommit 10 [sampleMutation 1 5 0 .original] = .ok () ∧
      (provider.applyCommitted 7 10 [sampleMutation 1 5 7 .original]).1 = .ok () := by
  have h : (fresh Ingest.sampleSchema sampleLimits).validateNextCommit 10
      [sampleMutation 1 5 0 .original] = .ok () := by decide +kernel
  exact ⟨h, validated_command_applies h (by decide : (9 : Uuid) ≠ 0) (by decide)⟩

end Chronos.Query
