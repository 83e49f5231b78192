import Chronos.Common.Runs
import Chronos.Live.SubscriptionTracks

/-!
Runs of a subscription manager.

* `SubscriptionRun`: the manager with what a run has shown: the accepted changes, the boundary of
  each registration, the highest sequence delivered to each identity, its last acknowledged
  sequence and the issued tokens.
* `Allowed`: a token that is resumed was issued in the run, and if its subscription has ended, the
  changes past it are retained and fit a buffer; where they are not, the resume fails and the
  subscription is gone (`failed_resume_erases`).
* `Sound`: every subscription and token tracks the changes past its boundary; `Sound.step` and
  `Sound.runs` keep it.
* `subscription_exactly_once`: the consequences for the calls of a run.
-/

namespace Chronos.Live

open SubscriptionManager List OrderedMap SubscriptionSource Option Except
open Chronos.Runs (Along)

/-! ### The outcomes of the calls -/

section Outcomes

variable {manager : SubscriptionManager}

section

variable (manager : SubscriptionManager)

/-- A registration fails and changes nothing, or it adds a subscription at the last change. -/
lemma registerSubscription_cases (request : SubscriptionRequest) :
    (∃ status, manager.registerSubscription request = (manager, .error status)) ∨
    (request.subscriptionId ≠ 0 ∧ request.schemaId = manager.source.schemaId ∧
      manager.planSchemaCompatible = true ∧
      manager.subscriptions.find? request.subscriptionId = none ∧
      manager.subscriptions.size < manager.limits.maximumSubscriptions ∧
      ∃ token, manager.encodeToken
          ⟨request, .snapshot, manager.latestPosition, manager.latestPosition, 0, 0, 0, 0, []⟩ =
          .ok token ∧
        manager.registerSubscription request =
          (manager.withSubscription request.subscriptionId
            ⟨request, .snapshot, manager.latestPosition, manager.latestPosition, 0, 0, 0, 0, []⟩,
            .ok ⟨manager.latestPosition, token⟩)) := by
  rw [registerSubscription]
  split_ifs with hrequest hcompatible hcontains hcapacity
  · exact .inl ⟨_, rfl⟩
  · exact .inl ⟨_, rfl⟩
  · exact .inl ⟨_, rfl⟩
  · exact .inl ⟨_, rfl⟩
  · simp only [not_or, not_not] at hrequest
    cases htoken : manager.encodeToken
        ⟨request, .snapshot, manager.latestPosition, manager.latestPosition, 0, 0, 0, 0, []⟩ with
    | error status => exact .inl ⟨status, by simp only [htoken]⟩
    | ok token =>
      exact .inr ⟨hrequest.1, hrequest.2.2.1, by simpa using hcompatible,
        by simpa [OrderedMap.contains] using hcontains, not_le.1 hcapacity, token, rfl,
        by simp only [htoken]⟩

/-- The state of a resumed subscription before its changes are buffered. -/
def resumedState (token : ResumeToken) (safe : SourcePosition) : SubscriptionState :=
  ⟨⟨token.subscriptionId, token.planFingerprint, token.schemaId, token.schemaVersion⟩, .live, safe,
    safe, token.safeDeliverySequence, token.safeDeliverySequence, token.safeDeliverySequence, 0, []⟩

/-- A resume fails, or the changes past its position are retained and buffered. -/
lemma resumeFresh_cases (token : ResumeToken) (safe : SourcePosition) :
    (∃ status, manager.resumeFresh token safe = (manager, .error status)) ∨
    (manager.subscriptions.size < manager.limits.maximumSubscriptions ∧
      (safe.recordSequence < manager.latestPosition.recordSequence →
        ∃ first, manager.retainedChanges.head? = some first ∧
          first.position.recordSequence ≤ safe.recordSequence + 1) ∧
      ∃ state refreshed,
        manager.resumeChanges safe.recordSequence manager.retainedChanges
          (resumedState token safe) = .ok state ∧
        manager.encodeToken state = .ok refreshed ∧
        manager.resumeFresh token safe =
          (manager.withSubscription token.subscriptionId state, .ok ⟨safe, refreshed⟩)) := by
  rw [resumeFresh]
  split_ifs with hcapacity hahead hexpired
  · exact .inl ⟨_, rfl⟩
  · exact .inl ⟨_, rfl⟩
  · exact .inl ⟨_, rfl⟩
  · rw [not_and] at hexpired
    rw [← resumedState]
    cases hchanges : manager.resumeChanges safe.recordSequence manager.retainedChanges
        (resumedState token safe) with
    | error status => exact .inl ⟨status, by simp only [hchanges]⟩
    | ok state =>
      cases htoken : manager.encodeToken state with
      | error status => exact .inl ⟨status, by simp only [hchanges, htoken]⟩
      | ok refreshed =>
        refine .inr ⟨not_le.1 hcapacity, fun hlt => ?_, state, refreshed, rfl, htoken,
          by simp only [hchanges, htoken]⟩
        cases hhead : manager.retainedChanges.head? with
        | none => exact absurd (by simp [hhead]) (hexpired hlt)
        | some first => exact ⟨first, rfl, by simpa [hhead] using hexpired hlt⟩

/-- A resume fails before it changes anything, or it goes on without a subscription of its
identity: there was none, or one that has ended is erased. -/
lemma resumeSubscription_cases (encoded : EncodedToken) :
    (∃ status, manager.resumeSubscription encoded = (manager, .error status)) ∨
    ∃ safe subscriptions, encoded.token.sourcePositions = [safe] ∧
      encoded.token.schemaId = manager.source.schemaId ∧
      encoded.token.schemaVersion = manager.source.schemaVersion ∧
      manager.planSchemaCompatible = true ∧
      (∀ other, subscriptions.find? other = if other = encoded.token.subscriptionId then none
        else manager.subscriptions.find? other) ∧
      (subscriptions = manager.subscriptions ∨
        subscriptions.size < manager.subscriptions.size ∧
          ∃ state ∈ manager.subscriptions.find? encoded.token.subscriptionId,
            state.active = false) ∧
      manager.resumeSubscription encoded =
        resumeFresh { manager with subscriptions } encoded.token safe := by
  rw [resumeSubscription]
  cases hdecode : decodeResumeToken encoded manager.source.tokenKey 1 with
  | error status => exact .inl ⟨status, rfl⟩
  | ok token =>
    obtain rfl : encoded.token = token := by
      rw [decodeResumeToken] at hdecode
      split_ifs at hdecode <;> simp only [Schema.invalid, reduceCtorEq, ok.injEq] at hdecode
      exact hdecode
    match hpositions : encoded.token.sourcePositions with
    | [] => exact .inl ⟨_, by simp only [hpositions]; exact rfl⟩
    | _ :: _ :: _ => exact .inl ⟨_, by simp only [hpositions]; exact rfl⟩
    | [safe] =>
      simp only [hpositions]
      split_ifs with hmatch hcompatible
      · exact .inl ⟨_, rfl⟩
      · exact .inl ⟨_, rfl⟩
      · simp only [not_or, not_not] at hmatch
        obtain ⟨-, -, -, hschema, hversion⟩ := hmatch
        rw [resumeToken]
        cases hfind : manager.subscriptions.find? encoded.token.subscriptionId with
        | none =>
          refine .inr ⟨safe, manager.subscriptions, rfl, hschema, hversion,
            by simpa using hcompatible, fun other => ?_, .inl rfl, rfl⟩
          split_ifs with hother
          · rw [hother, hfind]
          · rfl
        | some state =>
          simp only
          split_ifs with hactive
          · exact .inl ⟨_, rfl⟩
          · exact .inr ⟨safe, _, rfl, hschema, hversion, by simpa using hcompatible,
              find?_erase _ _, .inr ⟨size_erase_lt hfind, state, rfl, Bool.eq_false_iff.2 hactive⟩,
              rfl⟩

/-- A publication fails and changes nothing, or the change follows the last one. -/
lemma publishCommitted_cases (change : CommittedChange) :
    (∃ status, manager.publishCommitted change = (manager, .error status)) ∨
    (change.position.sameSource manager.latestPosition = true ∧
      change.position.recordSequence =
        (manager.latestPosition.recordSequence + 1) % 2 ^ 64 ∧
      manager.planSchemaCompatible = true ∧
      (manager.publishCommitted change =
          (invalidatePlanSchema { manager with latestPosition := change.position }, .ok ()) ∨
        change.schemaId = manager.source.schemaId ∧
          change.schemaVersion = manager.source.schemaVersion ∧
          manager.publishCommitted change = (manager.deliver change, .ok ()))) := by
  rw [publishCommitted]
  split_ifs with hposition hcompatible hcanonical hsize hschema
  · exact .inl ⟨_, rfl⟩
  · exact .inl ⟨_, rfl⟩
  · exact .inl ⟨_, rfl⟩
  · exact .inl ⟨_, rfl⟩
  all_goals
    simp only [not_or, not_not] at hposition
    have hcompatible' : manager.planSchemaCompatible = true := by simpa using hcompatible
  · exact .inr ⟨hposition.1, hposition.2, hcompatible', .inl rfl⟩
  · simp only [not_or, not_not] at hschema
    exact .inr ⟨hposition.1, hposition.2, hcompatible', .inr ⟨hschema.1, hschema.2, rfl⟩⟩

lemma completeSnapshot_cases (id : Uuid) : (manager.completeSnapshot id).1 = manager ∨
    ∃ state, manager.subscriptions.find? id = some state ∧ state.phase = .snapshot ∧
      manager.completeSnapshot id =
        (manager.withSubscription id { state with phase := .live }, .ok ()) := by
  rw [completeSnapshot]
  cases hfind : manager.subscriptions.find? id with
  | none => exact .inl rfl
  | some state =>
    cases hphase : state.phase with
    | snapshot => exact .inr ⟨state, rfl, hphase, by simp only [hphase]⟩
    | live | overflowed | schemaChanged | cancelled => exact .inl (by simp only [hphase])

/-- A poll fails and changes nothing, or it returns the oldest records of a live subscription. -/
lemma poll_cases (id : Uuid) (count : ℕ) :
    (∃ status, manager.poll id count = (manager, .error status)) ∨
    ∃ state, manager.subscriptions.find? id = some state ∧ state.phase = .live ∧
      manager.poll id count = (manager.withSubscription id
        { state with
          lastPolledSequence := max state.lastPolledSequence
            (((state.buffered.take count).getLast?.map (·.deliverySequence)).getD 0) },
        .ok (state.buffered.take count)) := by
  rw [poll]
  split_ifs with hzero
  · exact .inl ⟨_, rfl⟩
  · cases hfind : manager.subscriptions.find? id with
    | none => exact .inl ⟨_, rfl⟩
    | some state =>
      cases hphase : state.phase with
      | live => exact .inr ⟨state, rfl, hphase, by simp only [hphase, pollError]⟩
      | snapshot | overflowed | schemaChanged | cancelled =>
        exact .inl ⟨_, by simp only [hphase, pollError]; rfl⟩

/-- The state after an acknowledgement. -/
def acknowledgedState (state : SubscriptionState) (sequence : ℕ) : SubscriptionState :=
  let rest := acknowledgeThrough sequence state.buffered state.safePosition state.bufferedBytes
  { state with
    buffered := rest.1
    safePosition := rest.2.1
    bufferedBytes := rest.2.2
    lastAcknowledgedSequence := sequence }

/-- An acknowledgement fails and changes nothing, or it moves a live subscription. -/
lemma acknowledge_cases (id : Uuid) (sequence : ℕ) :
    (∃ status, manager.acknowledge id sequence = (manager, .error status)) ∨
    ∃ state, manager.subscriptions.find? id = some state ∧ state.phase = .live ∧
      state.lastAcknowledgedSequence ≤ sequence ∧ sequence ≤ state.lastPolledSequence ∧
      manager.acknowledge id sequence =
        (manager.withSubscription id (acknowledgedState state sequence),
          manager.encodeToken (acknowledgedState state sequence)) := by
  rw [acknowledge]
  cases hfind : manager.subscriptions.find? id with
  | none => exact .inl ⟨_, rfl⟩
  | some state =>
    simp only
    split_ifs with houtside
    · exact .inl ⟨_, rfl⟩
    · simp only [not_or, not_not, not_lt] at houtside
      exact .inr ⟨state, rfl, houtside.1, houtside.2.1, houtside.2.2, rfl⟩

/-- A cancellation fails and changes nothing, or it ends a subscription. -/
lemma cancel_cases (id : Uuid) : (∃ status, manager.cancel id = (manager, .error status)) ∨
    ∃ state token, manager.subscriptions.find? id = some state ∧
      manager.encodeToken state = .ok token ∧
      manager.cancel id = (manager.withSubscription id (state.ended .cancelled), .ok token) := by
  rw [cancel]
  cases hfind : manager.subscriptions.find? id with
  | none => exact .inl ⟨_, rfl⟩
  | some state =>
    cases htoken : manager.encodeToken state with
    | error status => exact .inl ⟨status, by simp only [htoken]⟩
    | ok token => exact .inr ⟨state, token, rfl, htoken, by simp only [htoken]⟩

lemma abandon_cases (id : Uuid) : manager.abandon id = manager ∨
    ∃ state, manager.subscriptions.find? id = some state ∧
      manager.abandon id = manager.withSubscription id (state.ended .cancelled) := by
  rw [abandon]
  cases hfind : manager.subscriptions.find? id with
  | none => exact .inl rfl
  | some state => exact .inr ⟨state, rfl, rfl⟩

end

end Outcomes

/-! ### Runs -/

/-- A manager with what a run of its calls has shown. -/
structure SubscriptionRun where
  manager : SubscriptionManager
  committed : List CommittedChange
  boundary : Uuid → Option ℕ
  delivered : Uuid → ℕ
  acknowledged : Uuid → ℕ
  issued : List EncodedToken

namespace SubscriptionRun

/-- The run of no calls. -/
def start (manager : SubscriptionManager) : SubscriptionRun :=
  ⟨manager, [], fun _ => none, fun _ => 0, fun _ => 0, []⟩

/-- The sequence of the last of some records. -/
def lastSequence (records : List DeliveryRecord) : ℕ :=
  (records.getLast?.map (·.deliverySequence)).getD 0

/-- What a call that succeeds shows. -/
def record (run : SubscriptionRun) : Call → Reply → SubscriptionRun
  | .register request, .registration registration =>
    { run with
      boundary := Function.update run.boundary request.subscriptionId
        (some registration.snapshotBoundary.recordSequence)
      acknowledged := Function.update run.acknowledged request.subscriptionId 0
      issued := run.issued ++ [registration.token] }
  | .resume encoded, .registration registration =>
    { run with
      acknowledged := Function.update run.acknowledged encoded.token.subscriptionId
        encoded.token.safeDeliverySequence
      issued := run.issued ++ [registration.token] }
  | .publishCommitted change, _ => { run with committed := run.committed ++ [change] }
  | .poll id _, .records records =>
    { run with
      delivered :=
        Function.update run.delivered id (max (run.delivered id) (lastSequence records)) }
  | .acknowledge id through, .token token =>
    { run with
      acknowledged := Function.update run.acknowledged id through
      issued := run.issued ++ [token] }
  | .cancel _, .token token => { run with issued := run.issued ++ [token] }
  | _, _ => run

/-- One call of a run. -/
def step (run : SubscriptionRun) (call : Call) : SubscriptionRun :=
  match run.manager.call call with
  | (manager, .error _) => { run with manager }
  | (manager, .ok reply) => { run.record call reply with manager }

/-- A run of calls. -/
def run (start : SubscriptionRun) (calls : List Call) : SubscriptionRun := calls.foldl step start

/-- The changes past a position are retained and fit the buffer of one subscription. -/
def SuffixFits (manager : SubscriptionManager) (safe : ℕ) : Prop :=
  let suffix := manager.retainedChanges.filter (safe < ·.position.recordSequence)
  (safe < manager.latestPosition.recordSequence →
      manager.retainedChanges.head?.any (·.position.recordSequence ≤ safe + 1) = true) ∧
    suffix.length ≤ manager.limits.maximumBufferedChangesPerSubscription ∧
    (suffix.map (·.size)).sum ≤ manager.limits.maximumBufferedBytesPerSubscription

instance (manager : SubscriptionManager) (safe : ℕ) : Decidable (SuffixFits manager safe) :=
  inferInstanceAs (Decidable (_ ∧ _))

/-- A resumed token was issued in the run, and if its subscription has ended under a schema that has
not changed, the changes past it are retained and fit a buffer. -/
def Allowed (run : SubscriptionRun) : Call → Prop
  | .resume encoded => encoded ∈ run.issued ∧
      (run.manager.planSchemaCompatible = true →
        ∀ state ∈ run.manager.subscriptions.find? encoded.token.subscriptionId,
          state.active = false → ∀ safe ∈ encoded.token.sourcePositions,
            SuffixFits run.manager safe.recordSequence)
  | _ => True

instance (run : SubscriptionRun) : ∀ call, Decidable (run.Allowed call)
  | .resume _ => inferInstanceAs (Decidable (_ ∧ _))
  | .register _ | .completeSnapshot _ | .publishCommitted _ | .poll _ _ | .acknowledge _ _
  | .cancel _ | .abandon _ => inferInstanceAs (Decidable True)

/-- The records that follow the last acknowledged sequence of an identity, at most `count`, each
with the change at its place past the boundary. -/
def Follow (run : SubscriptionRun) (id : Uuid) (count : ℕ) (records : List DeliveryRecord) : Prop :=
  ∃ boundary, run.boundary id = some boundary ∧ run.acknowledged id ≤ run.delivered id ∧
    records.length = min count (run.committed.length - (boundary + run.acknowledged id)) ∧
    records.map (·.deliverySequence) = List.range' (run.acknowledged id + 1) records.length ∧
    ∀ record ∈ records,
      record.change.position = run.manager.source.position (boundary + record.deliverySequence) ∧
        run.committed[boundary + record.deliverySequence - 1]? = some record.change

/-- Every change past the position of a token is retained. -/
def Retained (run : SubscriptionRun) (token : ResumeToken) : Prop :=
  ∃ boundary, run.boundary token.subscriptionId = some boundary ∧
    token.sourcePositions =
      [run.manager.source.position (boundary + token.safeDeliverySequence)] ∧
    ∀ change ∈ run.committed.drop (boundary + token.safeDeliverySequence),
      change ∈ run.manager.retainedChanges

/-- A token names the position of its sequence past the boundary of its identity. -/
structure TokenTracks (source : SubscriptionSource) (committed : List CommittedChange)
    (delivered boundary : ℕ) (token : ResumeToken) : Prop where
  id_ne : token.subscriptionId ≠ 0
  positions : token.sourcePositions = [source.position (boundary + token.safeDeliverySequence)]
  safe_le : boundary + token.safeDeliverySequence ≤ committed.length
  delivered_le : token.safeDeliverySequence ≤ delivered

/-- What a run keeps. -/
structure Sound (run : SubscriptionRun) : Prop where
  source : validSource run.manager.source = true
  latest : run.manager.latestPosition = run.manager.source.position run.committed.length
  places : AtPlaces run.manager.source run.committed
  retained : run.manager.planSchemaCompatible = true →
    ∃ dropped, run.manager.retainedChanges = run.committed.drop dropped
  schemas : ∀ change ∈ run.manager.retainedChanges,
    change.schemaId = run.manager.source.schemaId ∧
      change.schemaVersion = run.manager.source.schemaVersion
  size : run.manager.subscriptions.size ≤ run.manager.limits.maximumSubscriptions
  inactive : run.manager.planSchemaCompatible = false →
    ∀ id state, run.manager.subscriptions.find? id = some state → state.active = false
  tracks : ∀ id state, run.manager.subscriptions.find? id = some state →
    ∃ boundary, run.boundary id = some boundary ∧
      Tracks run.manager.source run.committed (run.delivered id) id boundary state
  acknowledged : ∀ id state, run.manager.subscriptions.find? id = some state →
    state.lastAcknowledgedSequence = run.acknowledged id
  registered : ∀ id, run.manager.subscriptions.find? id = none → run.boundary id = none
  tokens : ∀ encoded ∈ run.issued, ∃ boundary,
    run.boundary encoded.token.subscriptionId = some boundary ∧
      TokenTracks run.manager.source run.committed (run.delivered encoded.token.subscriptionId)
        boundary encoded.token

variable {manager : SubscriptionManager}

lemma sound_start {source : SubscriptionSource} {limits : SubscriptionLimits}
    (hcreate : create source limits = .ok manager) : (start manager).Sound := by
  rw [create] at hcreate
  split_ifs at hcreate with hsource hlimits
  cases ok.inj hcreate
  refine ⟨by simpa [start] using hsource, rfl, fun _ _ h => by simp [start] at h, fun _ => ⟨0, rfl⟩,
    fun _ h => by simp [start] at h, Nat.zero_le _, fun h => by simp [start] at h, fun _ _ h => ?_,
    fun _ _ _ => ?_, fun _ _ => rfl, fun _ h => by simp [start] at h⟩ <;>
    simp [start, OrderedMap.find?, OrderedMap.empty] at *

variable {committed : List CommittedChange} {delivered boundary : ℕ} {id : Uuid}
  {state : SubscriptionState}

/-- A token of a tracked state is encoded. -/
lemma encodeToken_of_tracks (hsource : validSource manager.source = true)
    (htracks : Tracks manager.source committed delivered id boundary state) :
    manager.encodeToken state = .ok ⟨manager.tokenFor state, manager.source.tokenKey⟩ := by
  simp only [validSource, Bool.and_eq_true, decide_eq_true_eq, Bool.not_eq_true', ne_eq] at hsource
  obtain ⟨⟨⟨⟨⟨⟨hdatabase, -⟩, htablet⟩, hwal⟩, hschema⟩, -⟩, hkey⟩ := hsource
  simp [encodeToken, encodeResumeToken, tokenFor, hdatabase, htracks.id_eq, htracks.id_ne,
    htracks.schemaId, hschema, hkey, maximumResumeTokenSources, htracks.safe, position,
    SourcePosition.isValid, SourceIdentity.uuid, htablet, hwal]

/-- The token of a tracked state. -/
lemma tokenTracks_of_tracks
    (htracks : Tracks manager.source committed delivered id boundary state) :
    TokenTracks manager.source committed delivered boundary (manager.tokenFor state) :=
  ⟨by rw [tokenFor, htracks.id_eq]; exact htracks.id_ne, by rw [tokenFor, htracks.safe],
    htracks.safe_le, htracks.acknowledged⟩

section Set

variable {run : SubscriptionRun} {id : Uuid} {state : SubscriptionState}

/-- One subscription is set to a state that tracks, and tokens of it are issued. -/
lemma Sound.set (hsound : run.Sound) {next : SubscriptionRun} {boundary : ℕ}
    {subscriptions : OrderedMap Uuid SubscriptionState}
    (hmanager : next.manager = { run.manager with subscriptions })
    (hsubscriptions : ∀ other, subscriptions.find? other =
      if other = id then some state else run.manager.subscriptions.find? other)
    (hsize : subscriptions.size ≤ run.manager.limits.maximumSubscriptions)
    (hcommitted : next.committed = run.committed)
    (hboundary : next.boundary = Function.update run.boundary id (some boundary))
    (hkept : ∀ old, run.boundary id = some old → old = boundary)
    (hdelivered : ∀ other, run.delivered other ≤ next.delivered other)
    (hacknowledged : next.acknowledged =
      Function.update run.acknowledged id state.lastAcknowledgedSequence)
    (htracks : Tracks run.manager.source run.committed (next.delivered id) id boundary state)
    (hactive : state.active = true → run.manager.planSchemaCompatible = true)
    (hissued : ∀ encoded ∈ next.issued, encoded ∈ run.issued ∨
      (encoded.token.subscriptionId = id ∧ TokenTracks run.manager.source run.committed
        (next.delivered id) boundary encoded.token)) :
    next.Sound := by
  obtain ⟨_, _, _, delivered, _, issued⟩ := next
  dsimp only at hmanager hcommitted hboundary hacknowledged hdelivered htracks hissued
  subst hmanager hcommitted hboundary hacknowledged
  have hold : ∀ {other b}, run.boundary other = some b →
      Function.update run.boundary id (some boundary) other = some b := by
    intro other b hb
    rw [Function.update_apply]
    split_ifs with hother
    · subst hother
      rw [hkept b hb]
    · exact hb
  refine { hsound with
    size := hsize
    inactive := fun hcompatible other found hfound => ?_
    tracks := fun other found hfound => ?_
    acknowledged := fun other found hfound => ?_
    registered := fun other hother => ?_
    tokens := fun encoded hencoded => ?_ }
  · rw [hsubscriptions] at hfound
    split_ifs at hfound
    · cases some.inj hfound
      by_contra hnot
      simp [hactive (by simpa using hnot)] at hcompatible
    · exact hsound.inactive hcompatible other found hfound
  · rw [hsubscriptions] at hfound
    split_ifs at hfound with hother
    · cases some.inj hfound
      subst hother
      exact ⟨boundary, Function.update_self .., htracks⟩
    · obtain ⟨b, hb, hfoundTracks⟩ := hsound.tracks other found hfound
      exact ⟨b, hold hb, hfoundTracks.mono (hdelivered other)⟩
  · rw [hsubscriptions] at hfound
    simp only [Function.update_apply]
    split_ifs at hfound ⊢
    · cases some.inj hfound
      rfl
    · exact hsound.acknowledged other found hfound
  · rw [hsubscriptions] at hother
    split_ifs at hother with hid
    exact (Function.update_of_ne hid ..).trans (hsound.registered other hother)
  · rcases hissued encoded hencoded with hmem | ⟨rfl, htoken⟩
    · obtain ⟨b, hb, htoken⟩ := hsound.tokens encoded hmem
      exact ⟨b, hold hb, { htoken with delivered_le := htoken.delivered_le.trans (hdelivered _) }⟩
    · exact ⟨boundary, Function.update_self .., htoken⟩

/-- A registered subscription is set to a state that tracks, with the same boundary. -/
lemma Sound.update (hsound : run.Sound) {old : SubscriptionState} {next : SubscriptionRun}
    (hfind : run.manager.subscriptions.find? id = some old)
    (hmanager : next.manager = run.manager.withSubscription id state)
    (hcommitted : next.committed = run.committed) (hboundary : next.boundary = run.boundary)
    (hdelivered : ∀ other, run.delivered other ≤ next.delivered other)
    (hacknowledged : next.acknowledged =
      Function.update run.acknowledged id state.lastAcknowledgedSequence)
    (hstate : ∀ boundary,
      Tracks run.manager.source run.committed (run.delivered id) id boundary old →
      Tracks run.manager.source run.committed (next.delivered id) id boundary state)
    (hactive : state.active = true → old.active = true) {tokens : List EncodedToken}
    (hissued : next.issued = run.issued ++ tokens)
    (htokens : ∀ encoded ∈ tokens, encoded.token = run.manager.tokenFor state) : next.Sound := by
  obtain ⟨boundary, hold, htracks⟩ := hsound.tracks id old hfind
  have hsize := (run.manager.subscriptions.size_insert id state).trans_le
    (Nat.succ_le_succ hsound.size)
  rw [hfind] at hsize
  refine hsound.set hmanager (fun other => find?_insert _ id state other)
    (Nat.le_of_succ_le_succ hsize) hcommitted (by rw [hboundary, ← hold, Function.update_eq_self])
    (fun b hb => some.inj (hb.symm.trans hold)) hdelivered hacknowledged (hstate boundary htracks)
    (fun h => ?_) (fun encoded hencoded => ?_)
  · by_contra hincompatible
    have hnot := hsound.inactive (Bool.eq_false_iff.2 hincompatible) id old hfind
    simp [hactive h] at hnot
  · rw [hissued] at hencoded
    refine (mem_append.1 hencoded).imp_right fun hmem => ?_
    rw [htokens encoded hmem]
    exact ⟨(hstate boundary htracks).id_eq, tokenTracks_of_tracks (hstate boundary htracks)⟩

end Set

/-! ### Steps -/

section Steps

variable {run : SubscriptionRun}

/-- What a call of a sound run can do: fail and change nothing, or succeed in a sound run. -/
def Outcome (run : SubscriptionRun) (call : Call) : Prop :=
  (∃ status, run.manager.call call = (run.manager, .error status)) ∨
    ∃ manager reply, run.manager.call call = (manager, .ok reply) ∧
      Sound { run.record call reply with manager }

lemma Sound.register (hsound : run.Sound) (request : SubscriptionRequest) :
    run.Outcome (.register request) := by
  rcases registerSubscription_cases run.manager request with
    ⟨status, h⟩ | ⟨hid, hschema, hcompatible, hfind, hroom, token, htoken, h⟩
  · exact .inl ⟨status, by rw [call, reply, h]; rfl⟩
  · refine .inr ⟨_, .registration ⟨run.manager.latestPosition, token⟩,
      by rw [call, reply, h]; rfl, ?_⟩
    have htracks := tracks_registered hid hschema hsound.latest
      (run.delivered request.subscriptionId)
    rw [encodeToken_of_tracks hsound.source htracks] at htoken
    refine hsound.set rfl (fun other => find?_insert _ _ _ other)
      ((Nat.le_add_right _ _).trans ((size_insert _ _ _).trans_le hroom)) rfl ?_
      (fun old hold => ?_) (fun _ => le_rfl) rfl htracks (fun _ => hcompatible) (fun encoded hmem => ?_)
    · simp only [record, hsound.latest, position]
    · rw [hsound.registered _ hfind] at hold
      cases hold
    · rcases mem_append.1 hmem with hmem | hmem
      · exact .inl hmem
      · rw [mem_singleton.1 hmem, ← ok.inj htoken]
        exact .inr ⟨rfl, tokenTracks_of_tracks htracks⟩

variable {boundary : ℕ} {safe : SourcePosition} {state : SubscriptionState}

section Resume

variable {token : ResumeToken} {delivered : ℕ} (hsound : run.Sound)
  (hfew : run.committed.length < u64Max)
  (htoken : TokenTracks run.manager.source run.committed delivered boundary token)
  (hpositions : token.sourcePositions = [safe])
  (hschema : token.schemaId = run.manager.source.schemaId)
  (hcompatible : run.manager.planSchemaCompatible = true)
  (hretained : safe.recordSequence < run.manager.latestPosition.recordSequence →
    ∃ first, run.manager.retainedChanges.head? = some first ∧
      first.position.recordSequence ≤ safe.recordSequence + 1)
include hsound htoken hpositions hcompatible hretained

/-- A position whose next change is retained has every later change retained. -/
lemma Sound.suffix_retained :
    safe = run.manager.source.position (boundary + token.safeDeliverySequence) ∧
      run.manager.retainedChanges.filter (safe.recordSequence < ·.position.recordSequence) =
        run.committed.drop safe.recordSequence := by
  obtain rfl : safe = run.manager.source.position (boundary + token.safeDeliverySequence) := by
    have h := htoken.positions
    rw [hpositions] at h
    simpa using h
  obtain ⟨_, hdropped⟩ := hsound.retained hcompatible
  refine ⟨rfl, ?_⟩
  rw [hdropped]
  refine hsound.places.filter_drop ?_
  rcases Nat.lt_or_ge (boundary + token.safeDeliverySequence) run.committed.length with hlt | hge
  · left
    rw [hsound.latest] at hretained
    obtain ⟨_, hfirst, hposition⟩ := hretained hlt
    rw [hdropped, head?_drop] at hfirst
    rw [hsound.places _ _ hfirst] at hposition
    simp only [position] at hposition ⊢
    omega
  · exact .inr (le_antisymm htoken.safe_le hge)

include hfew

/-- The changes past the position of a token can be numbered. -/
lemma Sound.suffix_few : (resumedState token safe).lastAssignedSequence +
    (run.manager.retainedChanges.filter
      (safe.recordSequence < ·.position.recordSequence)).length < u64Max := by
  obtain ⟨rfl, hfilter⟩ := hsound.suffix_retained htoken hpositions hcompatible hretained
  have hle := htoken.safe_le
  rw [hfilter, length_drop]
  simp only [resumedState, position]
  omega

include hschema

/-- The state of a successful resume tracks the boundary of its token. -/
lemma Sound.tracks_resumed {manager : SubscriptionManager}
    (hstate : manager.resumeChanges safe.recordSequence run.manager.retainedChanges
      (resumedState token safe) = .ok state) :
    Tracks run.manager.source run.committed delivered token.subscriptionId boundary state ∧
      state.lastAcknowledgedSequence = token.safeDeliverySequence := by
  have hroom := hsound.suffix_few hfew htoken hpositions hcompatible hretained
  obtain ⟨rfl, hfilter⟩ := hsound.suffix_retained htoken hpositions hcompatible hretained
  obtain ⟨_, rfl⟩ := resumeChanges_eq_ok hstate hroom
  have hle := htoken.safe_le
  refine ⟨⟨rfl, htoken.id_ne, hschema, rfl, hle, htoken.delivered_le, fun _ =>
    ⟨?_, ?_, le_rfl, Nat.le_add_right _ _, htoken.delivered_le⟩⟩, rfl⟩
  · simp only [resumedState, nil_append]
    exact congrArg _ hfilter
  · simp only [resumedState]
    rw [hfilter, length_drop]
    simp only [position]
    omega

end Resume

variable {encoded : EncodedToken}

/-- A resume succeeds where the changes past its position are retained and fit a buffer. -/
lemma Sound.resumeFresh_ok (hsound : run.Sound) (hfew : run.committed.length < u64Max)
    (hissued : encoded ∈ run.issued) (hpositions : encoded.token.sourcePositions = [safe])
    (hschema : encoded.token.schemaId = run.manager.source.schemaId)
    (hversion : encoded.token.schemaVersion = run.manager.source.schemaVersion)
    (hcompatible : run.manager.planSchemaCompatible = true)
    {subscriptions : OrderedMap Uuid SubscriptionState}
    (hroom : subscriptions.size < run.manager.limits.maximumSubscriptions)
    (hfits : SuffixFits run.manager safe.recordSequence) :
    ∃ registration, (resumeFresh { run.manager with subscriptions } encoded.token safe).2 =
      .ok registration := by
  obtain ⟨boundary, -, htoken⟩ := hsound.tokens encoded hissued
  obtain ⟨hexpired, hcount, hbytes⟩ := hfits
  have hretained : safe.recordSequence < run.manager.latestPosition.recordSequence →
      ∃ first, run.manager.retainedChanges.head? = some first ∧
        first.position.recordSequence ≤ safe.recordSequence + 1 := fun hlt => by
    simpa [Option.any_eq_true] using hexpired hlt
  have hchanges : ∃ state, resumeChanges { run.manager with subscriptions } safe.recordSequence
      run.manager.retainedChanges (resumedState encoded.token safe) = .ok state :=
    exists_resumeChanges
      (fun change hmem => by
        simpa [resumedState, hschema, hversion] using hsound.schemas change hmem)
      (by simpa [resumedState] using hcount) (by simpa [resumedState] using hbytes)
      (hsound.suffix_few hfew htoken hpositions hcompatible hretained)
  obtain ⟨state, hstate⟩ := hchanges
  have htracks :=
    (hsound.tracks_resumed hfew htoken hpositions hschema hcompatible hretained hstate).1
  have hencoded := @encodeToken_of_tracks { run.manager with subscriptions } _ _ _ _ _
    hsound.source htracks
  have hbehind : safe.recordSequence ≤ run.manager.latestPosition.recordSequence := by
    rw [(hsound.suffix_retained htoken hpositions hcompatible hretained).1, hsound.latest]
    exact htoken.safe_le
  have hnext : ¬(safe.recordSequence < run.manager.latestPosition.recordSequence ∧
      run.manager.retainedChanges.head?.all
        (safe.recordSequence + 1 < ·.position.recordSequence)) := by
    rintro ⟨hlt, hall⟩
    obtain ⟨first, hfirst, hle⟩ := hretained hlt
    rw [hfirst] at hall
    simp at hall
    omega
  rw [resumeFresh, if_neg (not_le.2 hroom), if_neg (not_lt.2 hbehind), if_neg hnext,
    ← resumedState]
  simp only [hstate, hencoded]
  exact ⟨_, rfl⟩

/-- **A resume** of an issued token fails and changes nothing, or it leaves a sound run in which
every change past its position is retained. -/
lemma Sound.resume (hsound : run.Sound) (hfew : run.committed.length < u64Max)
    (hallowed : run.Allowed (.resume encoded)) : run.Outcome (.resume encoded) := by
  rcases resumeSubscription_cases run.manager encoded with ⟨status, h⟩ |
    ⟨safe, subscriptions, hpositions, hschema, hversion, hcompatible, hsubscriptions, hsame, h⟩
  · exact .inl ⟨status, by rw [call, reply, h]; rfl⟩
  rcases resumeFresh_cases { run.manager with subscriptions } encoded.token safe with
    ⟨status, hfresh⟩ | ⟨hroom, hretained, state, refreshed, hstate, hrefreshed, hfresh⟩
  · rcases hsame with rfl | ⟨hsize, ended, hfind, hended⟩
    · exact .inl ⟨status, by rw [call, reply, h, hfresh]; rfl⟩
    · -- an allowed resume of an ended subscription succeeds
      obtain ⟨_, hok⟩ := hsound.resumeFresh_ok hfew hallowed.1 hpositions hschema hversion
        hcompatible (hsize.trans_le hsound.size)
        (hallowed.2 hcompatible ended hfind hended safe (by simp [hpositions]))
      rw [hfresh] at hok
      cases hok
  · refine .inr ⟨_, .registration ⟨safe, refreshed⟩, by rw [call, reply, h, hfresh]; rfl, ?_⟩
    obtain ⟨_, hboundary, htoken⟩ := hsound.tokens encoded hallowed.1
    obtain ⟨htracks, hacknowledged⟩ :=
      hsound.tracks_resumed hfew htoken hpositions hschema hcompatible hretained hstate
    have hencoded : refreshed = ⟨run.manager.tokenFor state, run.manager.source.tokenKey⟩ :=
      ok.inj (hrefreshed.symm.trans (encodeToken_of_tracks hsound.source htracks))
    refine hsound.set rfl (fun other => ?_)
      ((Nat.le_add_right _ _).trans ((size_insert _ _ _).trans_le hroom)) rfl
      (by simp only [record]; rw [← hboundary, Function.update_eq_self])
      (fun old hold => some.inj (hold.symm.trans hboundary)) (fun _ => le_rfl)
      (by simp only [record, hacknowledged]) htracks (fun _ => hcompatible) (fun issued hmem => ?_)
    · rw [find?_insert, hsubscriptions]
      split_ifs <;> rfl
    · refine (mem_append.1 hmem).imp_right fun hmem => ?_
      rw [mem_singleton.1 hmem, hencoded]
      exact ⟨htracks.id_eq, tokenTracks_of_tracks htracks⟩

/-- The loop that drops retained changes leaves a suffix. -/
lemma exists_trim_eq_drop (limits : SubscriptionLimits) (changes : List CommittedChange)
    (bytes : ℕ) : ∃ dropped, (trim limits changes bytes).1 = changes.drop dropped := by
  induction changes generalizing bytes with
  | nil => exact ⟨0, rfl⟩
  | cons change changes ih =>
    rw [trim]
    split_ifs
    · obtain ⟨dropped, hdropped⟩ := ih (bytes - change.size)
      exact ⟨dropped + 1, hdropped⟩
    · exact ⟨0, rfl⟩

lemma Sound.tokens_append (hsound : run.Sound) (change : CommittedChange) :
    ∀ encoded ∈ run.issued, ∃ boundary,
      run.boundary encoded.token.subscriptionId = some boundary ∧
        TokenTracks run.manager.source (run.committed ++ [change])
          (run.delivered encoded.token.subscriptionId) boundary encoded.token := by
  intro encoded hmem
  obtain ⟨boundary, hboundary, htoken⟩ := hsound.tokens encoded hmem
  exact ⟨boundary, hboundary, { htoken with safe_le := htoken.safe_le.trans (by simp) }⟩

lemma Sound.publishCommitted (hsound : run.Sound) (hfew : run.committed.length < u64Max)
    (change : CommittedChange) : run.Outcome (.publishCommitted change) := by
  rcases publishCommitted_cases run.manager change with
    ⟨status, h⟩ | ⟨hsame, hsequence, hcompatible, h⟩
  · exact .inl ⟨status, by rw [call, reply, h]; rfl⟩
  have hposition : change.position = run.manager.source.position (run.committed.length + 1) := by
    rw [hsound.latest] at hsame hsequence
    simp only [position] at hsequence
    rw [Nat.mod_eq_of_lt (by rw [u64Max] at hfew; omega)] at hsequence
    obtain ⟨htablet, hwal⟩ : change.position.tabletId = run.manager.source.tabletId ∧
        change.position.source = .wal run.manager.source.walId :=
      SourcePosition.sameSource_iff.1 hsame
    rw [position, ← htablet, ← hwal, ← hsequence]
  have hlatest : change.position =
      run.manager.source.position (run.committed ++ [change]).length := by
    rw [hposition, length_append, length_singleton]
  rcases h with h | ⟨hschemaId, hversion, h⟩
  · -- the schema of the plan has changed
    refine .inr ⟨_, .done, by rw [call, reply, h]; rfl, ?_⟩
    refine ⟨hsound.source, hlatest, hsound.places.append hposition, fun hcontra => ?_,
      fun _ hmem => (not_mem_nil hmem).elim, (size_mapValues _ _).trans_le hsound.size,
      fun _ id state hfind => ?_, fun id state hfind => ?_, fun id state hfind => ?_,
      fun id hfind => ?_, hsound.tokens_append change⟩
    · simp [invalidatePlanSchema] at hcontra
    · simp only [invalidatePlanSchema, find?_mapValues, map_eq_some_iff] at hfind
      obtain ⟨old, -, rfl⟩ := hfind
      split_ifs with hactive
      · exact ended_active (by decide) (by decide)
      · exact Bool.eq_false_iff.2 hactive
    · simp only [invalidatePlanSchema, find?_mapValues, map_eq_some_iff] at hfind
      obtain ⟨old, hold, rfl⟩ := hfind
      obtain ⟨boundary, hboundary, htracks⟩ := hsound.tracks id old hold
      exact ⟨boundary, hboundary, htracks.schemaChanged change⟩
    · simp only [invalidatePlanSchema, find?_mapValues, map_eq_some_iff] at hfind
      obtain ⟨old, hold, rfl⟩ := hfind
      rw [apply_ite SubscriptionState.lastAcknowledgedSequence]
      exact (ite_self _).trans (hsound.acknowledged id old hold)
    · simp only [invalidatePlanSchema, find?_mapValues, map_eq_none_iff] at hfind
      exact hsound.registered id hfind
  · refine .inr ⟨_, .done, by rw [call, reply, h]; rfl, ?_⟩
    obtain ⟨more, hmore⟩ := exists_trim_eq_drop run.manager.limits
      (run.manager.retainedChanges ++ [change]) (run.manager.retainedChangeBytes + change.size)
    refine ⟨hsound.source, hlatest, hsound.places.append hposition, fun _ => ?_,
      fun found hfound => ?_, (size_mapValues _ _).trans_le hsound.size, fun hcontra => ?_,
      fun id state hfind => ?_, fun id state hfind => ?_, fun id hfind => ?_,
      hsound.tokens_append change⟩
    · obtain ⟨dropped, hdropped⟩ := hsound.retained hcompatible
      rcases Nat.lt_or_ge run.committed.length dropped with hlt | hle
      · -- nothing was retained
        refine ⟨run.committed.length + more, ?_⟩
        simp only [deliver, record]
        rw [hmore, hdropped, drop_eq_nil_of_le hlt.le, nil_append, ← drop_drop, drop_left]
      · refine ⟨dropped + more, ?_⟩
        simp only [deliver, record]
        rw [hmore, hdropped, ← drop_append_of_le_length hle, drop_drop]
    · simp only [deliver, hmore] at hfound
      rcases mem_append.1 (mem_of_mem_drop hfound) with hold | hnew
      · exact hsound.schemas found hold
      · rw [mem_singleton.1 hnew]
        exact ⟨hschemaId, hversion⟩
    · simp [deliver, hcompatible] at hcontra
    · simp only [deliver, find?_mapValues, map_eq_some_iff] at hfind
      obtain ⟨old, hold, rfl⟩ := hfind
      obtain ⟨boundary, hboundary, htracks⟩ := hsound.tracks id old hold
      exact ⟨boundary, hboundary, htracks.append run.manager change⟩
    · simp only [deliver, find?_mapValues, map_eq_some_iff] at hfind
      obtain ⟨old, hold, rfl⟩ := hfind
      refine Eq.trans ?_ (hsound.acknowledged id old hold)
      split_ifs
      · rw [SubscriptionManager.append]
        split_ifs <;> rfl
      · rfl
    · simp only [deliver, find?_mapValues, map_eq_none_iff] at hfind
      exact hsound.registered id hfind

lemma active_of_live (hphase : state.phase = .live) :
    state.active = true := by
  simp [SubscriptionState.active, hphase]

/-- A call that acknowledges nothing. -/
lemma Sound.acknowledged_eq (hsound : run.Sound) {id : Uuid} {old : SubscriptionState}
    (hfind : run.manager.subscriptions.find? id = some old)
    (hsame : state.lastAcknowledgedSequence = old.lastAcknowledgedSequence) :
    run.acknowledged =
      Function.update run.acknowledged id state.lastAcknowledgedSequence := by
  rw [hsame, hsound.acknowledged id old hfind, Function.update_eq_self]

lemma Sound.completeSnapshot (hsound : run.Sound) (id : Uuid) :
    run.Outcome (.completeSnapshot id) := by
  rcases completeSnapshot_cases run.manager id with h | ⟨_, hfind, hphase, h⟩
  · cases hresult : (run.manager.completeSnapshot id).2 with
    | error status => exact .inl ⟨status, by rw [call, reply, h, hresult]; rfl⟩
    | ok _ => exact .inr ⟨run.manager, .done, by rw [call, reply, h, hresult]; rfl, hsound⟩
  · refine .inr ⟨_, .done, by rw [call, reply, h]; rfl, ?_⟩
    exact hsound.update hfind rfl rfl rfl (fun _ => le_rfl)
      (hsound.acknowledged_eq hfind rfl) (fun _ htracks => htracks.live hphase)
      (fun _ => by simp [SubscriptionState.active, hphase]) (append_nil _).symm (by simp)

lemma Sound.poll (hsound : run.Sound) (id : Uuid) (count : ℕ) : run.Outcome (.poll id count) := by
  rcases poll_cases run.manager id count with ⟨status, h⟩ | ⟨state, hfind, hphase, h⟩
  · exact .inl ⟨status, by rw [call, reply, h]; rfl⟩
  · refine .inr ⟨_, .records (state.buffered.take count), by rw [call, reply, h]; rfl, ?_⟩
    have hactive := active_of_live hphase
    refine hsound.update hfind rfl rfl rfl (fun other => ?_) (hsound.acknowledged_eq hfind rfl)
      (fun boundary htracks => ?_) (fun _ => hactive) (append_nil _).symm (by simp)
    · simp only [record, Function.update_apply]
      split_ifs with hother
      · rw [hother]
        exact le_max_left _ _
      · exact le_rfl
    · simp only [record, Function.update_self]
      exact htracks.poll hactive count rfl

lemma Sound.acknowledge (hsound : run.Sound) (id : Uuid) (sequence : ℕ) :
    run.Outcome (.acknowledge id sequence) := by
  rcases acknowledge_cases run.manager id sequence with
    ⟨status, h⟩ | ⟨state, hfind, hphase, hle, hpolled, h⟩
  · exact .inl ⟨status, by rw [call, reply, h]; rfl⟩
  · have hactive := active_of_live hphase
    obtain ⟨boundary, -, htracks⟩ := hsound.tracks id state hfind
    have hmoved : Tracks run.manager.source run.committed (run.delivered id) id boundary
        (acknowledgedState state sequence) :=
      htracks.acknowledge hsound.places hactive hle hpolled
    rw [encodeToken_of_tracks hsound.source hmoved] at h
    refine .inr ⟨_, .token _, by rw [call, reply, h]; rfl, ?_⟩
    exact hsound.update hfind rfl rfl rfl (fun _ => le_rfl) rfl
      (fun _ htracks => htracks.acknowledge hsound.places hactive hle hpolled) (fun _ => hactive)
      rfl (fun _ hmem => by rw [mem_singleton.1 hmem])

lemma Sound.cancel (hsound : run.Sound) (id : Uuid) : run.Outcome (.cancel id) := by
  rcases cancel_cases run.manager id with ⟨status, h⟩ | ⟨state, token, hfind, htoken, h⟩
  · exact .inl ⟨status, by rw [call, reply, h]; rfl⟩
  · obtain ⟨_, -, htracks⟩ := hsound.tracks id state hfind
    rw [encodeToken_of_tracks hsound.source htracks] at htoken
    refine .inr ⟨_, .token token, by rw [call, reply, h]; rfl, ?_⟩
    refine hsound.update hfind rfl rfl rfl (fun _ => le_rfl) (hsound.acknowledged_eq hfind rfl)
      (fun _ htracks => htracks.ended (by decide) (by decide))
      (fun hactive => by simp at hactive) rfl (fun encoded hmem => ?_)
    rw [mem_singleton.1 hmem, ← ok.inj htoken]
    rfl

lemma Sound.abandon (hsound : run.Sound) (id : Uuid) : run.Outcome (.abandon id) := by
  rcases abandon_cases run.manager id with h | ⟨state, hfind, h⟩
  · exact .inr ⟨run.manager, .done, by rw [call, h], hsound⟩
  · refine .inr ⟨_, .done, by rw [call, h], ?_⟩
    exact hsound.update hfind rfl rfl rfl (fun _ => le_rfl) (hsound.acknowledged_eq hfind rfl)
      (fun _ htracks => htracks.ended (by decide) (by decide))
      (fun hactive => by simp at hactive) (append_nil _).symm (by simp)

variable {call : Call}

/-- **Every allowed call of a sound run fails and changes nothing, or leaves a sound run.** -/
lemma Sound.outcome (hsound : run.Sound) (hfew : run.committed.length < u64Max)
    (hallowed : run.Allowed call) : run.Outcome call := by
  cases call with
  | register request => exact hsound.register request
  | resume encoded => exact hsound.resume hfew hallowed
  | completeSnapshot id => exact hsound.completeSnapshot id
  | publishCommitted change => exact hsound.publishCommitted hfew change
  | poll id count => exact hsound.poll id count
  | acknowledge id sequence => exact hsound.acknowledge id sequence
  | cancel id => exact hsound.cancel id
  | abandon id => exact hsound.abandon id

lemma Sound.step (hsound : run.Sound) (hfew : run.committed.length < u64Max)
    (hallowed : run.Allowed call) : (run.step call).Sound := by
  rw [SubscriptionRun.step]
  rcases hsound.outcome hfew hallowed with ⟨_, h⟩ | ⟨_, _, h, hnext⟩
  · rw [h]
    exact hsound
  · rw [h]
    exact hnext

/-- The accepted changes stay. -/
lemma committed_step (run : SubscriptionRun) (call : Call) :
    run.committed <+: (run.step call).committed := by
  rw [SubscriptionRun.step]
  split
  · exact prefix_rfl
  · rw [record.eq_def]
    split <;> first | exact prefix_append _ _ | exact prefix_rfl

lemma committed_run (run : SubscriptionRun) (calls : List Call) :
    run.committed <+: (run.run calls).committed := by
  induction calls generalizing run with
  | nil => exact prefix_rfl
  | cons call calls ih => exact (committed_step run call).trans (ih (run.step call))

variable {id : Uuid}

/-- A registered identity keeps its boundary. -/
lemma Sound.boundary_step (hsound : run.Sound) (hboundary : run.boundary id = some boundary) :
    (run.step call).boundary id = some boundary := by
  rw [SubscriptionRun.step]
  split
  · exact hboundary
  · next manager reply h =>
    rw [record.eq_def]
    split <;> try exact hboundary
    -- a registration is of an identity without a boundary
    next request registration =>
      rcases registerSubscription_cases run.manager request with
        ⟨status, hregister⟩ | ⟨-, -, -, hfind, -⟩
      · rw [SubscriptionManager.call, SubscriptionManager.reply, hregister] at h
        cases h
      · have hne : id ≠ request.subscriptionId := by
          rintro rfl
          rw [hsound.registered _ hfind] at hboundary
          cases hboundary
        simp only
        rw [Function.update_of_ne hne]
        exact hboundary

/-- Along an allowed run of few changes a sound run stays sound and keeps its boundaries. -/
lemma Sound.runs (hsound : run.Sound) {calls : List Call}
    (halong : Along SubscriptionRun.step Allowed run calls)
    (hfew : (run.run calls).committed.length < u64Max) :
    (run.run calls).Sound ∧ ∀ id boundary, run.boundary id = some boundary →
      (run.run calls).boundary id = some boundary := by
  induction calls generalizing run with
  | nil => exact ⟨hsound, fun _ _ h => h⟩
  | cons call calls ih =>
    have hnow : run.committed.length < u64Max :=
      (committed_run run (call :: calls)).length_le.trans_lt hfew
    obtain ⟨hfinal, hkept⟩ := ih (hsound.step hnow halong.1) halong.2 hfew
    exact ⟨hfinal, fun id boundary h => hkept id boundary (hsound.boundary_step h)⟩

variable {next : SubscriptionManager}

/-- A poll returns the records that follow the last acknowledged sequence. -/
lemma Sound.poll_records (hsound : run.Sound) {count : ℕ} {records : List DeliveryRecord}
    (h : run.manager.call (.poll id count) = (next, .ok (.records records))) :
    run.Follow id count records := by
  rcases poll_cases run.manager id count with ⟨_, hpoll⟩ | ⟨state, hfind, hphase, hpoll⟩
  · rw [call, reply, hpoll] at h
    cases h
  · obtain rfl : state.buffered.take count = records := by
      rw [call, reply, hpoll] at h
      exact Reply.records.inj (ok.inj (congrArg Prod.snd h))
    obtain ⟨boundary, hboundary, htracks⟩ := hsound.tracks id state hfind
    have hactive := active_of_live hphase
    obtain ⟨hsequences, hchanges⟩ := htracks.polled hactive count
    rw [Follow, ← hsound.acknowledged id state hfind]
    refine ⟨boundary, hboundary, htracks.acknowledged, ?_, hsequences,
      fun record hmem => ⟨?_, hchanges record hmem⟩⟩
    · rw [length_take, (htracks.buffers hactive).buffered, length_numbered, length_drop]
    have hpositive : 1 ≤ record.deliverySequence := by
      have hin := mem_map_of_mem (f := DeliveryRecord.deliverySequence) hmem
      rw [hsequences, mem_range'_1] at hin
      omega
    rw [hsound.places _ _ (hchanges record hmem)]
    congr 1
    omega

/-- A resume that succeeds has every change past its position among the retained ones. -/
lemma Sound.resume_retained (hsound : run.Sound) (hissued : encoded ∈ run.issued) {result : Reply}
    (h : run.manager.call (.resume encoded) = (next, .ok result)) :
    run.Retained encoded.token := by
  obtain ⟨boundary, hboundary, htoken⟩ := hsound.tokens encoded hissued
  refine ⟨boundary, hboundary, htoken.positions, fun change hmem => ?_⟩
  rcases resumeSubscription_cases run.manager encoded with ⟨_, herror⟩ |
    ⟨safe, subscriptions, hpositions, -, -, hcompatible, -, -, hresume⟩
  · rw [call, reply, herror] at h
    cases h
  rcases resumeFresh_cases { run.manager with subscriptions } encoded.token safe with
    ⟨_, hfresh⟩ | ⟨-, hretained, -⟩
  · rw [call, reply, hresume, hfresh] at h
    cases h
  · obtain ⟨rfl, hfilter⟩ := hsound.suffix_retained htoken hpositions hcompatible hretained
    exact mem_of_mem_filter (hfilter.symm ▸ hmem)

end Steps

/-- **Subscriptions are exactly-once and error-atomic**, where a subscription that has ended is
resumed only while the changes past the token are retained and fit a buffer.  In every run of fewer
than `2^64 - 1` changes a call that fails changes nothing.  A poll returns the changes past the last
acknowledged sequence, as many as it asks for and there are, numbered without a gap, and the record
`n` is the `n`-th change past the boundary at which the identity was registered.  A resume succeeds
only if every change past its position is retained.  Later calls move neither the boundaries nor the
changes, so that a sequence of an identity denotes one change for ever. -/
theorem subscription_exactly_once {source : SubscriptionSource} {limits : SubscriptionLimits}
    {manager : SubscriptionManager} (hcreate : create source limits = .ok manager)
    (calls : List Call) (halong : Along step Allowed (start manager) calls)
    (hfew : ((start manager).run calls).committed.length < 2 ^ 64 - 1) :
    let run := (start manager).run calls
    (∀ call, run.Allowed call → ∀ next status,
      run.manager.call call = (next, .error status) → next = run.manager) ∧
    (∀ id count next records,
      run.manager.call (.poll id count) = (next, .ok (.records records)) →
      run.Follow id count records) ∧
    (∀ encoded ∈ run.issued, ∀ next result,
      run.manager.call (.resume encoded) = (next, .ok result) → run.Retained encoded.token) ∧
    (∀ more, Along step Allowed run more → (run.run more).committed.length < 2 ^ 64 - 1 →
      run.committed <+: (run.run more).committed ∧
        ∀ id boundary, run.boundary id = some boundary →
          (run.run more).boundary id = some boundary) := by
  intro run
  have hsound : run.Sound := ((sound_start hcreate).runs halong hfew).1
  refine ⟨fun call hallowed next status h => ?_, fun _ _ _ _ h => hsound.poll_records h,
    fun _ hissued _ _ h => hsound.resume_retained hissued h,
    fun more hmore hfewMore => ⟨committed_run run more, (hsound.runs hmore hfewMore).2⟩⟩
  rcases hsound.outcome hfew hallowed with ⟨_, hsame⟩ | ⟨_, _, hok, -⟩
  · rw [hsame] at h
    exact (congrArg Prod.fst h).symm
  · rw [hok] at h
    cases h

/-! ### A small manager -/

/-- The source of the sample. -/
def sampleSource : SubscriptionSource := ⟨1, 1, 1, 1, [], 1, 1, [1]⟩

/-- Limits that retain one change. -/
def sampleLimits : SubscriptionLimits := ⟨4, 1, 100, 4, 100, 100⟩

/-- The sample manager when it is created. -/
def sampleManager : SubscriptionManager :=
  ⟨sampleSource, sampleLimits, sampleSource.position 0, true, 0, [], .empty⟩

/-- The change at a position. -/
def sampleChange (sequence : ℕ) : CommittedChange :=
  ⟨sampleSource.position sequence, 1, 1, .upsert, [1], []⟩

/-- The token of a subscription that has acknowledged a sequence, registered before all changes. -/
def sampleToken (sequence : ℕ) : EncodedToken :=
  ⟨⟨1, 7, 1, 1, sequence, [], [sampleSource.position sequence]⟩, [1]⟩

/-- A registration, a change that is polled and acknowledged, a cancellation, another change, and a
resume that still finds it. -/
def sampleCalls : List Call :=
  [.register ⟨7, [], 1, 1⟩, .completeSnapshot 7, .publishCommitted (sampleChange 1), .poll 7 8,
    .acknowledge 7 1, .cancel 7, .publishCommitted (sampleChange 2), .resume (sampleToken 1)]

/-- The poll after the resume has the second change alone, with the sequence 2. -/
theorem subscription_exactly_once_sample :
    let run := (start sampleManager).run sampleCalls
    (run.manager.poll 7 8).2 = .ok [⟨2, sampleChange 2⟩] ∧ run.acknowledged 7 = 1 ∧
      ∃ boundary, run.boundary 7 = some boundary ∧
        [2] = List.range' (run.acknowledged 7 + 1) 1 ∧
        run.committed[boundary + 2 - 1]? = some (sampleChange 2) := by
  intro run
  have hexact := subscription_exactly_once (show create sampleSource sampleLimits =
    .ok sampleManager from rfl) sampleCalls (by decide +kernel) (by decide +kernel)
  obtain ⟨boundary, hboundary, -, -, hrange, hrecord⟩ :=
    hexact.2.1 7 8 _ [⟨2, sampleChange 2⟩] rfl
  exact ⟨by decide +kernel, by decide +kernel, boundary, hboundary, hrange,
    (hrecord _ (mem_singleton_self _)).2⟩

/-- Two changes after a cancellation, one of which is no longer retained. -/
def expiredCalls : List Call :=
  [.register ⟨7, [], 1, 1⟩, .cancel 7, .publishCommitted (sampleChange 1),
    .publishCommitted (sampleChange 2)]

/-- A resume whose changes have expired fails, and the subscription that it names is gone. -/
theorem failed_resume_erases :
    let run := (start sampleManager).run expiredCalls
    create sampleSource sampleLimits = .ok sampleManager ∧ sampleToken 0 ∈ run.issued ∧
      (run.manager.call (.resume (sampleToken 0))).2 =
        .error ⟨.notFound, "resume token committed suffix has expired"⟩ ∧
      (run.manager.subscriptions.find? 7).map (·.phase) = some .cancelled ∧
      ((run.manager.call (.resume (sampleToken 0))).1.subscriptions.find? 7).map (·.phase) =
        none :=
  ⟨rfl, by decide +kernel, by decide +kernel, by decide +kernel, by decide +kernel⟩

end SubscriptionRun

end Chronos.Live
