import Chronos.Common.Runs
import Chronos.Schema.Lineage
import Chronos.Metadata.StateMachine

/-!
What holds of the metadata state after any calls.

* `Change`, `perform_spec`: a call fails and changes nothing, or has one of ten
  effects and moves the applied index to its own.
* `DefinitionChain`: the definitions of one table, in the order of their versions.
* `Consistent`: the laws of the state that every call keeps.
* `Agrees`: every defined schema has its identity entry; a command that gives a
  defined schema another version breaks this law, and no other call does.
-/

namespace Chronos.Metadata

open MetadataStateMachine OrderedMap Option

open Schema (TableId SchemaId TabletId TableSchema validateV1Successor)
open Raft (NodeId invalid)
open Runs (Along)

/-! ### Effects of a call -/

/-- The index that a call names. -/
def MetadataCall.index : MetadataCall → ℕ
  | .command index _ => index
  | .definition index _ => index
  | .binding index _ => index
  | .noop index => index

/-- The effect of an accepted call, apart from the applied index. -/
inductive Change (s : MetadataStateMachine) : MetadataCall → MetadataStateMachine → Prop
  | node {index : ℕ} (value : ClusterNodeMetadata) :
      Change s (.command index (.node value))
        { s with nodes := s.nodes.insert value.nodeId value }
  | schema {index : ℕ} (value : SchemaMetadata)
      (hsame : ∀ existing, s.schemas.find? value.schemaId = some existing →
        existing.tableId = value.tableId) :
      Change s (.command index (.schema value))
        { s with schemas := s.schemas.insert value.schemaId value }
  | tablet {index : ℕ} (value : TabletPlacementMetadata)
      (hadvances : ∀ existing, s.tablets.find? value.tabletId = some existing →
        existing.tableId = value.tableId ∧ existing.placementEpoch < value.placementEpoch) :
      Change s (.command index (.tablet value))
        { s with
          tablets := s.tablets.insert value.tabletId (MetadataStateMachine.sortReplicas value) }
  | retention {index : ℕ} (value : RetentionMetadata) :
      Change s (.command index (.retention value))
        { s with retention := s.retention.insert value.tableId value }
  | policy {index : ℕ} (value : TablePolicyMetadata) :
      Change s (.command index (.policy value))
        { s with
          policies := s.policies.insert value.tableId value
          retention := s.retention.insert value.tableId
            ⟨value.tableId, value.systemHistoryNs, value.retryRetentionPositions⟩ }
  | repeated {index : ℕ} (definition : CatalogTableDefinition)
      (hdefined : s.definitions.find? definition.schema.schemaId = some definition) :
      Change s (.definition index (some definition)) s
  | definition {index : ℕ} (definition : CatalogTableDefinition)
      (hidentity : ∀ identity, s.schemas.find? definition.schema.schemaId = some identity →
        identity.tableId = definition.schema.tableId ∧
          identity.schemaVersion = definition.schema.version)
      (hnew : s.definitions.find? definition.schema.schemaId = none)
      (hadmits : s.admitsDefinition definition = .ok ()) :
      Change s (.definition index (some definition)) (s.define definition)
  | rebound {index : ℕ} (binding : TabletGroupBindingMetadata) :
      Change s (.binding index binding) s
  | binding {index : ℕ} (binding : TabletGroupBindingMetadata)
      (hplaced : s.tablets.contains binding.tabletId = true)
      (htablet : s.tabletGroups.find? binding.tabletId = none)
      (hgroup : s.groupTablets.find? binding.groupId = none) :
      Change s (.binding index binding)
        { s with
          groupTablets := s.groupTablets.insert binding.groupId binding.tabletId
          tabletGroups := s.tabletGroups.insert binding.tabletId binding }
  | noop {index : ℕ} : Change s (.noop index) s

variable {s s' : MetadataStateMachine}

lemma applyCommand_change {command : MetadataCommand} (index : ℕ)
    (hok : s.applyCommand command = .ok s') : Change s (.command index command) s' := by
  cases command with
  | node value =>
    simp only [applyCommand, applyNode] at hok
    split_ifs at hok
    cases hok
    exact .node value
  | schema value =>
    simp only [applyCommand, applySchema] at hok
    split_ifs at hok with _ hsame
    cases hok
    refine .schema value fun existing hexisting => ?_
    by_contra hne
    exact hsame ⟨existing, hexisting, hne⟩
  | tablet value =>
    simp only [applyCommand, applyTablet] at hok
    split_ifs at hok with _ hadvances
    cases hok
    refine .tablet value fun existing hexisting => ?_
    by_contra hne
    refine hadvances ⟨existing, hexisting, ?_⟩
    by_cases htable : existing.tableId = value.tableId
    · exact .inr (not_lt.1 fun hlt => hne ⟨htable, hlt⟩)
    · exact .inl htable
  | retention value =>
    simp only [applyCommand, applyRetention] at hok
    split_ifs at hok
    cases hok
    exact .retention value
  | policy value =>
    simp only [applyCommand, applyPolicy] at hok
    split_ifs at hok
    cases hok
    exact .policy value

/-- **What a call can do.**  It fails and changes nothing, or it has an effect. -/
lemma perform_spec (s : MetadataStateMachine) (call : MetadataCall) :
    (∃ status, s.perform call = (.error status, s)) ∨
      (s.follows call.index = true ∧ ∃ s', Change s call s' ∧
        s.perform call = (.ok (), { s' with applied := call.index })) := by
  cases call with
  | command index command =>
    simp only [perform, applyCommitted]
    split
    · exact .inl ⟨_, rfl⟩
    rename_i hfollows
    split
    · exact .inl ⟨_, rfl⟩
    · rename_i s' hok
      exact .inr ⟨Bool.eq_true_of_not_eq_false hfollows, s', applyCommand_change index hok, rfl⟩
  | definition index definition =>
    simp only [perform, applyCommittedSchemaDefinition]
    split
    · exact .inl ⟨_, rfl⟩
    rename_i hfollows
    have hfollows := Bool.eq_true_of_not_eq_false hfollows
    cases definition with
    | none => exact .inl ⟨_, rfl⟩
    | some definition =>
      dsimp only
      iterate 3
        split
        · exact .inl ⟨_, rfl⟩
      rename_i hidentity
      split
      · rename_i existing hexisting
        split
        · exact .inl ⟨_, rfl⟩
        · rename_i heq
          obtain rfl := not_not.1 heq
          exact .inr ⟨hfollows, s, .repeated existing hexisting, rfl⟩
      · rename_i hnew
        split
        · exact .inl ⟨_, rfl⟩
        · rename_i hadmits
          refine .inr ⟨hfollows, _, .definition definition ?_ hnew hadmits, rfl⟩
          intro identity hfound
          by_contra hne
          refine hidentity ⟨identity, hfound, ?_⟩
          by_cases htable : identity.tableId = definition.schema.tableId
          · exact .inr fun hversion => hne ⟨htable, hversion⟩
          · exact .inl htable
  | binding index binding =>
    simp only [perform, applyCommittedTabletGroupBinding]
    split
    · exact .inl ⟨_, rfl⟩
    rename_i hfollows
    have hfollows := Bool.eq_true_of_not_eq_false hfollows
    split
    · exact .inl ⟨_, rfl⟩
    rename_i hplaced
    split
    · exact .inl ⟨_, rfl⟩
    split
    · exact .inl ⟨_, rfl⟩
    split
    · exact .inr ⟨hfollows, s, .rebound binding, rfl⟩
    rename_i htablet
    split
    · exact .inl ⟨_, rfl⟩
    rename_i hgroup
    have htablet : s.tabletGroups.find? binding.tabletId = none := by
      simpa [contains] using htablet
    have hgroup : s.groupTablets.find? binding.groupId = none := by
      simpa [contains] using hgroup
    refine .inr ⟨hfollows, _, .binding binding ?_ htablet hgroup, ?_⟩
    · simpa using fun h => hplaced (.inr h)
    · rw [emplace_of_absent hgroup, emplace_of_absent htablet]
      rfl
  | noop index =>
    simp only [perform, applyInternalNoop]
    split
    · exact .inl ⟨_, rfl⟩
    · rename_i hfollows
      exact .inr ⟨Bool.eq_true_of_not_eq_false hfollows, s, .noop, rfl⟩

/-! ### The laws of the state -/

/-- The definitions of one table, the version of each being its place. -/
structure DefinitionChain (definitions : OrderedMap SchemaId CatalogTableDefinition)
    (table : TableId) (chain : List CatalogTableDefinition) : Prop where
  complete : ∀ definition, definition ∈ chain ↔
    definition.schema.tableId = table ∧
      definitions.find? definition.schema.schemaId = some definition
  versions : ∀ (i : ℕ) definition, chain[i]? = some definition → definition.schema.version = i + 1
  successors : ∀ (i : ℕ) before after, chain[i]? = some before → chain[i + 1]? = some after →
    validateV1Successor before.schema after.schema = .ok ()
  named : ∀ definition ∈ chain, ∀ other ∈ chain,
    other.name = definition.name ∧ other.quoted = definition.quoted

/-- The laws that every call keeps. -/
structure Consistent (s : MetadataStateMachine) : Prop where
  bounded : s.applied < 2 ^ 64
  keyed : ∀ id definition, s.definitions.find? id = some definition →
    definition.schema.schemaId = id
  chains : ∀ table, ∃ chain, DefinitionChain s.definitions table chain ∧
    s.activeSchemas.find? table = chain.getLast?.map (·.schema.schemaId)
  names : ∀ id definition id' definition', s.definitions.find? id = some definition →
    s.definitions.find? id' = some definition' → definition.name = definition'.name →
    definition.quoted = definition'.quoted → definition.schema.tableId = definition'.schema.tableId
  bound : ∀ tablet binding, s.tabletGroups.find? tablet = some binding →
    binding.tabletId = tablet ∧ s.groupTablets.find? binding.groupId = some tablet ∧
      s.tablets.contains tablet = true
  owners : ∀ group tablet, s.groupTablets.find? group = some tablet →
    s.tabletGroups.find? tablet = some ⟨tablet, group⟩

/-- Every defined schema has its identity entry. -/
def Agrees (s : MetadataStateMachine) : Prop :=
  ∀ id definition, s.definitions.find? id = some definition →
    ∃ identity, s.schemas.find? id = some identity ∧
      identity.tableId = definition.schema.tableId ∧
      identity.schemaVersion = definition.schema.version

/-- A command that follows the applied index and names a defined schema of its table names the
version of the definition. -/
def VersionKept (s : MetadataStateMachine) : MetadataCall → Prop
  | .command index (.schema value) => s.follows index = true →
    ∀ definition ∈ s.definitions.find? value.schemaId,
      definition.schema.tableId = value.tableId → definition.schema.version = value.schemaVersion
  | _ => True

instance (s : MetadataStateMachine) (call : MetadataCall) : Decidable (VersionKept s call) := by
  unfold VersionKept
  split <;> infer_instance

/-! ### Definitions -/

variable {definitions : OrderedMap SchemaId CatalogTableDefinition} {table : TableId}
  {chain : List CatalogTableDefinition} {definition : CatalogTableDefinition}

section

variable (hchain : DefinitionChain definitions table chain)
  (hnew : definitions.find? definition.schema.schemaId = none)
include hchain hnew

/-- A definition of another table leaves the chain of this one. -/
lemma DefinitionChain.insert_other (hother : definition.schema.tableId ≠ table) :
    DefinitionChain (definitions.insert definition.schema.schemaId definition) table chain where
  __ := hchain
  complete other := by
    rw [hchain.complete, find?_insert]
    refine and_congr_right fun htable => ?_
    split_ifs with hkey
    · rw [hkey, hnew]
      refine iff_of_false (by simp) fun heq => ?_
      exact hother ((congrArg (·.schema.tableId) (some.inj heq)).trans htable)
    · rfl

/-- A definition that may follow the last one of its table continues the chain. -/
lemma DefinitionChain.snoc (htable : definition.schema.tableId = table)
    (hversion : definition.schema.version = chain.length + 1)
    (hlast : ∀ last, chain.getLast? = some last →
      validateV1Successor last.schema definition.schema = .ok () ∧ definition.name = last.name ∧
      definition.quoted = last.quoted) :
    DefinitionChain (definitions.insert definition.schema.schemaId definition) table
      (chain ++ [definition]) where
  complete other := by
    rw [List.mem_append, List.mem_singleton, hchain.complete, find?_insert]
    split_ifs with hkey
    · rw [hkey, hnew]
      constructor
      · rintro (⟨-, hnone⟩ | rfl)
        · cases hnone
        · exact ⟨htable, rfl⟩
      · rintro ⟨-, heq⟩
        exact .inr (some.inj heq).symm
    · refine ⟨?_, .inl⟩
      rintro (hold | rfl)
      · exact hold
      · exact absurd rfl hkey
  versions i other hother := by
    rw [List.getElem?_append] at hother
    split_ifs at hother with hlt
    · exact hchain.versions i other hother
    · obtain ⟨hi, rfl⟩ : i = chain.length ∧ definition = other := by
        obtain ⟨hi, heq⟩ := List.getElem?_eq_some_iff.1 hother
        simp only [List.length_singleton] at hi
        exact ⟨by omega, by simpa using heq⟩
      rw [hi, hversion]
  successors i before after hbefore hafter := by
    rw [List.getElem?_append] at hbefore hafter
    split_ifs at hafter with hlt
    · rw [if_pos (by omega)] at hbefore
      exact hchain.successors i before after hbefore hafter
    · obtain ⟨hi, heq⟩ := List.getElem?_eq_some_iff.1 hafter
      obtain rfl : definition = after := by simpa using heq
      simp only [List.length_singleton] at hi
      rw [if_pos (by omega)] at hbefore
      refine (hlast before ?_).1
      rw [List.getLast?_eq_getElem?, ← hbefore]
      congr 1
      omega
  named := by
    -- everything is named as the last definition of the chain, if it has one
    have hall : ∀ other ∈ chain, other.name = definition.name ∧
        other.quoted = definition.quoted := by
      intro other hother
      obtain ⟨last, hfound⟩ := isSome_iff_exists.1
        (List.getLast?_isSome.2 (List.ne_nil_of_mem hother))
      obtain ⟨hname, hquoted⟩ := hchain.named last (List.mem_of_getLast? hfound) other hother
      obtain ⟨-, hname', hquoted'⟩ := hlast last hfound
      exact ⟨hname.trans hname'.symm, hquoted.trans hquoted'.symm⟩
    intro first hfirst second hsecond
    rw [List.mem_append, List.mem_singleton] at hfirst hsecond
    rcases hfirst with hfirst | rfl <;> rcases hsecond with hsecond | rfl
    · exact hchain.named first hfirst second hsecond
    · exact ⟨(hall first hfirst).1.symm, (hall first hfirst).2.symm⟩
    · exact hall second hsecond
    · exact ⟨rfl, rfl⟩

end

lemma validateV1Successor_version {before after : TableSchema}
    (hok : validateV1Successor before after = .ok ()) : after.version = before.version + 1 := by
  rw [validateV1Successor] at hok
  iterate 3
    split at hok
    · cases hok
  split at hok
  · cases hok
  · rename_i hversion
    exact not_not.1 hversion

/-- What the test against the active definition ensures of the chain. -/
lemma succeedsActive_chain (hchain : DefinitionChain s.definitions definition.schema.tableId chain)
    (hactive : s.activeSchemas.find? definition.schema.tableId =
      chain.getLast?.map (·.schema.schemaId))
    (hok : s.succeedsActive definition = .ok ()) :
    definition.schema.version = chain.length + 1 ∧
      ∀ last, chain.getLast? = some last →
        validateV1Successor last.schema definition.schema = .ok () ∧
          definition.name = last.name ∧ definition.quoted = last.quoted := by
  rw [succeedsActive, hactive] at hok
  rcases hlast : chain.getLast? with _ | last
  · rw [hlast] at hok
    dsimp only [map_none] at hok
    split_ifs at hok with hversion
    rw [List.getLast?_eq_none_iff.1 hlast]
    exact ⟨not_not.1 hversion, fun _ h => by cases h⟩
  · obtain ⟨-, hfound⟩ := (hchain.complete last).1 (List.mem_of_getLast? hlast)
    rw [hlast] at hok
    dsimp only [map_some] at hok
    rw [hfound] at hok
    dsimp only at hok
    split_ifs at hok with hnamed hsuccessor
    rw [not_or, not_not, not_not] at hnamed
    obtain ⟨⟨⟩, hsuccessor⟩ := Result.isOk_iff.1 (Bool.eq_true_of_not_eq_false hsuccessor)
    have hversion : last.schema.version = chain.length - 1 + 1 :=
      hchain.versions _ last (by rw [← List.getLast?_eq_getElem?, hlast])
    have hpos : chain.length ≠ 0 := by
      rintro hzero
      rw [List.length_eq_zero_iff.1 hzero] at hlast
      cases hlast
    refine ⟨by rw [validateV1Successor_version hsuccessor]; omega, ?_⟩
    rintro _ ⟨⟩
    exact ⟨hsuccessor, hnamed.1.symm, hnamed.2.symm⟩

/-! ### Every call keeps the laws -/

lemma define_definitions (hnew : s.definitions.find? definition.schema.schemaId = none) :
    (s.define definition).definitions =
      s.definitions.insert definition.schema.schemaId definition :=
  emplace_of_absent hnew definition

/-- What the tests of a new definition leave of it. -/
lemma admitsDefinition_ok (hok : s.admitsDefinition definition = .ok ()) :
    s.succeedsActive definition = .ok () ∧
      ∀ id other, s.definitions.find? id = some other →
        other.schema.tableId ≠ definition.schema.tableId →
        ¬ (other.name = definition.name ∧ other.quoted = definition.quoted) := by
  rw [admitsDefinition] at hok
  split at hok
  · cases hok
  split at hok
  · cases hok
  obtain ⟨⟨⟩, hsucceeds, hok⟩ := Result.bind_eq_ok.1 hok
  split_ifs at hok with hname
  refine ⟨hsucceeds, fun id other hother htable hsame => hname ⟨(id, other), ?_, htable, hsame⟩⟩
  exact find?_eq_some.1 hother

/-- A new definition keeps the laws. -/
lemma Consistent.define (hs : Consistent s)
    (hnew : s.definitions.find? definition.schema.schemaId = none)
    (hadmits : s.admitsDefinition definition = .ok ()) : Consistent (s.define definition) where
  __ := hs
  keyed id other hother := by
    rw [define_definitions hnew, find?_insert] at hother
    split_ifs at hother with hkey
    · rw [← some.inj hother, hkey]
    · exact hs.keyed id other hother
  chains table := by
    obtain ⟨chain, hchain, hactive⟩ := hs.chains table
    rw [define_definitions hnew]
    by_cases htable : definition.schema.tableId = table
    · subst htable
      obtain ⟨hversion, hlast⟩ :=
        succeedsActive_chain hchain hactive (admitsDefinition_ok hadmits).1
      refine ⟨_, hchain.snoc hnew rfl hversion hlast, ?_⟩
      rw [MetadataStateMachine.define, find?_insert]
      simp
    · refine ⟨chain, hchain.insert_other hnew htable, ?_⟩
      rw [← hactive, MetadataStateMachine.define, find?_insert, if_neg fun h => htable h.symm]
  names := by
    have hold : ∀ id other, s.definitions.find? id = some other →
        other.name = definition.name → other.quoted = definition.quoted →
        other.schema.tableId = definition.schema.tableId := by
      intro id other hother hnamed hquoted
      by_contra hne
      exact (admitsDefinition_ok hadmits).2 id other hother hne ⟨hnamed, hquoted⟩
    intro id first id' second hfirst hsecond hnamed hquoted
    rw [define_definitions hnew, find?_insert] at hfirst hsecond
    split_ifs at hfirst hsecond
    · rw [← some.inj hfirst, ← some.inj hsecond]
    · obtain rfl := some.inj hfirst
      exact (hold id' second hsecond hnamed.symm hquoted.symm).symm
    · obtain rfl := some.inj hsecond
      exact hold id first hfirst hnamed hquoted
    · exact hs.names id first id' second hfirst hsecond hnamed hquoted

/-- A placement keeps the laws. -/
lemma Consistent.place (hs : Consistent s) (value : TabletPlacementMetadata) :
    Consistent { s with tablets := s.tablets.insert value.tabletId value } :=
  { hs with
    bound := fun tablet binding hbinding => by
      obtain ⟨htablet, howner, hplaced⟩ := hs.bound tablet binding hbinding
      refine ⟨htablet, howner, ?_⟩
      rw [contains, find?_insert]
      split_ifs
      · rfl
      · exact hplaced }

/-- A binding of a free tablet to a free group keeps the laws. -/
lemma Consistent.bind (hs : Consistent s) {binding : TabletGroupBindingMetadata}
    (hplaced : s.tablets.contains binding.tabletId = true)
    (htablet : s.tabletGroups.find? binding.tabletId = none)
    (hgroup : s.groupTablets.find? binding.groupId = none) :
    Consistent { s with
      groupTablets := s.groupTablets.insert binding.groupId binding.tabletId
      tabletGroups := s.tabletGroups.insert binding.tabletId binding } :=
  { hs with
    bound := fun tablet other hother => by
      rw [find?_insert] at hother
      rw [find?_insert]
      split_ifs at hother with hkey
      · obtain rfl := some.inj hother
        subst hkey
        exact ⟨rfl, if_pos rfl, hplaced⟩
      · obtain ⟨hsame, howner, hplaced'⟩ := hs.bound tablet other hother
        refine ⟨hsame, ?_, hplaced'⟩
        rw [if_neg, howner]
        intro heq
        rw [heq, hgroup] at howner
        cases howner
    owners := fun group tablet howner => by
      rw [find?_insert] at howner
      rw [find?_insert]
      split_ifs at howner with hkey
      · obtain rfl := some.inj howner
        subst hkey
        rw [if_pos rfl]
      · have hbound := hs.owners group tablet howner
        rw [if_neg, hbound]
        intro heq
        rw [heq, htablet] at hbound
        cases hbound }

variable {call : MetadataCall}

/-- **Every effect keeps the laws.** -/
lemma Consistent.change (hs : Consistent s) (hchange : Change s call s') :
    Consistent s' := by
  cases hchange with
  | node | retention | policy | schema => exact { hs with }
  | tablet value => exact hs.place (sortReplicas value)
  | repeated | rebound | noop => exact hs
  | definition definition _ hnew hadmits => exact hs.define hnew hadmits
  | binding binding hplaced htablet hgroup => exact hs.bind hplaced htablet hgroup

/-- Every effect keeps the identities of the defined schemas, if it keeps their versions. -/
lemma Agrees.change (hs : Agrees s) (hkept : VersionKept s call)
    (hfollows : s.follows call.index = true) (hchange : Change s call s') : Agrees s' := by
  cases hchange with
  | node | retention | policy | tablet | binding => exact hs
  | repeated | rebound | noop => exact hs
  | schema value hsame =>
    intro id definition hdefinition
    obtain ⟨identity, hidentity, htable, hversion⟩ := hs id definition hdefinition
    by_cases hkey : id = value.schemaId
    · subst hkey
      have hvalue := hsame identity hidentity
      rw [htable] at hvalue
      exact ⟨value, by rw [find?_insert, if_pos rfl], hvalue.symm,
        (hkept hfollows definition hdefinition hvalue).symm⟩
    · exact ⟨identity, by rw [find?_insert, if_neg hkey, hidentity], htable, hversion⟩
  | definition definition hidentity hnew =>
    intro id other hother
    rw [define_definitions hnew, find?_insert] at hother
    simp only [MetadataStateMachine.define]
    split_ifs at hother with hkey
    · obtain rfl := some.inj hother
      subst hkey
      split_ifs with hcontains
      · obtain ⟨identity, hfound⟩ := isSome_iff_exists.1 hcontains
        exact ⟨identity, hfound, hidentity identity hfound⟩
      · have habsent : s.schemas.find? definition.schema.schemaId = none := by
          simpa [contains] using hcontains
        refine ⟨⟨definition.schema.tableId, definition.schema.schemaId, definition.schema.version⟩,
          ?_, rfl, rfl⟩
        rw [emplace_of_absent habsent, find?_insert, if_pos rfl]
    · obtain ⟨identity, hfound, hagrees⟩ := hs id other hother
      refine ⟨identity, ?_, hagrees⟩
      split_ifs with hcontains
      · exact hfound
      · have habsent : s.schemas.find? definition.schema.schemaId = none := by
          simpa [contains] using hcontains
        rw [emplace_of_absent habsent, find?_insert, if_neg hkey, hfound]

/-! ### Runs -/

/-- The state after a call. -/
def MetadataStateMachine.step (s : MetadataStateMachine) (call : MetadataCall) :
    MetadataStateMachine := (s.perform call).2

/-- The laws of a single call. -/
structure CallLaws (s : MetadataStateMachine) (call : MetadataCall) : Prop where
  rejected : Result.isOk (s.perform call).1 = false → s.step call = s
  accepted : Result.isOk (s.perform call).1 = true → (s.step call).applied = s.applied + 1
  kept : ∀ tablet before, s.tablets.find? tablet = some before →
    ∃ after, (s.step call).tablets.find? tablet = some after ∧ after.tableId = before.tableId ∧
      (after = before ∨ before.placementEpoch < after.placementEpoch)
  placed : ∀ index value, call = .command index (.tablet value) →
    Result.isOk (s.perform call).1 = true →
    (∃ after, (s.step call).tablets.find? value.tabletId = some after ∧
      after.tableId = value.tableId ∧ after.placementEpoch = value.placementEpoch) ∧
    ∀ before, s.tablets.find? value.tabletId = some before →
      before.placementEpoch < value.placementEpoch

lemma follows_eq {index : ℕ} (hs : s.applied < 2 ^ 64) (hfollows : s.follows index = true) :
    index = s.applied + 1 ∧ index < 2 ^ 64 := by
  simp only [follows, ne_eq, decide_not, Bool.and_eq_true, Bool.not_eq_true',
    decide_eq_false_iff_not, decide_eq_true_eq] at hfollows
  omega

/-- The placements after an effect: kept, or one of them advanced. -/
lemma Change.kept (hchange : Change s call s') (tablet : TabletId)
    {before : TabletPlacementMetadata} (hbefore : s.tablets.find? tablet = some before) :
    ∃ after, s'.tablets.find? tablet = some after ∧ after.tableId = before.tableId ∧
      (after = before ∨ before.placementEpoch < after.placementEpoch) := by
  cases hchange with
  | tablet value hadvances =>
    by_cases hkey : tablet = value.tabletId
    · subst hkey
      obtain ⟨htable, hepoch⟩ := hadvances before hbefore
      exact ⟨sortReplicas value, by rw [find?_insert, if_pos rfl], htable.symm, .inr hepoch⟩
    · exact ⟨before, by rw [find?_insert, if_neg hkey, hbefore], rfl, .inl rfl⟩
  | _ => exact ⟨before, hbefore, rfl, .inl rfl⟩

/-- A call keeps its laws in every consistent state. -/
lemma Consistent.callLaws (hs : Consistent s) (call : MetadataCall) : CallLaws s call := by
  rcases perform_spec s call with ⟨_, hperform⟩ | ⟨hfollows, s', hchange, hperform⟩
  · have hstep : s.step call = s := by rw [MetadataStateMachine.step, hperform]
    refine ⟨fun _ => hstep, ?_, ?_, ?_⟩
    · intro hok
      rw [hperform] at hok
      cases hok
    · intro tablet before hbefore
      exact ⟨before, by rw [hstep, hbefore], rfl, .inl rfl⟩
    · intro index value _ hok
      rw [hperform] at hok
      cases hok
  · have hstep : s.step call = { s' with applied := call.index } := by
      rw [MetadataStateMachine.step, hperform]
    refine ⟨?_, ?_, ?_, ?_⟩
    · intro hfailed
      rw [hperform] at hfailed
      cases hfailed
    · rintro -
      rw [hstep]
      exact (follows_eq hs.bounded hfollows).1
    · intro tablet before hbefore
      rw [hstep]
      exact hchange.kept tablet hbefore
    · rintro _ value rfl -
      rw [hstep]
      cases hchange with
      | tablet _ hadvances =>
        exact ⟨⟨sortReplicas value, by rw [find?_insert, if_pos rfl], rfl, rfl⟩,
          fun before hbefore => (hadvances before hbefore).2⟩

/-- **Every call keeps the laws of the state.** -/
lemma Consistent.step (hs : Consistent s) (call : MetadataCall) : Consistent (s.step call) := by
  rcases perform_spec s call with ⟨_, hperform⟩ | ⟨hfollows, _, hchange, hperform⟩
  · rwa [MetadataStateMachine.step, hperform]
  · rw [MetadataStateMachine.step, hperform]
    exact { hs.change hchange with bounded := (follows_eq hs.bounded hfollows).2 }

lemma Agrees.step (hs : Agrees s) (hkept : VersionKept s call) :
    Agrees (s.step call) := by
  rcases perform_spec s call with ⟨_, hperform⟩ | ⟨hfollows, s', hchange, hperform⟩
  · rwa [MetadataStateMachine.step, hperform]
  · rw [MetadataStateMachine.step, hperform]
    have hs' : Agrees s' := hs.change hkept hfollows hchange
    exact hs'

/-- No table of the empty state has a definition. -/
lemma definitionChain_nil (table : TableId) : DefinitionChain .empty table [] where
  complete _ := by simp [empty, find?]
  versions _ _ h := by simp at h
  successors _ _ _ h := by simp at h
  named _ h := by simp at h

/-- The empty state satisfies every law. -/
lemma create_consistent {limits : MetadataLimits}
    (hcreate : create limits = .ok s) : Consistent s ∧ Agrees s := by
  rw [create] at hcreate
  split at hcreate
  · cases hcreate
  cases hcreate
  refine ⟨⟨Nat.two_pow_pos 64, ?_, fun table => ⟨[], definitionChain_nil table, rfl⟩, ?_, ?_, ?_⟩,
    ?_⟩
  · rintro _ _ ⟨⟩
  · rintro _ _ _ _ ⟨⟩
  · rintro _ _ ⟨⟩
  · rintro _ _ ⟨⟩
  · rintro _ _ ⟨⟩

/-- **The metadata state stays consistent.**  After any calls on an empty state, in any order and
with any contents, the laws of the state hold and every further call keeps its own laws; the
identity entries agree with the definitions as long as no accepted command gives a defined schema
another version. -/
theorem metadata_state_stays_consistent {limits : MetadataLimits} {start : MetadataStateMachine}
    (hcreate : MetadataStateMachine.create limits = .ok start) (calls : List MetadataCall) :
    Consistent (calls.foldl MetadataStateMachine.step start) ∧
      (Along MetadataStateMachine.step VersionKept start calls →
        Agrees (calls.foldl MetadataStateMachine.step start)) ∧
      ∀ call, CallLaws (calls.foldl MetadataStateMachine.step start) call := by
  obtain ⟨hconsistent, hagrees⟩ := create_consistent hcreate
  have hall := calls.foldlRecOn _ hconsistent fun _ hs call _ => hs.step call
  exact ⟨hall, fun hkept => hkept.invariant Agrees (fun _ _ hs => hs.step) hagrees, hall.callLaws⟩

/-! ### A version that changes under its definition -/

/-- The time column of the sample table. -/
def sampleColumn : Schema.ColumnDefinition :=
  ⟨3, "at", ⟨.timestampNs, 0, 0⟩, false, rfl⟩

/-- A schema of one column. -/
def sampleSchema : TableSchema :=
  ⟨1, 2, 1, none, [sampleColumn],
    ⟨sampleColumn.id, [sampleColumn.id], [sampleColumn.id], [sampleColumn.id], []⟩, rfl⟩

/-- The definition of the sample table, named `t`. -/
def sampleDefinition : CatalogTableDefinition := ⟨[0x74], false, sampleSchema⟩

/-- The sample definition, then the identity command of its schema with a version. -/
def sampleCalls (version : ℕ) : List MetadataCall :=
  [.definition 1 (some sampleDefinition),
    .command 2 (.schema ⟨sampleSchema.tableId, sampleSchema.schemaId, version⟩)]

/-- A definition and a later command with its version leave both in agreement. -/
theorem metadata_state_stays_consistent_sample :
    Along MetadataStateMachine.step VersionKept { limits := {} } (sampleCalls 1) ∧
      ((sampleCalls 1).foldl MetadataStateMachine.step { limits := {} }).applied = 2 ∧
      Agrees ((sampleCalls 1).foldl MetadataStateMachine.step { limits := {} }) :=
  ⟨by decide, by decide, (metadata_state_stays_consistent (show create {} = .ok _ from rfl)
      (sampleCalls 1)).2.1 (by decide)⟩

/-- A command with another version of the defined schema is accepted, and the identity entry of
the schema then disagrees with its definition. -/
theorem schema_version_overwritten :
    ((sampleCalls 7).foldl MetadataStateMachine.step { limits := {} }).applied = 2 ∧
      ¬ Agrees ((sampleCalls 7).foldl MetadataStateMachine.step { limits := {} }) := by
  refine ⟨by decide, fun hagrees => ?_⟩
  obtain ⟨_, hidentity, -, hversion⟩ :=
    hagrees sampleSchema.schemaId sampleDefinition (by decide)
  have hfound : ((sampleCalls 7).foldl MetadataStateMachine.step { limits := {} }).schemas.find?
      sampleSchema.schemaId = some ⟨sampleSchema.tableId, sampleSchema.schemaId, 7⟩ := by decide
  rw [hfound] at hidentity
  obtain rfl := some.inj hidentity
  exact absurd hversion (by decide)

end Chronos.Metadata
