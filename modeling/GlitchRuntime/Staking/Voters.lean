import GlitchRuntime.Lib.CountedMap
import GlitchRuntime.Staking.Unlocking

/-! # Roles in every run

A voter is a validator or a nominator, never both, and is bonded. The list of voters has exactly the
voters, and the counters of the two roles are right about them.
-/

namespace GlitchRuntime.Staking

open Lib

variable {Account : Type} [DecidableEq Account] {config : Config Account}

/-- The sets of validators and of nominators that a state stands for. -/
structure Voters (state : RoleState config) (validators nominators : Finset Account) : Prop where
  validating : Counted state.validators state.counterForValidators validators
  nominating : Counted state.nominations state.counterForNominators nominators
  flags : ∀ who, state.nominators who = (state.nominations who).isSome
  apart : Disjoint validators nominators
  listed : state.voterList = validators ∪ nominators

namespace Voters

variable {state : RoleState config} {validators nominators : Finset Account}

/-- A stash that is no nominator any more. -/
theorem removeNominator (voters : Voters state validators nominators) (who : Account) :
    Voters (doRemoveNominator state who) validators (nominators.erase who) := by
  unfold doRemoveNominator
  have named := voters.nominating.mem who
  have apart : Disjoint validators (nominators.erase who) :=
    voters.apart.mono_right (Finset.erase_subset _ _)
  split_ifs with present
  · refine ⟨voters.validating, voters.nominating.remove present, fun other => ?_, apart, ?_⟩
    · change Function.update state.nominators who false other =
        (Function.update state.nominations who none other).isSome
      rw [Function.update_apply, Function.update_apply]
      split_ifs
      · rfl
      · exact voters.flags other
    · change state.voterList.erase who = _
      have outside : who ∉ validators := Finset.disjoint_right.mp voters.apart (named.mp present)
      rw [voters.listed, Finset.erase_union_distrib, Finset.erase_eq_of_notMem outside]
  · have missing : nominators.erase who = nominators :=
      Finset.erase_eq_of_notMem fun member => present (named.mpr member)
    rw [missing]
    exact voters

/-- A stash that is no validator any more. -/
theorem removeValidator (voters : Voters state validators nominators) (who : Account) :
    Voters (doRemoveValidator state who) (validators.erase who) nominators := by
  unfold doRemoveValidator
  have named := voters.validating.mem who
  have apart : Disjoint (validators.erase who) nominators :=
    voters.apart.mono_left (Finset.erase_subset _ _)
  split_ifs with present
  · refine ⟨voters.validating.remove present, voters.nominating, voters.flags, apart, ?_⟩
    change state.voterList.erase who = _
    have outside : who ∉ nominators := Finset.disjoint_left.mp voters.apart (named.mp present)
    rw [voters.listed, Finset.erase_union_distrib, Finset.erase_eq_of_notMem outside]
  · have missing : validators.erase who = validators :=
      Finset.erase_eq_of_notMem fun member => present (named.mpr member)
    rw [missing]
    exact voters

/-- A stash that nominates, and does not validate. -/
theorem addNominator (voters : Voters state validators nominators) {who : Account}
    (apart : who ∉ validators) (nominations : Nominations Account) :
    Voters (doAddNominator state who nominations) validators (insert who nominators) := by
  unfold doAddNominator
  have named := voters.nominating.mem who
  have flags : ∀ other, Function.update state.nominators who true other =
      (Function.update state.nominations who (some nominations) other).isSome := by
    intro other
    rw [Function.update_apply, Function.update_apply]
    split_ifs
    · rfl
    · exact voters.flags other
  have disjoint : Disjoint validators (insert who nominators) :=
    Finset.disjoint_insert_right.mpr ⟨apart, voters.apart⟩
  dsimp only
  split_ifs with present
  · have inside := Finset.insert_eq_of_mem (named.mp present)
    refine ⟨voters.validating, ?_, flags, disjoint, ?_⟩
    · rw [inside]
      exact voters.nominating.overwrite present nominations
    · rw [inside]
      exact voters.listed
  · refine ⟨voters.validating, voters.nominating.insert_new present nominations, flags, disjoint,
      ?_⟩
    change insert who state.voterList = _
    rw [voters.listed, Finset.union_insert]

/-- A stash that validates, and does not nominate. -/
theorem addValidator (voters : Voters state validators nominators) {who : Account}
    (apart : who ∉ nominators) (prefs : ValidatorPrefs) :
    Voters (doAddValidator state who prefs) (insert who validators) nominators := by
  unfold doAddValidator
  have named := voters.validating.mem who
  have disjoint : Disjoint (insert who validators) nominators :=
    Finset.disjoint_insert_left.mpr ⟨apart, voters.apart⟩
  dsimp only
  split_ifs with present
  · have inside := Finset.insert_eq_of_mem (named.mp present)
    refine ⟨?_, voters.nominating, voters.flags, disjoint, ?_⟩
    · rw [inside]
      exact voters.validating.overwrite present prefs
    · rw [inside]
      exact voters.listed
  · refine ⟨voters.validating.insert_new present prefs, voters.nominating, voters.flags, disjoint,
      ?_⟩
    change insert who state.voterList = _
    rw [voters.listed, Finset.insert_union]

theorem chill (voters : Voters state validators nominators) (stash : Account) :
    Voters (chillStash state stash) (validators.erase stash) (nominators.erase stash) :=
  (voters.removeValidator stash).removeNominator stash

/-- The same roles with other preferences and targets. -/
theorem congr (voters : Voters state validators nominators) {after : RoleState config}
    (same : ∀ who, (after.validators who).isSome = (state.validators who).isSome)
    (named : ∀ who, (after.nominations who).isSome = (state.nominations who).isSome)
    (flags : ∀ who, after.nominators who = (after.nominations who).isSome)
    (listed : after.voterList = state.voterList)
    (counterForValidators : after.counterForValidators = state.counterForValidators)
    (counterForNominators : after.counterForNominators = state.counterForNominators) :
    Voters after validators nominators := by
  refine ⟨?_, ?_, flags, voters.apart, listed.trans voters.listed⟩
  · rw [counterForValidators]
    exact voters.validating.congr same
  · rw [counterForNominators]
    exact voters.nominating.congr named

/-- A voter has one role, and the list has the voters. -/
theorem mem_voterList (voters : Voters state validators nominators) (who : Account) :
    who ∈ state.voterList ↔ (state.validators who).isSome ∨ (state.nominations who).isSome := by
  rw [voters.listed, Finset.mem_union, voters.validating.mem, voters.nominating.mem]

theorem one_role (voters : Voters state validators nominators) (who : Account) :
    ¬ ((state.validators who).isSome ∧ (state.nominations who).isSome) := by
  rw [voters.validating.mem, voters.nominating.mem]
  exact fun both => Finset.disjoint_left.mp voters.apart both.1 both.2

theorem card_voterList (voters : Voters state validators nominators) :
    state.voterList.card = state.counterForValidators + state.counterForNominators := by
  rw [voters.listed, Finset.card_union_of_disjoint voters.apart, voters.validating.card,
    voters.nominating.card]

end Voters

/-! ## What a step does to roles -/

/-- Roles and the bonds they need are as they were, and no bond is gone. -/
structure SameRoles (before after : RoleState config) : Prop where
  bonded : ∀ who, (before.bonded who).isSome → (after.bonded who).isSome
  validators : after.validators = before.validators
  nominators : after.nominators = before.nominators
  minNominatorBond : after.minNominatorBond = before.minNominatorBond
  minValidatorBond : after.minValidatorBond = before.minValidatorBond
  nominations : after.nominations = before.nominations
  voterList : after.voterList = before.voterList
  counterForValidators : after.counterForValidators = before.counterForValidators
  counterForNominators : after.counterForNominators = before.counterForNominators

namespace SameRoles

/-- What a call on the staking storage keeps. -/
theorem of_chain {state : RoleState config} {chain : State config}
    (bonded : ∀ who, (state.bonded who).isSome → (chain.bonded who).isSome)
    (validators : chain.validators = state.validators)
    (nominators : chain.nominators = state.nominators)
    (minNominatorBond : chain.minNominatorBond = state.minNominatorBond)
    (minValidatorBond : chain.minValidatorBond = state.minValidatorBond) :
    SameRoles state { state with toState := chain } :=
  ⟨bonded, validators, nominators, minNominatorBond, minValidatorBond, rfl, rfl, rfl, rfl⟩

theorem refl (state : RoleState config) : SameRoles state state :=
  .of_chain (fun _ bonded => bonded) rfl rfl rfl rfl

theorem of_grows {state : RoleState config} {chain : State config}
    (grows : Grows state.toStakerStorage chain.toStakerStorage) :
    SameRoles state { state with toState := chain } := by
  refine .of_chain (fun who bonded => ?_) grows.validators grows.nominators
    grows.minNominatorBond grows.minValidatorBond
  rw [grows.bonded]
  exact bonded

end SameRoles

/-- A bond that moves to a controller is no less a bond. -/
theorem isSome_update {bonded : Account → Option Account} {stash controller who : Account}
    (present : (bonded who).isSome) :
    (Function.update bonded stash (some controller) who).isSome := by
  rw [Function.update_apply]
  split_ifs
  · rfl
  · exact present

theorem bond_sameRoles {state : RoleState config} {chain : State config}
    {stash controller : Account} {value : ℕ} {payee : RewardDestination Account}
    (success : bond state.toState stash controller value payee = .ok chain) :
    SameRoles state { state with toState := chain } := by
  simp only [bond, bind_eq_ok, ensure_eq_ok, okOr_eq_ok, pure_eq_ok] at success
  obtain ⟨_, _, _, _, _, _, store, _, rfl⟩ := success
  exact .of_chain (fun _ present => isSome_update present) rfl rfl rfl rfl

theorem bondExtra_sameRoles {state : RoleState config} {chain : State config} {stash : Account}
    {maxAdditional : ℕ} (success : bondExtra state.toState stash maxAdditional = .ok chain) :
    SameRoles state { state with toState := chain } := by
  simp only [bondExtra, bind_eq_ok, okOr_eq_ok] at success
  obtain ⟨controller, _, ledger, _, success⟩ := success
  split_ifs at success
  · simp only [bind_eq_ok, pure_eq_ok] at success
    obtain ⟨_, _, rfl⟩ := success
    exact .of_chain (fun _ present => present) rfl rfl rfl rfl
  · obtain rfl := pure_eq_ok.mp success
    exact .refl state

theorem unbond_sameRoles {state : RoleState config} {chain : State config} {controller : Account}
    {value : ℕ} (success : unbond state.toState controller value = .ok chain) :
    SameRoles state { state with toState := chain } := by
  obtain ⟨old, _, rfl | ⟨_, _, _, _, _, _, _, rfl⟩⟩ := unbond_cases success
  · exact .refl state
  · exact .of_chain (fun _ present => present) rfl rfl rfl rfl

theorem setController_sameRoles {state : RoleState config} {chain : State config}
    {stash controller : Account}
    (success : setController state.toState stash controller = .ok chain) :
    SameRoles state { state with toState := chain } := by
  simp only [setController, bind_eq_ok, okOr_eq_ok] at success
  obtain ⟨old, _, _, _, success⟩ := success
  split_ifs at success
  · obtain rfl := pure_eq_ok.mp success
    exact .refl state
  · obtain rfl := pure_eq_ok.mp success
    split <;> exact .of_chain (fun _ present => isSome_update present) rfl rfl rfl rfl

theorem rebondStaker_sameRoles {state after : RoleState config} {controller : Account} {value : ℕ}
    (success : rebondStaker state controller value = .ok after) : SameRoles state after := by
  simp only [rebondStaker, rebond, bind_eq_ok, pure_eq_ok] at success
  obtain ⟨_, ⟨_, _, _, _, _, _, rfl⟩, rfl⟩ := success
  exact .of_chain (fun _ present => present) rfl rfl rfl rfl

theorem setPayee_sameRoles {state after : RoleState config} {controller : Account}
    {payee : RewardDestination Account} (success : setPayee state controller payee = .ok after) :
    SameRoles state after := by
  simp only [setPayee, bind_eq_ok, pure_eq_ok] at success
  obtain ⟨_, _, rfl⟩ := success
  exact .of_chain (fun _ present => present) rfl rfl rfl rfl

/-- The same voters, with other preferences or targets. -/
structure SameVoters (before after : RoleState config) : Prop where
  only : OnlyRoles before after
  validators : ∀ who, (after.validators who).isSome = (before.validators who).isSome
  nominations : ∀ who, (after.nominations who).isSome = (before.nominations who).isSome
  nominators : after.nominators = before.nominators
  voterList : after.voterList = before.voterList
  counterForValidators : after.counterForValidators = before.counterForValidators
  counterForNominators : after.counterForNominators = before.counterForNominators

theorem SameVoters.refl (state : RoleState config) : SameVoters state state :=
  ⟨.refl state, fun _ => rfl, fun _ => rfl, rfl, rfl, rfl, rfl⟩

theorem SameVoters.trans {first second third : RoleState config} (left : SameVoters first second)
    (right : SameVoters second third) : SameVoters first third where
  only := left.only.trans right.only
  validators who := (right.validators who).trans (left.validators who)
  nominations who := (right.nominations who).trans (left.nominations who)
  nominators := right.nominators.trans left.nominators
  voterList := right.voterList.trans left.voterList
  counterForValidators := right.counterForValidators.trans left.counterForValidators
  counterForNominators := right.counterForNominators.trans left.counterForNominators

/-- A kicked nominator stays a nominator. -/
theorem kickOne_sameVoters (state : RoleState config) (stash nominator : Account) :
    SameVoters state (kickOne state stash nominator) := by
  refine ⟨⟨rfl, rfl, rfl, rfl, rfl⟩, fun _ => rfl, fun who => ?_, rfl, rfl, rfl, rfl⟩
  change (Function.update state.nominations nominator _ who).isSome = _
  rw [Function.update_apply]
  split_ifs with same
  · rw [same, Option.isSome_map]
  · rfl

theorem kick_sameVoters {state after : RoleState config} {controller : Account}
    {who : List Account} (success : kick state controller who = .ok after) :
    SameVoters state after := by
  simp only [kick, bind_eq_ok, pure_eq_ok] at success
  obtain ⟨ledger, _, rfl⟩ := success
  have each : ∀ (who : List Account) (state : RoleState config), SameVoters state
      (who.foldl (fun state nominator => kickOne state ledger.stash nominator) state) := by
    intro who
    induction who with
    | nil => exact .refl
    | cons nominator rest ih =>
      exact fun state => (kickOne_sameVoters state ledger.stash nominator).trans (ih _)
  exact each who state

theorem forceApplyMinCommission_sameVoters {state after : RoleState config} {stash : Account}
    (success : forceApplyMinCommission state stash = .ok after) : SameVoters state after := by
  simp only [forceApplyMinCommission, bind_eq_ok, okOr_eq_ok, pure_eq_ok] at success
  obtain ⟨prefs, present, rfl⟩ := success
  refine ⟨⟨rfl, rfl, rfl, rfl, rfl⟩, fun who => ?_, fun _ => rfl, rfl, rfl, rfl, rfl⟩
  change (Function.update state.validators stash _ who).isSome = _
  by_cases same : who = stash
  · rw [same, Function.update_self, present]
    rfl
  · rw [Function.update_of_ne same]

theorem slashStaker_sameRoles {config : SlashConfig Account} (state : RoleState config.toConfig)
    (slashEra : ℕ) (entry : Account × ℕ) :
    SameRoles state (slashStaker state slashEra entry) := by
  unfold slashStaker
  split
  · exact .refl state
  · split
    · exact .refl state
    · dsimp only
      split_ifs
      · exact .refl state
      · exact .of_chain (fun _ bonded => bonded) rfl rfl rfl rfl

/-- Everything a step may do to roles. -/
inductive RoleMove {config : SlashConfig Account} (before : RoleState config.toConfig) :
    StakerCall config → RoleState config.toConfig → Prop
  | same {call : StakerCall config} {after : RoleState config.toConfig}
      (roles : SameRoles before after) : RoleMove before call after
  | keeps {call : StakerCall config} {after : RoleState config.toConfig}
      (voters : SameVoters before after) : RoleMove before call after
  | validates {controller : Account} {ledger : StakingLedger Account} {prefs : ValidatorPrefs}
      (present : before.ledger controller = some ledger)
      (enough : before.minValidatorBond ≤ ledger.active) :
      RoleMove before (.validate controller prefs)
        (doAddValidator (doRemoveNominator before ledger.stash) ledger.stash prefs)
  | nominates {controller : Account} {ledger : StakingLedger Account} {targets : List Account}
      {nominations : Nominations Account} (present : before.ledger controller = some ledger)
      (enough : before.minNominatorBond ≤ ledger.active) :
      RoleMove before (.nominate controller targets)
        (doAddNominator (doRemoveValidator before ledger.stash) ledger.stash nominations)
  | chills {call : StakerCall config} (stash : Account) :
      RoleMove before call (chillStash before stash)
  | kills {call : StakerCall config} {after : RoleState config.toConfig} {stash : Account}
      {spans : ℕ} (killed : killStaker before stash spans = .ok after) :
      RoleMove before call after
  | configures {minNominatorBond minValidatorBond maxNominatorsCount
      maxValidatorsCount : ConfigOp ℕ} {chillThreshold : ConfigOp Percent}
      {minCommission : ConfigOp Perbill} :
      RoleMove before (.setStakingConfigs minNominatorBond minValidatorBond maxNominatorsCount
          maxValidatorsCount chillThreshold minCommission)
        (setStakingConfigs before minNominatorBond minValidatorBond maxNominatorsCount
          maxValidatorsCount chillThreshold minCommission)

/-- The one inversion of a step for roles. -/
theorem stakerStep_roles {config : SlashConfig Account} {state after : RoleState config.toConfig}
    {call : StakerCall config} {out : List (StakeReceipt Account)}
    (taken : stakerStep state call = .ok (after, out)) : RoleMove state call after := by
  cases call with
  | chain call =>
    simp only [stakerStep, chainStep] at taken
    split_ifs at taken with chain
    split at taken
    · next success =>
      obtain ⟨rfl, rfl⟩ := Prod.mk.inj (Except.ok.inj taken)
      exact .same (.of_grows (chain_grows chain success).1)
    · contradiction
  | bond stash controller value payee =>
    obtain ⟨chain, success, rfl⟩ := onStaking_eq_ok.mp (quietly_eq_ok.mp taken).1
    exact .same (bond_sameRoles success)
  | bondExtra stash maxAdditional =>
    obtain ⟨chain, success, rfl⟩ := onStaking_eq_ok.mp (quietly_eq_ok.mp taken).1
    exact .same (bondExtra_sameRoles success)
  | unbond controller value =>
    obtain ⟨_, unbonded, result⟩ := bind_eq_ok.mp (reporting_eq_ok.mp taken)
    obtain ⟨chain, success, rfl⟩ := onStaking_eq_ok.mp unbonded
    obtain ⟨rfl, -⟩ := Prod.mk.inj (pure_eq_ok.mp result)
    exact .same (unbond_sameRoles success)
  | rebond controller value => exact .same (rebondStaker_sameRoles (quietly_eq_ok.mp taken).1)
  | withdrawUnbonded controller spans =>
    obtain ⟨old, present, success⟩ := bind_eq_ok.mp (reporting_eq_ok.mp taken)
    dsimp only at success
    split_ifs at success
    · obtain ⟨done, killed, result⟩ := bind_eq_ok.mp success
      obtain ⟨rfl, -⟩ := Prod.mk.inj (pure_eq_ok.mp result)
      exact .kills killed
    · obtain ⟨rfl, -⟩ := Prod.mk.inj (Except.ok.inj success)
      exact .same (.of_chain (fun _ bonded => bonded) rfl rfl rfl rfl)
  | setController stash controller =>
    obtain ⟨chain, success, rfl⟩ := onStaking_eq_ok.mp (quietly_eq_ok.mp taken).1
    exact .same (setController_sameRoles success)
  | setPayee controller payee => exact .same (setPayee_sameRoles (quietly_eq_ok.mp taken).1)
  | reapStash stash spans => exact .kills (reapStaker_kills (quietly_eq_ok.mp taken).1)
  | forceUnstake stash spans => exact .kills (quietly_eq_ok.mp taken).1
  | validate controller prefs =>
    have success := (quietly_eq_ok.mp taken).1
    simp only [validate, ledgerOf, bind_eq_ok, okOr_eq_ok, ensure_eq_ok, pure_eq_ok] at success
    obtain ⟨ledger, present, _, enough, _, _, _, _, rfl⟩ := success
    exact .validates present enough
  | nominate controller targets =>
    have success := (quietly_eq_ok.mp taken).1
    simp only [nominate, ledgerOf, bind_eq_ok, okOr_eq_ok, ensure_eq_ok, pure_eq_ok] at success
    obtain ⟨ledger, present, _, enough, _, _, _, _, _, _, _, _, rfl⟩ := success
    exact .nominates present enough
  | chill controller =>
    obtain ⟨ledger, -, rfl⟩ := chill_chills (quietly_eq_ok.mp taken).1
    exact .chills ledger.stash
  | chillOther caller controller =>
    obtain ⟨ledger, -, rfl⟩ := chillOther_chills (quietly_eq_ok.mp taken).1
    exact .chills ledger.stash
  | kick controller who => exact .keeps (kick_sameVoters (quietly_eq_ok.mp taken).1)
  | forceApplyMinCommission stash =>
    exact .keeps (forceApplyMinCommission_sameVoters (quietly_eq_ok.mp taken).1)
  | setStakingConfigs _ _ _ _ _ _ =>
    obtain ⟨rfl, -⟩ := Prod.mk.inj (Except.ok.inj taken)
    exact .configures
  | slash slashEra entry =>
    obtain ⟨rfl, -⟩ := Prod.mk.inj (Except.ok.inj taken)
    exact .same (slashStaker_sameRoles state slashEra entry)
  | chillOffender stash =>
    obtain ⟨rfl, -⟩ := Prod.mk.inj (Except.ok.inj taken)
    exact .chills stash
  | outside store slashingSpans =>
    obtain ⟨rfl, -⟩ := Prod.mk.inj (Except.ok.inj taken)
    exact .same (.of_chain (fun _ bonded => bonded) rfl rfl rfl rfl)

/-! ## Every run -/

variable {config : SlashConfig Account}

/-- The roles of a state are counted, and everyone with a role is bonded. -/
structure RolesSound (state : RoleState config.toConfig) : Prop where
  ledgers : LedgersSound state
  voters : ∃ validators nominators, Voters state validators nominators
  bonded : ∀ who, (state.validators who).isSome ∨ (state.nominations who).isSome →
    (state.bonded who).isSome

theorem LedgersSound.bonded_of_ledger {state : RoleState config.toConfig}
    (holds : LedgersSound state) {controller : Account} {ledger : StakingLedger Account}
    (present : state.ledger controller = some ledger) : (state.bonded ledger.stash).isSome := by
  rw [(holds.paired ledger.stash controller).mpr (owner_of_ledger present)]
  rfl

omit [DecidableEq Account] in
private theorem eq_none_of_absent {α : Type} {map : Account → Option α} {key : Account}
    (absent : ¬ (map key).isSome) : map key = none := by simpa using absent

theorem doRemoveValidator_validators {base : Config Account} (state : RoleState base)
    (who : Account) :
    (doRemoveValidator state who).validators = Function.update state.validators who none := by
  unfold doRemoveValidator
  split_ifs with present
  · rfl
  · rw [← eq_none_of_absent present, Function.update_eq_self]

theorem doRemoveValidator_nominations {base : Config Account} (state : RoleState base)
    (who : Account) : (doRemoveValidator state who).nominations = state.nominations := by
  unfold doRemoveValidator
  split_ifs <;> rfl

theorem doRemoveNominator_nominations {base : Config Account} (state : RoleState base)
    (who : Account) :
    (doRemoveNominator state who).nominations = Function.update state.nominations who none := by
  unfold doRemoveNominator
  split_ifs with present
  · rfl
  · rw [← eq_none_of_absent present, Function.update_eq_self]

theorem doRemoveNominator_validators {base : Config Account} (state : RoleState base)
    (who : Account) : (doRemoveNominator state who).validators = state.validators := by
  unfold doRemoveNominator
  split_ifs <;> rfl

/-- A validator has its preferences and no nominations. -/
theorem validates_roles {base : Config Account} (state : RoleState base) (who : Account)
    (prefs : ValidatorPrefs) :
    (doAddValidator (doRemoveNominator state who) who prefs).validators =
        Function.update state.validators who (some prefs) ∧
      (doAddValidator (doRemoveNominator state who) who prefs).nominations =
        Function.update state.nominations who none := by
  rw [← doRemoveNominator_nominations, ← doRemoveNominator_validators state who]
  unfold doAddValidator
  dsimp only
  split_ifs <;> exact ⟨rfl, rfl⟩

/-- A nominator has its nominations and no preferences. -/
theorem nominates_roles {base : Config Account} (state : RoleState base) (who : Account)
    (nominations : Nominations Account) :
    (doAddNominator (doRemoveValidator state who) who nominations).validators =
        Function.update state.validators who none ∧
      (doAddNominator (doRemoveValidator state who) who nominations).nominations =
        Function.update state.nominations who (some nominations) := by
  rw [← doRemoveValidator_validators, ← doRemoveValidator_nominations state who]
  unfold doAddNominator
  dsimp only
  split_ifs <;> exact ⟨rfl, rfl⟩

/-- A chilled stash has no role, and the others keep theirs. -/
theorem chillStash_roles {base : Config Account} (state : RoleState base) (stash : Account) :
    (chillStash state stash).validators = Function.update state.validators stash none ∧
      (chillStash state stash).nominations = Function.update state.nominations stash none := by
  unfold chillStash
  rw [doRemoveNominator_validators, doRemoveValidator_validators, doRemoveNominator_nominations,
    doRemoveValidator_nominations]
  exact ⟨rfl, rfl⟩

/-- A stash that is removed loses its role and its bond, and the roles that are left are those of
the chilled stash. -/
theorem killStaker_roles {before after : RoleState config.toConfig} {stash : Account} {spans : ℕ}
    (killed : killStaker before stash spans = .ok after) :
    after.bonded = Function.update before.bonded stash none ∧
      after.validators = Function.update before.validators stash none ∧
      after.nominators = Function.update before.nominators stash false ∧
      after.nominations = Function.update before.nominations stash none ∧
      after.minNominatorBond = before.minNominatorBond ∧
      after.minValidatorBond = before.minValidatorBond ∧
      after.voterList = (chillStash before stash).voterList ∧
      after.counterForValidators = (chillStash before stash).counterForValidators ∧
      after.counterForNominators = (chillStash before stash).counterForNominators := by
  simp only [killStaker, bind_eq_ok, onStaking_eq_ok, pure_eq_ok] at killed
  obtain ⟨_, ⟨chain, killed, rfl⟩, rfl⟩ := killed
  obtain ⟨-, controller, spans, _, stakers⟩ := killAndUnlock_stakers killed
  have nominator : chain.minNominatorBond = before.minNominatorBond := by rw [stakers]
  have validator : chain.minValidatorBond = before.minValidatorBond := by rw [stakers]
  refine ⟨congrArg StakerStorage.bonded stakers, congrArg StakerStorage.validators stakers,
    congrArg StakerStorage.nominators stakers, (chillStash_roles before stash).2,
    nominator, validator, rfl, rfl, rfl⟩

namespace RolesSound

variable {before after : RoleState config.toConfig}

theorem initial {state : RoleState config.toConfig} (initial : RoleState.Initial state) :
    RolesSound state where
  ledgers := .initial initial
  voters := by
    refine ⟨∅, ∅, ⟨?_, ?_, ?_, Finset.disjoint_empty_left _, ?_⟩⟩
    · rw [initial.counterForValidators]
      exact Counted.empty.congr fun who => by rw [initial.validators]
    · rw [initial.counterForNominators]
      exact Counted.empty.congr fun who => by rw [initial.nominations]
    · intro who
      rw [initial.nominators, initial.nominations]
      rfl
    · exact initial.voterList
  bonded who role := by
    rw [initial.validators, initial.nominations] at role
    simp at role

theorem step_voters (holds : RolesSound before) {call : StakerCall config}
    (move : RoleMove before call after) :
    ∃ validators nominators, Voters after validators nominators := by
  obtain ⟨validators, nominators, voters⟩ := holds.voters
  cases move with
  | same roles =>
    refine ⟨validators, nominators, voters.congr (fun who => by rw [roles.validators])
      (fun who => by rw [roles.nominations]) (fun who => ?_) roles.voterList
      roles.counterForValidators roles.counterForNominators⟩
    rw [roles.nominators, roles.nominations]
    exact voters.flags who
  | keeps same =>
    refine ⟨validators, nominators, voters.congr same.validators same.nominations (fun who => ?_)
      same.voterList same.counterForValidators same.counterForNominators⟩
    rw [same.nominators, same.nominations]
    exact voters.flags who
  | validates present enough =>
    exact ⟨_, _, (voters.removeNominator _).addValidator (Finset.notMem_erase _ _) _⟩
  | nominates present enough =>
    exact ⟨_, _, (voters.removeValidator _).addNominator (Finset.notMem_erase _ _) _⟩
  | chills stash => exact ⟨_, _, voters.chill stash⟩
  | @kills call after stash spans killed =>
    obtain ⟨-, validators, nominators, nominations, -, -, list, countV, countN⟩ :=
      killStaker_roles killed
    obtain ⟨validates, nominates⟩ := chillStash_roles before stash
    refine ⟨_, _, (voters.chill stash).congr (fun who => ?_) (fun who => ?_) (fun who => ?_) list
      countV countN⟩
    · rw [validators, validates]
    · rw [nominations, nominates]
    · rw [nominators, nominations, Function.update_apply, Function.update_apply]
      split_ifs
      · rfl
      · exact voters.flags who
  | configures => exact ⟨validators, nominators, voters.congr (fun _ => rfl) (fun _ => rfl)
      voters.flags rfl rfl rfl⟩

/-- A role is given only to a stash with a ledger, and goes with the bond. -/
theorem step_bonded (holds : RolesSound before) {call : StakerCall config}
    (move : RoleMove before call after) (who : Account)
    (role : (after.validators who).isSome ∨ (after.nominations who).isSome) :
    (after.bonded who).isSome := by
  have old := holds.bonded who
  cases move with
  | same roles =>
    rw [roles.validators, roles.nominations] at role
    exact roles.bonded who (old role)
  | keeps same =>
    rw [same.validators, same.nominations] at role
    rw [same.only.bonded]
    exact old role
  | @validates controller ledger prefs present enough =>
    obtain ⟨validates, nominates⟩ := validates_roles before ledger.stash prefs
    rw [validates, nominates, Function.update_apply, Function.update_apply] at role
    rw [(doAddValidator_onlyRoles _ ledger.stash prefs).bonded,
      (doRemoveNominator_onlyRoles before ledger.stash).bonded]
    split_ifs at role with here
    · rw [here]
      exact holds.ledgers.bonded_of_ledger present
    · exact old role
  | @nominates controller ledger targets nominations present enough =>
    obtain ⟨validates, nominates⟩ := nominates_roles before ledger.stash nominations
    rw [validates, nominates, Function.update_apply, Function.update_apply] at role
    rw [(doAddNominator_onlyRoles _ ledger.stash nominations).bonded,
      (doRemoveValidator_onlyRoles before ledger.stash).bonded]
    split_ifs at role with here
    · rw [here]
      exact holds.ledgers.bonded_of_ledger present
    · exact old role
  | chills stash =>
    obtain ⟨validates, nominates⟩ := chillStash_roles before stash
    rw [validates, nominates, Function.update_apply, Function.update_apply] at role
    rw [(chillStash_onlyRoles before stash).bonded]
    split_ifs at role with gone
    · simp at role
    · exact old role
  | @kills call after stash spans killed =>
    obtain ⟨bonded, validators, -, nominations, -, -, -, -, -⟩ := killStaker_roles killed
    rw [validators, nominations, Function.update_apply, Function.update_apply] at role
    rw [bonded, Function.update_apply]
    split_ifs at role ⊢ with gone
    · simp at role
    · exact old role
  | configures => exact old role

end RolesSound

theorem StakersReachable.rolesSound {state : RoleState config.toConfig}
    {log : List (StakeReceipt Account)} (reachable : StakersReachable state log) :
    RolesSound state := by
  refine Machine.Reachable.invariant (fun state _ => RolesSound state) reachable
    (fun _ initial => .initial initial) ?_
  intro current next log out call holds _ taken
  obtain ⟨advance, moved⟩ := stakerStep_moved taken
  have roles := stakerStep_roles taken
  exact ⟨holds.ledgers.step advance moved, holds.step_voters roles, holds.step_bonded roles⟩

/-- In every run, the list of voters has exactly the validators and the nominators, nobody is both,
every one of them is bonded, and the two counters add up to the length of the list. -/
theorem voters_counted {state : RoleState config.toConfig} {log : List (StakeReceipt Account)}
    (reachable : StakersReachable state log) :
    (∀ who, who ∈ state.voterList ↔
      (state.validators who).isSome ∨ (state.nominations who).isSome) ∧
    (∀ who, ¬ ((state.validators who).isSome ∧ (state.nominations who).isSome)) ∧
    (∀ who ∈ state.voterList, (state.bonded who).isSome) ∧
    state.counterForValidators =
      (state.voterList.filter fun who => (state.validators who).isSome).card ∧
    state.voterList.card = state.counterForValidators + state.counterForNominators := by
  have holds := reachable.rolesSound
  obtain ⟨validators, nominators, voters⟩ := holds.voters
  refine ⟨voters.mem_voterList, voters.one_role, fun who member => ?_, ?_, voters.card_voterList⟩
  · exact holds.bonded who ((voters.mem_voterList who).mp member)
  · rw [voters.validating.card]
    congr 1
    ext who
    rw [Finset.mem_filter, voters.mem_voterList, ← voters.validating.mem]
    exact ⟨fun member => ⟨.inl member, member⟩, fun both => both.2⟩

/-- Three stashes take roles, change them, move to another controller and leave. -/
def changeRoles : List (StakerCall smallSlashConfig) :=
  [.bond 10 20 30 .stash, .bond 11 21 30 .stash, .bond 12 22 30 .stash, .validate 20 ⟨0, false⟩,
    .nominate 21 [10], .validate 22 ⟨0, true⟩, .nominate 22 [10], .kick 20 [21],
    .validate 21 ⟨0, true⟩, .setController 11 31, .forceUnstake 12 0]

theorem changeRoles_counted :
    (stakerOutcome changeRoles).1.voterList = {10, 11} ∧
      (stakerOutcome changeRoles).1.voterList.card =
        (stakerOutcome changeRoles).1.counterForValidators +
          (stakerOutcome changeRoles).1.counterForNominators := by
  have reachable := stakerOutcome_reachable changeRoles (by decide +kernel)
  exact ⟨by decide +kernel, (voters_counted reachable).2.2.2.2⟩

end GlitchRuntime.Staking
