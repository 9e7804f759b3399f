import GlitchRuntime.Staking.Offences

/-! # The system of stakers

Everything that writes the ledgers and the roles of stakers, as one machine: the calls on the bond
and on the roles, payouts, and what an offence does to its stakers. The rest of the chain drives
eras, and may change balances and the number of slashing spans. Amounts that are unbonded and
withdrawn leave receipts.
-/

namespace GlitchRuntime.Staking

open Lib

variable {Account : Type} [DecidableEq Account]

/-- What calls on a ledger report: an amount that began to unlock in an era, or one that left. -/
inductive StakeReceipt (Account : Type)
  | unbonded (stash : Account) (value era : ℕ)
  | withdrawn (stash : Account) (value era : ℕ)
deriving DecidableEq

/-- The ledger with the chunks that are due taken off. -/
def consolidated (currentEra : Option ℕ) (ledger : StakingLedger Account) :
    StakingLedger Account :=
  match currentEra with
  | some currentEra => ledger.consolidateUnlocked currentEra
  | none => ledger

/-- What is reported of taking chunks off a ledger. -/
def withdrawal (currentEra : Option ℕ) (old : StakingLedger Account) :
    List (StakeReceipt Account) :=
  let ledger := consolidated currentEra old
  if ledger.total < old.total then
    [.withdrawn old.stash (old.total - ledger.total) (currentEra.getD 0)]
  else []

/-- A call that leaves roles alone, on the storage with roles. -/
def onStaking {config : Config Account} (state : RoleState config)
    (result : Except Error (State config)) : Except CallError (RoleState config) :=
  match result with
  | .ok after => .ok { state with toState := after }
  | .error error => .error (.staking error)

/-- Remove a stash with its lock and its role. -/
def killStaker {config : Config Account} (state : RoleState config) (stash : Account)
    (numSlashingSpans : ℕ) : Except CallError (RoleState config) := do
  let after ← onStaking state (killAndUnlock state.toState stash numSlashingSpans)
  return { chillStash state stash with toState := after.toState }

section Calls

variable {config : Config Account}

/-- (Re-)set the payment target. -/
def setPayee (state : RoleState config) (controller : Account)
    (payee : RewardDestination Account) : Except CallError (RoleState config) := do
  let ledger ← ledgerOf state controller
  return { state with payee := Function.update state.payee ledger.stash payee }

/-- `withdraw_unbonded`, with the role of a stash that goes. -/
def withdrawStaker (state : RoleState config) (controller : Account) (numSlashingSpans : ℕ) :
    Except CallError (RoleState config × List (StakeReceipt Account)) := do
  let old ← ledgerOf state controller
  let ledger := consolidated state.currentEra old
  let after ←
    if ledger.unlocking = [] ∧ ledger.active < config.currency.minimumBalance then
      killStaker state old.stash numSlashingSpans
    else .ok { state with toState := updateLedger state.toState controller ledger }
  return (after, withdrawal state.currentEra old)

/-- `unbond`, with what it took off the active amount. -/
def unbondStaker (state : RoleState config) (controller : Account) (value : ℕ) :
    Except CallError (RoleState config × List (StakeReceipt Account)) := do
  let after ← onStaking state (unbond state.toState controller value)
  return (after, match state.ledger controller, after.ledger controller with
    | some old, some new =>
      if new.active < old.active then
        [.unbonded old.stash (old.active - new.active) (state.currentEra.getD 0)]
      else []
    | _, _ => [])

/-- `rebond`, on the storage with roles. -/
def rebondStaker (state : RoleState config) (controller : Account) (value : ℕ) :
    Except CallError (RoleState config) := do
  let after ← rebond state.toState controller value
  return { state with toState := after }

/-- `reap_stash`, with the role of the stash. -/
def reapStaker (state : RoleState config) (stash : Account) (numSlashingSpans : ℕ) :
    Except CallError (RoleState config) := do
  match reapable state.toState stash with
  | .error error => .error (.staking error)
  | .ok dust =>
    ensure (dust = true) (.staking .fundedTarget)
    killStaker state stash numSlashingSpans

end Calls

variable {config : SlashConfig Account}

/-- `do_slash`, as far as the ledger and the balance of the stash go. -/
def slashStaker (state : RoleState config.toConfig) (slashEra : ℕ) (entry : Account × ℕ) :
    RoleState config.toConfig :=
  match state.bonded entry.1 with
  | none => state
  | some controller =>
    match state.ledger controller with
    | none => state
    | some ledger =>
      let (ledger, value) := ledger.slash config.arithmetic entry.2 slashEra
      if value = 0 then state
      else
        let (store, _, _) := config.slash state.store entry.1 value
        { state with toState := updateLedger { state.toState with store } controller ledger }

/-- The calls that drive sessions and eras, pay out, or touch no staker. -/
def Call.IsChain {config : Config Account} : Call config → Bool
  | .genesisSession .. | .rotateSession _ | .onFinalize _ | .rewardByIds _ | .setForceEra _
  | .setHistoryDepth _ | .payoutStakers .. | .triger => true
  | _ => false

/-- One step of the chain, as far as stakers see it. -/
inductive StakerCall (config : SlashConfig Account)
  | chain (call : Call config.toConfig)
  | bond (stash controller : Account) (value : ℕ) (payee : RewardDestination Account)
  | bondExtra (stash : Account) (maxAdditional : ℕ)
  | unbond (controller : Account) (value : ℕ)
  | rebond (controller : Account) (value : ℕ)
  | withdrawUnbonded (controller : Account) (numSlashingSpans : ℕ)
  | setController (stash controller : Account)
  | setPayee (controller : Account) (payee : RewardDestination Account)
  | reapStash (stash : Account) (numSlashingSpans : ℕ)
  | forceUnstake (stash : Account) (numSlashingSpans : ℕ)
  | validate (controller : Account) (prefs : ValidatorPrefs)
  | nominate (controller : Account) (targets : List Account)
  | chill (controller : Account)
  | chillOther (caller controller : Account)
  | kick (controller : Account) (who : List Account)
  | forceApplyMinCommission (stash : Account)
  | setStakingConfigs (minNominatorBond minValidatorBond maxNominatorsCount
      maxValidatorsCount : ConfigOp ℕ) (chillThreshold : ConfigOp Percent)
      (minCommission : ConfigOp Perbill)
  /-- What an offence does to a stash whose slash is applied. -/
  | slash (slashEra : ℕ) (entry : Account × ℕ)
  /-- What an offence does to the role of an offender. -/
  | chillOffender (stash : Account)
  /-- Whatever else happens to balances and slashing spans. -/
  | outside (store : config.currency.Store) (slashingSpans : Account → Option ℕ)

/-- Why a step does not happen. -/
inductive StakerRefusal
  | call (error : CallError)
  | chain (refusal : Refusal)
  /-- The chain has no such step. -/
  | misplaced
deriving DecidableEq

/-- What a call leaves behind, if it is not refused. -/
def reporting {α : Type} (result : Except CallError α) : Except StakerRefusal α :=
  result.mapError .call

/-- A call that leaves no receipt. -/
def quietly {config : Config Account} (result : Except CallError (RoleState config)) :
    Except StakerRefusal (RoleState config × List (StakeReceipt Account)) :=
  reporting (result.map (·, []))

/-- A step of the chain that is none of the calls on stakers. -/
def chainStep {config : Config Account} (state : RoleState config) (call : Call config) :
    Except StakerRefusal (RoleState config × List (StakeReceipt Account)) :=
  if call.IsChain then
    match step state.toState call with
    | .ok (after, _) => .ok ({ state with toState := after }, [])
    | .error refusal => .error (.chain refusal)
  else .error .misplaced

/-- One step of the system and the receipts it leaves. -/
def stakerStep (state : RoleState config.toConfig) : StakerCall config →
    Except StakerRefusal (RoleState config.toConfig × List (StakeReceipt Account))
  | .chain call => chainStep state call
  | .bond stash controller value payee =>
    quietly (onStaking state (bond state.toState stash controller value payee))
  | .bondExtra stash maxAdditional =>
    quietly (onStaking state (bondExtra state.toState stash maxAdditional))
  | .unbond controller value => reporting (unbondStaker state controller value)
  | .rebond controller value => quietly (rebondStaker state controller value)
  | .withdrawUnbonded controller spans => reporting (withdrawStaker state controller spans)
  | .setController stash controller =>
    quietly (onStaking state (setController state.toState stash controller))
  | .setPayee controller payee => quietly (setPayee state controller payee)
  | .reapStash stash spans => quietly (reapStaker state stash spans)
  | .forceUnstake stash spans => quietly (killStaker state stash spans)
  | .validate controller prefs => quietly (validate state controller prefs)
  | .nominate controller targets => quietly (nominate state controller targets)
  | .chill controller => quietly (chill state controller)
  | .chillOther caller controller => quietly (chillOther state caller controller)
  | .kick controller who => quietly (kick state controller who)
  | .forceApplyMinCommission stash => quietly (forceApplyMinCommission state stash)
  | .setStakingConfigs minNominatorBond minValidatorBond maxNominatorsCount maxValidatorsCount
      chillThreshold minCommission =>
    .ok (setStakingConfigs state minNominatorBond minValidatorBond maxNominatorsCount
      maxValidatorsCount chillThreshold minCommission, [])
  | .slash slashEra entry => .ok (slashStaker state slashEra entry, [])
  | .chillOffender stash => .ok (chillStash state stash, [])
  | .outside store slashingSpans => .ok ({ state with store, slashingSpans }, [])

/-- The stakers of a chain as a machine. -/
def stakerSystem (config : SlashConfig Account) :
    Machine (RoleState config.toConfig) (StakerCall config) StakerRefusal (StakeReceipt Account) :=
  ⟨stakerStep⟩

/-- No staker yet. The configuration of the pallet may be any. -/
structure RoleState.Initial (state : RoleState config.toConfig) : Prop where
  chain : Staking.Initial state.toState
  validators : ∀ who, state.validators who = none
  nominators : ∀ who, state.nominators who = false
  nominations : ∀ who, state.nominations who = none
  voterList : state.voterList = ∅
  counterForValidators : state.counterForValidators = 0
  counterForNominators : state.counterForNominators = 0

/-- A state of the stakers, with what was unbonded and withdrawn on the way to it. -/
def StakersReachable (state : RoleState config.toConfig) (log : List (StakeReceipt Account)) :
    Prop :=
  (stakerSystem config).Reachable RoleState.Initial (fun _ => True) state log

/-- Applying a slash does to a staker what the system of stakers does. -/
theorem doSlash_toRoleState (state : OffenceState config) (collected : Collected) (slashEra : ℕ)
    (entry : Account × ℕ) :
    (doSlash state collected slashEra entry).1.toRoleState =
      slashStaker state.toRoleState slashEra entry := by
  unfold doSlash slashStaker
  cases state.bonded entry.1 with
  | none => rfl
  | some controller =>
    dsimp only
    cases state.ledger controller with
    | none => rfl
    | some ledger =>
      dsimp only
      split_ifs <;> rfl

/-! ## The small runtime -/

theorem genesisRoles_initial {state : State config.toConfig} (initial : Staking.Initial state)
    (validators : ∀ who, state.validators who = none)
    (nominators : ∀ who, state.nominators who = false) :
    RoleState.Initial (genesisRoles state : RoleState config.toConfig) :=
  ⟨initial, validators, nominators, fun _ => rfl, rfl, rfl, rfl⟩

/-- Where the calls lead, if all of them happen. -/
def stakerOutcome (calls : List (StakerCall smallSlashConfig)) :
    RoleState smallSlashConfig.toConfig × List (StakeReceipt ℕ) :=
  (stakerSystem smallSlashConfig).outcome (genesisRoles smallGenesis) calls

theorem stakerOutcome_reachable (calls : List (StakerCall smallSlashConfig))
    (happens :
      ((stakerSystem smallSlashConfig).replay (genesisRoles smallGenesis) calls).isOk = true) :
    StakersReachable (stakerOutcome calls).1 (stakerOutcome calls).2 :=
  Machine.outcome_reachable
    (genesisRoles_initial (genesisState_initial _ _) (fun _ => rfl) (fun _ => rfl))
    (fun _ _ => trivial) happens

end GlitchRuntime.Staking
