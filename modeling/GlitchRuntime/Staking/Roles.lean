import GlitchRuntime.Staking.Bonding

/-! # Validators, nominators and the list of voters

A stash takes the role of a validator or of a nominator through the controller that holds its
ledger. Each role has a counted map, and both report to one list of voters. Four functions write
these; everything else goes through them.
-/

namespace GlitchRuntime.Staking

open Lib

/-- Parts per hundred. -/
structure Percent where
  parts : ℕ
  le_one : parts ≤ 100
deriving DecidableEq

/-- `percent * n`, rounded to nearest with ties down. -/
def Percent.mul (percent : Percent) (n : ℕ) : ℕ :=
  n * percent.parts / 100 + if 100 < 2 * (n * percent.parts % 100) then 1 else 0

/-- The nominations made by a stash. -/
structure Nominations (Account : Type) where
  targets : List Account
  /-- The era the nominations were submitted; zero before the first. -/
  submittedIn : ℕ
  suppressed : Bool
deriving DecidableEq

/-- `NposCompactSolution16::LIMIT`. -/
def maxNominations : ℕ := 16

/-- Why a call beyond the bonding calls is refused. -/
inductive CallError
  | staking (error : Error)
  | commissionTooLow
  | tooManyValidators
  | tooManyNominators
  | emptyTargets
  | tooManyTargets
  | badTarget
  | cannotChillOther
  | noUnlockChunk
deriving DecidableEq

/-- The staking storage with what it keeps about roles. The list of voters is the set of its ids:
the order of its bags is left out. -/
structure RoleState {Account : Type} [DecidableEq Account] (config : Config Account) extends
    State config where
  nominations : Account → Option (Nominations Account)
  voterList : Finset Account
  counterForValidators : ℕ
  counterForNominators : ℕ
  maxValidatorsCount : Option ℕ
  maxNominatorsCount : Option ℕ
  chillThreshold : Option Percent
  minCommission : Perbill

variable {Account : Type} [DecidableEq Account] {config : Config Account}

/-- Roles over the storage that a chain starts from. -/
def genesisRoles (state : State config) : RoleState config where
  toState := state
  nominations _ := none
  voterList := ∅
  counterForValidators := 0
  counterForNominators := 0
  maxValidatorsCount := none
  maxNominatorsCount := none
  chillThreshold := none
  minCommission := 0

/-! ## The only writers -/

/-- Add a nominator, or update its nominations. -/
def doAddNominator (state : RoleState config) (who : Account)
    (nominations : Nominations Account) : RoleState config :=
  let state :=
    if (state.nominations who).isSome then state
    else { state with
      voterList := insert who state.voterList
      counterForNominators := state.counterForNominators + 1 }
  { state with
    nominations := Function.update state.nominations who (some nominations)
    nominators := Function.update state.nominators who true }

/-- Remove a nominator, if there is one. -/
def doRemoveNominator (state : RoleState config) (who : Account) : RoleState config :=
  if (state.nominations who).isSome then
    { state with
      nominations := Function.update state.nominations who none
      nominators := Function.update state.nominators who false
      voterList := state.voterList.erase who
      counterForNominators := state.counterForNominators - 1 }
  else state

/-- Add a validator, or update its preferences. -/
def doAddValidator (state : RoleState config) (who : Account) (prefs : ValidatorPrefs) :
    RoleState config :=
  let state :=
    if (state.validators who).isSome then state
    else { state with
      voterList := insert who state.voterList
      counterForValidators := state.counterForValidators + 1 }
  { state with validators := Function.update state.validators who (some prefs) }

/-- Remove a validator, if there is one. -/
def doRemoveValidator (state : RoleState config) (who : Account) : RoleState config :=
  if (state.validators who).isSome then
    { state with
      validators := Function.update state.validators who none
      voterList := state.voterList.erase who
      counterForValidators := state.counterForValidators - 1 }
  else state

/-- Chill a stash account. -/
def chillStash (state : RoleState config) (stash : Account) : RoleState config :=
  doRemoveNominator (doRemoveValidator state stash) stash

/-! ## The calls -/

/-- The ledger a controller holds. -/
def ledgerOf (state : RoleState config) (controller : Account) :
    Except CallError (StakingLedger Account) :=
  okOr (state.ledger controller) (.staking .notController)

/-- A role is full for those who do not have it yet. -/
def checkLimit (has : Bool) (limit : Option ℕ) (count : ℕ) (problem : CallError) :
    Except CallError Unit :=
  match limit with
  | some limit => ensure (has ∨ count < limit) problem
  | none => .ok ()

/-- Declare the desire to validate. -/
def validate (state : RoleState config) (controller : Account) (prefs : ValidatorPrefs) :
    Except CallError (RoleState config) := do
  let ledger ← ledgerOf state controller
  ensure (state.minValidatorBond ≤ ledger.active) (.staking .insufficientBond)
  ensure (state.minCommission.parts ≤ prefs.commission.parts) .commissionTooLow
  checkLimit (state.validators ledger.stash).isSome state.maxValidatorsCount
    state.counterForValidators .tooManyValidators
  return doAddValidator (doRemoveNominator state ledger.stash) ledger.stash prefs

/-- Declare the desire to nominate; a target that blocks may only be kept. -/
def nominate (state : RoleState config) (controller : Account) (targets : List Account) :
    Except CallError (RoleState config) := do
  let ledger ← ledgerOf state controller
  let stash := ledger.stash
  ensure (state.minNominatorBond ≤ ledger.active) (.staking .insufficientBond)
  checkLimit (state.nominations stash).isSome state.maxNominatorsCount
    state.counterForNominators .tooManyNominators
  ensure (targets ≠ []) .emptyTargets
  ensure (targets.length ≤ maxNominations) .tooManyTargets
  let old := ((state.nominations stash).map (·.targets)).getD []
  ensure (∀ target ∈ targets, target ∈ old ∨
    ((state.validators target).getD default).blocked = false) .badTarget
  return doAddNominator (doRemoveValidator state stash) stash
    { targets, submittedIn := state.currentEra.getD 0, suppressed := false }

/-- Declare no desire to either validate or nominate. -/
def chill (state : RoleState config) (controller : Account) :
    Except CallError (RoleState config) := do
  let ledger ← ledgerOf state controller
  return chillStash state ledger.stash

/-- The bond that a stash has to be below, once its role is crowded past the threshold. -/
def chillBelow (state : RoleState config) (stash : Account) : Except CallError ℕ := do
  let threshold ← okOr state.chillThreshold .cannotChillOther
  if (state.nominations stash).isSome then
    let limit ← okOr state.maxNominatorsCount .cannotChillOther
    ensure (threshold.mul limit < state.counterForNominators) .cannotChillOther
    return state.minNominatorBond
  else if (state.validators stash).isSome then
    let limit ← okOr state.maxValidatorsCount .cannotChillOther
    ensure (threshold.mul limit < state.counterForValidators) .cannotChillOther
    return state.minValidatorBond
  else
    return 0

/-- Declare that a controller stops participating; anyone may, once the role is crowded. -/
def chillOther (state : RoleState config) (caller controller : Account) :
    Except CallError (RoleState config) := do
  let ledger ← ledgerOf state controller
  if caller = controller then
    return chillStash state ledger.stash
  else
    let minActiveBond ← chillBelow state ledger.stash
    ensure (ledger.active < minActiveBond) .cannotChillOther
    return chillStash state ledger.stash

/-- `swap_remove` of the first occurrence: the last element takes its place. -/
def swapRemove (targets : List Account) (stash : Account) : List Account :=
  if stash ∈ targets then
    let position := targets.idxOf stash
    let last := targets.getLastD stash
    (targets.set position last).dropLast
  else targets

/-- Drop a validator from the targets of one nominator. -/
def kickOne (state : RoleState config) (stash nominator : Account) : RoleState config :=
  { state with
    nominations := Function.update state.nominations nominator
      ((state.nominations nominator).map fun nominations =>
        { nominations with targets := swapRemove nominations.targets stash }) }

/-- Remove the given nominations from the calling validator. -/
def kick (state : RoleState config) (controller : Account) (who : List Account) :
    Except CallError (RoleState config) := do
  let ledger ← ledgerOf state controller
  return who.foldl (fun state nominator => kickOne state ledger.stash nominator) state

/-- Raise the commission of a validator to the minimum. -/
def forceApplyMinCommission (state : RoleState config) (stash : Account) :
    Except CallError (RoleState config) := do
  let prefs ← okOr (state.validators stash) (.staking .notStash)
  let prefs :=
    if prefs.commission.parts < state.minCommission.parts then
      { prefs with commission := state.minCommission }
    else prefs
  return { state with validators := Function.update state.validators stash (some prefs) }

/-- What `set_staking_configs` does to one item. -/
inductive ConfigOp (α : Type)
  | noop
  | set (value : α)
  | remove

/-- The item after the operation; a removed one reads as its default. -/
def ConfigOp.apply {α : Type} (op : ConfigOp α) (default current : α) : α :=
  match op with
  | .noop => current
  | .set value => value
  | .remove => default

/-- Update the various staking configurations. -/
def setStakingConfigs (state : RoleState config) (minNominatorBond minValidatorBond : ConfigOp ℕ)
    (maxNominatorsCount maxValidatorsCount : ConfigOp ℕ) (chillThreshold : ConfigOp Percent)
    (minCommission : ConfigOp Perbill) : RoleState config :=
  { state with
    minNominatorBond := minNominatorBond.apply 0 state.minNominatorBond
    minValidatorBond := minValidatorBond.apply 0 state.minValidatorBond
    maxNominatorsCount := match maxNominatorsCount with
      | .noop => state.maxNominatorsCount
      | .set count => some count
      | .remove => none
    maxValidatorsCount := match maxValidatorsCount with
      | .noop => state.maxValidatorsCount
      | .set count => some count
      | .remove => none
    chillThreshold := match chillThreshold with
      | .noop => state.chillThreshold
      | .set threshold => some threshold
      | .remove => none
    minCommission := minCommission.apply 0 state.minCommission }

end GlitchRuntime.Staking
