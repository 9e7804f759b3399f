import GlitchRuntime.Lib.Fallible
import GlitchRuntime.Staking.Types

/-! # Bonding and unbonding

The calls that create, move and remove the ledger of a stash. A stash and its controller point at
each other: the ledger of the controller a stash is bonded to belongs to that stash. None of these
calls moves a free balance or touches the storage of eras.
-/

namespace GlitchRuntime.Staking

open Lib

variable {Account : Type} [DecidableEq Account] {config : Config Account}

/-- Write a ledger and lock its total. -/
def updateLedger (state : State config) (controller : Account) (ledger : StakingLedger Account) :
    State config :=
  { state with
    store := config.currency.setLock state.store ledger.stash ledger.total
    ledger := Function.update state.ledger controller (some ledger) }

/-- Lock up a stash under a controller; every era still in the window counts as claimed. -/
def bond (state : State config) (stash controller : Account) (value : ℕ)
    (payee : RewardDestination Account) : Except Error (State config) := do
  ensure ((state.bonded stash).isNone) .alreadyBonded
  ensure ((state.ledger controller).isNone) .alreadyPaired
  ensure (config.currency.minimumBalance ≤ value) .insufficientBond
  let store ← okOr (config.currency.incConsumers state.store stash) .badState
  let currentEra := state.currentEra.getD 0
  let lastRewardEra := currentEra - state.historyDepth.toNat
  let value := min value (config.currency.freeBalance store stash)
  return updateLedger
    { state with
      store
      bonded := Function.update state.bonded stash (some controller)
      payee := Function.update state.payee stash payee }
    controller
    { stash
      total := value
      active := value
      unlocking := []
      claimedRewards := .ofRange lastRewardEra currentEra }

/-- Queue an amount to unlock at an era, on the last chunk if that one unlocks then too. -/
def pushChunk (unlocking : List UnlockChunk) (value era : ℕ) : Option (List UnlockChunk) :=
  match unlocking.getLast? with
  | some chunk =>
    if chunk.era = era then some (unlocking.dropLast ++ [{ chunk with value := chunk.value + value }])
    else if unlocking.length < maxUnlockingChunks then some (unlocking ++ [⟨value, era⟩])
    else none
  | none => some [⟨value, era⟩]

/-- The bond a stash must keep active for its role. -/
def minActiveBond (state : State config) (stash : Account) : ℕ :=
  if state.nominators stash then state.minNominatorBond
  else if (state.validators stash).isSome then state.minValidatorBond
  else 0

/-- Schedule a portion of the stash to be unlocked. -/
def unbond (state : State config) (controller : Account) (value : ℕ) :
    Except Error (State config) := do
  let ledger ← okOr (state.ledger controller) .notController
  ensure (ledger.unlocking.length < maxUnlockingChunks) .noMoreChunks
  let value := min value ledger.active
  if value = 0 then
    return state
  else
    let rest := ledger.active - value
    -- avoid a dust balance left in the staking system
    let (value, active) :=
      if rest < config.currency.minimumBalance then (value + rest, 0) else (value, rest)
    ensure (minActiveBond state ledger.stash ≤ active) .insufficientBond
    let era := state.currentEra.getD 0 + config.bondingDuration
    let unlocking ← okOr (pushChunk ledger.unlocking value era) .noMoreChunks
    return updateLedger state controller { ledger with active, unlocking }

/-- `slashing::clear_stash_metadata`: the caller has to know how many spans there are. -/
def clearStashMetadata (state : State config) (stash : Account) (numSlashingSpans : ℕ) :
    Except Error (State config) :=
  match state.slashingSpans stash with
  | none => .ok state
  | some spans => do
    ensure (spans ≤ numSlashingSpans) .incorrectSlashingSpans
    return { state with slashingSpans := Function.update state.slashingSpans stash none }

/-- Remove all associated data of a stash account from the staking system. -/
def killStash (state : State config) (stash : Account) (numSlashingSpans : ℕ) :
    Except Error (State config) := do
  let controller ← okOr (state.bonded stash) .notStash
  let state ← clearStashMetadata state stash numSlashingSpans
  return { state with
    bonded := Function.update state.bonded stash none
    ledger := Function.update state.ledger controller none
    payee := Function.update state.payee stash .staked
    validators := Function.update state.validators stash none
    nominators := Function.update state.nominators stash false
    store := config.currency.decConsumers state.store stash }

/-- `kill_stash` and the lock that goes with it. -/
def killAndUnlock (state : State config) (stash : Account) (numSlashingSpans : ℕ) :
    Except Error (State config) := do
  let state ← killStash state stash numSlashingSpans
  return { state with store := config.currency.removeLock state.store stash }

/-- Remove the chunks that are due, and the stash with the last of them. -/
def withdrawUnbonded (state : State config) (controller : Account) (numSlashingSpans : ℕ) :
    Except Error (State config) := do
  let ledger ← okOr (state.ledger controller) .notController
  let ledger := match state.currentEra with
    | some currentEra => ledger.consolidateUnlocked currentEra
    | none => ledger
  if ledger.unlocking = [] ∧ ledger.active < config.currency.minimumBalance then
    killAndUnlock state ledger.stash numSlashingSpans
  else
    return updateLedger state controller ledger

/-- Move the ledger of a stash to another controller. -/
def setController (state : State config) (stash controller : Account) :
    Except Error (State config) := do
  let oldController ← okOr (state.bonded stash) .notStash
  ensure ((state.ledger controller).isNone) .alreadyPaired
  if controller = oldController then
    return state
  else
    let state := { state with bonded := Function.update state.bonded stash (some controller) }
    return match state.ledger oldController with
      | some ledger =>
        { state with
          ledger := Function.update (Function.update state.ledger oldController none) controller
            (some ledger) }
      | none => state

/-- Whether `reap_stash` may remove a stash: its balance or its ledger is dust. -/
def reapable (state : State config) (stash : Account) : Except Error Bool := do
  let minimum := config.currency.minimumBalance
  if config.currency.totalBalance state.store stash < minimum then
    return true
  else
    let controller ← okOr (state.bonded stash) .notStash
    return ((state.ledger controller).map (·.total)).getD 0 < minimum

/-- Remove a stash that is dust in the staking system. -/
def reapStash (state : State config) (stash : Account) (numSlashingSpans : ℕ) :
    Except Error (State config) := do
  let dust ← reapable state stash
  ensure dust .fundedTarget
  killAndUnlock state stash numSlashingSpans

/-- Force a staker to become completely unstaked. -/
def forceUnstake (state : State config) (stash : Account) (numSlashingSpans : ℕ) :
    Except Error (State config) :=
  killAndUnlock state stash numSlashingSpans

/-! ## What a ledger has claimed -/

/-- The stash of a controller's ledger with the eras it has claimed. -/
def StakerStorage.claims (stakers : StakerStorage Account) (controller : Account) :
    Option (Account × ClaimedRewards) :=
  (stakers.ledger controller).map fun ledger => (ledger.stash, ledger.claimedRewards)

/-- Bonds, and whose ledger claimed what, are as they were; amounts may differ. -/
structure SameClaims (before after : StakerStorage Account) : Prop where
  bonded : after.bonded = before.bonded
  claims : ∀ controller, after.claims controller = before.claims controller

namespace SameClaims

omit [DecidableEq Account] in
theorem refl (stakers : StakerStorage Account) : SameClaims stakers stakers := ⟨rfl, fun _ => rfl⟩

omit [DecidableEq Account] in
theorem trans {first second third : StakerStorage Account} (left : SameClaims first second)
    (right : SameClaims second third) : SameClaims first third :=
  ⟨right.bonded.trans left.bonded, fun controller =>
    (right.claims controller).trans (left.claims controller)⟩

end SameClaims

/-- Rewriting a ledger in its amounts changes no claim. -/
theorem updateLedger_sameClaims {state : State config} {controller : Account}
    {before ledger : StakingLedger Account} (present : state.ledger controller = some before)
    (stash : ledger.stash = before.stash)
    (claimed : ledger.claimedRewards = before.claimedRewards) :
    SameClaims state.toStakerStorage (updateLedger state controller ledger).toStakerStorage := by
  refine ⟨rfl, fun other => ?_⟩
  change (Function.update state.ledger controller (some ledger) other).map _ =
    (state.ledger other).map _
  rw [Function.update_apply]
  split_ifs with same
  · rw [same, present, Option.map_some, Option.map_some, stash, claimed]
  · rfl

end GlitchRuntime.Staking
