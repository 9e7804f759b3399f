import GlitchRuntime.Staking.Payout

/-! # Sessions and eras

An era is planned one session before it becomes active, so the current era runs ahead of the active
one for a session. Planning prunes the era that leaves the history; the end of the active era moves
the revenue wallet into the fund and sets aside what no earlier era still holds.
-/

namespace GlitchRuntime.Staking

open Lib

variable {Account : Type} [DecidableEq Account] {config : Config Account}

/-! ## Planning an era -/

/-- Clear all era information for given era. -/
def clearEraInformation (eras : EraStorage Account) (era : ℕ) : EraStorage Account :=
  { eras with
    erasStakersClipped := Function.update eras.erasStakersClipped era fun _ => default
    erasValidatorPrefs := Function.update eras.erasValidatorPrefs era fun _ => default
    erasValidatorReward := Function.update eras.erasValidatorReward era none
    erasRewardPoints := Function.update eras.erasRewardPoints era default
    erasNotClaimedReward := Function.update eras.erasNotClaimedReward era none
    erasStartSessionIndex := Function.update eras.erasStartSessionIndex era none }

/-- Turn the supports of an election into exposures. -/
def collectExposures (state : State config) (supports : Supports Account) :
    List (Account × Exposure Account) :=
  let totalIssuance := config.currency.totalIssuance state.store
  supports.map fun (validator, voters) =>
    (validator, voters.foldl
      (fun exposure (nominator, votes) =>
        exposure.addVoter validator nominator (config.toCurrency votes totalIssuance)) .empty)

/-- Store the clipped exposures and the preferences of the winners for an era. -/
def storeStakersInfo (config : Config Account) (eras : EraStorage Account)
    (validators : Account → Option ValidatorPrefs)
    (exposures : List (Account × Exposure Account)) (era : ℕ) : EraStorage Account :=
  exposures.foldl
    (fun eras (stash, exposure) =>
      { eras with
        erasStakersClipped := Function.update eras.erasStakersClipped era
          (Function.update (eras.erasStakersClipped era) stash
            (exposure.clip config.maxNominatorRewardedPerValidator))
        erasValidatorPrefs := Function.update eras.erasValidatorPrefs era
          (Function.update (eras.erasValidatorPrefs era) stash
            ((validators stash).getD default)) })
    eras

/-- The era planned next. -/
def EraStorage.nextPlannedEra (eras : EraStorage Account) : ℕ :=
  match eras.currentEra with
  | some currentEra => currentEra + 1
  | none => 0

/-- Put the next era in place with the session it starts in. -/
def advanceEra (eras : EraStorage Account) (startSessionIndex : ℕ) : EraStorage Account :=
  { eras with
    currentEra := some eras.nextPlannedEra
    erasStartSessionIndex :=
      Function.update eras.erasStartSessionIndex eras.nextPlannedEra (some startSessionIndex) }

/-- Clear the era that leaves the history as `newPlannedEra` comes; `history_depth() + 1` wraps. -/
def pruneEra (eras : EraStorage Account) (newPlannedEra : ℕ) : EraStorage Account :=
  let kept := (eras.historyDepth + 1).toNat
  if kept ≤ newPlannedEra then clearEraInformation eras (newPlannedEra - kept) else eras

/-- Plan a new era. -/
def triggerNewEra (state : State config) (startSessionIndex : ℕ)
    (exposures : List (Account × Exposure Account)) : State config :=
  let newPlannedEra := state.nextPlannedEra
  let eras := pruneEra (advanceEra state.toEraStorage startSessionIndex) newPlannedEra
  { state with
    toEraStorage := storeStakersInfo config eras state.validators exposures newPlannedEra }

/-- Potentially plan a new era; whether it was planned. No election result is a failed election. -/
def tryTriggerNewEra (state : State config) (startSessionIndex : ℕ)
    (election : Option (Supports Account)) : State config × Bool :=
  match election with
  | none => (state, false)
  | some supports =>
    let exposures := collectExposures state supports
    if exposures.length < max state.minimumValidatorCount 1 then
      match state.currentEra with
      -- the initial era is allowed to have no exposures
      | none => ({ state with toEraStorage := advanceEra state.toEraStorage startSessionIndex }, false)
      | some _ => (state, false)
    else (triggerNewEra state startSessionIndex exposures, true)

/-- Plan a new session, potentially triggering a new era. -/
def newSession (state : State config) (sessionIndex : ℕ) (election : Option (Supports Account)) :
    State config :=
  match state.currentEra with
  | none => (tryTriggerNewEra state sessionIndex election).1
  | some currentEra =>
    let eraLength := sessionIndex - (state.erasStartSessionIndex currentEra).getD 0
    let due := match state.forceEra with
      | .forceNew | .forceAlways => true
      | .notForcing => config.sessionsPerEra ≤ eraLength
      | .forceNone => false
    if due then
      let (state, planned) := tryTriggerNewEra state sessionIndex election
      if planned ∧ state.forceEra = .forceNew then { state with forceEra := .notForcing }
      else state
    else state

/-! ## Starting and ending the active era -/

/-- The era that becomes active next. -/
def EraStorage.nextActiveEra (eras : EraStorage Account) : ℕ :=
  match eras.activeEra with
  | some info => info.index + 1
  | none => 0

/-- Move on to the next active era; its moment comes with the next `on_finalize`. -/
def startEra (eras : EraStorage Account) : EraStorage Account :=
  { eras with activeEra := some ⟨eras.nextActiveEra, none⟩ }

/-- Start a session, potentially starting an era. -/
def startSession (eras : EraStorage Account) (session : ℕ) : EraStorage Account :=
  match eras.erasStartSessionIndex eras.nextActiveEra with
  | none => eras
  | some start =>
    if start = session then startEra eras
    -- a session appears to have been skipped
    else if start < session then startEra eras
    else eras

/-- `RevenueWallet::trigger_wallet`: what the wallet holds goes to the fund, if it can. -/
def triggerWallet (state : State config) : State config :=
  let amount := config.currency.freeBalance state.store config.wallet
  if 0 < amount then
    match config.currency.transfer state.store config.wallet config.fund amount with
    | some store => { state with store }
    | none => state
  else state

/-- The fund's balance above the existential deposit. -/
def fundBalance (state : State config) : ℕ :=
  config.currency.freeBalance state.store config.fund - config.existentialDeposit

/-- The first era whose reserve counts at the end of `currentEra`; `history_depth - 1` wraps. -/
def EraStorage.firstReserved (eras : EraStorage Account) (currentEra : ℕ) : ℕ :=
  currentEra - (eras.historyDepth - 1).toNat

/-- Add up the entries of `ErasNotClaimedReward` over `count` eras from `era` on. -/
def sumNotClaimedReward (eras : EraStorage Account) (era : ℕ) : ℕ → ℕ
  | 0 => 0
  | count + 1 =>
    (eras.erasNotClaimedReward era).getD 0 + sumNotClaimedReward eras (era + 1) count

/-- The reserves of the eras before `currentEra` that the history keeps. -/
def getTotalNotClaimedReward (eras : EraStorage Account) (currentEra : ℕ) : ℕ :=
  sumNotClaimedReward eras (eras.firstReserved currentEra)
    (currentEra - eras.firstReserved currentEra)

/-- Set the reward of an ended era and reserve all of it. -/
def setEraReward (eras : EraStorage Account) (era reward : ℕ) : EraStorage Account :=
  { eras with
    erasValidatorReward := Function.update eras.erasValidatorReward era (some reward)
    erasNotClaimedReward := Function.update eras.erasNotClaimedReward era (some reward) }

/-- Compute the payout for an era; one that never saw a block has none. -/
def endEra (state : State config) (active : ActiveEraInfo) : State config :=
  match active.start with
  | none => state
  | some _ =>
    let state := triggerWallet state
    let eraReward := fundBalance state - getTotalNotClaimedReward state.toEraStorage active.index
    { state with toEraStorage := setEraReward state.toEraStorage active.index eraReward }

/-- The era that ends with a session, when one does. -/
def EraStorage.endingEra (eras : EraStorage Account) (session : ℕ) : Option ActiveEraInfo :=
  match eras.activeEra with
  | none => none
  | some active =>
    if eras.erasStartSessionIndex (active.index + 1) = some (session + 1) then some active else none

/-- End a session, potentially ending an era. -/
def endSession (state : State config) (session : ℕ) : State config :=
  match state.endingEra session with
  | none => state
  | some active => endEra state active

/-! ## The other writers of era storage -/

/-- Clear the eras from `first` on, `count` of them. -/
def clearEras (eras : EraStorage Account) (first : ℕ) : ℕ → EraStorage Account
  | 0 => eras
  | count + 1 => clearEras (clearEraInformation eras first) (first + 1) count

/-- Set the history depth, deleting what a smaller one no longer keeps. -/
def setHistoryDepth (eras : EraStorage Account) (newHistoryDepth : UInt32) : EraStorage Account :=
  match eras.currentEra with
  | none => eras
  | some currentEra =>
    let lastKept := eras.firstEra currentEra
    let newLastKept := currentEra - newHistoryDepth.toNat
    { clearEras eras lastKept (newLastKept - lastKept) with historyDepth := newHistoryDepth }

/-- Add reward points to validators in the active era. -/
def rewardByIds (eras : EraStorage Account) (points : List (Account × UInt32)) : EraStorage Account :=
  match eras.activeEra with
  | none => eras
  | some active =>
    { eras with
      erasRewardPoints := Function.update eras.erasRewardPoints active.index
        ((eras.erasRewardPoints active.index).awardAll points) }

/-- Set the moment of an active era that has none. -/
def onFinalize (eras : EraStorage Account) (now : ℕ) : EraStorage Account :=
  match eras.activeEra with
  | some ⟨index, none⟩ => { eras with activeEra := some ⟨index, some now⟩ }
  | _ => eras

end GlitchRuntime.Staking
