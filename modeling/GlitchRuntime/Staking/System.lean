import GlitchRuntime.Lib.Runs
import GlitchRuntime.Staking.Eras

/-! # The staking system

Everything that writes the storage of the pallet, as one machine: the session rotation of a block,
the hooks, the calls, and whatever the rest of the runtime may do in between. A call that returns
an error leaves the storage as it was, since dispatch is transactional.
-/

namespace GlitchRuntime.Staking

open Lib

variable {Account : Type} [DecidableEq Account]

/-- What other pallets and the remaining calls may change: balances, preferences and amounts. -/
structure Outside (config : Config Account) where
  store : config.currency.Store
  payee : Account → RewardDestination Account
  validators : Account → Option ValidatorPrefs
  nominators : Account → Bool
  minNominatorBond : ℕ
  minValidatorBond : ℕ
  slashingSpans : Account → Option ℕ
  /-- The amounts of a controller's ledger: total, active and unlocking. -/
  amounts : Account → ℕ × ℕ × List UnlockChunk

/-- One step of the chain, as far as staking sees it. -/
inductive Call (config : Config Account)
  /-- Sessions zero and one are planned with the genesis elections, and session zero starts. -/
  | genesisSession (first second : Option (Supports Account))
  /-- `rotate_session`, with the outcome of the election it may hold. -/
  | rotateSession (election : Option (Supports Account))
  | onFinalize (now : ℕ)
  | rewardByIds (points : List (Account × UInt32))
  /-- `force_new_era`, `force_no_eras`, `force_new_era_always` and `ensure_new_era`. -/
  | setForceEra (mode : Forcing)
  | setHistoryDepth (newHistoryDepth : UInt32)
  | bond (stash controller : Account) (value : ℕ) (payee : RewardDestination Account)
  | unbond (controller : Account) (value : ℕ)
  | withdrawUnbonded (controller : Account) (numSlashingSpans : ℕ)
  | setController (stash controller : Account)
  | reapStash (stash : Account) (numSlashingSpans : ℕ)
  | forceUnstake (stash : Account) (numSlashingSpans : ℕ)
  | payoutStakers (validatorStash : Account) (era : ℕ)
  /-- `triger` of the revenue fund, open to anyone. -/
  | triger
  | outside (change : Outside config)

/-- Why a step does not happen. -/
inductive Refusal
  | dispatch (error : Error)
  | donation
  /-- Sessions rotate only after genesis, which happens once. -/
  | misplaced
  /-- Nothing but payouts debits the fund. -/
  | debitsFund
deriving DecidableEq

variable {config : Config Account}

/-- Sessions are driven in the order end, start, plan. -/
def rotateSession (state : State config) (session : ℕ) (election : Option (Supports Account)) :
    State config :=
  let state := endSession state session
  let state := { state with
    toEraStorage := startSession { state.toEraStorage with sessionIndex := some (session + 1) }
      (session + 1) }
  newSession state (session + 2) election

/-- Plan sessions zero and one, and start session zero. -/
def genesisSession (state : State config) (first second : Option (Supports Account)) :
    State config :=
  let state := newSession state 0 first
  let state := newSession state 1 second
  { state with toEraStorage := startSession { state.toEraStorage with sessionIndex := some 0 } 0 }

/-- Move the wallet's balance to the fund. -/
def triger (state : State config) : Except Refusal (State config) := do
  let amount := config.currency.freeBalance state.store config.wallet
  let store ← okOr (config.currency.transfer state.store config.wallet config.fund amount) .donation
  return { state with store }

/-- Whatever the rest of the runtime does, ledgers keep their stash and what they claimed. -/
def applyOutside (state : State config) (change : Outside config) :
    Except Refusal (State config) := do
  ensure (config.currency.freeBalance state.store config.fund ≤
    config.currency.freeBalance change.store config.fund) .debitsFund
  return { state with
    store := change.store
    payee := change.payee
    validators := change.validators
    nominators := change.nominators
    minNominatorBond := change.minNominatorBond
    minValidatorBond := change.minValidatorBond
    slashingSpans := change.slashingSpans
    ledger := fun controller => (state.ledger controller).map fun ledger =>
      { ledger with
        total := (change.amounts controller).1
        active := (change.amounts controller).2.1
        unlocking := (change.amounts controller).2.2 } }

/-- A call of the pallet that pays nobody. -/
def dispatch (result : Except Error (State config)) :
    Except Refusal (State config × List (PayoutReceipt Account)) :=
  match result with
  | .ok state => .ok (state, [])
  | .error error => .error (.dispatch error)

/-- One step of the system and the receipts it leaves. -/
def step (state : State config) :
    Call config → Except Refusal (State config × List (PayoutReceipt Account))
  | .genesisSession first second =>
    match state.sessionIndex with
    | none => .ok (genesisSession state first second, [])
    | some _ => .error .misplaced
  | .rotateSession election =>
    match state.sessionIndex with
    | none => .error .misplaced
    | some session => .ok (rotateSession state session election, [])
  | .onFinalize now => .ok ({ state with toEraStorage := onFinalize state.toEraStorage now }, [])
  | .rewardByIds points =>
    .ok ({ state with toEraStorage := rewardByIds state.toEraStorage points }, [])
  | .setForceEra mode => .ok ({ state with forceEra := mode }, [])
  | .setHistoryDepth newHistoryDepth =>
    .ok ({ state with toEraStorage := setHistoryDepth state.toEraStorage newHistoryDepth }, [])
  | .bond stash controller value payee => dispatch (bond state stash controller value payee)
  | .unbond controller value => dispatch (unbond state controller value)
  | .withdrawUnbonded controller spans => dispatch (withdrawUnbonded state controller spans)
  | .setController stash controller => dispatch (setController state stash controller)
  | .reapStash stash spans => dispatch (reapStash state stash spans)
  | .forceUnstake stash spans => dispatch (forceUnstake state stash spans)
  | .payoutStakers validatorStash era =>
    match doPayoutStakers state validatorStash era with
    | .ok (state, receipt) => .ok (state, [receipt])
    | .error error => .error (.dispatch error)
  | .triger => do
    let state ← triger state
    return (state, [])
  | .outside change => do
    let state ← applyOutside state change
    return (state, [])

/-- The staking system as a machine. -/
def system (config : Config Account) :
    Machine (State config) (Call config) Refusal (PayoutReceipt Account) := ⟨step⟩

/-- The storage before the genesis stakers bond: no staker, no era, no session. -/
structure Initial (state : State config) : Prop where
  bonded : ∀ stash, state.bonded stash = none
  ledger : ∀ controller, state.ledger controller = none
  currentEra : state.currentEra = none
  activeEra : state.activeEra = none
  erasStartSessionIndex : ∀ era, state.erasStartSessionIndex era = none
  erasValidatorReward : ∀ era, state.erasValidatorReward era = none
  erasNotClaimedReward : ∀ era, state.erasNotClaimedReward era = none
  sessionIndex : state.sessionIndex = none

theorem genesisState_initial (store : config.currency.Store) (historyDepth : UInt32) :
    Initial (genesisState config store historyDepth) :=
  ⟨fun _ => rfl, fun _ => rfl, rfl, rfl, fun _ => rfl, fun _ => rfl, fun _ => rfl, rfl⟩

/-- A state with the receipts of the payouts on the way, reached by any calls. -/
def Reachable (state : State config) (log : List (PayoutReceipt Account)) : Prop :=
  (system config).Reachable Initial (fun _ => True) state log

/-- A call that does not set the history depth to zero. -/
def Call.KeepsHistory : Call config → Prop
  | .setHistoryDepth newHistoryDepth => newHistoryDepth ≠ 0
  | _ => True

/-- Reached from a positive history depth by calls that never set it to zero. -/
def ReachableWithHistory (state : State config) (log : List (PayoutReceipt Account)) : Prop :=
  (system config).Reachable (fun source => Initial source ∧ source.historyDepth ≠ 0)
    Call.KeepsHistory state log

/-- A call that does not award an era more points than its total has room for. -/
def Call.PointsFit (eras : EraStorage Account) : Call config → Prop
  | .rewardByIds points => ∀ active ∈ eras.activeEra,
    (eras.erasRewardPoints active.index).total.toNat +
      (points.map fun entry => entry.2.toNat).sum < 2 ^ 32
  | _ => True

instance (eras : EraStorage Account) (call : Call config) : Decidable (call.PointsFit eras) := by
  unfold Call.PointsFit
  split <;> infer_instance

/-- Reached from genesis by calls that never make the points of an era wrap. -/
def ReachableUnwrapped (state : State config) (log : List (PayoutReceipt Account)) : Prop :=
  ∃ source, (Initial source ∧ ∀ era, source.erasRewardPoints era = default) ∧
    (system config).GuardedRun (fun state call => call.PointsFit state.toEraStorage) source log state

/-- The small runtime before genesis: 50 on every account, so 49 in the fund. -/
def smallGenesis : State smallConfig := genesisState smallConfig ⟨fun _ => 50, 500⟩ 84

/-- Four validators with equal stakes of their own. -/
def quartet : Supports ℕ :=
  [10, 11, 12, 13].map fun validator => (validator, [(validator, 50)])

/-- Where the calls lead from the small genesis, if all of them happen. -/
def outcome (calls : List (Call smallConfig)) : State smallConfig × List (PayoutReceipt ℕ) :=
  (system smallConfig).outcome smallGenesis calls

theorem outcome_reachable (calls : List (Call smallConfig))
    (happens : ((system smallConfig).replay smallGenesis calls).isOk = true) :
    Reachable (outcome calls).1 (outcome calls).2 :=
  Machine.outcome_reachable (genesisState_initial _ _) (fun _ _ => trivial) happens

/-- The outcome of calls that do not zero the history depth is reachable with a history. -/
theorem outcome_reachableWithHistory (calls : List (Call smallConfig))
    (keeps : ∀ call ∈ calls, call.KeepsHistory)
    (happens : ((system smallConfig).replay smallGenesis calls).isOk = true) :
    ReachableWithHistory (outcome calls).1 (outcome calls).2 :=
  Machine.outcome_reachable ⟨genesisState_initial _ _, by decide⟩ keeps happens

/-- The outcome of calls that never make points wrap is reachable without a wrap. -/
theorem outcome_reachableUnwrapped (calls : List (Call smallConfig))
    (happens : (((system smallConfig).guarded (fun state call => call.PointsFit state.toEraStorage)
      .misplaced).replay smallGenesis calls).isOk = true) :
    ReachableUnwrapped (outcome calls).1 (outcome calls).2 := by
  have same := Machine.guarded_outcome happens
  have run := Machine.guardedRun_outcome happens
  rw [same] at run
  exact ⟨smallGenesis, ⟨genesisState_initial _ _, fun _ => rfl⟩, run⟩

theorem ReachableUnwrapped.reachable {state : State config} {log : List (PayoutReceipt Account)}
    (reachable : ReachableUnwrapped state log) : Reachable state log := by
  obtain ⟨source, begins, run⟩ := reachable
  exact ⟨source, begins.1, run.run fun _ _ _ => trivial⟩

theorem ReachableWithHistory.reachable {state : State config} {log : List (PayoutReceipt Account)}
    (reachable : ReachableWithHistory state log) : Reachable state log := by
  obtain ⟨source, begins, run⟩ := reachable
  exact ⟨source, begins.1, run.mono fun _ _ => trivial⟩

end GlitchRuntime.Staking
