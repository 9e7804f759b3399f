import GlitchRuntime.Staking.Bonds
import GlitchRuntime.Staking.Timeline
import GlitchRuntime.Staking.Transfers

/-! # What a step of the system can do

Every step prunes the records of past eras or ends the active era or pays one validator, and moves
bonds and claims in one of a few ways. Invariants of the system are derived from this, and not from
the calls themselves.
-/

namespace GlitchRuntime.Staking

open Lib

variable {Account : Type} [DecidableEq Account] {config : Config Account}

/-- The fund has not been debited. -/
def FundKept (before after : State config) : Prop :=
  config.currency.freeBalance before.store config.fund ≤
    config.currency.freeBalance after.store config.fund

/-- What a step of the system did, with the receipts it left. -/
inductive Effect (before after : State config) : List (PayoutReceipt Account) → Prop
  | kept (prunes : Prunes before.toEraStorage after.toEraStorage)
      (claims : ClaimsMove before.toEraStorage before.toStakerStorage after.toStakerStorage)
      (fund : FundKept before after) : Effect before after []
  | ended (info : ActiveEraInfo) (reward : ℕ) (active : before.activeEra = some info)
      (current : before.currentEra = some (info.index + 1))
      (reward_eq : reward =
        fundBalance after - getTotalNotClaimedReward before.toEraStorage info.index)
      (prunes : Prunes (setEraReward before.toEraStorage info.index reward) after.toEraStorage)
      (nextActiveEra : info.index + 1 < after.nextActiveEra)
      (stakers : after.toStakerStorage = before.toStakerStorage)
      (fund : FundKept before after) : Effect before after []
  | paid (validatorStash : Account) (era : ℕ) (input : PayoutInput Account)
      (receipt : PayoutReceipt Account) (checked : Checked before validatorStash era input)
      (paid : Paid before after validatorStash era input receipt) : Effect before after [receipt]

/-- The invariant of era storage: the timeline, and the records of ended eras. -/
structure Consistent (state : State config) : Prop where
  timeline : Timeline state.toEraStorage
  records : Records state.toEraStorage

/-! ## The writers of era storage -/

omit [DecidableEq Account] in
/-- The first block of an era gives it its moment and nothing else. -/
theorem onFinalize_eq (eras : EraStorage Account) (now : ℕ) :
    ∃ activeEra, onFinalize eras now = { eras with activeEra } ∧
      (onFinalize eras now).nextActiveEra = eras.nextActiveEra := by
  unfold onFinalize
  split
  · next index active => exact ⟨_, rfl, by simp [EraStorage.nextActiveEra, active]⟩
  · exact ⟨_, rfl, rfl⟩

omit [DecidableEq Account] in
theorem prunes_onFinalize (eras : EraStorage Account) (now : ℕ) :
    Prunes eras (onFinalize eras now) := by
  obtain ⟨activeEra, same, active⟩ := onFinalize_eq eras now
  refine .of_same ?_ ?_ ?_ ?_ ?_ active.ge
  all_goals rw [same]

/-- Points go to the active era, which has no records yet. -/
theorem prunes_rewardByIds {eras : EraStorage Account} (records : Records eras)
    (points : List (Account × UInt32)) : Prunes eras (rewardByIds eras points) := by
  unfold rewardByIds
  split
  · exact .refl _
  · next info active =>
    refine ⟨fun era => ?_, fun current planned => ⟨current, planned, le_rfl⟩, le_rfl,
      fun _ _ kept => kept⟩
    by_cases here : era = info.index
    · left
      have none_yet : eras.erasValidatorReward era = none := by
        by_contra present
        have ended := records.lt_active active present
        omega
      exact ⟨none_yet, (records.keys era).mpr none_yet⟩
    · exact .inr ⟨rfl, rfl, Function.update_of_ne here _ _⟩

omit [DecidableEq Account] in
/-- Setting the reward of an era writes that era's reward and reserve. -/
@[simp] theorem setEraReward_erasValidatorReward (eras : EraStorage Account) (era reward other : ℕ) :
    (setEraReward eras era reward).erasValidatorReward other =
      if other = era then some reward else eras.erasValidatorReward other :=
  Function.update_apply ..

omit [DecidableEq Account] in
@[simp] theorem setEraReward_erasNotClaimedReward (eras : EraStorage Account)
    (era reward other : ℕ) :
    (setEraReward eras era reward).erasNotClaimedReward other =
      if other = era then some reward else eras.erasNotClaimedReward other :=
  Function.update_apply ..

/-- Planning touches neither stakers nor balances. -/
theorem Planned.frame {state after : State config} {session : ℕ}
    (planned : Planned state session after) :
    after.toStakerStorage = state.toStakerStorage ∧ after.store = state.store := by
  cases planned with
  | none => exact ⟨rfl, rfl⟩
  | bare _ => exact ⟨rfl, rfl⟩
  | era _ _ _ => exact ⟨rfl, rfl⟩

omit [DecidableEq Account] in
theorem endingEra_eq_some {eras : EraStorage Account} {session : ℕ} {info : ActiveEraInfo}
    (ending : eras.endingEra session = some info) :
    eras.activeEra = some info ∧ eras.nextActiveEra = info.index + 1 ∧
      eras.erasStartSessionIndex eras.nextActiveEra = some (session + 1) := by
  unfold EraStorage.endingEra at ending
  split at ending
  · contradiction
  · next active present =>
    split_ifs at ending with starts
    obtain rfl := Option.some.inj ending
    refine ⟨present, ?_, ?_⟩
    · simp [EraStorage.nextActiveEra, present]
    · simpa [EraStorage.nextActiveEra, present] using starts

/-- The active era ends one era behind the current one. -/
theorem Consistent.current_of_ending {state : State config} (consistent : Consistent state)
    {session : ℕ} {info : ActiveEraInfo} (index : state.sessionIndex = some session)
    (ending : state.endingEra session = some info) :
    state.currentEra = some (info.index + 1) := by
  obtain ⟨-, next, starts⟩ := endingEra_eq_some ending
  rw [← next]
  exact (consistent.timeline.upcoming index starts).2

/-- The wallet gives to the fund. -/
theorem triggerWallet_spec (state : State config) :
    (triggerWallet state).toEraStorage = state.toEraStorage ∧
    (triggerWallet state).toStakerStorage = state.toStakerStorage ∧
    FundKept state (triggerWallet state) := by
  unfold triggerWallet
  dsimp only
  split_ifs
  · split
    · next store moved =>
      refine ⟨rfl, rfl, ?_⟩
      have gains := config.currency.transfer_moves _ _ _ _ _ config.fund_ne_wallet.symm moved
      exact (Nat.le_add_right _ _).trans gains.ge
    · exact ⟨rfl, rfl, Nat.le_refl _⟩
  · exact ⟨rfl, rfl, Nat.le_refl _⟩

/-- Starting a session and planning another only prune. -/
private theorem startAndPlan_spec (state : State config) (session : ℕ)
    (election : Option (Supports Account)) :
    let started : State config := { state with
      toEraStorage := startSession { state.toEraStorage with sessionIndex := some (session + 1) }
        (session + 1) }
    let after := newSession started (session + 2) election
    Prunes state.toEraStorage after.toEraStorage ∧
      after.toStakerStorage = state.toStakerStorage ∧ after.store = state.store ∧
      after.nextActiveEra = started.nextActiveEra := by
  intro started after
  have planned := newSession_planned started (session + 2) election
  have moved : Prunes state.toEraStorage
      { state.toEraStorage with sessionIndex := some (session + 1) } :=
    .of_same rfl rfl rfl rfl rfl le_rfl
  refine ⟨(moved.trans (prunes_startSession _ _)).trans planned.prunes, planned.frame.1,
    planned.frame.2, ?_⟩
  · simp only [EraStorage.nextActiveEra, planned.starts.1, after]

/-- A rotation only prunes, or ends the active era on the way. -/
theorem rotateSession_effect {state : State config} (consistent : Consistent state) {session : ℕ}
    (index : state.sessionIndex = some session) (election : Option (Supports Account)) :
    Effect state (rotateSession state session election) [] := by
  obtain ⟨prunes, stakers, store, active⟩ :=
    startAndPlan_spec (endSession state session) session election
  change Prunes _ (rotateSession state session election).toEraStorage at prunes
  change (rotateSession state session election).toStakerStorage = _ at stakers
  change (rotateSession state session election).store = _ at store
  change (rotateSession state session election).nextActiveEra = _ at active
  have idle : endSession state session = state →
      Effect state (rotateSession state session election) [] := by
    intro same
    rw [same] at prunes stakers store
    refine .kept prunes (.same ⟨?_, fun controller => ?_⟩) ?_
    · rw [stakers]
    · rw [stakers]
    · rw [FundKept, store]
  cases ending : state.endingEra session with
  | none => exact idle (by simp [endSession, ending])
  | some info =>
    have ends : endSession state session = endEra state info := by simp [endSession, ending]
    obtain ⟨present, next, starts⟩ := endingEra_eq_some ending
    cases moment : info.start with
    | none => exact idle (by simp [ends, endEra, moment])
    | some began =>
      obtain ⟨sameEras, sameStakers, gains⟩ := triggerWallet_spec state
      set reward := fundBalance (triggerWallet state) -
        getTotalNotClaimedReward state.toEraStorage info.index with reward_eq
      have ended : endSession state session = { triggerWallet state with
          toEraStorage := setEraReward state.toEraStorage info.index reward } := by
        simp only [ends, endEra, moment, sameEras, reward_eq]
      rw [ended] at prunes stakers store active
      refine .ended info reward present (consistent.current_of_ending index ending) ?_ prunes ?_
        (stakers.trans sameStakers) ?_
      · rw [reward_eq, fundBalance, fundBalance, store]
      · rw [active, startSession_of_le (by exact starts) le_rfl]
        change _ < state.nextActiveEra + 1
        omega
      · rw [FundKept, store]
        exact gains

/-- Genesis only prunes. -/
private theorem genesisSession_effect {state : State config}
    (first second : Option (Supports Account)) :
    Effect state (genesisSession state first second) [] := by
  have early := newSession_planned state 0 first
  set middle := newSession state 0 first with middle_eq
  have late := newSession_planned middle 1 second
  set later := newSession middle 1 second with later_eq
  have moved : Prunes later.toEraStorage { later.toEraStorage with sessionIndex := some 0 } :=
    .of_same rfl rfl rfl rfl rfl le_rfl
  have prunes := (early.prunes.trans late.prunes).trans (moved.trans (prunes_startSession _ 0))
  have stakers : later.toStakerStorage = state.toStakerStorage :=
    late.frame.1.trans early.frame.1
  have store : later.store = state.store := late.frame.2.trans early.frame.2
  have result : genesisSession state first second = { later with
      toEraStorage := startSession { later.toEraStorage with sessionIndex := some 0 } 0 } := rfl
  rw [result]
  refine .kept prunes (.same ⟨?_, fun controller => ?_⟩) ?_
  · rw [← stakers]
  · rw [← stakers]
  · rw [FundKept, ← store]

/-- A bonding call is a move of bonds and claims. -/
private theorem BondMove.effect {before after : State config} (move : BondMove before after) :
    Effect before after [] :=
  .kept (move.eras ▸ .refl _) move.claims (move.still.free config.fund).ge

private theorem dispatch_eq_ok {result : Except Error (State config)} {after : State config}
    {out : List (PayoutReceipt Account)} (success : dispatch result = .ok (after, out)) :
    result = .ok after ∧ out = [] := by
  unfold dispatch at success
  split at success
  · obtain ⟨rfl, rfl⟩ := Prod.mk.inj (Except.ok.inj success)
    exact ⟨rfl, rfl⟩
  · contradiction

/-- What a call did. The bonding calls are one case, and so are those of the rest of the runtime
that leave eras, claims and the fund alone. -/
inductive Stepped (before : State config) :
    Call config → State config → List (PayoutReceipt Account) → Prop
  | genesis {first second : Option (Supports Account)} (fresh : before.sessionIndex = none) :
      Stepped before (.genesisSession first second) (genesisSession before first second) []
  | rotated {session : ℕ} {election : Option (Supports Account)}
      (index : before.sessionIndex = some session) :
      Stepped before (.rotateSession election) (rotateSession before session election) []
  | finalized {now : ℕ} : Stepped before (.onFinalize now)
      { before with toEraStorage := onFinalize before.toEraStorage now } []
  | rewarded {points : List (Account × UInt32)} : Stepped before (.rewardByIds points)
      { before with toEraStorage := rewardByIds before.toEraStorage points } []
  | forced {mode : Forcing} : Stepped before (.setForceEra mode) { before with forceEra := mode } []
  | depthSet {depth : UInt32} : Stepped before (.setHistoryDepth depth)
      { before with toEraStorage := setHistoryDepth before.toEraStorage depth } []
  | bonding {call : Call config} {after : State config} (move : BondMove before after) :
      Stepped before call after []
  | paidOut {validatorStash : Account} {era : ℕ} {input : PayoutInput Account}
      {after : State config} {receipt : PayoutReceipt Account}
      (checked : Checked before validatorStash era input)
      (paid : Paid before after validatorStash era input receipt) :
      Stepped before (.payoutStakers validatorStash era) after [receipt]
  | aside {call : Call config} {after : State config}
      (eras : after.toEraStorage = before.toEraStorage)
      (claims : SameClaims before.toStakerStorage after.toStakerStorage)
      (fund : FundKept before after) : Stepped before call after []

private theorem stepped_dispatch {before after : State config} {call : Call config}
    {result : Except Error (State config)} {out : List (PayoutReceipt Account)}
    (move : ∀ {state}, result = .ok state → BondMove before state)
    (success : dispatch result = .ok (after, out)) : Stepped before call after out := by
  obtain ⟨done, rfl⟩ := dispatch_eq_ok success
  exact .bonding (move done)

private theorem stepped_triger {before after : State config} (success : triger before = .ok after) :
    Stepped before .triger after [] := by
  simp only [triger, bind_eq_ok, okOr_eq_ok, pure_eq_ok] at success
  obtain ⟨store, moved, rfl⟩ := success
  have gains := config.currency.transfer_moves _ _ _ _ _ config.fund_ne_wallet.symm moved
  exact .aside rfl (.refl _) ((Nat.le_add_right _ _).trans gains.ge)

private theorem stepped_outside {before after : State config} {change : Outside config}
    (success : applyOutside before change = .ok after) :
    Stepped before (.outside change) after [] := by
  simp only [applyOutside, bind_eq_ok, ensure_eq_ok, pure_eq_ok] at success
  obtain ⟨_, fund, rfl⟩ := success
  refine .aside rfl ⟨rfl, fun controller => ?_⟩ fund
  simp only [StakerStorage.claims, Option.map_map]
  rfl

/-- The one inversion of the step function. -/
theorem step_stepped {before after : State config} {call : Call config}
    {out : List (PayoutReceipt Account)} (success : step before call = .ok (after, out)) :
    Stepped before call after out := by
  cases call with
  | genesisSession first second =>
    simp only [step] at success
    split at success
    · next fresh =>
      obtain ⟨rfl, rfl⟩ := Prod.mk.inj (Except.ok.inj success)
      exact .genesis fresh
    · contradiction
  | rotateSession election =>
    simp only [step] at success
    split at success
    · contradiction
    · next index =>
      obtain ⟨rfl, rfl⟩ := Prod.mk.inj (Except.ok.inj success)
      exact .rotated index
  | onFinalize now =>
    obtain ⟨rfl, rfl⟩ := Prod.mk.inj (Except.ok.inj success)
    exact .finalized
  | rewardByIds points =>
    obtain ⟨rfl, rfl⟩ := Prod.mk.inj (Except.ok.inj success)
    exact .rewarded
  | setForceEra mode =>
    obtain ⟨rfl, rfl⟩ := Prod.mk.inj (Except.ok.inj success)
    exact .forced
  | setHistoryDepth depth =>
    obtain ⟨rfl, rfl⟩ := Prod.mk.inj (Except.ok.inj success)
    exact .depthSet
  | bond _ _ _ _ => exact stepped_dispatch bond_move success
  | unbond _ _ => exact stepped_dispatch unbond_move success
  | withdrawUnbonded _ _ => exact stepped_dispatch withdrawUnbonded_move success
  | setController _ _ => exact stepped_dispatch setController_move success
  | reapStash _ _ => exact stepped_dispatch reapStash_move success
  | forceUnstake _ _ => exact stepped_dispatch killAndUnlock_move success
  | payoutStakers stash era =>
    simp only [step] at success
    split at success
    · next paid =>
      obtain ⟨rfl, rfl⟩ := Prod.mk.inj (Except.ok.inj success)
      obtain ⟨input, checked, paid⟩ := doPayoutStakers_paid paid
      exact .paidOut checked paid
    · contradiction
  | triger =>
    simp only [step, bind_eq_ok, pure_eq_ok] at success
    obtain ⟨state, done, result⟩ := success
    obtain ⟨rfl, rfl⟩ := Prod.mk.inj result
    exact stepped_triger done
  | outside change =>
    simp only [step, bind_eq_ok, pure_eq_ok] at success
    obtain ⟨state, done, result⟩ := success
    obtain ⟨rfl, rfl⟩ := Prod.mk.inj result
    exact stepped_outside done

/-- Every step has one of the effects. -/
theorem step_effect {before after : State config} {call : Call config}
    {out : List (PayoutReceipt Account)} (consistent : Consistent before)
    (success : step before call = .ok (after, out)) : Effect before after out := by
  cases step_stepped success with
  | genesis => exact genesisSession_effect _ _
  | rotated index => exact rotateSession_effect consistent index _
  | finalized => exact .kept (prunes_onFinalize _ _) (.same (.refl _)) (Nat.le_refl _)
  | rewarded =>
    exact .kept (prunes_rewardByIds consistent.records _) (.same (.refl _)) (Nat.le_refl _)
  | forced => exact .kept (.of_same rfl rfl rfl rfl rfl le_rfl) (.same (.refl _)) (Nat.le_refl _)
  | depthSet => exact .kept (prunes_setHistoryDepth _ _) (.same (.refl _)) (Nat.le_refl _)
  | bonding move => exact move.effect
  | paidOut checked paid => exact .paid _ _ _ _ checked paid
  | aside eras claims fund => exact .kept (eras ▸ .refl _) (.same claims) fund

/-! ## The invariant of era storage -/

/-- Ending a session keeps the timeline and the session. -/
private theorem Timeline.endSession {state : State config} (timeline : Timeline state.toEraStorage)
    (session : ℕ) : Timeline (endSession state session).toEraStorage ∧
      (endSession state session).sessionIndex = state.sessionIndex := by
  unfold Staking.endSession endEra
  split
  · exact ⟨timeline, rfl⟩
  · split
    · exact ⟨timeline, rfl⟩
    · constructor
      · refine timeline.shrink ?_ ?_ ?_ ?_
        all_goals simp only [setEraReward, (triggerWallet_spec state).1]
        · rfl
        · exact fun _ => .inr trivial
      · simp only [setEraReward, (triggerWallet_spec state).1]

/-- Every step keeps the timeline. -/
private theorem step_timeline {before after : State config} {call : Call config}
    {out : List (PayoutReceipt Account)} (consistent : Consistent before)
    (success : step before call = .ok (after, out)) : Timeline after.toEraStorage := by
  have timeline := consistent.timeline
  cases step_stepped success with
  | genesis fresh => exact timeline.genesis fresh _ _
  | @rotated session election index =>
    obtain ⟨ended, sameIndex⟩ := timeline.endSession session
    exact Started.newSession (ended.started (sameIndex.trans index)) election
  | @finalized now =>
    obtain ⟨activeEra, same, active⟩ := onFinalize_eq before.toEraStorage now
    refine timeline.shrink ?_ ?_ active ?_
    all_goals rw [same]
    exact fun _ => .inr rfl
  | rewarded =>
    unfold rewardByIds
    split
    · exact timeline
    · exact timeline.shrink rfl rfl rfl fun _ => .inr rfl
  | forced => exact timeline.shrink rfl rfl rfl fun _ => .inr rfl
  | @depthSet depth =>
    unfold setHistoryDepth
    split
    · exact timeline
    · next current planned =>
      obtain ⟨-, -, sameCurrent, active, session, starts, -⟩ := clearEras_spec before.toEraStorage
        (before.firstEra current) (current - depth.toNat - before.firstEra current)
      refine timeline.shrink sameCurrent session ?_ starts
      simp only [EraStorage.nextActiveEra, active]
  | bonding move =>
    rw [move.eras]
    exact timeline
  | paidOut checked paid =>
    rw [paid.eras]
    exact timeline.shrink rfl rfl rfl fun _ => .inr rfl
  | aside eras =>
    rw [eras]
    exact timeline

/-- Every effect keeps the records in order. -/
theorem Effect.records {before after : State config} {out : List (PayoutReceipt Account)}
    (records : Records before.toEraStorage) (effect : Effect before after out) :
    Records after.toEraStorage := by
  cases effect with
  | kept prunes _ _ => exact records.prunes prunes
  | ended info reward active current _ prunes nextActiveEra _ _ =>
    refine ⟨fun era => ?_, fun {era} present => ?_⟩
    · rcases prunes.records era with ⟨noReward, noReserve⟩ | ⟨reward, notClaimed, -⟩
      · simp [noReward, noReserve]
      · rw [reward, notClaimed, setEraReward_erasValidatorReward, setEraReward_erasNotClaimedReward]
        split_ifs
        · simp
        · exact records.keys era
    · have before_present := prunes.reward_eq present ▸ present
      rw [setEraReward_erasValidatorReward] at before_present
      split_ifs at before_present with here
      · omega
      · have ended := records.lt_active active before_present
        omega
  | paid _ era _ _ _ paid =>
    rw [paid.eras]
    refine ⟨fun other => ?_, records.ended⟩
    rw [takeReserve_erasNotClaimedReward]
    split_ifs with here
    · rw [Option.map_eq_none_iff, here]
      exact records.keys era
    · exact records.keys other

theorem step_consistent {before after : State config} {call : Call config}
    {out : List (PayoutReceipt Account)} (consistent : Consistent before)
    (success : step before call = .ok (after, out)) : Consistent after :=
  ⟨step_timeline consistent success, (step_effect consistent success).records consistent.records⟩

theorem Initial.consistent {state : State config} (initial : Initial state) : Consistent state where
  timeline :=
    { planned := fun present => by cases (initial.erasStartSessionIndex _).symm.trans present
      active := fun now => by simp [EraStorage.nextActiveEra, initial.activeEra] at now
      upcoming := fun now _ => by cases initial.sessionIndex.symm.trans now
      quiet := fun _ => initial.currentEra }
  records :=
    { keys := fun era => by simp [initial.erasValidatorReward, initial.erasNotClaimedReward]
      ended := fun present => (present (initial.erasValidatorReward _)).elim }

/-- The timeline holds, and the records are in order, in every reachable state. -/
theorem Reachable.consistent {state : State config} {log : List (PayoutReceipt Account)}
    (reachable : Reachable state log) : Consistent state :=
  Machine.Reachable.invariant (fun state _ => Consistent state) reachable
    (fun _ initial => initial.consistent) fun consistent _ success =>
      step_consistent consistent success

end GlitchRuntime.Staking
