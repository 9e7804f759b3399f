import GlitchRuntime.Staking.Effects
import GlitchRuntime.Staking.Stakers

/-! # What a step does to ledgers

Every step of the system of stakers lets ledgers grow, changes the amounts of one ledger, bonds a
stash, moves a ledger to another controller, or removes one. The system is taken apart here once.
-/

namespace GlitchRuntime.Staking

open Lib

variable {Account : Type} [DecidableEq Account]

/-! ## Ledgers that grow -/

/-- A ledger that got more, and may have claimed eras. -/
def Grown (old new : StakingLedger Account) : Prop :=
  ∃ extra claimedRewards, new = { old with
    total := old.total + extra
    active := old.active + extra
    claimedRewards }

omit [DecidableEq Account] in
theorem Grown.refl (ledger : StakingLedger Account) : Grown ledger ledger :=
  ⟨0, ledger.claimedRewards, rfl⟩

omit [DecidableEq Account] in
theorem Grown.trans {first second third : StakingLedger Account} (left : Grown first second)
    (right : Grown second third) : Grown first third := by
  obtain ⟨early, claimed, rfl⟩ := left
  obtain ⟨late, later, rfl⟩ := right
  exact ⟨early + late, later, by simp [Nat.add_assoc]⟩

/-- Nothing but the growth of ledgers and the claims in them. -/
structure Grows (before after : StakerStorage Account) : Prop where
  bonded : after.bonded = before.bonded
  ledger : ∀ controller, Option.Rel Grown (before.ledger controller) (after.ledger controller)
  validators : after.validators = before.validators
  nominators : after.nominators = before.nominators
  minNominatorBond : after.minNominatorBond = before.minNominatorBond
  minValidatorBond : after.minValidatorBond = before.minValidatorBond

namespace Grows

omit [DecidableEq Account] in
/-- Where the ledgers stay, they have grown. -/
theorem of_ledger {before after : StakerStorage Account} (bonded : after.bonded = before.bonded)
    (ledger : after.ledger = before.ledger) (validators : after.validators = before.validators)
    (nominators : after.nominators = before.nominators)
    (minNominatorBond : after.minNominatorBond = before.minNominatorBond)
    (minValidatorBond : after.minValidatorBond = before.minValidatorBond) : Grows before after := by
  refine ⟨bonded, ?_, validators, nominators, minNominatorBond, minValidatorBond⟩
  intro controller
  rw [ledger]
  cases before.ledger controller with
  | none => exact .none
  | some ledger => exact .some (.refl ledger)

omit [DecidableEq Account] in
theorem refl (stakers : StakerStorage Account) : Grows stakers stakers :=
  .of_ledger rfl rfl rfl rfl rfl rfl

omit [DecidableEq Account] in
theorem of_eq {before after : StakerStorage Account} (same : after = before) :
    Grows before after := by
  rw [same]
  exact .refl before

omit [DecidableEq Account] in
theorem trans {first second third : StakerStorage Account} (left : Grows first second)
    (right : Grows second third) : Grows first third where
  bonded := right.bonded.trans left.bonded
  ledger controller := by
    have early := left.ledger controller
    have late := right.ledger controller
    generalize second.ledger controller = middle at early late
    generalize first.ledger controller = begins at early ⊢
    generalize third.ledger controller = ends at late ⊢
    cases early with
    | none =>
      cases late
      exact .none
    | some early =>
      cases late with
      | some late => exact .some (Grown.trans early late)
  validators := right.validators.trans left.validators
  nominators := right.nominators.trans left.nominators
  minNominatorBond := right.minNominatorBond.trans left.minNominatorBond
  minValidatorBond := right.minValidatorBond.trans left.minValidatorBond

/-- Writing a ledger that has grown. -/
theorem put {before after : StakerStorage Account} {controller : Account}
    {old new : StakingLedger Account} (present : before.ledger controller = some old)
    (grown : Grown old new)
    (written : after = { before with
      ledger := Function.update before.ledger controller (some new) }) : Grows before after := by
  subst written
  refine ⟨rfl, ?_, rfl, rfl, rfl, rfl⟩
  intro other
  change Option.Rel Grown _ (Function.update before.ledger controller (some new) other)
  rw [Function.update_apply]
  split_ifs with same
  · rw [same, present]
    exact .some grown
  · cases before.ledger other with
    | none => exact .none
    | some ledger => exact .some (.refl ledger)

end Grows

section Chain

variable {config : Config Account}

/-- A payment lets at most one ledger grow. -/
theorem makePayout_grows (state : State config) (stash : Account) (amount : ℕ) :
    Grows state.toStakerStorage (makePayout state stash amount).1.toStakerStorage := by
  unfold makePayout
  split
  · split <;> exact .refl _
  · split <;> exact .refl _
  · split
    · next controller bonded =>
      split
      · next ledger present =>
        have grown : Grown ledger { ledger with
            active := ledger.active + amount, total := ledger.total + amount } :=
          ⟨amount, ledger.claimedRewards, rfl⟩
        dsimp only
        split
        · exact .put present grown rfl
        · exact .put present grown rfl
      · exact .refl _
    · exact .refl _
  · exact .refl _
  · exact .refl _

theorem payStakers_grows (stakers : List (IndividualExposure Account)) (state : State config) :
    Grows state.toStakerStorage (payStakers state stakers).1.toStakerStorage := by
  induction stakers generalizing state with
  | nil => exact .refl _
  | cons staker rest ih =>
    exact (makePayout_grows state staker.who staker.value).trans (ih _)

theorem updateNotClaimedReward_stakers (state : State config) (era claimedValue : ℕ) :
    (updateNotClaimedReward state era claimedValue).toStakerStorage = state.toStakerStorage := by
  unfold updateNotClaimedReward
  split <;> rfl

theorem settlePayout_grows {state after : State config} {validatorStash : Account} {era : ℕ}
    {input : PayoutInput Account} {receipt : PayoutReceipt Account}
    (settled : settlePayout state validatorStash era input = .ok (after, receipt)) :
    Grows (enterClaim state input).toStakerStorage after.toStakerStorage := by
  unfold settlePayout at settled
  dsimp only at settled
  split_ifs at settled
  · obtain ⟨rfl, -⟩ := Prod.mk.inj (Except.ok.inj settled)
    exact .refl _
  · split at settled
    · contradiction
    · obtain ⟨rfl, -⟩ := Prod.mk.inj (Except.ok.inj settled)
      rw [updateNotClaimedReward_stakers]
      exact (makePayout_grows _ _ _).trans (payStakers_grows _ _)

/-- A payout lets ledgers grow and enters a claim, in the same era. -/
theorem doPayoutStakers_grows {state after : State config} {validatorStash : Account} {era : ℕ}
    {receipt : PayoutReceipt Account}
    (paid : doPayoutStakers state validatorStash era = .ok (after, receipt)) :
    Grows state.toStakerStorage after.toStakerStorage ∧ after.currentEra = state.currentEra := by
  obtain ⟨input, -, effect⟩ := doPayoutStakers_paid paid
  refine ⟨?_, ?_⟩
  · simp only [doPayoutStakers, bind_eq_ok] at paid
    obtain ⟨input, checked, settled⟩ := paid
    simp only [checkPayout, bind_eq_ok, okOr_eq_ok, pure_eq_ok] at checked
    obtain ⟨_, _, _, _, _, _, controller, _, ledger, present, claimed, _, rfl⟩ := checked
    exact (Grows.put present ⟨0, claimed, rfl⟩ rfl).trans (settlePayout_grows settled)
  · rw [effect.eras]
    rfl

/-! ## The chain -/

/-- The current era, or zero before the first. -/
def EraStorage.era (eras : EraStorage Account) : ℕ := eras.currentEra.getD 0

omit [DecidableEq Account] in
theorem Prunes.era_le {before after : EraStorage Account} (prunes : Prunes before after) :
    before.era ≤ after.era := by
  unfold EraStorage.era
  cases planned : before.currentEra with
  | none => exact Nat.zero_le _
  | some current =>
    obtain ⟨later, next, bound⟩ := prunes.currentEra current planned
    rw [next]
    exact bound

theorem endSession_frame (state : State config) (session : ℕ) :
    (endSession state session).toStakerStorage = state.toStakerStorage ∧
      (endSession state session).currentEra = state.currentEra := by
  obtain ⟨eras, stakers, -⟩ := triggerWallet_spec state
  unfold endSession
  split
  · exact ⟨rfl, rfl⟩
  · unfold endEra
    split
    · exact ⟨rfl, rfl⟩
    · have same : (triggerWallet state).currentEra = state.currentEra := by rw [eras]
      exact ⟨stakers, same⟩

/-- A rotation touches no staker, and the current era does not go back. -/
theorem rotateSession_frame (state : State config) (session : ℕ)
    (election : Option (Supports Account)) :
    (rotateSession state session election).toStakerStorage = state.toStakerStorage ∧
      state.era ≤ (rotateSession state session election).era := by
  obtain ⟨stakers, current⟩ := endSession_frame state session
  have planned := newSession_planned
    { endSession state session with
      toEraStorage := startSession { (endSession state session).toEraStorage with
        sessionIndex := some (session + 1) } (session + 1) } (session + 2) election
  refine ⟨planned.frame.1.trans stakers, ?_⟩
  have started := (prunes_startSession { (endSession state session).toEraStorage with
    sessionIndex := some (session + 1) } (session + 1)).era_le
  have begin : state.era = { (endSession state session).toEraStorage with
      sessionIndex := some (session + 1) }.era := congrArg (·.getD 0) current.symm
  exact begin.le.trans (started.trans planned.prunes.era_le)

theorem genesisSession_frame (state : State config) (first second : Option (Supports Account)) :
    (genesisSession state first second).toStakerStorage = state.toStakerStorage ∧
      state.era ≤ (genesisSession state first second).era := by
  have early := newSession_planned state 0 first
  have late := newSession_planned (newSession state 0 first) 1 second
  refine ⟨late.frame.1.trans early.frame.1, ?_⟩
  have started := (prunes_startSession
    { (newSession (newSession state 0 first) 1 second).toEraStorage with
      sessionIndex := some 0 } 0).era_le
  exact early.prunes.era_le.trans (late.prunes.era_le.trans started)

theorem rewardByIds_currentEra (eras : EraStorage Account) (points : List (Account × UInt32)) :
    (rewardByIds eras points).currentEra = eras.currentEra := by
  unfold rewardByIds
  split <;> rfl

/-- The calls of the chain let ledgers grow, and the current era does not go back. -/
theorem chain_grows {state after : State config} {call : Call config}
    {out : List (PayoutReceipt Account)} (chain : call.IsChain = true)
    (success : step state call = .ok (after, out)) :
    Grows state.toStakerStorage after.toStakerStorage ∧ state.era ≤ after.era := by
  cases call with
  | genesisSession first second =>
    simp only [step] at success
    split at success
    · obtain ⟨rfl, -⟩ := Prod.mk.inj (Except.ok.inj success)
      exact ⟨.of_eq (genesisSession_frame ..).1, (genesisSession_frame ..).2⟩
    · contradiction
  | rotateSession election =>
    simp only [step] at success
    split at success
    · contradiction
    · obtain ⟨rfl, -⟩ := Prod.mk.inj (Except.ok.inj success)
      exact ⟨.of_eq (rotateSession_frame ..).1, (rotateSession_frame ..).2⟩
  | onFinalize now =>
    obtain ⟨rfl, -⟩ := Prod.mk.inj (Except.ok.inj success)
    exact ⟨.refl _, (prunes_onFinalize state.toEraStorage now).era_le⟩
  | rewardByIds points =>
    obtain ⟨rfl, -⟩ := Prod.mk.inj (Except.ok.inj success)
    exact ⟨.refl _, (congrArg (·.getD 0) (rewardByIds_currentEra _ points)).ge⟩
  | setForceEra mode =>
    obtain ⟨rfl, -⟩ := Prod.mk.inj (Except.ok.inj success)
    exact ⟨.refl _, le_rfl⟩
  | setHistoryDepth depth =>
    obtain ⟨rfl, -⟩ := Prod.mk.inj (Except.ok.inj success)
    exact ⟨.refl _, (prunes_setHistoryDepth state.toEraStorage depth).era_le⟩
  | payoutStakers stash era =>
    simp only [step] at success
    split at success
    · next paid =>
      obtain ⟨rfl, -⟩ := Prod.mk.inj (Except.ok.inj success)
      obtain ⟨grows, same⟩ := doPayoutStakers_grows paid
      exact ⟨grows, (congrArg (·.getD 0) same).ge⟩
    · contradiction
  | triger =>
    simp only [step, triger, bind_eq_ok, okOr_eq_ok, pure_eq_ok] at success
    obtain ⟨_, ⟨_, _, rfl⟩, result⟩ := success
    obtain ⟨rfl, -⟩ := Prod.mk.inj result
    exact ⟨.refl _, le_rfl⟩
  | _ => contradiction

end Chain

/-! ## Calls that only write roles -/

section Roles

variable {config : Config Account}

/-- Bonds, ledgers, eras and the minimum bonds are as they were. -/
structure OnlyRoles (before after : RoleState config) : Prop where
  bonded : after.bonded = before.bonded
  ledger : after.ledger = before.ledger
  eras : after.toEraStorage = before.toEraStorage
  minNominatorBond : after.minNominatorBond = before.minNominatorBond
  minValidatorBond : after.minValidatorBond = before.minValidatorBond

namespace OnlyRoles

theorem refl (state : RoleState config) : OnlyRoles state state := ⟨rfl, rfl, rfl, rfl, rfl⟩

theorem trans {first second third : RoleState config} (left : OnlyRoles first second)
    (right : OnlyRoles second third) : OnlyRoles first third :=
  ⟨right.bonded.trans left.bonded, right.ledger.trans left.ledger, right.eras.trans left.eras,
    right.minNominatorBond.trans left.minNominatorBond,
    right.minValidatorBond.trans left.minValidatorBond⟩

end OnlyRoles

theorem doAddNominator_onlyRoles (state : RoleState config) (who : Account)
    (nominations : Nominations Account) :
    OnlyRoles state (doAddNominator state who nominations) := by
  unfold doAddNominator
  dsimp only
  split_ifs <;> exact ⟨rfl, rfl, rfl, rfl, rfl⟩

theorem doRemoveNominator_onlyRoles (state : RoleState config) (who : Account) :
    OnlyRoles state (doRemoveNominator state who) := by
  unfold doRemoveNominator
  split_ifs <;> exact ⟨rfl, rfl, rfl, rfl, rfl⟩

theorem doAddValidator_onlyRoles (state : RoleState config) (who : Account)
    (prefs : ValidatorPrefs) : OnlyRoles state (doAddValidator state who prefs) := by
  unfold doAddValidator
  dsimp only
  split_ifs <;> exact ⟨rfl, rfl, rfl, rfl, rfl⟩

theorem doRemoveValidator_onlyRoles (state : RoleState config) (who : Account) :
    OnlyRoles state (doRemoveValidator state who) := by
  unfold doRemoveValidator
  split_ifs <;> exact ⟨rfl, rfl, rfl, rfl, rfl⟩

theorem chillStash_onlyRoles (state : RoleState config) (stash : Account) :
    OnlyRoles state (chillStash state stash) :=
  (doRemoveValidator_onlyRoles state stash).trans (doRemoveNominator_onlyRoles _ stash)

theorem validate_onlyRoles {state after : RoleState config} {controller : Account}
    {prefs : ValidatorPrefs} (success : validate state controller prefs = .ok after) :
    OnlyRoles state after := by
  simp only [validate, bind_eq_ok, pure_eq_ok] at success
  obtain ⟨ledger, _, _, _, _, _, _, _, rfl⟩ := success
  exact (doRemoveNominator_onlyRoles state ledger.stash).trans (doAddValidator_onlyRoles _ _ _)

theorem nominate_onlyRoles {state after : RoleState config} {controller : Account}
    {targets : List Account} (success : nominate state controller targets = .ok after) :
    OnlyRoles state after := by
  simp only [nominate, bind_eq_ok, pure_eq_ok] at success
  obtain ⟨ledger, _, _, _, _, _, _, _, _, _, _, _, rfl⟩ := success
  exact (doRemoveValidator_onlyRoles state ledger.stash).trans (doAddNominator_onlyRoles _ _ _)

/-- A successful chill, by whomever, chills the stash of the ledger. -/
theorem chillOther_chills {state after : RoleState config} {caller controller : Account}
    (success : chillOther state caller controller = .ok after) :
    ∃ ledger, state.ledger controller = some ledger ∧ after = chillStash state ledger.stash := by
  simp only [chillOther, ledgerOf, bind_eq_ok, okOr_eq_ok] at success
  obtain ⟨ledger, present, success⟩ := success
  refine ⟨ledger, present, ?_⟩
  split_ifs at success
  · exact (pure_eq_ok.mp success).symm
  · simp only [bind_eq_ok, pure_eq_ok] at success
    obtain ⟨_, _, _, _, rfl⟩ := success
    rfl

theorem kickAll_onlyRoles (stash : Account) (who : List Account) (state : RoleState config) :
    OnlyRoles state
      (who.foldl (fun state nominator => kickOne state stash nominator) state) := by
  induction who generalizing state with
  | nil => exact .refl state
  | cons nominator rest ih =>
    have first : OnlyRoles state (kickOne state stash nominator) := ⟨rfl, rfl, rfl, rfl, rfl⟩
    exact first.trans (ih _)

theorem kick_onlyRoles {state after : RoleState config} {controller : Account}
    {who : List Account} (success : kick state controller who = .ok after) :
    OnlyRoles state after := by
  simp only [kick, bind_eq_ok, pure_eq_ok] at success
  obtain ⟨ledger, _, rfl⟩ := success
  exact kickAll_onlyRoles ledger.stash who state

theorem forceApplyMinCommission_onlyRoles {state after : RoleState config} {stash : Account}
    (success : forceApplyMinCommission state stash = .ok after) : OnlyRoles state after := by
  simp only [forceApplyMinCommission, bind_eq_ok, pure_eq_ok] at success
  obtain ⟨_, _, rfl⟩ := success
  exact ⟨rfl, rfl, rfl, rfl, rfl⟩

end Roles

/-! ## All steps -/

/-- What a call does to the amounts of one ledger, and reports of it. -/
inductive AmountMove {config : SlashConfig Account} (call : StakerCall config)
    (currentEra : Option ℕ) (old : StakingLedger Account) :
    StakingLedger Account → List (StakeReceipt Account) → Prop
  | adds (extra : ℕ) : AmountMove call currentEra old
      { old with total := old.total + extra, active := old.active + extra } []
  | unbonds {controller : Account} {asked : ℕ} (called : call = .unbond controller asked)
      (value : ℕ) (unlocking : List UnlockChunk) (positive : 0 < value)
      (within : value ≤ old.active) (room : old.unlocking.length < maxUnlockingChunks)
      (pushed : pushChunk old.unlocking value (currentEra.getD 0 + config.bondingDuration) =
        some unlocking) :
      AmountMove call currentEra old { old with active := old.active - value, unlocking }
        [.unbonded old.stash value (currentEra.getD 0)]
  | rebonds (value : ℕ) : AmountMove call currentEra old (old.rebond value).1 []
  | withdraws : AmountMove call currentEra old (consolidated currentEra old)
      (withdrawal currentEra old)
  | slashes {slashEra : ℕ} {entry : Account × ℕ} (called : call = .slash slashEra entry) :
      AmountMove call currentEra old (old.slash config.arithmetic entry.2 slashEra).1 []

/-- What a call does to bonds and ledgers, and reports of it. -/
inductive StakerMove {config : SlashConfig Account} (call : StakerCall config)
    (before after : RoleState config.toConfig) : List (StakeReceipt Account) → Prop
  | grows (bonded : after.bonded = before.bonded)
      (ledger : ∀ controller, Option.Rel Grown (before.ledger controller)
        (after.ledger controller)) : StakerMove call before after []
  | amounts {controller : Account} {old new : StakingLedger Account}
      {out : List (StakeReceipt Account)} (present : before.ledger controller = some old)
      (bonded : after.bonded = before.bonded)
      (ledger : after.ledger = Function.update before.ledger controller (some new))
      (move : AmountMove call before.currentEra old new out) : StakerMove call before after out
  | bonds {controller : Account} {new : StakingLedger Account}
      (unbonded : before.bonded new.stash = none) (fresh : before.ledger controller = none)
      (bonded : after.bonded = Function.update before.bonded new.stash (some controller))
      (ledger : after.ledger = Function.update before.ledger controller (some new))
      (active : new.active = new.total) (unlocking : new.unlocking = []) :
      StakerMove call before after []
  | moves {stash old new : Account} (paired : before.bonded stash = some old)
      (fresh : before.ledger new = none)
      (bonded : after.bonded = Function.update before.bonded stash (some new))
      (ledger : ∀ other, after.ledger other =
        if other = new then before.ledger old
        else if other = old then none else before.ledger other) : StakerMove call before after []
  | kills {stash controller : Account} {out : List (StakeReceipt Account)}
      (paired : before.bonded stash = some controller)
      (bonded : after.bonded = Function.update before.bonded stash none)
      (ledger : after.ledger = Function.update before.ledger controller none)
      (report : out = [] ∨ ∃ caller old, before.ledger caller = some old ∧ old.stash = stash ∧
        out = withdrawal before.currentEra old) : StakerMove call before after out

variable {config : SlashConfig Account} {call : StakerCall config}

/-- Nothing happens to bonds and ledgers. -/
theorem StakerMove.still {before after : RoleState config.toConfig}
    (bonded : after.bonded = before.bonded) (ledger : after.ledger = before.ledger) :
    StakerMove call before after [] := by
  refine .grows bonded fun controller => ?_
  rw [ledger]
  cases before.ledger controller with
  | none => exact .none
  | some ledger => exact .some (.refl ledger)

/-- Writing a ledger back as it is. -/
theorem StakerMove.same {before after : RoleState config.toConfig} (same : after = before) :
    StakerMove call before after [] := by
  rw [same]
  exact .still rfl rfl

theorem onStaking_eq_ok {base : Config Account} {state after : RoleState base}
    {result : Except Error (State base)} :
    onStaking state result = .ok after ↔
      ∃ chain, result = .ok chain ∧ after = { state with toState := chain } := by
  unfold onStaking
  cases result with
  | error problem => simp
  | ok chain => simp [eq_comm]

theorem reporting_eq_ok {α : Type} {result : Except CallError α} {value : α} :
    reporting result = .ok value ↔ result = .ok value := by
  unfold reporting
  cases result <;> simp [Except.mapError]

theorem quietly_eq_ok {base : Config Account} {result : Except CallError (RoleState base)}
    {after : RoleState base} {out : List (StakeReceipt Account)} :
    quietly result = .ok (after, out) ↔ result = .ok after ∧ out = [] := by
  unfold quietly
  rw [reporting_eq_ok]
  cases result <;> simp [Except.map, eq_comm]

/-- A bonding call moves no era. -/
structure BondingMove (call : StakerCall config) (before after : RoleState config.toConfig)
    (out : List (StakeReceipt Account)) : Prop where
  eras : after.toEraStorage = before.toEraStorage
  move : StakerMove call before after out

theorem OnlyRoles.moved {before after : RoleState config.toConfig}
    (only : OnlyRoles before after) : BondingMove call before after [] :=
  ⟨only.eras, .still only.bonded only.ledger⟩

theorem bond_moved {state : RoleState config.toConfig} {chain : State config.toConfig}
    {stash controller : Account} {value : ℕ} {payee : RewardDestination Account}
    (success : bond state.toState stash controller value payee = .ok chain) :
    BondingMove call state { state with toState := chain } [] := by
  simp only [bond, bind_eq_ok, ensure_eq_ok, okOr_eq_ok, pure_eq_ok] at success
  obtain ⟨_, unbonded, _, fresh, _, _, store, _, rfl⟩ := success
  exact ⟨rfl, .bonds (Option.isNone_iff_eq_none.mp unbonded) (Option.isNone_iff_eq_none.mp fresh)
    rfl rfl rfl rfl⟩

theorem bondExtra_moved {state : RoleState config.toConfig} {chain : State config.toConfig}
    {stash : Account} {maxAdditional : ℕ}
    (success : bondExtra state.toState stash maxAdditional = .ok chain) :
    BondingMove call state { state with toState := chain } [] := by
  simp only [bondExtra, bind_eq_ok, okOr_eq_ok] at success
  obtain ⟨controller, _, ledger, present, success⟩ := success
  split_ifs at success
  · simp only [bind_eq_ok, ensure_eq_ok, pure_eq_ok] at success
    obtain ⟨_, _, rfl⟩ := success
    exact ⟨rfl, .amounts present rfl rfl (.adds _)⟩
  · obtain rfl := pure_eq_ok.mp success
    exact ⟨rfl, .same rfl⟩

theorem rebondStaker_moved {state after : RoleState config.toConfig} {controller : Account}
    {value : ℕ} (success : rebondStaker state controller value = .ok after) :
    BondingMove call state after [] := by
  simp only [rebondStaker, rebond, bind_eq_ok, ensure_eq_ok, okOr_eq_ok, pure_eq_ok] at success
  obtain ⟨_, ⟨ledger, present, _, _, _, _, rfl⟩, rfl⟩ := success
  exact ⟨rfl, .amounts present rfl rfl (.rebonds value)⟩

theorem setController_moved {state : RoleState config.toConfig} {chain : State config.toConfig}
    {stash controller : Account}
    (success : setController state.toState stash controller = .ok chain) :
    BondingMove call state { state with toState := chain } [] := by
  simp only [setController, bind_eq_ok, okOr_eq_ok, ensure_eq_ok] at success
  obtain ⟨old, bonded, _, fresh, success⟩ := success
  have fresh := Option.isNone_iff_eq_none.mp fresh
  split_ifs at success
  · obtain rfl := pure_eq_ok.mp success
    exact ⟨rfl, .same rfl⟩
  · obtain rfl := pure_eq_ok.mp success
    cases present : state.ledger old with
    | none =>
      refine ⟨rfl, .moves bonded fresh rfl ?_⟩
      intro other
      change state.ledger other = _
      split_ifs with new here
      · rw [new, fresh, present]
      · rw [here, present]
      · rfl
    | some ledger =>
      refine ⟨rfl, .moves bonded fresh rfl ?_⟩
      intro other
      change Function.update (Function.update state.ledger old none) controller (some ledger)
        other = _
      rw [Function.update_apply, Function.update_apply, present]

/-- Unbonding writes one ledger, if there is something to unbond. -/
theorem unbond_cases {base : Config Account} {state after : State base} {controller : Account}
    {value : ℕ} (success : unbond state controller value = .ok after) :
    ∃ old, state.ledger controller = some old ∧ (after = state ∨
      ∃ value unlocking, 0 < value ∧ value ≤ old.active ∧
        old.unlocking.length < maxUnlockingChunks ∧
        pushChunk old.unlocking value (state.currentEra.getD 0 + base.bondingDuration) =
          some unlocking ∧
        minActiveBond state old.stash ≤ old.active - value ∧
        after = updateLedger state controller
          { old with active := old.active - value, unlocking }) := by
  simp only [unbond, bind_eq_ok, ensure_eq_ok, okOr_eq_ok] at success
  obtain ⟨old, present, _, room, success⟩ := success
  refine ⟨old, present, ?_⟩
  split_ifs at success with nothing dust
  · exact .inl (pure_eq_ok.mp success).symm
  · simp only [bind_eq_ok, ensure_eq_ok, okOr_eq_ok, pure_eq_ok] at success
    obtain ⟨_, enough, unlocking, pushed, rfl⟩ := success
    have all : min value old.active + (old.active - min value old.active) = old.active := by omega
    rw [all] at pushed
    refine .inr ⟨old.active, unlocking, by omega, le_rfl, room, pushed, ?_, ?_⟩
    · rw [Nat.sub_self]
      exact enough
    · rw [Nat.sub_self]
  · simp only [bind_eq_ok, ensure_eq_ok, okOr_eq_ok, pure_eq_ok] at success
    obtain ⟨_, enough, unlocking, pushed, rfl⟩ := success
    exact .inr ⟨min value old.active, unlocking, by omega, min_le_right _ _, room, pushed, enough,
      rfl⟩

theorem unbondStaker_moved {state after : RoleState config.toConfig} {controller : Account}
    {value : ℕ} {out : List (StakeReceipt Account)}
    (success : unbondStaker state controller value = .ok (after, out)) :
    BondingMove (.unbond controller value) state after out := by
  simp only [unbondStaker, bind_eq_ok, onStaking_eq_ok, pure_eq_ok] at success
  obtain ⟨_, ⟨chain, success, rfl⟩, result⟩ := success
  obtain ⟨rfl, rfl⟩ := Prod.mk.inj result
  obtain ⟨old, present, rfl | ⟨value, unlocking, positive, within, room, pushed, -, rfl⟩⟩ :=
    unbond_cases success
  · simp only [present, lt_irrefl, if_false]
    exact ⟨rfl, .same rfl⟩
  · have written : (updateLedger state.toState controller
        { old with active := old.active - value, unlocking }).ledger controller =
        some { old with active := old.active - value, unlocking } := Function.update_self ..
    simp only [present, written]
    rw [if_pos (by omega), Nat.sub_sub_self within]
    exact ⟨rfl, .amounts present rfl rfl (.unbonds rfl value unlocking positive within room
      pushed)⟩

/-- Clearing the metadata of a stash only forgets its slashing spans. -/
theorem clearStashMetadata_frame {base : Config Account} {state after : State base}
    {stash : Account} {spans : ℕ} (success : clearStashMetadata state stash spans = .ok after) :
    ∃ slashingSpans, after = { state with slashingSpans } := by
  unfold clearStashMetadata at success
  split at success
  · obtain rfl := Except.ok.inj success
    exact ⟨_, rfl⟩
  · simp only [bind_eq_ok, pure_eq_ok] at success
    obtain ⟨_, _, rfl⟩ := success
    exact ⟨_, rfl⟩

/-- What is left of a stash that is removed. -/
theorem killAndUnlock_stakers {base : Config Account} {state after : State base} {stash : Account}
    {spans : ℕ} (success : killAndUnlock state stash spans = .ok after) :
    after.toEraStorage = state.toEraStorage ∧ ∃ controller slashingSpans,
      state.bonded stash = some controller ∧ after.toStakerStorage =
        { state.toStakerStorage with
          bonded := Function.update state.bonded stash none
          ledger := Function.update state.ledger controller none
          payee := Function.update state.payee stash .staked
          validators := Function.update state.validators stash none
          nominators := Function.update state.nominators stash false
          slashingSpans } := by
  simp only [killAndUnlock, killStash, bind_eq_ok, okOr_eq_ok, pure_eq_ok] at success
  obtain ⟨_, ⟨controller, bonded, cleared, metadata, rfl⟩, rfl⟩ := success
  obtain ⟨slashingSpans, rfl⟩ := clearStashMetadata_frame metadata
  exact ⟨rfl, controller, slashingSpans, bonded, rfl⟩

/-- Killing a stash removes its bond and its ledger. -/
theorem killStaker_moved {state after : RoleState config.toConfig} {stash : Account} {spans : ℕ}
    (success : killStaker state stash spans = .ok after) :
    after.toEraStorage = state.toEraStorage ∧ ∃ controller,
      state.bonded stash = some controller ∧
      after.bonded = Function.update state.bonded stash none ∧
      after.ledger = Function.update state.ledger controller none := by
  simp only [killStaker, bind_eq_ok, onStaking_eq_ok, pure_eq_ok] at success
  obtain ⟨_, ⟨chain, killed, rfl⟩, rfl⟩ := success
  obtain ⟨eras, controller, spans, bonded, stakers⟩ := killAndUnlock_stakers killed
  exact ⟨eras, controller, bonded, congrArg StakerStorage.bonded stakers,
    congrArg StakerStorage.ledger stakers⟩

theorem withdrawStaker_moved {state after : RoleState config.toConfig} {controller : Account}
    {spans : ℕ} {out : List (StakeReceipt Account)}
    (success : withdrawStaker state controller spans = .ok (after, out)) :
    BondingMove call state after out := by
  simp only [withdrawStaker, ledgerOf, bind_eq_ok, okOr_eq_ok] at success
  obtain ⟨old, present, success⟩ := success
  split_ifs at success
  · obtain ⟨done, killed, result⟩ := bind_eq_ok.mp success
    obtain ⟨rfl, rfl⟩ := Prod.mk.inj (pure_eq_ok.mp result)
    obtain ⟨eras, place, paired, bonded, ledger⟩ := killStaker_moved killed
    exact ⟨eras, .kills paired bonded ledger (.inr ⟨controller, old, present, rfl, rfl⟩)⟩
  · obtain ⟨rfl, rfl⟩ := Prod.mk.inj (Except.ok.inj success)
    exact ⟨rfl, .amounts present rfl rfl .withdraws⟩

theorem slashStaker_moved (state : RoleState config.toConfig) (slashEra : ℕ)
    (entry : Account × ℕ) :
    BondingMove (.slash slashEra entry) state (slashStaker state slashEra entry) [] := by
  unfold slashStaker
  split
  · exact ⟨rfl, .same rfl⟩
  · split
    · exact ⟨rfl, .same rfl⟩
    · next controller _ ledger present =>
      dsimp only
      split_ifs
      · exact ⟨rfl, .same rfl⟩
      · exact ⟨rfl, .amounts present rfl rfl (.slashes rfl)⟩

/-- Removing a stash by force or as dust reports nothing. -/
theorem kills_moved {state after : RoleState config.toConfig} {stash : Account} {spans : ℕ}
    (success : killStaker state stash spans = .ok after) : BondingMove call state after [] := by
  obtain ⟨eras, controller, paired, bonded, ledger⟩ := killStaker_moved success
  exact ⟨eras, .kills paired bonded ledger (.inl rfl)⟩

theorem reapStaker_kills {state after : RoleState config.toConfig} {stash : Account} {spans : ℕ}
    (success : reapStaker state stash spans = .ok after) :
    killStaker state stash spans = .ok after := by
  unfold reapStaker at success
  split at success
  · contradiction
  · obtain ⟨_, _, killed⟩ := bind_eq_ok.mp success
    exact killed

/-- A call that only sets the payee, parameters or slashing spans. -/
theorem setPayee_onlyRoles {base : Config Account} {state after : RoleState base}
    {controller : Account} {payee : RewardDestination Account}
    (success : setPayee state controller payee = .ok after) : OnlyRoles state after := by
  simp only [setPayee, bind_eq_ok, pure_eq_ok] at success
  obtain ⟨_, _, rfl⟩ := success
  exact ⟨rfl, rfl, rfl, rfl, rfl⟩

theorem chill_chills {base : Config Account} {state after : RoleState base} {controller : Account}
    (success : chill state controller = .ok after) :
    ∃ ledger, state.ledger controller = some ledger ∧ after = chillStash state ledger.stash := by
  simp only [chill, ledgerOf, bind_eq_ok, okOr_eq_ok, pure_eq_ok] at success
  obtain ⟨ledger, present, rfl⟩ := success
  exact ⟨ledger, present, rfl⟩

/-- The one inversion of a step for bonds and ledgers. -/
theorem stakerStep_moved {state after : RoleState config.toConfig} {call : StakerCall config}
    {out : List (StakeReceipt Account)} (taken : stakerStep state call = .ok (after, out)) :
    state.era ≤ after.era ∧ StakerMove call state after out := by
  have settle : BondingMove call state after out →
      state.era ≤ after.era ∧ StakerMove call state after out :=
    fun moved => ⟨(congrArg EraStorage.era moved.eras).ge, moved.move⟩
  cases call with
  | chain call =>
    simp only [stakerStep, chainStep] at taken
    split_ifs at taken with chain
    split at taken
    · next success =>
      obtain ⟨rfl, rfl⟩ := Prod.mk.inj (Except.ok.inj taken)
      obtain ⟨grows, era⟩ := chain_grows chain success
      exact ⟨era, .grows grows.bonded grows.ledger⟩
    · contradiction
  | bond stash controller value payee =>
    obtain ⟨success, rfl⟩ := quietly_eq_ok.mp taken
    obtain ⟨chain, bonded, rfl⟩ := onStaking_eq_ok.mp success
    exact settle (bond_moved bonded)
  | bondExtra stash maxAdditional =>
    obtain ⟨success, rfl⟩ := quietly_eq_ok.mp taken
    obtain ⟨chain, bonded, rfl⟩ := onStaking_eq_ok.mp success
    exact settle (bondExtra_moved bonded)
  | unbond controller value => exact settle (unbondStaker_moved (reporting_eq_ok.mp taken))
  | rebond controller value =>
    obtain ⟨success, rfl⟩ := quietly_eq_ok.mp taken
    exact settle (rebondStaker_moved success)
  | withdrawUnbonded controller spans =>
    exact settle (withdrawStaker_moved (reporting_eq_ok.mp taken))
  | setController stash controller =>
    obtain ⟨success, rfl⟩ := quietly_eq_ok.mp taken
    obtain ⟨chain, moved, rfl⟩ := onStaking_eq_ok.mp success
    exact settle (setController_moved moved)
  | setPayee controller payee =>
    obtain ⟨success, rfl⟩ := quietly_eq_ok.mp taken
    exact settle (setPayee_onlyRoles success).moved
  | reapStash stash spans =>
    obtain ⟨success, rfl⟩ := quietly_eq_ok.mp taken
    exact settle (kills_moved (reapStaker_kills success))
  | forceUnstake stash spans =>
    obtain ⟨success, rfl⟩ := quietly_eq_ok.mp taken
    exact settle (kills_moved success)
  | validate controller prefs =>
    obtain ⟨success, rfl⟩ := quietly_eq_ok.mp taken
    exact settle (validate_onlyRoles success).moved
  | nominate controller targets =>
    obtain ⟨success, rfl⟩ := quietly_eq_ok.mp taken
    exact settle (nominate_onlyRoles success).moved
  | chill controller =>
    obtain ⟨success, rfl⟩ := quietly_eq_ok.mp taken
    obtain ⟨ledger, -, rfl⟩ := chill_chills success
    exact settle (chillStash_onlyRoles state ledger.stash).moved
  | chillOther caller controller =>
    obtain ⟨success, rfl⟩ := quietly_eq_ok.mp taken
    obtain ⟨ledger, -, rfl⟩ := chillOther_chills success
    exact settle (chillStash_onlyRoles state ledger.stash).moved
  | kick controller who =>
    obtain ⟨success, rfl⟩ := quietly_eq_ok.mp taken
    exact settle (kick_onlyRoles success).moved
  | forceApplyMinCommission stash =>
    obtain ⟨success, rfl⟩ := quietly_eq_ok.mp taken
    exact settle (forceApplyMinCommission_onlyRoles success).moved
  | setStakingConfigs _ _ _ _ _ _ =>
    obtain ⟨rfl, rfl⟩ := Prod.mk.inj (Except.ok.inj taken)
    exact settle ⟨rfl, .still rfl rfl⟩
  | slash slashEra entry =>
    obtain ⟨rfl, rfl⟩ := Prod.mk.inj (Except.ok.inj taken)
    exact settle (slashStaker_moved state slashEra entry)
  | chillOffender stash =>
    obtain ⟨rfl, rfl⟩ := Prod.mk.inj (Except.ok.inj taken)
    exact settle (chillStash_onlyRoles state stash).moved
  | outside store slashingSpans =>
    obtain ⟨rfl, rfl⟩ := Prod.mk.inj (Except.ok.inj taken)
    exact settle ⟨rfl, .still rfl rfl⟩

end GlitchRuntime.Staking
