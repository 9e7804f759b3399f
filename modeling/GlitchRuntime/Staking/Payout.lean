import GlitchRuntime.Staking.Bonding

/-! # Paying the stakers of a validator

`do_payout_stakers` checks the era and the claim, splits the validator's part of the era reward by
commission and exposure, credits every staker where its reward destination points, and only then
charges the fund with everything credited. A payout leaves a receipt of what it did.
-/

namespace GlitchRuntime.Staking

open Lib

variable {Account : Type} [DecidableEq Account] {config : Config Account}

/-- What a successful payout did: whom it paid out for which era, and every credit it made. -/
structure PayoutReceipt (Account : Type) where
  stash : Account
  era : ℕ
  /-- `ErasValidatorReward` of the era. -/
  eraPayout : ℕ
  /-- `ErasNotClaimedReward` of the era before this payout. -/
  reserved : ℕ
  /-- How many nominators the clipped exposure has. -/
  nominators : ℕ
  /-- How many of them were paid, by which the call is weighed. -/
  nominatorPayoutCount : ℕ
  credits : List (Credit Account)
deriving DecidableEq

namespace PayoutReceipt

/-- What the fund was charged. -/
def taken (receipt : PayoutReceipt Account) : ℕ := Credit.total receipt.credits

/-- What was charged beyond the reserve of the era. -/
def overdraft (receipt : PayoutReceipt Account) : ℕ := receipt.taken - receipt.reserved

/-- The validator and its nominators, each of which may round once. -/
def stakers (receipt : PayoutReceipt Account) : ℕ := 1 + receipt.nominators

end PayoutReceipt

/-- The first era the history still keeps. -/
def EraStorage.firstEra (eras : EraStorage Account) (currentEra : ℕ) : ℕ :=
  currentEra - eras.historyDepth.toNat

/-- The era check of `do_payout_stakers`. -/
def EraStorage.InWindow (eras : EraStorage Account) (era : ℕ) : Prop :=
  ∃ currentEra, eras.currentEra = some currentEra ∧
    era ≤ currentEra ∧ eras.firstEra currentEra ≤ era

/-- What the checks of `do_payout_stakers` read, with the era entered as claimed. -/
structure PayoutInput (Account : Type) where
  eraPayout : ℕ
  controller : Account
  ledger : StakingLedger Account

/-- The checks of `do_payout_stakers`. -/
def checkPayout (state : State config) (validatorStash : Account) (era : ℕ) :
    Except Error (PayoutInput Account) := do
  let currentEra ← okOr state.currentEra .invalidEraToReward
  ensure (era ≤ currentEra ∧ state.firstEra currentEra ≤ era) .invalidEraToReward
  let eraPayout ← okOr (state.erasValidatorReward era) .invalidEraToReward
  let controller ← okOr (state.bonded validatorStash) .notStash
  let ledger ← okOr (state.ledger controller) .notController
  let claimedRewards ←
    okOr ((ledger.claimedRewards.retain (state.firstEra currentEra)).claim era) .alreadyClaimed
  return ⟨eraPayout, controller, { ledger with claimedRewards }⟩

/-- Actually make a payment to a staker, giving the credit when there is one. -/
def makePayout (state : State config) (stash : Account) (amount : ℕ) :
    State config × Option (Credit Account) :=
  match state.payee stash with
  | .controller =>
    match state.bonded stash with
    | some controller =>
      let (store, credited) := config.currency.depositCreating state.store controller amount
      ({ state with store }, some ⟨controller, credited⟩)
    | none => (state, none)
  | .stash =>
    match config.currency.depositIntoExisting state.store stash amount with
    | some (store, credited) => ({ state with store }, some ⟨stash, credited⟩)
    | none => (state, none)
  | .staked =>
    match state.bonded stash with
    | some controller =>
      match state.ledger controller with
      | some ledger =>
        let ledger :=
          { ledger with active := ledger.active + amount, total := ledger.total + amount }
        match config.currency.depositIntoExisting state.store stash amount with
        | some (store, credited) =>
          (updateLedger { state with store } controller ledger, some ⟨stash, credited⟩)
        | none => (updateLedger state controller ledger, none)
      | none => (state, none)
    | none => (state, none)
  | .account dest =>
    let (store, credited) := config.currency.depositCreating state.store dest amount
    ({ state with store }, some ⟨dest, credited⟩)
  | .none => (state, none)

/-- Pay the stakers one after the other, collecting the credits. -/
def payStakers (state : State config) :
    List (IndividualExposure Account) → State config × List (Credit Account)
  | [] => (state, [])
  | ⟨who, amount⟩ :: rest =>
    let paid := makePayout state who amount
    let others := payStakers paid.1 rest
    (others.1, paid.2.toList ++ others.2)

/-- What validator and nominators together are entitled to. -/
def validatorTotalPayout (points : EraRewardPoints Account) (stash : Account) (eraPayout : ℕ) : ℕ :=
  (Perbill.fromRational (points.individual stash).toNat points.total.toNat).mul eraPayout

/-- The commission off the top. -/
def commissionPayout (prefs : ValidatorPrefs) (total : ℕ) : ℕ := prefs.commission.mul total

/-- What the validator gets: its commission and its own part of the rest. -/
def validatorPayout (exposure : Exposure Account) (prefs : ValidatorPrefs) (total : ℕ) : ℕ :=
  (Perbill.fromRational exposure.own exposure.total).mul (total - commissionPayout prefs total) +
    commissionPayout prefs total

/-- What each nominator gets of the rest. -/
def nominatorPayouts (exposure : Exposure Account) (prefs : ValidatorPrefs) (total : ℕ) :
    List (IndividualExposure Account) :=
  exposure.others.map fun nominator =>
    ⟨nominator.who, (Perbill.fromRational nominator.value exposure.total).mul
      (total - commissionPayout prefs total)⟩

/-- Take a claimed value off the reserve of its era, if the era has one. -/
def updateNotClaimedReward (state : State config) (era claimedValue : ℕ) : State config :=
  match state.erasNotClaimedReward era with
  | none => state
  | some reward =>
    { state with
      erasNotClaimedReward :=
        Function.update state.erasNotClaimedReward era (some (reward - claimedValue)) }

/-- Pay the validator, then the nominators; the credits of each. -/
def distribute (state : State config) (stash validatorStash : Account) (era eraPayout : ℕ) :
    State config × Option (Credit Account) × List (Credit Account) :=
  let exposure := state.erasStakersClipped era stash
  let total := validatorTotalPayout (state.erasRewardPoints era) stash eraPayout
  let prefs := state.erasValidatorPrefs era validatorStash
  let validator := makePayout state stash (validatorPayout exposure prefs total)
  let nominators := payStakers validator.1 (nominatorPayouts exposure prefs total)
  (nominators.1, validator.2, nominators.2)

/-- Enter the era as claimed. -/
def enterClaim (state : State config) (input : PayoutInput Account) : State config :=
  { state with ledger := Function.update state.ledger input.controller (some input.ledger) }

/-- The part of `do_payout_stakers` after its checks. -/
def settlePayout (state : State config) (validatorStash : Account) (era : ℕ)
    (input : PayoutInput Account) : Except Error (State config × PayoutReceipt Account) :=
  let stash := input.ledger.stash
  let claimed := enterClaim state input
  let receipt : PayoutReceipt Account :=
    { stash := validatorStash
      era
      eraPayout := input.eraPayout
      reserved := (state.erasNotClaimedReward era).getD 0
      nominators := (state.erasStakersClipped era stash).others.length
      nominatorPayoutCount := 0
      credits := [] }
  -- nothing to do without reward points
  if (state.erasRewardPoints era).individual stash = 0 then .ok (claimed, receipt)
  else
    let (paid, validatorCredit, nominatorCredits) :=
      distribute claimed stash validatorStash era input.eraPayout
    let credits := validatorCredit.toList ++ nominatorCredits
    let value := Credit.total credits
    match config.currency.settle paid.store config.fund value with
    | none => .error .cannotPayout
    | some store =>
      .ok (updateNotClaimedReward { paid with store } era value,
        { receipt with credits, nominatorPayoutCount := nominatorCredits.length })

/-- Pay out all the stakers behind a single validator for a single era. -/
def doPayoutStakers (state : State config) (validatorStash : Account) (era : ℕ) :
    Except Error (State config × PayoutReceipt Account) := do
  let input ← checkPayout state validatorStash era
  settlePayout state validatorStash era input

end GlitchRuntime.Staking
