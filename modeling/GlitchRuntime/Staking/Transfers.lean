import GlitchRuntime.Staking.Payout

/-! # Payouts are transfers

A payout credits stakers one by one and charges the fund once with the merged imbalance. So the
sum of the credits, the charge and the entry of the era agree whatever the reward destinations are,
and nothing is minted.
-/

namespace GlitchRuntime.Staking

open Lib

variable {Account : Type} [DecidableEq Account] {config : Config Account}

/-- Where the reward destination of a staker points. -/
def destination (stakers : StakerStorage Account) (stash : Account) : Option Account :=
  match stakers.payee stash with
  | .controller => stakers.bonded stash
  | .stash | .staked => some stash
  | .account dest => some dest
  | .none => none

/-- What paying stakers does to the storage: credits, and amounts of ledgers. -/
structure Pays (before after : State config) (credits : List (Credit Account)) : Prop where
  eras : after.toEraStorage = before.toEraStorage
  claims : SameClaims before.toStakerStorage after.toStakerStorage
  payee : after.payee = before.payee
  credits : config.currency.CreditsAll before.store after.store credits

namespace Pays

theorem refl (state : State config) : Pays state state [] :=
  ⟨rfl, .refl _, rfl, .nil _⟩

theorem trans {first second third : State config} {early late : List (Credit Account)}
    (left : Pays first second early) (right : Pays second third late) :
    Pays first third (early ++ late) :=
  ⟨right.eras.trans left.eras, left.claims.trans right.claims, right.payee.trans left.payee,
    left.credits.append right.credits⟩

/-- Paying stakers redirects nobody. -/
theorem destination_eq {before after : State config} {credits : List (Credit Account)}
    (pays : Pays before after credits) (stash : Account) :
    destination after.toStakerStorage stash = destination before.toStakerStorage stash := by
  simp only [destination, pays.payee, pays.claims.bonded]

/-- A deposit is a payment. -/
private theorem deposit {state : State config} {store : config.currency.Store}
    (credit : Credit Account)
    (credited : config.currency.Credits state.store store credit.account credit.amount) :
    Pays state { state with store } [credit] :=
  ⟨rfl, .refl _, rfl, .single credited⟩

/-- Adding to the amounts of a ledger pays nobody. -/
private theorem restake (state : State config) {controller : Account}
    {ledger : StakingLedger Account} (present : state.ledger controller = some ledger)
    (amount : ℕ) :
    Pays state (updateLedger state controller
      { ledger with active := ledger.active + amount, total := ledger.total + amount }) [] :=
  ⟨rfl, updateLedger_sameClaims present rfl rfl, rfl,
    (CurrencyOps.CreditsAll.nil _).still (config.currency.setLock_still ..)⟩

end Pays

/-- A payment credits at most the amount, at the staker's destination. -/
theorem makePayout_pays (state : State config) (stash : Account) (amount : ℕ) :
    Pays state (makePayout state stash amount).1 (makePayout state stash amount).2.toList ∧
    Credit.total (makePayout state stash amount).2.toList ≤ amount ∧
    ∀ credit ∈ (makePayout state stash amount).2,
      destination state.toStakerStorage stash = some credit.account := by
  have create : ∀ who, Pays state
      { state with store := (config.currency.depositCreating state.store who amount).1 }
      [⟨who, (config.currency.depositCreating state.store who amount).2⟩] := fun who =>
    .deposit ⟨who, _⟩ (config.currency.depositCreating_credits ..).1
  have small : ∀ who, (config.currency.depositCreating state.store who amount).2 ≤ amount :=
    fun who => (config.currency.depositCreating_credits ..).2
  unfold makePayout destination
  cases state.payee stash with
  | none => exact ⟨.refl _, Nat.zero_le _, by simp⟩
  | account dest => exact ⟨create dest, by simpa using small dest, by simp⟩
  | controller =>
    cases bonded : state.bonded stash with
    | none => exact ⟨.refl _, Nat.zero_le _, by simp⟩
    | some controller =>
      exact ⟨create controller, by simpa using small controller, by simp⟩
  | stash =>
    cases paid : config.currency.depositIntoExisting state.store stash amount with
    | none => exact ⟨.refl _, Nat.zero_le _, by simp⟩
    | some result =>
      obtain ⟨credited, bound⟩ := config.currency.depositIntoExisting_credits _ _ _ _ _ paid
      exact ⟨.deposit ⟨stash, result.2⟩ credited, by simpa using bound, by simp⟩
  | staked =>
    cases bonded : state.bonded stash with
    | none => exact ⟨.refl _, Nat.zero_le _, by simp⟩
    | some controller =>
      cases present : state.ledger controller with
      | none => exact ⟨by simpa [present] using Pays.refl state, by simp [present], by simp [present]⟩
      | some ledger =>
        cases paid : config.currency.depositIntoExisting state.store stash amount with
        | none =>
          simp only [present]
          exact ⟨.restake state present amount, Nat.zero_le _, by simp⟩
        | some result =>
          obtain ⟨credited, bound⟩ := config.currency.depositIntoExisting_credits _ _ _ _ _ paid
          simp only [present]
          exact ⟨(Pays.deposit ⟨stash, result.2⟩ credited).trans
            (.restake { state with store := result.1 } present amount),
            by simpa using bound, by simp⟩

/-- The loop pays every staker at most its amount, at its own destination. -/
theorem payStakers_pays (state : State config) (stakers : List (IndividualExposure Account)) :
    Pays state (payStakers state stakers).1 (payStakers state stakers).2 ∧
    Credit.total (payStakers state stakers).2 ≤ (stakers.map IndividualExposure.value).sum ∧
    ∀ credit ∈ (payStakers state stakers).2, ∃ staker ∈ stakers,
      destination state.toStakerStorage staker.who = some credit.account := by
  induction stakers generalizing state with
  | nil => exact ⟨.refl _, le_rfl, List.forall_mem_nil _⟩
  | cons staker rest ih =>
    obtain ⟨pays, bound, addressed⟩ := makePayout_pays state staker.who staker.value
    obtain ⟨others, boundOthers, addressedOthers⟩ := ih (makePayout state staker.who staker.value).1
    refine ⟨pays.trans others, ?_, fun credit member => ?_⟩
    · simp only [payStakers, Credit.total_append, List.map_cons, List.sum_cons]
      exact Nat.add_le_add bound boundOthers
    · simp only [payStakers, List.mem_append, Option.mem_toList] at member
      rcases member with first | later
      · exact ⟨staker, List.mem_cons_self .., addressed credit first⟩
      · obtain ⟨other, present, points⟩ := addressedOthers credit later
        exact ⟨other, List.mem_cons_of_mem _ present, (pays.destination_eq _).symm.trans points⟩

omit [DecidableEq Account] in
/-- The parts of an exposure, validator first. -/
private theorem split_le (exposure : Exposure Account) (leftover : ℕ) :
    2 * ((Perbill.fromRational exposure.own exposure.total).mul leftover +
      (exposure.others.map fun nominator =>
        (Perbill.fromRational nominator.value exposure.total).mul leftover).sum) ≤
      2 * leftover + exposure.others.length := by
  have covered : (exposure.own :: exposure.others.map IndividualExposure.value).sum ≤
      exposure.total := by
    rw [List.sum_cons]
    exact exposure.backed
  have split := Perbill.two_mul_sum_lt leftover (List.cons_ne_nil _ _) covered
  simp only [List.map_cons, List.sum_cons, List.map_map, Function.comp_def, List.length_cons,
    List.length_map] at split
  omega

omit [DecidableEq Account] in
/-- Commission and exposures together overshoot by at most half a unit for each nominator. -/
theorem payouts_le (exposure : Exposure Account) (prefs : ValidatorPrefs) (total : ℕ) :
    2 * (validatorPayout exposure prefs total +
      ((nominatorPayouts exposure prefs total).map IndividualExposure.value).sum) ≤
      2 * total + exposure.others.length := by
  have cut : commissionPayout prefs total ≤ total := Perbill.mul_le _ _
  have split := split_le exposure (total - commissionPayout prefs total)
  simp only [validatorPayout, nominatorPayouts, List.map_map, Function.comp_def]
  omega

/-- The era storage with a value taken off the reserve of an era, if there is one. -/
def EraStorage.takeReserve (eras : EraStorage Account) (era value : ℕ) : EraStorage Account :=
  { eras with
    erasNotClaimedReward := Function.update eras.erasNotClaimedReward era
      ((eras.erasNotClaimedReward era).map (· - value)) }

omit [DecidableEq Account] in
@[simp] theorem takeReserve_erasNotClaimedReward (eras : EraStorage Account) (era value other : ℕ) :
    (eras.takeReserve era value).erasNotClaimedReward other =
      if other = era then (eras.erasNotClaimedReward era).map (· - value)
      else eras.erasNotClaimedReward other :=
  Function.update_apply ..

omit [DecidableEq Account] in
theorem takeReserve_zero (eras : EraStorage Account) (era : ℕ) : eras.takeReserve era 0 = eras := by
  have same : (eras.erasNotClaimedReward era).map (· - 0) = eras.erasNotClaimedReward era :=
    Option.map_id'
  rw [EraStorage.takeReserve, same, Function.update_eq_self]

private theorem updateNotClaimedReward_eq (state : State config) (era value : ℕ) :
    updateNotClaimedReward state era value =
      { state with toEraStorage := state.toEraStorage.takeReserve era value } := by
  unfold updateNotClaimedReward EraStorage.takeReserve
  cases present : state.erasNotClaimedReward era with
  | none =>
    dsimp only
    rw [Option.map_none, ← present, Function.update_eq_self]
  | some reward => rfl

/-- The claim a payout enters, and nothing else about bonds. -/
structure EntersClaim (before after : StakerStorage Account) (input : PayoutInput Account) :
    Prop where
  bonded : after.bonded = before.bonded
  claims : ∀ controller, after.claims controller =
    if controller = input.controller then some (input.ledger.stash, input.ledger.claimedRewards)
    else before.claims controller

/-- Everything a successful payout does. -/
structure Paid (before after : State config) (validatorStash : Account) (era : ℕ)
    (input : PayoutInput Account) (receipt : PayoutReceipt Account) : Prop where
  stash_eq : receipt.stash = validatorStash
  era_eq : receipt.era = era
  eraPayout_eq : receipt.eraPayout = input.eraPayout
  reserved_eq : receipt.reserved = (before.erasNotClaimedReward era).getD 0
  bound : 2 * receipt.taken ≤ 2 * validatorTotalPayout (before.erasRewardPoints era)
    input.ledger.stash input.eraPayout + receipt.nominators
  eras : after.toEraStorage = before.toEraStorage.takeReserve era receipt.taken
  claims : EntersClaim before.toStakerStorage after.toStakerStorage input
  transfer : ∃ middle, config.currency.CreditsAll before.store middle receipt.credits ∧
    config.currency.Credits after.store middle config.fund receipt.taken
  addressed : ∀ credit ∈ receipt.credits, ∃ staker,
    (staker = input.ledger.stash ∨
      ∃ nominator ∈ (before.erasStakersClipped era input.ledger.stash).others,
        nominator.who = staker) ∧
    destination before.toStakerStorage staker = some credit.account

private theorem enterClaim_claims (state : State config) (input : PayoutInput Account) :
    EntersClaim state.toStakerStorage (enterClaim state input).toStakerStorage input := by
  refine ⟨rfl, fun controller => ?_⟩
  change (Function.update state.ledger input.controller (some input.ledger) controller).map _ = _
  rw [Function.update_apply]
  split_ifs <;> rfl

/-- Distributing pays the validator and its nominators. -/
theorem distribute_pays (state : State config) (stash validatorStash : Account)
    (era eraPayout : ℕ) :
    let paid := distribute state stash validatorStash era eraPayout
    Pays state paid.1 (paid.2.1.toList ++ paid.2.2) ∧
    2 * Credit.total (paid.2.1.toList ++ paid.2.2) ≤
      2 * validatorTotalPayout (state.erasRewardPoints era) stash eraPayout +
        (state.erasStakersClipped era stash).others.length ∧
    ∀ credit ∈ paid.2.1.toList ++ paid.2.2, ∃ staker,
      (staker = stash ∨
        ∃ nominator ∈ (state.erasStakersClipped era stash).others, nominator.who = staker) ∧
      destination state.toStakerStorage staker = some credit.account := by
  set exposure := state.erasStakersClipped era stash with exposure_eq
  set total := validatorTotalPayout (state.erasRewardPoints era) stash eraPayout with total_eq
  set prefs := state.erasValidatorPrefs era validatorStash with prefs_eq
  obtain ⟨own, ownBound, ownAddressed⟩ :=
    makePayout_pays state stash (validatorPayout exposure prefs total)
  obtain ⟨others, othersBound, othersAddressed⟩ := payStakers_pays
    (makePayout state stash (validatorPayout exposure prefs total)).1
    (nominatorPayouts exposure prefs total)
  refine ⟨own.trans others, ?_, fun credit member => ?_⟩
  · have split := payouts_le exposure prefs total
    change 2 * Credit.total
      ((makePayout state stash (validatorPayout exposure prefs total)).2.toList ++
        (payStakers (makePayout state stash (validatorPayout exposure prefs total)).1
          (nominatorPayouts exposure prefs total)).2) ≤ _
    rw [Credit.total_append]
    omega
  · change credit ∈ (makePayout _ _ _).2.toList ++ (payStakers _ _).2 at member
    rw [List.mem_append, Option.mem_toList] at member
    rcases member with first | later
    · exact ⟨stash, .inl rfl, ownAddressed credit first⟩
    · obtain ⟨staker, member, points⟩ := othersAddressed credit later
      obtain ⟨nominator, present, rfl⟩ := List.mem_map.mp member
      exact ⟨nominator.who, .inr ⟨nominator, present, rfl⟩,
        (own.destination_eq _).symm.trans points⟩

/-- What the checks of a payout established. -/
structure Checked (state : State config) (validatorStash : Account) (era : ℕ)
    (input : PayoutInput Account) : Prop where
  window : state.InWindow era
  reward : state.erasValidatorReward era = some input.eraPayout
  bonded : state.bonded validatorStash = some input.controller
  claim : ∃ current before, state.currentEra = some current ∧
    state.claims input.controller = some (input.ledger.stash, before) ∧
    (before.retain (state.firstEra current)).claim era = some input.ledger.claimedRewards

theorem checkPayout_checked {state : State config} {validatorStash : Account} {era : ℕ}
    {input : PayoutInput Account} (success : checkPayout state validatorStash era = .ok input) :
    Checked state validatorStash era input := by
  simp only [checkPayout, bind_eq_ok, okOr_eq_ok, ensure_eq_ok, pure_eq_ok] at success
  obtain ⟨current, planned, _, window, eraPayout, reward, controller, bonded, ledger, present,
    claimed, claim, rfl⟩ := success
  refine ⟨⟨current, planned, window⟩, reward, bonded, current, ledger.claimedRewards, planned, ?_,
    claim⟩
  simp [StakerStorage.claims, present]

/-- The era check refuses exactly what is out of the window or has no reward, whoever is paid. -/
theorem checkPayout_invalidEra_iff (state : State config) (validatorStash : Account) (era : ℕ) :
    checkPayout state validatorStash era = .error .invalidEraToReward ↔
      ¬ (state.InWindow era ∧ state.erasValidatorReward era ≠ none) := by
  simp only [checkPayout, bind_eq_error, okOr_eq_error, okOr_eq_ok, ensure_eq_error, ensure_eq_ok,
    pure_ne_error, reduceCtorEq, and_false, and_true, or_false, exists_false]
  constructor
  · rintro (none_yet | ⟨current, planned, outside | ⟨-, -, gone⟩⟩) ⟨⟨_, present, window⟩, rewarded⟩
    · cases none_yet.symm.trans present
    · obtain rfl := Option.some.inj (planned.symm.trans present)
      exact outside window
    · exact rewarded gone
  · intro refused
    cases planned : state.currentEra with
    | none => exact .inl rfl
    | some current =>
      refine .inr ⟨current, rfl, ?_⟩
      by_cases window : era ≤ current ∧ state.firstEra current ≤ era
      · refine .inr ⟨(), window, ?_⟩
        by_contra rewarded
        exact refused ⟨⟨current, planned, window⟩, rewarded⟩
      · exact .inl window

/-- What happens after the checks, when the fund can pay. -/
theorem settlePayout_paid {state after : State config} {validatorStash : Account} {era : ℕ}
    {input : PayoutInput Account} {receipt : PayoutReceipt Account}
    (success : settlePayout state validatorStash era input = .ok (after, receipt)) :
    Paid state after validatorStash era input receipt := by
  have claims := enterClaim_claims state input
  simp only [settlePayout] at success
  split_ifs at success
  · obtain ⟨rfl, rfl⟩ := Prod.mk.inj (Except.ok.inj success)
    refine ⟨rfl, rfl, rfl, rfl, ?_, ?_, claims, ⟨state.store, .nil _, ?_⟩, ?_⟩
    · exact Nat.zero_le _
    · exact (takeReserve_zero state.toEraStorage era).symm
    · exact ⟨fun account => by simp [enterClaim, PayoutReceipt.taken], rfl⟩
    · exact List.forall_mem_nil _
  · obtain ⟨pays, bound, addressed⟩ := distribute_pays (enterClaim state input)
      input.ledger.stash validatorStash era input.eraPayout
    set paid := distribute (enterClaim state input) input.ledger.stash validatorStash era
      input.eraPayout
    split at success
    · contradiction
    · next store settled =>
      obtain ⟨rfl, rfl⟩ := Prod.mk.inj (Except.ok.inj success)
      have debits := config.currency.settle_debits settled
      rw [updateNotClaimedReward_eq]
      refine ⟨rfl, rfl, rfl, rfl, bound, ?_, ?_, ⟨paid.1.store, pays.credits, debits⟩, addressed⟩
      · have eras : paid.1.toEraStorage = state.toEraStorage := pays.eras
        change paid.1.toEraStorage.takeReserve era _ = _
        rw [eras]
        rfl
      · exact ⟨pays.claims.bonded.trans claims.bonded, fun controller =>
          (pays.claims.claims controller).trans (claims.claims controller)⟩

/-- A successful payout passed its checks and did what it records. -/
theorem doPayoutStakers_paid {state after : State config} {validatorStash : Account} {era : ℕ}
    {receipt : PayoutReceipt Account}
    (success : doPayoutStakers state validatorStash era = .ok (after, receipt)) :
    ∃ input, Checked state validatorStash era input ∧
      Paid state after validatorStash era input receipt := by
  simp only [doPayoutStakers, bind_eq_ok] at success
  obtain ⟨input, checked, settled⟩ := success
  exact ⟨input, checkPayout_checked checked, settlePayout_paid settled⟩

/-- A payout moves its credits from the fund to where the stakers' destinations point: the
issuance is unchanged, the fund falls by their sum net of those to itself, every other account
gains what is addressed to it, and the reserve of the era falls by the sum. -/
theorem doPayoutStakers_transfers {state after : State config} {validatorStash : Account} {era : ℕ}
    {receipt : PayoutReceipt Account}
    (success : doPayoutStakers state validatorStash era = .ok (after, receipt)) :
    config.currency.totalIssuance after.store = config.currency.totalIssuance state.store ∧
    config.currency.freeBalance after.store config.fund + Credit.total receipt.credits =
      config.currency.freeBalance state.store config.fund +
        Credit.totalTo receipt.credits config.fund ∧
    (∀ account, account ≠ config.fund →
      config.currency.freeBalance after.store account =
        config.currency.freeBalance state.store account +
          Credit.totalTo receipt.credits account) ∧
    after.erasNotClaimedReward era =
      (state.erasNotClaimedReward era).map (· - Credit.total receipt.credits) ∧
    (∀ other, other ≠ era → after.erasNotClaimedReward other = state.erasNotClaimedReward other) ∧
    ∃ controller ledger, state.bonded validatorStash = some controller ∧
      state.ledger controller = some ledger ∧
      ∀ credit ∈ receipt.credits, ∃ staker,
        (staker = ledger.stash ∨
          ∃ nominator ∈ (state.erasStakersClipped era ledger.stash).others,
            nominator.who = staker) ∧
        destination state.toStakerStorage staker = some credit.account := by
  obtain ⟨input, checked, paid⟩ := doPayoutStakers_paid success
  obtain ⟨middle, credits, debits⟩ := paid.transfer
  have reserve : ∀ other, after.erasNotClaimedReward other =
      if other = era then (state.erasNotClaimedReward era).map (· - receipt.taken)
      else state.erasNotClaimedReward other := fun other => by
    rw [paid.eras, takeReserve_erasNotClaimedReward]
  refine ⟨debits.issuance.symm.trans credits.issuance, ?_, fun account apart => ?_, ?_,
    fun other apart => ?_, ?_⟩
  · have charged := debits.free config.fund
    rw [if_pos rfl, credits.free] at charged
    exact charged.symm
  · have untouched := debits.free account
    rw [if_neg apart, credits.free] at untouched
    exact untouched.symm
  · rw [reserve, if_pos rfl]
    rfl
  · rw [reserve, if_neg apart]
  · obtain ⟨_, _, _, claims, _⟩ := checked.claim
    obtain ⟨ledger, present, same⟩ := Option.map_eq_some_iff.mp claims
    have stash : ledger.stash = input.ledger.stash := congrArg Prod.fst same
    refine ⟨input.controller, ledger, checked.bonded, present, ?_⟩
    rw [stash]
    exact paid.addressed

/-- An era with 10 to pay, all of it to a validator with two nominators of which one is paid to
the fund itself. -/
def sharedEra : State smallConfig :=
  { genesisState smallConfig ⟨fun _ => 50, 500⟩ 84 with
    currentEra := some 1
    bonded := fun stash => if stash = 7 then some 8 else none
    ledger := fun controller => if controller = 8 then some ⟨7, 50, 50, [], .ofRange 0 0⟩ else none
    payee := fun stash => if stash = 5 then .account 0 else if stash = 6 then .none else .staked
    erasValidatorReward := fun era => if era = 0 then some 10 else none
    erasNotClaimedReward := fun era => if era = 0 then some 10 else none
    erasRewardPoints := fun _ => EraRewardPoints.empty.award 7 20
    erasStakersClipped := fun _ _ => ⟨100, 50, [⟨5, 30⟩, ⟨6, 20⟩], by decide⟩ }

theorem sharedEra_transfers : ∃ after receipt, doPayoutStakers sharedEra 7 0 = .ok (after, receipt) ∧
    receipt.credits = [⟨7, 5⟩, ⟨0, 3⟩] ∧
    after.store.free 0 + 8 = 50 + 3 ∧ after.erasNotClaimedReward 0 = some 2 := by
  have success : doPayoutStakers sharedEra 7 0 = .ok (_, _) := rfl
  obtain ⟨-, fund, -, reserve, -⟩ := doPayoutStakers_transfers success
  exact ⟨_, _, success, by decide, fund, reserve⟩

end GlitchRuntime.Staking
