import GlitchRuntime.Staking.EraWindow
import GlitchRuntime.Staking.PayoutCap

/-! # The solvency of the reward fund

At the end of an era the fund sets aside what no earlier era reserves, so the reserves it still has
to pay are covered when they are set. Payouts take from fund and reserve alike, except for what
rounding charges beyond a reserve: by that overdraft, and no more, the fund can fall short.
-/

namespace GlitchRuntime.Staking

open Lib

variable {Account : Type}

/-- The eras that `do_payout_stakers` still accepts. -/
def payableEras (eras : EraStorage Account) : Finset ℕ :=
  match eras.currentEra with
  | none => ∅
  | some current => (Finset.range (current + 1)).filter fun era =>
      eras.firstEra current ≤ era ∧ (eras.erasValidatorReward era).isSome

/-- The reserves of the eras that are still accepted. -/
def payableReserve (eras : EraStorage Account) : ℕ :=
  ∑ era ∈ payableEras eras, (eras.erasNotClaimedReward era).getD 0

/-- What the payouts of a run charged beyond the reserve of their era. -/
def overdrawn (log : List (PayoutReceipt Account)) : ℕ :=
  (log.map PayoutReceipt.overdraft).sum

/-- What the payouts of one era charged beyond its reserve. -/
def overdrawnIn (log : List (PayoutReceipt Account)) (era : ℕ) : ℕ :=
  overdrawn (receiptsOf log era)

theorem mem_payableEras {eras : EraStorage Account} {era : ℕ} :
    era ∈ payableEras eras ↔ eras.InWindow era ∧ eras.erasValidatorReward era ≠ none := by
  unfold payableEras EraStorage.InWindow
  cases planned : eras.currentEra with
  | none => simp
  | some current =>
    rw [Finset.mem_filter, Finset.mem_range, Option.isSome_iff_ne_none]
    constructor
    · rintro ⟨bound, low, present⟩
      exact ⟨⟨current, rfl, by omega, low⟩, present⟩
    · rintro ⟨⟨_, same, bound, low⟩, present⟩
      obtain rfl := Option.some.inj same
      exact ⟨by omega, low, present⟩

/-- Where only reserves differ, the same eras are accepted. -/
theorem payableEras_takeReserve (eras : EraStorage Account) (era value : ℕ) :
    payableEras (eras.takeReserve era value) = payableEras eras := rfl

/-! ## Reserves over a step -/

/-- Fewer accepted eras with the same reserves reserve less. -/
theorem payableReserve_le {before after : EraStorage Account}
    (accepted : payableEras after ⊆ payableEras before)
    (same : ∀ era ∈ payableEras after,
      after.erasNotClaimedReward era = before.erasNotClaimedReward era) :
    payableReserve after ≤ payableReserve before := by
  calc payableReserve after
      = ∑ era ∈ payableEras after, (before.erasNotClaimedReward era).getD 0 :=
        Finset.sum_congr rfl fun era member => by rw [same era member]
    _ ≤ payableReserve before := Finset.sum_le_sum_of_subset accepted

/-- Every era with a reward is retained. -/
def AllRetained (eras : EraStorage Account) : Prop :=
  ∀ era, eras.erasValidatorReward era ≠ none → eras.Retained era

/-- With a positive depth the era that ends stays inside the history. -/
private theorem AllRetained.setEraReward {eras : EraStorage Account} (retained : AllRetained eras)
    (positive : eras.historyDepth ≠ 0) {index : ℕ} (current : eras.currentEra = some (index + 1))
    (reward : ℕ) : AllRetained (setEraReward eras index reward) := by
  intro era present
  rw [setEraReward_erasValidatorReward] at present
  split_ifs at present with here
  · intro later planned
    obtain rfl := Option.some.inj (current.symm.trans planned)
    have first := firstReserved_eq_firstEra positive index
    left
    change eras.firstEra (index + 1) ≤ era
    rw [← first, here]
    exact Nat.sub_le _ _
  · exact retained era present

/-- An accepted era was retained or passed the era check before. -/
private theorem Prunes.payable {before after : EraStorage Account} (prunes : Prunes before after)
    (retained : AllRetained before) (started : ∀ era, before.erasValidatorReward era ≠ none →
      ∃ current, before.currentEra = some current ∧ era ≤ current) :
    payableReserve after ≤ payableReserve before := by
  refine payableReserve_le (fun era member => ?_) fun era member => ?_
  · obtain ⟨window, present⟩ := mem_payableEras.mp member
    have present := prunes.reward_eq present ▸ present
    obtain ⟨current, planned, bound⟩ := started era present
    have alive : ¬ before.Expired era := fun expired =>
      (expired.mono prunes.currentEra).not_inWindow window
    exact mem_payableEras.mpr
      ⟨⟨current, planned, bound, (retained era present).low alive planned⟩, present⟩
  · have present := (mem_payableEras.mp member).2
    rcases prunes.records era with ⟨gone, -⟩ | ⟨-, notClaimed, -⟩
    · exact absurd gone present
    · exact notClaimed

/-- What a charge takes off the reserve of an accepted era, up to the overdraft. -/
private theorem payableReserve_takeReserve {eras : EraStorage Account} {era : ℕ} (value : ℕ)
    (accepted : era ∈ payableEras eras) :
    payableReserve (eras.takeReserve era value) + value =
      payableReserve eras + (value - (eras.erasNotClaimedReward era).getD 0) := by
  unfold payableReserve
  rw [payableEras_takeReserve, ← Finset.add_sum_erase _ _ accepted,
    ← Finset.add_sum_erase _ (fun era => (eras.erasNotClaimedReward era).getD 0) accepted]
  have others : ∑ other ∈ (payableEras eras).erase era,
        ((eras.takeReserve era value).erasNotClaimedReward other).getD 0 =
      ∑ other ∈ (payableEras eras).erase era, (eras.erasNotClaimedReward other).getD 0 := by
    refine Finset.sum_congr rfl fun other member => ?_
    rw [takeReserve_erasNotClaimedReward, if_neg (Finset.ne_of_mem_erase member)]
  rw [others, takeReserve_erasNotClaimedReward, if_pos rfl]
  cases eras.erasNotClaimedReward era with
  | none => simp
  | some reserve => simp; omega

/-- An era that ends adds at most its reward to the reserves. -/
private theorem payableReserve_setEraReward (eras : EraStorage Account) (era reward : ℕ) :
    payableReserve (setEraReward eras era reward) ≤ payableReserve eras + reward := by
  have sub : payableEras (setEraReward eras era reward) ⊆ insert era (payableEras eras) := by
    intro other member
    obtain ⟨window, present⟩ := mem_payableEras.mp member
    rw [setEraReward_erasValidatorReward] at present
    split_ifs at present with here
    · exact here ▸ Finset.mem_insert_self ..
    · exact Finset.mem_insert_of_mem (mem_payableEras.mpr ⟨window, present⟩)
  have entry : ∀ other, ((setEraReward eras era reward).erasNotClaimedReward other).getD 0 ≤
      (if other = era then reward else 0) + if other = era then 0
        else (eras.erasNotClaimedReward other).getD 0 := by
    intro other
    rw [setEraReward_erasNotClaimedReward]
    split_ifs <;> simp
  calc payableReserve (setEraReward eras era reward)
      ≤ ∑ other ∈ insert era (payableEras eras),
          ((setEraReward eras era reward).erasNotClaimedReward other).getD 0 :=
        Finset.sum_le_sum_of_subset sub
    _ ≤ ∑ other ∈ insert era (payableEras eras), ((if other = era then reward else 0) +
          if other = era then 0 else (eras.erasNotClaimedReward other).getD 0) :=
        Finset.sum_le_sum fun other _ => entry other
    _ = reward + ∑ other ∈ insert era (payableEras eras),
          (if other = era then 0 else (eras.erasNotClaimedReward other).getD 0) := by
        rw [Finset.sum_add_distrib, Finset.sum_ite_eq', if_pos (Finset.mem_insert_self ..)]
    _ ≤ payableReserve eras + reward := by
        rw [Nat.add_comm]
        refine Nat.add_le_add_right ?_ _
        rw [Finset.sum_ite, Finset.sum_const_zero, Nat.zero_add]
        refine Finset.sum_le_sum_of_subset fun other member => ?_
        obtain ⟨inserted, apart⟩ := Finset.mem_filter.mp member
        exact (Finset.mem_insert.mp inserted).resolve_left apart

/-- The reserves added up at the end of an era are those of the accepted eras. -/
private theorem getTotalNotClaimedReward_eq_payable {eras : EraStorage Account} {active : ℕ}
    (current : eras.currentEra = some (active + 1)) (positive : eras.historyDepth ≠ 0)
    (records : Records eras) (ended : ∀ era, eras.erasValidatorReward era ≠ none → era < active) :
    getTotalNotClaimedReward eras active = payableReserve eras := by
  have nodup : (summedEras eras active).Nodup := List.Nodup.filter _ List.nodup_range'
  have same : (summedEras eras active).toFinset = payableEras eras := by
    ext era
    rw [List.mem_toFinset, mem_summedEras, mem_payableEras, ne_eq, records.keys era,
      firstReserved_eq_firstEra positive]
    constructor
    · rintro ⟨low, high, present⟩
      exact ⟨⟨active + 1, current, by omega, low⟩, present⟩
    · rintro ⟨⟨later, planned, -, low⟩, present⟩
      obtain rfl := Option.some.inj (current.symm.trans planned)
      exact ⟨low, ended era present, present⟩
  rw [getTotalNotClaimedReward_eq, payableReserve, ← same, List.sum_toFinset _ nodup]

/-! ## Solvency over a run -/

variable [DecidableEq Account] {config : Config Account}

omit [DecidableEq Account] in
theorem overdrawn_append (first second : List (PayoutReceipt Account)) :
    overdrawn (first ++ second) = overdrawn first + overdrawn second := by
  simp [overdrawn]

/-- The fund covers the reserves it has to pay, up to what was overdrawn. -/
structure Solvent (state : State config) (log : List (PayoutReceipt Account)) : Prop where
  positive : state.historyDepth ≠ 0
  retained : AllRetained state.toEraStorage
  covered : payableReserve state.toEraStorage ≤ fundBalance state + overdrawn log

/-- An era with a reward has been started, so it is not beyond the current era. -/
private theorem Consistent.started {state : State config} (consistent : Consistent state) {era : ℕ}
    (present : state.erasValidatorReward era ≠ none) :
    ∃ current, state.currentEra = some current ∧ era ≤ current := by
  have ended := consistent.records.ended present
  obtain ⟨index, next⟩ : ∃ index, state.nextActiveEra = index + 1 :=
    Nat.exists_eq_succ_of_ne_zero (by omega)
  obtain ⟨current, planned, bound⟩ := consistent.timeline.active next
  exact ⟨current, planned, by omega⟩

private theorem FundKept.fundBalance_le {before after : State config} (kept : FundKept before after) :
    fundBalance before ≤ fundBalance after :=
  Nat.sub_le_sub_right kept _

/-- The fund is charged no more than the credits of a payout. -/
private theorem Paid.fundBalance_le {before after : State config} {validatorStash : Account}
    {era : ℕ} {input : PayoutInput Account} {receipt : PayoutReceipt Account}
    (paid : Paid before after validatorStash era input receipt) :
    fundBalance before ≤ fundBalance after + receipt.taken := by
  obtain ⟨middle, credits, debits⟩ := paid.transfer
  have charged := debits.free config.fund
  rw [if_pos rfl, credits.free] at charged
  simp only [fundBalance]
  omega

/-- Every effect keeps the fund solvent up to the overdraft it adds. -/
theorem Effect.solvent {before after : State config} {log out : List (PayoutReceipt Account)}
    (consistent : Consistent before) (solvent : Solvent before log)
    (positive : after.historyDepth ≠ 0) (effect : Effect before after out) :
    Solvent after (log ++ out) := by
  have started : ∀ era, before.erasValidatorReward era ≠ none →
      ∃ current, before.currentEra = some current ∧ era ≤ current :=
    fun era present => consistent.started present
  cases effect with
  | kept prunes claims fund =>
    rw [List.append_nil]
    refine ⟨positive, fun era present => ?_, ?_⟩
    · exact prunes.retained era present
        (solvent.retained era (prunes.reward_eq present ▸ present))
    · have less := prunes.payable solvent.retained started
      have gains := fund.fundBalance_le
      have covered := solvent.covered
      omega
  | ended info reward active current reward_eq prunes nextActiveEra stakers fund =>
    rw [List.append_nil]
    have retained := solvent.retained.setEraReward solvent.positive current reward
    refine ⟨positive, fun era present => ?_, ?_⟩
    · exact prunes.retained era present (retained era (prunes.reward_eq present ▸ present))
    · have less : payableReserve after.toEraStorage ≤
          payableReserve (setEraReward before.toEraStorage info.index reward) := by
        refine prunes.payable retained fun era present => ?_
        rw [setEraReward_erasValidatorReward] at present
        split_ifs at present with here
        · exact ⟨_, current, by omega⟩
        · exact started era present
      have adds := payableReserve_setEraReward before.toEraStorage info.index reward
      have total := getTotalNotClaimedReward_eq_payable current solvent.positive
        consistent.records fun era present => consistent.records.lt_active active present
      have gains := fund.fundBalance_le
      have covered := solvent.covered
      omega
  | paid validatorStash era input receipt checked paid =>
    refine ⟨positive, ?_, ?_⟩
    · rw [paid.eras]
      exact solvent.retained
    · have accepted : era ∈ payableEras before.toEraStorage :=
        mem_payableEras.mpr ⟨checked.window, by simp [checked.reward]⟩
      have charge := payableReserve_takeReserve receipt.taken accepted
      have fund := paid.fundBalance_le
      have covered := solvent.covered
      rw [← paid.reserved_eq] at charge
      rw [paid.eras, overdrawn_append]
      simp only [overdrawn, List.map_cons, List.map_nil, List.sum_singleton,
        PayoutReceipt.overdraft] at covered ⊢
      omega

theorem ReachableWithHistory.solvent {state : State config} {log : List (PayoutReceipt Account)}
    (reachable : ReachableWithHistory state log) : Solvent state log := by
  have both : Consistent state ∧ Solvent state log := by
    refine Machine.Reachable.invariant (fun state log => Consistent state ∧ Solvent state log)
      reachable (fun source begins => ⟨begins.1.consistent, begins.2, ?_, ?_⟩) ?_
    · exact fun era present => (present (begins.1.erasValidatorReward era)).elim
    · have none_yet : payableEras source.toEraStorage = ∅ := by
        simp [payableEras, begins.1.currentEra]
      simp [payableReserve, none_yet]
    · rintro current next log out call ⟨consistent, solvent⟩ keeps success
      refine ⟨step_consistent consistent success,
        (step_effect consistent success).solvent consistent solvent ?_⟩
      rcases step_historyDepth success with same | set
      · rw [same]
        exact solvent.positive
      · subst set
        exact keeps
  exact both.2

/-! ## How much can be overdrawn -/

omit [DecidableEq Account] in
private theorem receiptsOf_append_singleton (log : List (PayoutReceipt Account))
    (receipt : PayoutReceipt Account) (era : ℕ) : receiptsOf (log ++ [receipt]) era =
      receiptsOf log era ++ if receipt.era = era then [receipt] else [] := by
  rw [receiptsOf_append]
  split_ifs with here
  · simp [receiptsOf, here]
  · simp [receiptsOf, here]

omit [DecidableEq Account] in
/-- What is summed over the receipts of each era is summed over all receipts. -/
private theorem sum_receiptsOf (value : PayoutReceipt Account → ℕ) {bound : ℕ}
    (log : List (PayoutReceipt Account)) (early : ∀ receipt ∈ log, receipt.era < bound) :
    ∑ era ∈ Finset.range bound, ((receiptsOf log era).map value).sum = (log.map value).sum := by
  induction log with
  | nil => simp [receiptsOf]
  | cons receipt rest ih =>
    have split : ∀ era, ((receiptsOf (receipt :: rest) era).map value).sum =
        (if era = receipt.era then value receipt else 0) +
          ((receiptsOf rest era).map value).sum := by
      intro era
      by_cases here : receipt.era = era
      · simp [receiptsOf, here]
      · simp [receiptsOf, here, Ne.symm here]
    have member := Finset.mem_range.mpr (early receipt (List.mem_cons_self ..))
    rw [Finset.sum_congr rfl fun era _ => split era, Finset.sum_add_distrib, Finset.sum_ite_eq',
      if_pos member, ih fun other later => early other (List.mem_cons_of_mem _ later)]
    rfl

/-- An era overdrew its reward by what it took beyond it, at most half a unit for each staker. -/
structure OverdraftBound (eras : EraStorage Account) (log : List (PayoutReceipt Account)) :
    Prop where
  exact : ∀ era reward, eras.erasValidatorReward era = some reward →
    overdrawnIn log era = takenIn log era - reward
  bound : ∀ era, 2 * overdrawnIn log era ≤ stakersIn log era

/-- The era that ends has overdrawn nothing, as it has paid nothing. -/
private theorem OverdraftBound.eraEnded {before after : State config}
    {log : List (PayoutReceipt Account)} (overdraft : OverdraftBound before.toEraStorage log)
    (kept : ClaimsKept before.toStakerStorage before.toEraStorage log) {info : ActiveEraInfo}
    {reward : ℕ} (active : before.activeEra = some info)
    (prunes : Prunes (setEraReward before.toEraStorage info.index reward) after.toEraStorage) :
    OverdraftBound after.toEraStorage log := by
  refine ⟨fun era amount present => ?_, overdraft.bound⟩
  have old := (prunes.reward_eq (by simp [present])).symm.trans present
  rw [setEraReward_erasValidatorReward] at old
  split_ifs at old with here
  · have fresh : receiptsOf log era = [] := receiptsOf_eq_nil fun receipt member => by
      have ended := kept.ended receipt member
      simp only [EraStorage.nextActiveEra, active] at ended
      omega
    simp [overdrawnIn, takenIn, overdrawn, fresh]
  · exact overdraft.exact era amount old

/-- After a payout, its era has overdrawn what it took beyond its reward. -/
private theorem OverdraftBound.paid_exact {before after : State config}
    {log : List (PayoutReceipt Account)} (overdraft : OverdraftBound before.toEraStorage log)
    (capped : Capped before.toEraStorage log) {validatorStash : Account} {era : ℕ}
    {input : PayoutInput Account} {receipt : PayoutReceipt Account}
    (paid : Paid before after validatorStash era input receipt) {other reward : ℕ}
    (present : before.erasValidatorReward other = some reward) :
    overdrawnIn (log ++ [receipt]) other = takenIn (log ++ [receipt]) other - reward := by
  have before_exact := overdraft.exact other reward present
  have reserve := capped.reserve other reward present
  simp only [overdrawnIn, takenIn, overdrawn] at before_exact reserve ⊢
  rw [receiptsOf_append_singleton]
  split_ifs with here
  · rw [paid.era_eq] at here
    subst here
    have reserved := paid.reserved_eq
    rw [reserve, Option.getD_some] at reserved
    simp only [List.map_append, List.map_cons, List.map_nil, List.sum_append,
      List.sum_singleton, PayoutReceipt.overdraft]
    omega
  · simpa using before_exact

/-- Every effect keeps the bound. -/
theorem Effect.overdraftBound {before after : State config}
    {log out : List (PayoutReceipt Account)} (consistent : Consistent before)
    (kept : ClaimsKept before.toStakerStorage before.toEraStorage log)
    (capped : Capped before.toEraStorage log) (overdraft : OverdraftBound before.toEraStorage log)
    (adds : AllAddUp after.toEraStorage) (effect : Effect before after out) :
    OverdraftBound after.toEraStorage (log ++ out) := by
  have keptAfter := effect.claimsKept consistent kept
  have cappedAfter := effect.capped kept capped
  cases effect with
  | kept prunes _ _ =>
    rw [List.append_nil]
    exact ⟨fun era reward present => overdraft.exact era reward
      ((prunes.reward_eq (by simp [present])).symm.trans present), overdraft.bound⟩
  | ended info reward active _ _ prunes _ _ _ =>
    rw [List.append_nil]
    exact overdraft.eraEnded kept active prunes
  | paid validatorStash era input receipt checked paid =>
    have rewards : after.erasValidatorReward = before.erasValidatorReward := by
      rw [paid.eras]
      rfl
    refine ⟨fun other reward present => ?_, fun other => ?_⟩
    · rw [rewards] at present
      exact overdraft.paid_exact capped paid present
    by_cases here : receipt.era = other
    · have present : before.erasValidatorReward other = some input.eraPayout := by
        rw [← here, paid.era_eq]
        exact checked.reward
      have nonempty : receiptsOf (log ++ [receipt]) other ≠ [] := by
        simp [receiptsOf_append_singleton, here]
      have cap :=
        cappedAfter.two_mul_takenIn_lt keptAfter (adds other) (rewards ▸ present) nonempty
      have overdrawnExactly := overdraft.paid_exact capped paid present
      omega
    · have bound := overdraft.bound other
      simp only [overdrawnIn, stakersIn, overdrawn] at bound ⊢
      rwa [receiptsOf_append_singleton, if_neg here, List.append_nil]

theorem ReachableUnwrapped.overdraftBound {state : State config}
    {log : List (PayoutReceipt Account)} (reachable : ReachableUnwrapped state log) :
    OverdraftBound state.toEraStorage log := by
  obtain ⟨source, ⟨initial, fresh⟩, run⟩ := reachable
  have all : (Consistent state ∧ ClaimsKept state.toStakerStorage state.toEraStorage log) ∧
      Capped state.toEraStorage log ∧ AllAddUp state.toEraStorage ∧
      OverdraftBound state.toEraStorage log := by
    refine run.preserves (fun state log => (Consistent state ∧
      ClaimsKept state.toStakerStorage state.toEraStorage log) ∧ Capped state.toEraStorage log ∧
      AllAddUp state.toEraStorage ∧ OverdraftBound state.toEraStorage log) ⟨?_, ?_, ?_, ?_, ?_⟩ ?_
    · exact Reachable.claimsKept ⟨source, initial, .nil source⟩
    · exact Reachable.capped ⟨source, initial, .nil source⟩
    · intro era
      rw [fresh era]
      exact EraRewardPoints.addUp_default
    · intro era reward present
      cases (initial.erasValidatorReward era).symm.trans present
    · exact fun era => Nat.le_refl 0
    · rintro current next log out call ⟨⟨consistent, kept⟩, capped, adds, overdraft⟩ fits success
      have effect := step_effect consistent success
      have addsAfter := adds.step fits success
      exact ⟨⟨step_consistent consistent success, effect.claimsKept consistent kept⟩,
        effect.capped kept capped, addsAfter,
        effect.overdraftBound consistent kept capped overdraft addsAfter⟩
  exact all.2.2.2

/-- All payouts together overdraw at most half a unit for each staker, as long as points add up. -/
theorem two_mul_overdrawn_le {state : State config} {log : List (PayoutReceipt Account)}
    (unwrapped : ReachableUnwrapped state log) :
    2 * overdrawn log ≤ (log.map PayoutReceipt.stakers).sum := by
  have early : ∀ receipt ∈ log, receipt.era < state.nextActiveEra := fun receipt member => by
    have ended := unwrapped.reachable.claimsKept.2.ended receipt member
    omega
  calc 2 * overdrawn log
      = ∑ era ∈ Finset.range state.nextActiveEra, 2 * overdrawnIn log era := by
        rw [← Finset.mul_sum]
        exact congrArg (2 * ·) (sum_receiptsOf PayoutReceipt.overdraft log early).symm
    _ ≤ ∑ era ∈ Finset.range state.nextActiveEra, stakersIn log era :=
        Finset.sum_le_sum fun era _ => unwrapped.overdraftBound.bound era
    _ = (log.map PayoutReceipt.stakers).sum := sum_receiptsOf PayoutReceipt.stakers log early

/-! ## What the fund can pay -/

/-- A withdrawal from the fund fails exactly when it would leave less than the existential deposit;
withdrawing nothing always succeeds. -/
def SettlesExactly (config : Config Account) : Prop :=
  ∀ store amount, config.currency.withdraw store config.fund amount = none ↔
    amount ≠ 0 ∧ config.currency.freeBalance store config.fund < amount + config.existentialDeposit

/-- What a payout that passed its checks credits. -/
def payoutCredits (state : State config) (validatorStash : Account) (era : ℕ)
    (input : PayoutInput Account) : List (Credit Account) :=
  let paid := distribute (enterClaim state input) input.ledger.stash validatorStash era
    input.eraPayout
  paid.2.1.toList ++ paid.2.2

/-- A payout that passed its checks succeeds where the fund holds what it credits. -/
theorem settlePayout_succeeds (exact : SettlesExactly config) (state : State config)
    (validatorStash : Account) (era : ℕ) (input : PayoutInput Account)
    (enough : Credit.total (payoutCredits state validatorStash era input) ≤ fundBalance state) :
    ∃ after receipt, settlePayout state validatorStash era input = .ok (after, receipt) := by
  have pays := (distribute_pays (enterClaim state input) input.ledger.stash validatorStash era
    input.eraPayout).1
  simp only [payoutCredits] at enough
  set paid := distribute (enterClaim state input) input.ledger.stash validatorStash era
    input.eraPayout with paid_eq
  simp only [settlePayout]
  split_ifs
  · exact ⟨_, _, rfl⟩
  · rw [← paid_eq]
    cases settled : config.currency.settle paid.1.store config.fund
        (Credit.total (paid.2.1.toList ++ paid.2.2)) with
    | some store => exact ⟨_, _, rfl⟩
    | none =>
      obtain ⟨nonzero, short⟩ := (exact _ _).mp (config.currency.settle_eq_none_iff.mp settled)
      have free : config.currency.freeBalance state.store config.fund ≤
          config.currency.freeBalance paid.1.store config.fund :=
        (Nat.le_add_right _ _).trans (pays.credits.free config.fund).ge
      simp only [fundBalance] at enough
      omega

/-- Solvency of the reward fund, as long as the history depth is positive: the reserves of all
accepted eras are covered by the fund up to what payouts have overdrawn, which is at most half a
unit for every staker paid where the points of every era add up; and a payout that passes its checks
and stays within the reserve of its era less that overdraft succeeds. -/
theorem fund_solvent (exact : SettlesExactly config) {state : State config}
    {log : List (PayoutReceipt Account)} (reachable : ReachableWithHistory state log) :
    payableReserve state.toEraStorage ≤ fundBalance state + overdrawn log ∧
    (ReachableUnwrapped state log → 2 * overdrawn log ≤ (log.map PayoutReceipt.stakers).sum) ∧
    ∀ validatorStash era input, checkPayout state validatorStash era = .ok input →
      Credit.total (payoutCredits state validatorStash era input) + overdrawn log ≤
        (state.erasNotClaimedReward era).getD 0 →
      ∃ after receipt, doPayoutStakers state validatorStash era = .ok (after, receipt) := by
  have covered := reachable.solvent.covered
  refine ⟨covered, two_mul_overdrawn_le, ?_⟩
  intro validatorStash era input checks within
  have checked := checkPayout_checked checks
  have accepted : era ∈ payableEras state.toEraStorage :=
    mem_payableEras.mpr ⟨checked.window, by simp [checked.reward]⟩
  have part : (state.erasNotClaimedReward era).getD 0 ≤ payableReserve state.toEraStorage := by
    rw [payableReserve, ← Finset.add_sum_erase _ _ accepted]
    exact Nat.le_add_right _ _
  obtain ⟨after, receipt, success⟩ := settlePayout_succeeds exact state validatorStash era input
    (by omega)
  refine ⟨after, receipt, ?_⟩
  simp only [doPayoutStakers, checks]
  exact success

/-- Three of the four are paid for era zero, and nobody pays into the fund. -/
def threeOfFour : List (Call smallConfig) := shareEraZero.take 11

/-- The fund gets a deposit, era one ends, and the last of the four is paid for era zero. -/
def paidFromEraOne : List (Call smallConfig) :=
  shareEraZero.take 12 ++ [.onFinalize 6, .rotateSession (some quartet), .payoutStakers 13 0]

/-- Era zero ends under depth zero, era one under depth one, and then the depth is raised. -/
def raisedDepth : List (Call smallConfig) :=
  [.genesisSession (some quartet) (some quartet), .onFinalize 5, .setHistoryDepth 0,
    .rotateSession (some quartet), .onFinalize 6, .setHistoryDepth 1, .rotateSession none,
    .setHistoryDepth 3]

private theorem smallConfig_settlesExactly : SettlesExactly smallConfig := by
  intro store amount
  change ReferenceCurrency.debit 1 store 0 amount = none ↔ amount ≠ 0 ∧ store.free 0 < amount + 1
  unfold ReferenceCurrency.debit
  by_cases nothing : amount = 0
  · simp [nothing]
  · by_cases short : store.free 0 < amount + 1
    · simp [nothing, short]
    · simp [nothing, short]

/-- Without the overdraft the bound fails: a quarter of 99 rounds up, so the last payout of era zero
finds the fund short, or takes what era one reserves. Points that wrap overdraw a whole reward, more
than any rounding. Without a positive history depth the bound fails even before any payout: an era
that ended under depth zero is accepted again once it is raised. -/
theorem solvency_fails_by_rounding_wrap_and_depth :
    (¬ ∀ (state : State smallConfig) (log : List (PayoutReceipt ℕ)), Reachable state log →
      payableReserve state.toEraStorage ≤ fundBalance state) ∧
    (¬ ∀ (state : State smallConfig) (log : List (PayoutReceipt ℕ)), Reachable state log →
      ∀ validatorStash era, doPayoutStakers state validatorStash era ≠ .error .cannotPayout) ∧
    (¬ ∀ (state : State smallConfig) (log : List (PayoutReceipt ℕ)), Reachable state log →
      2 * overdrawn log ≤ (log.map PayoutReceipt.stakers).sum) ∧
    (outcome raisedDepth).2 = [] ∧
    ¬ payableReserve (outcome raisedDepth).1.toEraStorage ≤ fundBalance (outcome raisedDepth).1 := by
  refine ⟨fun solvent => ?_, fun pays => ?_, fun rounds => ?_, by decide +kernel, by decide +kernel⟩
  · have reachable := outcome_reachable paidFromEraOne (by decide +kernel)
    exact absurd (solvent _ _ reachable) (by decide +kernel)
  · have reachable := outcome_reachable threeOfFour (by decide +kernel)
    apply pays _ _ reachable 13 0
    have refused : (match doPayoutStakers (outcome threeOfFour).1 13 0 with
        | .ok _ => none
        | .error error => some error) = some .cannotPayout := by decide +kernel
    split at refused
    · contradiction
    · next error problem => rw [problem, Option.some.inj refused]
  · have reachable := outcome_reachable wrapEraZero (by decide +kernel)
    exact absurd (rounds _ _ reachable) (by decide +kernel)

/-- The last of the four is paid for era zero after era one has ended, out of what that reserves. -/
def sharedEraOne : List (Call smallConfig) :=
  shareEraZero.take 12 ++ [.onFinalize 6, .rewardByIds [(10, 20), (11, 20)],
    .rotateSession (some quartet), .payoutStakers 13 0]

/-- One is overdrawn, and the fund can still pay for era one. -/
theorem sharedEraOne_solvent :
    overdrawn (outcome sharedEraOne).2 = 1 ∧
    payableReserve (outcome sharedEraOne).1.toEraStorage ≤
      fundBalance (outcome sharedEraOne).1 + overdrawn (outcome sharedEraOne).2 ∧
    2 * overdrawn (outcome sharedEraOne).2 ≤
      ((outcome sharedEraOne).2.map PayoutReceipt.stakers).sum ∧
    ∃ after receipt, doPayoutStakers (outcome sharedEraOne).1 10 1 = .ok (after, receipt) := by
  have reachable := outcome_reachableWithHistory sharedEraOne
    (by simp [sharedEraOne, shareEraZero, Call.KeepsHistory]) (by decide +kernel)
  have unwrapped := outcome_reachableUnwrapped sharedEraOne (by decide +kernel)
  obtain ⟨covered, bound, pays⟩ := fund_solvent smallConfig_settlesExactly reachable
  refine ⟨by decide +kernel, covered, bound unwrapped, ?_⟩
  have within : ∃ input ∈ (checkPayout (outcome sharedEraOne).1 10 1).toOption,
      0 < Credit.total (payoutCredits (outcome sharedEraOne).1 10 1 input) ∧
        Credit.total (payoutCredits (outcome sharedEraOne).1 10 1 input) +
          overdrawn (outcome sharedEraOne).2 ≤
            ((outcome sharedEraOne).1.erasNotClaimedReward 1).getD 0 := by
    decide +kernel
  obtain ⟨input, found, -, enough⟩ := within
  cases checks : checkPayout (outcome sharedEraOne).1 10 1 with
  | error problem =>
    rw [checks] at found
    contradiction
  | ok checked =>
    rw [checks] at found
    obtain rfl := Option.some.inj found
    exact pays 10 1 checked checks enough

end GlitchRuntime.Staking
