import GlitchRuntime.Staking.Bonding

/-! # What the bonding calls do to bonds and claims

Seen from the claims, a bonding call changes nothing, bonds a stash under a fresh ledger, moves a
ledger to another controller, or removes one. Through all of these a stash and the ledger of its
controller keep pointing at each other.
-/

namespace GlitchRuntime.Staking

open Lib

variable {Account : Type} [DecidableEq Account] {config : Config Account}

/-- The moves of bonds and claims, up to the amounts of ledgers. -/
inductive ClaimsMove (eras : EraStorage Account) (before after : StakerStorage Account) : Prop
  | same (same : SameClaims before after)
  | bonds (stash controller : Account) (unbonded : before.bonded stash = none)
      (fresh : before.claims controller = none)
      (bonded : after.bonded = Function.update before.bonded stash (some controller))
      (claims : ∀ other, after.claims other =
        if other = controller then
          some (stash, .ofRange (eras.currentEra.getD 0 - eras.historyDepth.toNat)
            (eras.currentEra.getD 0))
        else before.claims other)
  | moves (stash old new : Account) (old_eq : before.bonded stash = some old)
      (fresh : before.claims new = none)
      (bonded : after.bonded = Function.update before.bonded stash (some new))
      (claims : ∀ other, after.claims other =
        if other = new then before.claims old
        else if other = old then none else before.claims other)
  | kills (stash controller : Account) (controller_eq : before.bonded stash = some controller)
      (bonded : after.bonded = Function.update before.bonded stash none)
      (claims : ∀ other, after.claims other =
        if other = controller then none else before.claims other)

/-- A bonding call moves bonds and claims, and neither eras nor balances. -/
structure BondMove (before after : State config) : Prop where
  eras : after.toEraStorage = before.toEraStorage
  still : config.currency.Still before.store after.store
  claims : ClaimsMove before.toEraStorage before.toStakerStorage after.toStakerStorage

private theorem claims_update (stakers : StakerStorage Account) (controller other : Account)
    (ledger : Option (StakingLedger Account)) :
    ({ stakers with ledger := Function.update stakers.ledger controller ledger }
      : StakerStorage Account).claims other =
      if other = controller then ledger.map fun ledger => (ledger.stash, ledger.claimedRewards)
      else stakers.claims other := by
  change (Function.update stakers.ledger controller ledger other).map _ = _
  rw [Function.update_apply]
  split_ifs <;> rfl

omit [DecidableEq Account] in
private theorem claims_eq_none {stakers : StakerStorage Account} {controller : Account}
    (fresh : (stakers.ledger controller).isNone) : stakers.claims controller = none := by
  rw [StakerStorage.claims, Option.isNone_iff_eq_none.mp fresh, Option.map_none]

private theorem BondMove.refl (state : State config) : BondMove state state :=
  ⟨rfl, .refl _, .same (.refl _)⟩

/-- Rewriting the amounts of a ledger is no move. -/
private theorem BondMove.relock {state : State config} {controller : Account}
    {before ledger : StakingLedger Account} (present : state.ledger controller = some before)
    (stash : ledger.stash = before.stash)
    (claimed : ledger.claimedRewards = before.claimedRewards) :
    BondMove state (updateLedger state controller ledger) :=
  ⟨rfl, config.currency.setLock_still .., .same (updateLedger_sameClaims present stash claimed)⟩

theorem bond_move {state after : State config} {stash controller : Account} {value : ℕ}
    {payee : RewardDestination Account}
    (success : bond state stash controller value payee = .ok after) : BondMove state after := by
  simp only [bond, bind_eq_ok, ensure_eq_ok, okOr_eq_ok, pure_eq_ok] at success
  obtain ⟨_, unbonded, _, fresh, _, _, store, counted, rfl⟩ := success
  refine ⟨rfl, ?_, .bonds stash controller (Option.isNone_iff_eq_none.mp unbonded)
    (claims_eq_none fresh) rfl fun other => claims_update state.toStakerStorage ..⟩
  exact (config.currency.incConsumers_still _ _ _ counted).trans (config.currency.setLock_still ..)

theorem unbond_move {state after : State config} {controller : Account} {value : ℕ}
    (success : unbond state controller value = .ok after) : BondMove state after := by
  simp only [unbond, bind_eq_ok, ensure_eq_ok, okOr_eq_ok] at success
  obtain ⟨ledger, present, _, _, success⟩ := success
  split_ifs at success
  · obtain rfl := pure_eq_ok.mp success
    exact .refl _
  all_goals
    simp only [bind_eq_ok, ensure_eq_ok, okOr_eq_ok, pure_eq_ok] at success
    obtain ⟨_, _, unlocking, _, rfl⟩ := success
    exact .relock present rfl rfl

private theorem clearStashMetadata_eq {state after : State config} {stash : Account} {spans : ℕ}
    (success : clearStashMetadata state stash spans = .ok after) :
    ∃ slashingSpans, after = { state with slashingSpans } := by
  unfold clearStashMetadata at success
  split at success
  · obtain rfl := Except.ok.inj success
    exact ⟨_, rfl⟩
  · simp only [bind_eq_ok, ensure_eq_ok, pure_eq_ok] at success
    obtain ⟨_, _, rfl⟩ := success
    exact ⟨_, rfl⟩

theorem killAndUnlock_move {state after : State config} {stash : Account} {spans : ℕ}
    (success : killAndUnlock state stash spans = .ok after) : BondMove state after := by
  simp only [killAndUnlock, killStash, bind_eq_ok, okOr_eq_ok, pure_eq_ok] at success
  obtain ⟨killed, ⟨controller, bonded, cleared, metadata, rfl⟩, rfl⟩ := success
  obtain ⟨slashingSpans, rfl⟩ := clearStashMetadata_eq metadata
  refine ⟨rfl, ?_, .kills stash controller bonded rfl fun other => ?_⟩
  · exact (config.currency.decConsumers_still ..).trans (config.currency.removeLock_still ..)
  · exact claims_update state.toStakerStorage controller other none

theorem withdrawUnbonded_move {state after : State config} {controller : Account} {spans : ℕ}
    (success : withdrawUnbonded state controller spans = .ok after) : BondMove state after := by
  simp only [withdrawUnbonded, bind_eq_ok, okOr_eq_ok] at success
  obtain ⟨ledger, present, success⟩ := success
  split_ifs at success
  · exact killAndUnlock_move success
  · obtain rfl := pure_eq_ok.mp success
    cases state.currentEra with
    | none => exact .relock present rfl rfl
    | some current => exact .relock present rfl rfl

theorem reapStash_move {state after : State config} {stash : Account} {spans : ℕ}
    (success : reapStash state stash spans = .ok after) : BondMove state after := by
  simp only [reapStash, bind_eq_ok] at success
  obtain ⟨_, _, _, _, success⟩ := success
  exact killAndUnlock_move success

theorem setController_move {state after : State config} {stash controller : Account}
    (success : setController state stash controller = .ok after) : BondMove state after := by
  simp only [setController, bind_eq_ok, okOr_eq_ok, ensure_eq_ok] at success
  obtain ⟨old, bonded, _, fresh, success⟩ := success
  have fresh := claims_eq_none fresh
  split_ifs at success with same
  · obtain rfl := pure_eq_ok.mp success
    exact .refl _
  · obtain rfl := pure_eq_ok.mp success
    cases present : state.ledger old with
    | none =>
      refine ⟨rfl, .refl _, .moves stash old controller bonded fresh rfl fun other => ?_⟩
      have absent : state.claims old = none := by simp [StakerStorage.claims, present]
      change state.claims other = _
      split_ifs with new here
      · rw [new, fresh, absent]
      · rw [here, absent]
      · rfl
    | some ledger =>
      refine ⟨rfl, .refl _, .moves stash old controller bonded fresh rfl fun other => ?_⟩
      change (Function.update (Function.update state.ledger old none) controller (some ledger)
        other).map _ = _
      rw [Function.update_apply, Function.update_apply]
      split_ifs
      · simp [StakerStorage.claims, present]
      · rfl
      · rfl

/-! ## Stashes and ledgers point at each other -/

/-- A stash is bonded to exactly the controller that holds its ledger. -/
def Paired (stakers : StakerStorage Account) : Prop :=
  ∀ stash controller, stakers.bonded stash = some controller ↔
    ∃ claimed, stakers.claims controller = some (stash, claimed)

omit [DecidableEq Account] in
theorem Paired.of_sameClaims {before after : StakerStorage Account} (paired : Paired before)
    (same : SameClaims before after) : Paired after := by
  intro stash controller
  rw [same.bonded, same.claims]
  exact paired stash controller

/-- Every move keeps stashes and ledgers paired. -/
theorem Paired.move {eras : EraStorage Account} {before after : StakerStorage Account}
    (paired : Paired before) (move : ClaimsMove eras before after) : Paired after := by
  cases move with
  | same same => exact paired.of_sameClaims same
  | bonds stash controller unbonded fresh bonded claims =>
    intro other place
    rw [bonded, claims, Function.update_apply]
    have here := paired other place
    have there := paired other controller
    have gone := paired stash place
    grind
  | moves stash old new old_eq fresh bonded claims =>
    intro other place
    rw [bonded, claims, Function.update_apply]
    have here := paired other place
    have there := paired other new
    have from_old := paired other old
    have own := paired stash old
    have gone := paired stash place
    grind
  | kills stash controller controller_eq bonded claims =>
    intro other place
    rw [bonded, claims, Function.update_apply]
    have here := paired other place
    have own := paired stash controller
    have there := paired other controller
    have gone := paired stash place
    grind

end GlitchRuntime.Staking
