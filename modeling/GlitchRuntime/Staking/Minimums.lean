import GlitchRuntime.Staking.Voters

/-! # Minimum bonds

As long as nobody is slashed and no minimum is raised, everyone with a role keeps the bond that the
role needs. Then nobody can be chilled by somebody else, however crowded the roles are.
-/

namespace GlitchRuntime.Staking

open Lib

variable {Account : Type} [DecidableEq Account] {config : SlashConfig Account}

/-- A call that neither slashes nor raises a minimum bond. -/
def KeepsMinimums (state : RoleState config.toConfig) : StakerCall config → Prop
  | .slash .. => False
  | .setStakingConfigs minNominatorBond minValidatorBond .. =>
    minNominatorBond.apply 0 state.minNominatorBond ≤ state.minNominatorBond ∧
      minValidatorBond.apply 0 state.minValidatorBond ≤ state.minValidatorBond
  | _ => True

instance (state : RoleState config.toConfig) (call : StakerCall config) :
    Decidable (KeepsMinimums state call) := by
  cases call <;> unfold KeepsMinimums <;> infer_instance

/-- Every ledger has the active amount that the role of its stash needs. -/
def Enough (state : RoleState config.toConfig) : Prop :=
  ∀ controller ledger, state.ledger controller = some ledger →
    minActiveBond state.toState ledger.stash ≤ ledger.active

/-- The bond that a role needs, in terms of the roles. -/
theorem RolesSound.minActiveBond_eq {state : RoleState config.toConfig} (holds : RolesSound state)
    (who : Account) : minActiveBond state.toState who =
      if (state.nominations who).isSome then state.minNominatorBond
      else if (state.validators who).isSome then state.minValidatorBond
      else 0 := by
  obtain ⟨validators, nominators, voters⟩ := holds.voters
  unfold minActiveBond
  rw [voters.flags who]

/-- Without a role no bond is needed. -/
theorem RolesSound.minActiveBond_unbonded {state : RoleState config.toConfig}
    (holds : RolesSound state) {who : Account} (unbonded : state.bonded who = none) :
    minActiveBond state.toState who = 0 := by
  have none : ¬ ((state.validators who).isSome ∨ (state.nominations who).isSome) := by
    intro role
    have bonded := holds.bonded who role
    rw [unbonded] at bonded
    contradiction
  rw [not_or] at none
  rw [holds.minActiveBond_eq, if_neg none.2, if_neg none.1]

namespace Enough

variable {before after : RoleState config.toConfig}

/-- What is enough stays enough where needs do not grow and active amounts do not fall. -/
theorem mono (enough : Enough before)
    (need : ∀ who, minActiveBond after.toState who ≤ minActiveBond before.toState who)
    (ledger : ∀ controller new, after.ledger controller = some new →
      ∃ place old, before.ledger place = some old ∧ new.stash = old.stash ∧
        old.active ≤ new.active) : Enough after := by
  intro controller new present
  obtain ⟨place, old, found, stash, active⟩ := ledger controller new present
  rw [stash]
  exact (need old.stash).trans ((enough place old found).trans active)

/-- Needs do not grow where roles are only lost. -/
theorem need_le (holds : RolesSound before) (keeps : RolesSound after)
    (nominator : after.minNominatorBond = before.minNominatorBond)
    (validator : after.minValidatorBond = before.minValidatorBond) {stash : Account}
    (validates : after.validators = Function.update before.validators stash none)
    (nominates : after.nominations = Function.update before.nominations stash none)
    (who : Account) :
    minActiveBond after.toState who ≤ minActiveBond before.toState who := by
  rw [holds.minActiveBond_eq, keeps.minActiveBond_eq, validates, nominates, nominator, validator,
    Function.update_apply, Function.update_apply]
  by_cases gone : who = stash
  · rw [if_pos gone, if_pos gone]
    exact Nat.zero_le _
  · rw [if_neg gone, if_neg gone]

theorem unbond (enough : Enough before) {controller : Account} {value : ℕ}
    {out : List (StakeReceipt Account)}
    (taken : stakerStep before (.unbond controller value) = .ok (after, out)) : Enough after := by
  obtain ⟨_, unbonded, result⟩ := bind_eq_ok.mp (reporting_eq_ok.mp taken)
  obtain ⟨chain, success, rfl⟩ := onStaking_eq_ok.mp unbonded
  obtain ⟨rfl, -⟩ := Prod.mk.inj (pure_eq_ok.mp result)
  obtain ⟨old, present, rfl | ⟨value, unlocking, _, _, _, _, left, rfl⟩⟩ := unbond_cases success
  · exact enough
  · intro place ledger found
    change Function.update before.ledger controller _ place = some ledger at found
    rw [Function.update_apply] at found
    split_ifs at found
    · obtain rfl := Option.some.inj found
      exact left
    · exact enough place ledger found

end Enough

/-- Neither unbonding nor slashing makes a step with less active amounts. -/
theorem StakerMove.active_le {call : StakerCall config} {before after : RoleState config.toConfig}
    {out : List (StakeReceipt Account)} (holds : LedgersSound before)
    (move : StakerMove call before after out)
    (bonded : ∀ controller value, call ≠ .unbond controller value)
    (unslashed : ∀ slashEra entry, call ≠ .slash slashEra entry) {controller : Account}
    {new : StakingLedger Account} (present : after.ledger controller = some new) :
    before.bonded new.stash = none ∨ ∃ place old, before.ledger place = some old ∧
      new.stash = old.stash ∧ old.active ≤ new.active := by
  cases move with
  | grows _ grown =>
    right
    have related := grown controller
    rw [present] at related
    generalize found : before.ledger controller = early at related
    cases related with
    | some more =>
      obtain ⟨extra, claimed, rfl⟩ := more
      exact ⟨controller, _, found, rfl, Nat.le_add_right _ _⟩
  | @amounts place old written out found _ ledger move =>
    right
    rw [ledger, Function.update_apply] at present
    split_ifs at present
    · obtain rfl := Option.some.inj present
      refine ⟨place, old, found, move.due.1, ?_⟩
      cases move with
      | adds extra => exact Nat.le_add_right _ _
      | unbonds called => exact absurd called (bonded _ _)
      | rebonds value =>
        have rebonded := ((holds.sound place old found).1.rebond value).2.2.1
        omega
      | withdraws => cases before.currentEra <;> exact le_rfl
      | slashes called => exact absurd called (unslashed _ _)
    · exact ⟨controller, new, present, rfl, le_rfl⟩
  | @bonds place fresh unbonded _ _ ledger _ _ =>
    rw [ledger, Function.update_apply] at present
    split_ifs at present
    · obtain rfl := Option.some.inj present
      exact .inl unbonded
    · exact .inr ⟨controller, new, present, rfl, le_rfl⟩
  | moves _ _ _ ledger =>
    right
    rw [ledger] at present
    split_ifs at present
    · exact ⟨_, new, present, rfl, le_rfl⟩
    · exact ⟨controller, new, present, rfl, le_rfl⟩
  | kills _ _ ledger _ =>
    right
    rw [ledger, Function.update_apply] at present
    split_ifs at present
    exact ⟨controller, new, present, rfl, le_rfl⟩

/-- A role that is taken has the bond that it needs, and the others keep theirs. -/
theorem Enough.taken {before after : RoleState config.toConfig} (enough : Enough before)
    (holds : RolesSound before) (only : OnlyRoles before after) {controller : Account}
    {ledger : StakingLedger Account} (present : before.ledger controller = some ledger)
    (mine : minActiveBond after.toState ledger.stash ≤ ledger.active)
    (others : ∀ who, who ≠ ledger.stash →
      minActiveBond after.toState who = minActiveBond before.toState who) : Enough after := by
  intro place other found
  rw [only.ledger] at found
  by_cases same : other.stash = ledger.stash
  · obtain rfl := holds.ledgers.unique found present same
    obtain rfl := Option.some.inj (found.symm.trans present)
    exact mine
  · rw [others _ same]
    exact enough place other found

/-- Every step that keeps the minimums leaves enough. -/
theorem Enough.step {call : StakerCall config} {before after : RoleState config.toConfig}
    {out : List (StakeReceipt Account)} (enough : Enough before) (holds : RolesSound before)
    (keeps : RolesSound after) (taken : stakerStep before call = .ok (after, out))
    (quiet : KeepsMinimums before call) : Enough after := by
  by_cases asked : ∃ controller value, call = .unbond controller value
  · obtain ⟨controller, value, rfl⟩ := asked
    exact enough.unbond taken
  have unbonds : ∀ controller value, call ≠ .unbond controller value :=
    fun controller value same => asked ⟨controller, value, same⟩
  obtain ⟨-, moved⟩ := stakerStep_moved taken
  have unslashed : ∀ slashEra entry, call ≠ .slash slashEra entry := by
    rintro slashEra entry rfl
    exact quiet
  cases stakerStep_roles taken with
  | same roles =>
    have need : ∀ who, minActiveBond after.toState who = minActiveBond before.toState who := by
      intro who
      unfold minActiveBond
      rw [roles.nominators, roles.validators, roles.minNominatorBond, roles.minValidatorBond]
    intro controller new present
    rw [need]
    rcases moved.active_le holds.ledgers unbonds unslashed present with
      unbonded | ⟨place, old, found, stash, active⟩
    · rw [holds.minActiveBond_unbonded unbonded]
      exact Nat.zero_le _
    · rw [stash]
      exact (enough place old found).trans active
  | keeps voters =>
    refine enough.mono (fun who => ?_) fun controller new present => ?_
    · unfold minActiveBond
      rw [voters.nominators, voters.validators, voters.only.minNominatorBond,
        voters.only.minValidatorBond]
    · rw [voters.only.ledger] at present
      exact ⟨controller, new, present, rfl, le_rfl⟩
  | @validates controller ledger prefs present bond =>
    have only := (doRemoveNominator_onlyRoles before ledger.stash).trans
      (doAddValidator_onlyRoles _ ledger.stash prefs)
    obtain ⟨validates, nominates⟩ := validates_roles before ledger.stash prefs
    refine enough.taken holds only present ?_ fun who apart => ?_
    · rw [keeps.minActiveBond_eq, validates, nominates, Function.update_self, Function.update_self,
        only.minValidatorBond]
      exact bond
    · rw [keeps.minActiveBond_eq, holds.minActiveBond_eq, validates, nominates,
        Function.update_of_ne apart, Function.update_of_ne apart, only.minValidatorBond,
        only.minNominatorBond]
  | @nominates controller ledger targets nominations present bond =>
    have only := (doRemoveValidator_onlyRoles before ledger.stash).trans
      (doAddNominator_onlyRoles _ ledger.stash nominations)
    obtain ⟨validates, nominates⟩ := nominates_roles before ledger.stash nominations
    refine enough.taken holds only present ?_ fun who apart => ?_
    · rw [keeps.minActiveBond_eq, validates, nominates, Function.update_self, Function.update_self,
        only.minNominatorBond]
      exact bond
    · rw [keeps.minActiveBond_eq, holds.minActiveBond_eq, validates, nominates,
        Function.update_of_ne apart, Function.update_of_ne apart, only.minValidatorBond,
        only.minNominatorBond]
  | chills stash =>
    have only := chillStash_onlyRoles before stash
    obtain ⟨validates, nominates⟩ := chillStash_roles before stash
    refine enough.mono (Enough.need_le holds keeps only.minNominatorBond only.minValidatorBond
      validates nominates) ?_
    intro controller new present
    rw [only.ledger] at present
    exact ⟨controller, new, present, rfl, le_rfl⟩
  | kills killed =>
    obtain ⟨-, validators, -, nominations, nominator, validator, -, -, -⟩ :=
      killStaker_roles killed
    refine enough.mono (Enough.need_le holds keeps nominator validator validators nominations) ?_
    intro controller new present
    obtain ⟨-, place, -, -, ledger⟩ := killStaker_moved killed
    rw [ledger, Function.update_apply] at present
    split_ifs at present
    exact ⟨controller, new, present, rfl, le_rfl⟩
  | configures =>
    refine enough.mono (fun who => ?_) fun controller new present =>
      ⟨controller, new, present, rfl, le_rfl⟩
    obtain ⟨nominator, validator⟩ := quiet
    change (if before.nominators who then _ else if (before.validators who).isSome then _ else 0) ≤
      _
    unfold minActiveBond
    split_ifs
    · exact nominator
    · exact validator
    · exact le_rfl

/-- In a run that slashes nobody and raises no minimum, everyone with a role has the bond that the
role needs. -/
theorem enough_of_quiet {source state : RoleState config.toConfig}
    {log : List (StakeReceipt Account)} (initial : RoleState.Initial source)
    (run : (stakerSystem config).GuardedRun KeepsMinimums source log state) :
    RolesSound state ∧ Enough state := by
  refine run.preserves (fun state _ => RolesSound state ∧ Enough state) ⟨.initial initial, ?_⟩ ?_
  · intro controller ledger present
    rw [initial.chain.ledger] at present
    contradiction
  · rintro current next log out call ⟨holds, enough⟩ quiet taken
    obtain ⟨advance, moved⟩ := stakerStep_moved taken
    have roles := stakerStep_roles taken
    have keeps : RolesSound next :=
      ⟨holds.ledgers.step advance moved, holds.step_voters roles, holds.step_bonded roles⟩
    exact ⟨keeps, enough.step holds keeps taken quiet⟩

/-- The bond that is asked of somebody who is to be chilled is the one that the role needs. -/
theorem RolesSound.chillBelow_le {state : RoleState config.toConfig} (holds : RolesSound state)
    {stash : Account} {bound : ℕ} (below : chillBelow state stash = .ok bound) :
    bound = minActiveBond state.toState stash := by
  rw [holds.minActiveBond_eq]
  simp only [chillBelow, bind_eq_ok, okOr_eq_ok] at below
  obtain ⟨threshold, _, below⟩ := below
  split_ifs at below ⊢
  · simp only [bind_eq_ok, pure_eq_ok] at below
    obtain ⟨_, _, _, _, rfl⟩ := below
    rfl
  · simp only [bind_eq_ok, pure_eq_ok] at below
    obtain ⟨_, _, _, _, rfl⟩ := below
    rfl
  · exact (pure_eq_ok.mp below).symm

/-- In a run that slashes nobody and raises no minimum, nobody is chilled by somebody else: the call
is always refused. -/
theorem chillOther_refused {source state : RoleState config.toConfig}
    {log : List (StakeReceipt Account)} (initial : RoleState.Initial source)
    (run : (stakerSystem config).GuardedRun KeepsMinimums source log state)
    {caller controller : Account} (other : caller ≠ controller) :
    ∃ error, chillOther state caller controller = .error error := by
  obtain ⟨holds, enough⟩ := enough_of_quiet initial run
  cases result : chillOther state caller controller with
  | error error => exact ⟨error, rfl⟩
  | ok after =>
    exfalso
    simp only [chillOther, ledgerOf, bind_eq_ok, okOr_eq_ok] at result
    obtain ⟨ledger, present, result⟩ := result
    rw [if_neg other] at result
    simp only [bind_eq_ok, ensure_eq_ok, pure_eq_ok] at result
    obtain ⟨bound, below, _, less, _⟩ := result
    have needed := enough controller ledger present
    rw [← holds.chillBelow_le below] at needed
    omega

/-- The small genesis with roles that are crowded from the first nominator on. -/
def crowdedGenesis : RoleState smallSlashConfig.toConfig :=
  { genesisRoles { smallGenesis with minNominatorBond := 20 } with
    maxNominatorsCount := some 1
    chillThreshold := some ⟨0, by decide⟩ }

theorem crowdedGenesis_initial : RoleState.Initial crowdedGenesis where
  chain := ⟨fun _ => rfl, fun _ => rfl, rfl, rfl, fun _ => rfl, fun _ => rfl, fun _ => rfl, rfl⟩
  validators _ := rfl
  nominators _ := rfl
  nominations _ := rfl
  voterList := rfl
  counterForValidators := rfl
  counterForNominators := rfl

/-- A nominator that unbonds as much as it may. -/
def lastToStay : List (StakerCall smallSlashConfig) :=
  [.bond 10 20 30 .stash, .nominate 20 [11], .unbond 20 10]

/-- Where that leads from the crowded genesis. -/
def lastStay : RoleState smallSlashConfig.toConfig × List (StakeReceipt ℕ) :=
  ((stakerSystem smallSlashConfig).guarded KeepsMinimums .misplaced).outcome crowdedGenesis
    lastToStay

theorem lastStay_refused :
    (lastStay.1.nominations 10).isSome ∧ ∃ error, chillOther lastStay.1 30 20 = .error error := by
  have run : (stakerSystem smallSlashConfig).GuardedRun KeepsMinimums crowdedGenesis lastStay.2
      lastStay.1 := Machine.guardedRun_outcome (by decide +kernel)
  exact ⟨by decide +kernel, chillOther_refused crowdedGenesis_initial run (by decide)⟩

end GlitchRuntime.Staking
