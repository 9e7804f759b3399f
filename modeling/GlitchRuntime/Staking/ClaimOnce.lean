import GlitchRuntime.Staking.Effects

/-! # At most one payout per validator and era

A payout enters its era in the ledger of the stash. As long as the era has a reward to pay, the
entry stays: pruning drops eras outside the window only, a new bond counts every era of the window
as claimed, and a ledger moves with its stash. An era that lost its reward never gets one again.
-/

namespace GlitchRuntime.Staking

open Lib

variable {Account : Type}

/-- The stash, if it is bonded, has the era among the claimed ones of its ledger. -/
def Claimed (stakers : StakerStorage Account) (stash : Account) (era : ℕ) : Prop :=
  ∀ controller, stakers.bonded stash = some controller →
    ∃ claimed, stakers.claims controller = some (stash, claimed) ∧ era ∈ claimed

/-- No history depth reaches the era any more. -/
def EraStorage.Expired (eras : EraStorage Account) (era : ℕ) : Prop :=
  ∃ current, eras.currentEra = some current ∧ era + 2 ^ 32 ≤ current

theorem EraStorage.Expired.mono {before after : EraStorage Account} {era : ℕ}
    (expired : before.Expired era)
    (grows : ∀ current, before.currentEra = some current →
      ∃ later, after.currentEra = some later ∧ current ≤ later) : after.Expired era := by
  obtain ⟨current, planned, old⟩ := expired
  obtain ⟨later, planned', bound⟩ := grows current planned
  exact ⟨later, planned', old.trans bound⟩

/-- An expired era passes no era check. -/
theorem EraStorage.Expired.not_inWindow {eras : EraStorage Account} {era : ℕ}
    (expired : eras.Expired era) : ¬ eras.InWindow era := by
  rintro ⟨current, planned, -, low⟩
  obtain ⟨same, planned', old⟩ := expired
  obtain rfl := Option.some.inj (planned.symm.trans planned')
  have bound := eras.historyDepth.toNat_lt
  rw [EraStorage.firstEra] at low
  omega

/-- What is retained and not expired is inside the window of the history. -/
theorem EraStorage.Retained.low {eras : EraStorage Account} {era current : ℕ}
    (retained : eras.Retained era) (alive : ¬ eras.Expired era)
    (planned : eras.currentEra = some current) : eras.firstEra current ≤ era :=
  (retained current planned).resolve_right fun old => alive ⟨current, planned, old⟩

/-- The era check puts an era inside the history. -/
theorem EraStorage.InWindow.retained {eras : EraStorage Account} {era : ℕ}
    (window : eras.InWindow era) : eras.Retained era := by
  intro current planned
  obtain ⟨same, planned', -, low⟩ := window
  obtain rfl := Option.some.inj (planned.symm.trans planned')
  exact .inl low

/-- A receipt of an era that still pays is remembered where the next claim looks. -/
structure Remembered (stakers : StakerStorage Account) (eras : EraStorage Account)
    (receipt : PayoutReceipt Account) : Prop where
  retained : eras.Retained receipt.era
  claimed : ¬ eras.Expired receipt.era → Claimed stakers receipt.stash receipt.era

/-- The receipts of a run are of ended eras, remembered, and of distinct validators and eras. -/
structure ClaimsKept (stakers : StakerStorage Account) (eras : EraStorage Account)
    (log : List (PayoutReceipt Account)) : Prop where
  paired : Paired stakers
  ended : ∀ receipt ∈ log, receipt.era + 1 < eras.nextActiveEra
  remembered : ∀ receipt ∈ log, eras.erasValidatorReward receipt.era ≠ none →
    Remembered stakers eras receipt
  distinct : (log.map fun receipt => (receipt.stash, receipt.era)).Nodup

variable [DecidableEq Account] {config : Config Account}

omit [DecidableEq Account] in
/-- A ledger of one stash is not at the controller of another. -/
private theorem Paired.ne_controller {stakers : StakerStorage Account} (paired : Paired stakers)
    {stash other controller place : Account} {entries : ClaimedRewards}
    (bonded : stakers.bonded other = some controller)
    (present : stakers.claims place = some (stash, entries)) (apart : stash ≠ other) :
    place ≠ controller := by
  rintro rfl
  obtain ⟨others, owned⟩ := (paired other place).mp bonded
  rw [present] at owned
  exact apart (congrArg Prod.fst (Option.some.inj owned))

/-- Moves of bonds and claims forget no claim inside the window. -/
theorem Claimed.move {eras : EraStorage Account} {before after : StakerStorage Account}
    {stash : Account} {era : ℕ} (claimed : Claimed before stash era) (paired : Paired before)
    (move : ClaimsMove eras before after) (low : ∀ current, eras.currentEra = some current →
      eras.firstEra current ≤ era) (ended : ∃ current, eras.currentEra = some current ∧
      era < current) : Claimed after stash era := by
  cases move with
  | same same =>
    intro controller bonded
    rw [same.bonded] at bonded
    rw [same.claims]
    exact claimed controller bonded
  | bonds bonder controller unbonded fresh bonded claims =>
    intro place here
    rw [bonded, Function.update_apply] at here
    split_ifs at here with same
    · -- a new bond starts with the whole window claimed
      obtain rfl := Option.some.inj here
      obtain ⟨current, planned, early⟩ := ended
      refine ⟨_, (claims controller).trans ((if_pos rfl).trans (by rw [same])), ?_⟩
      rw [ClaimedRewards.mem_ofRange, planned]
      exact ⟨low current planned, early⟩
    · obtain ⟨entries, present, member⟩ := claimed place here
      refine ⟨entries, ?_, member⟩
      have apart : place ≠ controller := by
        rintro rfl
        cases fresh.symm.trans present
      rw [claims, if_neg apart, present]
  | moves mover old new old_eq fresh bonded claims =>
    intro place here
    rw [bonded, Function.update_apply] at here
    split_ifs at here with same
    · obtain rfl := Option.some.inj here
      obtain ⟨entries, present, member⟩ := claimed old (same ▸ old_eq)
      exact ⟨entries, by rw [claims, if_pos rfl, present], member⟩
    · obtain ⟨entries, present, member⟩ := claimed place here
      refine ⟨entries, ?_, member⟩
      have notNew : place ≠ new := by
        rintro rfl
        cases fresh.symm.trans present
      rw [claims, if_neg notNew, if_neg (paired.ne_controller old_eq present same), present]
  | kills victim controller controller_eq bonded claims =>
    intro place here
    rw [bonded, Function.update_apply] at here
    split_ifs at here with same
    obtain ⟨entries, present, member⟩ := claimed place here
    refine ⟨entries, ?_, member⟩
    rw [claims, if_neg (paired.ne_controller controller_eq present same), present]

/-- A payout keeps stashes and ledgers paired. -/
theorem Checked.paired {state after : State config} {validatorStash : Account} {era : ℕ}
    {input : PayoutInput Account} (checked : Checked state validatorStash era input)
    (paired : Paired state.toStakerStorage)
    (enters : EntersClaim state.toStakerStorage after.toStakerStorage input) :
    Paired after.toStakerStorage := by
  obtain ⟨current, entries, -, present, -⟩ := checked.claim
  intro stash controller
  rw [enters.bonded, enters.claims, paired stash controller]
  split_ifs with here
  · rw [here, present]
    constructor
    · rintro ⟨claimed, same⟩
      obtain ⟨rfl, -⟩ := Prod.mk.inj (Option.some.inj same)
      exact ⟨_, rfl⟩
    · rintro ⟨claimed, same⟩
      obtain ⟨rfl, -⟩ := Prod.mk.inj (Option.some.inj same)
      exact ⟨_, rfl⟩
  · rfl

/-- A payout adds its era to the claimed ones and forgets none inside the window. -/
theorem Checked.claimed {state after : State config} {validatorStash : Account} {era : ℕ}
    {input : PayoutInput Account} (checked : Checked state validatorStash era input)
    (enters : EntersClaim state.toStakerStorage after.toStakerStorage input) {stash : Account}
    {other : ℕ} (claimed : Claimed state.toStakerStorage stash other)
    (low : ∀ current, state.currentEra = some current → state.firstEra current ≤ other) :
    Claimed after.toStakerStorage stash other := by
  intro controller bonded
  rw [enters.bonded] at bonded
  obtain ⟨entries, present, member⟩ := claimed controller bonded
  rw [enters.claims]
  split_ifs with here
  · obtain ⟨current, before, planned, entered, claim⟩ := checked.claim
    rw [here, entered] at present
    obtain ⟨rfl, rfl⟩ := Prod.mk.inj (Option.some.inj present)
    refine ⟨_, rfl, (ClaimedRewards.mem_of_claim claim).mpr (.inr ?_)⟩
    exact ClaimedRewards.mem_retain.mpr ⟨member, low current planned⟩
  · exact ⟨entries, present, member⟩

/-- The paid era is claimed afterwards. -/
theorem Checked.claims_era {state after : State config} {validatorStash : Account} {era : ℕ}
    {input : PayoutInput Account} (checked : Checked state validatorStash era input)
    (paired : Paired state.toStakerStorage)
    (enters : EntersClaim state.toStakerStorage after.toStakerStorage input) :
    Claimed after.toStakerStorage validatorStash era := by
  obtain ⟨current, before, -, present, claim⟩ := checked.claim
  obtain ⟨entries, owned⟩ := (paired _ _).mp checked.bonded
  rw [present] at owned
  have stash : input.ledger.stash = validatorStash := congrArg Prod.fst (Option.some.inj owned)
  intro controller bonded
  rw [enters.bonded, checked.bonded] at bonded
  obtain rfl := Option.some.inj bonded
  refine ⟨_, ?_, (ClaimedRewards.mem_of_claim claim).mpr (.inl rfl)⟩
  rw [enters.claims, if_pos rfl, stash]

/-- What is claimed inside the window is not paid again. -/
theorem Checked.not_claimed {state : State config} {validatorStash : Account} {era : ℕ}
    {input : PayoutInput Account} (checked : Checked state validatorStash era input) :
    ¬ Claimed state.toStakerStorage validatorStash era := by
  intro claimed
  obtain ⟨current, before, planned, present, claim⟩ := checked.claim
  obtain ⟨entries, owned, member⟩ := claimed _ checked.bonded
  rw [present] at owned
  obtain ⟨-, rfl⟩ := Prod.mk.inj (Option.some.inj owned)
  obtain ⟨same, planned', -, low⟩ := checked.window
  obtain rfl := Option.some.inj (planned.symm.trans planned')
  have refused := ClaimedRewards.claim_eq_none_iff.mpr (ClaimedRewards.mem_retain.mpr ⟨member, low⟩)
  cases refused.symm.trans claim

omit [DecidableEq Account] in
/-- Where the records were there before, a receipt stays remembered. -/
private theorem Remembered.step {before after : EraStorage Account}
    {stakers stakers' : StakerStorage Account} {receipt : PayoutReceipt Account}
    (remembered : Remembered stakers before receipt) (prunes : Prunes before after)
    (present : after.erasValidatorReward receipt.era ≠ none)
    (claimed : ¬ before.Expired receipt.era → Claimed stakers receipt.stash receipt.era →
      Claimed stakers' receipt.stash receipt.era) : Remembered stakers' after receipt where
  retained := prunes.retained _ present remembered.retained
  claimed alive := by
    have aliveBefore : ¬ before.Expired receipt.era := fun expired =>
      alive (expired.mono prunes.currentEra)
    exact claimed aliveBefore (remembered.claimed aliveBefore)

/-- What passes the checks of a payout has not been paid in the run. -/
private theorem ClaimsKept.notPaid {state : State config} {log : List (PayoutReceipt Account)}
    (kept : ClaimsKept state.toStakerStorage state.toEraStorage log) {validatorStash : Account}
    {era : ℕ} {input : PayoutInput Account} (checked : Checked state validatorStash era input) :
    (validatorStash, era) ∉ log.map fun receipt => (receipt.stash, receipt.era) := by
  intro paid
  obtain ⟨receipt, member, same⟩ := List.mem_map.mp paid
  obtain ⟨rfl, rfl⟩ := Prod.mk.inj same
  have remembered := kept.remembered receipt member (by simp [checked.reward])
  exact checked.not_claimed
    (remembered.claimed fun expired => expired.not_inWindow checked.window)

section effects

variable {before after : State config} {log : List (PayoutReceipt Account)}
  (kept : ClaimsKept before.toStakerStorage before.toEraStorage log)
include kept

/-- Pruned records and moved ledgers keep the claims. -/
private theorem ClaimsKept.pruned (consistent : Consistent before)
    (prunes : Prunes before.toEraStorage after.toEraStorage)
    (claims : ClaimsMove before.toEraStorage before.toStakerStorage after.toStakerStorage) :
    ClaimsKept after.toStakerStorage after.toEraStorage log := by
  refine ⟨kept.paired.move claims, fun receipt member => ?_, fun receipt member present => ?_,
    kept.distinct⟩
  · exact (kept.ended receipt member).trans_le prunes.nextActiveEra
  · have remembered := kept.remembered receipt member (prunes.reward_eq present ▸ present)
    refine remembered.step prunes present fun alive claimed =>
      claimed.move kept.paired claims (fun _ => remembered.retained.low alive) ?_
    obtain ⟨index, next⟩ : ∃ index, before.nextActiveEra = index + 1 :=
      Nat.exists_eq_succ_of_ne_zero (by have := kept.ended receipt member; omega)
    obtain ⟨current, planned, bound⟩ := consistent.timeline.active next
    have ended := kept.ended receipt member
    exact ⟨current, planned, by omega⟩

/-- The end of an era keeps the claims, as none of them is of that era. -/
private theorem ClaimsKept.eraEnded {info : ActiveEraInfo} {reward : ℕ}
    (active : before.activeEra = some info)
    (prunes : Prunes (setEraReward before.toEraStorage info.index reward) after.toEraStorage)
    (nextActiveEra : info.index + 1 < after.nextActiveEra) :
    ClaimsKept before.toStakerStorage after.toEraStorage log := by
  have next : before.nextActiveEra = info.index + 1 := by
    simp [EraStorage.nextActiveEra, active]
  refine ⟨kept.paired, fun receipt member => ?_, fun receipt member present => ?_, kept.distinct⟩
  · have ended := kept.ended receipt member
    omega
  · have old : receipt.era ≠ info.index := by
      have ended := kept.ended receipt member
      omega
    have presentBefore := prunes.reward_eq present ▸ present
    rw [setEraReward_erasValidatorReward, if_neg old] at presentBefore
    have remembered := kept.remembered receipt member presentBefore
    have same : Remembered before.toStakerStorage
        (setEraReward before.toEraStorage info.index reward) receipt :=
      ⟨remembered.retained, remembered.claimed⟩
    exact same.step prunes present fun _ claimed => claimed

/-- A payout adds its claim. -/
private theorem ClaimsKept.paid (consistent : Consistent before) {validatorStash : Account}
    {era : ℕ} {input : PayoutInput Account} {receipt : PayoutReceipt Account}
    (checked : Checked before validatorStash era input)
    (paid : Paid before after validatorStash era input receipt) :
    ClaimsKept after.toStakerStorage after.toEraStorage (log ++ [receipt]) := by
  have rewards : after.erasValidatorReward = before.erasValidatorReward := by rw [paid.eras]; rfl
  have expired : ∀ other, after.Expired other ↔ before.Expired other := fun other => by
    rw [paid.eras]; rfl
  have retained : ∀ {other}, before.Retained other → after.Retained other := fun kept => by
    rw [paid.eras]; exact kept
  have nextActive : after.nextActiveEra = before.nextActiveEra := by rw [paid.eras]; rfl
  have payable : before.erasValidatorReward era ≠ none := by simp [checked.reward]
  refine ⟨checked.paired kept.paired paid.claims, fun other member => ?_,
    fun other member present => ?_, ?_⟩
  · rw [nextActive]
    rcases List.mem_append.mp member with old | new
    · exact kept.ended other old
    · obtain rfl := List.mem_singleton.mp new
      rw [paid.era_eq]
      exact consistent.records.ended payable
  · rw [rewards] at present
    rcases List.mem_append.mp member with old | new
    · have remembered := kept.remembered other old present
      refine ⟨retained remembered.retained, fun alive => ?_⟩
      rw [expired] at alive
      exact checked.claimed paid.claims (remembered.claimed alive)
        fun _ => remembered.retained.low alive
    · obtain rfl := List.mem_singleton.mp new
      refine ⟨?_, fun _ => ?_⟩
      · rw [paid.era_eq]
        exact retained checked.window.retained
      · rw [paid.era_eq, paid.stash_eq]
        exact checked.claims_era kept.paired paid.claims
  · rw [List.map_append, List.map_singleton, paid.stash_eq, paid.era_eq, List.nodup_append]
    refine ⟨kept.distinct, List.nodup_singleton _, ?_⟩
    rintro _ old _ new rfl
    obtain rfl := List.mem_singleton.mp new
    exact kept.notPaid checked old

end effects

/-- Every effect keeps the claims of the run, those it adds included. -/
theorem Effect.claimsKept {before after : State config}
    {log out : List (PayoutReceipt Account)} (consistent : Consistent before)
    (kept : ClaimsKept before.toStakerStorage before.toEraStorage log)
    (effect : Effect before after out) :
    ClaimsKept after.toStakerStorage after.toEraStorage (log ++ out) := by
  cases effect with
  | kept prunes claims _ =>
    rw [List.append_nil]
    exact kept.pruned consistent prunes claims
  | ended info reward active _ _ prunes nextActiveEra stakers _ =>
    rw [List.append_nil, stakers]
    exact kept.eraEnded active prunes nextActiveEra
  | paid validatorStash era input receipt checked paid => exact kept.paid consistent checked paid

/-- The claims of a run are kept in every reachable state. -/
theorem Reachable.claimsKept {state : State config} {log : List (PayoutReceipt Account)}
    (reachable : Reachable state log) :
    Consistent state ∧ ClaimsKept state.toStakerStorage state.toEraStorage log := by
  refine Machine.Reachable.invariant (fun state log => Consistent state ∧
    ClaimsKept state.toStakerStorage state.toEraStorage log) reachable (fun source initial => ?_) ?_
  · refine ⟨initial.consistent, ⟨fun stash controller => ?_, ?_, ?_, List.nodup_nil⟩⟩
    · rw [initial.bonded, StakerStorage.claims, initial.ledger]
      simp
    · exact List.forall_mem_nil _
    · exact List.forall_mem_nil _
  · rintro current next log out call ⟨consistent, kept⟩ - success
    exact ⟨step_consistent consistent success,
      (step_effect consistent success).claimsKept consistent kept⟩

private theorem payouts_nodup {state : State config} {log : List (PayoutReceipt Account)}
    (reachable : Reachable state log) :
    (log.map fun receipt => (receipt.stash, receipt.era)).Nodup :=
  reachable.claimsKept.2.distinct

/-- In any run, whatever is bonded, moved, removed and bonded again and however the history depth
changes, no validator is paid out twice for one era: the receipts are of distinct validators and
eras, and a payout that left one is refused from then on. -/
theorem payout_at_most_once {state : State config} {log : List (PayoutReceipt Account)}
    (reachable : Reachable state log) :
    (log.map fun receipt => (receipt.stash, receipt.era)).Nodup ∧
    ∀ receipt ∈ log, ∃ error, doPayoutStakers state receipt.stash receipt.era = .error error := by
  refine ⟨payouts_nodup reachable, fun receipt member => ?_⟩
  cases again : doPayoutStakers state receipt.stash receipt.era with
  | error error => exact ⟨error, rfl⟩
  | ok result =>
    obtain ⟨after, second⟩ := result
    obtain ⟨input, -, paid⟩ := doPayoutStakers_paid again
    have taken : (system config).step state (.payoutStakers receipt.stash receipt.era) =
        .ok (after, [second]) := by
      simp only [system, step, again]
    have repeated := payouts_nodup (reachable.extend (.snoc (.nil state) trivial taken))
    rw [List.nil_append, List.map_append, List.map_singleton, paid.stash_eq, paid.era_eq,
      List.nodup_append] at repeated
    exact absurd rfl (repeated.2.2 _ (List.mem_map_of_mem member) _ (List.mem_singleton_self _))

/-- A validator is paid for era zero, leaves and bonds again. -/
def payAndRebond : List (Call smallConfig) :=
  [.bond 10 20 30 .stash, .bond 11 21 30 .stash, .genesisSession (some quartet) (some quartet),
    .onFinalize 5, .rewardByIds [(10, 20), (11, 20)], .rotateSession (some quartet),
    .payoutStakers 10 0, .payoutStakers 11 0, .forceUnstake 10 0, .setHistoryDepth 3,
    .bond 10 22 30 .stash]

theorem payAndRebond_once :
    ((outcome payAndRebond).2.map fun receipt => (receipt.stash, receipt.era)) =
      [(10, 0), (11, 0)] ∧
    ∀ receipt ∈ (outcome payAndRebond).2, ∃ error,
      doPayoutStakers (outcome payAndRebond).1 receipt.stash receipt.era = .error error := by
  have reachable := outcome_reachable payAndRebond (by decide +kernel)
  exact ⟨by decide +kernel, (payout_at_most_once reachable).2⟩

end GlitchRuntime.Staking
