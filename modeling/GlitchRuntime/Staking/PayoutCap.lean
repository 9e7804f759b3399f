import GlitchRuntime.Staking.ClaimOnce

/-! # What an era pays out

The reward of an era is split by points over its validators, and each part by commission and
exposure over stakers. Every split rounds to nearest, so the era can pay out more than its reward,
but by less than half a unit for every staker paid; the reserve of the era is its reward less what
it has paid out, and nothing once that is more.
-/

namespace GlitchRuntime.Staking

open Lib

variable {Account : Type}

/-- The receipts of one era. -/
def receiptsOf (log : List (PayoutReceipt Account)) (era : ℕ) : List (PayoutReceipt Account) :=
  log.filter fun receipt => receipt.era = era

/-- What the fund was charged for one era. -/
def takenIn (log : List (PayoutReceipt Account)) (era : ℕ) : ℕ :=
  ((receiptsOf log era).map PayoutReceipt.taken).sum

/-- How many stakers the payouts of one era were split over. -/
def stakersIn (log : List (PayoutReceipt Account)) (era : ℕ) : ℕ :=
  ((receiptsOf log era).map PayoutReceipt.stakers).sum

theorem receiptsOf_append (first second : List (PayoutReceipt Account)) (era : ℕ) :
    receiptsOf (first ++ second) era = receiptsOf first era ++ receiptsOf second era :=
  List.filter_append ..

theorem mem_receiptsOf {log : List (PayoutReceipt Account)} {era : ℕ}
    {receipt : PayoutReceipt Account} :
    receipt ∈ receiptsOf log era ↔ receipt ∈ log ∧ receipt.era = era := by
  rw [receiptsOf, List.mem_filter, decide_eq_true_eq]

theorem receiptsOf_eq_nil {log : List (PayoutReceipt Account)} {era : ℕ}
    (absent : ∀ receipt ∈ log, receipt.era ≠ era) : receiptsOf log era = [] :=
  List.filter_eq_nil_iff.mpr fun receipt member => by simpa using absent receipt member

/-- What each payout of an era with a reward took, and what is left of the reserve. -/
structure Capped (eras : EraStorage Account) (log : List (PayoutReceipt Account)) : Prop where
  share : ∀ receipt ∈ log, ∀ reward, eras.erasValidatorReward receipt.era = some reward →
    2 * receipt.taken ≤
      2 * validatorTotalPayout (eras.erasRewardPoints receipt.era) receipt.stash reward +
        receipt.nominators
  reserve : ∀ era reward, eras.erasValidatorReward era = some reward →
    eras.erasNotClaimedReward era = some (reward - takenIn log era)

/-- Pruning keeps what is known of the eras that are left. -/
theorem Capped.prunes {before after : EraStorage Account} {log : List (PayoutReceipt Account)}
    (capped : Capped before log) (prunes : Prunes before after) : Capped after log where
  share receipt member reward present := by
    rcases prunes.records receipt.era with ⟨gone, -⟩ | ⟨same, -, points⟩
    · cases gone.symm.trans present
    · rw [points]
      exact capped.share receipt member reward (same.symm.trans present)
  reserve era reward present := by
    rcases prunes.records era with ⟨gone, -⟩ | ⟨same, notClaimed, -⟩
    · cases gone.symm.trans present
    · rw [notClaimed]
      exact capped.reserve era reward (same.symm.trans present)

/-- An era that ends has paid nothing yet. -/
theorem Capped.setEraReward {eras : EraStorage Account} {log : List (PayoutReceipt Account)}
    (capped : Capped eras log) {era : ℕ} (fresh : ∀ receipt ∈ log, receipt.era ≠ era)
    (reward : ℕ) : Capped (setEraReward eras era reward) log where
  share receipt member amount present := by
    rw [setEraReward_erasValidatorReward, if_neg (fresh receipt member)] at present
    exact capped.share receipt member amount present
  reserve other amount present := by
    rw [setEraReward_erasValidatorReward] at present
    rw [setEraReward_erasNotClaimedReward]
    split_ifs at present ⊢ with here
    · obtain rfl := Option.some.inj present
      rw [here, takenIn, receiptsOf_eq_nil fresh]
      rfl
    · exact capped.reserve other amount present

variable [DecidableEq Account] {config : Config Account}

/-- A payout takes its charge off the reserve of its era. -/
theorem Capped.paid {before after : State config} {log : List (PayoutReceipt Account)}
    (capped : Capped before.toEraStorage log) (paired : Paired before.toStakerStorage)
    {validatorStash : Account} {era : ℕ} {input : PayoutInput Account}
    {receipt : PayoutReceipt Account} (checked : Checked before validatorStash era input)
    (paid : Paid before after validatorStash era input receipt) :
    Capped after.toEraStorage (log ++ [receipt]) := by
  obtain ⟨current, entries, -, present, -⟩ := checked.claim
  obtain ⟨claimed, owned⟩ := (paired _ _).mp checked.bonded
  have stash : input.ledger.stash = validatorStash :=
    congrArg Prod.fst (Option.some.inj (present.symm.trans owned))
  rw [paid.eras]
  refine ⟨fun other member reward rewarded => ?_, fun other reward rewarded => ?_⟩
  · rcases List.mem_append.mp member with old | new
    · exact capped.share other old reward rewarded
    · obtain rfl := List.mem_singleton.mp new
      rw [paid.era_eq] at rewarded ⊢
      obtain rfl := Option.some.inj (checked.reward.symm.trans rewarded)
      rw [paid.stash_eq, ← stash]
      exact paid.bound
  · have reserve := capped.reserve other reward rewarded
    rw [takeReserve_erasNotClaimedReward, takenIn, receiptsOf_append, List.map_append,
      List.sum_append]
    split_ifs with here
    · subst here
      have new : receiptsOf [receipt] other = [receipt] := by simp [receiptsOf, paid.era_eq]
      rw [reserve, new, Option.map_some, Nat.sub_sub]
      rfl
    · have new : receiptsOf [receipt] other = [] :=
        receiptsOf_eq_nil (by simpa [paid.era_eq] using Ne.symm here)
      rw [reserve, new]
      rfl

/-- Every effect keeps the cap. -/
theorem Effect.capped {before after : State config} {log out : List (PayoutReceipt Account)}
    (kept : ClaimsKept before.toStakerStorage before.toEraStorage log)
    (capped : Capped before.toEraStorage log) (effect : Effect before after out) :
    Capped after.toEraStorage (log ++ out) := by
  cases effect with
  | kept prunes _ _ =>
    rw [List.append_nil]
    exact capped.prunes prunes
  | ended info reward active _ _ prunes _ _ _ =>
    rw [List.append_nil]
    refine (capped.setEraReward (fun receipt member => ?_) reward).prunes prunes
    have ended := kept.ended receipt member
    simp only [EraStorage.nextActiveEra, active] at ended
    omega
  | paid _ _ _ _ checked paid => exact capped.paid kept.paired checked paid

theorem Reachable.capped {state : State config} {log : List (PayoutReceipt Account)}
    (reachable : Reachable state log) : Capped state.toEraStorage log := by
  have all : (Consistent state ∧ ClaimsKept state.toStakerStorage state.toEraStorage log) ∧
      Capped state.toEraStorage log := by
    refine Machine.Reachable.invariant (fun state log => (Consistent state ∧
      ClaimsKept state.toStakerStorage state.toEraStorage log) ∧ Capped state.toEraStorage log)
      reachable (fun source initial => ⟨?_, ⟨?_, ?_⟩⟩) ?_
    · exact Reachable.claimsKept ⟨source, initial, .nil source⟩
    · exact List.forall_mem_nil _
    · intro era reward present
      cases (initial.erasValidatorReward era).symm.trans present
    · rintro current next log out call ⟨⟨consistent, kept⟩, capped⟩ - success
      have effect := step_effect consistent success
      exact ⟨⟨step_consistent consistent success, effect.claimsKept consistent kept⟩,
        effect.capped kept capped⟩
  exact all.2

/-! ## Points that add up -/

/-- The points of every era are those before, or forgotten. -/
def PointsKept (before after : EraStorage Account) : Prop :=
  ∀ era, after.erasRewardPoints era = before.erasRewardPoints era ∨
    after.erasRewardPoints era = default

omit [DecidableEq Account] in
theorem PointsKept.of_same {before after : EraStorage Account}
    (same : after.erasRewardPoints = before.erasRewardPoints) : PointsKept before after :=
  fun era => .inl (congrFun same era)

omit [DecidableEq Account] in
theorem PointsKept.trans {first second third : EraStorage Account}
    (left : PointsKept first second) (right : PointsKept second third) :
    PointsKept first third := by
  intro era
  rcases right era with same | gone
  · rw [same]
    exact left era
  · exact .inr gone

omit [DecidableEq Account] in
theorem pointsKept_clearEraInformation (eras : EraStorage Account) (era : ℕ) :
    PointsKept eras (clearEraInformation eras era) := by
  intro other
  rw [clearEraInformation_erasRewardPoints]
  split_ifs
  · exact .inr rfl
  · exact .inl rfl

omit [DecidableEq Account] in
theorem pointsKept_clearEras (eras : EraStorage Account) (first count : ℕ) :
    PointsKept eras (clearEras eras first count) := by
  induction count generalizing eras first with
  | zero => exact .of_same rfl
  | succ count ih => exact (pointsKept_clearEraInformation eras first).trans (ih _ _)

omit [DecidableEq Account] in
theorem pointsKept_startSession (eras : EraStorage Account) (session : ℕ) :
    PointsKept eras (startSession eras session) := by
  rcases startSession_cases eras session with same | ⟨same, -⟩
  · exact .of_same (by rw [same])
  · exact .of_same (by rw [same]; rfl)

theorem Planned.pointsKept {state after : State config} {session : ℕ}
    (planned : Planned state session after) :
    PointsKept state.toEraStorage after.toEraStorage := by
  cases planned with
  | none => exact .of_same rfl
  | bare _ => exact .of_same rfl
  | era clipped prefs mode =>
    intro era
    change (pruneEra (advanceEra state.toEraStorage session) state.nextPlannedEra).erasRewardPoints
      era = _ ∨ _
    unfold pruneEra
    dsimp only
    split_ifs
    · exact pointsKept_clearEraInformation (advanceEra state.toEraStorage session) _ era
    · exact .inl rfl

theorem pointsKept_endSession (state : State config) (session : ℕ) :
    PointsKept state.toEraStorage (endSession state session).toEraStorage := by
  unfold endSession endEra
  split
  · exact .of_same rfl
  · split
    · exact .of_same rfl
    · exact .of_same (by simp only [setEraReward, (triggerWallet_spec state).1])

/-- Every step but an award keeps or forgets points. -/
theorem step_points {before after : State config} {call : Call config}
    {out : List (PayoutReceipt Account)} (success : step before call = .ok (after, out)) :
    PointsKept before.toEraStorage after.toEraStorage ∨
      ∃ points, call = .rewardByIds points ∧
        after.toEraStorage = rewardByIds before.toEraStorage points := by
  cases step_stepped success with
  | @genesis first second =>
    left
    exact ((newSession_planned before 0 first).pointsKept.trans
      (newSession_planned _ 1 second).pointsKept).trans (pointsKept_startSession _ 0)
  | @rotated session election =>
    left
    exact ((pointsKept_endSession before session).trans
      (pointsKept_startSession { (endSession before session).toEraStorage with
        sessionIndex := some (session + 1) } (session + 1))).trans
      (newSession_planned _ (session + 2) election).pointsKept
  | @finalized now =>
    obtain ⟨activeEra, same, -⟩ := onFinalize_eq before.toEraStorage now
    exact .inl (.of_same (by rw [same]))
  | @rewarded points => exact .inr ⟨points, rfl, rfl⟩
  | forced => exact .inl (.of_same rfl)
  | @depthSet depth =>
    left
    unfold setHistoryDepth
    split
    · exact .of_same rfl
    · exact pointsKept_clearEras before.toEraStorage _ _
  | bonding move => exact .inl (.of_same (by rw [move.eras]))
  | paidOut checked paid => exact .inl (.of_same (by rw [paid.eras]; rfl))
  | aside eras => exact .inl (.of_same (by rw [eras]))

/-- The points of every era add up. -/
def AllAddUp (eras : EraStorage Account) : Prop := ∀ era, (eras.erasRewardPoints era).AddUp

/-- A step that awards no more points than fit keeps points that add up. -/
theorem AllAddUp.step {before after : State config} (adds : AllAddUp before.toEraStorage)
    {call : Call config} {out : List (PayoutReceipt Account)}
    (fits : call.PointsFit before.toEraStorage) (success : step before call = .ok (after, out)) :
    AllAddUp after.toEraStorage := by
  intro era
  rcases step_points success with kept | ⟨points, rfl, same⟩
  · rcases kept era with same | gone
    · rw [same]
      exact adds era
    · rw [gone]
      exact EraRewardPoints.addUp_default
  · rw [same]
    unfold rewardByIds
    cases active : before.activeEra with
    | none => exact adds era
    | some info =>
      change (Function.update before.erasRewardPoints info.index _ era).AddUp
      rw [Function.update_apply]
      split_ifs with here
      · exact (adds info.index).awardAll (fits info active)
      · exact adds era

/-- As long as no award wraps, the points of every era add up. -/
theorem ReachableUnwrapped.addUp {state : State config} {log : List (PayoutReceipt Account)}
    (reachable : ReachableUnwrapped state log) : AllAddUp state.toEraStorage := by
  obtain ⟨source, ⟨-, fresh⟩, run⟩ := reachable
  refine run.preserves (fun state _ => AllAddUp state.toEraStorage) (fun era => ?_)
    fun adds fits success => adds.step fits success
  rw [fresh era]
  exact EraRewardPoints.addUp_default

/-! ## The cap of an era -/

omit [DecidableEq Account] in
/-- Charges that stay within shares and nominators stay within their sums. -/
private theorem two_mul_taken_le (receipts : List (PayoutReceipt Account))
    (share : PayoutReceipt Account → ℕ)
    (bound : ∀ receipt ∈ receipts, 2 * receipt.taken ≤ 2 * share receipt + receipt.nominators) :
    2 * (receipts.map PayoutReceipt.taken).sum + receipts.length ≤
      2 * (receipts.map share).sum + (receipts.map PayoutReceipt.stakers).sum := by
  induction receipts with
  | nil => simp
  | cons receipt rest ih =>
    have head := bound receipt (List.mem_cons_self ..)
    have tail := ih fun other member => bound other (List.mem_cons_of_mem _ member)
    simp only [List.map_cons, List.sum_cons, List.length_cons, PayoutReceipt.stakers] at head tail ⊢
    omega

/-- The parts of distinct validators overshoot the reward by less than half a unit each. -/
private theorem two_mul_shares_lt {points : EraRewardPoints Account} (adds : points.AddUp)
    {stashes : List Account} (distinct : stashes.Nodup) (nonempty : stashes ≠ []) (reward : ℕ) :
    2 * (stashes.map fun stash => validatorTotalPayout points stash reward).sum <
      2 * reward + stashes.length := by
  have covered : (stashes.map fun stash => (points.individual stash).toNat).sum ≤
      points.total.toNat := by
    have sum := adds stashes.toFinset
    rwa [List.sum_toFinset _ distinct] at sum
  have split := Perbill.two_mul_sum_lt reward (by simpa using nonempty) covered
  simpa [validatorTotalPayout, Function.comp_def] using split

/-- What is known of the claims and of each payout bounds what an era took. -/
theorem Capped.two_mul_takenIn_lt {stakers : StakerStorage Account} {eras : EraStorage Account}
    {log : List (PayoutReceipt Account)} (capped : Capped eras log)
    (kept : ClaimsKept stakers eras log) {era reward : ℕ} (adds : (eras.erasRewardPoints era).AddUp)
    (present : eras.erasValidatorReward era = some reward) (nonempty : receiptsOf log era ≠ []) :
    2 * takenIn log era < 2 * reward + stakersIn log era := by
  have taken := two_mul_taken_le (receiptsOf log era)
    (fun receipt => validatorTotalPayout (eras.erasRewardPoints era) receipt.stash reward)
    fun receipt member => by
      obtain ⟨logged, rfl⟩ := mem_receiptsOf.mp member
      exact capped.share receipt logged reward present
  have distinct : ((receiptsOf log era).map PayoutReceipt.stash).Nodup := by
    refine List.Nodup.of_map (fun stash => (stash, era)) ?_
    rw [List.map_map]
    have sub : ((receiptsOf log era).map fun receipt => (receipt.stash, receipt.era)).Nodup :=
      kept.distinct.sublist (List.filter_sublist.map _)
    rwa [List.map_congr_left fun receipt member => by rw [(mem_receiptsOf.mp member).2]] at sub
  have shares := two_mul_shares_lt adds distinct (by simpa using nonempty) reward
  rw [List.map_map, List.length_map] at shares
  simp only [takenIn, stakersIn, Function.comp_def] at taken shares ⊢
  omega

/-- The payouts of an era with a reward: where the points of the era add up, what they took exceeds
the reward by less than half a unit for every staker they were split over; and the reserve is what
they left of it. In a run whose awards never wrap, the points of every era add up. -/
theorem era_payouts {state : State config} {log : List (PayoutReceipt Account)}
    (reachable : Reachable state log) {era reward : ℕ}
    (present : state.erasValidatorReward era = some reward) :
    ((state.erasRewardPoints era).AddUp →
      2 * takenIn log era ≤ 2 * reward + stakersIn log era ∧
      (receiptsOf log era ≠ [] → 2 * takenIn log era < 2 * reward + stakersIn log era)) ∧
    (ReachableUnwrapped state log → (state.erasRewardPoints era).AddUp) ∧
    state.erasNotClaimedReward era = some (reward - takenIn log era) := by
  have capped := reachable.capped
  refine ⟨fun adds => ?_, fun unwrapped => unwrapped.addUp era, capped.reserve era reward present⟩
  have strict := capped.two_mul_takenIn_lt reachable.claimsKept.2 adds present
  refine ⟨?_, strict⟩
  rcases eq_or_ne (receiptsOf log era) [] with none | some
  · simp [takenIn, none]
  · exact (strict some).le

/-- Four validators share era zero equally; the fund gets a deposit before the last is paid. -/
def shareEraZero : List (Call smallConfig) :=
  [.bond 10 20 30 .stash, .bond 11 21 30 .stash, .bond 12 22 30 .stash, .bond 13 23 30 .stash,
    .genesisSession (some quartet) (some quartet), .onFinalize 5,
    .rewardByIds [(10, 20), (11, 20), (12, 20), (13, 20)], .rotateSession (some quartet),
    .payoutStakers 10 0, .payoutStakers 11 0, .payoutStakers 12 0,
    .outside
      { store := ⟨fun _ => 200, 2000⟩
        payee := fun _ => .stash
        validators := fun _ => none
        nominators := fun _ => false
        minNominatorBond := 0
        minValidatorBond := 0
        slashingSpans := fun _ => none
        amounts := fun _ => (30, 30, []) },
    .payoutStakers 13 0]

private theorem shareEraZero_reachable :
    Reachable (outcome shareEraZero).1 (outcome shareEraZero).2 :=
  outcome_reachable shareEraZero (by decide +kernel)

/-- Two of the four have points that wrap to a total of zero; the fund gets a deposit in between. -/
def wrapEraZero : List (Call smallConfig) :=
  shareEraZero.take 6 ++ [.rewardByIds [(10, 2147483648), (11, 2147483648)],
    .rotateSession (some quartet), .payoutStakers 10 0] ++
  (shareEraZero.drop 11).take 1 ++ [.payoutStakers 11 0]

/-- A quarter of 99 rounds up to 25: the four payouts take 100 of the 99 that era zero has, and
the reserve saturates. Points that wrap give two validators the whole 99 each, which no rounding
accounts for. -/
theorem shareEraZero_overpaid :
    (¬ ∀ (state : State smallConfig) (log : List (PayoutReceipt ℕ)), Reachable state log →
      ∀ era reward, state.erasValidatorReward era = some reward →
        takenIn log era ≤ reward ∧
          state.erasNotClaimedReward era = some (reward - takenIn log era)) ∧
    ¬ ∀ (state : State smallConfig) (log : List (PayoutReceipt ℕ)), Reachable state log →
      ∀ era reward, state.erasValidatorReward era = some reward →
        2 * takenIn log era ≤ 2 * reward + stakersIn log era := by
  constructor
  · intro cap
    have paid := (cap _ _ shareEraZero_reachable 0 99 (by decide +kernel)).1
    have taken : takenIn (outcome shareEraZero).2 0 = 100 := by decide +kernel
    omega
  · intro cap
    have reachable := outcome_reachable wrapEraZero (by decide +kernel)
    have paid := cap _ _ reachable 0 99 (by decide +kernel)
    have taken : takenIn (outcome wrapEraZero).2 0 = 198 := by decide +kernel
    have split : stakersIn (outcome wrapEraZero).2 0 = 2 := by decide +kernel
    omega

theorem shareEraZero_payouts :
    2 * takenIn (outcome shareEraZero).2 0 < 2 * 99 + stakersIn (outcome shareEraZero).2 0 ∧
    (outcome shareEraZero).1.erasNotClaimedReward 0 =
      some (99 - takenIn (outcome shareEraZero).2 0) := by
  obtain ⟨bound, adds, reserve⟩ := era_payouts shareEraZero_reachable
    (show (outcome shareEraZero).1.erasValidatorReward 0 = some 99 by decide +kernel)
  have unwrapped := outcome_reachableUnwrapped shareEraZero (by decide +kernel)
  exact ⟨(bound (adds unwrapped)).2 (by decide +kernel), reserve⟩

end GlitchRuntime.Staking
