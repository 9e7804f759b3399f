import GlitchRuntime.Staking.StakerMoves

/-! # Unlocking what is bonded

In every run of the system of stakers, stashes and ledgers stay paired and ledgers stay sound. What
a stash withdraws by an era is covered by what it unbonded a whole bonding duration before.
-/

namespace GlitchRuntime.Staking

open Lib

variable {Account : Type} [DecidableEq Account] {config : SlashConfig Account}
  {call : StakerCall config}

/-! ## Chunks that are due -/

/-- What the chunks that unlock by an era are worth. -/
def dueBy (chunks : List UnlockChunk) (era : ℕ) : ℕ := chunkSum (chunks.filter (·.era ≤ era))

@[simp] theorem dueBy_nil (era : ℕ) : dueBy [] era = 0 := rfl

@[simp] theorem dueBy_cons (chunk : UnlockChunk) (chunks : List UnlockChunk) (era : ℕ) :
    dueBy (chunk :: chunks) era =
      (if chunk.era ≤ era then chunk.value else 0) + dueBy chunks era := by
  unfold dueBy
  by_cases due : chunk.era ≤ era
  · rw [List.filter_cons_of_pos (by simpa using due), chunkSum_cons, if_pos due]
  · rw [List.filter_cons_of_neg (by simpa using due), if_neg due, Nat.zero_add]

@[simp] theorem dueBy_append (first second : List UnlockChunk) (era : ℕ) :
    dueBy (first ++ second) era = dueBy first era + dueBy second era := by
  simp [dueBy]

@[simp] theorem dueBy_reverse (chunks : List UnlockChunk) (era : ℕ) :
    dueBy chunks.reverse era = dueBy chunks era := by
  simp [dueBy, List.filter_reverse]

theorem dueBy_filter_le (chunks : List UnlockChunk) (select : UnlockChunk → Bool) (era : ℕ) :
    dueBy (chunks.filter select) era ≤ dueBy chunks era := by
  induction chunks with
  | nil => exact le_rfl
  | cons chunk rest ih =>
    rw [List.filter_cons]
    split_ifs
    · rw [dueBy_cons, dueBy_cons]
      exact Nat.add_le_add_left ih _
    · rw [dueBy_cons]
      exact ih.trans (Nat.le_add_left _ _)

/-- Dropping what is due by an era leaves what is due between. -/
theorem dueBy_drop (chunks : List UnlockChunk) {early late : ℕ} (order : early ≤ late) :
    dueBy (chunks.filter (early < ·.era)) late + dueBy chunks early = dueBy chunks late := by
  induction chunks with
  | nil => rfl
  | cons chunk rest ih =>
    rw [dueBy_cons, dueBy_cons]
    by_cases later : early < chunk.era
    · rw [List.filter_cons_of_pos (by simpa using later), dueBy_cons, if_neg (not_le.mpr later)]
      omega
    · rw [List.filter_cons_of_neg (by simpa using later), if_pos (not_lt.mp later),
        if_pos ((not_lt.mp later).trans order)]
      omega

/-- A smaller chunk of the same era makes less due. -/
theorem dueBy_set_le {chunks : List UnlockChunk} {index : ℕ} {chunk : UnlockChunk}
    (present : chunks[index]? = some chunk) {value : ℕ} (less : value ≤ chunk.value) (era : ℕ) :
    dueBy (chunks.set index ⟨value, chunk.era⟩) era ≤ dueBy chunks era := by
  induction chunks generalizing index with
  | nil => simp at present
  | cons head rest ih =>
    cases index with
    | zero =>
      obtain rfl := Option.some.inj present
      rw [List.set_cons_zero, dueBy_cons, dueBy_cons]
      dsimp only
      split_ifs <;> omega
    | succ index =>
      rw [List.set_cons_succ, dueBy_cons, dueBy_cons]
      exact Nat.add_le_add_left (ih (by simpa using present)) _

/-- Slashing out of chunks makes less due. -/
theorem Cut.dueBy_slashChunks_le (cut : Cut) (indices : List ℕ) (chunks : List UnlockChunk)
    (total remaining era : ℕ) :
    dueBy (cut.slashChunks indices chunks total remaining).1 era ≤ dueBy chunks era := by
  induction indices generalizing chunks total remaining with
  | nil => exact le_rfl
  | cons index rest ih =>
    simp only [slashChunks]
    split
    · exact le_rfl
    · next chunk present =>
      split_ifs
      · exact le_rfl
      · have whole := cut.slashOutOf_sum chunk.value remaining
        exact (ih _ _ _).trans (dueBy_set_le present (by omega) era)

/-- The rebond loop makes less due. -/
theorem dueBy_rebondChunks_le (value unlockingBalance active : ℕ) (chunks : List UnlockChunk)
    (era : ℕ) : dueBy (rebondChunks value unlockingBalance active chunks).2.2 era ≤
      dueBy chunks era := by
  induction chunks generalizing unlockingBalance active with
  | nil => exact le_rfl
  | cons last rest ih =>
    simp only [rebondChunks]
    rw [dueBy_cons]
    split_ifs
    · exact Nat.le_add_left _ _
    · exact Nat.le_add_left _ _
    · exact (ih _ _).trans (Nat.le_add_left _ _)
    · exact (ih _ _).trans (Nat.le_add_left _ _)
    all_goals
      rw [dueBy_cons]
      dsimp only
      split_ifs
      omega

omit [DecidableEq Account] in
/-- A withdrawal takes what is due off the total. -/
theorem consolidateUnlocked_total (ledger : StakingLedger Account) (era : ℕ) :
    (ledger.consolidateUnlocked era).total = ledger.total - dueBy ledger.unlocking era := by
  have folds : ∀ (chunks : List UnlockChunk) (total : ℕ),
      chunks.foldl (fun total chunk => total - chunk.value) total = total - chunkSum chunks := by
    intro chunks
    induction chunks with
    | nil => exact fun total => rfl
    | cons chunk rest ih =>
      intro total
      rw [List.foldl_cons, ih, chunkSum_cons, Nat.sub_sub]
  exact folds _ _

/-- What is due and what is not are all there is. -/
theorem dueBy_add_later (chunks : List UnlockChunk) (era : ℕ) :
    dueBy chunks era + chunkSum (chunks.filter (era < ·.era)) = chunkSum chunks := by
  induction chunks with
  | nil => rfl
  | cons chunk rest ih =>
    rw [dueBy_cons, chunkSum_cons]
    by_cases later : era < chunk.era
    · rw [List.filter_cons_of_pos (by simpa using later), chunkSum_cons, if_neg (not_le.mpr later)]
      omega
    · rw [List.filter_cons_of_neg (by simpa using later), if_pos (not_lt.mp later)]
      omega

/-! ## What a ledger reports -/

namespace StakeReceipt

/-- The stash a receipt is about. -/
def stash : StakeReceipt Account → Account
  | .unbonded stash .. => stash
  | .withdrawn stash .. => stash

/-- What a stash withdrew by an era. -/
def withdrawnBy (who : Account) (limit : ℕ) : StakeReceipt Account → ℕ
  | .unbonded .. => 0
  | .withdrawn stash value era => if stash = who ∧ era ≤ limit then value else 0

/-- What a stash unbonded a whole duration before an era ends. -/
def unlockedBy (duration : ℕ) (who : Account) (limit : ℕ) : StakeReceipt Account → ℕ
  | .unbonded stash value era => if stash = who ∧ era + duration ≤ limit then value else 0
  | .withdrawn .. => 0

end StakeReceipt

/-- What a stash withdrew by an era, over a log. -/
def withdrawnBy (log : List (StakeReceipt Account)) (stash : Account) (era : ℕ) : ℕ :=
  (log.map (·.withdrawnBy stash era)).sum

/-- What a stash unbonded a whole duration before an era ends, over a log. -/
def unlockedBy (duration : ℕ) (log : List (StakeReceipt Account)) (stash : Account) (era : ℕ) : ℕ :=
  (log.map (·.unlockedBy duration stash era)).sum

theorem withdrawnBy_append (first second : List (StakeReceipt Account)) (stash : Account)
    (era : ℕ) : withdrawnBy (first ++ second) stash era =
      withdrawnBy first stash era + withdrawnBy second stash era := by
  simp [withdrawnBy]

theorem unlockedBy_append (duration : ℕ) (first second : List (StakeReceipt Account))
    (stash : Account) (era : ℕ) : unlockedBy duration (first ++ second) stash era =
      unlockedBy duration first stash era + unlockedBy duration second stash era := by
  simp [unlockedBy]

/-- Receipts of one stash withdraw nothing from another. -/
theorem withdrawnBy_apart {log : List (StakeReceipt Account)} {stash other : Account}
    (own : ∀ receipt ∈ log, receipt.stash = stash) (apart : other ≠ stash) (era : ℕ) :
    withdrawnBy log other era = 0 := by
  unfold withdrawnBy
  rw [List.sum_eq_zero_iff]
  intro value member
  obtain ⟨receipt, logged, rfl⟩ := List.mem_map.mp member
  have mine := own receipt logged
  cases receipt with
  | unbonded => rfl
  | withdrawn who value when => exact if_neg fun both => apart (both.1.symm.trans mine)

omit [DecidableEq Account] in
theorem withdrawal_stash (currentEra : Option ℕ) (old : StakingLedger Account) :
    ∀ receipt ∈ withdrawal currentEra old, receipt.stash = old.stash := by
  unfold withdrawal
  dsimp only
  split_ifs
  · intro receipt member
    rw [List.mem_singleton.mp member]
    rfl
  · exact List.forall_mem_nil _

/-- A withdrawal takes what is due. -/
theorem withdrawal_due (currentEra : Option ℕ) (old : StakingLedger Account) (era : ℕ) :
    withdrawnBy (withdrawal currentEra old) old.stash era +
      dueBy (consolidated currentEra old).unlocking era ≤ dueBy old.unlocking era := by
  cases currentEra with
  | none =>
    unfold withdrawal consolidated
    simp [withdrawnBy]
  | some current =>
    have bound := consolidateUnlocked_total old current
    have report : withdrawnBy (withdrawal (some current) old) old.stash era ≤
        if current ≤ era then old.total - (old.consolidateUnlocked current).total else 0 := by
      unfold withdrawal
      change withdrawnBy (if (old.consolidateUnlocked current).total < old.total then
        [.withdrawn old.stash (old.total - (old.consolidateUnlocked current).total) current]
        else []) old.stash era ≤ _
      split_ifs <;> simp_all [withdrawnBy, StakeReceipt.withdrawnBy]
    change _ + dueBy (old.unlocking.filter (current < ·.era)) era ≤ _
    split_ifs at report with passed
    · have left := dueBy_drop old.unlocking passed
      omega
    · have left := dueBy_filter_le old.unlocking (current < ·.era) era
      omega

/-- Where a chunk is pushed on its era, or on the last chunk of that era. -/
theorem pushChunk_cases {chunks after : List UnlockChunk} {value era : ℕ}
    (pushed : pushChunk chunks value era = some after) :
    after = chunks ++ [⟨value, era⟩] ∧ (∀ last ∈ chunks.getLast?, last.era ≠ era) ∨
      ∃ before last, chunks = before ++ [last] ∧ last.era = era ∧
        after = before ++ [⟨last.value + value, era⟩] := by
  unfold pushChunk at pushed
  split at pushed
  · next last found =>
    obtain ⟨before, rfl⟩ := List.getLast?_eq_some_iff.mp found
    split_ifs at pushed with same room
    · obtain rfl := Option.some.inj pushed
      refine .inr ⟨before, last, rfl, same, ?_⟩
      rw [List.dropLast_concat, ← same]
    · obtain rfl := Option.some.inj pushed
      refine .inl ⟨rfl, fun other member => ?_⟩
      rw [found] at member
      obtain rfl := Option.some.inj member
      exact same
  · next absent =>
    obtain rfl := List.getLast?_eq_none_iff.mp absent
    obtain rfl := Option.some.inj pushed
    exact .inl ⟨rfl, fun _ member => nomatch member⟩

/-- A pushed chunk is due at its era. -/
theorem dueBy_pushChunk {chunks after : List UnlockChunk} {value era : ℕ}
    (pushed : pushChunk chunks value era = some after) (limit : ℕ) :
    dueBy after limit = dueBy chunks limit + if era ≤ limit then value else 0 := by
  rcases pushChunk_cases pushed with ⟨rfl, -⟩ | ⟨before, last, rfl, rfl, rfl⟩
  · simp
  · simp only [dueBy_append, dueBy_cons, dueBy_nil]
    split_ifs <;> omega

/-- What a move of amounts reports as withdrawn, and leaves due, is covered by what was due and what
it reports as unbonded. -/
theorem AmountMove.due {currentEra : Option ℕ} {old new : StakingLedger Account}
    {out : List (StakeReceipt Account)} (move : AmountMove call currentEra old new out) :
    new.stash = old.stash ∧ (∀ receipt ∈ out, receipt.stash = old.stash) ∧
      ∀ era, withdrawnBy out old.stash era + dueBy new.unlocking era ≤
        dueBy old.unlocking era + unlockedBy config.bondingDuration out old.stash era := by
  cases move with
  | adds extra => exact ⟨rfl, List.forall_mem_nil _, fun era => by simp [withdrawnBy]⟩
  | unbonds called value unlocking positive within room pushed =>
    refine ⟨rfl, fun receipt member => ?_, fun era => ?_⟩
    · rw [List.mem_singleton.mp member]
      rfl
    · rw [dueBy_pushChunk pushed]
      simp [withdrawnBy, unlockedBy, StakeReceipt.withdrawnBy, StakeReceipt.unlockedBy]
  | rebonds value =>
    refine ⟨rfl, List.forall_mem_nil _, fun era => ?_⟩
    have less := dueBy_rebondChunks_le value 0 old.active old.unlocking.reverse era
    rw [dueBy_reverse] at less
    change 0 + dueBy (rebondChunks value 0 old.active old.unlocking.reverse).2.2.reverse era ≤ _
    rw [dueBy_reverse]
    omega
  | withdraws =>
    have stash : (consolidated currentEra old).stash = old.stash := by
      cases currentEra <;> rfl
    refine ⟨stash, withdrawal_stash currentEra old, fun era => ?_⟩
    exact (withdrawal_due currentEra old era).trans (Nat.le_add_right _ _)
  | @slashes slashEra entry called =>
    by_cases nothing : entry.2 = 0
    · unfold StakingLedger.slash
      rw [if_pos nothing]
      exact ⟨rfl, List.forall_mem_nil _, fun era => by simp [withdrawnBy]⟩
    · rw [StakingLedger.slash_eq nothing]
      refine ⟨rfl, List.forall_mem_nil _, fun era => ?_⟩
      have filtered := dueBy_filter_le
        (old.slashedChunks config.arithmetic entry.2 slashEra).1 (0 < ·.value) era
      have slashed := Cut.dueBy_slashChunks_le (old.cutOf config.arithmetic entry.2 slashEra)
        (chunksPriority old.unlocking (slashEra + 1 + config.arithmetic.bondingDuration))
        old.unlocking (old.total - (old.slashedActive config.arithmetic entry.2 slashEra).2)
        (entry.2 - (old.slashedActive config.arithmetic entry.2 slashEra).2) era
      change 0 + _ ≤ _
      rw [Nat.zero_add]
      exact (filtered.trans slashed).trans (Nat.le_add_right _ _)

/-! ## Sound ledgers in every run -/

/-- Chunks unlock at the latest a bonding duration after an era. -/
def StakingLedger.UnlocksBy (ledger : StakingLedger Account) (era : ℕ) : Prop :=
  ∀ unlockEra ∈ ledger.unlocking.map (·.era), unlockEra ≤ era

omit [DecidableEq Account] in
theorem StakingLedger.UnlocksBy.of_sublist {old new : StakingLedger Account} {era : ℕ}
    (unlocks : old.UnlocksBy era)
    (fewer : (new.unlocking.map (·.era)).Sublist (old.unlocking.map (·.era))) :
    new.UnlocksBy era := fun _ member => unlocks _ (fewer.subset member)

omit [DecidableEq Account] in
theorem slash_eras (ledger : StakingLedger Account) (arithmetic : SlashArithmetic)
    (amount slashEra : ℕ) :
    ((ledger.slash arithmetic amount slashEra).1.unlocking.map (·.era)).Sublist
      (ledger.unlocking.map (·.era)) := by
  by_cases nothing : amount = 0
  · unfold StakingLedger.slash
    rw [if_pos nothing]
  · rw [StakingLedger.slash_eq nothing]
    have frame := (Cut.slashChunks_frame (ledger.cutOf arithmetic amount slashEra)
      (chunksPriority ledger.unlocking (slashEra + 1 + arithmetic.bondingDuration))
      ledger.unlocking (ledger.total - (ledger.slashedActive arithmetic amount slashEra).2)
      (amount - (ledger.slashedActive arithmetic amount slashEra).2)).1
    rw [← frame]
    exact List.filter_sublist.map _

omit [DecidableEq Account] in
theorem rebond_eras {ledger : StakingLedger Account} (sound : ledger.Sound) (value : ℕ) :
    ((ledger.rebond value).1.unlocking.map (·.era)).Sublist (ledger.unlocking.map (·.era)) := by
  have chunks := (rebondChunks_chunks value 0 ledger.active ledger.unlocking.reverse
    fun chunk member => sound.positive chunk (List.mem_reverse.mp member)).1
  change ((rebondChunks value 0 ledger.active ledger.unlocking.reverse).2.2.reverse.map _).Sublist _
  rw [List.map_reverse]
  simpa using chunks.reverse

/-- Pushing a chunk at an era that no chunk is beyond keeps chunks in order. -/
theorem pushChunk_sound {chunks after : List UnlockChunk} {value era : ℕ}
    (pushed : pushChunk chunks value era = some after) (positive : 0 < value)
    (horizon : ∀ unlockEra ∈ chunks.map (·.era), unlockEra ≤ era)
    (ascending : (chunks.map (·.era)).Pairwise (· < ·))
    (nonzero : ∀ chunk ∈ chunks, 0 < chunk.value) :
    chunkSum after = chunkSum chunks + value ∧ (after.map (·.era)).Pairwise (· < ·) ∧
      after.length ≤ chunks.length + 1 ∧ (∀ chunk ∈ after, 0 < chunk.value) ∧
      ∀ unlockEra ∈ after.map (·.era), unlockEra ≤ era := by
  rcases pushChunk_cases pushed with ⟨rfl, fresh⟩ | ⟨before, last, rfl, rfl, rfl⟩
  · have below : ∀ unlockEra ∈ chunks.map (·.era), unlockEra < era := by
      rcases List.eq_nil_or_concat' chunks with rfl | ⟨before, last, rfl⟩
      · simp
      · have here := fresh last (by simp)
        have bound := horizon last.era (by simp)
        rw [List.map_append, List.pairwise_append] at ascending
        intro unlockEra member
        rw [List.map_append, List.mem_append] at member
        rcases member with earlier | mine
        · have less := ascending.2.2 unlockEra earlier last.era (by simp)
          omega
        · obtain rfl : unlockEra = last.era := by simpa using mine
          omega
    refine ⟨by simp, ?_, by simp, ?_, ?_⟩
    · rw [List.map_append, List.pairwise_append]
      refine ⟨ascending, List.pairwise_singleton _ _, ?_⟩
      intro unlockEra member other mine
      obtain rfl : other = era := by simpa using mine
      exact below unlockEra member
    · intro chunk member
      rcases List.mem_append.mp member with earlier | mine
      · exact nonzero chunk earlier
      · rw [List.mem_singleton.mp mine]
        exact positive
    · intro unlockEra member
      rw [List.map_append, List.mem_append] at member
      rcases member with earlier | mine
      · exact (below unlockEra earlier).le
      · obtain rfl : unlockEra = era := by simpa using mine
        exact le_rfl
  · refine ⟨?_, by simpa using ascending, by simp, ?_, by simpa using horizon⟩
    · simp only [chunkSum_append, chunkSum_cons, chunkSum_nil]
      omega
    · intro chunk member
      rcases List.mem_append.mp member with earlier | mine
      · exact nonzero chunk (List.mem_append_left _ earlier)
      · rw [List.mem_singleton.mp mine]
        exact Nat.add_pos_right _ positive

/-- A move of amounts keeps a ledger sound. -/
theorem AmountMove.sound {currentEra : Option ℕ} {old new : StakingLedger Account}
    {out : List (StakeReceipt Account)} (move : AmountMove call currentEra old new out)
    (sound : old.Sound) (horizon : old.UnlocksBy (currentEra.getD 0 + config.bondingDuration)) :
    new.Sound ∧ new.UnlocksBy (currentEra.getD 0 + config.bondingDuration) := by
  have total := sound.total_eq
  cases move with
  | adds extra =>
    refine ⟨⟨?_, sound.ascending, sound.few, sound.positive⟩, horizon⟩
    dsimp only
    omega
  | unbonds called value unlocking positive within room pushed =>
    obtain ⟨sum, ascending, length, nonzero, latest⟩ :=
      pushChunk_sound pushed positive horizon sound.ascending sound.positive
    refine ⟨⟨?_, ascending, length.trans room, nonzero⟩, latest⟩
    dsimp only
    omega
  | rebonds value => exact ⟨(sound.rebond value).1, horizon.of_sublist (rebond_eras sound value)⟩
  | withdraws =>
    cases currentEra with
    | none => exact ⟨sound, horizon⟩
    | some current =>
      have due := dueBy_add_later old.unlocking current
      have fewer : ((old.unlocking.filter (current < ·.era)).map (·.era)).Sublist
          (old.unlocking.map (·.era)) := List.filter_sublist.map _
      refine ⟨⟨?_, sound.ascending.sublist fewer, ?_, ?_⟩, horizon.of_sublist fewer⟩
      · have taken := consolidateUnlocked_total old current
        change (old.consolidateUnlocked current).total = old.active + chunkSum _
        rw [taken]
        change _ = old.active + chunkSum (old.unlocking.filter (current < ·.era))
        omega
      · exact List.filter_sublist.length_le.trans sound.few
      · intro chunk member
        exact sound.positive chunk (List.mem_of_mem_filter member)
  | @slashes slashEra entry called =>
    exact ⟨(sound.slash entry.2 slashEra).1,
      horizon.of_sublist (slash_eras old config.arithmetic entry.2 slashEra)⟩

/-- The stash whose ledger a controller holds. -/
def StakerStorage.owner (stakers : StakerStorage Account) (controller : Account) :
    Option Account :=
  (stakers.ledger controller).map (·.stash)

/-- Stashes and ledgers point at each other, and every ledger is sound and unlocks in time. -/
structure LedgersSound (state : RoleState config.toConfig) : Prop where
  paired : ∀ stash controller, state.bonded stash = some controller ↔
    state.owner controller = some stash
  sound : ∀ controller ledger, state.ledger controller = some ledger →
    ledger.Sound ∧ ledger.UnlocksBy (state.era + config.bondingDuration)

omit [DecidableEq Account] in
theorem owner_of_ledger {stakers : StakerStorage Account} {controller : Account}
    {ledger : StakingLedger Account} (present : stakers.ledger controller = some ledger) :
    stakers.owner controller = some ledger.stash := by
  rw [StakerStorage.owner, present, Option.map_some]

omit [DecidableEq Account] in
theorem owner_grows {before after : StakerStorage Account}
    (grown : ∀ controller, Option.Rel Grown (before.ledger controller) (after.ledger controller))
    (controller : Account) : after.owner controller = before.owner controller := by
  have related := grown controller
  unfold StakerStorage.owner
  generalize before.ledger controller = early at related ⊢
  generalize after.ledger controller = late at related ⊢
  cases related with
  | none => rfl
  | some grown =>
    obtain ⟨extra, claimed, rfl⟩ := grown
    rfl

theorem owner_update {before after : StakerStorage Account} {controller : Account}
    {ledger : Option (StakingLedger Account)}
    (written : after.ledger = Function.update before.ledger controller ledger) (other : Account) :
    after.owner other =
      if other = controller then ledger.map (·.stash) else before.owner other := by
  unfold StakerStorage.owner
  rw [written, Function.update_apply]
  split_ifs <;> rfl

namespace LedgersSound

variable {before after : RoleState config.toConfig}

theorem initial {state : RoleState config.toConfig} (initial : RoleState.Initial state) :
    LedgersSound state where
  paired stash controller := by
    simp [initial.chain.bonded, StakerStorage.owner, initial.chain.ledger]
  sound controller ledger present := by
    rw [initial.chain.ledger] at present
    contradiction

/-- A stash has one ledger. -/
theorem unique (holds : LedgersSound before) {first second : Account}
    {one other : StakingLedger Account} (here : before.ledger first = some one)
    (there : before.ledger second = some other) (same : one.stash = other.stash) :
    first = second := by
  have left := (holds.paired one.stash first).mpr (owner_of_ledger here)
  have right := (holds.paired one.stash second).mpr (same ▸ owner_of_ledger there)
  exact Option.some.inj (left.symm.trans right)

theorem step_paired (holds : LedgersSound before) {out : List (StakeReceipt Account)}
    (move : StakerMove call before after out) (stash controller : Account) :
    after.bonded stash = some controller ↔ after.owner controller = some stash := by
  have here := holds.paired stash controller
  cases move with
  | grows bonded ledger =>
    rw [bonded, owner_grows ledger]
    exact here
  | @amounts place old new out present bonded ledger move =>
    have same : new.stash = old.stash := move.due.1
    have owned := owner_of_ledger present
    rw [bonded, owner_update ledger, here, Option.map_some, same]
    split_ifs with changed
    · rw [changed, owned]
    · rfl
  | @bonds place new unbonded fresh bonded ledger active unlocking =>
    have none : before.owner place = none := by rw [StakerStorage.owner, fresh, Option.map_none]
    have there := holds.paired stash place
    have own := holds.paired new.stash controller
    rw [bonded, owner_update ledger, Function.update_apply, Option.map_some]
    grind
  | @moves owner old new paired fresh bonded ledger =>
    have owners : ∀ other, after.owner other = if other = new then before.owner old
        else if other = old then none else before.owner other := by
      intro other
      rw [StakerStorage.owner, ledger]
      split_ifs <;> rfl
    have none : before.owner new = none := by rw [StakerStorage.owner, fresh, Option.map_none]
    have there := holds.paired stash new
    have from_old := holds.paired stash old
    have own := holds.paired owner old
    have gone := holds.paired owner controller
    rw [bonded, owners, Function.update_apply]
    grind
  | @kills gone place out paired bonded ledger report =>
    have own := holds.paired gone place
    have there := holds.paired stash place
    have other := holds.paired gone controller
    rw [bonded, owner_update ledger, Function.update_apply, Option.map_none]
    grind

/-- Every step keeps ledgers sound and unlocking in time. -/
theorem step_sound (holds : LedgersSound before) {out : List (StakeReceipt Account)}
    (advance : before.era ≤ after.era) (move : StakerMove call before after out)
    {controller : Account} {ledger : StakingLedger Account} (present : after.ledger controller = some ledger) :
    ledger.Sound ∧ ledger.UnlocksBy (after.era + config.bondingDuration) := by
  have later : ∀ {ledger : StakingLedger Account},
      ledger.Sound ∧ ledger.UnlocksBy (before.era + config.bondingDuration) →
        ledger.Sound ∧ ledger.UnlocksBy (after.era + config.bondingDuration) :=
    fun old => ⟨old.1, fun unlockEra member => (old.2 unlockEra member).trans
      (Nat.add_le_add_right advance _)⟩
  cases move with
  | grows bonded grown =>
    have related := grown controller
    rw [present] at related
    generalize found : before.ledger controller = early at related
    cases related with
    | some more =>
      obtain ⟨sound, unlocks⟩ := holds.sound controller _ found
      obtain ⟨extra, claimed, rfl⟩ := more
      refine later ⟨⟨?_, sound.ascending, sound.few, sound.positive⟩, unlocks⟩
      have total := sound.total_eq
      dsimp only
      omega
  | @amounts place old new out found bonded written move =>
    rw [written, Function.update_apply] at present
    split_ifs at present
    · obtain rfl := Option.some.inj present
      obtain ⟨sound, unlocks⟩ := holds.sound place old found
      exact later (move.sound sound unlocks)
    · exact later (holds.sound controller ledger present)
  | @bonds place new unbonded fresh bonded written active unlocking =>
    rw [written, Function.update_apply] at present
    split_ifs at present
    · obtain rfl := Option.some.inj present
      refine ⟨⟨?_, ?_, ?_, ?_⟩, ?_⟩
      · rw [unlocking, active]
        rfl
      · rw [unlocking]
        exact List.Pairwise.nil
      · rw [unlocking]
        exact Nat.zero_le _
      · rw [unlocking]
        exact List.forall_mem_nil _
      · unfold StakingLedger.UnlocksBy
        rw [unlocking]
        exact List.forall_mem_nil _
    · exact later (holds.sound controller ledger present)
  | moves paired fresh bonded written =>
    rw [written] at present
    split_ifs at present
    · exact later (holds.sound _ ledger present)
    · exact later (holds.sound controller ledger present)
  | kills paired bonded written report =>
    rw [written, Function.update_apply] at present
    split_ifs at present
    exact later (holds.sound controller ledger present)

theorem step (holds : LedgersSound before) {out : List (StakeReceipt Account)}
    (advance : before.era ≤ after.era) (move : StakerMove call before after out) :
    LedgersSound after :=
  ⟨holds.step_paired move, fun _ _ => holds.step_sound advance move⟩

end LedgersSound

theorem StakersReachable.ledgersSound {state : RoleState config.toConfig}
    {log : List (StakeReceipt Account)} (reachable : StakersReachable state log) :
    LedgersSound state := by
  refine Machine.Reachable.invariant (fun state _ => LedgersSound state) reachable
    (fun _ initial => .initial initial) ?_
  intro current next log out call holds _ taken
  obtain ⟨advance, move⟩ := stakerStep_moved taken
  exact holds.step advance move

/-- In every run, a stash is bonded to exactly the controller that holds its ledger, and a ledger
adds up: its total is the active amount and at most 32 nonzero chunks in the order of their eras,
the last of which unlocks within the bonding duration. -/
theorem stakers_ledgers {state : RoleState config.toConfig} {log : List (StakeReceipt Account)}
    (reachable : StakersReachable state log) :
    (∀ stash controller, state.bonded stash = some controller ↔
      state.owner controller = some stash) ∧
    ∀ controller ledger, state.ledger controller = some ledger →
      ledger.Sound ∧ ledger.UnlocksBy (state.currentEra.getD 0 + config.bondingDuration) :=
  ⟨reachable.ledgersSound.paired, reachable.ledgersSound.sound⟩

/-- A stash bonds, validates, chills, unbonds, is slashed, and withdraws when it may. -/
def leaveSlashed : List (StakerCall smallSlashConfig) :=
  [.chain (.genesisSession (some quartet) (some quartet)), .bond 10 20 30 .stash,
    .bondExtra 10 5, .validate 20 ⟨0, false⟩, .chill 20, .unbond 20 12, .slash 0 (10, 4)] ++
  List.replicate 3 (.chain (.rotateSession (some quartet))) ++ [.withdrawUnbonded 20 0]

theorem leaveSlashed_happens :
    ((stakerSystem smallSlashConfig).replay (genesisRoles smallGenesis) leaveSlashed).isOk =
      true := by
  decide +kernel

/-- The stash is still bonded to its controller, whose ledger has nothing left to unlock. -/
theorem leaveSlashed_ledgers :
    (stakerOutcome leaveSlashed).1.owner 20 = some 10 ∧
      ∃ ledger, (stakerOutcome leaveSlashed).1.ledger 20 = some ledger ∧ ledger.Sound ∧
        ledger.total = ledger.active := by
  have reachable := stakerOutcome_reachable leaveSlashed leaveSlashed_happens
  obtain ⟨paired, sound⟩ := stakers_ledgers reachable
  have bonded : (stakerOutcome leaveSlashed).1.bonded 10 = some 20 := by decide +kernel
  have figures : ∃ ledger ∈ (stakerOutcome leaveSlashed).1.ledger 20,
      ledger.total = ledger.active := by
    decide +kernel
  obtain ⟨ledger, present, same⟩ := figures
  exact ⟨(paired 10 20).mp bonded, ledger, present, (sound 20 ledger present).1, same⟩

/-! ## Nothing leaves early -/

/-- What a stash withdrew, and what is due on its ledger, is covered by what it unbonded in time. -/
structure Covered (state : RoleState config.toConfig) (log : List (StakeReceipt Account)) :
    Prop where
  settled : ∀ stash era,
    withdrawnBy log stash era ≤ unlockedBy config.bondingDuration log stash era
  pending : ∀ controller ledger, state.ledger controller = some ledger → ∀ era,
    withdrawnBy log ledger.stash era + dueBy ledger.unlocking era ≤
      unlockedBy config.bondingDuration log ledger.stash era

namespace Covered

variable {before after : RoleState config.toConfig} {log out : List (StakeReceipt Account)}

/-- Receipts about one stash leave the others covered. -/
theorem settled_apart (covered : Covered before log) {stash other : Account}
    (own : ∀ receipt ∈ out, receipt.stash = stash) (apart : other ≠ stash) (era : ℕ) :
    withdrawnBy (log ++ out) other era ≤
      unlockedBy config.bondingDuration (log ++ out) other era := by
  rw [withdrawnBy_append, unlockedBy_append, withdrawnBy_apart own apart]
  exact (covered.settled other era).trans (Nat.le_add_right _ _)

theorem pending_apart (covered : Covered before log) {stash controller : Account}
    {ledger : StakingLedger Account} (own : ∀ receipt ∈ out, receipt.stash = stash)
    (present : before.ledger controller = some ledger) (apart : ledger.stash ≠ stash) (era : ℕ) :
    withdrawnBy (log ++ out) ledger.stash era + dueBy ledger.unlocking era ≤
      unlockedBy config.bondingDuration (log ++ out) ledger.stash era := by
  rw [withdrawnBy_append, unlockedBy_append, withdrawnBy_apart own apart]
  exact (covered.pending controller ledger present era).trans (Nat.le_add_right _ _)

/-- What one ledger reports is covered by what was due on it. -/
theorem pending_move (covered : Covered before log) {controller : Account}
    {old new : StakingLedger Account} (present : before.ledger controller = some old)
    (move : AmountMove call before.currentEra old new out) (era : ℕ) :
    withdrawnBy (log ++ out) old.stash era + dueBy new.unlocking era ≤
      unlockedBy config.bondingDuration (log ++ out) old.stash era := by
  rw [withdrawnBy_append, unlockedBy_append]
  have due := move.due.2.2 era
  have bound := covered.pending controller old present era
  omega

theorem step (covered : Covered before log) (holds : LedgersSound before)
    (move : StakerMove call before after out) : Covered after (log ++ out) := by
  cases move with
  | grows bonded grown =>
    rw [List.append_nil]
    refine ⟨covered.settled, fun controller ledger present era => ?_⟩
    have related := grown controller
    rw [present] at related
    generalize found : before.ledger controller = early at related
    cases related with
    | some more =>
      obtain ⟨extra, claimed, rfl⟩ := more
      exact covered.pending controller _ found era
  | @amounts place old new out found bonded written move =>
    obtain ⟨same, own, -⟩ := move.due
    constructor
    · intro stash era
      by_cases mine : stash = old.stash
      · rw [mine]
        exact (Nat.le_add_right _ _).trans (covered.pending_move found move era)
      · exact covered.settled_apart own mine era
    · intro controller ledger present era
      rw [written, Function.update_apply] at present
      split_ifs at present with here
      · obtain rfl := Option.some.inj present
        rw [same]
        exact covered.pending_move found move era
      · exact covered.pending_apart own present
          (fun clash => here (holds.unique present found clash)) era
  | @bonds place new unbonded fresh bonded written active unlocking =>
    rw [List.append_nil]
    refine ⟨covered.settled, fun controller ledger present era => ?_⟩
    rw [written, Function.update_apply] at present
    split_ifs at present
    · obtain rfl := Option.some.inj present
      rw [unlocking]
      exact covered.settled _ era
    · exact covered.pending controller ledger present era
  | moves paired fresh bonded written =>
    rw [List.append_nil]
    refine ⟨covered.settled, fun controller ledger present era => ?_⟩
    rw [written] at present
    split_ifs at present
    · exact covered.pending _ ledger present era
    · exact covered.pending controller ledger present era
  | @kills stash place out paired bonded written report =>
    rcases report with rfl | ⟨caller, old, found, rfl, rfl⟩
    · rw [List.append_nil]
      refine ⟨covered.settled, fun controller ledger present era => ?_⟩
      rw [written, Function.update_apply] at present
      split_ifs at present
      exact covered.pending controller ledger present era
    · have own := withdrawal_stash before.currentEra old
      have move : AmountMove call before.currentEra old (consolidated before.currentEra old)
        (withdrawal before.currentEra old) := .withdraws
      have withdraws := covered.pending_move found move
      constructor
      · intro stash era
        by_cases mine : stash = old.stash
        · rw [mine]
          exact (Nat.le_add_right _ _).trans (withdraws era)
        · exact covered.settled_apart own mine era
      · intro controller ledger present era
        rw [written, Function.update_apply] at present
        split_ifs at present with here
        refine covered.pending_apart own present (fun clash => here ?_) era
        have owned := owner_of_ledger present
        rw [clash] at owned
        exact Option.some.inj (((holds.paired old.stash controller).mpr owned).symm.trans paired)

end Covered

/-- In every run, what a stash has withdrawn by an era is at most what it had unbonded a whole
bonding duration before that era. -/
theorem withdrawn_le_unlocked {state : RoleState config.toConfig}
    {log : List (StakeReceipt Account)} (reachable : StakersReachable state log) (stash : Account)
    (era : ℕ) :
    withdrawnBy log stash era ≤ unlockedBy config.bondingDuration log stash era := by
  have both : LedgersSound state ∧ Covered state log := by
    refine Machine.Reachable.invariant (fun state log => LedgersSound state ∧ Covered state log)
      reachable ?_ ?_
    · intro source initial
      refine ⟨.initial initial, fun _ _ => Nat.zero_le _, fun controller ledger present => ?_⟩
      rw [initial.chain.ledger] at present
      contradiction
    · rintro current next log out call ⟨holds, covered⟩ _ taken
      obtain ⟨advance, move⟩ := stakerStep_moved taken
      exact ⟨holds.step advance move, covered.step holds move⟩
  exact both.2.settled stash era

theorem leaveSlashed_withdrawn :
    0 < withdrawnBy (stakerOutcome leaveSlashed).2 10 4 ∧
      withdrawnBy (stakerOutcome leaveSlashed).2 10 4 ≤
        unlockedBy 3 (stakerOutcome leaveSlashed).2 10 4 :=
  ⟨by decide +kernel,
    withdrawn_le_unlocked (stakerOutcome_reachable leaveSlashed leaveSlashed_happens) 10 4⟩

end GlitchRuntime.Staking
