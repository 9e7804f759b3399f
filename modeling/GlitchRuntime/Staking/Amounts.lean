import GlitchRuntime.Staking.Roles

/-! # The amounts of a ledger

What is bonded more, bonded again, or slashed. A ledger is worth its active amount and the chunks
that unlock; a slash takes from the active amount first and then goes through the chunks in an
order that depends on the era of the offence, and wipes out what it leaves as dust.
-/

namespace GlitchRuntime.Staking

open Lib

variable {Account : Type} [DecidableEq Account] {config : Config Account}

/-- Take extra balance of the stash into its active amount. -/
def bondExtra (state : State config) (stash : Account) (maxAdditional : ℕ) :
    Except Error (State config) := do
  let controller ← okOr (state.bonded stash) .notStash
  let ledger ← okOr (state.ledger controller) .notController
  let stashBalance := config.currency.freeBalance state.store stash
  if ledger.total ≤ stashBalance then
    let extra := min (stashBalance - ledger.total) maxAdditional
    let ledger := { ledger with total := ledger.total + extra, active := ledger.active + extra }
    ensure (config.currency.minimumBalance ≤ ledger.active) .insufficientBond
    return updateLedger state controller ledger
  else
    return state

/-- What the chunks of a list are worth. -/
def chunkSum (chunks : List UnlockChunk) : ℕ := (chunks.map UnlockChunk.value).sum

@[simp] theorem chunkSum_nil : chunkSum [] = 0 := rfl

@[simp] theorem chunkSum_cons (chunk : UnlockChunk) (chunks : List UnlockChunk) :
    chunkSum (chunk :: chunks) = chunk.value + chunkSum chunks := List.sum_cons

@[simp] theorem chunkSum_append (first second : List UnlockChunk) :
    chunkSum (first ++ second) = chunkSum first + chunkSum second := by
  simp [chunkSum]

@[simp] theorem chunkSum_reverse (chunks : List UnlockChunk) :
    chunkSum chunks.reverse = chunkSum chunks := by
  simp [chunkSum]

/-- The `while let` loop of `rebond`, over the chunks from the last one back: what it took so far
and the active amount, with the chunks that are left. -/
def rebondChunks (value : ℕ) : ℕ → ℕ → List UnlockChunk → ℕ × ℕ × List UnlockChunk
  | unlockingBalance, active, [] => (unlockingBalance, active, [])
  | unlockingBalance, active, last :: rest =>
    if unlockingBalance + last.value ≤ value then
      let unlockingBalance := unlockingBalance + last.value
      let active := active + last.value
      if value ≤ unlockingBalance then (unlockingBalance, active, rest)
      else rebondChunks value unlockingBalance active rest
    else
      let diff := value - unlockingBalance
      (unlockingBalance + diff, active + diff, { last with value := last.value - diff } :: rest)

namespace StakingLedger

/-- Re-bond funds that were scheduled for unlocking, with the amount actually rebonded. -/
def rebond (ledger : StakingLedger Account) (value : ℕ) : StakingLedger Account × ℕ :=
  let (unlockingBalance, active, chunks) := rebondChunks value 0 ledger.active
    ledger.unlocking.reverse
  ({ ledger with active, unlocking := chunks.reverse }, unlockingBalance)

end StakingLedger

/-- Rebond a portion of the stash scheduled to be unlocked. -/
def rebond (state : State config) (controller : Account) (value : ℕ) :
    Except CallError (State config) := do
  let ledger ← okOr (state.ledger controller) (.staking .notController)
  ensure (ledger.unlocking ≠ []) .noUnlockChunk
  let (ledger, _) := ledger.rebond value
  ensure (config.currency.minimumBalance ≤ ledger.active) (.staking .insufficientBond)
  return updateLedger state controller ledger

/-! ## Slashing a ledger -/

/-- How much of a target goes: a part of it where the slash is proportional, and otherwise as much
as remains to be slashed. -/
structure Cut where
  /-- `Perquintill::from_rational(slash_amount, affected_balance)` times a target, if the slash is
  below what it affects. -/
  proportion : Option (ℕ → ℕ)
  minimumBalance : ℕ

namespace Cut

/-- `slash_from_target`: at most the whole of the target. -/
def slashFromTarget (cut : Cut) (target slashRemaining : ℕ) : ℕ :=
  match cut.proportion with
  | some part => min (part target) target
  | none => min slashRemaining target

/-- Slash out of one target: what is left of it and the amount that it lost, dust included. -/
def slashOutOf (cut : Cut) (target slashRemaining : ℕ) : ℕ × ℕ :=
  let slashed := cut.slashFromTarget target slashRemaining
  let left := target - slashed
  if left < cut.minimumBalance then (0, left + slashed) else (left, slashed)

/-- Slash out of the chunks at the given indices, in order, while something remains. The result
has the chunks, the total and what remains. -/
def slashChunks (cut : Cut) : List ℕ → List UnlockChunk → ℕ → ℕ → List UnlockChunk × ℕ × ℕ
  | [], chunks, total, remaining => (chunks, total, remaining)
  | index :: rest, chunks, total, remaining =>
    match chunks[index]? with
    | none => (chunks, total, remaining)
    | some chunk =>
      if remaining = 0 then (chunks, total, remaining)
      else
        let (value, slashed) := cut.slashOutOf chunk.value remaining
        slashChunks cut rest (chunks.set index ⟨value, chunk.era⟩) (total - slashed)
          (remaining - slashed)

end Cut

/-- The first chunk that was unbonded after the era of the offence, if there is one. -/
def startIndex (chunks : List UnlockChunk) (unlockEra : ℕ) : Option ℕ :=
  chunks.findIdx? (unlockEra ≤ ·.era)

/-- The order in which a slash goes through the chunks: those unbonded after the offence first,
then the older ones from the most recent back. -/
def chunksPriority (chunks : List UnlockChunk) (unlockEra : ℕ) : List ℕ :=
  match startIndex chunks unlockEra with
  | some start => List.range' start (chunks.length - start) ++ (List.range start).reverse
  | none => (List.range chunks.length).reverse

/-- The active amount and the chunks that were still bonded at the offence. -/
def affectedBalance (active : ℕ) (chunks : List UnlockChunk) (unlockEra : ℕ) : ℕ :=
  match startIndex chunks unlockEra with
  | some start => active + chunkSum (chunks.drop start)
  | none => active

/-- The arithmetic and the constants that a slash uses. -/
structure SlashArithmetic where
  /-- `Perquintill::from_rational(slash, affected) * target`. -/
  perquintill : ℕ → ℕ → ℕ → ℕ
  perquintill_le : ∀ slash affected target, perquintill slash affected target ≤ target
  minimumBalance : ℕ
  bondingDuration : ℕ

namespace StakingLedger

/-- Slash a ledger for an offence in an era, with what it actually lost. -/
def slash (ledger : StakingLedger Account) (arithmetic : SlashArithmetic) (slashAmount slashEra : ℕ) :
    StakingLedger Account × ℕ :=
  if slashAmount = 0 then (ledger, 0)
  else
    let unlockEra := slashEra + 1 + arithmetic.bondingDuration
    let affected := affectedBalance ledger.active ledger.unlocking unlockEra
    let cut : Cut :=
      { proportion :=
          if slashAmount < affected then some (arithmetic.perquintill slashAmount affected) else none
        minimumBalance := arithmetic.minimumBalance }
    let (active, slashed) := cut.slashOutOf ledger.active slashAmount
    let (chunks, total, _) := cut.slashChunks (chunksPriority ledger.unlocking unlockEra)
      ledger.unlocking (ledger.total - slashed) (slashAmount - slashed)
    ({ ledger with total, active, unlocking := chunks.filter (0 < ·.value) }, ledger.total - total)

end StakingLedger

/-! ## What a slash takes -/

namespace Cut

variable {cut : Cut}

theorem slashFromTarget_le (target remaining : ℕ) :
    cut.slashFromTarget target remaining ≤ target := by
  unfold slashFromTarget
  split <;> exact min_le_right _ _

/-- What is left of a target and what it lost are the target. -/
theorem slashOutOf_sum (target remaining : ℕ) :
    (cut.slashOutOf target remaining).1 + (cut.slashOutOf target remaining).2 = target := by
  have bound := cut.slashFromTarget_le target remaining
  unfold slashOutOf
  dsimp only
  split_ifs <;> dsimp only <;> omega

/-- Nothing is left of a target, or at least the minimum balance. -/
theorem slashOutOf_dust (target remaining : ℕ) :
    (cut.slashOutOf target remaining).1 = 0 ∨
      cut.minimumBalance ≤ (cut.slashOutOf target remaining).1 := by
  unfold slashOutOf
  dsimp only
  split_ifs with dust
  · exact .inl rfl
  · exact .inr (not_lt.mp dust)

/-- A slash that is not proportional takes what remains, or all there is, and then the dust. -/
theorem slashOutOf_full (full : cut.proportion = none) (target remaining : ℕ) :
    (remaining ≤ (cut.slashOutOf target remaining).2 ∨ (cut.slashOutOf target remaining).1 = 0) ∧
      (cut.slashOutOf target remaining).2 ≤ remaining + (cut.minimumBalance - 1) := by
  unfold slashOutOf slashFromTarget
  rw [full]
  dsimp only
  split_ifs <;> dsimp only <;> omega

theorem slashChunks_append (first second : List ℕ) (chunks : List UnlockChunk)
    (total remaining : ℕ) (present : ∀ index ∈ first, index < chunks.length) :
    cut.slashChunks (first ++ second) chunks total remaining =
      cut.slashChunks second (cut.slashChunks first chunks total remaining).1
        (cut.slashChunks first chunks total remaining).2.1
        (cut.slashChunks first chunks total remaining).2.2 := by
  induction first generalizing chunks total remaining with
  | nil => rfl
  | cons index rest ih =>
    have here := present index (List.mem_cons_self ..)
    simp only [List.cons_append, slashChunks, List.getElem?_eq_getElem here]
    split_ifs with done
    · rw [done]
      cases second with
      | nil => rfl
      | cons index rest =>
        simp only [slashChunks]
        split <;> simp
    · apply ih
      intro other member
      rw [List.length_set]
      exact present other (List.mem_cons_of_mem _ member)

/-- Once nothing remains, no chunk is touched. -/
theorem slashChunks_zero (indices : List ℕ) (chunks : List UnlockChunk) (total : ℕ) :
    cut.slashChunks indices chunks total 0 = (chunks, total, 0) := by
  cases indices with
  | nil => rfl
  | cons index rest =>
    simp only [slashChunks]
    split <;> simp

variable (cut) in
/-- What slashing out of chunks keeps: their eras, and what no index names. -/
theorem slashChunks_frame (indices : List ℕ) (chunks : List UnlockChunk) (total remaining : ℕ) :
    (cut.slashChunks indices chunks total remaining).1.map (·.era) = chunks.map (·.era) ∧
      ∀ index, index ∉ indices →
        (cut.slashChunks indices chunks total remaining).1[index]? = chunks[index]? := by
  induction indices generalizing chunks total remaining with
  | nil => exact ⟨rfl, fun _ _ => rfl⟩
  | cons head rest ih =>
    simp only [slashChunks]
    split
    · exact ⟨rfl, fun _ _ => rfl⟩
    · next chunk present =>
      split_ifs with done
      · exact ⟨rfl, fun _ _ => rfl⟩
      · have later := ih (chunks.set head ⟨(cut.slashOutOf chunk.value remaining).1, chunk.era⟩)
          (total - (cut.slashOutOf chunk.value remaining).2)
          (remaining - (cut.slashOutOf chunk.value remaining).2)
        constructor
        · rw [later.1, List.map_set]
          obtain ⟨inside, rfl⟩ := List.getElem?_eq_some_iff.mp present
          apply List.ext_getElem?
          intro index
          rw [List.getElem?_set]
          split_ifs with same
          · subst same
            simp [inside]
          · simp_all
          · rfl
        · intro index outside
          rw [List.mem_cons, not_or] at outside
          rw [later.2 index outside.2, List.getElem?_set_ne (Ne.symm outside.1)]

variable (cut) in
theorem length_slashChunks (indices : List ℕ) (chunks : List UnlockChunk) (total remaining : ℕ) :
    (cut.slashChunks indices chunks total remaining).1.length = chunks.length := by
  have eras := (slashChunks_frame cut indices chunks total remaining).1
  simpa using congrArg List.length eras

/-- Replacing a chunk changes the sum by the difference. -/
theorem chunkSum_set {chunks : List UnlockChunk} {index : ℕ} {chunk : UnlockChunk}
    (present : chunks[index]? = some chunk) (value era : ℕ) :
    chunkSum (chunks.set index ⟨value, era⟩) + chunk.value = chunkSum chunks + value := by
  induction chunks generalizing index with
  | nil => simp at present
  | cons head rest ih =>
    cases index with
    | zero =>
      obtain rfl := Option.some.inj present
      rw [List.set_cons_zero, chunkSum_cons, chunkSum_cons]
      dsimp only
      omega
    | succ index =>
      have later := ih (show rest[index]? = some chunk by simpa using present)
      rw [List.set_cons_succ, chunkSum_cons, chunkSum_cons]
      omega

variable (cut) in
/-- The total follows the chunks, and what remains goes down by as much as they lost. -/
theorem slashChunks_sum (indices : List ℕ) (chunks : List UnlockChunk) (rest remaining : ℕ) :
    chunkSum (cut.slashChunks indices chunks (rest + chunkSum chunks) remaining).1 ≤
        chunkSum chunks ∧
      (cut.slashChunks indices chunks (rest + chunkSum chunks) remaining).2.1 =
        rest + chunkSum (cut.slashChunks indices chunks (rest + chunkSum chunks) remaining).1 ∧
      (cut.slashChunks indices chunks (rest + chunkSum chunks) remaining).2.2 = remaining -
        (chunkSum chunks -
          chunkSum (cut.slashChunks indices chunks (rest + chunkSum chunks) remaining).1) := by
  induction indices generalizing chunks remaining with
  | nil => exact ⟨le_rfl, rfl, by simp [slashChunks]⟩
  | cons index indices ih =>
    simp only [slashChunks]
    split
    · exact ⟨le_rfl, rfl, by simp⟩
    · next chunk present =>
      split_ifs with done
      · exact ⟨le_rfl, rfl, by simp⟩
      · have split := cut.slashOutOf_sum chunk.value remaining
        generalize cut.slashOutOf chunk.value remaining = taken at split ⊢
        have replaced := chunkSum_set present taken.1 chunk.era
        have total : rest + chunkSum chunks - taken.2 =
            rest + chunkSum (chunks.set index ⟨taken.1, chunk.era⟩) := by omega
        rw [total]
        have later := ih (chunks.set index ⟨taken.1, chunk.era⟩) (remaining - taken.2)
        refine ⟨by omega, later.2.1, ?_⟩
        rw [later.2.2]
        omega

/-- A slash that is not proportional takes at least what remains, or wipes out every chunk it goes
through; what it takes beyond is less than one minimum balance. -/
theorem slashChunks_full (full : cut.proportion = none) {indices : List ℕ}
    {chunks : List UnlockChunk} (rest remaining : ℕ)
    (present : ∀ index ∈ indices, index < chunks.length) (distinct : indices.Nodup)
    {after : List UnlockChunk}
    (slashed : after = (cut.slashChunks indices chunks (rest + chunkSum chunks) remaining).1) :
    (remaining ≤ chunkSum chunks - chunkSum after ∨
        ∀ index ∈ indices, ∀ chunk ∈ after[index]?, chunk.value = 0) ∧
      chunkSum chunks ≤
        chunkSum after + if remaining = 0 then 0 else remaining + (cut.minimumBalance - 1) := by
  induction indices generalizing chunks remaining with
  | nil => exact ⟨.inr (by simp), by rw [slashed]; exact Nat.le_add_right _ _⟩
  | cons index indices ih =>
    have here := present index (List.mem_cons_self ..)
    rw [List.nodup_cons] at distinct
    simp only [slashChunks, List.getElem?_eq_getElem here] at slashed
    split_ifs at slashed with done
    · subst slashed
      exact ⟨.inl (by omega), Nat.le_add_right _ _⟩
    · obtain ⟨takes, overshoot⟩ := cut.slashOutOf_full full chunks[index].value remaining
      have split := cut.slashOutOf_sum chunks[index].value remaining
      generalize cut.slashOutOf chunks[index].value remaining = taken at *
      have replaced := chunkSum_set (List.getElem?_eq_getElem here) taken.1 chunks[index].era
      have total : rest + chunkSum chunks - taken.2 =
          rest + chunkSum (chunks.set index ⟨taken.1, chunks[index].era⟩) := by omega
      rw [total] at slashed
      have shrinks := slashChunks_sum cut indices
        (chunks.set index ⟨taken.1, chunks[index].era⟩) rest (remaining - taken.2)
      have inside : ∀ other ∈ indices,
          other < (chunks.set index ⟨taken.1, chunks[index].era⟩).length := by
        intro other member
        rw [List.length_set]
        exact present other (List.mem_cons_of_mem _ member)
      have later := ih (remaining - taken.2) inside distinct.2 slashed
      rw [← slashed] at shrinks
      constructor
      · rcases takes with enough | wiped
        · exact .inl (by omega)
        rcases later.1 with enough | gone
        · exact .inl (by omega)
        right
        intro other member chunk found
        rcases List.mem_cons.mp member with rfl | behind
        · rw [slashed, (slashChunks_frame cut indices _ _ _).2 _ distinct.1,
            List.getElem?_set_self here] at found
          obtain rfl := Option.some.inj found
          exact wiped
        · exact gone other behind chunk found
      · rw [if_neg done]
        have bound := later.2
        split_ifs at bound <;> omega

end Cut

/-! ## Sound ledgers -/

/-- A ledger adds up: its total is the active amount and the chunks, which are nonzero, few, and
unlock one after the other. -/
structure StakingLedger.Sound (ledger : StakingLedger Account) : Prop where
  total_eq : ledger.total = ledger.active + chunkSum ledger.unlocking
  ascending : (ledger.unlocking.map (·.era)).Pairwise (· < ·)
  few : ledger.unlocking.length ≤ maxUnlockingChunks
  positive : ∀ chunk ∈ ledger.unlocking, 0 < chunk.value

/-- Chunks that are all empty are worth nothing. -/
theorem chunkSum_eq_zero {chunks : List UnlockChunk}
    (empty : ∀ index < chunks.length, ∀ chunk ∈ chunks[index]?, chunk.value = 0) :
    chunkSum chunks = 0 := by
  unfold chunkSum
  rw [List.sum_eq_zero_iff]
  intro value member
  obtain ⟨chunk, inside, rfl⟩ := List.mem_map.mp member
  obtain ⟨index, bound, rfl⟩ := List.mem_iff_getElem.mp inside
  exact empty index bound _ (List.getElem?_eq_getElem bound)

/-- Dropping empty chunks changes no sum. -/
theorem chunkSum_filter_pos (chunks : List UnlockChunk) :
    chunkSum (chunks.filter (0 < ·.value)) = chunkSum chunks := by
  induction chunks with
  | nil => rfl
  | cons chunk rest ih =>
    by_cases positive : 0 < chunk.value
    · rw [List.filter_cons_of_pos (by simpa using positive), chunkSum_cons, chunkSum_cons, ih]
    · rw [List.filter_cons_of_neg (by simpa using positive), chunkSum_cons, ih]
      omega

theorem mem_chunksPriority {chunks : List UnlockChunk} {unlockEra index : ℕ} :
    index ∈ chunksPriority chunks unlockEra ↔ index < chunks.length := by
  unfold chunksPriority
  split
  · next start found =>
    have bound := (List.findIdx?_eq_some_iff_findIdx_eq.mp found).1
    rw [List.mem_append, List.mem_range'_1, List.mem_reverse, List.mem_range]
    omega
  · rw [List.mem_reverse, List.mem_range]

/-- A slash goes through every chunk at most once. -/
theorem nodup_chunksPriority (chunks : List UnlockChunk) (unlockEra : ℕ) :
    (chunksPriority chunks unlockEra).Nodup := by
  unfold chunksPriority
  split
  · refine List.Nodup.append List.nodup_range' (List.nodup_reverse.mpr List.nodup_range) ?_
    intro index later older
    rw [List.mem_range'_1] at later
    rw [List.mem_reverse, List.mem_range] at older
    omega
  · exact List.nodup_reverse.mpr List.nodup_range

namespace StakingLedger

variable {Account : Type} {ledger : StakingLedger Account} {arithmetic : SlashArithmetic}

/-- How a slash cuts into its targets. -/
def cutOf (ledger : StakingLedger Account) (arithmetic : SlashArithmetic)
    (slashAmount slashEra : ℕ) : Cut where
  proportion :=
    if slashAmount < affectedBalance ledger.active ledger.unlocking
        (slashEra + 1 + arithmetic.bondingDuration) then
      some (arithmetic.perquintill slashAmount (affectedBalance ledger.active ledger.unlocking
        (slashEra + 1 + arithmetic.bondingDuration)))
    else none
  minimumBalance := arithmetic.minimumBalance

/-- What a slash leaves of the active amount, and takes of it. -/
def slashedActive (ledger : StakingLedger Account) (arithmetic : SlashArithmetic)
    (slashAmount slashEra : ℕ) : ℕ × ℕ :=
  (ledger.cutOf arithmetic slashAmount slashEra).slashOutOf ledger.active slashAmount

/-- The chunks after a slash, before the empty ones are dropped. -/
def slashedChunks (ledger : StakingLedger Account) (arithmetic : SlashArithmetic)
    (slashAmount slashEra : ℕ) : List UnlockChunk × ℕ × ℕ :=
  (ledger.cutOf arithmetic slashAmount slashEra).slashChunks
    (chunksPriority ledger.unlocking (slashEra + 1 + arithmetic.bondingDuration))
    ledger.unlocking
    (ledger.total - (ledger.slashedActive arithmetic slashAmount slashEra).2)
    (slashAmount - (ledger.slashedActive arithmetic slashAmount slashEra).2)

theorem slash_eq {slashAmount slashEra : ℕ} (positive : slashAmount ≠ 0) :
    ledger.slash arithmetic slashAmount slashEra =
      ({ ledger with
        total := (ledger.slashedChunks arithmetic slashAmount slashEra).2.1
        active := (ledger.slashedActive arithmetic slashAmount slashEra).1
        unlocking := (ledger.slashedChunks arithmetic slashAmount slashEra).1.filter (0 < ·.value) },
      ledger.total - (ledger.slashedChunks arithmetic slashAmount slashEra).2.1) := by
  unfold slash
  rw [if_neg positive]
  rfl

variable (ledger arithmetic) in
theorem slashedActive_sum (slashAmount slashEra : ℕ) :
    (ledger.slashedActive arithmetic slashAmount slashEra).1 +
      (ledger.slashedActive arithmetic slashAmount slashEra).2 = ledger.active :=
  Cut.slashOutOf_sum _ _

/-- The total of a sound ledger after a slash is what the active amount and the chunks keep. -/
theorem Sound.slashedChunks (sound : ledger.Sound) (slashAmount slashEra : ℕ) :
    ledger.slashedChunks arithmetic slashAmount slashEra =
      (ledger.cutOf arithmetic slashAmount slashEra).slashChunks
        (chunksPriority ledger.unlocking (slashEra + 1 + arithmetic.bondingDuration))
        ledger.unlocking
        ((ledger.slashedActive arithmetic slashAmount slashEra).1 + chunkSum ledger.unlocking)
        (slashAmount - (ledger.slashedActive arithmetic slashAmount slashEra).2) := by
  have active := slashedActive_sum ledger arithmetic slashAmount slashEra
  unfold StakingLedger.slashedChunks
  congr 1
  rw [sound.total_eq]
  omega

/-- A slash keeps a ledger sound, and reports what its total lost. -/
theorem Sound.slash (sound : ledger.Sound) (slashAmount slashEra : ℕ) :
    (ledger.slash arithmetic slashAmount slashEra).1.Sound ∧
      (ledger.slash arithmetic slashAmount slashEra).1.total +
        (ledger.slash arithmetic slashAmount slashEra).2 = ledger.total := by
  by_cases positive : slashAmount = 0
  · unfold StakingLedger.slash
    rw [if_pos positive]
    exact ⟨sound, rfl⟩
  · rw [slash_eq positive, sound.slashedChunks]
    have active := slashedActive_sum ledger arithmetic slashAmount
      slashEra
    have sums := Cut.slashChunks_sum (ledger.cutOf arithmetic slashAmount slashEra)
      (chunksPriority ledger.unlocking (slashEra + 1 + arithmetic.bondingDuration))
      ledger.unlocking (ledger.slashedActive arithmetic slashAmount slashEra).1
      (slashAmount - (ledger.slashedActive arithmetic slashAmount slashEra).2)
    have frame := Cut.slashChunks_frame (ledger.cutOf arithmetic slashAmount slashEra)
      (chunksPriority ledger.unlocking (slashEra + 1 + arithmetic.bondingDuration))
      ledger.unlocking
      ((ledger.slashedActive arithmetic slashAmount slashEra).1 + chunkSum ledger.unlocking)
      (slashAmount - (ledger.slashedActive arithmetic slashAmount slashEra).2)
    generalize (ledger.cutOf arithmetic slashAmount slashEra).slashChunks _ _ _ _ = after at *
    have eras : ((after.1.filter (0 < ·.value)).map (·.era)).Sublist
        (ledger.unlocking.map (·.era)) := by
      rw [← frame.1]
      exact List.filter_sublist.map _
    have total := sound.total_eq
    refine ⟨⟨?_, sound.ascending.sublist eras, ?_, ?_⟩, ?_⟩
    · rw [chunkSum_filter_pos]
      exact sums.2.1
    · have shorter := eras.length_le
      simp only [List.length_map] at shorter
      exact shorter.trans sound.few
    · intro chunk member
      simpa using (List.mem_filter.mp member).2
    · dsimp only
      omega

/-- A slash of at least what it affects takes itself, capped at the total, and less than one
minimum balance of dust beyond. -/
theorem Sound.slash_full (sound : ledger.Sound) {slashAmount slashEra : ℕ}
    (full : affectedBalance ledger.active ledger.unlocking
      (slashEra + 1 + arithmetic.bondingDuration) ≤ slashAmount) :
    min slashAmount ledger.total ≤ (ledger.slash arithmetic slashAmount slashEra).2 ∧
      (ledger.slash arithmetic slashAmount slashEra).2 ≤
        slashAmount + (arithmetic.minimumBalance - 1) := by
  by_cases positive : slashAmount = 0
  · unfold StakingLedger.slash
    rw [if_pos positive]
    exact ⟨by omega, by omega⟩
  · have whole : (ledger.cutOf arithmetic slashAmount slashEra).proportion = none :=
      if_neg (not_lt.mpr full)
    have active := slashedActive_sum ledger arithmetic slashAmount
      slashEra
    have taken := Cut.slashOutOf_full whole ledger.active slashAmount
    have minimum : (ledger.cutOf arithmetic slashAmount slashEra).minimumBalance =
      arithmetic.minimumBalance := rfl
    have inside : ∀ index ∈ chunksPriority ledger.unlocking
        (slashEra + 1 + arithmetic.bondingDuration), index < ledger.unlocking.length :=
      fun index => mem_chunksPriority.mp
    have chunks := Cut.slashChunks_full whole
      (ledger.slashedActive arithmetic slashAmount slashEra).1
      (slashAmount - (ledger.slashedActive arithmetic slashAmount slashEra).2) inside
      (nodup_chunksPriority _ _) rfl
    have sums := Cut.slashChunks_sum (ledger.cutOf arithmetic slashAmount slashEra)
      (chunksPriority ledger.unlocking (slashEra + 1 + arithmetic.bondingDuration))
      ledger.unlocking (ledger.slashedActive arithmetic slashAmount slashEra).1
      (slashAmount - (ledger.slashedActive arithmetic slashAmount slashEra).2)
    have length := Cut.length_slashChunks (ledger.cutOf arithmetic slashAmount slashEra)
      (chunksPriority ledger.unlocking (slashEra + 1 + arithmetic.bondingDuration))
      ledger.unlocking
      ((ledger.slashedActive arithmetic slashAmount slashEra).1 + chunkSum ledger.unlocking)
      (slashAmount - (ledger.slashedActive arithmetic slashAmount slashEra).2)
    have total := sound.total_eq
    rw [slash_eq positive, sound.slashedChunks]
    change (_ ≤ (slashedActive ledger arithmetic slashAmount slashEra).2 ∨
      (slashedActive ledger arithmetic slashAmount slashEra).1 = 0) ∧
      (slashedActive ledger arithmetic slashAmount slashEra).2 ≤ _ at taken
    generalize (ledger.cutOf arithmetic slashAmount slashEra).slashChunks _ _ _ _ = after at *
    generalize slashedActive ledger arithmetic slashAmount slashEra = active at *
    rw [minimum] at taken chunks
    dsimp only
    constructor
    · rcases taken.1 with enough | wiped
      · omega
      rcases chunks.1 with enough | gone
      · omega
      have none : chunkSum after.1 = 0 := chunkSum_eq_zero fun index bound =>
        gone index (mem_chunksPriority.mpr (length ▸ bound))
      omega
    · have bound := chunks.2
      split_ifs at bound <;> omega

end StakingLedger

/-! ## Which chunks a slash reaches -/

/-- How many chunks were unbonded before the offence. -/
def olderCount (chunks : List UnlockChunk) (unlockEra : ℕ) : ℕ :=
  (startIndex chunks unlockEra).getD chunks.length

theorem chunksPriority_eq (chunks : List UnlockChunk) (unlockEra : ℕ) :
    chunksPriority chunks unlockEra =
      List.range' (olderCount chunks unlockEra) (chunks.length - olderCount chunks unlockEra) ++
        (List.range (olderCount chunks unlockEra)).reverse := by
  unfold chunksPriority olderCount
  cases startIndex chunks unlockEra with
  | some start => rfl
  | none => simp

theorem affectedBalance_eq (active : ℕ) (chunks : List UnlockChunk) (unlockEra : ℕ) :
    affectedBalance active chunks unlockEra =
      active + chunkSum (chunks.drop (olderCount chunks unlockEra)) := by
  unfold affectedBalance olderCount
  cases startIndex chunks unlockEra with
  | some start => rfl
  | none => simp

/-- Chunks in the order of their eras fall into older ones and later ones. -/
theorem older_later {chunks : List UnlockChunk}
    (ascending : (chunks.map (·.era)).Pairwise (· < ·)) (unlockEra : ℕ) :
    chunks.filter (·.era < unlockEra) = chunks.take (olderCount chunks unlockEra) ∧
      chunks.filter (unlockEra ≤ ·.era) = chunks.drop (olderCount chunks unlockEra) := by
  induction chunks with
  | nil => exact ⟨rfl, rfl⟩
  | cons chunk rest ih =>
    rw [List.map_cons, List.pairwise_cons] at ascending
    by_cases later : unlockEra ≤ chunk.era
    · have count : olderCount (chunk :: rest) unlockEra = 0 := by
        unfold olderCount startIndex
        rw [List.findIdx?_cons, if_pos (by simpa using later)]
        rfl
      have all : ∀ other ∈ rest, unlockEra ≤ other.era := fun other member =>
        later.trans (ascending.1 _ (List.mem_map_of_mem member)).le
      rw [count, List.take_zero, List.drop_zero]
      constructor
      · apply List.filter_eq_nil_iff.mpr
        intro other member
        rcases List.mem_cons.mp member with rfl | behind
        · simpa using later
        · simpa using all other behind
      · apply List.filter_eq_self.mpr
        intro other member
        rcases List.mem_cons.mp member with rfl | behind
        · simpa using later
        · simpa using all other behind
    · have count : olderCount (chunk :: rest) unlockEra = olderCount rest unlockEra + 1 := by
        unfold olderCount startIndex
        rw [List.findIdx?_cons, if_neg (by simpa using later)]
        cases rest.findIdx? (unlockEra ≤ ·.era) <;> rfl
      obtain ⟨older, behind⟩ := ih ascending.2
      rw [count, List.take_succ_cons, List.drop_succ_cons,
        List.filter_cons_of_pos (by simpa using later), older,
        List.filter_cons_of_neg (by simpa using later), behind]
      exact ⟨rfl, rfl⟩

/-- What lists of chunks with the same eras agree on. -/
theorem olderCount_congr {first second : List UnlockChunk}
    (eras : first.map (·.era) = second.map (·.era)) (unlockEra : ℕ) :
    olderCount first unlockEra = olderCount second unlockEra := by
  have indices : ∀ chunks : List UnlockChunk, startIndex chunks unlockEra =
      (chunks.map (·.era)).findIdx? (unlockEra ≤ ·) := by
    intro chunks
    unfold startIndex
    rw [List.findIdx?_map]
    rfl
  have lengths : first.length = second.length := by simpa using congrArg List.length eras
  unfold olderCount
  rw [indices, indices, eras, lengths]

/-- What a slash affects are the active amount and the chunks that unlock late enough. -/
theorem affectedBalance_of_ascending {chunks : List UnlockChunk}
    (ascending : (chunks.map (·.era)).Pairwise (· < ·)) (active unlockEra : ℕ) :
    affectedBalance active chunks unlockEra =
      active + chunkSum (chunks.filter (unlockEra ≤ ·.era)) := by
  rw [affectedBalance_eq, (older_later ascending unlockEra).2]

/-- Dropping empty chunks commutes with selecting by era. -/
theorem filter_filter_pos (chunks : List UnlockChunk) (select : UnlockChunk → Bool) :
    (chunks.filter (0 < ·.value)).filter select = (chunks.filter select).filter (0 < ·.value) := by
  rw [List.filter_filter, List.filter_filter]
  congr 1
  funext chunk
  exact Bool.and_comm _ _

namespace StakingLedger

variable {Account : Type} {ledger : StakingLedger Account} {arithmetic : SlashArithmetic}

/-- A slash reaches a chunk that was unbonded before the offence only if everything that was still
bonded gave less than the slash. -/
theorem Sound.slash_older (sound : ledger.Sound) (slashAmount slashEra : ℕ) {unlockEra : ℕ}
    (unlocks : unlockEra = slashEra + 1 + arithmetic.bondingDuration)
    {after : StakingLedger Account}
    (slashed : after = (ledger.slash arithmetic slashAmount slashEra).1) :
    after.unlocking.filter (·.era < unlockEra) = ledger.unlocking.filter (·.era < unlockEra) ∨
      affectedBalance ledger.active ledger.unlocking unlockEra <
        affectedBalance after.active after.unlocking unlockEra + slashAmount := by
  by_cases positive : slashAmount = 0
  · unfold StakingLedger.slash at slashed
    rw [if_pos positive] at slashed
    exact .inl (by rw [slashed])
  have kept : ((ledger.slash arithmetic slashAmount slashEra).1.unlocking.map (·.era)).Pairwise
      (· < ·) := (sound.slash slashAmount slashEra).1.ascending
  rw [← slashed] at kept
  rw [affectedBalance_of_ascending kept, affectedBalance_of_ascending sound.ascending]
  rw [slash_eq positive, sound.slashedChunks, ← unlocks, chunksPriority_eq,
    Cut.slashChunks_append] at slashed
  · have active := slashedActive_sum ledger arithmetic slashAmount
      slashEra
    generalize slashedActive ledger arithmetic slashAmount slashEra = taken at *
    generalize older : olderCount ledger.unlocking unlockEra = count at *
    generalize ledger.cutOf arithmetic slashAmount slashEra = cut at *
    have sums := Cut.slashChunks_sum cut
      (List.range' count (ledger.unlocking.length - count)) ledger.unlocking taken.1
      (slashAmount - taken.2)
    have frame := Cut.slashChunks_frame cut
      (List.range' count (ledger.unlocking.length - count)) ledger.unlocking
      (taken.1 + chunkSum ledger.unlocking) (slashAmount - taken.2)
    generalize cut.slashChunks (List.range' count (ledger.unlocking.length - count))
      ledger.unlocking _ _ = middle at *
    have front : middle.1.take count = ledger.unlocking.take count := by
      apply List.ext_getElem?
      intro index
      rw [List.getElem?_take, List.getElem?_take]
      split_ifs with before
      · apply frame.2
        rw [List.mem_range'_1]
        omega
      · rfl
    have split := older_later sound.ascending unlockEra
    rw [older] at split
    by_cases done : middle.2.2 = 0
    · -- nothing remains for the older chunks
      left
      rw [done, Cut.slashChunks_zero] at slashed
      subst slashed
      have eras : (middle.1.map (·.era)).Pairwise (· < ·) := by
        rw [frame.1]
        exact sound.ascending
      have same : olderCount middle.1 unlockEra = count := by
        rw [olderCount_congr frame.1, older]
      dsimp only
      rw [filter_filter_pos, (older_later eras unlockEra).1, same, front, split.1]
      apply List.filter_eq_self.mpr
      intro chunk member
      simpa using sound.positive chunk (List.mem_of_mem_take member)
    · right
      have outer := Cut.slashChunks_frame cut (List.range count).reverse middle.1
        middle.2.1 middle.2.2
      generalize cut.slashChunks (List.range count).reverse middle.1 middle.2.1 middle.2.2 =
        final at *
      subst slashed
      have eras : (final.1.map (·.era)).Pairwise (· < ·) := by
        rw [outer.1, frame.1]
        exact sound.ascending
      have same : olderCount final.1 unlockEra = count := by
        rw [olderCount_congr (outer.1.trans frame.1), older]
      have back : final.1.drop count = middle.1.drop count := by
        apply List.ext_getElem?
        intro index
        rw [List.getElem?_drop, List.getElem?_drop]
        apply outer.2
        rw [List.mem_reverse, List.mem_range]
        omega
      dsimp only
      rw [filter_filter_pos, chunkSum_filter_pos, (older_later eras unlockEra).2, same, back,
        split.2]
      have before := congrArg chunkSum (List.take_append_drop count ledger.unlocking)
      have between := congrArg chunkSum (List.take_append_drop count middle.1)
      rw [chunkSum_append] at before between
      rw [front] at between
      omega
  · intro index member
    rw [List.mem_range'_1] at member
    omega

end StakingLedger

/-! ## Rebonding -/

/-- The loop takes as much as it can and is asked for, from the chunks into the active amount. -/
theorem rebondChunks_spec (value unlockingBalance active : ℕ) (chunks : List UnlockChunk)
    (room : unlockingBalance ≤ value) :
    let after := rebondChunks value unlockingBalance active chunks
    after.1 = min value (unlockingBalance + chunkSum chunks) ∧
      after.2.1 + unlockingBalance = active + after.1 ∧
      chunkSum after.2.2 + after.1 = chunkSum chunks + unlockingBalance := by
  induction chunks generalizing unlockingBalance active with
  | nil =>
    refine ⟨?_, rfl, rfl⟩
    rw [chunkSum_nil, Nat.add_zero, min_eq_right room]
    rfl
  | cons last rest ih =>
    simp only [rebondChunks]
    rw [chunkSum_cons]
    split_ifs with whole enough
    · refine ⟨?_, ?_, ?_⟩ <;> dsimp only <;> omega
    · obtain ⟨taken, moved, left⟩ := ih (unlockingBalance + last.value) (active + last.value) whole
      refine ⟨?_, ?_, ?_⟩
      · rw [taken, Nat.add_assoc]
      · omega
      · omega
    · refine ⟨?_, ?_, ?_⟩
      · dsimp only
        omega
      · dsimp only
        omega
      · rw [chunkSum_cons]
        dsimp only
        omega

/-- The chunks that are left keep their order and stay nonzero. -/
theorem rebondChunks_chunks (value unlockingBalance active : ℕ) (chunks : List UnlockChunk)
    (positive : ∀ chunk ∈ chunks, 0 < chunk.value) :
    let after := (rebondChunks value unlockingBalance active chunks).2.2
    (after.map (·.era)).Sublist (chunks.map (·.era)) ∧ ∀ chunk ∈ after, 0 < chunk.value := by
  induction chunks generalizing unlockingBalance active with
  | nil => exact ⟨List.Sublist.refl _, positive⟩
  | cons last rest ih =>
    have behind : ∀ chunk ∈ rest, 0 < chunk.value := fun chunk member =>
      positive chunk (List.mem_cons_of_mem _ member)
    simp only [rebondChunks]
    split_ifs with whole enough
    · exact ⟨List.sublist_cons_self _ _, behind⟩
    · have later := ih (unlockingBalance + last.value) (active + last.value) behind
      exact ⟨later.1.trans (List.sublist_cons_self _ _), later.2⟩
    · refine ⟨List.Sublist.refl _, ?_⟩
      intro chunk member
      rcases List.mem_cons.mp member with rfl | member
      · have mine := positive last (List.mem_cons_self ..)
        dsimp only
        omega
      · exact behind chunk member

namespace StakingLedger

variable {Account : Type} {ledger : StakingLedger Account}

/-- Rebonding moves what is asked for, or all there is, back into the active amount. -/
theorem Sound.rebond (sound : ledger.Sound) (value : ℕ) :
    (ledger.rebond value).1.Sound ∧
      (ledger.rebond value).2 = min value (chunkSum ledger.unlocking) ∧
      (ledger.rebond value).1.active = ledger.active + (ledger.rebond value).2 ∧
      (ledger.rebond value).1.total = ledger.total := by
  have sums := rebondChunks_spec value 0 ledger.active ledger.unlocking.reverse (Nat.zero_le _)
  have chunks := rebondChunks_chunks value 0 ledger.active ledger.unlocking.reverse
    fun chunk member => sound.positive chunk (List.mem_reverse.mp member)
  unfold StakingLedger.rebond
  generalize rebondChunks value 0 ledger.active ledger.unlocking.reverse = after at *
  obtain ⟨unlockingBalance, active, left⟩ := after
  dsimp only at sums chunks ⊢
  rw [chunkSum_reverse] at sums
  have eras : (left.reverse.map (·.era)).Sublist (ledger.unlocking.map (·.era)) := by
    rw [List.map_reverse]
    simpa using chunks.1.reverse
  refine ⟨⟨?_, sound.ascending.sublist eras, ?_, ?_⟩, ?_, ?_, rfl⟩
  · rw [chunkSum_reverse]
    dsimp only
    have total := sound.total_eq
    omega
  · have shorter := eras.length_le
    simp only [List.length_map] at shorter
    exact shorter.trans sound.few
  · intro chunk member
    exact chunks.2 chunk (List.mem_reverse.mp member)
  · omega
  · omega

/-! ## A slashed ledger -/

/-- A slash keeps a ledger sound and reports what its total lost. If it asks for at least all that
was bonded at the offence, it takes what it asks for, capped at the total, and less than one minimum
balance of dust beyond. Chunks unbonded before the offence stay unless all of that gave too
little. -/
theorem slashed_ledger (sound : ledger.Sound) (arithmetic : SlashArithmetic)
    (slashAmount slashEra : ℕ) :
    let result := ledger.slash arithmetic slashAmount slashEra
    let unlockEra := slashEra + 1 + arithmetic.bondingDuration
    result.1.Sound ∧ result.1.total + result.2 = ledger.total ∧
      (affectedBalance ledger.active ledger.unlocking unlockEra ≤ slashAmount →
        min slashAmount ledger.total ≤ result.2 ∧
          result.2 ≤ slashAmount + (arithmetic.minimumBalance - 1)) ∧
      (result.1.unlocking.filter (·.era < unlockEra) =
          ledger.unlocking.filter (·.era < unlockEra) ∨
        affectedBalance ledger.active ledger.unlocking unlockEra <
          affectedBalance result.1.active result.1.unlocking unlockEra + slashAmount) := by
  obtain ⟨stays, reports⟩ := @Sound.slash _ _ arithmetic sound slashAmount slashEra
  exact ⟨stays, reports, fun full => sound.slash_full full,
    sound.slash_older slashAmount slashEra rfl rfl⟩

/-- A chunk unbonded in era 0 and one in era 3, with a bonding duration of three. -/
def twoChunks : StakingLedger ℕ := ⟨10, 100, 50, [⟨20, 3⟩, ⟨30, 6⟩], .ofRange 0 0⟩

/-- Fractions of a slash in whole units, and no dust below two. -/
def wholeUnits : SlashArithmetic where
  perquintill slash affected target := min (slash * target / affected) target
  perquintill_le _ _ _ := min_le_right ..
  minimumBalance := 2
  bondingDuration := 3

theorem twoChunks_sound : twoChunks.Sound where
  total_eq := rfl
  ascending := by decide
  few := by decide
  positive := by decide

/-- For an offence in era two, 85 reaches the older chunk, and 40 does not. -/
theorem twoChunks_slashed :
    (twoChunks.slash wholeUnits 85 2).1.Sound ∧ (twoChunks.slash wholeUnits 85 2).2 = 85 ∧
      (twoChunks.slash wholeUnits 85 2).1.unlocking = [⟨15, 3⟩] ∧
      (twoChunks.slash wholeUnits 40 2).1.Sound ∧
      (twoChunks.slash wholeUnits 40 2).1.unlocking.filter (·.era < 6) =
        twoChunks.unlocking.filter (·.era < 6) := by
  obtain ⟨sound, -⟩ := slashed_ledger twoChunks_sound wholeUnits 85 2
  obtain ⟨small, -, -, older⟩ := slashed_ledger twoChunks_sound wholeUnits 40 2
  refine ⟨sound, by decide, by decide, small, ?_⟩
  rcases older with same | reached
  · exact same
  · exact absurd reached (by decide)

end StakingLedger

end GlitchRuntime.Staking
