import GlitchRuntime.Lib.Runs
import GlitchRuntime.Staking.Slashing

/-! # What a span of a stash is slashed over a run

The metadata of all stashes as a machine of its own: eras go by, stashes are inspected for a slash
or kicked out without one, and the metadata of dead stashes is cleared. Since a stash was last
cleared, every era of the window lies in one span, a span has been slashed the maximum that was
compared with it and no more, and a record that is left belongs to a span that is left.
-/

namespace GlitchRuntime.Staking

open Lib

/-- What one inspection did to a stash. -/
structure SpanReceipt where
  /-- The span that the era of the offence lies in. -/
  target : Option ℕ
  compared : ℕ
  proportion : Perbill
  slashed : ℕ
  paid : ℕ
  /-- The era that ended a span. -/
  ended : Option ℕ

namespace SpanReceipt

/-- The highest slash that was compared with a span. -/
def highest (log : List SpanReceipt) (index : ℕ) : ℕ :=
  (log.map fun receipt => if receipt.target = some index then receipt.compared else 0).foldl max 0

/-- What a span was slashed in all. -/
def slashedIn (log : List SpanReceipt) (index : ℕ) : ℕ :=
  (log.map fun receipt => if receipt.target = some index then receipt.slashed else 0).sum

/-- What was paid out for a span in all. -/
def paidIn (log : List SpanReceipt) (index : ℕ) : ℕ :=
  (log.map fun receipt => if receipt.target = some index then receipt.paid else 0).sum

/-- The eras that ended a span. -/
def endedIn (log : List SpanReceipt) : Finset ℕ := (log.filterMap (·.ended)).toFinset

variable (log : List SpanReceipt) (receipt : SpanReceipt) (index : ℕ)

@[simp] theorem highest_append : highest (log ++ [receipt]) index =
    max (highest log index) (if receipt.target = some index then receipt.compared else 0) := by
  simp [highest]

@[simp] theorem slashedIn_append : slashedIn (log ++ [receipt]) index =
    slashedIn log index + if receipt.target = some index then receipt.slashed else 0 := by
  simp [slashedIn]

@[simp] theorem paidIn_append : paidIn (log ++ [receipt]) index =
    paidIn log index + if receipt.target = some index then receipt.paid else 0 := by
  simp [paidIn]

@[simp] theorem endedIn_append : endedIn (log ++ [receipt]) =
    endedIn log ∪ receipt.ended.toFinset := by
  unfold endedIn
  rw [List.filterMap_append, List.toFinset_append]
  congr 1
  cases ended : receipt.ended <;> simp [ended]

variable {log index}

/-- A span that nothing was compared with has no history. -/
theorem fresh (unused : ∀ receipt ∈ log, receipt.target ≠ some index) :
    highest log index = 0 ∧ paidIn log index = 0 := by
  have none : ∀ receipt ∈ log, ¬ receipt.target = some index := unused
  constructor
  · unfold highest
    have zeros : (log.map fun receipt =>
        if receipt.target = some index then receipt.compared else 0) = log.map fun _ => 0 := by
      apply List.map_congr_left
      intro receipt member
      rw [if_neg (none receipt member)]
    rw [zeros]
    clear zeros none unused
    induction log with
    | nil => rfl
    | cons head rest ih => simpa using ih
  · unfold paidIn
    apply List.sum_eq_zero
    intro amount member
    obtain ⟨receipt, inside, rfl⟩ := List.mem_map.mp member
    rw [if_neg (none receipt inside)]

end SpanReceipt

/-- The spans and records of a stash stand for its history: the eras `cuts` ended spans, and `log`
is what the inspections did. -/
structure Tracks (spans : SlashingSpans) (records : ℕ → SpanRecord) (activeEra windowStart : ℕ)
    (cuts : Finset ℕ) (log : List SpanReceipt) : Prop where
  started : spans.lastStart ≤ activeEra + 1
  past : ∀ cut ∈ cuts, cut < spans.lastStart
  cover : ∀ era, windowStart ≤ era → spans.eraSpan era = some (cutRank cuts era)
  live : ∀ index, spans.earliest ≤ index → index ≤ spans.spanIndex →
    records index = ⟨SpanReceipt.highest log index, SpanReceipt.paidIn log index⟩
  dead : ∀ index, index < spans.earliest ∨ spans.spanIndex < index → records index = default
  sums : ∀ index, SpanReceipt.slashedIn log index = SpanReceipt.highest log index
  paid : ∀ index bound, (∀ receipt ∈ log, receipt.target = some index →
    receipt.proportion.mul receipt.compared ≤ bound) → SpanReceipt.paidIn log index ≤ bound
  known : ∀ receipt ∈ log, ∀ index ∈ receipt.target, index ≤ spans.spanIndex

namespace Tracks

variable {spans : SlashingSpans} {records : ℕ → SpanRecord} {activeEra windowStart : ℕ}
  {cuts : Finset ℕ} {log : List SpanReceipt}

/-- Spans that were just created have no history. -/
theorem new (bound : windowStart ≤ activeEra) :
    Tracks (.new windowStart) (fun _ => default) activeEra windowStart ∅ [] where
  started := by
    change windowStart ≤ activeEra + 1
    omega
  past cut member := absurd member (Finset.notMem_empty cut)
  cover era inWindow := SlashingSpans.eraSpan_of_le inWindow
  live _ _ _ := rfl
  dead _ _ := rfl
  sums _ := rfl
  paid _ _ _ := Nat.zero_le _
  known receipt member := absurd member List.not_mem_nil

/-- As eras go by, the window only moves forward. -/
theorem later (tracks : Tracks spans records activeEra windowStart cuts log)
    {laterEra laterStart : ℕ} (era : activeEra ≤ laterEra) (window : windowStart ≤ laterStart) :
    Tracks spans records laterEra laterStart cuts log where
  started := tracks.started.trans (by omega)
  past := tracks.past
  cover era inWindow := tracks.cover era (window.trans inWindow)
  live := tracks.live
  dead := tracks.dead
  sums := tracks.sums
  paid := tracks.paid
  known := tracks.known

/-- Nothing here depends on when the last slash was. -/
theorem congr {other : SlashingSpans} (tracks : Tracks spans records activeEra windowStart cuts log)
    (index : other.spanIndex = spans.spanIndex) (start : other.lastStart = spans.lastStart)
    (prior : other.prior = spans.prior) : Tracks other records activeEra windowStart cuts log := by
  have eraSpan : ∀ era, other.eraSpan era = spans.eraSpan era := by
    intro era
    unfold SlashingSpans.eraSpan SlashingSpans.iter
    rw [index, start, prior]
  have earliest : other.earliest = spans.earliest := by
    unfold SlashingSpans.earliest
    rw [index, prior]
  constructor
  · rw [start]
    exact tracks.started
  · rw [start]
    exact tracks.past
  · intro era inWindow
    rw [eraSpan]
    exact tracks.cover era inWindow
  · rw [index, earliest]
    exact tracks.live
  · rw [index, earliest]
    exact tracks.dead
  · exact tracks.sums
  · exact tracks.paid
  · rw [index]
    exact tracks.known

/-- The ongoing span ends with `now`, and no record of the new one is there yet. -/
theorem endSpan (tracks : Tracks spans records activeEra windowStart cuts log)
    (window : windowStart ≤ activeEra) (ongoing : spans.lastStart ≤ activeEra) :
    Tracks (spans.endSpan activeEra).1 records activeEra windowStart (insert activeEra cuts)
      log := by
  have fresh : activeEra ∉ cuts := by
    intro member
    have := tracks.past activeEra member
    omega
  have shape : (spans.endSpan activeEra).1.lastStart = activeEra + 1 ∧
      (spans.endSpan activeEra).1.spanIndex = spans.spanIndex + 1 ∧
      (spans.endSpan activeEra).1.earliest = spans.earliest := by
    unfold SlashingSpans.earliest SlashingSpans.endSpan
    rw [dif_neg (by omega)]
    refine ⟨rfl, rfl, ?_⟩
    change spans.spanIndex + 1 - (spans.prior.length + 1) = _
    omega
  obtain ⟨start, index, earliest⟩ := shape
  constructor
  · rw [start]
  · intro cut member
    rw [start]
    rcases Finset.mem_insert.mp member with rfl | before
    · omega
    · have := tracks.past cut before
      omega
  · intro era inWindow
    rw [SlashingSpans.eraSpan_endSpan ongoing]
    split_ifs with after
    · rw [cutRank_insert_of_lt fresh after]
      have covered := tracks.cover era inWindow
      rw [SlashingSpans.eraSpan_of_le (by omega)] at covered
      rw [← Option.some.inj covered]
    · rw [cutRank_insert_of_le (not_lt.mp after)]
      exact tracks.cover era inWindow
  · intro other above below
    rw [earliest] at above
    rw [index] at below
    rcases Nat.lt_succ_iff_lt_or_eq.mp (Nat.lt_succ_of_le below) with before | rfl
    · exact tracks.live other above (by omega)
    · have unused : ∀ receipt ∈ log, receipt.target ≠ some (spans.spanIndex + 1) := by
        intro receipt member target
        have := tracks.known receipt member _ target
        omega
      rw [(SpanReceipt.fresh unused).1, (SpanReceipt.fresh unused).2]
      exact tracks.dead _ (.inr (Nat.lt_succ_self _))
  · intro other outside
    rw [earliest, index] at outside
    exact tracks.dead other (by omega)
  · exact tracks.sums
  · exact tracks.paid
  · intro receipt member other target
    rw [index]
    exact (tracks.known receipt member other target).trans (Nat.le_succ _)

/-- The records without those of pruned spans. -/
theorem prune (tracks : Tracks spans records activeEra windowStart cuts log)
    (window : windowStart ≤ activeEra) :
    Tracks (spans.prune windowStart).1
      (match (spans.prune windowStart).2 with
        | some (start, stop) => fun index => if start ≤ index ∧ index < stop then default
            else records index
        | none => records) activeEra windowStart cuts log := by
  have grows := SlashingSpans.earliest_le_prune spans windowStart
  have kept : ∀ index, (match (spans.prune windowStart).2 with
      | some (start, stop) => fun index => if start ≤ index ∧ index < stop then default
          else records index
      | none => records) index =
        if index < (spans.prune windowStart).1.earliest then default else records index := by
    intro index
    rcases SlashingSpans.prune_snd spans windowStart with pruned | ⟨pruned, same⟩
    · rw [pruned]
      dsimp only
      by_cases before : index < spans.earliest
      · rw [if_neg (by omega), if_pos (by omega), tracks.dead index (.inl before)]
      · split_ifs <;> first | rfl | omega
    · rw [pruned, same]
      dsimp only
      split_ifs with before
      · exact tracks.dead index (.inl before)
      · rfl
  constructor
  · rw [SlashingSpans.prune_lastStart]
    exact max_le tracks.started (by omega)
  · intro cut member
    rw [SlashingSpans.prune_lastStart]
    exact (tracks.past cut member).trans_le (le_max_left _ _)
  · intro era inWindow
    rw [SlashingSpans.eraSpan_prune inWindow]
    exact tracks.cover era inWindow
  · intro index above below
    rw [kept, if_neg (by omega)]
    exact tracks.live index (by omega) (by simpa using below)
  · intro index outside
    rw [kept]
    split_ifs with before
    · rfl
    · rw [SlashingSpans.prune_spanIndex] at outside
      exact tracks.dead index (by omega)
  · exact tracks.sums
  · exact tracks.paid
  · intro receipt member index target
    rw [SlashingSpans.prune_spanIndex]
    exact tracks.known receipt member index target

/-- A comparison with no span, or with one, goes on record as the maximum there. -/
theorem compare (tracks : Tracks spans records activeEra windowStart cuts log)
    {receipt : SpanReceipt}
    (covered : ∀ index ∈ receipt.target,
      (spans.earliest ≤ index ∧ index ≤ spans.spanIndex) ∧
      receipt.slashed = receipt.compared - SpanReceipt.highest log index ∧
      receipt.paid ≤ receipt.proportion.mul receipt.compared - SpanReceipt.paidIn log index)
    {after : ℕ → SpanRecord}
    (written : ∀ index, after index = if receipt.target = some index then
      ⟨max (records index).slashed receipt.compared, (records index).paidOut + receipt.paid⟩
      else records index) :
    Tracks spans after activeEra windowStart cuts (log ++ [receipt]) where
  started := tracks.started
  past := tracks.past
  cover := tracks.cover
  live index above below := by
    rw [written, SpanReceipt.highest_append, SpanReceipt.paidIn_append,
      tracks.live index above below]
    split_ifs with target
    · rfl
    · rw [Nat.max_zero, Nat.add_zero]
  dead index outside := by
    rw [written]
    split_ifs with target
    · have inside := (covered index target).1
      omega
    · exact tracks.dead index outside
  sums index := by
    rw [SpanReceipt.highest_append, SpanReceipt.slashedIn_append, tracks.sums]
    split_ifs with target
    · have := (covered index target).2.1
      omega
    · omega
  paid index bound below := by
    rw [SpanReceipt.paidIn_append]
    have before := tracks.paid index bound fun receipt member =>
      below receipt (List.mem_append_left _ member)
    split_ifs with target
    · have paid := (covered index target).2.2
      have share := below receipt (by simp) target
      omega
    · exact before
  known other member index target := by
    rcases List.mem_append.mp member with before | last
    · exact tracks.known other before index target
    · obtain rfl := List.mem_singleton.mp last
      exact (covered index target).1.2

end Tracks

/-! ## One inspection -/

namespace InspectingSpans

variable {inspecting : InspectingSpans} {inspection : Inspection} {slash : ℕ}

/-- What a comparison pays out for a span. -/
def reward (record : SpanRecord) (inspection : Inspection) (slash : ℕ) : ℕ :=
  if slash < record.slashed then 0
  else rewardF1.mul (inspection.rewardProportion.mul slash - record.paidOut)

theorem reward_le (record : SpanRecord) (inspection : Inspection) (slash : ℕ) :
    reward record inspection slash ≤ inspection.rewardProportion.mul slash - record.paidOut := by
  unfold reward
  split_ifs
  · exact Nat.zero_le _
  · exact Perbill.mul_le _ _

/-- What a comparison leaves of a span that covers the era. -/
structure Compared (before after : InspectingSpans) (inspection : Inspection) (slash index : ℕ) :
    Prop where
  spanIndex : after.spans.spanIndex = before.spans.spanIndex
  lastStart : after.spans.lastStart = before.spans.lastStart
  prior : after.spans.prior = before.spans.prior
  slashOf : after.slashOf = before.slashOf + (slash - (before.book.records index).slashed)
  paidOut : after.paidOut = before.paidOut + reward (before.book.records index) inspection slash
  records : after.book.records = Function.update before.book.records index
    ⟨max (before.book.records index).slashed slash,
      (before.book.records index).paidOut + reward (before.book.records index) inspection slash⟩
  clean : after.dirty = false → after.book = before.book ∧ after.spans = before.spans

theorem compare_of_none (uncovered : inspecting.spans.eraSpan inspection.slashEra = none) :
    inspecting.compareAndUpdateSpanSlash inspection slash = (inspecting, none) := by
  unfold compareAndUpdateSpanSlash
  rw [uncovered]

variable (slash) in
/-- The three outcomes of a comparison, told as one. -/
theorem compare_of_some {index : ℕ}
    (covered : inspecting.spans.eraSpan inspection.slashEra = some index) :
    (inspecting.compareAndUpdateSpanSlash inspection slash).2 = some index ∧
      Compared inspecting (inspecting.compareAndUpdateSpanSlash inspection slash).1 inspection slash
        index := by
  unfold compareAndUpdateSpanSlash
  rw [covered]
  dsimp only
  generalize stored : inspecting.book.records index = record
  have same : Function.update inspecting.book.records index record = inspecting.book.records := by
    rw [← stored, Function.update_eq_self]
  refine ⟨rfl, ?_⟩
  by_cases above : record.slashed < slash
  · rw [if_pos above]
    dsimp only
    rw [if_pos (.inl rfl)]
    constructor <;> try rfl
    · rw [stored]
      rfl
    · rw [stored, reward, if_neg (by omega)]
      rfl
    · rw [stored, reward, if_neg (by omega), max_eq_right above.le]
      rfl
    · intro clean
      contradiction
  · -- no new maximum: only a reward can change the record
    have outcome : (if record.slashed = slash then (inspecting, record, false,
        rewardF1.mul (inspection.rewardProportion.mul slash - record.paidOut))
        else (inspecting, record, false, 0)) =
        (inspecting, record, false, reward record inspection slash) := by
      unfold reward
      rcases Nat.lt_or_eq_of_le (not_lt.mp above) with below | equal
      · rw [if_neg (by omega), if_pos below]
      · rw [if_pos equal.symm, if_neg (by omega)]
    rw [if_neg above, outcome]
    dsimp only
    by_cases paid : reward record inspection slash = 0
    · rw [if_neg (by simp [paid])]
      have unchanged : (⟨max record.slashed slash, record.paidOut +
          reward record inspection slash⟩ : SpanRecord) = record := by
        rw [paid, max_eq_left (not_lt.mp above), Nat.add_zero]
      refine ⟨rfl, rfl, rfl, ?_, ?_, ?_, ?_⟩
      · rw [stored]
        dsimp only
        omega
      · rw [stored]
      · rw [stored, unchanged, same]
      · intro clean
        exact ⟨rfl, rfl⟩
    · rw [if_pos (.inr paid)]
      refine ⟨rfl, rfl, rfl, ?_, ?_, ?_, ?_⟩
      · rw [stored]
        change inspecting.slashOf = _
        omega
      · rw [stored]
        rfl
      · rw [stored, max_eq_left (not_lt.mp above)]
        rfl
      · intro clean
        contradiction

/-- An inspection that ended the ongoing span has something to write. -/
theorem endSpan_dirty {now : ℕ} (ongoing : inspecting.spans.lastStart ≤ now) :
    (inspecting.endSpan now).dirty = true := by
  change ((inspecting.spans.endSpan now).2 || inspecting.dirty) = true
  rw [SlashingSpans.endSpan_snd, decide_eq_true ongoing, Bool.true_or]

end InspectingSpans

/-! ## The machine of all books -/

/-- The metadata of every stash, and the active era. -/
structure BookState (Account : Type) where
  books : Account → SpanBook
  activeEra : ℕ

/-- What happens to the metadata. -/
inductive BookCall (Account : Type)
  | nextEra
  | slash (stash : Account) (slashEra slash : ℕ) (rewardProportion : Perbill)
  | kick (stash : Account) (slashEra : ℕ)
  | clear (stash : Account) (numSlashingSpans : ℕ)

/-- What a step did to one stash; `none` is that its metadata was cleared. -/
structure BookReceipt (Account : Type) where
  stash : Account
  receipt : Option SpanReceipt

variable {Account : Type} [DecidableEq Account]

/-- The inspection of an offence, in the bonding period that ends with the active era. -/
def inspectionAt (bondingDuration activeEra slashEra : ℕ) (rewardProportion : Perbill) :
    Inspection where
  windowStart := activeEra - bondingDuration
  now := activeEra
  slashEra
  rewardProportion

/-- The receipt of an inspection with a slash. -/
def SpanReceipt.ofFinding (inspection : Inspection) (slash : ℕ) (finding : Finding) :
    SpanReceipt where
  target := finding.target
  compared := slash
  proportion := inspection.rewardProportion
  slashed := finding.slashed
  paid := finding.paidOut
  ended := if finding.current then some inspection.now else none

/-- The receipt of an inspection without one. -/
def SpanReceipt.ofKick (inspection : Inspection) (current : Bool) : SpanReceipt where
  target := none
  compared := 0
  proportion := 0
  slashed := 0
  paid := 0
  ended := if current then some inspection.now else none

/-- One step of the metadata. An offence lies in the active era or before it. -/
def bookStep (bondingDuration : ℕ) (state : BookState Account) :
    BookCall Account → Except (Option Error) (BookState Account × List (BookReceipt Account))
  | .nextEra => .ok ({ state with activeEra := state.activeEra + 1 }, [])
  | .slash stash slashEra slash rewardProportion =>
    if slashEra ≤ state.activeEra then
      let inspection := inspectionAt bondingDuration state.activeEra slashEra rewardProportion
      let finding := (state.books stash).slashInSpan inspection slash
      .ok ({ state with books := Function.update state.books stash finding.book },
        [⟨stash, some (.ofFinding inspection slash finding)⟩])
    else .error none
  | .kick stash slashEra =>
    if slashEra ≤ state.activeEra then
      let inspection := inspectionAt bondingDuration state.activeEra slashEra 0
      let (book, current) := (state.books stash).kickOutIfRecent inspection
      .ok ({ state with books := Function.update state.books stash book },
        [⟨stash, some (.ofKick inspection current)⟩])
    else .error none
  | .clear stash numSlashingSpans =>
    match (state.books stash).clear numSlashingSpans with
    | .ok book =>
      .ok ({ state with books := Function.update state.books stash book }, [⟨stash, none⟩])
    | .error error => .error (some error)

/-- The metadata as a machine. -/
def bookSystem (Account : Type) [DecidableEq Account] (bondingDuration : ℕ) :
    Machine (BookState Account) (BookCall Account) (Option Error) (BookReceipt Account) :=
  ⟨bookStep bondingDuration⟩

/-- What happened to a stash since its metadata was last cleared. -/
def lifeOf (log : List (BookReceipt Account)) (stash : Account) : List SpanReceipt :=
  log.foldl (fun life entry =>
    if entry.stash = stash then
      match entry.receipt with
      | some receipt => life ++ [receipt]
      | none => []
    else life) []

theorem lifeOf_append (log : List (BookReceipt Account)) (entry : BookReceipt Account)
    (stash : Account) : lifeOf (log ++ [entry]) stash =
      if entry.stash = stash then
        match entry.receipt with
        | some receipt => lifeOf log stash ++ [receipt]
        | none => []
      else lifeOf log stash := by
  simp [lifeOf]

/-! ## Every step keeps the books -/

/-- The book of a stash stands for the history since it was last cleared. -/
def SpanBook.Tracked (book : SpanBook) (activeEra windowStart : ℕ) (log : List SpanReceipt) : Prop :=
  match book.spans with
  | none => log = [] ∧ book.records = fun _ => default
  | some spans =>
    Tracks spans book.records activeEra windowStart (SpanReceipt.endedIn log) log

namespace SpanBook.Tracked

variable {book : SpanBook} {activeEra windowStart : ℕ} {log : List SpanReceipt}

theorem of_some {spans : SlashingSpans} (present : book.spans = some spans)
    (tracks : Tracks spans book.records activeEra windowStart (SpanReceipt.endedIn log) log) :
    book.Tracked activeEra windowStart log := by
  unfold SpanBook.Tracked
  rw [present]
  exact tracks

theorem later (tracked : book.Tracked activeEra windowStart log) {laterEra laterStart : ℕ}
    (era : activeEra ≤ laterEra) (window : windowStart ≤ laterStart) :
    book.Tracked laterEra laterStart log := by
  unfold SpanBook.Tracked at tracked ⊢
  cases present : book.spans with
  | none =>
    rw [present] at tracked
    exact tracked
  | some spans =>
    rw [present] at tracked
    exact tracked.later era window

/-- Fetching creates the spans of a stash where there are none. -/
theorem fetch (tracked : book.Tracked activeEra windowStart log)
    (window : windowStart ≤ activeEra) :
    Tracks (fetchSpans book windowStart).spans (fetchSpans book windowStart).book.records
        activeEra windowStart (SpanReceipt.endedIn log) log ∧
      (fetchSpans book windowStart).book.spans = some (fetchSpans book windowStart).spans ∧
      (fetchSpans book windowStart).slashOf = 0 ∧ (fetchSpans book windowStart).paidOut = 0 := by
  unfold SpanBook.Tracked at tracked
  unfold fetchSpans
  cases present : book.spans with
  | none =>
    rw [present] at tracked
    obtain ⟨rfl, empty⟩ := tracked
    refine ⟨?_, rfl, rfl, rfl⟩
    dsimp only
    rw [empty]
    exact Tracks.new window
  | some spans =>
    rw [present] at tracked
    exact ⟨tracked, present, rfl, rfl⟩

/-- What is written back stands for the same history. -/
theorem drop {inspecting : InspectingSpans}
    (tracks : Tracks inspecting.spans inspecting.book.records activeEra windowStart
      (SpanReceipt.endedIn log) log)
    (window : windowStart ≤ activeEra)
    (clean : inspecting.dirty = false → inspecting.book.spans = some inspecting.spans) :
    (inspecting.drop windowStart).Tracked activeEra windowStart log := by
  unfold InspectingSpans.drop
  split_ifs with dirty
  · exact of_some rfl (tracks.prune window)
  · exact of_some (clean (by simpa using dirty)) tracks

end SpanBook.Tracked

/-- A span that covers an era is the ongoing one only once that has started. -/
theorem SlashingSpans.lastStart_le_of_eraSpan {spans : SlashingSpans} {era : ℕ}
    (current : spans.eraSpan era = some spans.spanIndex) : spans.lastStart ≤ era := by
  by_contra before
  rw [eraSpan_of_lt (not_le.mp before)] at current
  obtain ⟨span, found, index⟩ := Option.map_eq_some_iff.mp current
  have inside := index_of_mem_priorSpans spans.prior_le (List.mem_of_find?_eq_some found)
  omega

variable {bondingDuration activeEra slashEra : ℕ} {book : SpanBook} {log : List SpanReceipt}

/-- What a comparison leaves goes on record with it. -/
theorem Tracks.inspect {inspecting : InspectingSpans} {inspection : Inspection} {slash : ℕ}
    {windowStart : ℕ} {cuts : Finset ℕ} {receipt : SpanReceipt}
    (tracks : Tracks inspecting.spans inspecting.book.records activeEra windowStart cuts log)
    (fresh : inspecting.slashOf = 0 ∧ inspecting.paidOut = 0)
    (target : receipt.target = (inspecting.compareAndUpdateSpanSlash inspection slash).2)
    (compared : receipt.compared = slash)
    (proportion : receipt.proportion = inspection.rewardProportion)
    (slashed : receipt.slashed =
      (inspecting.compareAndUpdateSpanSlash inspection slash).1.slashOf)
    (paid : receipt.paid = (inspecting.compareAndUpdateSpanSlash inspection slash).1.paidOut) :
    Tracks (inspecting.compareAndUpdateSpanSlash inspection slash).1.spans
      (inspecting.compareAndUpdateSpanSlash inspection slash).1.book.records activeEra windowStart
      cuts (log ++ [receipt]) := by
  cases covered : inspecting.spans.eraSpan inspection.slashEra with
  | none =>
    rw [InspectingSpans.compare_of_none covered] at target ⊢
    apply tracks.compare
    · intro index found
      rw [target] at found
      contradiction
    · intro index
      rw [target]
      rfl
  | some index =>
    obtain ⟨found, effect⟩ := InspectingSpans.compare_of_some slash covered
    rw [found] at target
    have bounds := SlashingSpans.eraSpan_bounds covered
    have record := tracks.live index bounds.1 bounds.2
    refine Tracks.congr ?_ effect.spanIndex effect.lastStart effect.prior
    apply tracks.compare
    · intro other same
      obtain rfl : index = other := by simpa [target] using same
      refine ⟨bounds, ?_, ?_⟩
      · rw [slashed, effect.slashOf, fresh.1, compared, record, Nat.zero_add]
      · rw [paid, effect.paidOut, fresh.2, proportion, compared, Nat.zero_add]
        have limit := InspectingSpans.reward_le (inspecting.book.records index) inspection slash
        rw [record] at limit ⊢
        exact limit
    · intro other
      rw [effect.records, Function.update_apply, target, compared, paid, effect.paidOut, fresh.2,
        Nat.zero_add]
      by_cases here : other = index
      · rw [if_pos here, if_pos (by rw [here]), here]
      · rw [if_neg here, if_neg (by simpa [eq_comm] using here)]

/-- The comparison that an inspection with a slash makes. -/
def SpanBook.comparison (book : SpanBook) (inspection : Inspection) (slash : ℕ) :
    InspectingSpans × Option ℕ :=
  (fetchSpans book inspection.windowStart).compareAndUpdateSpanSlash inspection slash

/-- Ending the span changes no amount. -/
theorem SpanBook.slashInSpan_amounts (book : SpanBook) (inspection : Inspection) (slash : ℕ) :
    (book.slashInSpan inspection slash).slashed = (book.comparison inspection slash).1.slashOf ∧
      (book.slashInSpan inspection slash).paidOut =
        (book.comparison inspection slash).1.paidOut := by
  unfold SpanBook.slashInSpan SpanBook.comparison
  dsimp only
  split_ifs <;> exact ⟨rfl, rfl⟩

/-- Ending the ongoing span goes on record, if the offence falls into it, and so does what is
written back. -/
theorem SpanBook.Tracked.finish {inspecting : InspectingSpans} {windowStart : ℕ} {current : Prop}
    [Decidable current] {earlier : Finset ℕ}
    (tracks : Tracks inspecting.spans inspecting.book.records activeEra windowStart earlier log)
    (window : windowStart ≤ activeEra)
    (clean : inspecting.dirty = false → inspecting.book.spans = some inspecting.spans)
    (ongoing : current → inspecting.spans.lastStart ≤ activeEra)
    (ended : SpanReceipt.endedIn log = if current then insert activeEra earlier else earlier) :
    ((if current then inspecting.endSpan activeEra else inspecting).drop windowStart).Tracked
      activeEra windowStart log := by
  split_ifs at ended ⊢ with falls
  · refine SpanBook.Tracked.drop ?_ window fun untouched => ?_
    · rw [ended]
      exact tracks.endSpan window (ongoing falls)
    · rw [InspectingSpans.endSpan_dirty (ongoing falls)] at untouched
      contradiction
  · refine SpanBook.Tracked.drop ?_ window clean
    rw [ended]
    exact tracks

/-- An inspection with a slash goes on record. -/
theorem SpanBook.Tracked.slashInSpan {rewardProportion : Perbill}
    (tracked : book.Tracked activeEra (activeEra - bondingDuration) log)
    (before : slashEra ≤ activeEra) (slash : ℕ) {inspection : Inspection}
    (opened : inspection = inspectionAt bondingDuration activeEra slashEra rewardProportion) :
    (book.slashInSpan inspection slash).book.Tracked activeEra (activeEra - bondingDuration)
      (log ++ [.ofFinding inspection slash (book.slashInSpan inspection slash)]) := by
  obtain ⟨tracks, stored, fresh⟩ := tracked.fetch (Nat.sub_le _ _)
  obtain ⟨window, now, era⟩ : inspection.windowStart = activeEra - bondingDuration ∧
      inspection.now = activeEra ∧ inspection.slashEra = slashEra := by
    rw [opened]
    exact ⟨rfl, rfl, rfl⟩
  rw [← window] at tracks stored fresh ⊢
  obtain ⟨slashed, paid⟩ := book.slashInSpan_amounts inspection slash
  have inspected : Tracks _ _ _ _ _
      (log ++ [.ofFinding inspection slash (book.slashInSpan inspection slash)]) :=
    tracks.inspect fresh rfl rfl rfl slashed paid
  have shape : (book.slashInSpan inspection slash).book =
      (if (book.comparison inspection slash).2 =
          some (book.comparison inspection slash).1.spans.spanIndex then
        (book.comparison inspection slash).1.endSpan activeEra
      else (book.comparison inspection slash).1).drop inspection.windowStart := by
    rw [← now]
    rfl
  rw [shape]
  refine SpanBook.Tracked.finish inspected (window ▸ Nat.sub_le _ _) ?_ ?_ ?_
  · intro untouched
    unfold SpanBook.comparison at untouched ⊢
    cases covered : (fetchSpans book inspection.windowStart).spans.eraSpan inspection.slashEra with
    | none =>
      rw [InspectingSpans.compare_of_none covered]
      exact stored
    | some index =>
      obtain ⟨same, spans⟩ :=
        (InspectingSpans.compare_of_some slash covered).2.clean untouched
      rw [same, spans, stored]
  · intro current
    unfold SpanBook.comparison at current ⊢
    cases covered : (fetchSpans book inspection.windowStart).spans.eraSpan inspection.slashEra with
    | none =>
      rw [InspectingSpans.compare_of_none covered] at current
      contradiction
    | some index =>
      obtain ⟨found, effect⟩ := InspectingSpans.compare_of_some slash covered
      rw [found, effect.spanIndex] at current
      rw [effect.lastStart]
      rw [current] at covered
      exact (SlashingSpans.lastStart_le_of_eraSpan covered).trans (by omega)
  · rw [SpanReceipt.endedIn_append]
    change _ ∪ (if (book.slashInSpan inspection slash).current then some inspection.now
      else none).toFinset = _
    rw [now]
    change _ ∪ (if decide ((book.comparison inspection slash).2 =
      some (book.comparison inspection slash).1.spans.spanIndex) then some activeEra
      else none).toFinset = _
    split_ifs <;> simp_all

/-- An inspection without a slash goes on record. -/
theorem SpanBook.Tracked.kickOutIfRecent
    (tracked : book.Tracked activeEra (activeEra - bondingDuration) log)
    (before : slashEra ≤ activeEra) {inspection : Inspection} {rewardProportion : Perbill}
    (opened : inspection = inspectionAt bondingDuration activeEra slashEra rewardProportion) :
    (book.kickOutIfRecent inspection).1.Tracked activeEra (activeEra - bondingDuration)
      (log ++ [.ofKick inspection (book.kickOutIfRecent inspection).2]) := by
  obtain ⟨tracks, stored, -⟩ := tracked.fetch (Nat.sub_le _ _)
  obtain ⟨window, now, era⟩ : inspection.windowStart = activeEra - bondingDuration ∧
      inspection.now = activeEra ∧ inspection.slashEra = slashEra := by
    rw [opened]
    exact ⟨rfl, rfl, rfl⟩
  rw [← window] at tracks stored ⊢
  have recorded : Tracks (fetchSpans book inspection.windowStart).spans
      (fetchSpans book inspection.windowStart).book.records activeEra inspection.windowStart
      (SpanReceipt.endedIn log)
      (log ++ [.ofKick inspection (book.kickOutIfRecent inspection).2]) := by
    apply tracks.compare
    · intro index found
      contradiction
    · intro index
      rfl
  have shape : (book.kickOutIfRecent inspection).1 =
      (if (fetchSpans book inspection.windowStart).spans.eraSpan inspection.slashEra =
          some (fetchSpans book inspection.windowStart).spans.spanIndex then
        (fetchSpans book inspection.windowStart).endSpan activeEra
      else fetchSpans book inspection.windowStart).drop inspection.windowStart := by
    rw [← now]
    rfl
  rw [shape]
  refine SpanBook.Tracked.finish recorded (window ▸ Nat.sub_le _ _) (fun _ => stored) ?_ ?_
  · intro current
    exact (SlashingSpans.lastStart_le_of_eraSpan current).trans (era ▸ before)
  · rw [SpanReceipt.endedIn_append]
    change _ ∪ (if (book.kickOutIfRecent inspection).2 then some inspection.now
      else none).toFinset = _
    rw [now]
    change _ ∪ (if decide ((fetchSpans book inspection.windowStart).spans.eraSpan
      inspection.slashEra = some (fetchSpans book inspection.windowStart).spans.spanIndex) then
      some activeEra else none).toFinset = _
    split_ifs <;> simp_all

namespace SlashingSpans

/-- The spans before one carry the indices that count down from it. -/
theorem mem_index_priorSpans {start index other : ℕ} {lengths : List ℕ}
    (fits : lengths.length ≤ index) :
    other ∈ (priorSpans start index lengths).map (·.index) ↔
      index - lengths.length ≤ other ∧ other < index := by
  induction lengths generalizing start index with
  | nil =>
    simp only [priorSpans, List.map_nil, List.not_mem_nil, List.length_nil, false_iff]
    omega
  | cons length rest ih =>
    rw [List.length_cons] at fits ⊢
    simp only [priorSpans, List.map_cons, List.mem_cons]
    rw [ih (by omega)]
    omega

/-- The spans there are carry the indices from the earliest to the ongoing one. -/
theorem mem_index_iter {spans : SlashingSpans} {index : ℕ} :
    index ∈ spans.iter.map (·.index) ↔ spans.earliest ≤ index ∧ index ≤ spans.spanIndex := by
  have fits := spans.prior_le
  unfold iter earliest
  rw [List.map_cons, List.mem_cons, mem_index_priorSpans fits]
  dsimp only
  omega

end SlashingSpans

/-- Clearing the metadata of a stash leaves nothing behind. -/
theorem SpanBook.Tracked.clear {windowStart count : ℕ} {cleared : SpanBook}
    (tracked : book.Tracked activeEra windowStart log) (success : book.clear count = .ok cleared) :
    cleared.spans = none ∧ cleared.records = fun _ => default := by
  unfold SpanBook.Tracked at tracked
  unfold SpanBook.clear at success
  cases present : book.spans with
  | none =>
    rw [present] at tracked success
    obtain rfl := Except.ok.inj success
    exact ⟨present, tracked.2⟩
  | some spans =>
    rw [present] at tracked success
    simp only [bind_eq_ok, ensure_eq_ok, pure_eq_ok] at success
    obtain ⟨-, -, rfl⟩ := success
    refine ⟨rfl, ?_⟩
    funext index
    dsimp only
    split_ifs with listed
    · rfl
    · rw [SlashingSpans.mem_index_iter] at listed
      exact tracked.dead index (by omega)

/-- Every book stands for what happened to its stash since it was last cleared. -/
def BooksTracked (bondingDuration : ℕ) (state : BookState Account)
    (log : List (BookReceipt Account)) : Prop :=
  ∀ stash, (state.books stash).Tracked state.activeEra (state.activeEra - bondingDuration)
    (lifeOf log stash)

/-- Every step keeps every book. -/
theorem bookStep_tracked {state next : BookState Account} {log out : List (BookReceipt Account)}
    {call : BookCall Account} (tracked : BooksTracked bondingDuration state log)
    (taken : bookStep bondingDuration state call = .ok (next, out)) :
    BooksTracked bondingDuration next (log ++ out) := by
  have single : ∀ (stash : Account) (book : SpanBook) (receipt : Option SpanReceipt),
      next = { state with books := Function.update state.books stash book } →
      out = [⟨stash, receipt⟩] →
      book.Tracked state.activeEra (state.activeEra - bondingDuration)
        (match receipt with
          | some receipt => lifeOf log stash ++ [receipt]
          | none => []) →
      BooksTracked bondingDuration next (log ++ out) := by
    rintro stash book receipt rfl rfl held other
    rw [lifeOf_append]
    dsimp only
    rw [Function.update_apply]
    by_cases here : other = stash
    · rw [if_pos here, if_pos here.symm, here]
      exact held
    · rw [if_neg here, if_neg (Ne.symm here)]
      exact tracked other
  cases call with
  | nextEra =>
    simp only [bookStep, Except.ok.injEq, Prod.mk.injEq] at taken
    obtain ⟨rfl, rfl⟩ := taken
    intro stash
    rw [List.append_nil]
    refine (tracked stash).later (Nat.le_succ _) ?_
    dsimp only
    omega
  | slash stash slashEra slash rewardProportion =>
    simp only [bookStep] at taken
    split_ifs at taken with before
    simp only [Except.ok.injEq, Prod.mk.injEq] at taken
    obtain ⟨rfl, rfl⟩ := taken
    exact single stash _ (some _) rfl rfl ((tracked stash).slashInSpan before slash rfl)
  | kick stash slashEra =>
    simp only [bookStep] at taken
    split_ifs at taken with before
    simp only [Except.ok.injEq, Prod.mk.injEq] at taken
    obtain ⟨rfl, rfl⟩ := taken
    exact single stash _ (some _) rfl rfl ((tracked stash).kickOutIfRecent before rfl)
  | clear stash count =>
    simp only [bookStep] at taken
    split at taken
    · next cleared success =>
      simp only [Except.ok.injEq, Prod.mk.injEq] at taken
      obtain ⟨rfl, rfl⟩ := taken
      obtain ⟨none, empty⟩ := (tracked stash).clear success
      refine single stash cleared _ rfl rfl ?_
      unfold SpanBook.Tracked
      rw [none]
      exact ⟨rfl, empty⟩
    · contradiction

/-- The metadata before anything was reported. -/
def BookState.Initial (state : BookState Account) : Prop := ∀ stash, state.books stash = default

/-- Metadata that a run reaches from where nothing was reported, with what happened on the way. -/
def BooksReachable (bondingDuration : ℕ) (state : BookState Account)
    (log : List (BookReceipt Account)) : Prop :=
  (bookSystem Account bondingDuration).Reachable BookState.Initial (fun _ => True) state log

variable {state : BookState Account} {receipts : List (BookReceipt Account)}

theorem BooksReachable.tracked (reached : BooksReachable bondingDuration state receipts) :
    BooksTracked bondingDuration state receipts := by
  apply Machine.Reachable.invariant (BooksTracked bondingDuration) reached
  · intro source initial stash
    rw [initial stash]
    exact ⟨rfl, rfl⟩
  · intro current next log out call tracked _ taken
    exact bookStep_tracked tracked taken

/-- The history of a stash without spans is empty, and nothing is on record for it. -/
theorem SpanBook.Tracked.of_none {windowStart : ℕ} (tracked : book.Tracked activeEra windowStart log)
    (none : book.spans = none) : log = [] ∧ book.records = fun _ => default := by
  unfold SpanBook.Tracked at tracked
  rw [none] at tracked
  exact tracked

theorem SpanBook.Tracked.tracks {windowStart : ℕ} {spans : SlashingSpans}
    (tracked : book.Tracked activeEra windowStart log) (present : book.spans = some spans) :
    Tracks spans book.records activeEra windowStart (SpanReceipt.endedIn log) log := by
  unfold SpanBook.Tracked at tracked
  rw [present] at tracked
  exact tracked

/-- Every era since the start of the bonding period lies in one span of a stash and in no other. Its
index counts the eras before it that ended a span since the stash was last cleared. -/
theorem span_of_era (reached : BooksReachable bondingDuration state receipts) {stash : Account}
    {spans : SlashingSpans} (present : (state.books stash).spans = some spans) {era : ℕ}
    (inWindow : state.activeEra - bondingDuration ≤ era) :
    (spans.iter.filter (·.ContainsEra era)).map (·.index) =
      [cutRank (SpanReceipt.endedIn (lifeOf receipts stash)) era] := by
  have tracks := (reached.tracked stash).tracks present
  rw [SlashingSpans.containing_eq, tracks.cover era inWindow]
  rfl

/-- Two eras of the bonding period share a span exactly when no span of the stash was ended in the
earlier one or between them. -/
theorem eraSpan_eq_iff (reached : BooksReachable bondingDuration state receipts) {stash : Account}
    {spans : SlashingSpans} (present : (state.books stash).spans = some spans) {era later : ℕ}
    (inWindow : state.activeEra - bondingDuration ≤ era) (order : era ≤ later) :
    spans.eraSpan era = spans.eraSpan later ↔
      ∀ ended ∈ SpanReceipt.endedIn (lifeOf receipts stash), era ≤ ended → later ≤ ended := by
  have tracks := (reached.tracked stash).tracks present
  rw [tracks.cover era inWindow, tracks.cover later (inWindow.trans order), Option.some_inj]
  exact cutRank_eq_iff order

/-- A span has been slashed the highest amount that was ever compared with it, whatever came first,
and paid out no more than the reward proportion of one of these amounts. -/
theorem span_slashed (reached : BooksReachable bondingDuration state receipts) (stash : Account)
    (index : ℕ) :
    SpanReceipt.slashedIn (lifeOf receipts stash) index =
        SpanReceipt.highest (lifeOf receipts stash) index ∧
      ∀ bound, (∀ receipt ∈ lifeOf receipts stash, receipt.target = some index →
        receipt.proportion.mul receipt.compared ≤ bound) →
        SpanReceipt.paidIn (lifeOf receipts stash) index ≤ bound := by
  cases present : (state.books stash).spans with
  | none =>
    rw [((reached.tracked stash).of_none present).1]
    exact ⟨rfl, fun _ _ => Nat.zero_le _⟩
  | some spans =>
    have tracks := (reached.tracked stash).tracks present
    exact ⟨tracks.sums index, tracks.paid index⟩

/-- A record is there only for a span that is there, and then it tells what the span was slashed and
what was paid out for it. -/
theorem record_of_span (reached : BooksReachable bondingDuration state receipts) (stash : Account)
    (index : ℕ) :
    (state.books stash).records index =
      if ∃ spans ∈ (state.books stash).spans, index ∈ spans.iter.map (·.index) then
        ⟨SpanReceipt.slashedIn (lifeOf receipts stash) index,
          SpanReceipt.paidIn (lifeOf receipts stash) index⟩
      else default := by
  cases present : (state.books stash).spans with
  | none =>
    rw [((reached.tracked stash).of_none present).2, if_neg]
    rintro ⟨spans, absent, -⟩
    contradiction
  | some spans =>
    have tracks := (reached.tracked stash).tracks present
    split_ifs with listed
    · obtain ⟨other, same, member⟩ := listed
      obtain rfl := Option.some.inj same
      rw [SlashingSpans.mem_index_iter] at member
      rw [tracks.live index member.1 member.2, tracks.sums]
    · apply tracks.dead
      by_contra inside
      push Not at inside
      exact listed ⟨spans, rfl, SlashingSpans.mem_index_iter.mpr inside⟩

/-- A stash is slashed in three spans, the first of which is compared three times. -/
def threeSpans : List (BookCall ℕ) :=
  [.slash 7 0 10 (.fromRational 1 2), .slash 7 0 25 (.fromRational 1 2), .nextEra,
    .slash 7 1 5 (.fromRational 1 2), .nextEra, .slash 7 0 30 (.fromRational 1 2), .kick 7 2,
    .nextEra]

/-- Where the calls lead from where nothing was reported, if all of them happen. -/
def bookOutcome (calls : List (BookCall ℕ)) : BookState ℕ × List (BookReceipt ℕ) :=
  (bookSystem ℕ 3).outcome ⟨fun _ => default, 0⟩ calls

theorem bookOutcome_reachable (calls : List (BookCall ℕ))
    (happens : ((bookSystem ℕ 3).replay ⟨fun _ => default, 0⟩ calls).isOk = true) :
    BooksReachable 3 (bookOutcome calls).1 (bookOutcome calls).2 := by
  apply Machine.outcome_reachable
  · exact fun _ => rfl
  · exact fun _ _ => trivial
  · exact happens

/-- Era two lies in the third span. -/
theorem threeSpans_span : ∃ spans, ((bookOutcome threeSpans).1.books 7).spans = some spans ∧
    (spans.iter.filter (·.ContainsEra 2)).map (·.index) = [2] := by
  have reached := bookOutcome_reachable threeSpans (by decide +kernel)
  have some : ((bookOutcome threeSpans).1.books 7).spans.isSome = true := by decide +kernel
  obtain ⟨spans, present⟩ := Option.isSome_iff_exists.mp some
  refine ⟨spans, present, (span_of_era reached present (by decide +kernel)).trans ?_⟩
  decide +kernel

/-- The first span is slashed 30 in all, and half of it is paid out at most. -/
theorem threeSpans_slashed :
    SpanReceipt.slashedIn (lifeOf (bookOutcome threeSpans).2 7) 0 = 30 ∧
      SpanReceipt.paidIn (lifeOf (bookOutcome threeSpans).2 7) 0 ≤ 15 := by
  have reached := bookOutcome_reachable threeSpans (by decide +kernel)
  obtain ⟨slashed, paid⟩ := span_slashed reached 7 0
  have highest : SpanReceipt.highest (lifeOf (bookOutcome threeSpans).2 7) 0 = 30 := by
    decide +kernel
  exact ⟨slashed.trans highest, paid 15 (by decide +kernel)⟩

/-- The record of the first span tells both, and there is none of a fifth. -/
theorem threeSpans_record :
    (((bookOutcome threeSpans).1.books 7).records 0).slashed = 30 ∧
      ((bookOutcome threeSpans).1.books 7).records 4 = default := by
  have reached := bookOutcome_reachable threeSpans (by decide +kernel)
  have first := record_of_span reached 7 0
  have fifth := record_of_span reached 7 4
  rw [if_pos (by decide +kernel)] at first
  rw [if_neg (by decide +kernel)] at fifth
  rw [first]
  exact ⟨by decide +kernel, fifth⟩

end GlitchRuntime.Staking
