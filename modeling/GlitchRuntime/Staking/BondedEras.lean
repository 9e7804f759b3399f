import GlitchRuntime.Staking.Deferral

/-! # The eras of the bonding period

Eras start one after the other, each in a later session. Those of the bonding period are on record
with their first sessions, and an offence is slashed for the one that its session belongs to.
-/

namespace GlitchRuntime.Staking

open Lib SlashReceipt

/-- Entries that count up from `first`, below a bound, are that many of the first. -/
theorem takeWhile_counting {entries : List (ℕ × ℕ)} {first : ℕ}
    (counting : entries.map (·.1) = List.range' first entries.length) (bound : ℕ) :
    entries.takeWhile (·.1 < bound) = entries.take (bound - first) := by
  induction entries generalizing first with
  | nil => simp
  | cons entry rest ih =>
    rw [List.map_cons, List.length_cons, List.range'_succ, List.cons.injEq] at counting
    obtain ⟨here, later⟩ := counting
    by_cases inside : first < bound
    · rw [List.takeWhile_cons_of_pos (by simpa [here] using inside), ih later,
        show bound - first = bound - (first + 1) + 1 by omega, List.take_succ_cons]
    · rw [List.takeWhile_cons_of_neg (by simpa [here] using inside),
        Nat.sub_eq_zero_of_le (not_lt.mp inside), List.take_zero]

/-- Dropping entries that count up leaves those from a bound on. -/
theorem filter_counting {entries : List (ℕ × ℕ)} {first : ℕ}
    (counting : entries.map (·.1) = List.range' first entries.length) (bound : ℕ) :
    entries.filter (bound ≤ ·.1) = entries.drop (bound - first) := by
  induction entries generalizing first with
  | nil => simp
  | cons entry rest ih =>
    rw [List.map_cons, List.length_cons, List.range'_succ, List.cons.injEq] at counting
    obtain ⟨here, later⟩ := counting
    by_cases inside : bound ≤ first
    · rw [List.filter_cons_of_pos (by simpa [here] using inside), ih later,
        Nat.sub_eq_zero_of_le inside, Nat.sub_eq_zero_of_le (inside.trans (Nat.le_succ _)),
        List.drop_zero, List.drop_zero]
    · rw [List.filter_cons_of_neg (by simpa [here] using inside), ih later,
        show bound - first = bound - (first + 1) + 1 by omega, List.drop_succ_cons]

/-- When the eras on record are the last ones that started, so they are once the next is pushed. -/
theorem keepBonded_eq (bondingDuration session : ℕ) {started : List (ℕ × ℕ)}
    (counting : started.map (·.1) = List.range started.length) :
    keepBonded bondingDuration started.length
        (started.drop (started.length - (bondingDuration + 1)) ++ [(started.length, session)]) =
      (started ++ [(started.length, session)]).drop
        ((started ++ [(started.length, session)]).length - (bondingDuration + 1)) := by
  have next : (started ++ [(started.length, session)]).map (·.1) =
      List.range (started ++ [(started.length, session)]).length := by
    rw [List.map_append, counting, List.length_append, List.length_singleton, List.range_succ]
    rfl
  rw [← List.drop_append_of_le_length (Nat.sub_le _ _)]
  have length : (started ++ [(started.length, session)]).length = started.length + 1 := by simp
  generalize started ++ [(started.length, session)] = all at *
  unfold keepBonded
  split_ifs with full
  · have rest : (all.drop (started.length - (bondingDuration + 1))).map (·.1) =
        List.range' (started.length - (bondingDuration + 1))
          (all.drop (started.length - (bondingDuration + 1))).length := by
      rw [List.map_drop, next, List.length_drop, List.range_eq_range', List.drop_range']
      simp
    rw [takeWhile_counting rest, List.length_take, List.drop_drop, List.length_drop]
    congr 1
    omega
  · congr 1
    omega

/-- How the eras on record stand to those that started. -/
structure BondedInv (bondingDuration : ℕ) {Account : Type} (queue : SlashQueue Account)
    (log : List (SlashReceipt Account)) : Prop where
  counting : (startedIn log).map (·.1) = List.range (startedIn log).length
  active : queue.activeEra = (startedIn log).getLast?.map (·.1)
  later : ((startedIn log).map (·.2)).Pairwise (· < ·)
  past : ∀ entry ∈ startedIn log, ∃ session ∈ queue.session, entry.2 ≤ session
  bonded : queue.bondedEras =
    (startedIn log).drop ((startedIn log).length - (bondingDuration + 1))

namespace BondedInv

variable {Account : Type} {bondingDuration : ℕ} {queue after : SlashQueue Account}
  {log out : List (SlashReceipt Account)}

/-- The eras that started are counted by the one that is next. -/
theorem next (inv : BondedInv bondingDuration queue log) :
    (queue.activeEra.map (· + 1)).getD 0 = (startedIn log).length := by
  rw [inv.active]
  have counting := inv.counting
  rcases List.eq_nil_or_concat (startedIn log) with none | ⟨before, entry, some⟩
  · simp [none]
  · rw [some] at counting ⊢
    have last : entry.1 = before.length := by
      have same := congrArg List.getLast? counting
      simpa [List.range_succ] using same
    simp [last]

/-- Nothing that starts an era moves the record. -/
theorem same (inv : BondedInv bondingDuration queue log) (quiet : startedIn out = [])
    (active : after.activeEra = queue.activeEra)
    (session : ∀ earlier ∈ queue.session, ∃ session ∈ after.session, earlier ≤ session)
    (bonded : after.bondedEras = queue.bondedEras) : BondedInv bondingDuration after (log ++ out) := by
  constructor
  all_goals rw [startedIn_append, quiet, List.append_nil]
  · exact inv.counting
  · exact active.trans inv.active
  · exact inv.later
  · intro entry member
    obtain ⟨earlier, present, bound⟩ := inv.past entry member
    obtain ⟨session, now, grows⟩ := session earlier present
    exact ⟨session, now, bound.trans grows⟩
  · exact bonded.trans inv.bonded

/-- An era that starts in a later session goes on record. -/
theorem start {activeEra session : ℕ} (inv : BondedInv bondingDuration queue log)
    (later : ∀ earlier ∈ queue.session, earlier < session)
    (next : activeEra = (queue.activeEra.map (· + 1)).getD 0)
    (started : startedIn out = [(activeEra, session)])
    (active : after.activeEra = some activeEra) (now : after.session = some session)
    (bonded : after.bondedEras =
      keepBonded bondingDuration activeEra (queue.bondedEras ++ [(activeEra, session)])) :
    BondedInv bondingDuration after (log ++ out) := by
  obtain rfl : activeEra = (startedIn log).length := next.trans inv.next
  constructor
  all_goals rw [startedIn_append, started]
  · rw [List.map_append, inv.counting, List.length_append, List.length_singleton, List.range_succ]
    rfl
  · rw [active]
    simp
  · rw [List.map_append, List.pairwise_append]
    refine ⟨inv.later, List.pairwise_singleton _ _, ?_⟩
    intro before member here same
    obtain ⟨entry, isEntry, rfl⟩ := List.mem_map.mp member
    obtain ⟨earlier, present, bound⟩ := inv.past entry isEntry
    obtain rfl : here = session := List.mem_singleton.mp same
    exact bound.trans_lt (later earlier present)
  · intro entry member
    refine ⟨session, now, ?_⟩
    rcases List.mem_append.mp member with early | last
    · obtain ⟨earlier, present, bound⟩ := inv.past entry early
      exact bound.trans (later earlier present).le
    · rw [List.mem_singleton.mp last]
  · rw [bonded, inv.bonded]
    exact keepBonded_eq bondingDuration session inv.counting

/-- Every step keeps the record. -/
theorem step [DecidableEq Account] {config : SlashConfig Account}
    (inv : BondedInv config.bondingDuration queue log)
    (taken : QueueStep config queue after out) :
    BondedInv config.bondingDuration after (log ++ out) := by
  cases taken with
  | idle => exact inv.same rfl rfl (fun earlier present => ⟨earlier, present, le_rfl⟩) rfl
  | session session later =>
    refine inv.same rfl rfl ?_ rfl
    intro earlier present
    exact ⟨session, rfl, (later earlier present).le⟩
  | quietEra session activeEra later next none => exact inv.start later next rfl rfl rfl rfl
  | era session activeEra earliest later next reported middle more applies =>
    have silent : startedIn more = [] := by
      apply List.filterMap_eq_nil_iff.mpr
      intro receipt member
      obtain ⟨era, unapplied, rfl, -⟩ := applies.only receipt member
      rfl
    refine inv.start later next ?_ applies.clock.1 applies.clock.2 applies.bondedEras
    change (activeEra, session) :: startedIn more = _
    rw [silent]
  | reported activeEra active middle more reports defers =>
    refine inv.same reports.started reports.clock.1 ?_ reports.bondedEras
    intro earlier present
    exact ⟨earlier, reports.clock.2.symm ▸ present, le_rfl⟩
  | cancelled era indices ascending inside =>
    refine inv.same ?_ rfl (fun earlier present => ⟨earlier, present, le_rfl⟩) rfl
    apply List.filterMap_eq_nil_iff.mpr
    intro receipt member
    obtain ⟨unapplied, -, rfl⟩ := List.mem_map.mp member
    rfl

end BondedInv

variable {Account : Type} [DecidableEq Account] {config : SlashConfig Account}

theorem OffenceReachable.bondedInv {state : OffenceState config} {log : List (SlashReceipt Account)}
    (reached : OffenceReachable state log) :
    BondedInv config.bondingDuration state.queue log := by
  apply Machine.Reachable.invariant
    (fun (state : OffenceState config) => BondedInv config.bondingDuration state.queue) reached
  · intro source initial
    refine ⟨rfl, ?_, List.Pairwise.nil, ?_, ?_⟩
    · change source.activeEra.map _ = none
      rw [initial.chain.activeEra]
      rfl
    · intro entry member
      exact absurd member List.not_mem_nil
    · change source.bondedEras = List.drop _ []
      rw [initial.bondedEras, List.drop_nil]
  · intro current next log out call inv _ taken
    exact inv.step (offenceStep_queue taken)

/-- In every run the eras start one after the other, each in a later session, and the eras on
record are the active one with as many before it as the bonding period is long. -/
theorem bondedEras_eq {state : OffenceState config} {log : List (SlashReceipt Account)}
    (reached : OffenceReachable state log) :
    (startedIn log).map (·.1) = List.range (startedIn log).length ∧
      ((startedIn log).map (·.2)).Pairwise (· < ·) ∧
      state.activeEra.map (·.index) = (startedIn log).getLast?.map (·.1) ∧
      state.bondedEras = (startedIn log).filter fun entry =>
        ∀ active ∈ state.activeEra, active.index ≤ entry.1 + config.bondingDuration := by
  have inv := reached.bondedInv
  refine ⟨inv.counting, inv.later, inv.active, ?_⟩
  have next := inv.next
  have bonded : state.bondedEras = _ := inv.bonded
  have counting := inv.counting
  rw [List.range_eq_range'] at counting
  rw [bonded, ← Nat.sub_zero (_ - (config.bondingDuration + 1)), ← filter_counting counting]
  change ((state.activeEra.map (·.index)).map (· + 1)).getD 0 = _ at next
  apply List.filter_congr
  intro entry member
  cases active : state.activeEra with
  | none =>
    rw [active] at next
    change 0 = _ at next
    rw [← next]
    simp
  | some info =>
    rw [active] at next
    change info.index + 1 = _ at next
    rw [← next]
    simp only [Option.mem_def, Option.some.injEq, forall_eq', decide_eq_decide]
    omega

/-- Six eras go by. -/
def sixEras : List (OffenceCall smallSlashConfig) :=
  .genesisSession (some quartet) (some quartet) sameQuartet ::
    List.replicate 5 (.rotateSession sameQuartet (some quartet))

theorem sixEras_bonded :
    (offenceOutcome sixEras).1.bondedEras = [(2, 2), (3, 3), (4, 4), (5, 5)] ∧
    (offenceOutcome sixEras).1.bondedEras =
      (startedIn (offenceOutcome sixEras).2).filter fun entry =>
        ∀ active ∈ (offenceOutcome sixEras).1.activeEra,
          active.index ≤ entry.1 + smallSlashConfig.bondingDuration := by
  have reached := offenceOutcome_reachable sixEras (by decide +kernel)
  exact ⟨by decide +kernel, (bondedEras_eq reached).2.2.2⟩

end GlitchRuntime.Staking
