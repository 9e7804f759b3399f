import GlitchRuntime.Lib.Imbalances
import GlitchRuntime.Staking.Offences

/-! # Where slashed money goes

Applying a slash takes from the balances of those it names and from no one else. All of what it took
goes to the reporters in equal parts, to the treasury, or out of the issuance.
-/

namespace GlitchRuntime.Staking

open Lib

variable {Account : Type} [DecidableEq Account] {config : SlashConfig Account}

/-! ## What is taken -/

/-- What a list of slashes took from free balances, with the imbalance that stands for it. -/
structure Takes (before after : OffenceState config) (collected left : Collected)
    (debits : List (Credit Account)) : Prop where
  moved : config.currency.CreditsAll after.store before.store debits
  backed : Credit.total debits + collected.slashedImbalance ≤ left.slashedImbalance
  payout : left.rewardPayout ≤ collected.rewardPayout

theorem Takes.append {first second third : OffenceState config}
    {collected middle left : Collected} {early late : List (Credit Account)}
    (before : Takes first second collected middle early)
    (after : Takes second third middle left late) :
    Takes first third collected left (early ++ late) where
  moved := by
    constructor
    · intro account
      rw [before.moved.free, after.moved.free, Credit.totalTo_append]
      omega
    · exact before.moved.issuance.trans after.moved.issuance
  backed := by
    have here := before.backed
    have there := after.backed
    rw [Credit.total_append]
    omega
  payout := after.payout.trans before.payout

/-- One entry takes from no balance but its own stash. -/
theorem doSlash_takes (state : OffenceState config) (collected : Collected) (slashEra : ℕ)
    (entry : Account × ℕ) :
    ∃ debits, Takes state (doSlash state collected slashEra entry).1 collected
        (doSlash state collected slashEra entry).2 debits ∧
      ∀ debit ∈ debits, debit.account = entry.1 := by
  have untouched : ∃ debits, Takes state state collected collected debits ∧
      ∀ debit ∈ debits, debit.account = entry.1 := by
    refine ⟨[], ⟨.nil _, by simp, le_rfl⟩, ?_⟩
    intro debit member
    exact absurd member List.not_mem_nil
  unfold doSlash
  split
  · exact untouched
  · next controller isBonded =>
    split
    · exact untouched
    · next ledger isLedger =>
      rcases ledger.slash config.arithmetic entry.2 slashEra with ⟨slashed, value⟩
      have debited := config.slash_debits state.store entry.1 value
      rcases config.slash state.store entry.1 value with ⟨store, imbalance, missing⟩
      obtain ⟨free, within, credits⟩ := debited
      by_cases nothing : value = 0
      · simp only [if_pos nothing]
        exact untouched
      · simp only [if_neg nothing]
        have still := config.currency.setLock_still (config.slash state.store entry.1 value).1
          slashed.stash slashed.total
        refine ⟨[⟨entry.1, free⟩], ⟨⟨?_, ?_⟩, ?_, Nat.sub_le _ _⟩, ?_⟩
        · intro account
          rw [Credit.totalTo_cons, Credit.totalTo_nil, Nat.add_zero]
          exact (credits.free account).trans (congrArg (· + _) (still.free account).symm)
        · exact credits.issuance.trans still.issuance.symm
        · rw [Credit.total_cons, Credit.total_nil, Nat.add_zero, Nat.add_comm]
          exact Nat.add_le_add_left within _
        · intro debit member
          rw [List.mem_singleton.mp member]

/-- A list of entries takes from no balance but those of its stashes. -/
theorem doSlashes_takes (slashEra : ℕ) (entries : List (Account × ℕ)) (state : OffenceState config)
    (collected : Collected) :
    ∃ debits, Takes state (doSlashes slashEra entries state collected).1 collected
        (doSlashes slashEra entries state collected).2 debits ∧
      ∀ debit ∈ debits, debit.account ∈ entries.map (·.1) := by
  induction entries generalizing state collected with
  | nil =>
    refine ⟨[], ⟨.nil _, by simp [doSlashes], le_rfl⟩, ?_⟩
    intro debit member
    exact absurd member List.not_mem_nil
  | cons entry rest ih =>
    obtain ⟨early, takes, own⟩ := doSlash_takes state collected slashEra entry
    obtain ⟨late, more, others⟩ := ih (doSlash state collected slashEra entry).1
      (doSlash state collected slashEra entry).2
    refine ⟨early ++ late, takes.append more, ?_⟩
    intro debit member
    rw [List.map_cons, List.mem_cons]
    rcases List.mem_append.mp member with here | there
    · exact .inl (own debit here)
    · exact .inr (others debit there)

/-! ## What is paid -/

/-- Every reporter is paid the same share as long as it lasts, and the rest is left. -/
theorem payEach_resolves (perReporter : ℕ) (reporters : List Account)
    (store : config.currency.Store) {rewardPayout : ℕ}
    (lasts : perReporter * reporters.length ≤ rewardPayout) :
    (payEach config perReporter reporters store rewardPayout).2 =
        rewardPayout - perReporter * reporters.length ∧
      ∃ credits, config.currency.Resolves store
          (payEach config perReporter reporters store rewardPayout).1
          (perReporter * reporters.length) credits ∧
        credits.map (·.account) = reporters ∧ ∀ credit ∈ credits, credit.amount ≤ perReporter := by
  induction reporters generalizing store rewardPayout with
  | nil => exact ⟨by simp [payEach], [], .nothing store, rfl, by simp⟩
  | cons reporter rest ih =>
    rw [List.length_cons, Nat.mul_succ] at lasts ⊢
    have whole : min rewardPayout perReporter = perReporter := min_eq_right (by omega)
    have first := config.currency.deposit_resolves store reporter perReporter
    simp only [payEach, whole]
    obtain ⟨left, credits, resolves, paid, bounded⟩ :=
      ih (resolveCreating config store reporter perReporter)
        (show perReporter * rest.length ≤ rewardPayout - perReporter by omega)
    refine ⟨by omega,
      ⟨reporter, (config.currency.depositCreating store reporter perReporter).2⟩ :: credits, ?_, ?_,
      ?_⟩
    · rw [Nat.add_comm]
      exact first.append resolves
    · rw [List.map_cons, paid]
    · intro credit member
      rcases List.mem_cons.mp member with rfl | later
      · exact (config.currency.depositCreating_credits store reporter perReporter).2
      · exact bounded credit later

/-- What is left over goes to the treasury, unless it is nothing. -/
theorem onUnbalanced_resolves (store : config.currency.Store) (amount : ℕ) :
    ∃ credits, config.currency.Resolves store (onUnbalanced config store amount) amount credits ∧
      ∀ credit ∈ credits, credit.account = config.treasury := by
  unfold onUnbalanced
  split_ifs with nothing
  · rw [nothing]
    exact ⟨[], .nothing store, by simp⟩
  · refine ⟨_, config.currency.deposit_resolves store config.treasury amount, ?_⟩
    intro credit member
    rw [List.mem_singleton.mp member]

/-- All that was collected is resolved: each reporter gets at most an equal part of the payout, and
the treasury the rest. -/
theorem payReporters_resolves (store : config.currency.Store) (collected : Collected)
    (reporters : List Account) :
    ∃ rewards rest, config.currency.Resolves store (payReporters config store collected reporters)
        collected.slashedImbalance (rewards ++ rest) ∧
      (∀ credit ∈ rest, credit.account = config.treasury) ∧
      (rewards = [] ∨ rewards.map (·.account) = reporters) ∧
      ∀ credit ∈ rewards, credit.amount ≤
        min collected.rewardPayout collected.slashedImbalance / reporters.length := by
  unfold payReporters
  dsimp only
  split_ifs with none
  · obtain ⟨rest, resolves, treasury⟩ := onUnbalanced_resolves store collected.slashedImbalance
    exact ⟨[], rest, resolves, treasury, .inl rfl, by simp⟩
  · have bound := min_le_right collected.rewardPayout collected.slashedImbalance
    generalize min collected.rewardPayout collected.slashedImbalance = payout at *
    obtain ⟨left, rewards, resolves, paid, shares⟩ := payEach_resolves
      (payout / reporters.length) reporters store (Nat.div_mul_le_self payout reporters.length)
    obtain ⟨rest, remaining, treasury⟩ := onUnbalanced_resolves
      (payEach config (payout / reporters.length) reporters store payout).1
      (collected.slashedImbalance - payout +
        (payEach config (payout / reporters.length) reporters store payout).2)
    refine ⟨rewards, rest, ?_, treasury, .inr paid, shares⟩
    have split : collected.slashedImbalance = payout / reporters.length * reporters.length +
        (collected.slashedImbalance - payout +
          (payEach config (payout / reporters.length) reporters store payout).2) := by
      have whole := Nat.div_mul_le_self payout reporters.length
      rw [left]
      omega
    have both := resolves.append remaining
    rw [← split] at both
    exact both

/-- How the money moves when a slash is applied: what was taken, from whom, and where it went. -/
structure Conserves (before after : OffenceState config) (unapplied : UnappliedSlash Account)
    (slashed : ℕ) (debits rewards rest : List (Credit Account)) : Prop where
  free : ∀ account,
    config.currency.freeBalance after.store account + Credit.totalTo debits account =
      config.currency.freeBalance before.store account +
        (Credit.totalTo rewards account + Credit.totalTo rest account)
  issuance : config.currency.totalIssuance after.store =
    config.currency.totalIssuance before.store -
      (slashed - (Credit.total rewards + Credit.total rest))
  taken : Credit.total debits ≤ slashed
  paid : Credit.total rewards + Credit.total rest ≤ slashed
  named : ∀ debit ∈ debits, debit.account ∈ unapplied.entries.map (·.1)
  treasury : ∀ credit ∈ rest, credit.account = config.treasury
  reporters : rewards = [] ∨ rewards.map (·.account) = unapplied.reporters
  shares : ∀ credit ∈ rewards, credit.amount ≤ unapplied.payout / unapplied.reporters.length

end GlitchRuntime.Staking
