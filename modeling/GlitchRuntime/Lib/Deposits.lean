import GlitchRuntime.Lib.Currency

/-! # Deposits in a row

A deposit is credited in full or not at all: what would leave dust or overflow is lost. Deposits to
different accounts do not see each other. Two deposits to one account may, as the first one can
create the account for the second or take up its room, and then their order shows.
-/

namespace GlitchRuntime.Lib

/-! ## Amounts -/

/-- What reaches an account with so much in total and so much free. -/
def landing (minimum total free amount : ℕ) : ℕ :=
  if amount = 0 ∨ (minimum ≤ total ∨ minimum ≤ amount) ∧ free + amount < 2 ^ 128 then amount else 0

/-- What reaches it of two deposits. -/
def landings (minimum total free first second : ℕ) : ℕ :=
  landing minimum total free first + landing minimum (total + landing minimum total free first)
    (free + landing minimum total free first) second

/-- The order of two deposits does not show: there is only one, they are equal, both find room, or
both or neither create the account. -/
def Interchangeable (minimum total free first second : ℕ) : Prop :=
  first = 0 ∨ second = 0 ∨ first = second ∨
    if minimum ≤ total then
      free + first < 2 ^ 128 → free + second < 2 ^ 128 → free + first + second < 2 ^ 128
    else minimum ≤ first ↔ minimum ≤ second

instance (minimum total free first second : ℕ) :
    Decidable (Interchangeable minimum total free first second) :=
  inferInstanceAs (Decidable (first = 0 ∨ second = 0 ∨ first = second ∨
    if minimum ≤ total then
      free + first < 2 ^ 128 → free + second < 2 ^ 128 → free + first + second < 2 ^ 128
    else (minimum ≤ first ↔ minimum ≤ second)))

section landings

variable {minimum total free first second : ℕ}

theorem landing_alive {amount : ℕ} (alive : minimum ≤ total) :
    landing minimum total free amount = if free + amount < 2 ^ 128 then amount else 0 := by
  unfold landing
  split_ifs <;> omega

theorem landing_dead {amount : ℕ} (small : amount < 2 ^ 128) :
    landing minimum 0 0 amount = if minimum ≤ amount then amount else 0 := by
  unfold landing
  split_ifs <;> omega

/-- Where the account is alive, the order shows if either fits and both do not. -/
theorem landings_alive_iff (alive : minimum ≤ total) :
    landings minimum total free first second = landings minimum total free second first ↔
      first = second ∨
        (free + first < 2 ^ 128 → free + second < 2 ^ 128 → free + first + second < 2 ^ 128) := by
  unfold landings
  rw [landing_alive alive, landing_alive (by omega), landing_alive alive, landing_alive (by omega)]
  split_ifs <;> omega

/-- Where it is dead, the order shows if one creates it and the other does not. -/
theorem landings_dead_iff (some_first : 0 < first) (some_second : 0 < second)
    (fits : first + second < 2 ^ 128) (minimal : 0 < minimum) :
    landings minimum 0 0 first second = landings minimum 0 0 second first ↔
      (minimum ≤ first ↔ minimum ≤ second) := by
  unfold landings
  rw [landing_dead (by omega), landing_dead (by omega)]
  unfold landing
  split_ifs <;> omega

theorem landings_comm_iff (settled : total = 0 ∨ minimum ≤ total) (part : free ≤ total)
    (fits : first + second < 2 ^ 128) :
    landings minimum total free first second = landings minimum total free second first ↔
      Interchangeable minimum total free first second := by
  rcases Nat.eq_zero_or_pos first with rfl | some_first
  · simp [Interchangeable, landings, landing]
  rcases Nat.eq_zero_or_pos second with rfl | some_second
  · simp [Interchangeable, landings, landing]
  rw [Interchangeable]
  split_ifs with alive
  · rw [landings_alive_iff alive]
    omega
  · obtain rfl : total = 0 := settled.resolve_right alive
    obtain rfl : free = 0 := by omega
    rw [landings_dead_iff some_first some_second fits (by omega)]
    omega

end landings

namespace Currency

variable {Account : Type} [DecidableEq Account] {currency : Currency Account}

/-- An account is dead, or holds the minimum. -/
def SettledAt (currency : Currency Account) (store : currency.Store) (who : Account) : Prop :=
  currency.totalBalance store who = 0 ∨
    currency.minimumBalance ≤ currency.totalBalance store who

/-- Every account is dead, or holds the minimum. -/
def Settled (currency : Currency Account) (store : currency.Store) : Prop :=
  ∀ who, currency.SettledAt store who

/-- What a deposit credits where accounts are settled, and that it moves one total with it. -/
structure CreatesExactly (currency : Currency Account) : Prop where
  credited : ∀ store who amount, currency.SettledAt store who →
    (currency.depositCreating store who amount).2 = if currency.Lands store who amount then amount else 0
  total : ∀ store who amount, currency.SettledAt store who → ∀ account,
    currency.totalBalance (currency.depositCreating store who amount).1 account =
      currency.totalBalance store account +
        if account = who then (currency.depositCreating store who amount).2 else 0
  dropped : ∀ store amount account,
    currency.totalBalance (currency.dropPositive store amount) account =
      currency.totalBalance store account
  free_le : ∀ store who, currency.freeBalance store who ≤ currency.totalBalance store who

/-- A deposit with its imbalance dropped, which mints it. -/
def mint (currency : Currency Account) (store : currency.Store) (who : Account) (amount : ℕ) :
    currency.Store :=
  currency.dropPositive (currency.depositCreating store who amount).1
    (currency.depositCreating store who amount).2

/-- Two stores with the same balances and issuance. -/
structure SameFigures (currency : Currency Account) (left right : currency.Store) : Prop where
  free : ∀ account, currency.freeBalance left account = currency.freeBalance right account
  total : ∀ account, currency.totalBalance left account = currency.totalBalance right account
  issuance : currency.totalIssuance left = currency.totalIssuance right

theorem SameFigures.refl (store : currency.Store) : currency.SameFigures store store :=
  ⟨fun _ => rfl, fun _ => rfl, rfl⟩

/-- How much of a deposit reaches an account. -/
def landed (currency : Currency Account) (store : currency.Store) (who : Account) (amount : ℕ) : ℕ :=
  landing currency.minimumBalance (currency.totalBalance store who)
    (currency.freeBalance store who) amount

section mint

variable (exact : currency.CreatesExactly) {store : currency.Store} {who : Account} {amount : ℕ}
  (settled : currency.SettledAt store who)
include exact settled

theorem mint_free (account : Account) : currency.freeBalance (currency.mint store who amount) account =
    currency.freeBalance store account +
      if account = who then currency.landed store who amount else 0 := by
  have credits := (currency.depositCreating_credits store who amount).1
  rw [mint, currency.dropPositive_free, credits.free, exact.credited store who amount settled]
  rfl

theorem mint_total (account : Account) :
    currency.totalBalance (currency.mint store who amount) account =
      currency.totalBalance store account +
        if account = who then currency.landed store who amount else 0 := by
  rw [mint, exact.dropped, exact.total store who amount settled,
    exact.credited store who amount settled]
  rfl

theorem mint_issuance : currency.totalIssuance (currency.mint store who amount) =
    saturatingRaise (currency.totalIssuance store) (currency.landed store who amount) := by
  have credits := (currency.depositCreating_credits store who amount).1
  rw [mint, currency.dropPositive_issuance, credits.issuance,
    exact.credited store who amount settled]
  rfl

end mint

/-- A deposit leaves every account settled. -/
theorem mint_settled (exact : currency.CreatesExactly) {store : currency.Store}
    (settled : currency.Settled store) (who : Account) (amount : ℕ) :
    currency.Settled (currency.mint store who amount) := by
  intro account
  have before := settled account
  unfold SettledAt at before ⊢
  rw [mint_total exact (settled who)]
  split_ifs with here
  · subst here
    unfold landed landing
    split_ifs with lands
    · rcases lands with rfl | ⟨alive | enough, -⟩
      · exact before
      · omega
      · omega
    · exact before
  · exact before

/-! ## Two deposits -/

section two

variable (exact : currency.CreatesExactly) {store : currency.Store}
  (settled : currency.Settled store) {who other : Account}
include exact settled

/-- A deposit does not see one to another account. -/
theorem landed_mint_apart (apart : who ≠ other) (amount more : ℕ) :
    currency.landed (currency.mint store other more) who amount =
      currency.landed store who amount := by
  rw [landed, mint_total exact (settled other), mint_free exact (settled other), if_neg apart,
    Nat.add_zero]
  rfl

/-- Two deposits to one account. -/
theorem landed_mint_self (first second : ℕ) :
    currency.landed store who first + currency.landed (currency.mint store who first) who second =
      landings currency.minimumBalance (currency.totalBalance store who)
        (currency.freeBalance store who) first second := by
  rw [landed, landed, mint_total exact (settled who), mint_free exact (settled who), if_pos rfl]
  rfl

/-- Two stores after two deposits have the same figures when on every account as much landed. -/
theorem sameFigures_of_landed {first second : ℕ}
    (free : ∀ account, (if account = who then currency.landed store who first else 0) +
        (if account = other then currency.landed (currency.mint store who first) other second
          else 0) =
      (if account = other then currency.landed store other second else 0) +
        if account = who then currency.landed (currency.mint store other second) who first else 0)
    (issuance : currency.landed store who first +
        currency.landed (currency.mint store who first) other second =
      currency.landed store other second +
        currency.landed (currency.mint store other second) who first) :
    currency.SameFigures (currency.mint (currency.mint store who first) other second)
      (currency.mint (currency.mint store other second) who first) := by
  have after := mint_settled exact settled who first
  have swapped := mint_settled exact settled other second
  constructor
  case free =>
    intro account
    have same := free account
    rw [mint_free exact (after other), mint_free exact (settled who),
      mint_free exact (swapped who), mint_free exact (settled other)]
    omega
  case total =>
    intro account
    have same := free account
    rw [mint_total exact (after other), mint_total exact (settled who),
      mint_total exact (swapped who), mint_total exact (settled other)]
    omega
  case issuance =>
    rw [mint_issuance exact (after other), mint_issuance exact (settled who),
      mint_issuance exact (swapped who), mint_issuance exact (settled other),
      saturatingRaise_raise, saturatingRaise_raise, issuance]

/-- Two deposits leave the same figures in either order, exactly when they are to different accounts
or interchangeable. -/
theorem mint_comm_iff {first second : ℕ} (fits : first + second < 2 ^ 128) :
    currency.SameFigures (currency.mint (currency.mint store who first) other second)
        (currency.mint (currency.mint store other second) who first) ↔
      who ≠ other ∨ Interchangeable currency.minimumBalance (currency.totalBalance store who)
        (currency.freeBalance store who) first second := by
  by_cases here : who = other
  · subst here
    rw [← landings_comm_iff (settled who) (exact.free_le store who) fits,
      ← landed_mint_self exact settled, ← landed_mint_self exact settled]
    constructor
    · intro same
      have after := mint_settled exact settled who first
      have swapped := mint_settled exact settled who second
      have balance := same.free who
      rw [mint_free exact (after who), mint_free exact (settled who),
        mint_free exact (swapped who), mint_free exact (settled who)] at balance
      simp only [if_true] at balance
      omega
    · rintro (apart | same)
      · exact absurd rfl apart
      · apply sameFigures_of_landed exact settled
        · intro account
          split_ifs <;> omega
        · exact same
  · apply iff_of_true _ (.inl here)
    apply sameFigures_of_landed exact settled
    · intro account
      rw [landed_mint_apart exact settled here, landed_mint_apart exact settled (Ne.symm here)]
      omega
    · rw [landed_mint_apart exact settled here, landed_mint_apart exact settled (Ne.symm here)]
      omega

end two

end Currency

/-! ## A currency of 128 bits

The reference currency, with deposits that would overflow lost. -/

namespace ReferenceCurrency

variable {Account : Type} [DecidableEq Account]

/-- Credit an account unless it then holds less than the minimum or too much. -/
def depositBounded (minimum : ℕ) (balances : Balances Account) (who : Account) (amount : ℕ) :
    Balances Account × ℕ :=
  if balances.free who + amount < 2 ^ 128 then deposit minimum balances who amount
  else (balances, 0)

/-- The operations of the bounded currency. -/
@[reducible] def boundedOps (Account : Type) [DecidableEq Account] (minimum : ℕ) :
    CurrencyOps Account :=
  { ops Account minimum with depositCreating := depositBounded minimum }

end ReferenceCurrency

open ReferenceCurrency in
/-- The bounded currency with a given minimum balance. -/
@[reducible] def boundedCurrency (Account : Type) [DecidableEq Account] (minimum : ℕ) :
    Currency Account where
  toCurrencyOps := boundedOps Account minimum
  depositCreating_credits store who amount := by
    change CurrencyOps.Credits _ store (depositBounded minimum store who amount).1 who
      (depositBounded minimum store who amount).2 ∧
        (depositBounded minimum store who amount).2 ≤ amount
    unfold depositBounded
    split_ifs
    · obtain ⟨credits, within⟩ :=
        (referenceCurrency Account minimum).depositCreating_credits store who amount
      exact ⟨⟨credits.free, credits.issuance⟩, within⟩
    · exact ⟨⟨fun account => by simp, rfl⟩, Nat.zero_le _⟩
  depositIntoExisting_credits store who amount after credited success := by
    obtain ⟨credits, within⟩ := (referenceCurrency Account minimum).depositIntoExisting_credits
      store who amount after credited success
    exact ⟨⟨credits.free, credits.issuance⟩, within⟩
  withdraw_debits store who amount after debited success := by
    obtain ⟨debits, whole⟩ := (referenceCurrency Account minimum).withdraw_debits
      store who amount after debited success
    exact ⟨⟨debits.free, debits.issuance⟩, whole⟩
  transfer_moves := (referenceCurrency Account minimum).transfer_moves
  dropPositive_free _ _ _ := rfl
  dropPositive_issuance _ _ := rfl
  dropNegative_free _ _ _ := rfl
  dropNegative_issuance _ _ := rfl
  setLock_still _ _ _ := .refl _
  removeLock_still _ _ := .refl _
  incConsumers_still _ _ _ success := by
    obtain rfl := Option.some.inj success
    exact .refl _
  decConsumers_still _ _ := .refl _

theorem boundedCurrency_createsExactly (Account : Type) [DecidableEq Account] (minimum : ℕ) :
    (boundedCurrency Account minimum).CreatesExactly where
  credited store who amount settled := by
    change store.free who = 0 ∨ minimum ≤ store.free who at settled
    have landing : (boundedCurrency Account minimum).Lands store who amount ↔ amount = 0 ∨
        (minimum ≤ store.free who ∨ minimum ≤ amount) ∧ store.free who + amount < 2 ^ 128 :=
      Iff.rfl
    change (ReferenceCurrency.depositBounded minimum store who amount).2 = _
    unfold ReferenceCurrency.depositBounded ReferenceCurrency.deposit
    by_cases lands : (boundedCurrency Account minimum).Lands store who amount
    · rw [if_pos lands]
      rw [landing] at lands
      split_ifs <;> simp only
      all_goals omega
    · rw [if_neg lands]
      rw [landing] at lands
      split_ifs <;> simp only
      omega
  total store who amount _ account :=
    ((boundedCurrency Account minimum).depositCreating_credits store who amount).1.free account
  dropped _ _ _ := rfl
  free_le _ _ := le_rfl

end GlitchRuntime.Lib
