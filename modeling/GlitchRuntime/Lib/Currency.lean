import Mathlib
import GlitchRuntime.Lib.Totals

/-! # A fungible currency with imbalances

Free balances, the total issuance, and the operations a runtime pallet uses on them. A deposit
leaves a positive imbalance: an amount credited before anything was debited. Settling an imbalance
withdraws as much from an account, so the issuance is touched by neither side. What is minted raises
the issuance no further than 128 bits go.
-/

namespace GlitchRuntime.Lib

/-- `saturating_add` of amounts of 128 bits. -/
def saturatingRaise (issuance amount : ℕ) : ℕ :=
  max issuance (min (issuance + amount) (2 ^ 128 - 1))

theorem saturatingRaise_of_lt {issuance amount : ℕ} (fits : issuance + amount < 2 ^ 128) :
    saturatingRaise issuance amount = issuance + amount := by
  unfold saturatingRaise
  omega

@[simp] theorem saturatingRaise_zero (issuance : ℕ) : saturatingRaise issuance 0 = issuance := by
  unfold saturatingRaise
  omega

/-- Raising twice is raising by the sum. -/
theorem saturatingRaise_raise (issuance first second : ℕ) :
    saturatingRaise (saturatingRaise issuance first) second =
      saturatingRaise issuance (first + second) := by
  unfold saturatingRaise
  omega

/-- The operations of a currency over its own storage. An imbalance is the amount it stands for. -/
structure CurrencyOps (Account : Type) where
  Store : Type
  freeBalance : Store → Account → ℕ
  totalBalance : Store → Account → ℕ
  totalIssuance : Store → ℕ
  minimumBalance : ℕ
  /-- Credit an account, creating it if need be; a credit that would stay dust is zero. -/
  depositCreating : Store → Account → ℕ → Store × ℕ
  /-- Credit an account that exists. -/
  depositIntoExisting : Store → Account → ℕ → Option (Store × ℕ)
  /-- Debit an account that has to stay alive. -/
  withdraw : Store → Account → ℕ → Option (Store × ℕ)
  /-- Move an amount, letting the sender die. -/
  transfer : Store → Account → Account → ℕ → Option Store
  /-- A positive imbalance that is dropped was minted. -/
  dropPositive : Store → ℕ → Store
  /-- A negative imbalance that is dropped was burned. -/
  dropNegative : Store → ℕ → Store
  setLock : Store → Account → ℕ → Store
  removeLock : Store → Account → Store
  incConsumers : Store → Account → Option Store
  decConsumers : Store → Account → Store

namespace CurrencyOps

variable {Account : Type} {ops : CurrencyOps Account}

/-- The free balances after are those before with `amount` more on `who`. -/
structure Credits [DecidableEq Account] (ops : CurrencyOps Account) (before after : ops.Store)
    (who : Account) (amount : ℕ) : Prop where
  free : ∀ account, ops.freeBalance after account =
    ops.freeBalance before account + if account = who then amount else 0
  issuance : ops.totalIssuance after = ops.totalIssuance before

/-- No free balance and no issuance moved. -/
structure Still (ops : CurrencyOps Account) (before after : ops.Store) : Prop where
  free : ∀ account, ops.freeBalance after account = ops.freeBalance before account
  issuance : ops.totalIssuance after = ops.totalIssuance before

namespace Still

theorem refl (store : ops.Store) : Still ops store store := ⟨fun _ => rfl, rfl⟩

theorem trans {first second third : ops.Store} (left : Still ops first second)
    (right : Still ops second third) : Still ops first third :=
  ⟨fun account => (right.free account).trans (left.free account),
    right.issuance.trans left.issuance⟩

end Still

end CurrencyOps

open CurrencyOps in
/-- A currency: its operations and what a caller may rely on. -/
structure Currency (Account : Type) [DecidableEq Account] extends CurrencyOps Account where
  depositCreating_credits : ∀ store who amount,
    Credits toCurrencyOps store (depositCreating store who amount).1 who
      (depositCreating store who amount).2 ∧ (depositCreating store who amount).2 ≤ amount
  depositIntoExisting_credits : ∀ store who amount after credited,
    depositIntoExisting store who amount = some (after, credited) →
      Credits toCurrencyOps store after who credited ∧ credited ≤ amount
  withdraw_debits : ∀ store who amount after debited,
    withdraw store who amount = some (after, debited) →
      Credits toCurrencyOps after store who debited ∧ debited = amount
  transfer_moves : ∀ store source target amount after, source ≠ target →
    transfer store source target amount = some after →
      freeBalance after target = freeBalance store target + amount
  dropPositive_free : ∀ store amount account,
    freeBalance (dropPositive store amount) account = freeBalance store account
  dropPositive_issuance : ∀ store amount,
    totalIssuance (dropPositive store amount) = saturatingRaise (totalIssuance store) amount
  dropNegative_free : ∀ store amount account,
    freeBalance (dropNegative store amount) account = freeBalance store account
  dropNegative_issuance : ∀ store amount,
    totalIssuance (dropNegative store amount) = totalIssuance store - amount
  setLock_still : ∀ store who amount, Still toCurrencyOps store (setLock store who amount)
  removeLock_still : ∀ store who, Still toCurrencyOps store (removeLock store who)
  incConsumers_still : ∀ store who after, incConsumers store who = some after →
    Still toCurrencyOps store after
  decConsumers_still : ∀ store who, Still toCurrencyOps store (decConsumers store who)

/-- An amount that reached the free balance of an account. -/
structure Credit (Account : Type) where
  account : Account
  amount : ℕ
deriving DecidableEq

namespace Credit

variable {Account : Type}

/-- The sum of the amounts. -/
def total (credits : List (Credit Account)) : ℕ :=
  (credits.map Credit.amount).sum

@[simp] theorem total_nil : total ([] : List (Credit Account)) = 0 := rfl

@[simp] theorem total_cons (head : Credit Account) (rest : List (Credit Account)) :
    total (head :: rest) = head.amount + total rest := rfl

@[simp] theorem total_append (first second : List (Credit Account)) :
    total (first ++ second) = total first + total second := by
  simp [total]

variable [DecidableEq Account]

/-- The sum of the amounts that one account received. -/
def totalTo (credits : List (Credit Account)) (account : Account) : ℕ :=
  (credits.map fun credit => if account = credit.account then credit.amount else 0).sum

@[simp] theorem totalTo_nil (account : Account) : totalTo [] account = 0 := rfl

@[simp] theorem totalTo_cons (head : Credit Account) (rest : List (Credit Account))
    (account : Account) : totalTo (head :: rest) account =
      (if account = head.account then head.amount else 0) + totalTo rest account := rfl

@[simp] theorem totalTo_append (first second : List (Credit Account)) (account : Account) :
    totalTo (first ++ second) account = totalTo first account + totalTo second account := by
  simp [totalTo]

theorem totalTo_finite (credits : List (Credit Account)) : FiniteTable (totalTo credits) := by
  induction credits with
  | nil => exact .blank
  | cons head rest ih =>
    apply (ih.insert head.account).subset
    intro account present
    rw [Function.mem_support, totalTo_cons] at present
    by_cases same : account = head.account
    · exact .inl same
    · rw [if_neg same, Nat.zero_add] at present
      exact .inr present

/-- What was credited in all is what all accounts received. -/
theorem finsum_totalTo (credits : List (Credit Account)) :
    ∑ᶠ account, totalTo credits account = total credits := by
  induction credits with
  | nil => simp
  | cons head rest ih =>
    have here : FiniteTable fun account : Account =>
        if account = head.account then head.amount else 0 := by
      apply (Set.finite_singleton head.account).subset
      intro account present
      by_contra other
      exact present (if_neg other)
    have single : (∑ᶠ account, if account = head.account then head.amount else 0) = head.amount := by
      rw [finsum_eq_single _ head.account fun other apart => if_neg apart, if_pos rfl]
    simp only [totalTo_cons, total_cons]
    rw [finsum_add_distrib here (totalTo_finite rest), single, ih]

end Credit

namespace CurrencyOps

variable {Account : Type} [DecidableEq Account] {ops : CurrencyOps Account}

/-- The free balances after are those before with every credit added where it is addressed. -/
structure CreditsAll (ops : CurrencyOps Account) (before after : ops.Store)
    (credits : List (Credit Account)) : Prop where
  free : ∀ account, ops.freeBalance after account =
    ops.freeBalance before account + Credit.totalTo credits account
  issuance : ops.totalIssuance after = ops.totalIssuance before

namespace CreditsAll

theorem nil (store : ops.Store) : CreditsAll ops store store [] := ⟨fun _ => rfl, rfl⟩

theorem single {before after : ops.Store} {credit : Credit Account}
    (credited : Credits ops before after credit.account credit.amount) :
    CreditsAll ops before after [credit] :=
  ⟨fun account => by simpa using credited.free account, credited.issuance⟩

theorem append {first second third : ops.Store} {early late : List (Credit Account)}
    (left : CreditsAll ops first second early) (right : CreditsAll ops second third late) :
    CreditsAll ops first third (early ++ late) where
  free account := by
    rw [right.free, left.free, Credit.totalTo_append, Nat.add_assoc]
  issuance := right.issuance.trans left.issuance

theorem still {first second third : ops.Store} {credits : List (Credit Account)}
    (left : CreditsAll ops first second credits) (right : Still ops second third) :
    CreditsAll ops first third credits :=
  ⟨fun account => (right.free account).trans (left.free account),
    right.issuance.trans left.issuance⟩

end CreditsAll

/-- The free balances and the issuance moved by some credits, minted, and some debits, burned. -/
structure Books (ops : CurrencyOps Account) (before after : ops.Store)
    (credits debits : List (Credit Account)) : Prop where
  free : ∀ account, ops.freeBalance after account + Credit.totalTo debits account =
    ops.freeBalance before account + Credit.totalTo credits account
  issuance : ops.totalIssuance after + Credit.total debits =
    ops.totalIssuance before + Credit.total credits

namespace Books

theorem nil (store : ops.Store) : Books ops store store [] [] := ⟨fun _ => rfl, rfl⟩

theorem append {first second third : ops.Store} {early late paid spent : List (Credit Account)}
    (left : Books ops first second early paid) (right : Books ops second third late spent) :
    Books ops first third (early ++ late) (paid ++ spent) where
  free account := by
    have before := left.free account
    have after := right.free account
    rw [Credit.totalTo_append, Credit.totalTo_append]
    omega
  issuance := by
    have before := left.issuance
    have after := right.issuance
    rw [Credit.total_append, Credit.total_append]
    omega

end Books

/-- The issuance covers all free balances. -/
structure Covered (ops : CurrencyOps Account) (store : ops.Store) : Prop where
  finite : FiniteTable (ops.freeBalance store)
  covers : ∑ᶠ account, ops.freeBalance store account ≤ ops.totalIssuance store

/-- What is minted and burned keeps the issuance covering the balances. -/
theorem Covered.books {before after : ops.Store} {credits debits : List (Credit Account)}
    (covered : Covered ops before) (books : Books ops before after credits debits) :
    Covered ops after := by
  have finite : FiniteTable (ops.freeBalance after) := by
    apply (covered.finite.union (Credit.totalTo_finite credits)).subset
    intro account present
    have moved := books.free account
    rw [Function.mem_support] at present
    by_contra absent
    rw [Set.mem_union, Function.mem_support, Function.mem_support] at absent
    omega
  refine ⟨finite, ?_⟩
  have moved : (∑ᶠ account, ops.freeBalance after account) + Credit.total debits =
      (∑ᶠ account, ops.freeBalance before account) + Credit.total credits := by
    rw [← Credit.finsum_totalTo, ← Credit.finsum_totalTo,
      ← finsum_add_distrib finite (Credit.totalTo_finite debits),
      ← finsum_add_distrib covered.finite (Credit.totalTo_finite credits)]
    exact finsum_congr books.free
  have issuance := books.issuance
  have covers := covered.covers
  omega

end CurrencyOps

namespace Currency

variable {Account : Type} [DecidableEq Account] (currency : Currency Account)

/-- A credit of nothing, or to an account that holds the minimum or is given it, without overflow
of 128 bits. -/
def Lands (store : currency.Store) (who : Account) (amount : ℕ) : Prop :=
  amount = 0 ∨
    (currency.minimumBalance ≤ currency.totalBalance store who ∨
      currency.minimumBalance ≤ amount) ∧ currency.freeBalance store who + amount < 2 ^ 128

instance (store : currency.Store) (who : Account) (amount : ℕ) :
    Decidable (currency.Lands store who amount) :=
  inferInstanceAs (Decidable (_ ∨ (_ ∨ _) ∧ _))

/-- A deposit that lands and whose imbalance the issuance has room for. -/
def Mints (store : currency.Store) (who : Account) (amount : ℕ) : Prop :=
  currency.Lands store who amount ∧ currency.totalIssuance store + amount < 2 ^ 128

instance (store : currency.Store) (who : Account) (amount : ℕ) :
    Decidable (currency.Mints store who amount) :=
  inferInstanceAs (Decidable (_ ∧ _))

/-- When a deposit credits everything, and when it credits nothing. -/
structure Deposits : Prop where
  full : ∀ store who amount, currency.Lands store who amount →
    (currency.depositCreating store who amount).2 = amount
  dust : ∀ store who amount, currency.totalBalance store who = 0 →
    amount < currency.minimumBalance → (currency.depositCreating store who amount).2 = 0

variable {currency} in
/-- A deposit in full, with its imbalance dropped, mints its amount to the account. -/
theorem Deposits.books (deposits : currency.Deposits) {store : currency.Store} {who : Account}
    {amount : ℕ} (mints : currency.Mints store who amount) :
    currency.Books store (currency.dropPositive (currency.depositCreating store who amount).1
      (currency.depositCreating store who amount).2) [⟨who, amount⟩] [] := by
  obtain ⟨credits, -⟩ := currency.depositCreating_credits store who amount
  rw [deposits.full store who amount mints.1] at credits ⊢
  constructor
  · intro account
    rw [currency.dropPositive_free, credits.free]
    simp
  · rw [currency.dropPositive_issuance, credits.issuance, saturatingRaise_of_lt mints.2]
    simp

/-- A withdrawal, with its imbalance dropped, burns its amount off the account. -/
theorem withdraw_books {store after : currency.Store} {who : Account} {amount imbalance : ℕ}
    (covered : currency.Covered store)
    (taken : currency.withdraw store who amount = some (after, imbalance)) :
    currency.Books store (currency.dropNegative after imbalance) [] [⟨who, amount⟩] := by
  obtain ⟨debits, rfl⟩ := currency.withdraw_debits _ _ _ _ _ taken
  have backed : imbalance ≤ currency.totalIssuance store := by
    have held := debits.free who
    rw [if_pos rfl] at held
    have entry := covered.finite.entry_le_total who
    have covers := covered.covers
    omega
  constructor
  · intro account
    rw [currency.dropNegative_free, debits.free account]
    simp
  · rw [currency.dropNegative_issuance, ← debits.issuance] at *
    simp only [Credit.total_cons, Credit.total_nil]
    omega

/-- Set a positive imbalance off against a withdrawal from `who`; what does not cancel is dropped. -/
def settle (store : currency.Store) (who : Account) (value : ℕ) : Option currency.Store :=
  match currency.withdraw store who value with
  | none => none
  | some (after, opposite) =>
    some (if opposite ≤ value then currency.dropPositive after (value - opposite)
      else currency.dropNegative after (opposite - value))

/-- Settling debits the account by the imbalance and neither mints nor burns. -/
theorem settle_debits {store after : currency.Store} {who : Account} {value : ℕ}
    (success : currency.settle store who value = some after) :
    currency.Credits after store who value := by
  simp only [settle] at success
  split at success
  · contradiction
  · next middle opposite taken =>
    obtain ⟨debits, rfl⟩ := currency.withdraw_debits _ _ _ _ _ taken
    rw [if_pos (Nat.le_refl _), Nat.sub_self] at success
    obtain rfl := Option.some.inj success
    refine ⟨fun account => ?_, ?_⟩
    · rw [currency.dropPositive_free]
      exact debits.free account
    · rw [currency.dropPositive_issuance, saturatingRaise_zero]
      exact debits.issuance

/-- A settlement is refused exactly when the withdrawal is. -/
theorem settle_eq_none_iff {store : currency.Store} {who : Account} {value : ℕ} :
    currency.settle store who value = none ↔ currency.withdraw store who value = none := by
  simp only [settle]
  split <;> simp_all

end Currency

/-! ## A reference currency

Free balances and the issuance only: no reserves, no locks, an account exists while its balance is
positive, and one whose balance falls below the minimum loses the rest as dust. -/

namespace ReferenceCurrency

variable {Account : Type}

/-- The storage of the reference currency. -/
structure Balances (Account : Type) where
  free : Account → ℕ
  issuance : ℕ

variable [DecidableEq Account]

/-- Put a balance in place. -/
def Balances.put (balances : Balances Account) (who : Account) (amount : ℕ) : Balances Account :=
  { balances with free := Function.update balances.free who amount }

@[simp] theorem Balances.put_free (balances : Balances Account) (who account : Account)
    (amount : ℕ) : (balances.put who amount).free account =
      if account = who then amount else balances.free account :=
  Function.update_apply ..

@[simp] theorem Balances.put_issuance (balances : Balances Account) (who : Account)
    (amount : ℕ) : (balances.put who amount).issuance = balances.issuance := rfl

/-- Credit an account unless what it then holds is below the minimum. -/
def deposit (minimum : ℕ) (balances : Balances Account) (who : Account) (amount : ℕ) :
    Balances Account × ℕ :=
  if balances.free who + amount < minimum then (balances, 0)
  else (balances.put who (balances.free who + amount), amount)

/-- Debit an account that keeps the minimum. -/
def debit (minimum : ℕ) (balances : Balances Account) (who : Account) (amount : ℕ) :
    Option (Balances Account × ℕ) :=
  if amount = 0 then some (balances, 0)
  else if balances.free who < amount + minimum then none
  else some (balances.put who (balances.free who - amount), amount)

/-- Move an amount; a sender left below the minimum loses the rest as dust. -/
def move (minimum : ℕ) (balances : Balances Account) (source target : Account) (amount : ℕ) :
    Option (Balances Account) :=
  if amount = 0 ∨ source = target then some balances
  else if balances.free source < amount ∨ balances.free target + amount < minimum then none
  else
    let moved := balances.put target (balances.free target + amount)
    let rest := balances.free source - amount
    if rest < minimum then some { moved.put source 0 with issuance := balances.issuance - rest }
    else some (moved.put source rest)

/-- The operations of the reference currency. -/
@[reducible] def ops (Account : Type) [DecidableEq Account] (minimum : ℕ) :
    CurrencyOps Account where
  Store := Balances Account
  freeBalance := Balances.free
  totalBalance := Balances.free
  totalIssuance := Balances.issuance
  minimumBalance := minimum
  depositCreating := deposit minimum
  depositIntoExisting balances who amount :=
    if balances.free who = 0 then none else some (deposit minimum balances who amount)
  withdraw := debit minimum
  transfer := move minimum
  dropPositive balances amount :=
    { balances with issuance := saturatingRaise balances.issuance amount }
  dropNegative balances amount := { balances with issuance := balances.issuance - amount }
  setLock balances _ _ := balances
  removeLock balances _ := balances
  incConsumers balances _ := some balances
  decConsumers balances _ := balances

private theorem deposit_credits (minimum : ℕ) (balances : Balances Account) (who : Account)
    (amount : ℕ) :
    (ops Account minimum).Credits balances (deposit minimum balances who amount).1 who
      (deposit minimum balances who amount).2 ∧ (deposit minimum balances who amount).2 ≤ amount := by
  unfold deposit
  split_ifs
  · exact ⟨⟨fun account => by simp, rfl⟩, Nat.zero_le _⟩
  · refine ⟨⟨fun account => ?_, rfl⟩, Nat.le_refl _⟩
    change (balances.put who _).free account = balances.free account + _
    rw [Balances.put_free]
    split_ifs with same
    · rw [same]
    · rfl

private theorem debit_debits {minimum : ℕ} {balances after : Balances Account} {who : Account}
    {amount debited : ℕ} (success : debit minimum balances who amount = some (after, debited)) :
    (ops Account minimum).Credits after balances who debited ∧ debited = amount := by
  unfold debit at success
  split_ifs at success with none_due short
  · obtain ⟨rfl, rfl⟩ := Prod.mk.inj (Option.some.inj success)
    exact ⟨⟨fun account => by simp, rfl⟩, none_due.symm⟩
  · obtain ⟨rfl, rfl⟩ := Prod.mk.inj (Option.some.inj success)
    refine ⟨⟨fun account => ?_, rfl⟩, rfl⟩
    change balances.free account = (balances.put who _).free account + _
    rw [Balances.put_free]
    split_ifs with same
    · rw [same]
      omega
    · rfl

private theorem move_moves {minimum : ℕ} {balances after : Balances Account}
    {source target : Account} {amount : ℕ} (apart : source ≠ target)
    (success : move minimum balances source target amount = some after) :
    after.free target = balances.free target + amount := by
  simp only [move] at success
  split_ifs at success with none_due
  · rw [← Option.some.inj success, none_due.resolve_right apart]
    rfl
  all_goals
    rw [← Option.some.inj success]
    simp [apart.symm]

end ReferenceCurrency

open ReferenceCurrency in
/-- The reference currency with a given minimum balance. -/
@[reducible] def referenceCurrency (Account : Type) [DecidableEq Account] (minimum : ℕ) :
    Currency Account where
  toCurrencyOps := ops Account minimum
  depositCreating_credits := deposit_credits minimum
  depositIntoExisting_credits store who amount after credited success := by
    change (if store.free who = 0 then none else some (deposit minimum store who amount)) = _
      at success
    split_ifs at success
    have same : deposit minimum store who amount = (after, credited) := Option.some.inj success
    have credits := deposit_credits minimum store who amount
    rwa [same] at credits
  withdraw_debits _ _ _ _ _ := debit_debits
  transfer_moves _ _ _ _ _ := move_moves
  dropPositive_free _ _ _ := rfl
  dropPositive_issuance _ _ := rfl
  dropNegative_free _ _ _ := rfl
  dropNegative_issuance _ _ := rfl
  setLock_still _ _ _ := .refl _
  removeLock_still _ _ := .refl _
  incConsumers_still _ _ _ success := by
    obtain rfl := Option.some.inj success
    exact .refl _
  decConsumers_still _ _ := .refl _

/-- The reference currency drops exactly the deposits that would stay dust. -/
theorem referenceCurrency_deposits (Account : Type) [DecidableEq Account] (minimum : ℕ) :
    (referenceCurrency Account minimum).Deposits where
  full store who amount lands := by
    change (ReferenceCurrency.deposit minimum store who amount).2 = amount
    unfold ReferenceCurrency.deposit
    split_ifs with dust
    · rcases lands with rfl | ⟨alive | enough, -⟩
      · rfl
      · change minimum ≤ store.free who at alive
        omega
      · change minimum ≤ amount at enough
        omega
    · rfl
  dust store who amount dead small := by
    change store.free who = 0 at dead
    change amount < minimum at small
    change (ReferenceCurrency.deposit minimum store who amount).2 = 0
    unfold ReferenceCurrency.deposit
    rw [if_pos (by omega)]

end GlitchRuntime.Lib
