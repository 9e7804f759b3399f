import Mathlib
import GlitchRuntime.Lib.Fallible

/-! # Accounts kept alive by references

An account has a nonce, two balances, and counts of what relies on it and of what keeps it alive.
Holding a balance is one provider reference; when the last one goes and nothing else keeps the
account, its record goes too, its nonce with it.
-/

namespace GlitchRuntime.Lib

/-- The record of an account. -/
structure AccountInfo where
  nonce : ℕ
  consumers : ℕ
  providers : ℕ
  sufficients : ℕ
  free : ℕ
  reserved : ℕ
deriving DecidableEq

namespace AccountInfo

/-- What a missing record reads as. -/
instance : Inhabited AccountInfo := ⟨⟨0, 0, 0, 0, 0, 0⟩⟩

/-- All an account holds. -/
def total (info : AccountInfo) : ℕ := info.free + info.reserved

/-- Losing its balance takes the last thing that keeps the account. -/
def LastProvider (info : AccountInfo) : Prop := info.providers ≤ 1 ∧ info.sufficients = 0

instance (info : AccountInfo) : Decidable info.LastProvider :=
  inferInstanceAs (Decidable (_ ∧ _))

end AccountInfo

/-- Why a transfer is refused. -/
inductive TransferError
  | insufficientBalance
  | existentialDeposit
  | liquidityRestrictions
  | keepAlive
  | overflow
deriving DecidableEq

/-- Accounts and the operations on them. A transfer reports the accounts it killed, in order. -/
structure AccountOps (Account : Type) where
  Store : Type
  info : Store → Account → Option AccountInfo
  totalIssuance : Store → ℕ
  /-- Move up to an amount from the reserved to the free balance. -/
  unreserve : Store → Account → ℕ → Store
  /-- Move free balance, letting the sender die. -/
  transfer : Store → Account → Account → ℕ → Except TransferError (Store × List Account)
  /-- Write a nonce into the record, a missing one included. -/
  setNonce : Store → Account → ℕ → Store
  /-- Take one consumer off the record, a missing one included. -/
  decConsumers : Store → Account → Store

namespace AccountOps

variable {Account : Type} (ops : AccountOps Account)

/-- The record of an account, or the default one. -/
def record (store : ops.Store) (who : Account) : AccountInfo := (ops.info store who).getD default

/-- `account_nonce`. -/
def nonce (store : ops.Store) (who : Account) : ℕ := (ops.record store who).nonce

/-- `free_balance`. -/
def freeBalance (store : ops.Store) (who : Account) : ℕ := (ops.record store who).free

/-- `reserved_balance`. -/
def reservedBalance (store : ops.Store) (who : Account) : ℕ := (ops.record store who).reserved

/-- What a transfer of the whole balance of an account without reserves leaves. -/
structure Empties (before after : ops.Store) (source target : Account) (killed : List Account) :
    Prop where
  dies : (ops.record before source).LastProvider → ops.info after source = none ∧
    killed = [source]
  survives : ¬ (ops.record before source).LastProvider →
    ops.info after source = some { ops.record before source with
      free := 0
      providers := (ops.record before source).providers - 1 } ∧ killed = []
  targetNonce : ops.nonce after target = ops.nonce before target
  targetFree : ops.freeBalance after target =
    ops.freeBalance before target + ops.freeBalance before source
  targetReserved : ops.reservedBalance after target = ops.reservedBalance before target
  others : ∀ account, account ≠ source → account ≠ target →
    ops.info after account = ops.info before account
  issuance : ops.totalIssuance after = ops.totalIssuance before

/-- No balance differs. -/
structure SameBalances (before after : ops.Store) : Prop where
  free : ∀ account, ops.freeBalance after account = ops.freeBalance before account
  reserved : ∀ account, ops.reservedBalance after account = ops.reservedBalance before account
  issuance : ops.totalIssuance after = ops.totalIssuance before

/-- All that one account had is in the free balance of another, and nothing else moved. -/
structure Inherits (before after : ops.Store) (heir late : Account) : Prop where
  lateFree : ops.freeBalance after late = 0
  lateReserved : ops.reservedBalance after late = 0
  heirFree : ops.freeBalance after heir =
    ops.freeBalance before heir + ops.freeBalance before late + ops.reservedBalance before late
  heirReserved : ops.reservedBalance after heir = ops.reservedBalance before heir
  others : ∀ account, account ≠ late → account ≠ heir →
    ops.freeBalance after account = ops.freeBalance before account ∧
      ops.reservedBalance after account = ops.reservedBalance before account
  issuance : ops.totalIssuance after = ops.totalIssuance before

/-- All of the reserved balance of an account is free, and nothing else moved. -/
structure Unreserves (before after : ops.Store) (who : Account) : Prop where
  free : ops.freeBalance after who = ops.freeBalance before who + ops.reservedBalance before who
  reserved : ops.reservedBalance after who = 0
  others : ∀ account, account ≠ who →
    ops.freeBalance after account = ops.freeBalance before account ∧
      ops.reservedBalance after account = ops.reservedBalance before account
  issuance : ops.totalIssuance after = ops.totalIssuance before

section balances

variable {ops} {before middle after : ops.Store} {heir late who : Account}

theorem SameBalances.refl (store : ops.Store) : ops.SameBalances store store :=
  ⟨fun _ => rfl, fun _ => rfl, rfl⟩

/-- A new record of one account with the balances of the old one. -/
theorem SameBalances.of_entry [DecidableEq Account] {entry : AccountInfo}
    (info : ∀ account, ops.info after account =
      if account = who then some entry else ops.info before account)
    (free : entry.free = ops.freeBalance before who)
    (reserved : entry.reserved = ops.reservedBalance before who)
    (issuance : ops.totalIssuance after = ops.totalIssuance before) :
    ops.SameBalances before after := by
  have balances (account : Account) :
      ops.freeBalance after account = ops.freeBalance before account ∧
        ops.reservedBalance after account = ops.reservedBalance before account := by
    simp only [freeBalance, reservedBalance, record, info]
    split_ifs with same
    · rw [same]
      exact ⟨free, reserved⟩
    · exact ⟨rfl, rfl⟩
  exact ⟨fun account => (balances account).1, fun account => (balances account).2, issuance⟩

theorem SameBalances.trans (first : ops.SameBalances before middle)
    (second : ops.SameBalances middle after) : ops.SameBalances before after where
  free account := (second.free account).trans (first.free account)
  reserved account := (second.reserved account).trans (first.reserved account)
  issuance := second.issuance.trans first.issuance

theorem Inherits.then (inherits : ops.Inherits before middle heir late)
    (same : ops.SameBalances middle after) : ops.Inherits before after heir late where
  lateFree := (same.free late).trans inherits.lateFree
  lateReserved := (same.reserved late).trans inherits.lateReserved
  heirFree := (same.free heir).trans inherits.heirFree
  heirReserved := (same.reserved heir).trans inherits.heirReserved
  others account notLate notHeir := by
    obtain ⟨free, reserved⟩ := inherits.others account notLate notHeir
    exact ⟨(same.free account).trans free, (same.reserved account).trans reserved⟩
  issuance := same.issuance.trans inherits.issuance

theorem Unreserves.then (unreserves : ops.Unreserves before middle who)
    (same : ops.SameBalances middle after) : ops.Unreserves before after who where
  free := (same.free who).trans unreserves.free
  reserved := (same.reserved who).trans unreserves.reserved
  others account apart := by
    obtain ⟨free, reserved⟩ := unreserves.others account apart
    exact ⟨(same.free account).trans free, (same.reserved account).trans reserved⟩
  issuance := same.issuance.trans unreserves.issuance

end balances

end AccountOps

open AccountOps in
/-- Accounts: their operations and what a caller may rely on. -/
structure Accounts (Account : Type) [DecidableEq Account] extends AccountOps Account where
  unreserve_all : ∀ store who account,
    info (unreserve store who (toAccountOps.reservedBalance store who)) account =
      if account = who then (info store who).map fun old =>
        { old with free := old.free + old.reserved, reserved := 0 }
      else info store account
  unreserve_issuance : ∀ store who amount,
    totalIssuance (unreserve store who amount) = totalIssuance store
  transfer_nothing : ∀ store source target amount, amount = 0 ∨ source = target →
    transfer store source target amount = .ok (store, [])
  transfer_all : ∀ store source target after killed, source ≠ target →
    0 < toAccountOps.freeBalance store source → toAccountOps.reservedBalance store source = 0 →
    transfer store source target (toAccountOps.freeBalance store source) = .ok (after, killed) →
    Empties toAccountOps store after source target killed
  setNonce_info : ∀ store who nonce account,
    info (setNonce store who nonce) account =
      if account = who then some { toAccountOps.record store who with nonce := nonce }
      else info store account
  setNonce_issuance : ∀ store who nonce,
    totalIssuance (setNonce store who nonce) = totalIssuance store
  decConsumers_info : ∀ store who account,
    info (decConsumers store who) account =
      if account = who then some { toAccountOps.record store who with
        consumers := (toAccountOps.record store who).consumers - 1 }
      else info store account
  decConsumers_issuance : ∀ store who,
    totalIssuance (decConsumers store who) = totalIssuance store

namespace Accounts

variable {Account : Type} [DecidableEq Account] (accounts : Accounts Account)
  (store : accounts.Store) (who account : Account)

@[simp] theorem nonce_unreserve_all :
    accounts.nonce (accounts.unreserve store who (accounts.reservedBalance store who)) account =
      accounts.nonce store account := by
  simp only [AccountOps.nonce, AccountOps.record, accounts.unreserve_all]
  split_ifs with same
  · rw [same]
    cases accounts.info store who <;> rfl
  · rfl

@[simp] theorem nonce_setNonce (nonce : ℕ) :
    accounts.nonce (accounts.setNonce store who nonce) account =
      if account = who then nonce else accounts.nonce store account := by
  simp only [AccountOps.nonce, AccountOps.record, accounts.setNonce_info]
  split_ifs <;> rfl

@[simp] theorem nonce_decConsumers :
    accounts.nonce (accounts.decConsumers store who) account = accounts.nonce store account := by
  simp only [AccountOps.nonce, AccountOps.record, accounts.decConsumers_info]
  split_ifs with same
  · rw [same]
    rfl
  · rfl

/-- Unreserving everything leaves the whole balance free. -/
theorem record_unreserve_all :
    accounts.record (accounts.unreserve store who (accounts.reservedBalance store who)) who =
      { accounts.record store who with
        free := (accounts.record store who).total
        reserved := 0 } := by
  simp only [AccountOps.record, accounts.unreserve_all, if_true]
  cases accounts.info store who <;> rfl

theorem unreserve_all_unreserves : accounts.Unreserves store
    (accounts.unreserve store who (accounts.reservedBalance store who)) who := by
  constructor
  case free =>
    rw [AccountOps.freeBalance, record_unreserve_all]
    rfl
  case reserved => rw [AccountOps.reservedBalance, record_unreserve_all]
  case others =>
    intro account apart
    have same : accounts.record
        (accounts.unreserve store who (accounts.reservedBalance store who)) account =
          accounts.record store account := by
      rw [AccountOps.record, accounts.unreserve_all, if_neg apart]
      rfl
    exact ⟨congrArg AccountInfo.free same, congrArg AccountInfo.reserved same⟩
  case issuance => exact accounts.unreserve_issuance store who _

theorem setNonce_sameBalances (nonce : ℕ) :
    accounts.SameBalances store (accounts.setNonce store who nonce) :=
  .of_entry (accounts.setNonce_info store who nonce) rfl rfl
    (accounts.setNonce_issuance store who nonce)

theorem decConsumers_sameBalances :
    accounts.SameBalances store (accounts.decConsumers store who) :=
  .of_entry (accounts.decConsumers_info store who) rfl rfl
    (accounts.decConsumers_issuance store who)

/-- Unreserving everything and then moving everything hands all of it over. -/
theorem transfer_unreserved_inherits {source target : Account} {after : accounts.Store}
    {killed : List Account} (apart : source ≠ target) :
    let unreserved := accounts.unreserve store source (accounts.reservedBalance store source)
    accounts.transfer unreserved source target (accounts.freeBalance unreserved source) =
      .ok (after, killed) → accounts.Inherits store after target source := by
  intro unreserved moved
  have released : accounts.Unreserves store unreserved source :=
    accounts.unreserve_all_unreserves store source
  obtain ⟨targetFree, targetReserved⟩ := released.others target apart.symm
  by_cases empty : accounts.freeBalance unreserved source = 0
  · rw [accounts.transfer_nothing _ _ _ _ (.inl empty)] at moved
    obtain ⟨rfl, -⟩ := Prod.mk.inj (Except.ok.inj moved)
    have nothing := released.free
    constructor
    case lateFree => exact empty
    case lateReserved => exact released.reserved
    case heirFree => omega
    case heirReserved => exact targetReserved
    case others => exact fun account notSource _ => released.others account notSource
    case issuance => exact released.issuance
  · have empties := accounts.transfer_all _ _ _ _ _ apart (Nat.pos_of_ne_zero empty)
      released.reserved moved
    have left : (accounts.record after source).free = 0 ∧
        (accounts.record after source).reserved = 0 := by
      by_cases last : (accounts.record unreserved source).LastProvider
      · rw [AccountOps.record, (empties.dies last).1]
        exact ⟨rfl, rfl⟩
      · rw [AccountOps.record, (empties.survives last).1]
        exact ⟨rfl, released.reserved⟩
    have moved := empties.targetFree
    have freed := released.free
    constructor
    case lateFree => exact left.1
    case lateReserved => exact left.2
    case heirFree => omega
    case heirReserved => exact empties.targetReserved.trans targetReserved
    case others =>
      intro account notSource notTarget
      obtain ⟨free, reserved⟩ := released.others account notSource
      have same : accounts.record after account = accounts.record unreserved account := by
        rw [AccountOps.record, empties.others account notSource notTarget]
        rfl
      exact ⟨(congrArg AccountInfo.free same).trans free,
        (congrArg AccountInfo.reserved same).trans reserved⟩
    case issuance => exact empties.issuance.trans released.issuance

end Accounts

/-! ## Reference accounts

Records in a table, and the transfer of a balances pallet: no locks, and an account below the
minimum loses the rest as dust. -/

namespace ReferenceAccounts

variable {Account : Type}

/-- The records and the issuance. -/
structure Table (Account : Type) where
  info : Account → Option AccountInfo
  issuance : ℕ

/-- The record of an account, or the default one. -/
def Table.record (table : Table Account) (who : Account) : AccountInfo :=
  (table.info who).getD default

variable [DecidableEq Account]

/-- Put a record in place, or remove it. -/
def Table.put (table : Table Account) (who : Account) (entry : Option AccountInfo) :
    Table Account :=
  { table with info := Function.update table.info who entry }

/-- Balances of an account that holds the minimum: a first one is a provider reference. -/
def hold (table : Table Account) (who : Account) (free reserved : ℕ) : Table Account :=
  let old := table.record who
  table.put who (some { old with
    providers := if old.total = 0 then old.providers + 1 else old.providers
    free := free
    reserved := reserved })

/-- Take the balances of an account away, `dust` of them for good. -/
def release (table : Table Account) (who : Account) (dust : ℕ) :
    Except TransferError (Table Account × List Account) :=
  let old := table.record who
  let burned := { table with issuance := table.issuance - dust }
  if old.providers ≤ 1 ∧ 0 < old.consumers then .error .keepAlive
  else if old.LastProvider then .ok (burned.put who none, [who])
  else .ok (burned.put who
    (some { old with free := 0, reserved := 0, providers := old.providers - 1 }), [])

/-- Move free balance between two accounts. -/
def transfer (minimum : ℕ) (table : Table Account) (source target : Account) (amount : ℕ) :
    Except TransferError (Table Account × List Account) :=
  let sender := table.record source
  let receiver := table.record target
  if amount = 0 ∨ source = target then .ok (table, [])
  else if sender.free < amount then .error .insufficientBalance
  else if receiver.total + amount < minimum then .error .existentialDeposit
  else if sender.total - amount < minimum then
    match release table source (sender.total - amount) with
    | .error problem => .error problem
    | .ok (rest, killed) => .ok (hold rest target (receiver.free + amount) receiver.reserved, killed)
  else
    let rest := hold table source (sender.free - amount) sender.reserved
    .ok (hold rest target (receiver.free + amount) receiver.reserved, [])

/-- The operations on the reference accounts. -/
@[reducible] def ops (Account : Type) [DecidableEq Account] (minimum : ℕ) :
    AccountOps Account where
  Store := Table Account
  info := Table.info
  totalIssuance := Table.issuance
  unreserve table who amount :=
    table.put who ((table.info who).map fun old => { old with
      free := old.free + min old.reserved amount
      reserved := old.reserved - amount })
  transfer := transfer minimum
  setNonce table who nonce := table.put who (some { table.record who with nonce := nonce })
  decConsumers table who := table.put who (some { table.record who with
    consumers := (table.record who).consumers - 1 })

@[simp] theorem Table.put_info (table : Table Account) (who account : Account)
    (entry : Option AccountInfo) : (table.put who entry).info account =
      if account = who then entry else table.info account :=
  Function.update_apply ..

@[simp] theorem Table.put_issuance (table : Table Account) (who : Account)
    (entry : Option AccountInfo) : (table.put who entry).issuance = table.issuance := rfl

/-- A released account is gone or keeps an empty record; no other account notices. -/
private theorem release_ok {table rest : Table Account} {who : Account} {dust : ℕ}
    {killed : List Account} (success : release table who dust = .ok (rest, killed)) :
    ((table.record who).LastProvider → rest.info who = none ∧ killed = [who]) ∧
      (¬ (table.record who).LastProvider → rest.info who = some { table.record who with
        free := 0, reserved := 0, providers := (table.record who).providers - 1 } ∧ killed = []) ∧
      (∀ account, account ≠ who → rest.info account = table.info account) ∧
      rest.issuance = table.issuance - dust := by
  simp only [release] at success
  split_ifs at success with relied last
  · obtain ⟨rfl, rfl⟩ := Prod.mk.inj (Except.ok.inj success)
    simp +contextual [last]
  · obtain ⟨rfl, rfl⟩ := Prod.mk.inj (Except.ok.inj success)
    simp +contextual [last]

/-- The balances put in place do not change the nonce of their account. -/
private theorem hold_record (table : Table Account) (who : Account) (free reserved : ℕ) :
    ((hold table who free reserved).record who).nonce = (table.record who).nonce ∧
      ((hold table who free reserved).record who).free = free ∧
      ((hold table who free reserved).record who).reserved = reserved := by
  simp [hold, Table.record]

private theorem hold_info_of_ne (table : Table Account) {who account : Account}
    (free reserved : ℕ) (apart : account ≠ who) :
    (hold table who free reserved).info account = table.info account := by
  simp [hold, apart]

private theorem transfer_empties {minimum : ℕ} (positive : 0 < minimum)
    {table after : Table Account} {source target : Account} {killed : List Account}
    (apart : source ≠ target) (funded : 0 < (table.record source).free)
    (unlocked : (table.record source).reserved = 0)
    (success : transfer minimum table source target (table.record source).free =
      .ok (after, killed)) :
    (ops Account minimum).Empties table after source target killed := by
  have whole : (table.record source).total - (table.record source).free = 0 := by
    simp only [AccountInfo.total, unlocked]
    omega
  have moves : ¬ ((table.record source).free = 0 ∨ source = target) := by
    rintro (empty | same)
    · omega
    · exact apart same
  simp only [transfer, whole, if_neg moves, Nat.lt_irrefl, if_false, if_pos positive] at success
  split_ifs at success
  cases released : release table source 0 with
  | error problem => simp [released] at success
  | ok done =>
    obtain ⟨rest, gone⟩ := done
    obtain ⟨dies, survives, others, issuance⟩ := release_ok released
    simp only [released] at success
    obtain ⟨rfl, rfl⟩ := Prod.mk.inj (Except.ok.inj success)
    have receiver : rest.record target = table.record target := by
      simp only [Table.record, others target apart.symm]
    obtain ⟨nonce, free, reserved⟩ := hold_record rest target
      ((table.record target).free + (table.record source).free) (table.record target).reserved
    have sender := hold_info_of_ne rest
      ((table.record target).free + (table.record source).free) (table.record target).reserved apart
    constructor
    case dies =>
      intro last
      obtain ⟨gone, killed⟩ := dies last
      exact ⟨sender.trans gone, killed⟩
    case survives =>
      intro kept
      obtain ⟨left, killed⟩ := survives kept
      have same : (ops Account minimum).record table source = table.record source := rfl
      refine ⟨(sender.trans left).trans ?_, killed⟩
      simp only [same, unlocked]
    case targetNonce =>
      rw [receiver] at nonce
      exact nonce
    case targetFree => exact free
    case targetReserved => exact reserved
    case others =>
      intro account notSource notTarget
      exact (hold_info_of_ne rest _ _ notTarget).trans (others account notSource)
    case issuance => exact issuance

end ReferenceAccounts

open ReferenceAccounts in
/-- The reference accounts with a positive minimum balance. -/
@[reducible] def referenceAccounts (Account : Type) [DecidableEq Account] (minimum : ℕ)
    (positive : 0 < minimum) : Accounts Account where
  toAccountOps := ops Account minimum
  unreserve_all store who account := by
    change (store.put who _).info account = _
    rw [Table.put_info]
    cases found : store.info who with
    | none => simp [found]
    | some old => simp [AccountOps.reservedBalance, AccountOps.record, found]
  unreserve_issuance _ _ _ := rfl
  transfer_nothing store source target amount nothing := by
    simp [transfer, nothing]
  transfer_all _ _ _ _ _ apart funded unlocked success :=
    transfer_empties positive apart funded unlocked success
  setNonce_info store who nonce account := Table.put_info ..
  setNonce_issuance _ _ _ := rfl
  decConsumers_info store who account := Table.put_info ..
  decConsumers_issuance _ _ := rfl

end GlitchRuntime.Lib
