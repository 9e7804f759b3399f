import GlitchRuntime.EthSignature
import GlitchRuntime.Lib.Accounts

/-! # Accounts claimed for Ethereum addresses

Until it is claimed an Ethereum address controls a padded account made of its own bytes. Claiming
it with a signature merges the padded account into the signer's and maps the two to each other; the
mapping goes when the signer's account is killed.
-/

namespace GlitchRuntime.EvmAccounts

open Lib

/-- An Ethereum address. -/
abbrev EvmAddress := Bytes 20

/-- A Substrate account. -/
abbrev AccountId32 := Bytes 32

inductive Error
  | accountIdHasMapped
  | ethAddressHasMapped
  | badSignature
  | invalidSignature
  | nonZeroRefCount
  | stillHasActiveReserved
  | currency (problem : TransferError)
deriving DecidableEq

variable {substrate : Accounts AccountId32}

/-- The accounts of the system, and the two tables of the pallet. -/
structure State (substrate : Accounts AccountId32) where
  system : substrate.Store
  accounts : EvmAddress → Option AccountId32
  evmAddresses : AccountId32 → Option EvmAddress

/-- `b"glitch evm:"`. -/
def messageMarker : List UInt8 := "glitch evm:".toUTF8.toList

/-- `b"evm:"`. -/
def paddedMarker : Bytes 4 := #v[0x65, 0x76, 0x6d, 0x3a]

/-- The marker, the address and eight zero bytes. -/
def paddedAccount (address : EvmAddress) : AccountId32 :=
  (paddedMarker ++ address ++ (Vector.replicate 8 0 : Bytes 8) : Bytes (4 + 20 + 8))

/-- `EvmAddressMapping::into_account_id`. -/
def intoAccountId (state : State substrate) (address : EvmAddress) : AccountId32 :=
  match state.accounts address with
  | some account => account
  | none => paddedAccount address

/-- The hook on killed accounts drops their mapping on both sides. -/
def onKilledAccount (state : State substrate) (who : AccountId32) : State substrate :=
  match state.evmAddresses who with
  | some address =>
    { state with
      accounts := Function.update state.accounts address none
      evmAddresses := Function.update state.evmAddresses who none }
  | none => state

/-- Unreserve everything and move it, with the hook on every account that dies of it. -/
def mergeAccount (state : State substrate) (source dest : AccountId32) :
    Except TransferError (State substrate) := do
  let unreserved :=
    substrate.unreserve state.system source (substrate.reservedBalance state.system source)
  let (system, killed) ← substrate.transfer unreserved source dest
    (substrate.freeBalance unreserved source)
  return killed.foldl onKilledAccount { state with system := system }

/-- Merge the padded account when it has a record. The nonce is read after the merge, and the
`killed` of the consumer handler then takes one consumer off what is left of the account. -/
def mergePadded (state : State substrate) (who : AccountId32) (address : EvmAddress) :
    Except Error (State substrate × ℕ) :=
  let account := intoAccountId state address
  match substrate.info state.system account with
  | none => .ok (state, 0)
  | some _ => do
    let merged ← (mergeAccount state account who).mapError .currency
    let nonce := substrate.nonce merged.system account
    return ({ merged with system := substrate.decConsumers merged.system account }, nonce)

/-- Raise the nonce of `who` to at least another. -/
def raiseNonce (system : substrate.Store) (who : AccountId32) (nonce : ℕ) : substrate.Store :=
  if substrate.nonce system who < nonce then substrate.setNonce system who nonce else system

/-- The signer's account takes the place of the padded account of an address. -/
def claimAccount (crypto : Crypto) (state : State substrate) (who : AccountId32)
    (ethAddress : EvmAddress) (ethSignature : EcdsaSignature) : Except Error (State substrate) := do
  ensure (state.evmAddresses who = none) Error.accountIdHasMapped
  ensure (state.accounts ethAddress = none) Error.ethAddressHasMapped
  let address ← okOr (ethRecover crypto messageMarker ethSignature (toAsciiHex who.toList) [])
    Error.badSignature
  ensure (ethAddress = address) Error.invalidSignature
  let (state, nonce) ← mergePadded state who ethAddress
  let accounts :=
    match state.evmAddresses who with
    | some earlier => Function.update state.accounts earlier none
    | none => state.accounts
  return {
    system := raiseNonce state.system who nonce
    accounts := Function.update accounts ethAddress (some who)
    evmAddresses := Function.update state.evmAddresses who (some ethAddress) }

/-! ## Facts about the single operations -/

theorem paddedAccount_injective : Function.Injective paddedAccount := by
  intro first second same
  obtain ⟨front, -⟩ := Vector.append_inj same
  exact (Vector.append_inj front).2

@[simp] theorem onKilledAccount_system (state : State substrate) (who : AccountId32) :
    (onKilledAccount state who).system = state.system := by
  unfold onKilledAccount
  split <;> rfl

@[simp] theorem foldl_onKilledAccount_system (state : State substrate)
    (killed : List AccountId32) : (killed.foldl onKilledAccount state).system = state.system := by
  induction killed generalizing state with
  | nil => rfl
  | cons who rest ih => rw [List.foldl_cons, ih, onKilledAccount_system]

/-- A successful merge is the transfer of everything, with the hooks it set off. -/
theorem mergeAccount_ok {state merged : State substrate} {source dest : AccountId32}
    (success : mergeAccount state source dest = .ok merged) :
    ∃ unreserved system killed,
      unreserved =
        substrate.unreserve state.system source (substrate.reservedBalance state.system source) ∧
      substrate.transfer unreserved source dest (substrate.freeBalance unreserved source) =
        .ok (system, killed) ∧
      merged = killed.foldl onKilledAccount { state with system := system } := by
  simp only [mergeAccount, bind_eq_ok, pure_eq_ok] at success
  obtain ⟨⟨system, killed⟩, moved, rfl⟩ := success
  exact ⟨_, system, killed, rfl, moved, rfl⟩

/-- A padded account without a record is left alone, one with a record is merged. -/
theorem mergePadded_ok {state after : State substrate} {who : AccountId32}
    {address : EvmAddress} {nonce : ℕ}
    (success : mergePadded state who address = .ok (after, nonce)) :
    substrate.info state.system (intoAccountId state address) = none ∧ after = state ∧ nonce = 0 ∨
      substrate.info state.system (intoAccountId state address) ≠ none ∧
        ∃ merged, mergeAccount state (intoAccountId state address) who = .ok merged ∧
          nonce = substrate.nonce merged.system (intoAccountId state address) ∧
          after = { merged with
            system := substrate.decConsumers merged.system (intoAccountId state address) } := by
  simp only [mergePadded] at success
  cases found : substrate.info state.system (intoAccountId state address) with
  | none =>
    simp only [found, Except.ok.injEq, Prod.mk.injEq] at success
    exact .inl ⟨rfl, success.1.symm, success.2.symm⟩
  | some info =>
    cases joined : mergeAccount state (intoAccountId state address) who with
    | error problem => simp [found, joined, Except.mapError] at success
    | ok merged =>
      simp only [found, Except.mapError, joined, bind_pure_comp, Except.map_ok, Except.ok.injEq,
        Prod.mk.injEq] at success
      exact .inr ⟨by simp, merged, rfl, success.2.symm, success.1.symm⟩

/-- What a successful claim did: neither side was mapped, the padded account was merged, and the
pair was entered over what the merge left. -/
theorem claimAccount_ok {crypto : Crypto} {state after : State substrate} {who : AccountId32}
    {address : EvmAddress} {signature : EcdsaSignature}
    (success : claimAccount crypto state who address signature = .ok after) :
    state.evmAddresses who = none ∧ state.accounts address = none ∧
      ∃ merged nonce, mergePadded state who address = .ok (merged, nonce) ∧
        after.system = raiseNonce merged.system who nonce ∧
        after.accounts = Function.update
          (match merged.evmAddresses who with
          | some earlier => Function.update merged.accounts earlier none
          | none => merged.accounts) address (some who) ∧
        after.evmAddresses = Function.update merged.evmAddresses who (some address) := by
  simp only [claimAccount, bind_eq_ok, ensure_eq_ok, okOr_eq_ok, pure_eq_ok] at success
  obtain ⟨-, unmapped, -, unclaimed, -, -, -, -, ⟨merged, nonce⟩, absorbed, rfl⟩ := success
  exact ⟨unmapped, unclaimed, merged, nonce, absorbed, rfl, rfl, rfl⟩

/-! ## A small chain

One user and the padded account of the user's key hold a unit each, nothing is mapped, and every
signature is by that key.
-/

/-- `EXISTENTIAL_DEPOSIT`. -/
def existentialDeposit : ℕ := 10 * (10 ^ 18 / 100)

def smallChain : Accounts AccountId32 :=
  referenceAccounts AccountId32 existentialDeposit (by decide)

def user : AccountId32 := .replicate 32 1

def userKey : EvmAddress := .replicate 20 7

def oneKey : Crypto where
  keccak256 _ := .replicate 32 7
  secp256k1EcdsaRecover _ _ := some default

/-- The chain before a claim, with given nonces of the user and the padded account. -/
def beforeClaim (userNonce paddedNonce : ℕ) : State smallChain where
  system :=
    { info who :=
        if who = user then some ⟨userNonce, 0, 1, 0, 10 ^ 18, 0⟩
        else if who = paddedAccount userKey then some ⟨paddedNonce, 0, 1, 0, 10 ^ 18, 0⟩
        else none
      issuance := 2 * 10 ^ 18 }
  accounts _ := none
  evmAddresses _ := none

end GlitchRuntime.EvmAccounts
