import GlitchRuntime.EthSignature
import GlitchRuntime.Lib.Currency
import GlitchRuntime.Lib.Fallible
import GlitchRuntime.Lib.Runs

/-! # The claims pallet

Transfers from other chains are minted as claims of an Ethereum address by a network's bridge
account, paid to whoever that address signs for, or minted and paid in one call; burns go the other
way. A storage migration moves the claims of the time before there were several networks.
-/

namespace GlitchRuntime.Claims

open Lib

/-- Supported bridge networks. -/
inductive BridgeNetworks
  | bsc
  | ethereum
  | cloverPara
deriving DecidableEq

abbrev EthereumAddress := Bytes 20

abbrev EthereumTxHash := Bytes 32

/-- A claim: whose signature it needs, what it pays, and whether it has. -/
structure ClaimInfo where
  address : EthereumAddress
  amount : ℕ
  claimed : Bool
deriving DecidableEq

/-- The claims of every network by transaction. -/
abbrev ClaimTable := BridgeNetworks → EthereumTxHash → Option ClaimInfo

/-- Put a claim in place. -/
def ClaimTable.insert (claims : ClaimTable) (network : BridgeNetworks) (tx : EthereumTxHash)
    (info : ClaimInfo) : ClaimTable :=
  Function.update claims network (Function.update (claims network) tx (some info))

theorem ClaimTable.insert_apply (claims : ClaimTable) (network other : BridgeNetworks)
    (tx hash : EthereumTxHash) (info : ClaimInfo) :
    claims.insert network tx info other hash =
      if other = network ∧ hash = tx then some info else claims other hash := by
  by_cases onNetwork : other = network
  · subst onNetwork
    simp [ClaimTable.insert, Function.update_apply]
  · simp [ClaimTable.insert, onNetwork]

theorem ClaimTable.insert_self (claims : ClaimTable) (network : BridgeNetworks)
    (tx : EthereumTxHash) (info : ClaimInfo) : claims.insert network tx info network =
      Function.update (claims network) tx (some info) :=
  Function.update_self ..

theorem ClaimTable.insert_of_ne (claims : ClaimTable) {network other : BridgeNetworks}
    (tx : EthereumTxHash) (info : ClaimInfo) (apart : other ≠ network) :
    claims.insert network tx info other = claims other :=
  Function.update_of_ne apart ..

/-- What the pallet is configured with, and the host functions it uses. -/
structure Config (Account : Type) [DecidableEq Account] where
  currency : Currency Account
  /-- `account_id`, the account of the pallet's own id. -/
  accountId : Account
  /-- `Prefix`, in front of every signed message. -/
  marker : List UInt8
  /-- The bytes of an account as they are signed. -/
  encode : Account → List UInt8
  crypto : Crypto

variable {Account : Type} [DecidableEq Account] {config : Config Account}

/-- The storage of the pallet, with the currency it pays in. -/
structure State (config : Config Account) where
  balances : config.currency.Store
  bridgeAccount : Option Account
  claimLimit : ℕ
  claims : AList fun _ : EthereumTxHash => Option ClaimInfo
  mintFee : Option ℕ
  burnFee : Option ℕ
  elasticBridgeAccounts : BridgeNetworks → Option (Option Account)
  elasticClaimLimits : BridgeNetworks → Option ℕ
  bridgeFees : BridgeNetworks → Option (ℕ × ℕ)
  elasticClaims : ClaimTable
  palletStorageVersion : ℕ

namespace State

/-- `elastic_claim_limits`. -/
def elasticClaimLimit (state : State config) (network : BridgeNetworks) : ℕ :=
  (state.elasticClaimLimits network).getD 0

/-- `bridge_fees`. -/
def bridgeFee (state : State config) (network : BridgeNetworks) : ℕ × ℕ :=
  (state.bridgeFees network).getD (0, 0)

/-- `ElasticClaims::insert`. -/
def insertClaim (state : State config) (network : BridgeNetworks) (tx : EthereumTxHash)
    (info : ClaimInfo) : State config :=
  { state with elasticClaims := state.elasticClaims.insert network tx info }

/-- `ElasticClaimLimits::mutate` with a saturating subtraction. -/
def lowerLimit (state : State config) (network : BridgeNetworks) (amount : ℕ) : State config :=
  { state with
    elasticClaimLimits := Function.update state.elasticClaimLimits network
      (some (state.elasticClaimLimit network - amount)) }

/-- `deposit_creating` with the imbalance dropped, which mints it. -/
def deposit (state : State config) (who : Account) (amount : ℕ) : State config :=
  let (balances, imbalance) := config.currency.depositCreating state.balances who amount
  { state with balances := config.currency.dropPositive balances imbalance }

end State

inductive Error
  | badOrigin
  | noPermission
  | alreadyMinted
  | alreadyClaimed
  | claimLimitExceeded
  | txNotMinted
  | invalidEthereumSignature
  | signatureNotMatch
  | invalidAmount
  | currency
deriving DecidableEq

inductive Event (Account : Type)
  | elasticBridgeAccountChanged (network : BridgeNetworks) (target : Account)
  | elasticMintSuccess (network : BridgeNetworks) (tx : EthereumTxHash) (who : EthereumAddress)
      (amount : ℕ)
  | elasticClaimLimitUpdated (network : BridgeNetworks) (limit : ℕ)
  | elasticClaimed (network : BridgeNetworks) (dest : Account) (signer : EthereumAddress)
      (amount : ℕ)
  | elasticBurned (network : BridgeNetworks) (who : Account) (dest : EthereumAddress) (amount : ℕ)
  | elasticFeeUpdated (network : BridgeNetworks) (mintFee burnFee : ℕ)
deriving DecidableEq

/-- The address that signed for an account and a transaction. -/
def ethRecover (config : Config Account) (sig : EcdsaSignature) (dest : Account)
    (tx : EthereumTxHash) : Option EthereumAddress :=
  GlitchRuntime.ethRecover config.crypto config.marker sig (toAsciiHex (config.encode dest))
    (toAsciiHex tx.toList)

/-- The address of claims that were paid at once. -/
def zeroAddress : EthereumAddress := .replicate 20 0

/-- What is left of an amount after a fee, if there is one; a fee must not eat all of it. -/
def afterFee (amount fee : ℕ) : Except Error ℕ := do
  if 0 < fee then
    ensure (fee < amount) Error.invalidAmount
    return amount - fee
  else
    return amount

/-- The checks of both mints, and the amount left after the mint fee. -/
def checkMint (state : State config) (sender : Account) (network : BridgeNetworks)
    (tx : EthereumTxHash) (value : ℕ) : Except Error (ℕ × ℕ) := do
  ensure (some sender = (state.elasticBridgeAccounts network).join) Error.noPermission
  ensure (state.elasticClaims network tx = none) Error.alreadyMinted
  ensure (value ≤ state.elasticClaimLimit network) Error.claimLimitExceeded
  let (fee, _) := state.bridgeFee network
  let claimAmount ← afterFee value fee
  return (claimAmount, fee)

/-- Pay a fee to the account of the pallet, if there is one. -/
def payFee (state : State config) (fee : ℕ) : State config :=
  if 0 < fee then state.deposit config.accountId fee else state

/-- A claim of `who` for later. -/
def doMintClaim (state : State config) (sender : Account) (network : BridgeNetworks)
    (tx : EthereumTxHash) (who : EthereumAddress) (value : ℕ) :
    Except Error (State config × ℕ) := do
  let (claimAmount, mintFee) ← checkMint state sender network tx value
  let state := state.insertClaim network tx ⟨who, claimAmount, false⟩
  let state := state.lowerLimit network claimAmount
  return (payFee state mintFee, claimAmount)

/-- Pay a claim to an account its address signed for. -/
def doClaim (state : State config) (network : BridgeNetworks) (dest : Account)
    (tx : EthereumTxHash) (sig : EcdsaSignature) :
    Except Error (State config × EthereumAddress × ℕ) := do
  let info ← okOr (state.elasticClaims network tx) Error.txNotMinted
  ensure (info.claimed = false) Error.alreadyClaimed
  let signer ← okOr (ethRecover config sig dest tx) Error.invalidEthereumSignature
  ensure (info.address = signer) Error.signatureNotMatch
  let state := state.deposit dest info.amount
  return (state.insertClaim network tx ⟨info.address, info.amount, true⟩, signer, info.amount)

/-- Take an amount from an account that stays alive, the burn fee of it for the pallet. -/
def doBurn (state : State config) (who : Account) (network : BridgeNetworks) (amount : ℕ) :
    Except Error (State config × ℕ) := do
  let (_, fee) := state.bridgeFee network
  let burnAmount ← afterFee amount fee
  let (balances, imbalance) ← okOr (config.currency.withdraw state.balances who amount)
    Error.currency
  let state := { state with balances := config.currency.dropNegative balances imbalance }
  return (payFee state fee, burnAmount)

/-- A claim that is paid at once. -/
def doMintAndSendClaim (state : State config) (sender : Account) (network : BridgeNetworks)
    (tx : EthereumTxHash) (dest : Account) (value : ℕ) : Except Error (State config × ℕ) := do
  let (claimAmount, mintFee) ← checkMint state sender network tx value
  let state := state.deposit dest claimAmount
  let state := state.insertClaim network tx ⟨zeroAddress, claimAmount, true⟩
  let state := state.lowerLimit network claimAmount
  return (payFee state mintFee, claimAmount)

/-- Copy a claim of the time before into the slot of its transaction, if that is free. -/
def copyClaim (elastic : EthereumTxHash → Option ClaimInfo)
    (entry : Sigma fun _ : EthereumTxHash => Option ClaimInfo) :
    EthereumTxHash → Option ClaimInfo :=
  match elastic entry.1, entry.2 with
  | none, some info => Function.update elastic entry.1 (some info)
  | _, _ => elastic

/-- Move what was stored for the one network of before to its elastic storage, once. The claim
limit is written over and kept in its old place too. -/
def onRuntimeUpgrade (state : State config) : State config :=
  if 2 ≤ state.palletStorageVersion then state
  else
    let copied := state.claims.entries.foldl copyClaim (state.elasticClaims .bsc)
    let limits :=
      if 0 < state.claimLimit then
        Function.update state.elasticClaimLimits .bsc (some state.claimLimit)
      else state.elasticClaimLimits
    let bridgeAccounts :=
      match state.bridgeAccount, state.elasticBridgeAccounts .bsc with
      | some account, none => Function.update state.elasticBridgeAccounts .bsc (some (some account))
      | _, _ => state.elasticBridgeAccounts
    let mintFee := state.mintFee.getD 0
    let burnFee := state.burnFee.getD 0
    let fees :=
      if (0 < mintFee ∨ 0 < burnFee) ∧ state.bridgeFees .bsc = none then
        Function.update state.bridgeFees .bsc (some (mintFee, burnFee))
      else state.bridgeFees
    { state with
      elasticClaims := Function.update state.elasticClaims .bsc copied
      elasticClaimLimits := limits
      elasticBridgeAccounts := bridgeAccounts
      bridgeFees := fees
      mintFee := none
      burnFee := none
      claims := ∅
      bridgeAccount := none
      palletStorageVersion := 2 }

/-! ## Calls -/

inductive Origin (Account : Type)
  | root
  | signed (who : Account)
  | none
deriving DecidableEq

def ensureRoot : Origin Account → Except Error Unit
  | .root => .ok ()
  | _ => .error .badOrigin

def ensureSigned : Origin Account → Except Error Account
  | .signed who => .ok who
  | _ => .error .badOrigin

def ensureNone : Origin Account → Except Error Unit
  | .none => .ok ()
  | _ => .error .badOrigin

inductive Call (Account : Type)
  | setBridgeAccountElastic (network : BridgeNetworks) (target : Account)
  | setClaimLimitElastic (network : BridgeNetworks) (limit : ℕ)
  | setBridgeFeeElastic (network : BridgeNetworks) (mintFee burnFee : ℕ)
  | mintClaimElastic (network : BridgeNetworks) (tx : EthereumTxHash) (who : EthereumAddress)
      (value : ℕ)
  | claimElastic (network : BridgeNetworks) (dest : Account) (tx : EthereumTxHash)
      (sig : EcdsaSignature)
  | burnElastic (network : BridgeNetworks) (dest : EthereumAddress) (amount : ℕ)
  | mintAndSendClaimElastic (network : BridgeNetworks) (tx : EthereumTxHash) (who : Account)
      (value : ℕ)
deriving DecidableEq

/-- An amount of a claim that was paid to an account. -/
structure Payment (Account : Type) where
  network : BridgeNetworks
  tx : EthereumTxHash
  dest : Account
  amount : ℕ
deriving DecidableEq

/-- What a step leaves: the events the pallet deposits, the payments it makes, the fees it charges
for minting, and what it takes from an account that burns, the fee included. -/
inductive Receipt (Account : Type)
  | event (event : Event Account)
  | payment (payment : Payment Account)
  | mintFee (amount : ℕ)
  | burn (who : Account) (amount fee : ℕ)
deriving DecidableEq

/-- Dispatch a call; an error leaves no trace. -/
def dispatch (state : State config) (origin : Origin Account) :
    Call Account → Except Error (State config × List (Receipt Account))
  | .setBridgeAccountElastic network target => do
    ensureRoot origin
    return ({ state with
      elasticBridgeAccounts := Function.update state.elasticBridgeAccounts network (some (some target))
      }, [.event (.elasticBridgeAccountChanged network target)])
  | .setClaimLimitElastic network limit => do
    ensureRoot origin
    return ({ state with
      elasticClaimLimits := Function.update state.elasticClaimLimits network (some limit) },
      [.event (.elasticClaimLimitUpdated network limit)])
  | .setBridgeFeeElastic network mintFee burnFee => do
    ensureRoot origin
    return ({ state with
      bridgeFees := Function.update state.bridgeFees network (some (mintFee, burnFee)) },
      [.event (.elasticFeeUpdated network mintFee burnFee)])
  | .mintClaimElastic network tx who value => do
    let signer ← ensureSigned origin
    let (next, claimAmount) ← doMintClaim state signer network tx who value
    return (next, [.mintFee (value - claimAmount),
      .event (.elasticMintSuccess network tx who claimAmount)])
  | .claimElastic network dest tx sig => do
    ensureNone origin
    let (next, signer, amount) ← doClaim state network dest tx sig
    return (next, [.payment ⟨network, tx, dest, amount⟩,
      .event (.elasticClaimed network dest signer amount)])
  | .burnElastic network dest amount => do
    let who ← ensureSigned origin
    let (next, burnAmount) ← doBurn state who network amount
    return (next, [.burn who amount (amount - burnAmount),
      .event (.elasticBurned network who dest burnAmount)])
  | .mintAndSendClaimElastic network tx who value => do
    let signer ← ensureSigned origin
    let (next, claimAmount) ← doMintAndSendClaim state signer network tx who value
    return (next, [.payment ⟨network, tx, who, claimAmount⟩, .mintFee (value - claimAmount),
      .event (.elasticMintSuccess network tx zeroAddress claimAmount)])

/-- What can happen to the pallet: a call, a runtime upgrade, or a change of balances elsewhere. -/
inductive Label (config : Config Account)
  | call (origin : Origin Account) (call : Call Account)
  | onRuntimeUpgrade
  | balances (next : config.currency.Store)

/-- The pallet as a machine. -/
def pallet (config : Config Account) :
    Machine (State config) (Label config) Error (Receipt Account) where
  step state label :=
    match label with
    | .call origin call => dispatch state origin call
    | .onRuntimeUpgrade => .ok (onRuntimeUpgrade state, [])
    | .balances next => .ok ({ state with balances := next }, [])

/-! ## The pool -/

inductive ValidityError
  | invalidEthereumSignature
  | signerHasNoClaim
  | signatureNotMatch
  | alreadyClaimed
deriving DecidableEq

/-- The discriminants, as `into` reads them. -/
def ValidityError.code : ValidityError → UInt8
  | invalidEthereumSignature => 0
  | signerHasNoClaim => 1
  | signatureNotMatch => 2
  | alreadyClaimed => 3

inductive InvalidTransaction
  | call
  | custom (code : UInt8)
deriving DecidableEq

/-- What the pool is told of a valid claim. Its one tag is of the pallet and the signer. -/
structure ValidTransaction where
  priority : ℕ
  requires : List (String × EthereumAddress)
  provides : List (String × EthereumAddress)
  longevity : UInt64
  propagate : Bool
deriving DecidableEq

def doValidate (state : State config) (network : BridgeNetworks) (account : Account)
    (tx : EthereumTxHash) (sig : EcdsaSignature) : Except InvalidTransaction ValidTransaction := do
  let signer ← okOr (ethRecover config sig account tx)
    (.custom ValidityError.invalidEthereumSignature.code)
  let info ← okOr (state.elasticClaims network tx) (.custom ValidityError.signerHasNoClaim.code)
  ensure (info.address = signer) (.custom ValidityError.signatureNotMatch.code)
  ensure (info.claimed = false) (.custom ValidityError.alreadyClaimed.code)
  return {
    priority := 100
    requires := []
    provides := [("claims", signer)]
    longevity := .ofNat (2 ^ 64 - 1)
    propagate := true }

/-- Only claims are valid without a signature of the chain. -/
def validateUnsigned (state : State config) :
    Call Account → Except InvalidTransaction ValidTransaction
  | .claimElastic network dest tx sig => doValidate state network dest tx sig
  | _ => .error .call

end GlitchRuntime.Claims
