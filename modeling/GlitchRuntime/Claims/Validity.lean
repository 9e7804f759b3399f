import GlitchRuntime.Claims.LifeCycle

/-! # Claims in the transaction pool

The pool accepts a claim exactly when dispatching it would succeed, and never again once it has. A
valid claim provides one tag, and the pool keeps one transaction for each tag. The tag names the
signer only, so the claims of one address for several records keep each other out.
-/

namespace GlitchRuntime.Claims

open Lib

variable {Account : Type} [DecidableEq Account] {config : Config Account} {state : State config}

/-- What the pool is told of a valid claim by a signer. -/
def taggedWith (signer : EthereumAddress) : ValidTransaction where
  priority := 100
  requires := []
  provides := [("claims", signer)]
  longevity := .ofNat (2 ^ 64 - 1)
  propagate := true

/-- A claim is valid exactly when its record is unpaid and its address signed for the account. -/
theorem doValidate_eq_ok {network : BridgeNetworks} {account : Account} {tx : EthereumTxHash}
    {sig : EcdsaSignature} {valid : ValidTransaction} :
    doValidate state network account tx sig = .ok valid ↔
      ∃ info, state.elasticClaims network tx = some info ∧
        ethRecover config sig account tx = some info.address ∧ info.claimed = false ∧
        valid = taggedWith info.address := by
  simp only [doValidate, bind_eq_ok, okOr_eq_ok, ensure_eq_ok, pure_eq_ok]
  constructor
  · rintro ⟨signer, recovered, info, found, -, rfl, -, unpaid, rfl⟩
    exact ⟨info, found, recovered, unpaid, rfl⟩
  · rintro ⟨info, found, recovered, unpaid, rfl⟩
    exact ⟨info.address, recovered, info, found, (), rfl, (), unpaid, rfl⟩

/-! ## Validation and dispatch -/

/-- Dispatching a claim succeeds exactly when its record is unpaid and its address signed for the
account. -/
theorem dispatch_claimElastic_ok_iff {network : BridgeNetworks} {dest : Account}
    {tx : EthereumTxHash} {sig : EcdsaSignature} :
    (∃ next out, dispatch state .none (.claimElastic network dest tx sig) = .ok (next, out)) ↔
      ∃ info, state.elasticClaims network tx = some info ∧
        ethRecover config sig dest tx = some info.address ∧ info.claimed = false := by
  constructor
  · rintro ⟨next, out, success⟩
    cases dispatch_effect success with
    | claimed pending recovered => exact ⟨_, pending, recovered, rfl⟩
  · rintro ⟨⟨address, amount, claimed⟩, found, recovered, unpaid⟩
    simp only at unpaid
    subst unpaid
    exact ⟨_, _, dispatch_claim_of_pending found recovered⟩

/-- A paid record makes no claim valid. -/
theorem doValidate_paid {network : BridgeNetworks} {tx : EthereumTxHash} {info : ClaimInfo}
    (present : state.elasticClaims network tx = some info) (paid : info.claimed = true)
    (account : Account) (sig : EcdsaSignature) (valid : ValidTransaction) :
    doValidate state network account tx sig ≠ .ok valid := by
  intro accepted
  obtain ⟨record, found, -, unpaid, -⟩ := doValidate_eq_ok.mp accepted
  have same : info = record := Option.some.inj (present.symm.trans found)
  rw [same, unpaid] at paid
  contradiction

/-- The pool accepts a claim exactly when its dispatch succeeds in the same state. After a success,
in whatever comes later, no account and no signature make it accept one for that record again. -/
theorem doValidate_agrees (state : State config) (network : BridgeNetworks) (dest : Account)
    (tx : EthereumTxHash) (sig : EcdsaSignature) :
    ((∃ valid, doValidate state network dest tx sig = .ok valid) ↔
      ∃ next out, dispatch state .none (.claimElastic network dest tx sig) = .ok (next, out)) ∧
    ∀ next out, dispatch state .none (.claimElastic network dest tx sig) = .ok (next, out) →
      ∀ later log, (pallet config).Run (fun _ => True) next log later →
        ∀ account stamp valid, doValidate later network account tx stamp ≠ .ok valid := by
  constructor
  · rw [dispatch_claimElastic_ok_iff]
    constructor
    · rintro ⟨valid, accepted⟩
      obtain ⟨info, found, recovered, unpaid, -⟩ := doValidate_eq_ok.mp accepted
      exact ⟨info, found, recovered, unpaid⟩
    · rintro ⟨info, found, recovered, unpaid⟩
      exact ⟨_, doValidate_eq_ok.mpr ⟨info, found, recovered, unpaid, rfl⟩⟩
  · intro next out success later log run
    cases dispatch_effect success with
    | @claimed _ _ _ _ signer amount pending recovered =>
      have paid : ((state.deposit dest amount).insertClaim network tx
          ⟨signer, amount, true⟩).elasticClaims network tx = some ⟨signer, amount, true⟩ := by
        simp [State.insertClaim, ClaimTable.insert_apply]
      obtain ⟨record, found, -, -, stays⟩ := (run_progress run network tx).keeps paid
      exact doValidate_paid found (stays rfl)

/-! ## The tag of a claim -/

/-- The address of a record. -/
def addressOf (state : State config) (network : BridgeNetworks) (tx : EthereumTxHash) :
    Option EthereumAddress :=
  (state.elasticClaims network tx).map ClaimInfo.address

/-- Two valid transactions provide no tag in common. -/
def Coexist (left right : ValidTransaction) : Prop :=
  ∀ tag ∈ left.provides, tag ∉ right.provides

instance (left right : ValidTransaction) : Decidable (Coexist left right) :=
  inferInstanceAs (Decidable (∀ tag ∈ left.provides, tag ∉ right.provides))

/-- Valid claims provide a tag in common exactly when their records have one address. -/
theorem coexist_iff {network other : BridgeNetworks} {account beneficiary : Account}
    {tx hash : EthereumTxHash} {sig stamp : EcdsaSignature} {left right : ValidTransaction}
    (first : doValidate state network account tx sig = .ok left)
    (second : doValidate state other beneficiary hash stamp = .ok right) :
    Coexist left right ↔ addressOf state network tx ≠ addressOf state other hash := by
  obtain ⟨info, found, -, -, rfl⟩ := doValidate_eq_ok.mp first
  obtain ⟨record, present, -, -, rfl⟩ := doValidate_eq_ok.mp second
  simp [Coexist, taggedWith, addressOf, found, present]

/-- Valid claims for different records coexist, and those for one record do not, exactly when the
records are not two of one address. -/
theorem records_coexist_iff {network other : BridgeNetworks} {account beneficiary : Account}
    {tx hash : EthereumTxHash} {sig stamp : EcdsaSignature} {left right : ValidTransaction}
    (first : doValidate state network account tx sig = .ok left)
    (second : doValidate state other beneficiary hash stamp = .ok right) :
    (((network, tx) ≠ (other, hash) → Coexist left right) ∧
        ((network, tx) = (other, hash) → ¬ Coexist left right)) ↔
      ((network, tx) ≠ (other, hash) →
        addressOf state network tx ≠ addressOf state other hash) := by
  have tags := coexist_iff first second
  constructor
  · rintro ⟨apart, -⟩ different
    exact tags.mp (apart different)
  · intro addresses
    refine ⟨fun different => tags.mpr (addresses different), fun same coexist => ?_⟩
    obtain ⟨rfl, rfl⟩ := Prod.mk.inj same
    exact tags.mp coexist rfl

/-! ## Two claims of one address -/

/-- Accounts are numbers, and the first byte of a signature tells the key it is by. -/
def keyedConfig : Config ℕ where
  currency := referenceCurrency ℕ 1
  accountId := 0
  marker := []
  encode who := [UInt8.ofNat who]
  crypto :=
    { keccak256 bytes := .replicate 32 (bytes.headD 0)
      secp256k1EcdsaRecover sig _ := some (.replicate 64 sig[0]) }

/-- A claim is pending on every network for every transaction, of the address of its first byte. -/
def pendingClaims : State keyedConfig where
  balances := ⟨fun _ => 0, 0⟩
  bridgeAccount := none
  claimLimit := 0
  claims := ∅
  mintFee := none
  burnFee := none
  elasticBridgeAccounts _ := none
  elasticClaimLimits _ := none
  bridgeFees _ := none
  elasticClaims _ tx := some ⟨.replicate 20 tx[0], 40, false⟩
  palletStorageVersion := 2

/-- The claims of two addresses coexist. -/
theorem twoAddresses_coexist :
    Coexist (taggedWith (.replicate 20 1)) (taggedWith (.replicate 20 2)) :=
  ((records_coexist_iff
    (show doValidate pendingClaims .bsc 5 (.replicate 32 1) (.replicate 65 1) =
      .ok (taggedWith (.replicate 20 1)) by decide +kernel)
    (show doValidate pendingClaims .bsc 5 (.replicate 32 2) (.replicate 65 2) =
      .ok (taggedWith (.replicate 20 2)) by decide +kernel)).mpr
    (fun _ => by decide +kernel)).1 (by decide +kernel)

/-- One address has a claim on two networks, and the two share their tag. -/
theorem oneAddress_excludes :
    ¬ ∀ (state : State keyedConfig) (network other : BridgeNetworks) (account beneficiary : ℕ)
      (tx hash : EthereumTxHash) (sig stamp : EcdsaSignature) (left right : ValidTransaction),
      doValidate state network account tx sig = .ok left →
      doValidate state other beneficiary hash stamp = .ok right →
      (network, tx) ≠ (other, hash) → Coexist left right := by
  intro coexist
  have valid (network : BridgeNetworks) :
      doValidate pendingClaims network 5 (.replicate 32 1) (.replicate 65 1) =
        .ok (taggedWith (.replicate 20 1)) := by
    cases network <;> decide +kernel
  have apart := coexist pendingClaims .bsc .ethereum 5 5 (.replicate 32 1) (.replicate 32 1)
    (.replicate 65 1) (.replicate 65 1) _ _ (valid .bsc) (valid .ethereum) (by decide +kernel)
  exact absurd apart (by decide +kernel)

end GlitchRuntime.Claims
