import GlitchRuntime.Claims.Budget
import GlitchRuntime.Lib.Deposits

/-! # A claim in one call or in two

Minting and sending at once checks and charges what minting does, and leaves what minting and a
claim right after it leave, but for the order of the deposits: the one call pays the account first,
the two calls the fee first. The order shows only where the account is that of the pallet itself.
-/

namespace GlitchRuntime.Claims

open Lib

variable {Account : Type} [DecidableEq Account] {config : Config Account}

/-- Two states agree but for the address that one claim records. -/
structure SameButAddress (network : BridgeNetworks) (tx : EthereumTxHash)
    (left right : State config) : Prop where
  balances : config.currency.SameFigures left.balances right.balances
  limits : left.elasticClaimLimits = right.elasticClaimLimits
  record : (left.elasticClaims network tx).map (fun info => (info.amount, info.claimed)) =
    (right.elasticClaims network tx).map fun info => (info.amount, info.claimed)
  others : ∀ home hash, ¬ (home = network ∧ hash = tx) →
    left.elasticClaims home hash = right.elasticClaims home hash

/-- Minting and sending at once fails as minting does, and otherwise leaves what minting for an
address and a claim that it signed for leave. -/
def PathsAgree (state : State config) (signer : Account) (network : BridgeNetworks)
    (tx : EthereumTxHash) (dest : Account) (value : ℕ) (address : EthereumAddress)
    (sig : EcdsaSignature) : Prop :=
  match dispatch state (.signed signer) (.mintAndSendClaimElastic network tx dest value),
    dispatch state (.signed signer) (.mintClaimElastic network tx address value) with
  | .ok (once, _), .ok (minted, _) => ∃ twice out,
    dispatch minted .none (.claimElastic network dest tx sig) = .ok (twice, out) ∧
      SameButAddress network tx once twice
  | .error left, .error right => left = right
  | _, _ => False

/-- Where the payment and the fee go to one account, their order does not show there. -/
def OrderHidden (state : State config) (dest : Account) (amount fee : ℕ) : Prop :=
  dest ≠ config.accountId ∨ Interchangeable config.currency.minimumBalance
    (config.currency.totalBalance state.balances dest)
    (config.currency.freeBalance state.balances dest) amount fee

instance (state : State config) (dest : Account) (amount fee : ℕ) :
    Decidable (OrderHidden state dest amount fee) :=
  inferInstanceAs (Decidable (_ ∨ _))

section paths

variable {state : State config} {signer dest : Account} {network : BridgeNetworks}
  {tx : EthereumTxHash} {value amount fee : ℕ} {address : EthereumAddress} {sig : EcdsaSignature}

/-! ## The calls, forwards -/

theorem dispatch_mint_of_checked
    (checked : checkMint state signer network tx value = .ok (amount, fee)) :
    dispatch state (.signed signer) (.mintClaimElastic network tx address value) =
      .ok (payFee ((state.insertClaim network tx ⟨address, amount, false⟩).lowerLimit network
        amount) fee, [.mintFee (value - amount),
          .event (.elasticMintSuccess network tx address amount)]) := by
  simp only [dispatch, doMintClaim, ensureSigned, checked, ok_bind]
  rfl

theorem dispatch_send_of_checked
    (checked : checkMint state signer network tx value = .ok (amount, fee)) :
    dispatch state (.signed signer) (.mintAndSendClaimElastic network tx dest value) =
      .ok (payFee (((state.deposit dest amount).insertClaim network tx
        ⟨zeroAddress, amount, true⟩).lowerLimit network amount) fee,
          [.payment ⟨network, tx, dest, amount⟩, .mintFee (value - amount),
            .event (.elasticMintSuccess network tx zeroAddress amount)]) := by
  simp only [dispatch, doMintAndSendClaim, ensureSigned, checked, ok_bind]
  rfl

/-- A claim that was just minted is pending. -/
theorem minted_pending : (payFee ((state.insertClaim network tx ⟨address, amount, false⟩).lowerLimit
    network amount) fee).elasticClaims network tx = some ⟨address, amount, false⟩ := by
  rw [payFee_elasticClaims]
  simp [State.insertClaim, State.lowerLimit, ClaimTable.insert_apply]

/-! ## The figures of both paths -/

/-- The payment before the fee and the fee before the payment leave the same figures exactly when
their order is hidden. -/
theorem sameFigures_iff (exact : config.currency.CreatesExactly)
    (settled : config.currency.Settled state.balances) (fits : amount + fee < 2 ^ 128) :
    config.currency.SameFigures (payFee (state.deposit dest amount) fee).balances
      ((payFee state fee).deposit dest amount).balances ↔ OrderHidden state dest amount fee := by
  by_cases charged : 0 < fee
  · rw [payFee, payFee, if_pos charged, if_pos charged]
    exact config.currency.mint_comm_iff exact settled fits
  · obtain rfl : fee = 0 := by omega
    apply iff_of_true
    · exact .refl _
    · exact .inr (.inr (.inl rfl))

/-- The states after both paths agree but for the address when their figures do. -/
theorem sameButAddress_iff : SameButAddress network tx
      (payFee (((state.deposit dest amount).insertClaim network tx
        ⟨zeroAddress, amount, true⟩).lowerLimit network amount) fee)
      (((payFee ((state.insertClaim network tx ⟨address, amount, false⟩).lowerLimit network
        amount) fee).deposit dest amount).insertClaim network tx ⟨address, amount, true⟩) ↔
    config.currency.SameFigures (payFee (state.deposit dest amount) fee).balances
      ((payFee state fee).deposit dest amount).balances := by
  have once : (payFee (((state.deposit dest amount).insertClaim network tx
      ⟨zeroAddress, amount, true⟩).lowerLimit network amount) fee).balances =
      (payFee (state.deposit dest amount) fee).balances := by
    apply payFee_balances
    rfl
  have minted : (payFee ((state.insertClaim network tx ⟨address, amount, false⟩).lowerLimit network
      amount) fee).balances = (payFee state fee).balances := by
    apply payFee_balances
    rfl
  have twice : (((payFee ((state.insertClaim network tx ⟨address, amount, false⟩).lowerLimit network
      amount) fee).deposit dest amount).insertClaim network tx ⟨address, amount, true⟩).balances =
      ((payFee state fee).deposit dest amount).balances := by
    change config.currency.mint _ dest amount = config.currency.mint _ dest amount
    rw [minted]
  constructor
  · intro same
    have figures := same.balances
    rw [once, twice] at figures
    exact figures
  · intro figures
    constructor
    case balances =>
      rw [once, twice]
      exact figures
    case limits =>
      rw [payFee_elasticClaimLimits]
      change _ = (payFee _ fee).elasticClaimLimits
      rw [payFee_elasticClaimLimits]
      rfl
    case record =>
      rw [payFee_elasticClaims]
      simp [State.insertClaim, State.lowerLimit, ClaimTable.insert_apply]
    case others =>
      intro home hash apart
      rw [payFee_elasticClaims]
      change (state.elasticClaims.insert network tx _) home hash =
        (ClaimTable.insert (payFee _ fee).elasticClaims network tx _) home hash
      rw [payFee_elasticClaims]
      change _ = ClaimTable.insert (state.elasticClaims.insert network tx _) network tx _ home hash
      simp only [ClaimTable.insert_apply, if_neg apart]

/-- From settled accounts, minting and sending at once agrees with minting for an address and a claim
that it signed for, exactly when the order of the payment and the fee is hidden. -/
theorem oneCall_agrees_iff (exact : config.currency.CreatesExactly)
    (settled : config.currency.Settled state.balances) (fits : value < 2 ^ 128)
    (signed : ethRecover config sig dest tx = some address) :
    PathsAgree state signer network tx dest value address sig ↔
      ∀ amount fee, Mintable state signer network tx value amount fee →
        OrderHidden state dest amount fee := by
  cases checked : checkMint state signer network tx value with
  | error problem =>
    have send : dispatch state (.signed signer) (.mintAndSendClaimElastic network tx dest value) =
        .error problem := by
      simp only [dispatch, doMintAndSendClaim, ensureSigned, checked, ok_bind]
      rfl
    have mint : dispatch state (.signed signer) (.mintClaimElastic network tx address value) =
        .error problem := by
      simp only [dispatch, doMintClaim, ensureSigned, checked, ok_bind]
      rfl
    rw [PathsAgree, send, mint]
    apply iff_of_true rfl
    intro amount fee mintable
    rw [checkMint_eq_ok.mpr mintable] at checked
    contradiction
  | ok charge =>
    obtain ⟨amount, fee⟩ := charge
    have mintable := checkMint_eq_ok.mp checked
    have split := mintable.split
    rw [PathsAgree, dispatch_send_of_checked checked, dispatch_mint_of_checked checked]
    have figures : config.currency.SameFigures (payFee (state.deposit dest amount) fee).balances
        ((payFee state fee).deposit dest amount).balances ↔ OrderHidden state dest amount fee :=
      sameFigures_iff exact settled (by omega)
    constructor
    · rintro ⟨twice, out, ran, same⟩ other charge alike
      rw [dispatch_claim_of_pending minted_pending signed] at ran
      obtain ⟨rfl, -⟩ := Prod.mk.inj (Except.ok.inj ran)
      have hidden := figures.mp (sameButAddress_iff.mp same)
      -- the checks give one amount and one fee
      have equal := checkMint_eq_ok.mpr alike
      rw [checked] at equal
      obtain ⟨rfl, rfl⟩ := Prod.mk.inj (Except.ok.inj equal)
      exact hidden
    · intro hidden
      exact ⟨_, _, dispatch_claim_of_pending minted_pending signed,
        sameButAddress_iff.mpr (figures.mpr (hidden amount fee mintable))⟩

end paths

/-! ## A claim for the account of the pallet -/

/-- Accounts are numbers, the minimum balance is ten, and every signature is by one key. -/
def boundedConfig : Config ℕ where
  currency := boundedCurrency ℕ 10
  accountId := 0
  marker := []
  encode who := [UInt8.ofNat who]
  crypto :=
    { keccak256 _ := .replicate 32 7
      secp256k1EcdsaRecover _ _ := some default }

/-- Account 1 may mint a thousand for a fee of a hundred, and nobody holds anything. -/
def openBridge : State boundedConfig where
  balances := ⟨fun _ => 0, 0⟩
  bridgeAccount := none
  claimLimit := 0
  claims := ∅
  mintFee := none
  burnFee := none
  elasticBridgeAccounts _ := some (some 1)
  elasticClaimLimits _ := some 1000
  bridgeFees _ := some (100, 0)
  elasticClaims _ _ := none
  palletStorageVersion := 2

theorem openBridge_settled : boundedConfig.currency.Settled openBridge.balances :=
  fun _ => .inl rfl

/-- For any other account both paths agree. -/
theorem openBridge_agrees :
    PathsAgree openBridge 1 .bsc default 5 105 (.replicate 20 7) default :=
  (oneCall_agrees_iff (boundedCurrency_createsExactly ℕ 10) openBridge_settled (by decide)
    (by decide +kernel)).mpr fun _ _ _ => .inl (by decide)

/-- For the account of the pallet five units are lost in one call, and kept in two as the fee has
created the account. -/
theorem openBridge_disagrees :
    ¬ ∀ (state : State boundedConfig) (signer dest value : ℕ) (network : BridgeNetworks)
      (tx : EthereumTxHash) (address : EthereumAddress) (sig : EcdsaSignature),
      boundedConfig.currency.Settled state.balances → value < 2 ^ 128 →
      ethRecover boundedConfig sig dest tx = some address →
      PathsAgree state signer network tx dest value address sig := by
  intro agrees
  have signed : ethRecover boundedConfig default 0 default = some (.replicate 20 7) := by
    decide +kernel
  have checked : checkMint openBridge 1 .bsc default 105 = .ok (5, 100) := by decide +kernel
  have paths := agrees openBridge 1 0 105 .bsc default (.replicate 20 7) default
    openBridge_settled (by decide) signed
  rw [PathsAgree, dispatch_send_of_checked checked, dispatch_mint_of_checked checked] at paths
  obtain ⟨twice, out, ran, same⟩ := paths
  rw [dispatch_claim_of_pending minted_pending signed] at ran
  obtain ⟨rfl, -⟩ := Prod.mk.inj (Except.ok.inj ran)
  exact absurd (same.balances.free 0) (by decide +kernel)

end GlitchRuntime.Claims
