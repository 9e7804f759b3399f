import GlitchRuntime.Claims.Pallet

/-! # What a call can do

One constructor for every call that succeeds, with all that its success tells about the state
before and the state it leaves.
-/

namespace GlitchRuntime.Claims

open Lib

variable {Account : Type} [DecidableEq Account] {config : Config Account}

/-- What both mints check and charge: the sender is the bridge account, the slot is free, the value
is within the limit, and the fee leaves something of it. -/
structure Mintable (state : State config) (sender : Account) (network : BridgeNetworks)
    (tx : EthereumTxHash) (value amount fee : ℕ) : Prop where
  permitted : some sender = (state.elasticBridgeAccounts network).join
  fresh : state.elasticClaims network tx = none
  within : value ≤ state.elasticClaimLimit network
  charged : fee = (state.bridgeFee network).1
  split : value = amount + fee
  rest : 0 < fee → 0 < amount

/-- The state, the receipts and the guards of every successful call. -/
inductive Effect (state : State config) :
    Origin Account → Call Account → State config → List (Receipt Account) → Prop
  | bridgeAccountSet (network : BridgeNetworks) (target : Account) :
      Effect state .root (.setBridgeAccountElastic network target)
        { state with elasticBridgeAccounts :=
            Function.update state.elasticBridgeAccounts network (some (some target)) }
        [.event (.elasticBridgeAccountChanged network target)]
  | claimLimitSet (network : BridgeNetworks) (limit : ℕ) :
      Effect state .root (.setClaimLimitElastic network limit)
        { state with elasticClaimLimits :=
            Function.update state.elasticClaimLimits network (some limit) }
        [.event (.elasticClaimLimitUpdated network limit)]
  | bridgeFeeSet (network : BridgeNetworks) (mintFee burnFee : ℕ) :
      Effect state .root (.setBridgeFeeElastic network mintFee burnFee)
        { state with bridgeFees :=
            Function.update state.bridgeFees network (some (mintFee, burnFee)) }
        [.event (.elasticFeeUpdated network mintFee burnFee)]
  | minted {sender : Account} {network : BridgeNetworks} {tx : EthereumTxHash}
      {who : EthereumAddress} {value amount fee : ℕ}
      (mintable : Mintable state sender network tx value amount fee) :
      Effect state (.signed sender) (.mintClaimElastic network tx who value)
        (payFee ((state.insertClaim network tx ⟨who, amount, false⟩).lowerLimit network amount) fee)
        [.mintFee fee, .event (.elasticMintSuccess network tx who amount)]
  | claimed {network : BridgeNetworks} {dest : Account} {tx : EthereumTxHash}
      {sig : EcdsaSignature} {signer : EthereumAddress} {amount : ℕ}
      (pending : state.elasticClaims network tx = some ⟨signer, amount, false⟩)
      (recovered : ethRecover config sig dest tx = some signer) :
      Effect state .none (.claimElastic network dest tx sig)
        ((state.deposit dest amount).insertClaim network tx ⟨signer, amount, true⟩)
        [.payment ⟨network, tx, dest, amount⟩, .event (.elasticClaimed network dest signer amount)]
  | burnt {who : Account} {network : BridgeNetworks} {dest : EthereumAddress}
      {amount burnAmount fee imbalance : ℕ} {balances : config.currency.Store}
      (charged : fee = (state.bridgeFee network).2) (split : amount = burnAmount + fee)
      (rest : 0 < fee → 0 < burnAmount)
      (taken : config.currency.withdraw state.balances who amount = some (balances, imbalance)) :
      Effect state (.signed who) (.burnElastic network dest amount)
        (payFee { state with balances := config.currency.dropNegative balances imbalance } fee)
        [.burn who amount fee, .event (.elasticBurned network who dest burnAmount)]
  | sent {sender who : Account} {network : BridgeNetworks} {tx : EthereumTxHash}
      {value amount fee : ℕ} (mintable : Mintable state sender network tx value amount fee) :
      Effect state (.signed sender) (.mintAndSendClaimElastic network tx who value)
        (payFee (((state.deposit who amount).insertClaim network tx
          ⟨zeroAddress, amount, true⟩).lowerLimit network amount) fee)
        [.payment ⟨network, tx, who, amount⟩, .mintFee fee,
          .event (.elasticMintSuccess network tx zeroAddress amount)]

variable {state next : State config}

theorem afterFee_eq_ok {amount fee rest : ℕ} :
    afterFee amount fee = .ok rest ↔ amount = rest + fee ∧ (0 < fee → 0 < rest) := by
  unfold afterFee
  split_ifs with charged
  · simp only [bind_eq_ok, ensure_eq_ok, pure_eq_ok]
    constructor
    · rintro ⟨-, less, rfl⟩
      omega
    · rintro ⟨split, left⟩
      exact ⟨(), by have := left charged; omega, by omega⟩
  · rw [pure_eq_ok]
    omega

theorem checkMint_eq_ok {sender : Account} {network : BridgeNetworks} {tx : EthereumTxHash}
    {value amount fee : ℕ} :
    checkMint state sender network tx value = .ok (amount, fee) ↔
      Mintable state sender network tx value amount fee := by
  simp only [checkMint, bind_eq_ok, ensure_eq_ok, pure_eq_ok, afterFee_eq_ok, Prod.mk.injEq]
  constructor
  · rintro ⟨-, permitted, -, fresh, -, within, left, ⟨split, rest⟩, rfl, rfl⟩
    exact ⟨permitted, fresh, within, rfl, split, rest⟩
  · rintro ⟨permitted, fresh, within, rfl, split, rest⟩
    exact ⟨(), permitted, (), fresh, (), within, amount, ⟨split, rest⟩, rfl, rfl⟩

omit [DecidableEq Account] in
theorem ensureRoot_eq_ok {origin : Origin Account} {done : Unit} :
    ensureRoot origin = .ok done ↔ origin = .root := by
  cases origin <;> simp [ensureRoot]

omit [DecidableEq Account] in
theorem ensureSigned_eq_ok {origin : Origin Account} {who : Account} :
    ensureSigned origin = .ok who ↔ origin = .signed who := by
  cases origin <;> simp [ensureSigned]

omit [DecidableEq Account] in
theorem ensureNone_eq_ok {origin : Origin Account} {done : Unit} :
    ensureNone origin = .ok done ↔ origin = .none := by
  cases origin <;> simp [ensureNone]

theorem doClaim_ok {network : BridgeNetworks} {dest : Account} {tx : EthereumTxHash}
    {sig : EcdsaSignature} {signer : EthereumAddress} {amount : ℕ}
    (success : doClaim state network dest tx sig = .ok (next, signer, amount)) :
    state.elasticClaims network tx = some ⟨signer, amount, false⟩ ∧
      ethRecover config sig dest tx = some signer ∧
      next = (state.deposit dest amount).insertClaim network tx ⟨signer, amount, true⟩ := by
  simp only [doClaim, bind_eq_ok, okOr_eq_ok, ensure_eq_ok, pure_eq_ok, Prod.mk.injEq] at success
  obtain ⟨⟨address, recorded, claimed⟩, found, -, pending, _, recovered, -, rfl, rfl, rfl, rfl⟩ :=
    success
  simp only at pending
  subst pending
  exact ⟨found, recovered, rfl⟩

theorem doBurn_ok {who : Account} {network : BridgeNetworks} {amount burnAmount : ℕ}
    (success : doBurn state who network amount = .ok (next, burnAmount)) :
    amount = burnAmount + (state.bridgeFee network).2 ∧
      (0 < (state.bridgeFee network).2 → 0 < burnAmount) ∧ ∃ balances imbalance,
      config.currency.withdraw state.balances who amount = some (balances, imbalance) ∧
      next = payFee { state with balances := config.currency.dropNegative balances imbalance }
        (state.bridgeFee network).2 := by
  simp only [doBurn, bind_eq_ok, okOr_eq_ok, pure_eq_ok, afterFee_eq_ok, Prod.mk.injEq] at success
  obtain ⟨_, ⟨split, rest⟩, ⟨balances, imbalance⟩, taken, rfl, rfl⟩ := success
  exact ⟨split, rest, balances, imbalance, taken, rfl⟩

/-- A successful call has the effect of its constructor. -/
theorem dispatch_effect {origin : Origin Account} {call : Call Account}
    {out : List (Receipt Account)} (success : dispatch state origin call = .ok (next, out)) :
    Effect state origin call next out := by
  cases call with
  | setBridgeAccountElastic network target =>
    simp only [dispatch, bind_eq_ok, pure_eq_ok, ensureRoot_eq_ok, Prod.mk.injEq] at success
    obtain ⟨-, rfl, rfl, rfl⟩ := success
    exact .bridgeAccountSet network target
  | setClaimLimitElastic network limit =>
    simp only [dispatch, bind_eq_ok, pure_eq_ok, ensureRoot_eq_ok, Prod.mk.injEq] at success
    obtain ⟨-, rfl, rfl, rfl⟩ := success
    exact .claimLimitSet network limit
  | setBridgeFeeElastic network mintFee burnFee =>
    simp only [dispatch, bind_eq_ok, pure_eq_ok, ensureRoot_eq_ok, Prod.mk.injEq] at success
    obtain ⟨-, rfl, rfl, rfl⟩ := success
    exact .bridgeFeeSet network mintFee burnFee
  | mintClaimElastic network tx who value =>
    simp only [dispatch, doMintClaim, bind_eq_ok, pure_eq_ok, ensureSigned_eq_ok,
      Prod.mk.injEq] at success
    obtain ⟨sender, rfl, _, ⟨⟨amount, fee⟩, checked, rfl⟩, rfl, rfl⟩ := success
    have mintable := checkMint_eq_ok.mp checked
    have charged : value - amount = fee := by
      have := mintable.split
      omega
    rw [charged]
    exact .minted mintable
  | claimElastic network dest tx sig =>
    simp only [dispatch, bind_eq_ok, pure_eq_ok, ensureNone_eq_ok, Prod.mk.injEq] at success
    obtain ⟨-, rfl, ⟨after, signer, amount⟩, claimed, rfl, rfl⟩ := success
    obtain ⟨pending, recovered, rfl⟩ := doClaim_ok claimed
    exact .claimed pending recovered
  | burnElastic network dest amount =>
    simp only [dispatch, bind_eq_ok, pure_eq_ok, ensureSigned_eq_ok, Prod.mk.injEq] at success
    obtain ⟨who, rfl, ⟨after, burnAmount⟩, burnt, rfl, rfl⟩ := success
    obtain ⟨split, rest, balances, imbalance, taken, rfl⟩ := doBurn_ok burnt
    have charged : amount - burnAmount = (state.bridgeFee network).2 := by omega
    rw [charged]
    exact .burnt rfl split rest taken
  | mintAndSendClaimElastic network tx who value =>
    simp only [dispatch, doMintAndSendClaim, bind_eq_ok, pure_eq_ok, ensureSigned_eq_ok,
      Prod.mk.injEq] at success
    obtain ⟨sender, rfl, _, ⟨⟨amount, fee⟩, checked, rfl⟩, rfl, rfl⟩ := success
    have mintable := checkMint_eq_ok.mp checked
    have charged : value - amount = fee := by
      have := mintable.split
      omega
    rw [charged]
    exact .sent mintable

/-- A pending claim is paid to the account that its address signed for. -/
theorem dispatch_claim_of_pending {network : BridgeNetworks} {dest : Account} {tx : EthereumTxHash}
    {sig : EcdsaSignature} {address : EthereumAddress} {amount : ℕ}
    (pending : state.elasticClaims network tx = some ⟨address, amount, false⟩)
    (signed : ethRecover config sig dest tx = some address) :
    dispatch state .none (.claimElastic network dest tx sig) =
      .ok ((state.deposit dest amount).insertClaim network tx ⟨address, amount, true⟩,
        [.payment ⟨network, tx, dest, amount⟩,
          .event (.elasticClaimed network dest address amount)]) := by
  simp only [dispatch, doClaim, bind_eq_ok, okOr_eq_ok, ensure_eq_ok, ensureNone_eq_ok, pure_eq_ok]
  exact ⟨(), trivial, _, ⟨_, pending, (), rfl, _, signed, (), rfl, rfl⟩, rfl⟩

/-! ## Single fields -/

@[simp] theorem payFee_elasticClaims (fee : ℕ) :
    (payFee state fee).elasticClaims = state.elasticClaims := by
  unfold payFee
  split_ifs <;> rfl

/-- What a fee does to the balances depends on the balances alone. -/
theorem payFee_balances {other : State config} (same : state.balances = other.balances) (fee : ℕ) :
    (payFee state fee).balances = (payFee other fee).balances := by
  unfold payFee State.deposit
  rw [same]
  split_ifs
  · rfl
  · exact same

end GlitchRuntime.Claims
