import GlitchRuntime.Claims.Pallet

/-! # The storage migration of the claims pallet

What was stored for the one network of before should move to the slots of that network that are
still free, and leave its old place. The claim limit does neither: it is written over a limit that
is set, and it stays where it was.
-/

namespace GlitchRuntime.Claims

open Lib

variable {Account : Type} [DecidableEq Account] {config : Config Account}

/-! ## Copying the claims -/

theorem copyClaim_apply (elastic : EthereumTxHash → Option ClaimInfo) (key tx : EthereumTxHash)
    (value : Option ClaimInfo) :
    copyClaim elastic ⟨key, value⟩ tx = if tx = key then (elastic key).or value else elastic tx := by
  unfold copyClaim
  by_cases same : tx = key
  · subst same
    cases occupied : elastic tx <;> cases value <;> simp [occupied]
  · cases occupied : elastic key <;> cases value <;> simp [same]

/-- Copying fills the free slots with the claims of before and leaves the others. -/
theorem foldl_copyClaim {entries : List (Sigma fun _ : EthereumTxHash => Option ClaimInfo)}
    (distinct : entries.NodupKeys) (elastic : EthereumTxHash → Option ClaimInfo)
    (tx : EthereumTxHash) :
    entries.foldl copyClaim elastic tx = (elastic tx).or (entries.dlookup tx).join := by
  induction entries generalizing elastic with
  | nil => simp
  | cons entry rest ih =>
    obtain ⟨key, value⟩ := entry
    obtain ⟨fresh, distinct⟩ := List.nodupKeys_cons.mp distinct
    rw [List.foldl_cons, ih distinct, copyClaim_apply]
    by_cases same : tx = key
    · subst same
      have absent : rest.dlookup tx = none := List.dlookup_eq_none.mpr fresh
      rw [if_pos rfl, absent, List.dlookup_cons_eq]
      simp
    · rw [if_neg same, List.dlookup_cons_ne _ _ same]

/-! ## The migration -/

/-- A slot that is set stays, and a free one reads as the value of before. -/
def Carried {Slot Value : Type} (read : Option Slot → Value) (old new : Option Slot)
    (legacy : Value) : Prop :=
  (old ≠ none → new = old) ∧ (old = none → read new = legacy)

/-- A migration that loses and overwrites nothing, and is over once it is done. -/
structure Lossless (before after : State config) : Prop where
  claims : ∀ tx, after.elasticClaims .bsc tx =
    (before.elasticClaims .bsc tx).or (before.claims.lookup tx).join
  claimLimit : Carried (fun slot => slot.getD 0) (before.elasticClaimLimits .bsc)
    (after.elasticClaimLimits .bsc) before.claimLimit
  bridgeAccount : Carried Option.join (before.elasticBridgeAccounts .bsc)
    (after.elasticBridgeAccounts .bsc) before.bridgeAccount
  fees : Carried (fun slot => slot.getD (0, 0)) (before.bridgeFees .bsc) (after.bridgeFees .bsc)
    (before.mintFee.getD 0, before.burnFee.getD 0)
  others : ∀ network, network ≠ .bsc →
    after.elasticClaims network = before.elasticClaims network ∧
    after.elasticClaimLimits network = before.elasticClaimLimits network ∧
    after.elasticBridgeAccounts network = before.elasticBridgeAccounts network ∧
    after.bridgeFees network = before.bridgeFees network
  balances : after.balances = before.balances
  emptied : after.claims = ∅ ∧ after.claimLimit = 0 ∧ after.bridgeAccount = none ∧
    after.mintFee = none ∧ after.burnFee = none
  version : after.palletStorageVersion = 2
  again : onRuntimeUpgrade after = after

/-- The elastic claims after a migration, if there is one. -/
theorem onRuntimeUpgrade_elasticClaims (state : State config) :
    (onRuntimeUpgrade state).elasticClaims =
      if 2 ≤ state.palletStorageVersion then state.elasticClaims
      else Function.update state.elasticClaims .bsc
        (state.claims.entries.foldl copyClaim (state.elasticClaims .bsc)) := by
  by_cases migrated : 2 ≤ state.palletStorageVersion
  · rw [if_pos migrated, onRuntimeUpgrade, if_pos migrated]
  · rw [if_neg migrated, onRuntimeUpgrade, if_neg migrated]

theorem onRuntimeUpgrade_balances (state : State config) :
    (onRuntimeUpgrade state).balances = state.balances := by
  unfold onRuntimeUpgrade
  split_ifs <;> rfl

section pending

variable {state : State config} (pending : state.palletStorageVersion < 2)

include pending

/-- Every claim of before lands in its slot, unless that was taken. -/
theorem onRuntimeUpgrade_claims (tx : EthereumTxHash) :
    (onRuntimeUpgrade state).elasticClaims .bsc tx =
      (state.elasticClaims .bsc tx).or (state.claims.lookup tx).join := by
  rw [onRuntimeUpgrade_elasticClaims, if_neg (Nat.not_le.mpr pending), Function.update_self]
  exact foldl_copyClaim state.claims.nodupKeys _ tx

/-- The bridge account of before lands in its slot, unless that was taken. -/
theorem onRuntimeUpgrade_bridgeAccount :
    Carried Option.join (state.elasticBridgeAccounts .bsc)
      ((onRuntimeUpgrade state).elasticBridgeAccounts .bsc) state.bridgeAccount := by
  rw [onRuntimeUpgrade, if_neg (Nat.not_le.mpr pending)]
  cases legacy : state.bridgeAccount with
  | none => exact ⟨fun _ => rfl, fun free => by simp [free]⟩
  | some account =>
    cases slot : state.elasticBridgeAccounts .bsc with
    | none => exact ⟨fun taken => absurd rfl taken, fun _ => by simp⟩
    | some current => exact ⟨fun _ => slot, fun free => by contradiction⟩

/-- The fees of before land in their slot, unless that was taken. -/
theorem onRuntimeUpgrade_fees :
    Carried (fun slot => slot.getD (0, 0)) (state.bridgeFees .bsc)
      ((onRuntimeUpgrade state).bridgeFees .bsc) (state.mintFee.getD 0, state.burnFee.getD 0) := by
  rw [onRuntimeUpgrade, if_neg (Nat.not_le.mpr pending)]
  dsimp only
  split_ifs with due
  · exact ⟨fun taken => absurd due.2 taken, fun _ => by simp⟩
  · refine ⟨fun _ => rfl, fun free => ?_⟩
    have nothing : state.mintFee.getD 0 = 0 ∧ state.burnFee.getD 0 = 0 := by
      have unset : ¬ (0 < state.mintFee.getD 0 ∨ 0 < state.burnFee.getD 0) :=
        fun set => due ⟨set, free⟩
      omega
    rw [free, nothing.1, nothing.2]
    rfl

/-- The limit of before lands in its slot whatever that held. -/
theorem onRuntimeUpgrade_claimLimit :
    (onRuntimeUpgrade state).elasticClaimLimits .bsc =
        (if 0 < state.claimLimit then some state.claimLimit else state.elasticClaimLimits .bsc) ∧
      (onRuntimeUpgrade state).claimLimit = state.claimLimit := by
  rw [onRuntimeUpgrade, if_neg (Nat.not_le.mpr pending)]
  dsimp only
  split_ifs with set
  · exact ⟨Function.update_self .., rfl⟩
  · exact ⟨rfl, rfl⟩

/-- Nothing is touched for another network. -/
theorem onRuntimeUpgrade_others {network : BridgeNetworks} (apart : network ≠ .bsc) :
    (onRuntimeUpgrade state).elasticClaims network = state.elasticClaims network ∧
    (onRuntimeUpgrade state).elasticClaimLimits network = state.elasticClaimLimits network ∧
    (onRuntimeUpgrade state).elasticBridgeAccounts network =
      state.elasticBridgeAccounts network ∧
    (onRuntimeUpgrade state).bridgeFees network = state.bridgeFees network := by
  rw [onRuntimeUpgrade, if_neg (Nat.not_le.mpr pending)]
  refine ⟨Function.update_of_ne apart .., ?_, ?_, ?_⟩
  · dsimp only
    split_ifs
    · exact Function.update_of_ne apart ..
    · rfl
  · dsimp only
    split
    · exact Function.update_of_ne apart ..
    · rfl
  · dsimp only
    split_ifs
    · exact Function.update_of_ne apart ..
    · rfl

/-- The migration is lossless exactly when there was no claim limit to move. -/
theorem onRuntimeUpgrade_lossless_iff :
    Lossless state (onRuntimeUpgrade state) ↔ state.claimLimit = 0 := by
  obtain ⟨limits, stays⟩ := onRuntimeUpgrade_claimLimit pending
  constructor
  · intro lossless
    rw [← stays]
    exact lossless.emptied.2.1
  · intro unlimited
    rw [unlimited, if_neg (Nat.lt_irrefl 0)] at limits
    have version : (onRuntimeUpgrade state).palletStorageVersion = 2 := by
      rw [onRuntimeUpgrade, if_neg (Nat.not_le.mpr pending)]
    constructor
    case claims => exact onRuntimeUpgrade_claims pending
    case claimLimit =>
      rw [limits, unlimited]
      exact ⟨fun _ => rfl, fun free => by rw [free]; rfl⟩
    case bridgeAccount => exact onRuntimeUpgrade_bridgeAccount pending
    case fees => exact onRuntimeUpgrade_fees pending
    case others => exact fun _ apart => onRuntimeUpgrade_others pending apart
    case balances => exact onRuntimeUpgrade_balances state
    case emptied =>
      refine ⟨?_, stays.trans unlimited, ?_, ?_, ?_⟩
      all_goals rw [onRuntimeUpgrade, if_neg (Nat.not_le.mpr pending)]
    case version => exact version
    case again =>
      rw [onRuntimeUpgrade, if_pos version.ge]

end pending

/-! ## A limit that is written over -/

/-- Accounts are numbers, the minimum balance is one, and every signature is by one key. -/
def smallConfig : Config ℕ where
  currency := referenceCurrency ℕ 1
  accountId := 0
  marker := []
  encode who := [UInt8.ofNat who]
  crypto :=
    { keccak256 _ := .replicate 32 7
      secp256k1EcdsaRecover _ _ := some default }

/-- Nothing is stored. -/
def emptyState : State smallConfig where
  balances := ⟨fun _ => 0, 0⟩
  bridgeAccount := none
  claimLimit := 0
  claims := ∅
  mintFee := none
  burnFee := none
  elasticBridgeAccounts _ := none
  elasticClaimLimits _ := none
  bridgeFees _ := none
  elasticClaims _ _ := none
  palletStorageVersion := 1

/-- Two claims of before, one for a free slot and one for a taken one, with an account and fees. -/
def legacyState : State smallConfig :=
  { emptyState with
    bridgeAccount := some 3
    claims := [⟨.replicate 32 1, some ⟨.replicate 20 8, 40, false⟩⟩,
      ⟨.replicate 32 2, some ⟨.replicate 20 9, 50, true⟩⟩].toAList
    mintFee := some 2
    burnFee := some 5
    elasticBridgeAccounts network := if network = .ethereum then some (some 4) else none
    elasticClaimLimits network := if network = .bsc then some 30 else none
    elasticClaims network tx :=
      if network = .bsc ∧ tx = .replicate 32 2 then some ⟨.replicate 20 9, 60, false⟩ else none }

/-- The first claim, the account and the fees move; the slot and the limit that were set stay. -/
theorem legacyState_lossless :
    let after := onRuntimeUpgrade legacyState
    Lossless legacyState after ∧
      after.elasticClaims .bsc (.replicate 32 1) = some ⟨.replicate 20 8, 40, false⟩ ∧
      after.elasticClaims .bsc (.replicate 32 2) = some ⟨.replicate 20 9, 60, false⟩ ∧
      after.elasticBridgeAccounts .bsc = some (some 3) ∧ after.bridgeFees .bsc = some (2, 5) ∧
      after.elasticClaimLimits .bsc = some 30 := by
  refine ⟨(onRuntimeUpgrade_lossless_iff (by decide)).mpr rfl, ?_⟩
  decide +kernel

/-- A limit of 30 is lowered to the 20 of before, which stay in their old place too. -/
theorem onRuntimeUpgrade_overwrites_limit :
    ¬ ∀ state : State smallConfig, state.palletStorageVersion < 2 →
      Lossless state (onRuntimeUpgrade state) := by
  intro lossless
  have kept := lossless { emptyState with
    claimLimit := 20, elasticClaimLimits := fun _ => some 30 } (by decide)
  exact absurd (kept.claimLimit.1 (by decide)) (by decide)

end GlitchRuntime.Claims
