import GlitchRuntime.Claims.Conservation

/-! # The claim limit as a budget

A limit is checked against the value of a mint and lowered by what is left of it after the fee, so
it never falls below zero. Until it is set anew, what remains of it and the claims recorded under it
add up to where it started.
-/

namespace GlitchRuntime.Claims

open Lib

variable {Account : Type} [DecidableEq Account] {config : Config Account}

/-- The amount that a receipt records as minted for a network. -/
def mintedOf (network : BridgeNetworks) : Receipt Account → ℕ
  | .event (.elasticMintSuccess home _ _ amount) => if home = network then amount else 0
  | _ => 0

/-- The amount of a claim on a network that is recorded now and was not before. -/
def newlyRecorded (before after : ClaimTable) (network : BridgeNetworks) (tx : EthereumTxHash) :
    ℕ :=
  match after network tx with
  | some info => if before network tx = none then info.amount else 0
  | none => 0

/-- The step may set the limit of a network: its own call, or a migration. -/
def Label.SetsLimit (network : BridgeNetworks) : Label config → Prop
  | .call _ (.setClaimLimitElastic home _) => home = network
  | .onRuntimeUpgrade => True
  | .call _ _ | .balances _ => False

/-- The step is a mint for a network, of either kind. -/
def Label.Mints (network : BridgeNetworks) : Label config → Prop
  | .call _ (.mintClaimElastic home _ _ _) => home = network
  | .call _ (.mintAndSendClaimElastic home _ _ _) => home = network
  | .call _ _ | .onRuntimeUpgrade | .balances _ => False

@[simp] theorem payFee_elasticClaimLimits {state : State config} (fee : ℕ) :
    (payFee state fee).elasticClaimLimits = state.elasticClaimLimits := by
  unfold payFee
  split_ifs <;> rfl

theorem lowerLimit_elasticClaimLimit {state : State config} (network home : BridgeNetworks)
    (amount : ℕ) : (state.lowerLimit home amount).elasticClaimLimit network =
      if home = network then state.elasticClaimLimit network - amount
      else state.elasticClaimLimit network := by
  split_ifs with own
  · subst own
    simp [State.lowerLimit, State.elasticClaimLimit]
  · simp [State.lowerLimit, State.elasticClaimLimit, Function.update_of_ne (Ne.symm own)]

section steps

variable {state next : State config} {network : BridgeNetworks}

/-- A mint spends its amount of the limit of its network. -/
theorem mint_spends {sender : Account} {home : BridgeNetworks} {tx : EthereumTxHash}
    {value amount fee : ℕ} (mintable : Mintable state sender home tx value amount fee)
    {before : State config} (same : before.elasticClaimLimits = state.elasticClaimLimits) :
    (payFee (before.lowerLimit home amount) fee).elasticClaimLimit network +
      (if home = network then amount else 0) = state.elasticClaimLimit network := by
  have limits (place : BridgeNetworks) :
      before.elasticClaimLimit place = state.elasticClaimLimit place := by
    rw [State.elasticClaimLimit, same]
    rfl
  have lowered : (before.lowerLimit home amount).elasticClaimLimit network = _ :=
    lowerLimit_elasticClaimLimit network home amount
  rw [State.elasticClaimLimit, payFee_elasticClaimLimits]
  change (before.lowerLimit home amount).elasticClaimLimit network + _ = _
  rw [lowered, limits]
  have within := mintable.within
  have split := mintable.split
  split_ifs with own
  · subst own
    omega
  · rfl

/-- Unless it may set the limit, a step spends of it what it records as minted. -/
theorem step_spends {label : Label config} {out : List (Receipt Account)}
    (keeps : ¬ label.SetsLimit network)
    (taken : (pallet config).step state label = .ok (next, out)) :
    next.elasticClaimLimit network + tally (mintedOf network) out =
      state.elasticClaimLimit network := by
  cases label with
  | balances store =>
    obtain ⟨rfl, rfl⟩ := Prod.mk.inj (Except.ok.inj taken)
    rfl
  | onRuntimeUpgrade => exact absurd trivial keeps
  | call origin dispatched =>
    cases dispatch_effect taken with
    | bridgeAccountSet => rfl
    | claimLimitSet home limit =>
      have apart : network ≠ home := fun same => keeps same.symm
      simp [State.elasticClaimLimit, tally, mintedOf, Function.update_of_ne apart]
    | bridgeFeeSet => rfl
    | minted mintable =>
      simp only [tally, mintedOf, List.map_cons, List.map_nil, List.sum_cons, List.sum_nil,
        Nat.add_zero, Nat.zero_add]
      exact mint_spends mintable rfl
    | claimed => rfl
    | burnt =>
      rw [State.elasticClaimLimit, payFee_elasticClaimLimits]
      rfl
    | sent mintable =>
      simp only [tally, mintedOf, List.map_cons, List.map_nil, List.sum_cons, List.sum_nil,
        Nat.add_zero, Nat.zero_add]
      exact mint_spends mintable rfl

/-- A step that neither mints for a network nor may set its limit leaves the limit. -/
theorem step_keepsLimit {label : Label config} {out : List (Receipt Account)}
    (keeps : ¬ label.SetsLimit network) (unminted : ¬ label.Mints network)
    (taken : (pallet config).step state label = .ok (next, out)) :
    next.elasticClaimLimits network = state.elasticClaimLimits network := by
  cases label with
  | balances store =>
    obtain ⟨rfl, -⟩ := Prod.mk.inj (Except.ok.inj taken)
    rfl
  | onRuntimeUpgrade => exact absurd trivial keeps
  | call origin dispatched =>
    cases dispatch_effect taken with
    | bridgeAccountSet => rfl
    | claimLimitSet home limit => exact Function.update_of_ne (fun same => keeps same.symm) ..
    | bridgeFeeSet => rfl
    | minted mintable =>
      rw [payFee_elasticClaimLimits]
      exact Function.update_of_ne (fun same => unminted same.symm) ..
    | claimed => rfl
    | burnt => rw [payFee_elasticClaimLimits]
    | sent mintable =>
      rw [payFee_elasticClaimLimits]
      exact Function.update_of_ne (fun same => unminted same.symm) ..

omit [DecidableEq Account] in
/-- A claim in a free slot records its amount on its network, and nothing on another. -/
theorem MarkedSo.insertAt {source : EthereumTxHash → Option ClaimInfo} {claims : ClaimTable}
    {log out : List (Receipt Account)} {home : BridgeNetworks} {tx : EthereumTxHash}
    {info : ClaimInfo}
    (recorded : MarkedSo Option.isSome (mintedOf network) source (claims network) log)
    (fresh : claims home tx = none)
    (adds : tally (mintedOf network) out = if home = network then info.amount else 0) :
    MarkedSo Option.isSome (mintedOf network) source (claims.insert home tx info network)
      (log ++ out) := by
  by_cases own : network = home
  · subst own
    rw [ClaimTable.insert_self]
    apply recorded.write
    · rw [fresh]
      rfl
    · rw [adds, if_pos rfl]
      rfl
  · rw [ClaimTable.insert_of_ne _ _ _ own]
    apply recorded.same
    rw [adds, if_neg (Ne.symm own)]

/-- A mint reports the claim that it records in a free slot. -/
theorem step_records {label : Label config} {out : List (Receipt Account)}
    (taken : (pallet config).step state label = .ok (next, out)) {tx : EthereumTxHash}
    {who : EthereumAddress} {amount : ℕ}
    (reported : .event (.elasticMintSuccess network tx who amount) ∈ out) :
    state.elasticClaims network tx = none ∧ ∃ info, next.elasticClaims network tx = some info ∧
      info.address = who ∧ info.amount = amount := by
  cases label with
  | balances store =>
    obtain ⟨-, rfl⟩ := Prod.mk.inj (Except.ok.inj taken)
    simp at reported
  | onRuntimeUpgrade =>
    obtain ⟨-, rfl⟩ := Prod.mk.inj (Except.ok.inj taken)
    simp at reported
  | call origin dispatched =>
    cases dispatch_effect taken with
    | bridgeAccountSet => simp at reported
    | claimLimitSet => simp at reported
    | bridgeFeeSet => simp at reported
    | minted mintable =>
      obtain ⟨rfl, rfl, rfl, rfl⟩ : network = _ ∧ tx = _ ∧ who = _ ∧ amount = _ := by
        simpa using reported
      refine ⟨mintable.fresh, ⟨who, amount, false⟩, ?_, rfl, rfl⟩
      rw [payFee_elasticClaims]
      exact (ClaimTable.insert_apply ..).trans (if_pos ⟨rfl, rfl⟩)
    | claimed => simp at reported
    | burnt => simp at reported
    | sent mintable =>
      obtain ⟨rfl, rfl, rfl, rfl⟩ : network = _ ∧ tx = _ ∧ who = _ ∧ amount = _ := by
        simpa using reported
      refine ⟨mintable.fresh, ⟨zeroAddress, amount, true⟩, ?_, rfl, rfl⟩
      rw [payFee_elasticClaims]
      exact (ClaimTable.insert_apply ..).trans (if_pos ⟨rfl, rfl⟩)

/-- Unless it may set the limit, a step records claims on a network as far as it reports them. -/
theorem step_recordedSo {source : EthereumTxHash → Option ClaimInfo} {label : Label config}
    {log out : List (Receipt Account)}
    (recorded : MarkedSo Option.isSome (mintedOf network) source (state.elasticClaims network) log)
    (keeps : ¬ label.SetsLimit network)
    (taken : (pallet config).step state label = .ok (next, out)) :
    MarkedSo Option.isSome (mintedOf network) source (next.elasticClaims network)
      (log ++ out) := by
  cases label with
  | balances store =>
    obtain ⟨rfl, rfl⟩ := Prod.mk.inj (Except.ok.inj taken)
    exact recorded.same rfl
  | onRuntimeUpgrade => exact absurd trivial keeps
  | call origin dispatched =>
    cases dispatch_effect taken with
    | bridgeAccountSet => exact recorded.same rfl
    | claimLimitSet => exact recorded.same rfl
    | bridgeFeeSet => exact recorded.same rfl
    | @minted _ home _ _ _ _ _ mintable =>
      rw [payFee_elasticClaims]
      apply recorded.insertAt mintable.fresh
      simp [tally, mintedOf]
    | @claimed home _ _ _ _ _ pending =>
      by_cases own : network = home
      · subst own
        change MarkedSo _ _ _ (ClaimTable.insert _ network _ _ network) _
        rw [ClaimTable.insert_self]
        exact recorded.rewrite pending ⟨rfl, rfl⟩ rfl
      · change MarkedSo _ _ _ (ClaimTable.insert _ home _ _ network) _
        rw [ClaimTable.insert_of_ne _ _ _ own]
        exact recorded.same rfl
    | burnt =>
      rw [payFee_elasticClaims]
      exact recorded.same rfl
    | @sent _ _ home _ _ _ _ mintable =>
      rw [payFee_elasticClaims]
      apply recorded.insertAt mintable.fresh
      simp [tally, mintedOf]

end steps

/-- A run that does not set the limit of a network spends of it what it records as minted. -/
theorem run_spends {network : BridgeNetworks} {source target : State config}
    {log : List (Receipt Account)}
    (run : (pallet config).Run (fun label => ¬ label.SetsLimit network) source log target) :
    target.elasticClaimLimit network + tally (mintedOf network) log =
      source.elasticClaimLimit network := by
  refine run.preserves (fun reached receipts =>
    reached.elasticClaimLimit network + tally (mintedOf network) receipts =
      source.elasticClaimLimit network) rfl ?_
  intro current next receipts out label spent keeps taken
  have spends := step_spends keeps taken
  rw [tally_append]
  omega

theorem newlyRecorded_eq (before after : ClaimTable) (network : BridgeNetworks) :
    newlyRecorded before after network =
      newlyMarked Option.isSome (before network) (after network) := by
  funext tx
  unfold newlyRecorded newlyMarked
  cases after network tx with
  | none => rfl
  | some info => simp

/-- A run that does not set the limit of a network records on it the amounts it reports. -/
theorem run_newlyRecorded {network : BridgeNetworks} {source target : State config}
    {log : List (Receipt Account)}
    (run : (pallet config).Run (fun label => ¬ label.SetsLimit network) source log target) :
    ∑ᶠ tx, newlyRecorded source.elasticClaims target.elasticClaims network tx =
      tally (mintedOf network) log := by
  have recorded : MarkedSo Option.isSome (mintedOf network) (source.elasticClaims network)
      (target.elasticClaims network) log := by
    refine run.preserves (fun reached receipts =>
      MarkedSo Option.isSome (mintedOf network) (source.elasticClaims network)
        (reached.elasticClaims network) receipts) (.refl _) ?_
    intro current next receipts out label recorded keeps taken
    exact step_recordedSo recorded keeps taken
  rw [newlyRecorded_eq]
  exact recorded.sum

/-- Every mint that a run reports took a slot that was free at the start, and its claim is still
there at the end, for the address and of the amount reported. -/
theorem run_records {network : BridgeNetworks} {source target : State config}
    {log : List (Receipt Account)}
    (run : (pallet config).Run (fun _ => True) source log target) {tx : EthereumTxHash}
    {who : EthereumAddress} {amount : ℕ}
    (reported : .event (.elasticMintSuccess network tx who amount) ∈ log) :
    source.elasticClaims network tx = none ∧ ∃ info, target.elasticClaims network tx = some info ∧
      info.address = who ∧ info.amount = amount := by
  induction run with
  | nil => contradiction
  | @snoc middle next receipts out label earlier permitted taken ih =>
    rcases List.mem_append.mp reported with before | now
    · obtain ⟨free, info, present, address, recorded⟩ := ih before
      obtain ⟨later, stays, same, equal, -⟩ :=
        ((step_move taken).progress network tx).keeps present
      exact ⟨free, later, stays, same.trans address, equal.trans recorded⟩
    · obtain ⟨fresh, written⟩ := step_records taken now
      refine ⟨?_, written⟩
      by_contra taken
      obtain ⟨info, present⟩ := Option.ne_none_iff_exists'.mp taken
      obtain ⟨later, stays, -⟩ := (run_progress earlier network tx).keeps present
      rw [fresh] at stays
      contradiction

/-- In every run that does not set the limit of a network, what remains of it is what there was less
the amounts of the claims recorded for the network, which never exceed it: those that the mints of
the run report, each at its transaction. A mint for the network that is refused, and every other
step, leaves the limit as it is. -/
theorem claimLimit_budget {network : BridgeNetworks} {source target : State config}
    {log : List (Receipt Account)}
    (run : (pallet config).Run (fun label => ¬ label.SetsLimit network) source log target) :
    target.elasticClaimLimit network = source.elasticClaimLimit network -
        ∑ᶠ tx, newlyRecorded source.elasticClaims target.elasticClaims network tx ∧
      ∑ᶠ tx, newlyRecorded source.elasticClaims target.elasticClaims network tx ≤
        source.elasticClaimLimit network ∧
      ∑ᶠ tx, newlyRecorded source.elasticClaims target.elasticClaims network tx =
        tally (mintedOf network) log ∧
      (∀ tx who amount, .event (.elasticMintSuccess network tx who amount) ∈ log →
        source.elasticClaims network tx = none ∧
          ∃ info, target.elasticClaims network tx = some info ∧ info.address = who ∧
            info.amount = amount) ∧
      ∀ label : Label config, ¬ label.SetsLimit network →
        (label.Mints network → ∃ problem, (pallet config).step target label = .error problem) →
        ((pallet config).attempt target label).elasticClaimLimits network =
          target.elasticClaimLimits network := by
  have spent := run_spends run
  have recorded := run_newlyRecorded run
  refine ⟨by omega, by omega, recorded, ?_, ?_⟩
  · intro tx who amount reported
    exact run_records (run.mono fun _ _ => trivial) reported
  · intro label keeps refused
    apply Machine.attempt_keeps fun state : State config => state.elasticClaimLimits network
    intro next out taken
    apply step_keepsLimit keeps _ taken
    intro mints
    obtain ⟨problem, failed⟩ := refused mints
    rw [failed] at taken
    contradiction

/-! ## A fee that changes between two mints -/

/-- A limit of 100 is open to account 1, which pays a fee of 4 on its first mint and none later. -/
def openLimit : State smallConfig :=
  { emptyState with
    elasticBridgeAccounts := fun _ => some (some 1)
    elasticClaimLimits := fun _ => some 100
    bridgeFees := fun _ => some (4, 0) }

/-- Two mints of 40 with a change of the fee between them, the second one paid at once, and the
first claimed after it. -/
def mintsAcrossFees : List (Label smallConfig) :=
  [.call (.signed 1) (.mintClaimElastic .bsc default (.replicate 20 7) 40),
    .call .root (.setBridgeFeeElastic .bsc 0 0),
    .call (.signed 1) (.mintAndSendClaimElastic .bsc (.replicate 32 1) 5 40),
    .call .none (.claimElastic .bsc 6 default default)]

/-- The first mint records and spends 36 of the limit and the second 40. -/
theorem mintsAcrossFees_spend :
    let result := (pallet smallConfig).outcome openLimit mintsAcrossFees
    ∑ᶠ tx, newlyRecorded openLimit.elasticClaims result.1.elasticClaims .bsc tx = 76 ∧
      result.1.elasticClaimLimit .bsc = 100 - 76 ∧
      result.1.elasticClaims .bsc default = some ⟨.replicate 20 7, 36, true⟩ ∧
      result.1.elasticClaims .bsc (.replicate 32 1) = some ⟨zeroAddress, 40, true⟩ := by
  have happens : ((pallet smallConfig).replay openLimit mintsAcrossFees).isOk = true := by
    decide +kernel
  have keeps : ∀ label ∈ mintsAcrossFees, ¬ label.SetsLimit .bsc := by
    intro label member
    simp only [mintsAcrossFees, List.mem_cons, List.not_mem_nil, or_false] at member
    rcases member with rfl | rfl | rfl | rfl <;> exact id
  have run := Machine.run_outcome keeps happens
  have minted : tally (mintedOf .bsc)
      ((pallet smallConfig).outcome openLimit mintsAcrossFees).2 = 76 := by decide +kernel
  obtain ⟨remaining, -, recorded, -⟩ := claimLimit_budget run
  rw [recorded, minted] at remaining
  exact ⟨recorded.trans minted, remaining, by decide +kernel, by decide +kernel⟩

end GlitchRuntime.Claims
