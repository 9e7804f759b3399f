import GlitchRuntime.Lib.Currency
import GlitchRuntime.Lib.Perbill

/-! # The data of the staking pallet

Ledgers, exposures and reward points carry what the pallet maintains about them: claimed eras are
in order, an exposure backs what it splits, and the points of an era cover its validators. Storage
comes in two halves, the stakers' and the eras'; balances are those of the runtime's currency.
-/

namespace GlitchRuntime.Staking

open Lib

/-- A destination account for payment. -/
inductive RewardDestination (Account : Type)
  | staked
  | stash
  | controller
  | account (dest : Account)
  | none
deriving DecidableEq

/-- An amount of a ledger that unlocks at an era. -/
structure UnlockChunk where
  value : ℕ
  era : ℕ
deriving DecidableEq

/-- The most chunks a ledger may hold. -/
def maxUnlockingChunks : ℕ := 32

/-- The eras a ledger has claimed, in ascending order as `binary_search` needs them. -/
structure ClaimedRewards where
  eras : List ℕ
  ascending : eras.Pairwise (· ≤ ·)

namespace ClaimedRewards

instance : Membership ℕ ClaimedRewards := ⟨fun claimed era => era ∈ claimed.eras⟩

instance (claimed : ClaimedRewards) (era : ℕ) : Decidable (era ∈ claimed) :=
  inferInstanceAs (Decidable (era ∈ claimed.eras))

/-- `(first..last).collect()`. -/
def ofRange (first last : ℕ) : ClaimedRewards :=
  ⟨List.range' first (last - first), List.pairwise_le_range'⟩

/-- `claimed_rewards.retain(|&x| x >= first)`. -/
def retain (claimed : ClaimedRewards) (first : ℕ) : ClaimedRewards :=
  ⟨claimed.eras.filter (first ≤ ·), claimed.ascending.filter _⟩

/-- `binary_search`, and on `Err(pos)` the `insert` at the position it found. -/
def claim (claimed : ClaimedRewards) (era : ℕ) : Option ClaimedRewards :=
  if era ∈ claimed then none
  else some ⟨claimed.eras.orderedInsert (· ≤ ·) era, claimed.ascending.orderedInsert _ _⟩

@[simp] theorem mem_ofRange {first last era : ℕ} :
    era ∈ ofRange first last ↔ first ≤ era ∧ era < last := by
  change era ∈ List.range' first (last - first) ↔ _
  rw [List.mem_range'_1]
  omega

@[simp] theorem mem_retain {claimed : ClaimedRewards} {first era : ℕ} :
    era ∈ claimed.retain first ↔ era ∈ claimed ∧ first ≤ era := by
  change era ∈ claimed.eras.filter (first ≤ ·) ↔ era ∈ claimed.eras ∧ first ≤ era
  simp

/-- A claim is refused exactly for an era that is there. -/
theorem claim_eq_none_iff {claimed : ClaimedRewards} {era : ℕ} :
    claimed.claim era = none ↔ era ∈ claimed := by
  simp [claim]

/-- A claim adds its era and nothing else. -/
theorem mem_of_claim {claimed after : ClaimedRewards} {era other : ℕ}
    (success : claimed.claim era = some after) : other ∈ after ↔ other = era ∨ other ∈ claimed := by
  simp only [claim] at success
  split_ifs at success
  obtain rfl := Option.some.inj success
  change other ∈ claimed.eras.orderedInsert _ _ ↔ other = era ∨ other ∈ claimed.eras
  exact List.mem_orderedInsert _

end ClaimedRewards

/-- The ledger of a bonded stash. -/
structure StakingLedger (Account : Type) where
  stash : Account
  total : ℕ
  active : ℕ
  unlocking : List UnlockChunk
  claimedRewards : ClaimedRewards

namespace StakingLedger

variable {Account : Type}

/-- Drop the chunks that are due and take them off the total. -/
def consolidateUnlocked (ledger : StakingLedger Account) (currentEra : ℕ) :
    StakingLedger Account :=
  { ledger with
    total := (ledger.unlocking.filter (·.era ≤ currentEra)).foldl
      (fun total chunk => total - chunk.value) ledger.total
    unlocking := ledger.unlocking.filter (currentEra < ·.era) }

end StakingLedger

/-- What one nominator exposes behind a validator. -/
structure IndividualExposure (Account : Type) where
  who : Account
  value : ℕ
deriving DecidableEq

/-- The stake exposed behind a validator; the total covers everything it is split into. -/
structure Exposure (Account : Type) where
  total : ℕ
  own : ℕ
  others : List (IndividualExposure Account)
  backed : own + (others.map IndividualExposure.value).sum ≤ total

namespace Exposure

variable {Account : Type}

/-- The exposure of an account that was not elected. -/
def empty : Exposure Account := ⟨0, 0, [], by simp⟩

instance : Inhabited (Exposure Account) := ⟨empty⟩

/-- One voter of a support, counted as own stake when it is the validator itself. -/
def addVoter [DecidableEq Account] (exposure : Exposure Account) (validator nominator : Account)
    (stake : ℕ) : Exposure Account :=
  if nominator = validator then
    { exposure with
      total := exposure.total + stake
      own := exposure.own + stake
      backed := by have := exposure.backed; omega }
  else
    { exposure with
      total := exposure.total + stake
      others := exposure.others ++ [⟨nominator, stake⟩]
      backed := by have := exposure.backed; simp; omega }

/-- Keep the `maxLen` largest nominators once there are more. -/
def clip (exposure : Exposure Account) (maxLen : ℕ) : Exposure Account :=
  if maxLen < exposure.others.length then
    { exposure with
      others := (exposure.others.mergeSort fun a b => b.value ≤ a.value).take maxLen
      backed := by
        refine le_trans (Nat.add_le_add_left ?_ _) exposure.backed
        calc (((exposure.others.mergeSort fun a b => b.value ≤ a.value).take maxLen).map
                IndividualExposure.value).sum
            ≤ ((exposure.others.mergeSort fun a b => b.value ≤ a.value).map
                IndividualExposure.value).sum :=
              List.Sublist.sum_le_sum ((List.take_sublist _ _).map _) fun _ _ => Nat.zero_le _
          _ = (exposure.others.map IndividualExposure.value).sum :=
              ((List.mergeSort_perm _ _).map _).sum_eq }
  else exposure

end Exposure

/-- A validator's preferences. -/
structure ValidatorPrefs where
  commission : Perbill
  blocked : Bool
deriving DecidableEq, Inhabited

/-- The reward points of an era; the additions of `u32` wrap. -/
structure EraRewardPoints (Account : Type) where
  total : UInt32
  individual : Account → UInt32

namespace EraRewardPoints

variable {Account : Type}

/-- No points yet. -/
def empty : EraRewardPoints Account := ⟨0, fun _ => 0⟩

instance : Inhabited (EraRewardPoints Account) := ⟨empty⟩

/-- Give points to one validator. -/
def award [DecidableEq Account] (rewards : EraRewardPoints Account) (validator : Account)
    (points : UInt32) : EraRewardPoints Account where
  total := rewards.total + points
  individual := Function.update rewards.individual validator (rewards.individual validator + points)

/-- Give points to validators, one after the other. -/
def awardAll [DecidableEq Account] (rewards : EraRewardPoints Account)
    (points : List (Account × UInt32)) : EraRewardPoints Account :=
  points.foldl (fun rewards (validator, amount) => rewards.award validator amount) rewards

/-- The points of any validators add up to no more than the total. -/
def AddUp (rewards : EraRewardPoints Account) : Prop :=
  ∀ validators : Finset Account,
    ∑ validator ∈ validators, (rewards.individual validator).toNat ≤ rewards.total.toNat

theorem addUp_default : (default : EraRewardPoints Account).AddUp := by
  intro validators
  change ∑ _ ∈ validators, 0 ≤ 0
  rw [Finset.sum_const_zero]

/-- Points that the total has room for add up with those before. -/
theorem AddUp.award [DecidableEq Account] {rewards : EraRewardPoints Account}
    (adds : rewards.AddUp) (validator : Account) {points : UInt32}
    (fits : rewards.total.toNat + points.toNat < 2 ^ 32) : (rewards.award validator points).AddUp := by
  intro validators
  have total : (rewards.total + points).toNat = rewards.total.toNat + points.toNat := by
    rw [UInt32.toNat_add, Nat.mod_eq_of_lt fits]
  have own : (rewards.individual validator + points).toNat ≤
      (rewards.individual validator).toNat + points.toNat := by
    rw [UInt32.toNat_add]
    exact Nat.mod_le _ _
  calc ∑ other ∈ validators, (Function.update rewards.individual validator
          (rewards.individual validator + points) other).toNat
      ≤ ∑ other ∈ validators,
          ((rewards.individual other).toNat + if other = validator then points.toNat else 0) := by
        refine Finset.sum_le_sum fun other _ => ?_
        rw [Function.update_apply]
        split_ifs with same
        · rw [same]
          exact own
        · exact Nat.le_add_right _ _
    _ ≤ (rewards.total + points).toNat := by
        rw [Finset.sum_add_distrib, total]
        refine Nat.add_le_add (adds validators) ?_
        rw [Finset.sum_ite_eq']
        split_ifs <;> simp

/-- Points that add up below `2 ^ 32` never wrap. -/
theorem AddUp.awardAll [DecidableEq Account] {rewards : EraRewardPoints Account}
    (adds : rewards.AddUp) {points : List (Account × UInt32)}
    (fits : rewards.total.toNat + (points.map fun entry => entry.2.toNat).sum < 2 ^ 32) :
    (rewards.awardAll points).AddUp := by
  induction points generalizing rewards with
  | nil => exact adds
  | cons entry rest ih =>
    obtain ⟨validator, amount⟩ := entry
    simp only [List.map_cons, List.sum_cons] at fits
    have total : (rewards.award validator amount).total.toNat =
        rewards.total.toNat + amount.toNat := by
      change (rewards.total + amount).toNat = _
      rw [UInt32.toNat_add, Nat.mod_eq_of_lt (by omega)]
    have head : (rewards.award validator amount).AddUp := adds.award validator (by omega)
    have rest_fits : (rewards.award validator amount).total.toNat +
        (rest.map fun entry => entry.2.toNat).sum < 2 ^ 32 := by
      rw [total]
      omega
    exact ih head rest_fits

end EraRewardPoints

/-- The era that pays points now, with the moment it started. -/
structure ActiveEraInfo where
  index : ℕ
  start : Option ℕ
deriving DecidableEq

/-- Mode of era-forcing. -/
inductive Forcing
  | notForcing
  | forceNew
  | forceNone
  | forceAlways
deriving DecidableEq

/-- The outcome of an election: the winners, each with its voters and their votes. -/
abbrev Supports (Account : Type) := List (Account × List (Account × ℕ))

/-- Why a call of the pallet is refused. -/
inductive Error
  | invalidEraToReward
  | notStash
  | notController
  | alreadyClaimed
  | cannotPayout
  | alreadyBonded
  | alreadyPaired
  | insufficientBond
  | noMoreChunks
  | incorrectSlashingSpans
  | fundedTarget
  | badState
deriving DecidableEq

/-- The constants of the pallet and the parts of the runtime it is configured with. -/
structure Config (Account : Type) [DecidableEq Account] where
  currency : Currency Account
  /-- `PalletId(*b"fundreve")`, which rewards are paid from. -/
  fund : Account
  /-- `PalletId(*b"waltfund")`, whose balance moves to the fund as an era ends. -/
  wallet : Account
  fund_ne_wallet : fund ≠ wallet
  /-- `primitives::EXISTENTIAL_DEPOSIT`. -/
  existentialDeposit : ℕ
  sessionsPerEra : ℕ
  bondingDuration : ℕ
  maxNominatorRewardedPerValidator : ℕ
  /-- `CurrencyToVote::to_currency` at an issuance. -/
  toCurrency : ℕ → ℕ → ℕ

/-- The half of storage about stakers. -/
structure StakerStorage (Account : Type) where
  bonded : Account → Option Account
  ledger : Account → Option (StakingLedger Account)
  payee : Account → RewardDestination Account
  validators : Account → Option ValidatorPrefs
  nominators : Account → Bool
  minNominatorBond : ℕ
  minValidatorBond : ℕ
  /-- How many slashing spans a stash has, once it has any. -/
  slashingSpans : Account → Option ℕ

/-- The half of storage about eras, with the session index that drives it. -/
structure EraStorage (Account : Type) where
  historyDepth : UInt32
  currentEra : Option ℕ
  activeEra : Option ActiveEraInfo
  erasStartSessionIndex : ℕ → Option ℕ
  erasStakersClipped : ℕ → Account → Exposure Account
  erasValidatorPrefs : ℕ → Account → ValidatorPrefs
  erasValidatorReward : ℕ → Option ℕ
  erasRewardPoints : ℕ → EraRewardPoints Account
  erasNotClaimedReward : ℕ → Option ℕ
  forceEra : Forcing
  minimumValidatorCount : ℕ
  /-- The current index of the session pallet, once genesis has started session zero. -/
  sessionIndex : Option ℕ

/-- The storage of the chain, as far as staking uses it. -/
structure State {Account : Type} [DecidableEq Account] (config : Config Account) extends
    StakerStorage Account, EraStorage Account where
  store : config.currency.Store

/-- The storage a chain starts from, before its stakers bond. -/
def genesisState {Account : Type} [DecidableEq Account] (config : Config Account)
    (store : config.currency.Store) (historyDepth : UInt32) : State config where
  bonded _ := none
  ledger _ := none
  payee _ := .staked
  validators _ := none
  nominators _ := false
  minNominatorBond := 0
  minValidatorBond := 0
  slashingSpans _ := none
  historyDepth
  currentEra := none
  activeEra := none
  erasStartSessionIndex _ := none
  erasStakersClipped _ _ := default
  erasValidatorPrefs _ _ := default
  erasValidatorReward _ := none
  erasRewardPoints _ := default
  erasNotClaimedReward _ := none
  forceEra := .notForcing
  minimumValidatorCount := 1
  sessionIndex := none
  store

/-- A runtime over the reference currency in which every era lasts one session. -/
@[reducible] def smallConfig : Config ℕ where
  currency := referenceCurrency ℕ 1
  fund := 0
  wallet := 1
  fund_ne_wallet := by decide
  existentialDeposit := 1
  sessionsPerEra := 1
  bondingDuration := 3
  maxNominatorRewardedPerValidator := 2
  toCurrency votes _ := votes

end GlitchRuntime.Staking
