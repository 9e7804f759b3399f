import GlitchRuntime.Lib.Runs
import GlitchRuntime.Lib.Storage
import GlitchRuntime.Lib.Word

/-! # The trader of execution weight

A trader sells weight for a fee in the asset that it is offered first, and remembers one location
with what was paid there and at which rate. Refunds are paid at that rate, and what is left is
handed over when the trader is dropped.
-/

namespace GlitchRuntime.Xcm

open Lib Word

/-- Unsigned words of 128 bits. -/
abbrev U128 := BitVec 128

/-! ## Assets -/

/-- What an asset is known by: its location, or a name. -/
inductive AssetId (Location : Type)
  | concrete (location : Location)
  | named (bytes : List UInt8)
deriving DecidableEq

variable {Location Asset : Type} [DecidableEq Location]

/-- Take an amount of an asset out of the entries, and the entry when nothing is left. -/
def take : List (AssetId Location × U128) → AssetId Location → U128 →
    Option (List (AssetId Location × U128))
  | [], _, _ => none
  | (key, balance) :: rest, id, amount =>
    if key = id then
      if amount ≤ balance then
        some (if balance = amount then rest else (key, balance - amount) :: rest)
      else none
    else (take rest id amount).map fun left => (key, balance) :: left

/-- How much of an asset the entries hold. -/
def amountIn (entries : List (AssetId Location × U128)) (id : AssetId Location) : ℕ :=
  (entries.map fun entry => if entry.1 = id then entry.2.toNat else 0).sum

@[simp] theorem amountIn_cons (key : AssetId Location) (balance : U128)
    (rest : List (AssetId Location × U128)) (id : AssetId Location) :
    amountIn ((key, balance) :: rest) id =
      (if key = id then balance.toNat else 0) + amountIn rest id := rfl

/-- Taking an amount out lowers what is held of that asset, and of no other. -/
theorem amountIn_take {entries left : List (AssetId Location × U128)} {id : AssetId Location}
    {amount : U128} (taken : take entries id amount = some left) (other : AssetId Location) :
    amountIn left other + (if other = id then amount.toNat else 0) = amountIn entries other := by
  induction entries generalizing left with
  | nil => contradiction
  | cons entry rest ih =>
    obtain ⟨key, balance⟩ := entry
    simp only [take] at taken
    by_cases here : key = id
    · subst here
      rw [if_pos rfl] at taken
      split_ifs at taken with covered nothing
      · -- the entry is spent and goes
        obtain rfl := Option.some.inj taken
        rw [amountIn_cons, nothing]
        grind
      · obtain rfl := Option.some.inj taken
        have difference := BitVec.toNat_sub_of_le covered
        rw [BitVec.le_def] at covered
        rw [amountIn_cons, amountIn_cons, difference]
        grind
    · rw [if_neg here] at taken
      obtain ⟨later, found, rfl⟩ := Option.map_eq_some_iff.mp taken
      have tail := ih found
      rw [amountIn_cons, amountIn_cons]
      omega

theorem take_keys {entries left : List (AssetId Location × U128)} {id : AssetId Location}
    {amount : U128} (taken : take entries id amount = some left) :
    (left.map Prod.fst).Sublist (entries.map Prod.fst) := by
  induction entries generalizing left with
  | nil => contradiction
  | cons entry rest ih =>
    obtain ⟨key, balance⟩ := entry
    simp only [take] at taken
    split_ifs at taken with here covered nothing
    · obtain rfl := Option.some.inj taken
      exact List.sublist_cons_self ..
    · obtain rfl := Option.some.inj taken
      exact List.Sublist.refl _
    · obtain ⟨later, found, rfl⟩ := Option.map_eq_some_iff.mp taken
      exact (ih found).cons_cons key

/-- Fungible assets in the order of their names, each once. -/
structure Assets (Location : Type) where
  fungible : List (AssetId Location × U128)
  nodup : (fungible.map Prod.fst).Nodup

namespace Assets

/-- How much of an asset there is. -/
def amount (assets : Assets Location) (id : AssetId Location) : ℕ :=
  amountIn assets.fungible id

/-- The assets without an amount of one, if there is that much. -/
def checkedSub (assets : Assets Location) (id : AssetId Location) (amount : U128) :
    Option (Assets Location) :=
  match taken : take assets.fungible id amount with
  | none => none
  | some left => some ⟨left, (take_keys taken).nodup assets.nodup⟩

theorem amount_checkedSub {assets unused : Assets Location} {id : AssetId Location} {fee : U128}
    (paid : assets.checkedSub id fee = some unused) (other : AssetId Location) :
    unused.amount other + (if other = id then fee.toNat else 0) = assets.amount other := by
  unfold checkedSub at paid
  split at paid
  · contradiction
  · next left taken =>
    obtain rfl := Option.some.inj paid
    exact amountIn_take taken other

end Assets

/-! ## The trader -/

/-- The errors of the trader. -/
inductive XcmError
  | tooExpensive
  | assetNotFound
deriving DecidableEq

/-- How locations name assets and what weight costs in them, at the time of a purchase. -/
structure Rates (Location Asset : Type) where
  convert : Location → Option Asset
  unitsPerSecond : Asset → Option U128

/-- A location, what was paid there, and the units that a second of weight costs. -/
structure Slot (Location : Type) where
  location : Location
  amount : U128
  unitsPerSecond : U128
deriving DecidableEq

/-- The weight that can be refunded, and the payments of one location. -/
structure Trader (Location : Type) where
  weight : U64 := 0
  slot : Option (Slot Location) := none
deriving DecidableEq

/-- The weight of one second. -/
def weightPerSecond : U128 := 1000000000000

/-- The fee for a weight in the asset that comes first, by its rate. -/
def quote (rates : Rates Location Asset) (weight : U64) (payment : Assets Location) :
    Except XcmError (Slot Location) := do
  let first ← okOr payment.fungible.head? .tooExpensive
  match first.1 with
  | .named _ => .error .tooExpensive
  | .concrete id => do
    let assetId ← okOr (rates.convert id) .assetNotFound
    let unitsPerSecond ← okOr (rates.unitsPerSecond assetId) .tooExpensive
    pure ⟨id, saturatingMul unitsPerSecond (weight.setWidth 128) / weightPerSecond, unitsPerSecond⟩

/-- The payments to remember: none when the asset is not that of the payments before. -/
def newInfo (previous : Option (Slot Location)) (fee : Slot Location) :
    Except XcmError (Option (Slot Location)) :=
  match previous with
  | none => .ok (some fee)
  | some before =>
    if before.location = fee.location then
      if fee.unitsPerSecond ≠ before.unitsPerSecond then .error .tooExpensive
      else .ok (some { fee with amount := saturatingAdd before.amount fee.amount })
    else .ok none

/-- Count the weight, again, and remember the payments, if there are any to remember. -/
def record (weight : U64) (info : Option (Slot Location)) (trader : Trader Location) :
    Trader Location :=
  match info with
  | none => trader
  | some slot => { weight := saturatingAdd trader.weight weight, slot := some slot }

/-- Sell a weight for what is offered, and return what was not used. -/
def buyWeight (rates : Rates Location Asset) (weight : U64) (payment : Assets Location) :
    Action XcmError (Trader Location) (Assets Location) := do
  let fee ← .ofExcept (quote rates weight payment)
  if fee.amount = 0 then pure payment
  else
    let unused ← .ofExcept
      (okOr (payment.checkedSub (.concrete fee.location) fee.amount) .tooExpensive)
    modify fun trader => { trader with weight := saturatingAdd trader.weight weight }
    let trader ← get
    let info ← .ofExcept (newInfo trader.slot fee)
    modify (record weight info)
    pure unused

/-- What a weight is refunded with: the product wraps. -/
def refundAmount (unitsPerSecond : U128) (weight : U64) : U128 :=
  unitsPerSecond * weight.setWidth 128 / weightPerSecond

/-- Refund a weight at the remembered rate. -/
def refundWeight (trader : Trader Location) (weight : U64) :
    Option (Location × U128) × Trader Location :=
  match trader.slot with
  | none => (none, trader)
  | some slot =>
    let weight := lesser weight trader.weight
    let amount := refundAmount slot.unitsPerSecond weight
    (some (slot.location, amount),
      { weight := trader.weight - weight
        slot := some { slot with amount := saturatingSub slot.amount amount } })

/-- What is handed over when the trader is dropped. -/
def takeRevenue (trader : Trader Location) : Option (Location × U128) :=
  trader.slot.map fun slot => (slot.location, slot.amount)

/-! ## What the calls do -/

theorem toNat_weightPerSecond : weightPerSecond.toNat = 10 ^ 12 := by decide

theorem toNat_widen (weight : U64) : (weight.setWidth 128).toNat = weight.toNat := by
  have small := weight.isLt
  rw [BitVec.toNat_setWidth, Nat.mod_eq_of_lt (by omega)]

theorem toNat_refundAmount (unitsPerSecond : U128) (weight : U64) :
    (refundAmount unitsPerSecond weight).toNat =
      unitsPerSecond.toNat * weight.toNat % 2 ^ 128 / 10 ^ 12 := by
  rw [refundAmount, BitVec.toNat_udiv, toNat_weightPerSecond, BitVec.toNat_mul, toNat_widen]

omit [DecidableEq Location] in
theorem record_slot (weight : U64) (info : Option (Slot Location)) (trader : Trader Location) :
    (record weight info trader).slot = info.or trader.slot := by
  cases info <;> rfl

/-- A purchase that goes through takes no fee, or the quoted one and remembers it. -/
theorem buyWeight_ok {rates : Rates Location Asset} {weight : U64}
    {payment unused : Assets Location} {trader after : Trader Location}
    (success : (buyWeight rates weight payment).run trader = .ok unused after) :
    ∃ fee, quote rates weight payment = .ok fee ∧
      ((unused = payment ∧ after = trader) ∨
        fee.amount ≠ 0 ∧
          payment.checkedSub (.concrete fee.location) fee.amount = some unused ∧
          ∃ info, newInfo trader.slot fee = .ok info ∧
            after = record weight info
              { trader with weight := saturatingAdd trader.weight weight }) := by
  simp only [buyWeight, Action.run_bind_ok, Action.run_ofExcept_ok] at success
  obtain ⟨fee, _, ⟨quoted, rfl⟩, rest⟩ := success
  refine ⟨fee, quoted, ?_⟩
  split_ifs at rest with low
  · obtain ⟨rfl, rfl⟩ := Action.run_pure_ok.mp rest
    exact .inl ⟨rfl, rfl⟩
  · simp only [Action.run_bind_ok, Action.run_get_ok, Action.run_modify_ok, Action.run_pure_ok,
      Action.run_ofExcept_ok, okOr_eq_ok] at rest
    obtain ⟨_, _, ⟨paid, rfl⟩, _, _, rfl, _, _, ⟨rfl, rfl⟩, info, _, ⟨known, rfl⟩, _, _, rfl, rfl,
      rfl⟩ := rest
    exact .inr ⟨low, paid, info, known, rfl⟩

/-- A purchase that is refused leaves the payments as they are. -/
theorem buyWeight_error {rates : Rates Location Asset} {weight : U64} {payment : Assets Location}
    {trader after : Trader Location} {problem : XcmError}
    (refused : (buyWeight rates weight payment).run trader = .error problem after) :
    after.slot = trader.slot := by
  simp only [buyWeight, Action.run_bind_error, Action.run_ofExcept_ok,
    Action.run_ofExcept_error] at refused
  rcases refused with ⟨_, rfl⟩ | ⟨fee, _, ⟨_, rfl⟩, rest⟩
  · rfl
  · split_ifs at rest with low
    · exact absurd rest Action.run_pure_error
    · simp only [Action.run_bind_error, Action.run_ofExcept_error, Action.run_ofExcept_ok,
        Action.run_modify_error, Action.run_modify_ok, Action.run_get_error, Action.run_get_ok,
        Action.run_pure_error, false_or, and_false, exists_false, or_false] at rest
      rcases rest with ⟨_, rfl⟩ | ⟨_, _, ⟨_, rfl⟩, _, _, rfl, _, _, ⟨rfl, rfl⟩, _, rfl⟩
      · rfl
      · rfl

/-! ## The trader as a machine -/

/-- The calls on a trader. -/
inductive Label (Location Asset : Type)
  | buyWeight (rates : Rates Location Asset) (weight : U64) (payment : Assets Location)
  | refundWeight (weight : U64)

/-- What a call exchanged. -/
inductive Receipt (Location : Type)
  | bought (payment unused : Assets Location)
  | refunded (location : Location) (amount : U128)

/-- The machine of a trader: a refused purchase leaves the trader as far as it got. -/
def trading : Machine (Trader Location) (Label Location Asset) XcmError (Receipt Location) where
  step trader
    | .buyWeight rates weight payment =>
      match (buyWeight rates weight payment).run trader with
      | .ok unused after => .ok (after, [.bought payment unused])
      | .error _ after => .ok (after, [])
    | .refundWeight weight =>
      .ok ((refundWeight trader weight).2,
        (refundWeight trader weight).1.toList.map fun refund => .refunded refund.1 refund.2)

/-- What a purchase kept of an asset. -/
def withheldOf (id : AssetId Location) : Receipt Location → ℕ
  | .bought payment unused => payment.amount id - unused.amount id
  | .refunded _ _ => 0

/-- What a refund gave back of an asset. -/
def refundedOf (id : AssetId Location) : Receipt Location → ℕ
  | .bought _ _ => 0
  | .refunded location amount => if id = .concrete location then amount.toNat else 0

/-- The sum of a quantity of receipts. -/
def tally (quantity : Receipt Location → ℕ) (log : List (Receipt Location)) : ℕ :=
  (log.map quantity).sum

omit [DecidableEq Location] in
@[simp] theorem tally_append (quantity : Receipt Location → ℕ) (first second : List (Receipt Location)) :
    tally quantity (first ++ second) = tally quantity first + tally quantity second := by
  simp [tally]

/-- How much of an asset is remembered. -/
def slotAmount (slot : Option (Slot Location)) (id : AssetId Location) : ℕ :=
  match slot with
  | none => 0
  | some info => if id = .concrete info.location then info.amount.toNat else 0

/-- What is handed over of an asset when the trader is dropped. -/
def revenueOf (trader : Trader Location) (id : AssetId Location) : ℕ :=
  match takeRevenue trader with
  | none => 0
  | some (location, amount) => if id = .concrete location then amount.toNat else 0

theorem revenueOf_eq (trader : Trader Location) (id : AssetId Location) :
    revenueOf trader id = slotAmount trader.slot id := by
  unfold revenueOf takeRevenue slotAmount
  cases trader.slot <;> rfl

/-- A purchase that takes a fee takes it where the trader remembers payments, if it remembers any,
and the sum fits; the refund for a weight, or for the counter if that is less, costs at the
remembered rate at most what is remembered, as far as a word holds the product. -/
def Conserves (trader : Trader Location) : Label Location Asset → Prop
  | .buyWeight rates weight payment =>
    ∀ fee ∈ (quote rates weight payment).toOption, ∀ before ∈ trader.slot,
      fee.amount = 0 ∨
      (payment.checkedSub (.concrete fee.location) fee.amount).isNone ∨
      before.location = fee.location ∧ (before.unitsPerSecond = fee.unitsPerSecond →
        before.amount.toNat + fee.amount.toNat < 2 ^ 128)
  | .refundWeight weight =>
    ∀ before ∈ trader.slot,
      before.unitsPerSecond.toNat * min weight.toNat trader.weight.toNat % 2 ^ 128 / 10 ^ 12 ≤
        before.amount.toNat

instance (trader : Trader Location) (label : Label Location Asset) :
    Decidable (Conserves trader label) :=
  match label with
  | .buyWeight _ _ _ => inferInstanceAs (Decidable (∀ _ ∈ _, ∀ _ ∈ _, _ ∨ _ ∨ _ ∧ (_ → _)))
  | .refundWeight _ => inferInstanceAs (Decidable (∀ _ ∈ _, _ ≤ _))

/-- What the trader remembers after a fee is what it remembered before and the fee. -/
theorem newInfo_amount {previous info : Option (Slot Location)} {fee : Slot Location}
    (known : newInfo previous fee = .ok info)
    (fits : ∀ before ∈ previous, before.location = fee.location ∧
      (before.unitsPerSecond = fee.unitsPerSecond →
        before.amount.toNat + fee.amount.toNat < 2 ^ 128))
    (id : AssetId Location) :
    slotAmount (info.or previous) id = slotAmount previous id +
      if id = .concrete fee.location then fee.amount.toNat else 0 := by
  unfold newInfo at known
  cases previous with
  | none =>
    obtain rfl := Except.ok.inj known
    simp [slotAmount]
  | some before =>
    obtain ⟨same, sum⟩ := fits before rfl
    simp only [if_pos same] at known
    split_ifs at known with changed
    obtain rfl := Except.ok.inj known
    have whole : (saturatingAdd before.amount fee.amount).toNat =
        before.amount.toNat + fee.amount.toNat := by
      have small := sum (not_ne_iff.mp changed).symm
      rw [toNat_saturatingAdd]
      omega
    simp only [slotAmount, Option.some_or, same, whole]
    split_ifs <;> omega

/-- A step that conserves moves what is remembered by what it withheld and refunded. -/
theorem step_conserves {trader next : Trader Location} {label : Label Location Asset}
    {out : List (Receipt Location)} (conserves : Conserves trader label)
    (taken : trading.step trader label = .ok (next, out)) (id : AssetId Location) :
    tally (refundedOf id) out + slotAmount next.slot id =
      slotAmount trader.slot id + tally (withheldOf id) out := by
  cases label with
  | buyWeight rates weight payment =>
    simp only [trading] at taken
    split at taken
    · next unused after success =>
      obtain ⟨rfl, rfl⟩ := by simpa using taken
      obtain ⟨fee, quoted, ⟨rfl, rfl⟩ | ⟨charged, paid, info, known, rfl⟩⟩ := buyWeight_ok success
      · simp [tally, refundedOf, withheldOf]
      · have difference := Assets.amount_checkedSub paid id
        have fits : ∀ before ∈ trader.slot, before.location = fee.location ∧
            (before.unitsPerSecond = fee.unitsPerSecond →
              before.amount.toNat + fee.amount.toNat < 2 ^ 128) := by
          intro before isBefore
          rcases conserves fee (congrArg Except.toOption quoted) before isBefore with
            low | unpaid | fits
          · contradiction
          · rw [paid] at unpaid
            contradiction
          · exact fits
        have remembered := newInfo_amount known fits id
        rw [record_slot, remembered]
        simp only [tally, refundedOf, withheldOf, List.map_cons, List.map_nil, List.sum_cons,
          List.sum_nil]
        omega
    · next problem after refused =>
      obtain ⟨rfl, rfl⟩ := by simpa using taken
      simp [tally, buyWeight_error refused]
  | refundWeight weight =>
    simp only [trading, Except.ok.injEq, Prod.mk.injEq] at taken
    obtain ⟨rfl, rfl⟩ := taken
    unfold refundWeight
    cases remembers : trader.slot with
    | none => simp [tally, remembers]
    | some slot =>
      have within : (refundAmount slot.unitsPerSecond (lesser weight trader.weight)).toNat ≤
          slot.amount.toNat := by
        rw [toNat_refundAmount, toNat_lesser]
        exact conserves slot remembers
      simp only [slotAmount, tally, refundedOf, withheldOf, Option.toList_some, List.map_cons,
        List.map_nil, List.sum_cons, List.sum_nil, toNat_saturatingSub]
      split_ifs <;> omega

/-- In a run whose steps conserve, what was withheld of an asset was refunded or is handed over. -/
theorem fees_conserved {trader : Trader Location} {log : List (Receipt Location)}
    (run : Machine.GuardedRun
      (trading : Machine (Trader Location) (Label Location Asset) XcmError (Receipt Location))
      Conserves {} log trader)
    (id : AssetId Location) :
    tally (withheldOf id) log = tally (refundedOf id) log + revenueOf trader id := by
  rw [revenueOf_eq]
  apply run.preserves fun trader log =>
    tally (withheldOf id) log = tally (refundedOf id) log + slotAmount trader.slot id
  · rfl
  · intro trader next receipts out label before conserves taken
    have moved := step_conserves conserves taken id
    rw [tally_append, tally_append]
    omega

/-- One unit for a unit of weight, at every location. -/
def flatRates : Rates ℕ ℕ where
  convert location := some location
  unitsPerSecond _ := some weightPerSecond

/-- A hundred units at one location. -/
def hundred (location : ℕ) : Assets ℕ where
  fungible := [(.concrete location, 100)]
  nodup := List.nodup_singleton _

/-- The machine of a trader that refuses what does not conserve. -/
def careful : Machine (Trader ℕ) (Label ℕ ℕ) XcmError (Receipt ℕ) :=
  trading.guarded Conserves .tooExpensive

/-- Of ten units that are withheld, five are refunded and five are left. -/
theorem halfRefund_conserved :
    let result := careful.outcome {} [.buyWeight flatRates 10 (hundred 1), .refundWeight 5]
    tally (withheldOf (.concrete 1)) result.2 = 10 ∧
      tally (withheldOf (.concrete 1)) result.2 =
        tally (refundedOf (.concrete 1)) result.2 + revenueOf result.1 (.concrete 1) := by
  refine ⟨by decide +kernel, ?_⟩
  apply fees_conserved
  exact Machine.guardedRun_outcome (by decide +kernel)

/-- Where the calls lead a new trader. -/
def traded (labels : List (Label ℕ ℕ)) : Trader ℕ × List (Receipt ℕ) :=
  trading.outcome {} labels

/-- The weight is counted twice, so that twice the fee is refunded; and a fee in a second asset is
never handed over. -/
theorem fees_not_conserved :
    let refunded := traded [.buyWeight flatRates 10 (hundred 1), .refundWeight 20]
    let mixed := traded [.buyWeight flatRates 10 (hundred 1), .buyWeight flatRates 10 (hundred 2)]
    (Machine.Run trading (fun _ : Label ℕ ℕ => True) {} refunded.2 refunded.1 ∧
      tally (withheldOf (.concrete 1)) refunded.2 = 10 ∧
      tally (refundedOf (.concrete 1)) refunded.2 = 20 ∧
      revenueOf refunded.1 (.concrete 1) = 0) ∧
    Machine.Run trading (fun _ : Label ℕ ℕ => True) {} mixed.2 mixed.1 ∧
      tally (withheldOf (.concrete 2)) mixed.2 = 10 ∧
      tally (refundedOf (.concrete 2)) mixed.2 = 0 ∧
      revenueOf mixed.1 (.concrete 2) = 0 := by
  refine ⟨⟨Machine.run_outcome (fun _ _ => trivial) ?_, ?_⟩,
    Machine.run_outcome (fun _ _ => trivial) ?_, ?_⟩
  all_goals decide +kernel

end GlitchRuntime.Xcm
