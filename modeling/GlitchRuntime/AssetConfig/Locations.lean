import GlitchRuntime.Lib.Fallible
import GlitchRuntime.Lib.Pairing
import GlitchRuntime.Lib.Runs

/-! # Locations of assets

Two tables name the location of every asset and the asset at every location. The current location
has two representations, itself and the location `here`, and the registration compares
representations: the tables identify assets by what their locations denote as long as the second
one is not registered.
-/

namespace GlitchRuntime.AssetConfig

open Lib

/-! ## Locations -/

/-- Where an asset lives. -/
inductive AssetLocation (MultiLocation : Type)
  | current
  | para (location : MultiLocation)
deriving DecidableEq

variable {MultiLocation AssetId : Type} [DecidableEq MultiLocation] [DecidableEq AssetId]
  {here : MultiLocation}

namespace AssetLocation

/-- The current location, written as such. -/
def normalize (here : MultiLocation) (location : AssetLocation MultiLocation) :
    AssetLocation MultiLocation :=
  match location with
  | current => current
  | para l => if l = here then current else para l

/-- From a location, normalized. -/
def ofMultiLocation (here : MultiLocation) (location : MultiLocation) :
    AssetLocation MultiLocation :=
  normalize here (para location)

/-- Into the location that it denotes. -/
def intoMultiLocation (here : MultiLocation) : AssetLocation MultiLocation → Option MultiLocation
  | current => some here
  | para l => some l

end AssetLocation

open AssetLocation

/-! ## The pallet -/

/-- The storage: where assets are, which assets are there, and what a second costs in them. -/
structure State (MultiLocation AssetId : Type) where
  assetIdLocation : AssetId → Option (AssetLocation MultiLocation)
  assetLocationId : AssetLocation MultiLocation → Option AssetId
  feeRatePerSecond : AssetId → Option ℕ

inductive Error
  | badOrigin
  | assetAlreadyRegistered
deriving DecidableEq

inductive Event (MultiLocation AssetId : Type)
  | feeRateChanged (assetId : AssetId) (feeRate : Option ℕ)
  | assetLocationRegistered (assetId : AssetId) (location : AssetLocation MultiLocation)

inductive Origin
  | root
  | signed
  | none
deriving DecidableEq

inductive Call (MultiLocation AssetId : Type)
  | setFeeRate (assetId : AssetId) (feeRate : Option ℕ)
  | registerAssetLocation (location : AssetLocation MultiLocation) (assetId : AssetId)

def setFeeRate (state : State MultiLocation AssetId) (origin : Origin) (assetId : AssetId)
    (feeRate : Option ℕ) :
    Except Error (State MultiLocation AssetId × List (Event MultiLocation AssetId)) := do
  ensure (origin = .root) .badOrigin
  pure ({ state with
      feeRatePerSecond := Function.update state.feeRatePerSecond assetId feeRate },
    [.feeRateChanged assetId feeRate])

def registerAssetLocation (state : State MultiLocation AssetId) (origin : Origin)
    (location : AssetLocation MultiLocation) (assetId : AssetId) :
    Except Error (State MultiLocation AssetId × List (Event MultiLocation AssetId)) := do
  ensure (origin = .root) .badOrigin
  ensure (state.assetIdLocation assetId = none) .assetAlreadyRegistered
  ensure (state.assetLocationId location = none) .assetAlreadyRegistered
  pure ({ state with
      assetIdLocation := Function.update state.assetIdLocation assetId (some location)
      assetLocationId := Function.update state.assetLocationId location (some assetId) },
    [.assetLocationRegistered assetId location])

/-- The machine of the pallet, which leaves its events. -/
def pallet : Machine (State MultiLocation AssetId) (Origin × Call MultiLocation AssetId) Error
    (Event MultiLocation AssetId) where
  step state
    | (origin, .setFeeRate assetId feeRate) => setFeeRate state origin assetId feeRate
    | (origin, .registerAssetLocation location assetId) =>
      registerAssetLocation state origin location assetId

/-- Nothing is registered. -/
def empty : State MultiLocation AssetId where
  assetIdLocation _ := none
  assetLocationId _ := none
  feeRatePerSecond _ := none

/-! ## The tables as pairs -/

/-- The tables are each other's inverse. -/
def Synced (state : State MultiLocation AssetId) : Prop :=
  ∀ assetId location, state.assetIdLocation assetId = some location ↔
    state.assetLocationId location = some assetId

/-- No two assets have locations that denote the same, and an asset is found at what its location
denotes. -/
structure Identifies (here : MultiLocation) (state : State MultiLocation AssetId) : Prop where
  unique : ∀ {assetId other : AssetId} {location place : AssetLocation MultiLocation},
    state.assetIdLocation assetId = some location → state.assetIdLocation other = some place →
    intoMultiLocation here location = intoMultiLocation here place → assetId = other
  found : ∀ {assetId : AssetId} {location : AssetLocation MultiLocation} {target : MultiLocation},
    state.assetIdLocation assetId = some location →
    intoMultiLocation here location = some target →
    state.assetLocationId (ofMultiLocation here target) = some assetId

/-- `here` written out is the location of no asset. -/
def Canonical (here : MultiLocation) (state : State MultiLocation AssetId) : Prop :=
  ∀ assetId, state.assetIdLocation assetId ≠ some (.para here)

/-- The tables are the two directions of some pairs. -/
structure Represents (state : State MultiLocation AssetId)
    (pairs : AssetId ≃. AssetLocation MultiLocation) : Prop where
  forward : state.assetIdLocation = pairs
  backward : state.assetLocationId = pairs.symm

/-- The tables are the two directions of whatever pairs there are. -/
def Represented (state : State MultiLocation AssetId) : Prop :=
  ∃ pairs, Represents state pairs

omit [DecidableEq MultiLocation] [DecidableEq AssetId] in
theorem empty_represented : Represented (empty : State MultiLocation AssetId) :=
  ⟨⊥, rfl, rfl⟩

/-- The location that is denoted. -/
def denoted (here : MultiLocation) (location : AssetLocation MultiLocation) : MultiLocation :=
  match location with
  | .current => here
  | .para l => l

omit [DecidableEq MultiLocation] in
theorem intoMultiLocation_eq (location : AssetLocation MultiLocation) :
    intoMultiLocation here location = some (denoted here location) := by
  cases location <;> rfl

/-- Every location but `here` written out is the one that its denotation is turned into. -/
theorem ofMultiLocation_denoted {location : AssetLocation MultiLocation} :
    ofMultiLocation here (denoted here location) = location ↔ location ≠ .para here := by
  cases location with
  | current => simp [ofMultiLocation, AssetLocation.normalize, denoted]
  | para l =>
    simp only [ofMultiLocation, AssetLocation.normalize, denoted]
    split_ifs with same <;> simp [same]

section represented

variable {state : State MultiLocation AssetId} {pairs : AssetId ≃. AssetLocation MultiLocation}

omit [DecidableEq MultiLocation] [DecidableEq AssetId] in
theorem Represents.synced (represents : Represents state pairs) : Synced state := by
  intro assetId location
  rw [represents.forward, represents.backward]
  exact pairs.eq_some_iff.symm

omit [DecidableEq AssetId] in
/-- The tables identify assets exactly when `here` written out is not registered. -/
theorem Represents.identifies_iff (represents : Represents state pairs) :
    Identifies here state ↔ Canonical here state := by
  have canonical : Identifies here state ↔
      ∀ {assetId : AssetId} {location : AssetLocation MultiLocation},
        pairs assetId = some location → ofMultiLocation here (denoted here location) = location := by
    rw [← pairs.identifies_iff]
    constructor
    · intro identifies
      constructor
      · intro assetId other location place first second same
        apply identifies.unique
        · rw [represents.forward, first]
        · rw [represents.forward, second]
        · rw [intoMultiLocation_eq, intoMultiLocation_eq, same]
      · intro assetId location paired
        rw [← represents.backward]
        apply identifies.found _ (intoMultiLocation_eq location)
        rw [represents.forward, paired]
    · rintro ⟨unique, found⟩
      constructor
      · intro assetId other location place first second same
        rw [represents.forward] at first second
        apply unique first second
        simpa [intoMultiLocation_eq] using same
      · intro assetId location target paired denotes
        rw [represents.forward] at paired
        rw [intoMultiLocation_eq, Option.some.injEq] at denotes
        rw [represents.backward, ← denotes]
        exact found paired
  rw [canonical, Canonical, represents.forward]
  constructor
  · intro named assetId paired
    exact ofMultiLocation_denoted.mp (named paired) rfl
  · intro apart assetId location paired
    apply ofMultiLocation_denoted.mpr
    rintro rfl
    exact apart assetId paired

end represented

/-! ## Runs of registrations -/

/-- The call does not register `here` written out. -/
def Normalized (here : MultiLocation) (_ : State MultiLocation AssetId) :
    Origin × Call MultiLocation AssetId → Prop
  | (_, .setFeeRate _ _) => True
  | (_, .registerAssetLocation location _) => location ≠ .para here

instance (state : State MultiLocation AssetId) (label : Origin × Call MultiLocation AssetId) :
    Decidable (Normalized here state label) :=
  match label with
  | (_, .setFeeRate _ _) => inferInstanceAs (Decidable True)
  | (_, .registerAssetLocation _ _) => inferInstanceAs (Decidable (_ ≠ _))

/-- What a step of the pallet does. -/
inductive Moved (state : State MultiLocation AssetId) :
    Origin × Call MultiLocation AssetId → State MultiLocation AssetId → Prop
  | rated {origin : Origin} {assetId : AssetId} {feeRate : Option ℕ} :
      Moved state (origin, .setFeeRate assetId feeRate)
        { state with feeRatePerSecond := Function.update state.feeRatePerSecond assetId feeRate }
  | registered {origin : Origin} {location : AssetLocation MultiLocation} {assetId : AssetId}
      (freeId : state.assetIdLocation assetId = none)
      (freeLocation : state.assetLocationId location = none) :
      Moved state (origin, .registerAssetLocation location assetId)
        { state with
          assetIdLocation := Function.update state.assetIdLocation assetId (some location)
          assetLocationId := Function.update state.assetLocationId location (some assetId) }

theorem step_moved {state next : State MultiLocation AssetId}
    {label : Origin × Call MultiLocation AssetId} {out : List (Event MultiLocation AssetId)}
    (taken : pallet.step state label = .ok (next, out)) : Moved state label next := by
  rcases label with ⟨origin, ⟨assetId, feeRate⟩ | ⟨location, assetId⟩⟩
  · simp only [pallet, setFeeRate, bind_eq_ok, ensure_eq_ok, pure_eq_ok, Prod.mk.injEq] at taken
    obtain ⟨_, _, rfl, rfl⟩ := taken
    exact .rated
  · simp only [pallet, registerAssetLocation, bind_eq_ok, ensure_eq_ok, pure_eq_ok,
      Prod.mk.injEq] at taken
    obtain ⟨_, _, _, freeId, _, freeLocation, rfl, rfl⟩ := taken
    exact .registered freeId freeLocation

/-- The tables stay the two directions of some pairs. -/
theorem Moved.represents {state next : State MultiLocation AssetId}
    {label : Origin × Call MultiLocation AssetId} (moved : Moved state label next)
    (represented : Represented state) : Represented next := by
  obtain ⟨pairs, represents⟩ := represented
  cases moved with
  | rated => exact ⟨pairs, represents.forward, represents.backward⟩
  | @registered _ location assetId freeId freeLocation =>
    have freeLeft : pairs assetId = none := by rw [← represents.forward, freeId]
    have freeRight : pairs.symm location = none := by rw [← represents.backward, freeLocation]
    refine ⟨pairs.insert assetId location freeLeft freeRight, ?_, ?_⟩
    · rw [PEquiv.coe_insert, represents.forward]
    · rw [PEquiv.coe_symm_insert, represents.backward]

/-- `here` written out is registered after a step when it was before or the call registers it. -/
theorem Moved.canonical_iff {state next : State MultiLocation AssetId}
    {label : Origin × Call MultiLocation AssetId} (moved : Moved state label next) :
    Canonical here next ↔ Canonical here state ∧ Normalized here state label := by
  cases moved with
  | rated => simp [Canonical, Normalized]
  | @registered _ location assetId freeId =>
    simp only [Canonical, Normalized]
    constructor
    · intro apart
      constructor
      · intro other present
        have different : other ≠ assetId := by
          rintro rfl
          rw [freeId] at present
          contradiction
        apply apart other
        rw [Function.update_of_ne different, present]
      · rintro rfl
        apply apart assetId
        rw [Function.update_self]
    · rintro ⟨apart, normalized⟩ other
      rw [Function.update_apply]
      split_ifs
      · exact fun same => normalized (Option.some.inj same)
      · exact apart other

/-- After a run of calls the tables are inverse, and they identify assets by what their locations
denote, exactly when no call of the run registered `here` written out. -/
theorem locations_identify_iff {state : State MultiLocation AssetId}
    {log : List (Event MultiLocation AssetId)}
    (run : Machine.Run pallet (fun _ => True) empty log state) :
    Synced state ∧ Identifies here state ↔
      Machine.GuardedRun pallet (Normalized here) empty log state := by
  obtain ⟨pairs, represents⟩ : Represented state :=
    run.preserves (fun state _ => Represented state) empty_represented
      fun represented _ taken => (step_moved taken).represents represented
  rw [represents.identifies_iff, and_iff_right represents.synced]
  apply run.iff_guardedRun empty_represented
  · intro assetId present
    contradiction
  · exact fun represented taken => (step_moved taken).represents represented
  · exact fun _ taken => (step_moved taken).canonical_iff

/-- Two assets at different locations, of which the first is the current one. -/
def twoPlaces : List (Origin × Call ℕ ℕ) :=
  [(.root, .registerAssetLocation .current 1), (.root, .registerAssetLocation (.para 7) 2),
    (.root, .setFeeRate 2 (some 5))]

/-- Where the calls lead from no registrations. -/
def registered (labels : List (Origin × Call ℕ ℕ)) : State ℕ ℕ × List (Event ℕ ℕ) :=
  pallet.outcome empty labels

/-- With `here` the location 0, both assets are identified. -/
theorem twoPlaces_identify :
    Synced (registered twoPlaces).1 ∧ Identifies 0 (registered twoPlaces).1 ∧
      (registered twoPlaces).1.assetIdLocation 1 = some .current ∧
      (registered twoPlaces).1.assetLocationId (.para 7) = some 2 := by
  have run : Machine.Run pallet (fun _ => True) empty _ (registered twoPlaces).1 :=
    Machine.run_outcome (fun _ _ => trivial) (by decide +kernel)
  have normalized : Machine.GuardedRun pallet (Normalized 0) empty _ (registered twoPlaces).1 :=
    Machine.guardedRun_of_replay .badOrigin (by decide +kernel)
  obtain ⟨synced, identifies⟩ := (locations_identify_iff run).mpr normalized
  exact ⟨synced, identifies, by decide +kernel, by decide +kernel⟩

/-- Two assets at the current location, one of them with `here` written out. -/
def sharedPlace : List (Origin × Call ℕ ℕ) :=
  [(.root, .registerAssetLocation .current 1), (.root, .registerAssetLocation (.para 0) 2)]

/-- Both are registered and denote the same, and the second is not found there. -/
theorem sharedPlace_confused :
    Machine.Run pallet (fun _ => True) empty (registered sharedPlace).2 (registered sharedPlace).1 ∧
      ¬ Identifies 0 (registered sharedPlace).1 ∧
      (registered sharedPlace).1.assetLocationId (ofMultiLocation 0 0) = some 1 := by
  refine ⟨Machine.run_outcome (fun _ _ => trivial) (by decide +kernel), ?_, by decide +kernel⟩
  intro identifies
  have first : (registered sharedPlace).1.assetIdLocation 1 = some .current := by decide +kernel
  have second : (registered sharedPlace).1.assetIdLocation 2 = some (.para 0) := by decide +kernel
  have same : (1 : ℕ) = 2 := identifies.unique first second rfl
  contradiction

end GlitchRuntime.AssetConfig
