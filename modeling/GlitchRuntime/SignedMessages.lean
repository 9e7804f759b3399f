import GlitchRuntime.Claims.Pallet
import GlitchRuntime.EvmAccounts.Mapping

/-! # What a signature stands for

The messages behind claims and behind mappings of accounts run a length, a marker and hex together
without separators. All lengths in them are fixed, so that a message is for one account, and one
transaction, only.
-/

namespace GlitchRuntime

open Lib

/-- An encoding with all of its values equally long, and different. -/
structure FixedWidth {α : Type} (encode : α → List UInt8) (width : ℕ) : Prop where
  length : ∀ value, (encode value).length = width
  injective : Function.Injective encode

/-- The bytes of an array are their own encoding. -/
theorem toList_fixedWidth (n : ℕ) : FixedWidth (Vector.toList : Bytes n → List UInt8) n where
  length _ := Vector.length_toList
  injective _ _ same := Vector.toList_inj.mp same

/-- The message to sign for a claim. -/
def claimMessage {Account : Type} [DecidableEq Account] (config : Claims.Config Account)
    (dest : Account) (tx : Claims.EthereumTxHash) : List UInt8 :=
  ethereumSignableMessage config.marker (toAsciiHex (config.encode dest)) (toAsciiHex tx.toList)

/-- The message to sign for a mapping of an account. -/
def mappingMessage {Account : Type} (encode : Account → List UInt8) (who : Account) : List UInt8 :=
  ethereumSignableMessage EvmAccounts.messageMarker (toAsciiHex (encode who)) []

section messages

variable {Account Owner : Type} [DecidableEq Account] {config : Claims.Config Account}
  {encode : Owner → List UInt8} {width size : ℕ}

/-- The address of a claim is recovered from the hash of its message. -/
theorem ethRecover_claimMessage (sig : EcdsaSignature) (dest : Account)
    (tx : Claims.EthereumTxHash) :
    Claims.ethRecover config sig dest tx =
      (config.crypto.secp256k1EcdsaRecover sig
        (config.crypto.keccak256 (claimMessage config dest tx))).map fun publicKey =>
          addressOfHash (config.crypto.keccak256 publicKey.toList) :=
  Option.map_eq_bind.symm

/-- The address of a mapping is recovered from the hash of its message. -/
theorem ethRecover_mappingMessage (crypto : Crypto) (sig : EcdsaSignature)
    (who : EvmAccounts.AccountId32) :
    ethRecover crypto EvmAccounts.messageMarker sig (toAsciiHex who.toList) [] =
      (crypto.secp256k1EcdsaRecover sig
        (crypto.keccak256 (mappingMessage Vector.toList who))).map fun publicKey =>
          addressOfHash (crypto.keccak256 publicKey.toList) :=
  Option.map_eq_bind.symm

/-- A message for a claim is for one account and one transaction. -/
theorem claimMessage_injective (fixed : FixedWidth config.encode width) :
    Function.Injective2 (claimMessage config) := by
  intro dest other tx hash same
  have widths : (toAsciiHex (config.encode dest)).length =
      (toAsciiHex (config.encode other)).length := by
    rw [toAsciiHex_length, toAsciiHex_length, fixed.length, fixed.length]
  have hashes : (toAsciiHex tx.toList).length = (toAsciiHex hash.toList).length := by
    rw [toAsciiHex_length, toAsciiHex_length, Vector.length_toList, Vector.length_toList]
  obtain ⟨accounts, transactions⟩ := ethereumSignableMessage_cancel same widths hashes
  constructor
  · exact fixed.injective (toAsciiHex_injective accounts)
  · exact (toList_fixedWidth 32).injective (toAsciiHex_injective transactions)

/-- A message for a mapping is for one account. -/
theorem mappingMessage_injective (fixed : FixedWidth encode size) :
    Function.Injective (mappingMessage encode) := by
  intro who other same
  have widths : (toAsciiHex (encode who)).length = (toAsciiHex (encode other)).length := by
    rw [toAsciiHex_length, toAsciiHex_length, fixed.length, fixed.length]
  have accounts := (ethereumSignableMessage_cancel same widths rfl).1
  exact fixed.injective (toAsciiHex_injective accounts)

/-- The message for a claim tells its account and its transaction, and carries the decimal numeral
of its length. So does the message for a mapping with its account. -/
theorem signedMessages_determine (fixed : FixedWidth config.encode width)
    (owners : FixedWidth encode size) :
    (∀ dest other tx hash, claimMessage config dest tx = claimMessage config other hash →
      dest = other ∧ tx = hash) ∧
    (∀ dest tx, claimMessage config dest tx = signedMessageHeader ++
      decimalNumeral (config.marker.length + (toAsciiHex (config.encode dest)).length +
        (toAsciiHex tx.toList).length) ++
      config.marker ++ toAsciiHex (config.encode dest) ++ toAsciiHex tx.toList) ∧
    (∀ who other, mappingMessage encode who = mappingMessage encode other → who = other) ∧
    (∀ who, mappingMessage encode who = signedMessageHeader ++
      decimalNumeral (EvmAccounts.messageMarker.length + (toAsciiHex (encode who)).length) ++
      EvmAccounts.messageMarker ++ toAsciiHex (encode who)) ∧
    ∀ marker what extra : List UInt8, 0 < marker.length + what.length + extra.length →
      ethereumSignableMessage marker what extra = signedMessageHeader ++
        decimalNumeral (marker.length + what.length + extra.length) ++ marker ++ what ++ extra := by
  refine ⟨?_, ?_, ?_, ?_, ?_⟩
  · intro dest other tx hash same
    exact claimMessage_injective fixed same
  · intro dest tx
    apply ethereumSignableMessage_eq
    rw [toAsciiHex_length tx.toList, Vector.length_toList]
    omega
  · intro who other same
    exact mappingMessage_injective owners same
  · intro who
    have marked : 0 < EvmAccounts.messageMarker.length := by decide +kernel
    have message : mappingMessage encode who = _ :=
      ethereumSignableMessage_eq (by rw [Nat.add_assoc]; exact Nat.add_pos_left marked _)
    rw [List.append_nil] at message
    exact message
  · intro marker what extra pos
    exact ethereumSignableMessage_eq pos

end messages

/-! ## Accounts of thirty-two bytes -/

/-- The claims of a chain whose accounts are arrays, behind the marker of its tests. -/
def arrayConfig : Claims.Config EvmAccounts.AccountId32 where
  currency := referenceCurrency EvmAccounts.AccountId32 1
  accountId := .replicate 32 0
  marker := "Pay CLVs to the TEST account:".toUTF8.toList
  encode := Vector.toList
  crypto :=
    { keccak256 _ := .replicate 32 7
      secp256k1EcdsaRecover _ _ := some default }

/-- The message to an account of zeros for a transaction of ones carries its length of 157. -/
theorem arrayMessages_determine :
    (∀ dest other tx hash, claimMessage arrayConfig dest tx = claimMessage arrayConfig other hash →
      dest = other ∧ tx = hash) ∧
    claimMessage arrayConfig (.replicate 32 0) (.replicate 32 1) =
      ("\x19Ethereum Signed Message:\n157" ++ "Pay CLVs to the TEST account:" ++
        "0000000000000000000000000000000000000000000000000000000000000000" ++
        "0101010101010101010101010101010101010101010101010101010101010101").toUTF8.toList := by
  have fixed : FixedWidth arrayConfig.encode 32 := toList_fixedWidth 32
  obtain ⟨determines, message, -⟩ := signedMessages_determine fixed (toList_fixedWidth 32)
  refine ⟨determines, (message _ _).trans ?_⟩
  decide +kernel

end GlitchRuntime
