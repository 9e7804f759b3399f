import GlitchRuntime.Lib.Word

/-! # Messages signed with Ethereum keys

The message that `personal_sign` signs, in ASCII hex behind a pallet's own marker, and the address
recovered from its signature. The hash and the recovery of public keys are the host's. Payloads of
known lengths can be read back from the message.
-/

namespace GlitchRuntime

open Lib

/-- A recoverable signature. -/
abbrev EcdsaSignature := Bytes 65

/-- The host functions behind a recovery. -/
structure Crypto where
  keccak256 : List UInt8 → Bytes 32
  secp256k1EcdsaRecover : EcdsaSignature → Bytes 32 → Option (Bytes 64)

/-- `b'0' + n` below ten, `b'a' - 10 + n` from there. -/
def hexNibble (n : UInt8) : UInt8 := if n < 10 then 48 + n else 97 - 10 + n

/-- Two nibbles for every byte. -/
def toAsciiHex (data : List UInt8) : List UInt8 :=
  data.flatMap fun b => [hexNibble (b / 16), hexNibble (b % 16)]

/-- The digits the loop pushes, the last one first; nothing for zero. -/
def revDecimal (l : ℕ) : List UInt8 :=
  if l = 0 then [] else (48 + UInt8.ofNat (l % 10)) :: revDecimal (l / 10)
termination_by l

/-- `b"\x19Ethereum Signed Message:\n"`. -/
def signedMessageHeader : List UInt8 :=
  0x19 :: "Ethereum Signed Message:\n".toUTF8.toList

/-- The signed bytes: a header, the length of the rest in decimal, and the rest. -/
def ethereumSignableMessage (marker what extra : List UInt8) : List UInt8 :=
  signedMessageHeader ++ (revDecimal (marker.length + what.length + extra.length)).reverse ++
    marker ++ what ++ extra

/-- The last twenty bytes of a hash. -/
def addressOfHash (hash : Bytes 32) : Bytes 20 := hash.drop 12

/-- The address whose key signed `what` and `extra` behind a marker. -/
def ethRecover (crypto : Crypto) (marker : List UInt8) (signature : EcdsaSignature)
    (what extra : List UInt8) : Option (Bytes 20) := do
  let msg := crypto.keccak256 (ethereumSignableMessage marker what extra)
  let publicKey ← crypto.secp256k1EcdsaRecover signature msg
  return addressOfHash (crypto.keccak256 publicKey.toList)

/-! ## Hex -/

theorem toNat_hexNibble {n : UInt8} (small : n.toNat < 16) :
    (hexNibble n).toNat = if n.toNat < 10 then 48 + n.toNat else 87 + n.toNat := by
  unfold hexNibble
  have digit : n < 10 ↔ n.toNat < 10 := UInt8.lt_iff_toNat_lt
  simp only [digit]
  split_ifs with low
  · rw [UInt8.toNat_add]
    change (48 + n.toNat) % 256 = _
    omega
  · rw [UInt8.toNat_add]
    change (87 + n.toNat) % 256 = _
    omega

/-- A byte is told by its two digits. -/
theorem hexDigits_injective {b c : UInt8} (high : hexNibble (b / 16) = hexNibble (c / 16))
    (low : hexNibble (b % 16) = hexNibble (c % 16)) : b = c := by
  have bFits := b.toNat_lt
  have cFits := c.toNat_lt
  have quotient (d : UInt8) : (d / 16).toNat = d.toNat / 16 := UInt8.toNat_div d 16
  have remainder (d : UInt8) : (d % 16).toNat = d.toNat % 16 := UInt8.toNat_mod d 16
  have highs := congrArg UInt8.toNat high
  have lows := congrArg UInt8.toNat low
  rw [toNat_hexNibble (by rw [quotient]; omega), toNat_hexNibble (by rw [quotient]; omega),
    quotient, quotient] at highs
  rw [toNat_hexNibble (by rw [remainder]; omega), toNat_hexNibble (by rw [remainder]; omega),
    remainder, remainder] at lows
  apply UInt8.toNat_inj.mp
  split_ifs at highs lows <;> omega

@[simp] theorem toAsciiHex_length (data : List UInt8) :
    (toAsciiHex data).length = 2 * data.length := by
  induction data with
  | nil => rfl
  | cons b rest ih =>
    change (toAsciiHex rest).length + 1 + 1 = 2 * (rest.length + 1)
    omega

/-- Different bytes have different hex. -/
theorem toAsciiHex_injective : Function.Injective toAsciiHex := by
  intro data other same
  induction data generalizing other with
  | nil =>
    cases other with
    | nil => rfl
    | cons c others => contradiction
  | cons b rest ih =>
    cases other with
    | nil => contradiction
    | cons c others =>
      change hexNibble (b / 16) :: hexNibble (b % 16) :: toAsciiHex rest =
        hexNibble (c / 16) :: hexNibble (c % 16) :: toAsciiHex others at same
      simp only [List.cons.injEq] at same
      obtain ⟨high, low, tails⟩ := same
      rw [hexDigits_injective high low, ih tails]

/-! ## The length in decimal -/

/-- The canonical decimal numeral of a number, in ASCII. -/
def decimalNumeral (l : ℕ) : List UInt8 :=
  (Nat.toDigits 10 l).map fun digit => UInt8.ofNat digit.toNat

theorem digit_eq {d : ℕ} (small : d < 10) :
    48 + UInt8.ofNat d = UInt8.ofNat (Nat.digitChar d).toNat := by
  interval_cases d <;> rfl

/-- The digits of the loop, turned round, are the decimal numeral. -/
theorem revDecimal_reverse {l : ℕ} (pos : 0 < l) :
    (revDecimal l).reverse = decimalNumeral l := by
  induction l using Nat.strongRecOn with
  | ind l ih =>
    have digit := digit_eq (Nat.mod_lt l (show 0 < 10 by omega))
    rw [revDecimal, if_neg (by omega), List.reverse_cons, digit]
    by_cases small : l < 10
    · have done : l / 10 = 0 := by omega
      rw [done, revDecimal, if_pos rfl, Nat.mod_eq_of_lt small, decimalNumeral,
        Nat.toDigits_of_lt_base small]
      rfl
    · rw [ih (l / 10) (by omega) (by omega), decimalNumeral, decimalNumeral,
        Nat.toDigits_of_base_le (by omega) (show 10 ≤ l by omega), List.map_append]
      rfl

/-! ## The message -/

/-- Unless there is nothing to sign, the message carries the decimal numeral of its length. -/
theorem ethereumSignableMessage_eq {marker what extra : List UInt8}
    (pos : 0 < marker.length + what.length + extra.length) :
    ethereumSignableMessage marker what extra = signedMessageHeader ++
      decimalNumeral (marker.length + what.length + extra.length) ++ marker ++ what ++ extra := by
  rw [ethereumSignableMessage, revDecimal_reverse pos]

/-- Payloads of the same lengths have the same message only if they are the same. -/
theorem ethereumSignableMessage_cancel {marker what extra data more : List UInt8}
    (same : ethereumSignableMessage marker what extra = ethereumSignableMessage marker data more)
    (widths : what.length = data.length) (extras : extra.length = more.length) :
    what = data ∧ extra = more := by
  unfold ethereumSignableMessage at same
  rw [widths, extras] at same
  simp only [List.append_assoc, List.append_cancel_left_eq] at same
  exact List.append_inj same widths

end GlitchRuntime
