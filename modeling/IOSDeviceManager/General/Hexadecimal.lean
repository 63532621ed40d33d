import Mathlib.Data.List.Basic

/-! # Hexadecimal text of bytes

Two digits a byte, the high half first, leading zeros included. The text is decoded again whatever
the case of its digits, so that it determines the bytes. -/

namespace IOSDeviceManager.General.Hexadecimal

/-- The lower case digit of a number below `16`. -/
def lowerDigit (n : Nat) : Char :=
  "0123456789abcdef".toList.getD n '0'

/-- The number of a digit in either case. -/
def digitValue (c : Char) : Option Nat :=
  "0123456789abcdef".toList.findIdx? (· == c.toLower)

/-- The lower case digits of one byte. -/
def encodeByte (byte : UInt8) : List Char :=
  [lowerDigit (byte.toNat / 16), lowerDigit (byte.toNat % 16)]

/-- The lower case text of bytes. -/
def encode (bytes : List UInt8) : List Char :=
  bytes.flatMap encodeByte

/-- The bytes of a text. -/
def decode : List Char → Option (List UInt8)
  | [] => some []
  | [_] => none
  | high :: low :: rest =>
      match digitValue high, digitValue low, decode rest with
      | some high, some low, some bytes => some (UInt8.ofNat (16 * high + low) :: bytes)
      | _, _, _ => none

/-- The digits are decoded, in lower and in upper case. -/
theorem digitValue_lowerDigit {n : Nat} (h : n < 16) :
    digitValue (lowerDigit n) = some n ∧ digitValue (lowerDigit n).toUpper = some n := by
  have hall : ∀ n ∈ List.range 16, digitValue (lowerDigit n) = some n ∧
      digitValue (lowerDigit n).toUpper = some n := by decide
  exact hall n (List.mem_range.mpr h)

/-- The halves of a byte. -/
theorem halves_of_byte (byte : UInt8) : byte.toNat / 16 < 16 ∧ byte.toNat % 16 < 16 ∧
    UInt8.ofNat (16 * (byte.toNat / 16) + byte.toNat % 16) = byte := by
  have hbyte : byte.toNat < 256 := byte.toNat_lt
  have hsum : 16 * (byte.toNat / 16) + byte.toNat % 16 = byte.toNat := Nat.div_add_mod _ 16
  exact ⟨by omega, Nat.mod_lt _ (by decide), by rw [hsum, UInt8.ofNat_toNat]⟩

/-- **The upper case text is decoded to the bytes.** -/
theorem decode_map_toUpper_encode (bytes : List UInt8) :
    decode ((encode bytes).map Char.toUpper) = some bytes := by
  induction bytes with
  | nil => rfl
  | cons byte bytes ih =>
    obtain ⟨hhigh, hlow, hbyte⟩ := halves_of_byte byte
    have hcons : (encode (byte :: bytes)).map Char.toUpper =
        (lowerDigit (byte.toNat / 16)).toUpper :: (lowerDigit (byte.toNat % 16)).toUpper ::
          (encode bytes).map Char.toUpper := rfl
    rw [hcons, decode, (digitValue_lowerDigit hhigh).2, (digitValue_lowerDigit hlow).2, ih]
    simp only [hbyte]

/-- The upper case texts of different bytes differ. -/
theorem map_toUpper_encode_injective {bytes others : List UInt8}
    (h : (encode bytes).map Char.toUpper = (encode others).map Char.toUpper) : bytes = others := by
  have hdecode := congrArg decode h
  rw [decode_map_toUpper_encode, decode_map_toUpper_encode] at hdecode
  exact Option.some.inj hdecode

/-- Two digits a byte. -/
theorem length_encode (bytes : List UInt8) : (encode bytes).length = 2 * bytes.length := by
  induction bytes with
  | nil => rfl
  | cons byte bytes ih =>
    have hcons : (encode (byte :: bytes)).length = (encode bytes).length + 2 := rfl
    rw [hcons, ih, List.length_cons]
    omega

/-- What holds of the sixteen upper case digits holds of all characters of an upper case text. -/
theorem forall_mem_map_toUpper_encode {p : Char → Prop}
    (h : ∀ n ∈ List.range 16, p (lowerDigit n).toUpper) (bytes : List UInt8) :
    ∀ c ∈ (encode bytes).map Char.toUpper, p c := by
  intro c hc
  obtain ⟨lower, hlower, rfl⟩ := List.mem_map.mp hc
  obtain ⟨byte, -, hbyte⟩ := List.mem_flatMap.mp hlower
  obtain ⟨hhigh, hlow, -⟩ := halves_of_byte byte
  rw [encodeByte, List.mem_cons, List.mem_singleton] at hbyte
  rcases hbyte with rfl | rfl
  · exact h _ (List.mem_range.mpr hhigh)
  · exact h _ (List.mem_range.mpr hlow)

end IOSDeviceManager.General.Hexadecimal
