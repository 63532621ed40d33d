import Mathlib.Data.List.Basic

/-! # Base64 text of bytes

Four digits for three bytes, the last group padded. Decoding is strict: a text is decoded to bytes
exactly if it is their encoding. -/

namespace IOSDeviceManager.General.Base64

/-- The digits, and the padding. -/
def alphabet : List Char :=
  "ABCDEFGHIJKLMNOPQRSTUVWXYZabcdefghijklmnopqrstuvwxyz0123456789+/=".toList

/-- The digit of a number below `64`. -/
def digit (n : Nat) : Char :=
  alphabet.getD n '='

/-- The number of a digit; the padding counts for `64`. -/
def digitValue (c : Char) : Option Nat :=
  alphabet.findIdx? (· == c)

/-- The text of bytes. -/
def encode : List UInt8 → List Char
  | [] => []
  | [a] => [digit (a.toNat / 4), digit (a.toNat % 4 * 16), '=', '=']
  | [a, b] =>
      [digit (a.toNat / 4), digit (a.toNat % 4 * 16 + b.toNat / 16), digit (b.toNat % 16 * 4), '=']
  | a :: b :: c :: rest =>
      digit (a.toNat / 4) :: digit (a.toNat % 4 * 16 + b.toNat / 16) ::
        digit (b.toNat % 16 * 4 + c.toNat / 64) :: digit (c.toNat % 64) :: encode rest

/-- The bytes of one group of digits, the fourth or the last two of which may be padding. -/
def decodeGroup (w x y z : Nat) : List UInt8 :=
  if y = 64 then [UInt8.ofNat (w * 4 + x / 16)]
  else if z = 64 then [UInt8.ofNat (w * 4 + x / 16), UInt8.ofNat (x % 16 * 16 + y / 4)]
  else [UInt8.ofNat (w * 4 + x / 16), UInt8.ofNat (x % 16 * 16 + y / 4),
    UInt8.ofNat (y % 4 * 64 + z)]

/-- The bytes of a text, read group by group. -/
def decodeGroups : List Char → Option (List UInt8)
  | [] => some []
  | w :: x :: y :: z :: rest =>
      match digitValue w, digitValue x, digitValue y, digitValue z, decodeGroups rest with
      | some w, some x, some y, some z, some bytes => some (decodeGroup w x y z ++ bytes)
      | _, _, _, _, _ => none
  | _ => none

/-- The bytes of a text, if it is their encoding. -/
def decode (cs : List Char) : Option (List UInt8) :=
  match decodeGroups cs with
  | some bytes => if encode bytes = cs then some bytes else none
  | none => none

/-- The digits one by one. -/
theorem alphabet_eq :
    alphabet =
      ['A', 'B', 'C', 'D', 'E', 'F', 'G', 'H', 'I', 'J', 'K', 'L', 'M', 'N', 'O', 'P', 'Q', 'R',
        'S', 'T', 'U', 'V', 'W', 'X', 'Y', 'Z', 'a', 'b', 'c', 'd', 'e', 'f', 'g', 'h', 'i', 'j',
        'k', 'l', 'm', 'n', 'o', 'p', 'q', 'r', 's', 't', 'u', 'v', 'w', 'x', 'y', 'z', '0', '1',
        '2', '3', '4', '5', '6', '7', '8', '9', '+', '/', '='] :=
  String.toList_ofList

/-- The digits are told apart. -/
theorem digitValue_digit {n : Nat} (h : n < 64) : digitValue (digit n) = some n := by
  have hall : ∀ n ∈ List.range 64, digitValue (digit n) = some n := by
    simp only [digitValue, digit, alphabet_eq]
    decide +kernel
  exact hall n (List.mem_range.mpr h)

/-- The padding. -/
theorem digitValue_padding : digitValue '=' = some 64 := by
  rw [digitValue, alphabet_eq]
  decide +kernel

/-- The characters of an encoding. -/
theorem forall_mem_encode {p : Char → Prop} (hdigit : ∀ c ∈ alphabet, p c) (bytes : List UInt8) :
    ∀ c ∈ encode bytes, p c := by
  have hpad : p '=' := hdigit '=' (by simp [alphabet_eq])
  have hp : ∀ n, p (digit n) := by
    intro n
    rw [digit, List.getD_eq_getElem?_getD]
    cases hn : alphabet[n]? with
    | none => exact hpad
    | some c => exact hdigit c (List.mem_of_getElem? hn)
  induction bytes using encode.induct with
  | case1 => simp [encode]
  | case2 a => simp [encode, hp, hpad]
  | case3 a b => simp [encode, hp, hpad]
  | case4 a b c rest ih =>
    rw [encode]
    simp only [List.forall_mem_cons]
    exact ⟨hp _, hp _, hp _, hp _, ih⟩

/-- No other characters are in an encoding. -/
theorem not_mem_encode {c : Char} (h : (c.isAlphanum || c == '+' || c == '/' || c == '=') = false)
    (bytes : List UInt8) : c ∉ encode bytes := by
  have halphabet : alphabet.all (fun c => c.isAlphanum || c == '+' || c == '/' || c == '=') =
      true := by
    rw [alphabet_eq]
    decide +kernel
  intro hc
  have hdigit := forall_mem_encode (List.all_eq_true.mp halphabet) bytes c hc
  rw [h] at hdigit
  exact Bool.false_ne_true hdigit

/-- An encoding is decoded group by group. -/
theorem decodeGroups_encode (bytes : List UInt8) : decodeGroups (encode bytes) = some bytes := by
  induction bytes using encode.induct with
  | case1 => rfl
  -- one byte is left, and two paddings
  | case2 a =>
    have ha := a.toNat_lt
    have hsum : a.toNat / 4 * 4 + a.toNat % 4 * 16 / 16 = a.toNat := by omega
    simp only [encode, decodeGroups, digitValue_padding,
      digitValue_digit (show a.toNat / 4 < 64 by omega),
      digitValue_digit (show a.toNat % 4 * 16 < 64 by omega), decodeGroup, if_true, hsum,
      UInt8.ofNat_toNat, List.append_nil]
  -- two bytes are left, and one padding
  | case3 a b =>
    have ha := a.toNat_lt
    have hb := b.toNat_lt
    have hfirst : a.toNat / 4 * 4 + (a.toNat % 4 * 16 + b.toNat / 16) / 16 = a.toNat := by omega
    have hsecond : (a.toNat % 4 * 16 + b.toNat / 16) % 16 * 16 + b.toNat % 16 * 4 / 4 =
        b.toNat := by omega
    have hthird : b.toNat % 16 * 4 ≠ 64 := by omega
    simp only [encode, decodeGroups, digitValue_padding,
      digitValue_digit (show a.toNat / 4 < 64 by omega),
      digitValue_digit (show a.toNat % 4 * 16 + b.toNat / 16 < 64 by omega),
      digitValue_digit (show b.toNat % 16 * 4 < 64 by omega), decodeGroup, if_neg hthird, if_true,
      hfirst, hsecond, UInt8.ofNat_toNat, List.append_nil]
  -- three bytes are four digits
  | case4 a b c rest ih =>
    have ha := a.toNat_lt
    have hb := b.toNat_lt
    have hc := c.toNat_lt
    have hfirst : a.toNat / 4 * 4 + (a.toNat % 4 * 16 + b.toNat / 16) / 16 = a.toNat := by omega
    have hsecond : (a.toNat % 4 * 16 + b.toNat / 16) % 16 * 16 +
        (b.toNat % 16 * 4 + c.toNat / 64) / 4 = b.toNat := by omega
    have hthird : (b.toNat % 16 * 4 + c.toNat / 64) % 4 * 64 + c.toNat % 64 = c.toNat := by omega
    have hy : b.toNat % 16 * 4 + c.toNat / 64 ≠ 64 := by omega
    have hz : c.toNat % 64 ≠ 64 := by omega
    simp only [encode, decodeGroups, ih,
      digitValue_digit (show a.toNat / 4 < 64 by omega),
      digitValue_digit (show a.toNat % 4 * 16 + b.toNat / 16 < 64 by omega),
      digitValue_digit (show b.toNat % 16 * 4 + c.toNat / 64 < 64 by omega),
      digitValue_digit (show c.toNat % 64 < 64 by omega), decodeGroup, if_neg hy, if_neg hz,
      hfirst, hsecond, hthird, UInt8.ofNat_toNat, List.cons_append, List.nil_append]

/-- **Decoding is exact.** -/
theorem decode_eq_some_iff {cs : List Char} {bytes : List UInt8} :
    decode cs = some bytes ↔ cs = encode bytes := by
  unfold decode
  constructor
  · intro h
    split at h
    · next decoded _ =>
      rw [Option.ite_none_right_eq_some] at h
      obtain ⟨hencode, hdecoded⟩ := h
      rw [← hencode, Option.some.inj hdecoded]
    · cases h
  · rintro rfl
    simp only [decodeGroups_encode, if_true]

end IOSDeviceManager.General.Base64
