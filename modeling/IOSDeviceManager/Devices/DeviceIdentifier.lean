import IOSDeviceManager.Devices.Device

/-! # Which texts are taken for device identifiers

`isDeviceID:` looks at the length, and of forty units only at their low bytes. A device whose name
has the length of an identifier is therefore not found by its name. -/

namespace IOSDeviceManager

namespace DeviceUtils

/-- A hexadecimal digit. -/
def IsHexDigit (c : Char) : Prop :=
  ('0' ≤ c ∧ c ≤ '9') ∨ ('a' ≤ c ∧ c ≤ 'f') ∨ ('A' ≤ c ∧ c ≤ 'F')

instance (c : Char) : Decidable (IsHexDigit c) :=
  inferInstanceAs (Decidable (_ ∨ _ ∨ _))

/-- Forty hexadecimal digits, or eight and sixteen of them with a hyphen between. -/
def IsDeviceIdentifier (s : String) : Prop :=
  (s.toList.length = 40 ∧ ∀ c ∈ s.toList, IsHexDigit c) ∨
    ∃ chip ecid, s.toList = chip ++ '-' :: ecid ∧ chip.length = 8 ∧ ecid.length = 16 ∧
      ∀ c ∈ chip ++ ecid, IsHexDigit c

/-- A unit that `isBase64` lets pass: a digit, one of `:;<=>?@`, a letter up to `f`, or a unit from
256 on with the low byte of one of these in upper case. -/
def Passes (unit : Nat) : Prop :=
  (0x30 ≤ unit ∧ unit ≤ 0x46) ∨ (0x61 ≤ unit ∧ unit ≤ 0x66) ∨
    (0x100 ≤ unit ∧ 0x30 ≤ unit % 0x100 ∧ unit % 0x100 ≤ 0x46)

/-- A text that is taken for an identifier because of its length and its low bytes. -/
def HasShape (s : String) : Prop :=
  NSString.length s = 25 ∨
    (NSString.length s = 40 ∧ ∀ unit ∈ NSString.unichars s, Passes unit)

/-- What `isBase64` finds out about a unit. -/
theorem passes_iff (unit : Nat) :
    (0x30 ≤ toupper unit % 0x100 ∧ toupper unit % 0x100 ≤ 0x46) ↔ Passes unit := by
  have hlower : toupper unit = if 0x61 ≤ unit ∧ unit ≤ 0x7a then unit - 32 else unit := by
    simp [toupper, show 'a'.toNat = 0x61 from rfl, show 'z'.toNat = 0x7a from rfl]
  rw [hlower, Passes]
  split <;> omega

theorem isBase64_iff (s : String) :
    isBase64 s = true ↔ ∀ unit ∈ NSString.unichars s, Passes unit := by
  rw [isBase64, List.all_eq_true]
  refine forall₂_congr fun unit _ => ?_
  rw [← passes_iff]
  simp [show '0'.toNat = 0x30 from rfl, show 'F'.toNat = 0x46 from rfl]

theorem isDeviceID_iff (s : String) : isDeviceID s = true ↔ HasShape s := by
  rw [isDeviceID, Bool.or_eq_true, Bool.and_eq_true, beq_iff_eq, beq_iff_eq, isBase64_iff, or_comm]
  rfl

/-- A hexadecimal digit is one unit, which passes. -/
theorem IsHexDigit.passes {c : Char} (h : IsHexDigit c) : c.toNat < 0x10000 ∧ Passes c.toNat := by
  simp only [IsHexDigit, Char.le_def, UInt32.le_iff_toNat_le] at h
  change (0x30 ≤ c.toNat ∧ c.toNat ≤ 0x39) ∨ (0x61 ≤ c.toNat ∧ c.toNat ≤ 0x66) ∨
    (0x41 ≤ c.toNat ∧ c.toNat ≤ 0x46) at h
  unfold Passes
  omega

/-- An identifier consists of digits, and a hyphen perhaps. -/
theorem IsDeviceIdentifier.digit_or_hyphen {s : String} (h : IsDeviceIdentifier s) :
    ∀ c ∈ s.toList, IsHexDigit c ∨ c = '-' := by
  intro c hc
  rcases h with ⟨-, hdigits⟩ | ⟨chip, ecid, hs, -, -, hdigits⟩
  · exact .inl (hdigits c hc)
  · rw [hs, List.mem_append, List.mem_cons] at hc
    rcases hc with hc | hc | hc
    · exact .inl (hdigits c (List.mem_append_left _ hc))
    · exact .inr hc
    · exact .inl (hdigits c (List.mem_append_right _ hc))

/-- The characters of an identifier are one unit each. -/
theorem IsDeviceIdentifier.unichars_eq {s : String} (h : IsDeviceIdentifier s) :
    NSString.unichars s = s.toList.map Char.toNat := by
  refine NSString.unichars_eq_map fun c hc => ?_
  rcases h.digit_or_hyphen c hc with hdigit | rfl
  · exact hdigit.passes.1
  · decide

/-- Identifiers are recognized. -/
theorem IsDeviceIdentifier.hasShape {s : String} (h : IsDeviceIdentifier s) : HasShape s := by
  have hunits := h.unichars_eq
  have hlength : NSString.length s = s.toList.length := by
    rw [← NSString.length_unichars, hunits, List.length_map]
  rcases h with ⟨hforty, hdigits⟩ | ⟨chip, ecid, hs, hchip, hecid, -⟩
  · right
    refine ⟨hlength.trans hforty, fun unit hunit => ?_⟩
    rw [hunits] at hunit
    obtain ⟨c, hc, rfl⟩ := List.mem_map.mp hunit
    exact (hdigits c hc).passes.2
  · left
    rw [hlength, hs, List.length_append, List.length_cons, hchip, hecid]

end DeviceUtils

open DeviceUtils

/-- `withID:` goes by the name. -/
def Device.resolvesByName (host : DeviceHost) (name : String) :
    Except NSException (Option Device) := do
  match ← host.findDeviceIDByName name with
  | some uuidFromName => return (← Device.ofClass host uuidFromName).join
  | none => return none

/-- A text is told from an identifier: `isDeviceID:` knows the identifiers, and any other text that
is not that of a simulator is looked up as a name. -/
structure DeviceUtils.Recognizes (s : String) : Prop where
  exact : isDeviceID s = true ↔ IsDeviceIdentifier s
  byName : ¬ IsDeviceIdentifier s → isSimulatorID s = false →
    ∀ host, Device.withID host s = Device.resolvesByName host s

/-- A text that belongs to neither class is a name. -/
theorem Device.withID_of_name {s : String} (hsimulator : isSimulatorID s = false)
    (hdevice : isDeviceID s = false) (host : DeviceHost) :
    Device.withID host s = Device.resolvesByName host s := by
  rw [Device.withID, Device.ofClass, hsimulator, hdevice]
  rfl

/-- **By shape alone.** A text is told from an identifier exactly if it is one, or has not the shape
that is looked at. -/
theorem DeviceUtils.recognizes_iff (s : String) :
    Recognizes s ↔ IsDeviceIdentifier s ∨ ¬ HasShape s := by
  constructor
  · intro h
    by_cases hshape : HasShape s
    · exact .inl (h.exact.mp ((isDeviceID_iff s).mpr hshape))
    · exact .inr hshape
  · intro h
    have hexact : isDeviceID s = true ↔ IsDeviceIdentifier s := by
      rw [isDeviceID_iff]
      exact ⟨fun hshape => h.resolve_right (not_not_intro hshape), fun hid => hid.hasShape⟩
    refine ⟨hexact, fun hname hsimulator host => ?_⟩
    exact Device.withID_of_name hsimulator (Bool.eq_false_iff.mpr fun hid => hname (hexact.mp hid))
      host

/-- A host on which one device has a name of twenty-five characters. -/
def namedDeviceHost : DeviceHost :=
  { oneSimulatorHost with
    availableDevices := .ok ["00008020-001D4D38C0A8002E"]
    findDeviceIDByName := fun name =>
      .ok (if name = "Anna's iPad Pro (12 inch)" then some "00008020-001D4D38C0A8002E" else none)
    physicalDeviceWithID := fun uuid => .ok (uuid == "00008020-001D4D38C0A8002E") }

/-- The device of that name is not found by it. -/
theorem DeviceUtils.not_recognizes_name :
    isDeviceID "Anna's iPad Pro (12 inch)" = true ∧
      Device.resolvesByName namedDeviceHost "Anna's iPad Pro (12 inch)" =
        .ok (some (.physicalDevice "00008020-001D4D38C0A8002E")) ∧
      Device.withID namedDeviceHost "Anna's iPad Pro (12 inch)" = .ok none ∧
      ¬ Recognizes "Anna's iPad Pro (12 inch)" := by
  have hid : isDeviceID "Anna's iPad Pro (12 inch)" = true := by decide
  refine ⟨hid, rfl, rfl, fun h => ?_⟩
  have hletter := (h.exact.mp hid).digit_or_hyphen 'n' (by decide)
  revert hletter
  decide

end IOSDeviceManager
