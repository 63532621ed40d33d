import IOSDeviceManager.Commands.ResignAllCommand

/-! # `Device` and `DeviceUtils`

What tells a simulator identifier from one of a physical device, the default device, and the lookup
by identifier or by name. -/

namespace IOSDeviceManager

/-- A `Device` of one of its two classes, `Simulator` and `PhysicalDevice`. -/
inductive Device where
  | simulator (uuid : String)
  | physicalDevice (uuid : String)
  deriving DecidableEq, Repr

/-- `uuid`. -/
def Device.uuid : Device → String
  | .simulator uuid | .physicalDevice uuid => uuid

/-- `isKindOfClass:[PhysicalDevice class]`. -/
def Device.isPhysicalDevice : Device → Bool
  | .simulator _ => false
  | .physicalDevice _ => true

/-- A host with devices. -/
structure DeviceHost extends Host where
  /-- `validCodesigningIdentities`. -/
  validCodesigningIdentities : List CodesignIdentity
  /-- `bundleID` of an application: the identifier of its bundle descriptor. -/
  bundleID : Application → String
  /-- The identifiers of the `availableDevices`. -/
  availableDevices : Except NSException (List String)
  /-- `defaultSimulatorID`, which raises for a simulator that does not exist. -/
  defaultSimulatorID : Except NSException String
  /-- `findDeviceIDByName:`. -/
  findDeviceIDByName : String → Except NSException (Option String)
  /-- `withID:` of `Simulator` finds a simulator. -/
  simulatorWithID : String → Bool
  /-- `withID:` of `PhysicalDevice` finds a device. -/
  physicalDeviceWithID : String → Except NSException Bool
  /-- `NSTemporaryDirectory()`. -/
  temporaryDirectory : String

namespace DeviceUtils

/-- `isSimulatorID:`: the identifier is the string of an `NSUUID`. -/
def isSimulatorID (did : String) : Bool :=
  let groups := did.toList.splitOn '-'
  groups.map List.length == [8, 4, 4, 4, 12] &&
    groups.flatten.all fun c => c.isDigit || ('a' ≤ c && c ≤ 'f') || ('A' ≤ c && c ≤ 'F')

/-- `toupper`. -/
def toupper (unit : Nat) : Nat :=
  if 'a'.toNat ≤ unit && unit ≤ 'z'.toNat then unit - 32 else unit

/-- `isBase64`: the UTF-16 units, cut down to a `char`, lie between `0` and `F`. -/
def isBase64 (s : String) : Bool :=
  (NSString.unichars s).all fun unit =>
    let c := toupper unit % 256
    '0'.toNat ≤ c && c ≤ 'F'.toNat

/-- `isDeviceID:`. -/
def isDeviceID (did : String) : Bool :=
  (NSString.length did == 40 && isBase64 did) || NSString.length did == 25

/-- `defaultPhysicalDeviceIDEnsuringOnlyOneAttached:` with `YES`. -/
def defaultPhysicalDeviceID (host : DeviceHost) : Except NSException (Option String) :=
  match host.availableDevices with
  | .error e => .error e
  | .ok [] => .ok none
  | .ok [udid] => .ok (some udid)
  | .ok _ =>
      .error (.named "AmbiguousArgumentsException"
        "Multiple physical devices detected but none specified")

/-- `defaultDeviceID`. -/
def defaultDeviceID (host : DeviceHost) : Except NSException String := do
  let physicalDeviceID := (← defaultPhysicalDeviceID host).getD ""
  if physicalDeviceID ≠ "" then return physicalDeviceID
  let simulatorDeviceID ← host.defaultSimulatorID
  if simulatorDeviceID ≠ "" then return simulatorDeviceID
  throw (.named "MissingDeviceException" "Unable to determine default device")

end DeviceUtils

namespace Device

open DeviceUtils

/-- The device of an identifier, by the class that the identifier belongs to: `none` where it
belongs to neither. -/
def ofClass (host : DeviceHost) (uuid : String) : Except NSException (Option (Option Device)) :=
  if isSimulatorID uuid then
    .ok (some (if host.simulatorWithID uuid then some (.simulator uuid) else none))
  else if isDeviceID uuid then do
    let found ← host.physicalDeviceWithID uuid
    return some (if found then some (.physicalDevice uuid) else none)
  else .ok none

/-- `withID:`: the device of an identifier, or of a name. -/
def withID (host : DeviceHost) (uuid : String) : Except NSException (Option Device) := do
  match ← ofClass host uuid with
  | some device => return device
  | none =>
      match ← host.findDeviceIDByName uuid with
      | some uuidFromName => return (← ofClass host uuidFromName).join
      | none => return none

end Device

/-- The identifier of a simulator. -/
def sampleSimulatorID : String := "8C1B6E8A-1D1F-4E2B-9B43-0A0F2F5C7D11"

/-- A host with one simulator. -/
def oneSimulatorHost : DeviceHost where
  toHost := ResignAllCommand.oneProfileHost
  validCodesigningIdentities := []
  bundleID _ := "com.my.app"
  availableDevices := .ok []
  defaultSimulatorID := .ok sampleSimulatorID
  findDeviceIDByName _ := .ok none
  simulatorWithID uuid := uuid == sampleSimulatorID
  physicalDeviceWithID _ := .ok false
  temporaryDirectory := "/tmp"

end IOSDeviceManager
