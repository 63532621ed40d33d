import IOSDeviceManager.Resigning.Entitlements

/-! # `MobileProfile`, `Certificate` and `CodesignIdentity`

The keys of a provisioning profile that ranking and resigning read, and the tests that tie a profile
to a device and to a signing identity. -/

namespace IOSDeviceManager

/-- `CodesignIdentity`. -/
structure CodesignIdentity where
  shasum : String
  name : String
  deriving DecidableEq, Repr

/-- `Certificate`: the common name and the upper case SHA-1 of a developer certificate. -/
structure Certificate where
  commonName : String
  shasum : String
  deriving DecidableEq, Repr

/-- `MobileProfile`: the values under the keys of the exported plist, `none` where a key is
missing. -/
structure MobileProfile where
  /-- `Name`. -/
  name : Option String
  /-- `UUID`. -/
  uuid : Option String
  /-- `ExpirationDate`, in seconds since some reference date. -/
  expirationDate : Option ℚ
  /-- `ApplicationIdentifierPrefix`. -/
  applicationIdentifierPrefix : Option (List String)
  /-- The readable certificates among `DeveloperCertificates`. -/
  developerCertificates : List Certificate
  /-- `ProvisionedDevices`. -/
  provisionedDevices : Option (List String)
  /-- `Entitlements`. -/
  entitlements : Entitlements
  /-- The entitlements fit into the address space of a process. -/
  entitlements_weight_lt : entitlements.weight < 2 ^ 56

namespace MobileProfile

/-- `isValidForDeviceUDID:identity:`. -/
def isValidForDeviceUDID (profile : MobileProfile) (deviceUDID : String)
    (identity : CodesignIdentity) : Bool :=
  if !(profile.provisionedDevices.getD []).contains deviceUDID then false
  else profile.developerCertificates.any fun cert => cert.shasum == identity.shasum

/-- `isExpired`: the earlier of the expiration date and `now` is the former. Without an expiration
date both sides of that comparison are `nil`. -/
def isExpired (profile : MobileProfile) (now : ℚ) : Bool :=
  match profile.expirationDate with
  | some expiration => expiration ≤ now
  | none => true

/-- `findValidIdentity`: the first developer certificate that is a valid identity of the keychain,
`validIOSDeveloperIdentities`. -/
def findValidIdentity (profile : MobileProfile) (validCodesignIdentities : List CodesignIdentity) :
    Option CodesignIdentity :=
  (profile.developerCertificates.map fun cert =>
    (⟨cert.shasum, cert.commonName⟩ : CodesignIdentity)).find? validCodesignIdentities.contains

/-- A development profile with the given entitlements for one device and one certificate. -/
def development (entitlements : Entitlements) (h : entitlements.weight < 2 ^ 56) :
    MobileProfile where
  name := some "Development"
  uuid := some "6D8C57DB"
  expirationDate := some 1
  applicationIdentifierPrefix := some ["ABCDE12345"]
  developerCertificates := [⟨"iPhone Developer: A", "A0B1"⟩]
  provisionedDevices := some ["e60ef9ae"]
  entitlements := entitlements
  entitlements_weight_lt := h

end MobileProfile

end IOSDeviceManager
