import IOSDeviceManager.General.Hexadecimal
import IOSDeviceManager.Resigning.KeychainListing

/-! # `ShasumProvider` and `Certificate`

The shasum of a certificate and the shasum of an identity come from two places: from the data of the
certificate, and from the listing of the keychain. Both are the upper case hexadecimal text of a
SHA-1 digest, which is an arbitrary function of the data here. -/

namespace IOSDeviceManager

open General

/-- A SHA-1 digest, of `CC_SHA1_DIGEST_LENGTH` bytes. -/
abbrev Digest : Type :=
  Vector UInt8 20

/-- `sha1FromData:`: `%02x` for each byte of the digest. -/
def sha1FromData (CC_SHA1 : List UInt8 → Digest) (data : List UInt8) : String :=
  String.ofList (Hexadecimal.encode (CC_SHA1 data).toList)

namespace Certificate

/-- `initWithCommonName:shasum:`. -/
def initWithCommonName (commonName shasum : String) : Certificate :=
  ⟨commonName, String.ofList (shasum.toList.map Char.toUpper)⟩

/-- `certificateWithData:`, with `commonNameFromCertificateData:` for the system's reading of the
data. -/
def certificateWithData (CC_SHA1 : List UInt8 → Digest)
    (commonNameFromCertificateData : List UInt8 → Option String) (data : List UInt8) :
    Option Certificate :=
  match commonNameFromCertificateData data with
  | none => none
  | some commonName =>
      let shasum := sha1FromData CC_SHA1 data
      if NSString.length shasum = 0 then none else some (initWithCommonName commonName shasum)

end Certificate

namespace MobileProfile

/-- `developerCertificates`: the certificates that can be read from the data under
`DeveloperCertificates`. -/
def developerCertificatesFromData (CC_SHA1 : List UInt8 → Digest)
    (commonNameFromCertificateData : List UInt8 → Option String) (data : List (List UInt8)) :
    List Certificate :=
  data.filterMap (Certificate.certificateWithData CC_SHA1 commonNameFromCertificateData)

end MobileProfile

namespace Certificate

open NSRegularExpression CodesignIdentity

/-- The upper case text of a digest. -/
def upperHex (digest : Digest) : List Char :=
  (Hexadecimal.encode digest.toList).map Char.toUpper

/-- A line of the keychain's listing that prints a digest after the index. -/
def PrintsDigest (line : List Char) (digest : Digest) : Prop :=
  ∃ i rest, line = ordinal i ++ ") ".toList ++ upperHex digest ++ rest

/-! ## The text of a digest -/

@[simp] theorem length_upperHex (digest : Digest) : (upperHex digest).length = 40 := by
  rw [upperHex, List.length_map, Hexadecimal.length_encode, Vector.length_toList]

theorem isUpperHex_upperHex (digest : Digest) : ∀ c ∈ upperHex digest, isUpperHex c = true :=
  Hexadecimal.forall_mem_map_toUpper_encode (by decide) digest.toList

theorem decode_upperHex (digest : Digest) :
    Hexadecimal.decode (upperHex digest) = some digest.toList :=
  Hexadecimal.decode_map_toUpper_encode digest.toList

/-- Digests are determined by their text. -/
theorem upperHex_inj {digest other : Digest} : upperHex digest = upperHex other ↔ digest = other := by
  constructor
  · intro h
    exact Vector.toList_inj.mp (Hexadecimal.map_toUpper_encode_injective h)
  · rintro rfl
    rfl

variable {CC_SHA1 : List UInt8 → Digest}
  {commonNameFromCertificateData : List UInt8 → Option String}

/-- The text of a digest is not empty. -/
theorem length_sha1FromData_ne_zero (data : List UInt8) :
    NSString.length (sha1FromData CC_SHA1 data) ≠ 0 := by
  have hlength : (sha1FromData CC_SHA1 data).toList.length = 40 := by
    rw [sha1FromData, String.toList_ofList, Hexadecimal.length_encode, Vector.length_toList]
  rw [NSString.length]
  -- each character counts for one or two
  cases hchars : (sha1FromData CC_SHA1 data).toList with
  | nil =>
    rw [hchars] at hlength
    cases hlength
  | cons c cs =>
    rw [List.map_cons, List.sum_cons]
    split <;> omega

/-! ## Both ends -/

/-- **The shasum of a certificate** is the upper case text of the digest of its data. -/
theorem certificateWithData_eq (data : List UInt8) :
    certificateWithData CC_SHA1 commonNameFromCertificateData data =
      (commonNameFromCertificateData data).map fun commonName =>
        ⟨commonName, String.ofList (upperHex (CC_SHA1 data))⟩ := by
  rw [certificateWithData]
  cases commonNameFromCertificateData data with
  | none => rfl
  | some commonName =>
    have hlength : NSString.length (sha1FromData CC_SHA1 data) ≠ 0 :=
      length_sha1FromData_ne_zero data
    refine (if_neg hlength).trans ?_
    rw [initWithCommonName, sha1FromData, String.toList_ofList]
    rfl

/-- **The shasum of an identity** is the text of the digest that its line prints. -/
theorem shasum_of_printsDigest {line : List Char} {digest : Digest} {identity : CodesignIdentity}
    (hprints : PrintsDigest line digest) (h : identityOfLine line = some identity) :
    identity.shasum = String.ofList (upperHex digest) := by
  obtain ⟨i, rest, rfl⟩ := hprints
  rw [identityOfLine, shasumOfLine_append (length_upperHex digest) (isUpperHex_upperHex digest)] at h
  split at h
  · next name shasum _ hshasum =>
    obtain rfl := Option.some.inj hshasum
    rw [Option.ite_none_right_eq_some] at h
    rw [← Option.some.inj h.2]
  · cases h

/-- What the shasums of certificates and identities have to do with digests. -/
structure FingerprintsAgree (CC_SHA1 : List UInt8 → Digest)
    (commonNameFromCertificateData : List UInt8 → Option String) : Prop where
  /-- The shasum of a certificate is a text of 40 digits, from which the digest is decoded. -/
  shasum : ∀ data cert,
    certificateWithData CC_SHA1 commonNameFromCertificateData data = some cert →
      cert.shasum.toList.length = 40 ∧ (∀ c ∈ cert.shasum.toList, isUpperHex c = true) ∧
        Hexadecimal.decode cert.shasum.toList = some (CC_SHA1 data).toList
  /-- Certificates of distinct digests have distinct shasums. -/
  shasum_ne : ∀ data cert other otherCert,
    certificateWithData CC_SHA1 commonNameFromCertificateData data = some cert →
      certificateWithData CC_SHA1 commonNameFromCertificateData other = some otherCert →
        CC_SHA1 data ≠ CC_SHA1 other → cert.shasum ≠ otherCert.shasum
  /-- A profile for a device is valid for an identity that was read from a line of the listing,
  exactly if the line prints the digest of one of the profile's certificates. -/
  isValid_iff : ∀ stdoutStr identities identity line digest,
    validCodesigningIdentities (some stdoutStr) = some identities → identity ∈ identities →
      line ∈ stdoutLines stdoutStr → identityOfLine line = some identity →
        PrintsDigest line digest → ∀ (profile : MobileProfile) (deviceUDID : String) data,
          profile.developerCertificates = MobileProfile.developerCertificatesFromData CC_SHA1
            commonNameFromCertificateData data →
              deviceUDID ∈ profile.provisionedDevices.getD [] →
                (profile.isValidForDeviceUDID deviceUDID identity = true ↔
                  ∃ datum ∈ data, commonNameFromCertificateData datum ≠ none ∧
                    CC_SHA1 datum = digest)

/-- **Fingerprints agree**, whatever function SHA-1 is. -/
theorem fingerprintsAgree (CC_SHA1 : List UInt8 → Digest)
    (commonNameFromCertificateData : List UInt8 → Option String) :
    FingerprintsAgree CC_SHA1 commonNameFromCertificateData where
  shasum data cert hcert := by
    rw [certificateWithData_eq, Option.map_eq_some_iff] at hcert
    obtain ⟨commonName, -, rfl⟩ := hcert
    simp only [String.toList_ofList]
    exact ⟨length_upperHex _, isUpperHex_upperHex _, decode_upperHex _⟩
  shasum_ne data cert other otherCert hcert hother hne := by
    rw [certificateWithData_eq, Option.map_eq_some_iff] at hcert hother
    obtain ⟨commonName, -, rfl⟩ := hcert
    obtain ⟨otherName, -, rfl⟩ := hother
    intro hshasum
    exact hne (upperHex_inj.mp (String.ofList_inj.mp hshasum))
  isValid_iff stdoutStr identities identity line digest _ _ _ hline hprints profile deviceUDID data
      hdata hdevice := by
    -- the line prints the digits of the digest
    have hshasum : identity.shasum = String.ofList (upperHex digest) :=
      shasum_of_printsDigest hprints hline
    simp only [MobileProfile.isValidForDeviceUDID, List.contains_eq_mem, hdevice, decide_true,
      Bool.not_true, Bool.false_eq_true, if_false, List.any_eq_true, beq_iff_eq, hshasum, hdata,
      MobileProfile.developerCertificatesFromData, List.mem_filterMap, certificateWithData_eq,
      Option.map_eq_some_iff]
    constructor
    · rintro ⟨cert, ⟨datum, hmem, commonName, hname, rfl⟩, heq⟩
      refine ⟨datum, hmem, ?_, upperHex_inj.mp (String.ofList_inj.mp heq)⟩
      rw [hname]
      exact Option.some_ne_none commonName
    · rintro ⟨datum, hmem, hname, rfl⟩
      obtain ⟨commonName, hname⟩ := Option.ne_none_iff_exists'.mp hname
      exact ⟨⟨commonName, String.ofList (upperHex (CC_SHA1 datum))⟩,
        ⟨datum, hmem, commonName, hname, rfl⟩, rfl⟩

end Certificate

end IOSDeviceManager
