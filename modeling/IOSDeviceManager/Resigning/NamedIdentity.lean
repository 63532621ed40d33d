import IOSDeviceManager.Resigning.MobileProfile

/-! # `identityForShasumOrName:`

The identity of the keychain that a text on the command line denotes. A shasum is looked for first;
a name has to belong to one identity only. -/

namespace IOSDeviceManager

namespace CodesignIdentity

/-- `adHoc`. -/
def adHoc : CodesignIdentity :=
  ⟨"-", "AdHoc"⟩

/-- The loop of `identityForShasumOrName:`, with the count of the identities of the name and the
last of them. -/
def shasumOrNameLoop (shasumOrName : String) :
    List CodesignIdentity → Nat → Option CodesignIdentity → Option CodesignIdentity
  | [], numberOfIdentitiesWithName, namedCodesignIdentity =>
      -- none has the name, or it is ambiguous
      if numberOfIdentitiesWithName = 1 then namedCodesignIdentity else none
  | codesignIdentity :: rest, numberOfIdentitiesWithName, namedCodesignIdentity =>
      if codesignIdentity.shasum = shasumOrName then some codesignIdentity
      else if codesignIdentity.name = shasumOrName then
        shasumOrNameLoop shasumOrName rest (numberOfIdentitiesWithName + 1) (some codesignIdentity)
      else shasumOrNameLoop shasumOrName rest numberOfIdentitiesWithName namedCodesignIdentity

/-- `identityForShasumOrName:` for the keychain's `validCodesigningIdentities`. -/
def identityForShasumOrName (shasumOrName : String)
    (validCodesigningIdentities : List CodesignIdentity) : Option CodesignIdentity :=
  shasumOrNameLoop shasumOrName validCodesigningIdentities 0 none

/-- The identities a text denotes: `-` the ad hoc one, another text an identity of the keychain with
that shasum or, if no identity has it, the only one with that name. -/
inductive Denotes (validCodesigningIdentities : List CodesignIdentity) (codesignID : String) :
    CodesignIdentity → Prop
  | adHoc : codesignID = "-" → Denotes validCodesigningIdentities codesignID adHoc
  | shasum {identity : CodesignIdentity} : codesignID ≠ "-" →
      identity ∈ validCodesigningIdentities → identity.shasum = codesignID →
      Denotes validCodesigningIdentities codesignID identity
  | uniqueName {identity : CodesignIdentity} : codesignID ≠ "-" →
      (∀ other ∈ validCodesigningIdentities, other.shasum ≠ codesignID) →
      (validCodesigningIdentities.filter fun other => other.name == codesignID) = [identity] →
      Denotes validCodesigningIdentities codesignID identity

variable {shasumOrName : String}

/-- **The loop.** The first identity with the shasum, or the last one with the name if there is one
in all. By induction on the identities still to come. -/
theorem shasumOrNameLoop_eq (identities : List CodesignIdentity) (count : Nat)
    (named : Option CodesignIdentity) :
    shasumOrNameLoop shasumOrName identities count named =
      (identities.find? fun identity => identity.shasum == shasumOrName).or
        (if count + (identities.filter fun identity => identity.name == shasumOrName).length = 1
          then (identities.filter fun identity => identity.name == shasumOrName).getLast?.or named
          else none) := by
  induction identities generalizing count named with
  | nil => simp [shasumOrNameLoop]
  | cons identity identities ih =>
    rw [shasumOrNameLoop]
    by_cases hshasum : identity.shasum = shasumOrName
    · simp [hshasum]
    · by_cases hname : identity.name = shasumOrName
      · -- one more identity of the name, which later ones replace
        have hb : (identity.shasum == shasumOrName) = false := beq_eq_false_iff_ne.mpr hshasum
        have hcount : ∀ n : Nat, count + 1 + n = count + (n + 1) := fun n => by omega
        simp only [hshasum, hb, hname, if_false, if_true, ih, hcount, List.find?_cons,
          List.filter_cons, beq_self_eq_true, List.length_cons, List.getLast?_cons]
        cases (identities.filter fun identity => identity.name == shasumOrName).getLast? with
        | none => rfl
        | some last => rfl
      · simp [hshasum, hname, ih]

/-- An identity that is found is one that the text denotes. -/
theorem denotes_of_identityForShasumOrName {validCodesigningIdentities : List CodesignIdentity}
    {identity : CodesignIdentity} (hne : shasumOrName ≠ "-")
    (h : identityForShasumOrName shasumOrName validCodesigningIdentities = some identity) :
    Denotes validCodesigningIdentities shasumOrName identity := by
  rw [identityForShasumOrName, shasumOrNameLoop_eq] at h
  cases hfind : validCodesigningIdentities.find? fun identity =>
      identity.shasum == shasumOrName with
  | some found =>
    obtain rfl : found = identity := by simpa [hfind] using h
    exact .shasum hne (List.mem_of_find?_eq_some hfind) (by simpa using List.find?_some hfind)
  | none =>
    -- no shasum matches, so the count of the name was one
    apply Denotes.uniqueName hne (by simpa using hfind)
    simp only [hfind, Option.none_or, Nat.zero_add, Option.ite_none_right_eq_some,
      Option.or_none] at h
    obtain ⟨only, honly⟩ := List.length_eq_one_iff.mp h.1
    rw [honly, List.getLast?_singleton, Option.some.injEq] at h
    rw [honly, h.2]

/-- A text that finds no identity denotes none. -/
theorem not_denotes_of_identityForShasumOrName
    {validCodesigningIdentities : List CodesignIdentity} (hne : shasumOrName ≠ "-")
    (h : identityForShasumOrName shasumOrName validCodesigningIdentities = none)
    (identity : CodesignIdentity) :
    ¬ Denotes validCodesigningIdentities shasumOrName identity := by
  rw [identityForShasumOrName, shasumOrNameLoop_eq, Option.or_eq_none_iff] at h
  obtain ⟨hfind, hname⟩ := h
  rintro (heq | ⟨-, hmem, hshasum⟩ | ⟨-, -, hfilter⟩)
  · exact hne heq
  -- by its shasum it would have been found at once
  · simpa [hshasum] using List.find?_eq_none.mp hfind identity hmem
  · simp [hfilter] at hname

end CodesignIdentity

end IOSDeviceManager
