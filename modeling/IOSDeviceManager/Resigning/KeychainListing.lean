import IOSDeviceManager.Foundation.NSRegularExpression
import IOSDeviceManager.General.FirstOccurrences
import IOSDeviceManager.Resigning.NamedIdentity

/-! # `validCodesigningIdentities`

The identities read from the listing that `security find-identity` prints. Each line of the listing
is matched against an expression for the name and one for the shasum, and an identity that was read
before is not added again. -/

namespace IOSDeviceManager

namespace CodesignIdentity

open General NSRegularExpression

/-! ## Reading -/

/-- `stdoutLines` of `ShellResult`. -/
def stdoutLines (stdoutStr : String) : List (List Char) :=
  stdoutStr.toList.splitOn '\n'

/-- The shasum of a line, if one is found. `uppercaseString` maps hexadecimal digits as `toUpper`
does. -/
def shasumOfLine (line : List Char) : Option (List Char) :=
  (firstUpperHexRun 40 line).map (·.map Char.toUpper)

/-- The identity of a line, if it has both a shasum and a name. -/
def identityOfLine (line : List Char) : Option CodesignIdentity :=
  match firstQuoted line, shasumOfLine line with
  | some name, some shasum =>
      if shasum ≠ [] ∧ name ≠ [] then some ⟨String.ofList shasum, String.ofList name⟩ else none
  | _, _ => none

/-- The loop of `validCodesigningIdentities` over the lines. -/
def linesLoop : List (List Char) → List CodesignIdentity → List CodesignIdentity
  | [], identities => identities
  | line :: lines, identities =>
      match identityOfLine line with
      | none => linesLoop lines identities
      | some identity =>
          if identities.contains identity then linesLoop lines identities
          else linesLoop lines (identities ++ [identity])

/-- `validCodesigningIdentities` for what `askSecurityForValidCodesignIdentities` printed, `none` if
it failed. -/
def validCodesigningIdentities (stdoutStr : Option String) : Option (List CodesignIdentity) :=
  match stdoutStr with
  | none => none
  | some stdoutStr => some (linesLoop (stdoutLines stdoutStr) [])

/-- The loop adds each identity the first time it is read. -/
theorem linesLoop_eq (lines : List (List Char)) (identities : List CodesignIdentity)
    (hnew : identities.eraseDups = identities) :
    linesLoop lines identities = (identities ++ lines.filterMap identityOfLine).eraseDups := by
  induction lines generalizing identities with
  | nil => simp [linesLoop, hnew]
  | cons line lines ih =>
    rw [linesLoop]
    cases hline : identityOfLine line with
    | none => simp [ih identities hnew, hline]
    | some identity =>
      rw [List.filterMap_cons_some hline]
      by_cases hmem : identity ∈ identities
      · -- read before, so that it is erased here
        have hremoved : (identity :: lines.filterMap identityOfLine).removeAll identities =
            (lines.filterMap identityOfLine).removeAll identities := by
          simp [List.removeAll, hmem]
        simp only [List.contains_eq_mem, hmem, decide_true, if_true]
        rw [ih identities hnew, List.eraseDups_append, List.eraseDups_append, hremoved]
      · have hadded : (identities ++ [identity]).eraseDups = identities ++ [identity] := by
          rw [List.eraseDups_append, hnew]
          simp [List.removeAll, hmem, List.eraseDups_cons]
        simp only [List.contains_eq_mem, hmem, decide_false, Bool.false_eq_true, if_false]
        rw [ih _ hadded, List.append_assoc, List.singleton_append]

/-- **What is read**: the identities of the lines, in the order of their first occurrence. -/
theorem validCodesigningIdentities_eq (stdoutStr : String) :
    validCodesigningIdentities (some stdoutStr) =
      some ((stdoutLines stdoutStr).filterMap identityOfLine).eraseDups := by
  rw [validCodesigningIdentities, linesLoop_eq _ _ List.eraseDups_nil, List.nil_append]

/-! ## Printing -/

/-- An `int` in decimal. -/
def decimal (i : Int32) : List Char :=
  (toString i.toInt).toList

/-- `%3d` for the index of an identity. -/
def ordinal (i : Nat) : List Char :=
  (decimal (Int32.ofNat i)).leftpad 3 ' '

/-- The line of an identity. -/
def identityLine (i : Nat) (identity : CodesignIdentity) : List Char :=
  ordinal i ++ ") ".toList ++ identity.shasum.toList ++ " \"".toList ++ identity.name.toList ++
    "\"".toList

/-- The line after the identities. -/
def summaryLine (count : Nat) : List Char :=
  "     ".toList ++ decimal (Int32.ofNat count) ++ " valid identities found".toList

/-- What `security find-identity` prints: a line for each identity, counted from `1`, and the
summary. -/
def listing (identities : List CodesignIdentity) : String :=
  String.ofList
    (((identities.mapIdx fun i identity => identityLine (i + 1) identity) ++
      [summaryLine identities.length]).flatMap (· ++ ['\n']))

example : listing [⟨"A0", "B"⟩, ⟨"C1", "D"⟩] =
    "  1) A0 \"B\"\n  2) C1 \"D\"\n     2 valid identities found\n" := by decide

/-! ## Reading what is printed -/

/-- An identity as the keychain has them: a shasum of 40 digits, and a name on one line without a
double quote. -/
structure IsListed (identity : CodesignIdentity) : Prop where
  length_shasum : identity.shasum.toList.length = 40
  isUpperHex_shasum : ∀ c ∈ identity.shasum.toList, isUpperHex c = true
  name_ne_nil : identity.name.toList ≠ []
  quote_not_mem_name : '"' ∉ identity.name.toList
  isLineTerminator_name : ∀ c ∈ identity.name.toList, isLineTerminator c = false

/-- A decimal number is a sign, if need be, and the digits. -/
theorem decimal_eq (i : Int32) : decimal i =
    (if 0 ≤ i.toInt then [] else ['-']) ++ Nat.toDigits 10 i.toInt.natAbs := by
  rw [decimal, Int.toString_eq_repr, Int.repr_eq_if]
  split
  · have hnat : i.toInt.toNat = i.toInt.natAbs := by omega
    rw [Nat.toList_repr, List.nil_append, hnat]
  · have hnat : (-i.toInt).toNat = i.toInt.natAbs := by omega
    rw [String.toList_append, Nat.toList_repr, hnat]
    rfl

/-- The characters of a decimal number are digits or a sign. -/
theorem mem_decimal {i : Int32} {c : Char} (h : c ∈ decimal i) : c.isDigit = true ∨ c = '-' := by
  rw [decimal_eq, List.mem_append] at h
  rcases h with h | h
  · split at h
    · cases h
    · exact .inr (List.mem_singleton.mp h)
  · exact .inl (Nat.isDigit_of_mem_toDigits (by decide) (by decide) h)

/-- A decimal number is far too short for a shasum. -/
theorem length_decimal_le (i : Int32) : (decimal i).length ≤ 11 := by
  have hdigits : (Nat.toDigits 10 i.toInt.natAbs).length ≤ 10 := by
    have hlow : -2 ^ 31 ≤ i.toInt := Int32.le_toInt i
    have hhigh : i.toInt < 2 ^ 31 := Int32.toInt_lt i
    rw [Nat.length_toDigits_le_iff (by decide) (by decide)]
    omega
  have hsign : (if 0 ≤ i.toInt then [] else ['-']).length ≤ 1 := by
    split <;> simp
  rw [decimal_eq, List.length_append]
  omega

/-- The index of a line is as short. -/
theorem length_ordinal_le (i : Nat) : (ordinal i).length ≤ 11 := by
  have hdecimal := length_decimal_le (Int32.ofNat i)
  rw [ordinal, List.length_leftpad]
  omega

/-- The characters of an index. -/
theorem mem_ordinal {i : Nat} {c : Char} (h : c ∈ ordinal i) :
    c.isDigit = true ∨ c = '-' ∨ c = ' ' := by
  rw [ordinal, List.leftpad, List.mem_append] at h
  rcases h with h | h
  · exact .inr (.inr (List.eq_of_mem_replicate h))
  · exact (mem_decimal h).imp_right .inl

/-- **The shasum of a line** is the run of digits that follows the index, whatever comes then. -/
theorem shasumOfLine_append {run : List Char} (hlength : run.length = 40)
    (hrun : ∀ c ∈ run, isUpperHex c = true) (i : Nat) (rest : List Char) :
    shasumOfLine (ordinal i ++ ") ".toList ++ run ++ rest) = some run := by
  have hshort : (ordinal i).length < 40 := (length_ordinal_le i).trans_lt (by decide)
  have hupper : run.map Char.toUpper = run :=
    (List.map_congr_left fun c hc => toUpper_of_isUpperHex (hrun c hc)).trans run.map_id
  have hline : ordinal i ++ ") ".toList ++ run ++ rest =
      ordinal i ++ ')' :: ([] ++ ' ' :: (run ++ rest)) := by simp
  rw [shasumOfLine, hline, firstUpperHexRun_skip hshort (by decide),
    firstUpperHexRun_skip (by decide) (by decide), firstUpperHexRun_append hlength (by decide) hrun,
    Option.map_some, hupper]

/-- **A line is read back.** -/
theorem identityOfLine_identityLine {identity : CodesignIdentity} (h : identity.IsListed) (i : Nat) :
    identityOfLine (identityLine i identity) = some identity := by
  have hshasum : shasumOfLine (identityLine i identity) = some identity.shasum.toList := by
    have hline := shasumOfLine_append h.length_shasum h.isUpperHex_shasum i
      (" \"".toList ++ identity.name.toList ++ "\"".toList)
    simpa only [identityLine, List.append_assoc] using hline
  have hname : firstQuoted (identityLine i identity) = some identity.name.toList := by
    have hquote : '"' ∉ ordinal i ++ ") ".toList ++ identity.shasum.toList ++ " ".toList := by
      have hindex : '"' ∉ ordinal i := fun hmem => absurd (mem_ordinal hmem) (by decide)
      have hdigits : '"' ∉ identity.shasum.toList :=
        fun hmem => absurd (h.isUpperHex_shasum _ hmem) (by decide)
      simp [hindex, hdigits]
    have hline : identityLine i identity =
        ordinal i ++ ") ".toList ++ identity.shasum.toList ++ " ".toList ++
          '"' :: (identity.name.toList ++ '"' :: []) := by simp [identityLine]
    rw [hline, firstQuoted_append hquote,
      textToQuote_append h.quote_not_mem_name h.isLineTerminator_name]
    rfl
  have hne : identity.shasum.toList ≠ [] := by
    apply List.ne_nil_of_length_pos
    rw [h.length_shasum]
    decide
  simp [identityOfLine, hname, hshasum, hne, h.name_ne_nil]

/-- The line of an identity is one line. -/
theorem newline_not_mem_identityLine {identity : CodesignIdentity} (h : identity.IsListed)
    (i : Nat) : '\n' ∉ identityLine i identity := by
  have hindex : '\n' ∉ ordinal i := fun hmem => absurd (mem_ordinal hmem) (by decide)
  have hdigits : '\n' ∉ identity.shasum.toList :=
    fun hmem => absurd (h.isUpperHex_shasum _ hmem) (by decide)
  have hname : '\n' ∉ identity.name.toList :=
    fun hmem => absurd (h.isLineTerminator_name _ hmem) (by decide)
  simp [identityLine, hindex, hdigits, hname]

/-- The summary is one line without a quote. -/
theorem not_mem_summaryLine (count : Nat) :
    '\n' ∉ summaryLine count ∧ '"' ∉ summaryLine count := by
  have hnewline : '\n' ∉ decimal (Int32.ofNat count) :=
    fun hmem => absurd (mem_decimal hmem) (by decide)
  have hquote : '"' ∉ decimal (Int32.ofNat count) :=
    fun hmem => absurd (mem_decimal hmem) (by decide)
  simp [summaryLine, hnewline, hquote]

/-- A line without a quote has no identity. -/
theorem identityOfLine_eq_none {line : List Char} (h : '"' ∉ line) : identityOfLine line = none := by
  simp [identityOfLine, firstQuoted_eq_none h]

/-- Lines that end with a newline each are split again; nothing comes after the last one. -/
theorem splitOn_flatMap_newline {lines : List (List Char)} (h : ∀ line ∈ lines, '\n' ∉ line) :
    (lines.flatMap (· ++ ['\n'])).splitOn '\n' = lines ++ [[]] := by
  induction lines with
  | nil => rfl
  | cons line lines ih =>
    rw [List.forall_mem_cons] at h
    rw [List.flatMap_cons, List.append_assoc, List.singleton_append,
      List.splitOn_append_cons_self_of_not_mem h.1, ih h.2, List.cons_append]

/-- What is read from each item of an enumeration. -/
theorem filterMap_mapIdx {α β : Type*} {f : Nat → α → β} {g : β → Option α} {l : List α}
    (h : ∀ i, ∀ a ∈ l, g (f i a) = some a) : (l.mapIdx f).filterMap g = l := by
  induction l generalizing f with
  | nil => rfl
  | cons a l ih =>
    have htail : ∀ i, ∀ b ∈ l, g (f (i + 1) b) = some b :=
      fun i b hb => h (i + 1) b (List.mem_cons_of_mem a hb)
    rw [List.mapIdx_cons, List.filterMap_cons_some (h 0 a List.mem_cons_self), ih htail]

/-- **The listing is read back**: the identities in the order of their first occurrence. -/
theorem validCodesigningIdentities_listing {identities : List CodesignIdentity}
    (h : ∀ identity ∈ identities, identity.IsListed) :
    validCodesigningIdentities (some (listing identities)) = some identities.eraseDups := by
  have hlines : stdoutLines (listing identities) =
      ((identities.mapIdx fun i identity => identityLine (i + 1) identity) ++
        [summaryLine identities.length]) ++ [[]] := by
    rw [stdoutLines, listing, String.toList_ofList, splitOn_flatMap_newline]
    simp only [List.mem_append, List.mem_mapIdx, List.mem_singleton]
    rintro line (⟨i, hi, rfl⟩ | rfl)
    · exact newline_not_mem_identityLine (h _ (List.getElem_mem hi)) _
    · exact (not_mem_summaryLine _).1
  have hsummary : identityOfLine (summaryLine identities.length) = none :=
    identityOfLine_eq_none (not_mem_summaryLine _).2
  have hempty : identityOfLine [] = none := identityOfLine_eq_none List.not_mem_nil
  rw [validCodesigningIdentities_eq, hlines, List.filterMap_append, List.filterMap_append,
    filterMap_mapIdx fun i identity hmem => identityOfLine_identityLine (h identity hmem) (i + 1)]
  simp [hsummary, hempty]

/-! ## Asking for an identity -/

/-- The identity that a text stands for: the first of its shasum or, if there is none, the only one
of its name. -/
def StandsFor (identities : List CodesignIdentity) (shasumOrName : String)
    (identity : CodesignIdentity) : Prop :=
  (identities.find? fun other => other.shasum == shasumOrName) = some identity ∨
    (∀ other ∈ identities, other.shasum ≠ shasumOrName) ∧
      identity ∈ identities ∧ identity.name = shasumOrName ∧
        ∀ other ∈ identities, other.name = shasumOrName → other = identity

/-- A text is looked up among the first occurrences. -/
theorem identityForShasumOrName_eraseDups_iff {identities : List CodesignIdentity}
    {shasumOrName : String} {identity : CodesignIdentity} :
    identityForShasumOrName shasumOrName identities.eraseDups = some identity ↔
      StandsFor identities shasumOrName identity := by
  unfold StandsFor
  rw [identityForShasumOrName, shasumOrNameLoop_eq, find?_eraseDups]
  cases hfind : identities.find? fun other => other.shasum == shasumOrName with
  | some found =>
    have hmem := List.mem_of_find?_eq_some hfind
    have hshasum : found.shasum = shasumOrName := by simpa using List.find?_some hfind
    have hno : ¬ ∀ other ∈ identities, other.shasum ≠ shasumOrName :=
      fun hall => hall found hmem hshasum
    simp [hno]
  | none =>
    have hall : ∀ other ∈ identities, other.shasum ≠ shasumOrName := by simpa using hfind
    -- the last of the name, if the count is one, is the only one
    have hname : (identities.eraseDups.filter fun other => other.name == shasumOrName) = [identity] ↔
        identity ∈ identities ∧ identity.name = shasumOrName ∧
          ∀ other ∈ identities, other.name = shasumOrName → other = identity := by
      simpa using filter_eraseDups_eq_singleton_iff (l := identities) (a := identity)
        (p := fun other => other.name == shasumOrName)
    rw [Option.none_or, Nat.zero_add, Option.or_none, ← hname]
    generalize identities.eraseDups.filter (fun other => other.name == shasumOrName) = named
    rcases named with _ | ⟨only, _ | ⟨second, rest⟩⟩
    · simp
    · simpa using fun _ : only = identity => hall
    · simp

/-- What a text stands for does not depend on the order, if shasums are distinct. -/
theorem StandsFor.of_perm {identities others : List CodesignIdentity} {shasumOrName : String}
    {identity : CodesignIdentity} (hperm : identities.Perm others)
    (hshasum : ∀ a ∈ identities, ∀ b ∈ identities, a.shasum = b.shasum → a = b)
    (h : StandsFor identities shasumOrName identity) : StandsFor others shasumOrName identity := by
  rcases h with hfind | ⟨hnone, hmem, hname, hunique⟩
  · left
    have hmem := List.mem_of_find?_eq_some hfind
    have hfound : identity.shasum = shasumOrName := by simpa using List.find?_some hfind
    -- another identity of the shasum would be the same
    cases hother : others.find? fun other => other.shasum == shasumOrName with
    | none =>
      have hall : ∀ other ∈ others, other.shasum ≠ shasumOrName := by simpa using hother
      exact absurd hfound (hall identity (hperm.subset hmem))
    | some other =>
      have hotherShasum : other.shasum = shasumOrName := by simpa using List.find?_some hother
      have hotherMem := hperm.symm.subset (List.mem_of_find?_eq_some hother)
      rw [hshasum other hotherMem identity hmem (hotherShasum.trans hfound.symm)]
  · right
    exact ⟨fun other hother => hnone other (hperm.symm.subset hother), hperm.subset hmem, hname,
      fun other hother => hunique other (hperm.symm.subset hother)⟩

/-- The identity that a text denotes on the listing of these identities. -/
def lookup (identities : List CodesignIdentity) (shasumOrName : String) : Option CodesignIdentity :=
  identityForShasumOrName shasumOrName
    ((validCodesigningIdentities (some (listing identities))).getD [])

/-- What reading the listing of a keychain gives. -/
structure IsReadBack (identities : List CodesignIdentity) : Prop where
  /-- The identities in the order of their first occurrence, each once. -/
  read : validCodesigningIdentities (some (listing identities)) = some identities.eraseDups
  /-- A text finds the identity it stands for, and nothing if there is none. -/
  lookup_iff : ∀ shasumOrName identity,
    lookup identities shasumOrName = some identity ↔ StandsFor identities shasumOrName identity
  /-- An identity that is listed more than once is not ambiguous. -/
  lookup_name : ∀ identity ∈ identities,
    (∀ other ∈ identities, other.shasum ≠ identity.name) →
      (∀ other ∈ identities, other.name = identity.name → other = identity) →
        lookup identities identity.name = some identity
  /-- If shasums are distinct, the order of the listing plays no part. -/
  lookup_perm : (∀ a ∈ identities, ∀ b ∈ identities, a.shasum = b.shasum → a = b) →
    ∀ others : List CodesignIdentity, identities.Perm others →
      ∀ shasumOrName, lookup others shasumOrName = lookup identities shasumOrName

/-- A listing that is read back is searched as the identities are. -/
theorem lookup_eq_some_iff {identities : List CodesignIdentity}
    (h : ∀ identity ∈ identities, identity.IsListed) {shasumOrName : String}
    {identity : CodesignIdentity} :
    lookup identities shasumOrName = some identity ↔
      StandsFor identities shasumOrName identity := by
  rw [lookup, validCodesigningIdentities_listing h, Option.getD_some,
    identityForShasumOrName_eraseDups_iff]

/-- **The keychain listing is read back exactly**, for names on one line. -/
theorem isReadBack_of_isListed (identities : List CodesignIdentity)
    (h : ∀ identity ∈ identities, identity.IsListed) : IsReadBack identities where
  read := validCodesigningIdentities_listing h
  lookup_iff _ _ := lookup_eq_some_iff h
  lookup_name identity hmem hnone hunique :=
    (lookup_eq_some_iff h).mpr (.inr ⟨hnone, hmem, rfl, hunique⟩)
  lookup_perm hshasum others hperm shasumOrName := by
    have hothers : ∀ identity ∈ others, identity.IsListed :=
      fun identity hmem => h identity (hperm.symm.subset hmem)
    have hshasum' : ∀ a ∈ others, ∀ b ∈ others, a.shasum = b.shasum → a = b :=
      fun a ha b hb => hshasum a (hperm.symm.subset ha) b (hperm.symm.subset hb)
    apply Option.ext
    intro identity
    rw [lookup_eq_some_iff hothers, lookup_eq_some_iff h]
    exact ⟨.of_perm hperm.symm hshasum', .of_perm hperm hshasum⟩

/-- Two identities, one of them listed twice. -/
theorem isReadBack_listedTwice :
    IsReadBack [⟨"921D006C34510B86D66912F2C58344AC37A6B88E", "Joshua Moody"⟩,
      ⟨"921D006C34510B86D66912F2C58344AC37A6B88E", "Joshua Moody"⟩,
      ⟨"FF46970BF4C91E7B88403EC1CFE723D43ABA64AB", "Karl Krukow"⟩] := by
  have hmoody : IsListed ⟨"921D006C34510B86D66912F2C58344AC37A6B88E", "Joshua Moody"⟩ :=
    ⟨rfl, List.all_eq_true.mp (by decide +kernel), by decide, by decide,
      by simp [isLineTerminator]⟩
  have hkrukow : IsListed ⟨"FF46970BF4C91E7B88403EC1CFE723D43ABA64AB", "Karl Krukow"⟩ :=
    ⟨rfl, List.all_eq_true.mp (by decide +kernel), by decide, by decide,
      by simp [isLineTerminator]⟩
  apply isReadBack_of_isListed
  rw [List.forall_mem_cons, List.forall_mem_cons, List.forall_mem_singleton]
  exact ⟨hmoody, hmoody, hkrukow⟩

/-- **A name that `.` does not match.** An identity whose name has a carriage return in it, and no
newline and no quote, is not read back. -/
theorem carriageReturn_is_lost :
    let identity : CodesignIdentity := ⟨"921D006C34510B86D66912F2C58344AC37A6B88E", "Joshua\rMoody"⟩
    identity.shasum.toList.length = 40 ∧ (∀ c ∈ identity.shasum.toList, isUpperHex c = true) ∧
      identity.name ≠ "" ∧ '"' ∉ identity.name.toList ∧ '\n' ∉ identity.name.toList ∧
        validCodesigningIdentities (some (listing [identity])) = some [] :=
  ⟨rfl, List.all_eq_true.mp (by decide +kernel), by decide, by decide, by decide,
    by decide +kernel⟩

end CodesignIdentity

end IOSDeviceManager
