import IOSDeviceManager.Commands.ParseArgs

/-! # Redundant arguments

The comment of `parseArgs:forCommand:exitCode:` promises that redundant arguments are refused. The
loop checks this when a flag addresses an option that is bound already, but not when a positional
value does: the later value then takes the place of the earlier one. -/

namespace IOSDeviceManager

open General

namespace CLI

/-- Two groups of the arguments address the same option. -/
def Redundant (cmd : Command) (args : List String) : Prop :=
  ¬ (addressed (argGroups cmd 0 args)).Nodup

instance (cmd : Command) (args : List String) : Decidable (Redundant cmd args) :=
  inferInstanceAs (Decidable (¬ _))

/-- The group is a positional value for an option that is bound already. -/
def ArgGroup.Overwrites (bound : List String) : ArgGroup → Prop
  | .positional _ (some op) => op.optionName ∈ bound
  | _ => False

/-- A group that passes the checks addresses a bound option only by overwriting it. -/
theorem overwrites_iff_of_fits {bound : List String} {group : ArgGroup} (h : group.Fits bound) :
    ¬ group.Overwrites bound ↔ ∀ name ∈ group.optionName, name ∉ bound := by
  cases group with
  | positional arg option =>
    cases option with
    | none => simp [ArgGroup.Fits] at h
    | some op => simp [ArgGroup.Overwrites, ArgGroup.optionName, ArgGroup.option]
  | flag op value =>
    simpa [ArgGroup.Overwrites, ArgGroup.optionName, ArgGroup.option, ArgGroup.Fits] using h
  | missingValue arg op => exact h.elim

/-- Groups that all pass the checks are redundant exactly when one overwrites an option. -/
theorem redundant_iff_of_fits {cmd : Command} {args : List String}
    (h : AtEvery (fun before group => group.Fits (addressed before)) (argGroups cmd 0 args)) :
    Redundant cmd args ↔ ¬ AtEvery (fun before group => ¬ group.Overwrites (addressed before))
      (argGroups cmd 0 args) := by
  rw [Redundant, addressed, nodup_filterMap_iff, not_iff_not]
  constructor
  · exact fun hfresh before group after hsplit =>
      (overwrites_iff_of_fits (h before group after hsplit)).mpr (hfresh before group after hsplit)
  · exact fun hkeep before group after hsplit =>
      (overwrites_iff_of_fits (h before group after hsplit)).mp (hkeep before group after hsplit)

/-- **Redundant arguments.** For every command and all arguments: redundancy is refused exactly when
no positional value addresses an option that a group before it addresses, or when some group fails
one of the checks that are made (a flag for a bound option, a flag without its value, a token that
is neither a flag nor a positional value). -/
theorem redundant_refused_iff (cmd : Command) (args : List String) :
    (Redundant cmd args → (parseArgs cmd args).exitCode ≠ .everythingOkay) ↔
      AtEvery (fun before group => ¬ group.Overwrites (addressed before)) (argGroups cmd 0 args) ∨
        ¬ AtEvery (fun before group => group.Fits (addressed before)) (argGroups cmd 0 args) := by
  rw [ne_eq, parseArgs_exitCode_iff]
  by_cases hfits : AtEvery (fun before group => group.Fits (addressed before))
      (argGroups cmd 0 args)
  · simp [redundant_iff_of_fits hfits, hfits]
  · simp [hfits]

/-- Two bundle identifiers for `is-installed`: both address the first option, the command line is
accepted, and the second identifier takes the place of the first. -/
theorem redundant_accepted_isInstalled :
    Redundant Commands.isInstalledCommand ["com.my.first", "com.my.second", "-d", "e60ef9ae"] ∧
    (parseArgs Commands.isInstalledCommand
      ["com.my.first", "com.my.second", "-d", "e60ef9ae"]).exitCode = .everythingOkay ∧
    (parseArgs Commands.isInstalledCommand
      ["com.my.first", "com.my.second", "-d", "e60ef9ae"]).values.bind
        (fun values => values.objectForKey "bundle-identifier") =
      some (.string "com.my.second") := by
  decide +kernel

end CLI

end IOSDeviceManager
