import IOSDeviceManager.Commands.Registry
import IOSDeviceManager.Foundation.NSDictionary
import IOSDeviceManager.General.PrefixCondition

/-! # `parseArgs:forCommand:exitCode:`

The loop over the argument tokens. It is read in two stages: the grouping of the tokens into
positional values, flags and their values, which does not look at what is bound so far, and the
binding of the groups one after the other. -/

namespace IOSDeviceManager

open General

/-- What is written to the console. -/
inductive ConsoleLine where
  /-- `ConsoleWriteErr`. -/
  | err (text : String)
  /-- `printUsage` of the command. -/
  | commandUsage (text : String)
  /-- `printUsage` of the program. -/
  | programUsage
  deriving DecidableEq, Repr

/-- The outcome of `parseArgs:forCommand:exitCode:`: the returned dictionary, the exit code and the
console output. -/
structure ParsedArgs where
  values : Option (NSDictionary ArgValue)
  exitCode : IOSReturnStatusCode
  console : List ConsoleLine

namespace CLI

/-- Every argument was bound. -/
def okay (values : NSDictionary ArgValue) : ParsedArgs :=
  ⟨some values, .everythingOkay, []⟩

/-- A token is no flag, and no positional option is left for it. -/
def unrecognizedFlag (arg : String) : ParsedArgs :=
  ⟨none, .unrecognizedFlag,
    [.err ("Unrecognized flag or unsupported argument: " ++ arg ++ "\n"), .programUsage]⟩

/-- A flag that takes a value is the last token. -/
def missingArguments (cmd : Command) (arg : String) : ParsedArgs :=
  ⟨none, .missingArguments,
    [.err ("No value provided for " ++ arg ++ "\n"), .commandUsage cmd.usage]⟩

/-- A flag addresses an option that is bound already. -/
def invalidArguments (cmd : Command) (op : CommandOption) : ParsedArgs :=
  ⟨none, .invalidArguments,
    [.err ("Multiple arguments detected for " ++ op.optionName), .commandUsage cmd.usage]⟩

/-- The option of a positional value: by context for `is-installed` and `app-info`, which take
either a bundle identifier or an app path, else by the position. -/
def positionalOption (cmd : Command) (positionalArgCount : Nat) (arg : String) :
    Option CommandOption :=
  if cmd.name = "is-installed" ∨ cmd.name = "app-info" then cmd.optionForAppPathOrBundleID arg
  else cmd.optionForPosition positionalArgCount

/-- The loop of `parseArgs:forCommand:exitCode:` over the remaining tokens. -/
def parseLoop (cmd : Command) : List String → Nat → NSDictionary ArgValue → ParsedArgs
  | [], _, values => okay values
  | arg :: rest, positionalArgCount, values =>
      match cmd.optionForFlag arg with
      | none =>
          match positionalOption cmd positionalArgCount arg with
          | some op =>
              parseLoop cmd rest (positionalArgCount + 1)
                (values.setObject op.optionName (.string arg))
          | none => unrecognizedFlag arg
      | some op =>
          if op.requiresArgument then
            match rest with
            | [] => missingArguments cmd arg
            | value :: rest =>
                if (values.objectForKey op.optionName).isSome then invalidArguments cmd op
                else parseLoop cmd rest positionalArgCount
                  (values.setObject op.optionName (.string value))
          else if (values.objectForKey op.optionName).isSome then invalidArguments cmd op
          else parseLoop cmd rest positionalArgCount (values.setObject op.optionName (.bool true))

/-- `parseArgs:forCommand:exitCode:`. -/
def parseArgs (cmd : Command) (args : List String) : ParsedArgs :=
  if args.length = 0 ∧ cmd.name ≠ "kill-simulator" then
    ⟨some NSDictionary.empty, .everythingOkay, [.commandUsage cmd.usage]⟩
  else parseLoop cmd args 0 NSDictionary.empty

/-! ## Groups of tokens -/

/-- A group of tokens, with the option it addresses. -/
inductive ArgGroup where
  /-- A token that is no flag, with the positional option for it, if any. -/
  | positional (arg : String) (option : Option CommandOption)
  /-- A flag with the value it is given. -/
  | flag (option : CommandOption) (value : ArgValue)
  /-- A flag at the end that lacks its value. -/
  | missingValue (arg : String) (option : CommandOption)
  deriving DecidableEq, Repr

/-- The option a group addresses. -/
def ArgGroup.option : ArgGroup → Option CommandOption
  | .positional _ option => option
  | .flag option _ => some option
  | .missingValue _ option => some option

/-- The name of the option a group addresses. -/
def ArgGroup.optionName (group : ArgGroup) : Option String :=
  group.option.map fun op => op.optionName

/-- The groups of the tokens, from a number of positional values seen. -/
def argGroups (cmd : Command) : Nat → List String → List ArgGroup
  | _, [] => []
  | positionalArgCount, arg :: rest =>
      match cmd.optionForFlag arg with
      | none =>
          .positional arg (positionalOption cmd positionalArgCount arg) ::
            argGroups cmd (positionalArgCount + 1) rest
      | some op =>
          if op.requiresArgument then
            match rest with
            | [] => [.missingValue arg op]
            | value :: rest =>
                .flag op (.string value) :: argGroups cmd positionalArgCount rest
          else .flag op (.bool true) :: argGroups cmd positionalArgCount rest

/-- The binding of groups, one after the other. -/
def bindGroups (cmd : Command) : List ArgGroup → NSDictionary ArgValue → ParsedArgs
  | [], values => okay values
  | .positional arg (some op) :: groups, values =>
      bindGroups cmd groups (values.setObject op.optionName (.string arg))
  | .positional arg none :: _, _ => unrecognizedFlag arg
  | .missingValue arg _ :: _, _ => missingArguments cmd arg
  | .flag op value :: groups, values =>
      if (values.objectForKey op.optionName).isSome then invalidArguments cmd op
      else bindGroups cmd groups (values.setObject op.optionName value)

/-- The loop binds the groups of its tokens. -/
theorem parseLoop_eq_bindGroups (cmd : Command) (args : List String) (positionalArgCount : Nat)
    (values : NSDictionary ArgValue) :
    parseLoop cmd args positionalArgCount values =
      bindGroups cmd (argGroups cmd positionalArgCount args) values := by
  induction args, positionalArgCount, values using parseLoop.induct cmd with
  | case1 => rfl
  | case2 arg rest n values hflag op hop ih =>
    simp [parseLoop, argGroups, bindGroups, hflag, hop, ih]
  | case3 arg rest n values hflag hop => simp [parseLoop, argGroups, bindGroups, hflag, hop]
  | case4 arg n values op hflag hreq => simp [parseLoop, argGroups, bindGroups, hflag, hreq]
  | case5 arg n values op hflag hreq value rest hbound =>
    simp [parseLoop, argGroups, bindGroups, hflag, hreq, hbound]
  | case6 arg n values op hflag hreq value rest hfree ih =>
    simp [parseLoop, argGroups, bindGroups, hflag, hreq, hfree, ih]
  | case7 arg rest n values op hflag hreq hbound =>
    simp [parseLoop, argGroups, bindGroups, hflag, hreq, hbound]
  | case8 arg rest n values op hflag hreq hfree ih =>
    simp [parseLoop, argGroups, bindGroups, hflag, hreq, hfree, ih]

/-! ## Binding -/

/-- The names of the options that groups address. -/
def addressed (groups : List ArgGroup) : List String :=
  groups.filterMap ArgGroup.optionName

/-- The group passes the checks of the loop, with the options `bound` bound already: a positional
value has an option, a flag has its value, and the option of a flag is not bound. -/
def ArgGroup.Fits (bound : List String) : ArgGroup → Prop
  | .positional _ option => option.isSome
  | .flag op _ => op.optionName ∉ bound
  | .missingValue _ _ => False

/-- What a group binds. -/
def ArgGroup.binding : ArgGroup → Option (String × ArgValue)
  | .positional arg option => option.map fun op => (op.optionName, .string arg)
  | .flag op value => some (op.optionName, value)
  | .missingValue _ _ => none

/-- The dictionary with further bindings, the later ones in the place of earlier ones. -/
def setBindings (values : NSDictionary ArgValue) (bindings : List (String × ArgValue)) :
    NSDictionary ArgValue :=
  bindings.foldl (fun values entry => values.setObject entry.1 entry.2) values

/-- The names in a dictionary after one more binding. -/
theorem isSome_objectForKey_setObject (values : NSDictionary ArgValue) (name other : String)
    (value : ArgValue) :
    ((values.setObject name value).objectForKey other).isSome ↔
      other = name ∨ (values.objectForKey other).isSome := by
  by_cases h : other = name
  · simp [h]
  · simp [values.objectForKey_setObject_of_ne h, h]

/-- **The checks of the loop.** Groups are bound exactly when each passes the checks against those
before it; then every one of them is bound, in order. -/
theorem bindGroups_spec (cmd : Command) (groups : List ArgGroup) (values : NSDictionary ArgValue)
    {bound : List String} (hbound : ∀ name, (values.objectForKey name).isSome ↔ name ∈ bound) :
    ((bindGroups cmd groups values).exitCode = .everythingOkay ↔
      AtEvery (fun before group => group.Fits (bound ++ addressed before)) groups) ∧
    ((bindGroups cmd groups values).exitCode = .everythingOkay →
      bindGroups cmd groups values =
        okay (setBindings values (groups.filterMap ArgGroup.binding))) := by
  induction groups generalizing values bound with
  | nil => simp [bindGroups, okay, setBindings]
  | cons group groups ih =>
    -- after a group for `name` the bound names are `bound ++ [name]`
    have hnext : ∀ name value, ∀ other,
        ((values.setObject name value).objectForKey other).isSome ↔ other ∈ bound ++ [name] := by
      intro name value other
      rw [isSome_objectForKey_setObject, hbound, List.mem_append, List.mem_singleton, or_comm]
    have hcons : ∀ {name}, group.optionName = some name → ∀ before,
        bound ++ addressed (group :: before) = bound ++ [name] ++ addressed before := by
      intro name hname before
      simp [addressed, hname]
    rw [atEvery_cons]
    cases group with
    | positional arg option =>
      cases option with
      | none => simp [bindGroups, unrecognizedFlag, ArgGroup.Fits]
      | some op =>
        obtain ⟨hokay, hvalues⟩ := ih _ (hnext op.optionName (.string arg))
        have hfits : (ArgGroup.positional arg (some op)).Fits (bound ++ addressed []) := rfl
        simp only [bindGroups, hcons rfl, hfits, true_and]
        exact ⟨hokay, hvalues⟩
    | missingValue arg op => simp [bindGroups, missingArguments, ArgGroup.Fits]
    | flag op value =>
      by_cases hname : op.optionName ∈ bound
      · have hsome := (hbound op.optionName).mpr hname
        simp [bindGroups, hsome, invalidArguments, ArgGroup.Fits, hname]
      · have hnone : ¬ (values.objectForKey op.optionName).isSome := mt (hbound _).mp hname
        obtain ⟨hokay, hvalues⟩ := ih _ (hnext op.optionName value)
        have hbind : bindGroups cmd (.flag op value :: groups) values =
            bindGroups cmd groups (values.setObject op.optionName value) := by
          simp [bindGroups, hnone]
        have hfits : (ArgGroup.flag op value).Fits (bound ++ addressed []) := by
          simpa [ArgGroup.Fits, addressed] using hname
        simp only [hbind, hcons rfl, hfits, true_and]
        exact ⟨hokay, hvalues⟩

/-- At the start no name is bound. -/
theorem isSome_objectForKey_empty (name : String) :
    ((NSDictionary.empty : NSDictionary ArgValue).objectForKey name).isSome ↔
      name ∈ ([] : List String) := by
  simp

/-- Parsing succeeds exactly when every group passes the checks. -/
theorem parseArgs_exitCode_iff (cmd : Command) (args : List String) :
    (parseArgs cmd args).exitCode = .everythingOkay ↔
      AtEvery (fun before group => group.Fits (addressed before)) (argGroups cmd 0 args) := by
  unfold parseArgs
  split
  · rename_i hempty
    obtain rfl := List.length_eq_zero_iff.mp hempty.1
    simp [argGroups]
  · rw [parseLoop_eq_bindGroups]
    simpa using (bindGroups_spec cmd (argGroups cmd 0 args) NSDictionary.empty
      isSome_objectForKey_empty).1

/-- When parsing succeeds the dictionary holds the bindings of the groups. -/
theorem parseArgs_values {cmd : Command} {args : List String}
    (h : (parseArgs cmd args).exitCode = .everythingOkay) :
    (parseArgs cmd args).values =
      some (setBindings NSDictionary.empty
        ((argGroups cmd 0 args).filterMap ArgGroup.binding)) := by
  unfold parseArgs at h ⊢
  split
  · rename_i hempty
    obtain rfl := List.length_eq_zero_iff.mp hempty.1
    rfl
  · rename_i hargs
    rw [if_neg hargs, parseLoop_eq_bindGroups] at h
    rw [parseLoop_eq_bindGroups, (bindGroups_spec cmd (argGroups cmd 0 args) NSDictionary.empty
      isSome_objectForKey_empty).2 h]
    rfl

end CLI

end IOSDeviceManager
