import IOSDeviceManager.Commands.ParseArgs
import Mathlib.Data.List.Nodup
import Mathlib.Data.List.Pairwise

/-! # Parsing undoes rendering, in any order

An assignment of values to options is rendered as groups of tokens: a positional value is one token,
a flag is followed by its value, a boolean flag stands alone. Parsing the groups in any order that
keeps the positional values in theirs gives back the assignment. -/

namespace IOSDeviceManager

open General

namespace CLI

/-- The two flags of an option. -/
def flagsOf (op : CommandOption) : List String :=
  [op.shortFlag, op.longFlag]

/-- Two options have no common flag. -/
def DistinctFlags (op other : CommandOption) : Prop :=
  ∀ flag ∈ flagsOf op, flag ∉ flagsOf other

instance : Std.Symm DistinctFlags :=
  ⟨fun _ _ h flag hother hop => h flag hop hother⟩

instance (op other : CommandOption) : Decidable (DistinctFlags op other) :=
  inferInstanceAs (Decidable (∀ flag ∈ flagsOf op, flag ∉ flagsOf other))

/-- A table whose option names are distinct, and whose flagged options have distinct flags, none of
them empty. -/
structure WellFormed (cmd : Command) : Prop where
  names : (cmd.options.map fun op => op.optionName).Nodup
  flags : cmd.flaggedOptions.Pairwise DistinctFlags
  nonempty : ∀ op ∈ cmd.flaggedOptions, "" ∉ flagsOf op

/-- A flag with its value, none for a boolean flag. -/
structure FlagGroup where
  token : String
  option : CommandOption
  value : Option String

/-- The tokens of a flag. -/
def FlagGroup.render (group : FlagGroup) : List String :=
  group.token :: group.value.toList

/-- The value a flag is bound to: `YES` for a boolean one. -/
def FlagGroup.argValue (group : FlagGroup) : ArgValue :=
  group.value.elim (.bool true) .string

/-- The group renders a flagged option of the command, or the help option: its token is the short or
the long flag, and it has a value exactly if the option takes one. A help flag that an option of the
table has as its own renders that option. -/
structure FlagGroup.Renders (cmd : Command) (group : FlagGroup) : Prop where
  option : group.option ∈ cmd.flaggedOptions ∨
    group.option = Command.helpCommand ∧ ∀ op ∈ cmd.options, group.token ∉ flagsOf op
  token : group.token ∈ flagsOf group.option
  value : group.value.isSome = group.option.requiresArgument

/-- The options of positional values. -/
def positionalOptionsOf (cmd : Command) (values : List String) : List CommandOption :=
  values.zipIdx.filterMap fun entry => cmd.optionForPosition entry.2

/-- An assignment of values: to the positional options at the first positions, and to some flagged
options, with the tokens that render it. -/
structure Assignment (cmd : Command) where
  /-- The values of the positional options, by position. -/
  positionals : List String
  /-- The flags, in some order. -/
  flags : List FlagGroup
  /-- There is an option at each of the positions. -/
  positionals_option : ∀ index < positionals.length, (cmd.optionForPosition index).isSome
  /-- No positional value is a flag. -/
  positionals_unrecognized : ∀ value ∈ positionals, cmd.optionForFlag value = none
  flags_render : ∀ group ∈ flags, group.Renders cmd
  /-- No option is assigned twice. -/
  flags_nodup : (flags.map FlagGroup.option).Nodup
  /-- With the help option, no other option of its name is assigned. -/
  help_name : Command.helpCommand ∈ flags.map FlagGroup.option →
    ∀ op ∈ positionalOptionsOf cmd positionals ++ flags.map FlagGroup.option,
      op.optionName = Command.helpCommand.optionName → op = Command.helpCommand

/-- A group of an ordered rendering. -/
inductive Group where
  | positional (value : String)
  | flag (group : FlagGroup)

/-- The tokens of a group. -/
def Group.render : Group → List String
  | .positional value => [value]
  | .flag group => group.render

/-- The positional value of a group. -/
def Group.positional? : Group → Option String
  | .positional value => some value
  | .flag _ => none

/-- The flag of a group. -/
def Group.flag? : Group → Option FlagGroup
  | .positional _ => none
  | .flag group => some group

section Assignment

variable {cmd : Command}

/-- The groups are those of the assignment, the positional values in the order of positions. -/
structure Assignment.IsOrder (assignment : Assignment cmd) (order : List Group) : Prop where
  positionals : order.filterMap Group.positional? = assignment.positionals
  flags : (order.filterMap Group.flag?).Perm assignment.flags

/-- The bindings of positional values from a position on. -/
def positionalEntries (cmd : Command) (positionalArgCount : Nat) (values : List String) :
    List (String × ArgValue) :=
  (values.zipIdx positionalArgCount).filterMap fun entry =>
    (cmd.optionForPosition entry.2).map fun op => (op.optionName, .string entry.1)

/-- The bindings of the assignment. -/
def Assignment.entries (assignment : Assignment cmd) : List (String × ArgValue) :=
  positionalEntries cmd 0 assignment.positionals ++
    assignment.flags.map fun group => (group.option.optionName, group.argValue)

/-! ## The tokens of a flag -/

theorem mem_flaggedOptions_iff {op : CommandOption} :
    op ∈ cmd.flaggedOptions ↔ op ∈ cmd.options ∧ op.positional = false := by
  simp [Command.flaggedOptions]

/-- A flag of a flagged option is no flag of any other option of the table. -/
theorem WellFormed.eq_of_mem_flagsOf (hcmd : WellFormed cmd) {op other : CommandOption}
    (hop : op ∈ cmd.flaggedOptions) (hother : other ∈ cmd.options) {flag : String}
    (hflag : flag ∈ flagsOf op) (hflag' : flag ∈ flagsOf other) : other = op := by
  cases hpos : other.positional with
  | true =>
    obtain ⟨hshort, hlong⟩ := other.flags_eq_empty hpos
    obtain rfl : flag = "" := by simpa [flagsOf, hshort, hlong] using hflag'
    exact absurd hflag (hcmd.nonempty op hop)
  | false =>
    by_contra hne
    have hflagged := mem_flaggedOptions_iff.mpr ⟨hother, hpos⟩
    exact hcmd.flags.forall hop hflagged (Ne.symm hne) flag hflag hflag'

/-- The token of a rendered flag is recognised as its option. -/
theorem FlagGroup.Renders.optionForFlag (hcmd : WellFormed cmd) {group : FlagGroup}
    (h : group.Renders cmd) : cmd.optionForFlag group.token = some group.option := by
  have htoken : group.option.shortFlag = group.token ∨ group.option.longFlag = group.token := by
    simpa [flagsOf, eq_comm] using h.token
  rcases h.option with hop | ⟨hhelp, hfree⟩
  · apply Command.optionForFlag_of_unique (mem_flaggedOptions_iff.mp hop).1 htoken
    intro other hother hflag
    exact hcmd.eq_of_mem_flagsOf hop hother h.token (by simpa [flagsOf, eq_comm] using hflag)
  · have hmem : group.token ∈ flagsOf Command.helpCommand := hhelp ▸ h.token
    have hflag : group.token = helpShortFlag ∨ group.token = helpLongFlag := by
      simpa [flagsOf, Command.helpCommand, CommandOption.asBooleanOption,
        CommandOption.withShortFlag] using hmem
    rw [hhelp]
    refine Command.optionForFlag_help hflag fun op hop => ?_
    simpa [flagsOf, eq_comm] using hfree op hop

/-! ## The groups of the tokens -/

/-- The groups that the tokens of an ordered rendering form. -/
def groupsOf (cmd : Command) : Nat → List Group → List ArgGroup
  | _, [] => []
  | positionalArgCount, .positional value :: order =>
      .positional value (cmd.optionForPosition positionalArgCount) ::
        groupsOf cmd (positionalArgCount + 1) order
  | positionalArgCount, .flag group :: order =>
      .flag group.option group.argValue :: groupsOf cmd positionalArgCount order

/-- The tokens of an ordered rendering form its groups, whatever the values look like. -/
theorem argGroups_render (hcmd : WellFormed cmd)
    (hname : cmd.name ≠ "is-installed" ∧ cmd.name ≠ "app-info") {order : List Group}
    (hpositional : ∀ value ∈ order.filterMap Group.positional?, cmd.optionForFlag value = none)
    (hflag : ∀ group ∈ order.filterMap Group.flag?, group.Renders cmd)
    (positionalArgCount : Nat) :
    argGroups cmd positionalArgCount (order.flatMap Group.render) =
      groupsOf cmd positionalArgCount order := by
  -- on the order, in which the positional values are counted
  induction order generalizing positionalArgCount with
  | nil => rfl
  | cons group order ih =>
    cases group with
    | positional value =>
      have hvalue : cmd.optionForFlag value = none :=
        hpositional value (by simp [Group.positional?])
      have hrest := ih (fun v hv => hpositional v (by simp [Group.positional?, hv])) hflag
      simp [Group.render, argGroups, groupsOf, hvalue, positionalOption, hname, hrest]
    | flag group =>
      have hrenders : group.Renders cmd := hflag group (by simp [Group.flag?])
      have hrest := ih hpositional fun g hg => hflag g (by simp [Group.flag?, hg])
      have hoption := hrenders.optionForFlag hcmd
      obtain ⟨token, op, value⟩ := group
      cases value with
      | none =>
        have hreq : op.requiresArgument = false := by simpa using hrenders.value.symm
        simp [Group.render, FlagGroup.render, argGroups, groupsOf, hoption, hreq, hrest,
          FlagGroup.argValue]
      | some value =>
        have hreq : op.requiresArgument = true := by simpa using hrenders.value.symm
        simp [Group.render, FlagGroup.render, argGroups, groupsOf, hoption, hreq, hrest,
          FlagGroup.argValue]

/-- The groups bind what the positional values and the flags bind, up to the order. -/
theorem bindings_groupsOf_perm (order : List Group) (positionalArgCount : Nat) :
    ((groupsOf cmd positionalArgCount order).filterMap ArgGroup.binding).Perm
      (positionalEntries cmd positionalArgCount (order.filterMap Group.positional?) ++
        (order.filterMap Group.flag?).map fun group =>
          (group.option.optionName, group.argValue)) := by
  induction order generalizing positionalArgCount with
  | nil => exact .refl _
  | cons group order ih =>
    cases group with
    | positional value =>
      have hrest := ih (positionalArgCount + 1)
      rw [List.filterMap_cons_some (f := Group.positional?) rfl,
        List.filterMap_cons_none (f := Group.flag?) rfl]
      cases hop : cmd.optionForPosition positionalArgCount with
      | none =>
        simpa [groupsOf, List.filterMap_cons, ArgGroup.binding, positionalEntries, hop] using hrest
      | some op => simpa [groupsOf, ArgGroup.binding, positionalEntries, hop] using hrest
    | flag group =>
      have hrest := ih positionalArgCount
      rw [List.filterMap_cons_none (f := Group.positional?) rfl,
        List.filterMap_cons_some (f := Group.flag?) rfl]
      exact (hrest.cons _).trans List.perm_middle.symm

/-! ## Distinct names -/

/-- The options of an assignment. -/
def Assignment.options (assignment : Assignment cmd) : List CommandOption :=
  positionalOptionsOf cmd assignment.positionals ++ assignment.flags.map FlagGroup.option

theorem map_fst_entries (assignment : Assignment cmd) :
    assignment.entries.map Prod.fst = assignment.options.map fun op => op.optionName := by
  simp [Assignment.entries, Assignment.options, positionalEntries, positionalOptionsOf,
    List.map_filterMap, Function.comp_def]

/-- Positional values go to positional options of the table. -/
theorem mem_positionalOptionsOf {values : List String} {op : CommandOption}
    (h : op ∈ positionalOptionsOf cmd values) : op ∈ cmd.options ∧ op.positional = true := by
  obtain ⟨entry, -, hop⟩ := List.mem_filterMap.mp h
  obtain ⟨hmem, hpos, -⟩ := Command.optionForPosition_eq_some hop
  exact ⟨hmem, hpos⟩

/-- Values at different positions go to different options. -/
theorem nodup_positionalOptionsOf (values : List String) :
    (positionalOptionsOf cmd values).Nodup := by
  have heq : positionalOptionsOf cmd values =
      (List.range' 0 values.length).filterMap cmd.optionForPosition := by
    rw [← List.zipIdx_map_snd 0 values, List.filterMap_map]
    rfl
  rw [heq]
  refine List.Nodup.filterMap (fun i j op hi hj => ?_) List.nodup_range'
  exact (Command.optionForPosition_eq_some hi).2.2.symm.trans
    (Command.optionForPosition_eq_some hj).2.2

/-- Flags go to flagged options of the table, or to the help option. -/
theorem Assignment.flag_option (assignment : Assignment cmd) {op : CommandOption}
    (h : op ∈ assignment.flags.map FlagGroup.option) :
    op.positional = false ∧ (op ∈ cmd.options ∨ op = Command.helpCommand) := by
  obtain ⟨group, hgroup, rfl⟩ := List.mem_map.mp h
  rcases (assignment.flags_render group hgroup).option with hop | ⟨hhelp, -⟩
  · exact ⟨(mem_flaggedOptions_iff.mp hop).2, .inl (mem_flaggedOptions_iff.mp hop).1⟩
  · exact ⟨hhelp ▸ rfl, .inr hhelp⟩

/-- No option is assigned twice. -/
theorem Assignment.nodup_options (assignment : Assignment cmd) : assignment.options.Nodup := by
  refine List.nodup_append.mpr
    ⟨nodup_positionalOptionsOf assignment.positionals, assignment.flags_nodup, ?_⟩
  rintro op hop other hother rfl
  have hpos := (mem_positionalOptionsOf hop).2
  rw [(assignment.flag_option hother).1] at hpos
  cases hpos

/-- The names of the assigned options are distinct. -/
theorem Assignment.nodup_names (hcmd : WellFormed cmd) (assignment : Assignment cmd) :
    (assignment.entries.map Prod.fst).Nodup := by
  rw [map_fst_entries]
  have horigin : ∀ op ∈ assignment.options, op ∈ cmd.options ∨
      op = Command.helpCommand ∧ Command.helpCommand ∈ assignment.flags.map FlagGroup.option := by
    intro op hop
    rcases List.mem_append.mp hop with hop | hop
    · exact .inl (mem_positionalOptionsOf hop).1
    · rcases (assignment.flag_option hop).2 with hmem | rfl
      · exact .inl hmem
      · exact .inr ⟨rfl, hop⟩
  refine List.Nodup.map_on (fun op hop other hother heq => ?_) assignment.nodup_options
  -- the table keeps its own names apart, and the help option is assigned alone under its name
  rcases horigin op hop with hopMem | ⟨rfl, hhelp⟩
  · rcases horigin other hother with hotherMem | ⟨rfl, hhelp⟩
    · exact List.inj_on_of_nodup_map hcmd.names hopMem hotherMem heq
    · exact assignment.help_name hhelp op hop heq
  · exact (assignment.help_name hhelp other hother heq.symm).symm

/-! ## The round trip -/

/-- Bindings of distinct names can be looked up in the dictionary they were bound in. -/
theorem objectForKey_setBindings {bindings : List (String × ArgValue)}
    (hnd : (bindings.map Prod.fst).Nodup) (values : NSDictionary ArgValue) (key : String) :
    (setBindings values bindings).objectForKey key =
      (bindings.lookup key).or (values.objectForKey key) := by
  induction bindings generalizing values with
  | nil => rfl
  | cons entry bindings ih =>
    obtain ⟨hnotin, hrest⟩ := List.nodup_cons.mp hnd
    have hcons : setBindings values (entry :: bindings) =
        setBindings (values.setObject entry.1 entry.2) bindings := rfl
    rw [hcons, ih hrest, NSDictionary.lookup_cons_eq_ite]
    by_cases h : key = entry.1
    · have hnone : bindings.lookup key = none :=
        (NSDictionary.lookup_eq_none_iff_notMem bindings key).mpr (h ▸ hnotin)
      subst h
      simp [hnone]
    · simp [h, values.objectForKey_setObject_of_ne h]

/-- The groups of an order address the options of the assignment. -/
theorem addressed_groupsOf {order : List Group} {positionalArgCount : Nat}
    (hsome : ∀ index < positionalArgCount + (order.filterMap Group.positional?).length,
      (cmd.optionForPosition index).isSome) :
    addressed (groupsOf cmd positionalArgCount order) =
        ((groupsOf cmd positionalArgCount order).filterMap ArgGroup.binding).map Prod.fst ∧
      ∀ group ∈ groupsOf cmd positionalArgCount order, group.option.isSome ∧
        ∀ arg op, group ≠ .missingValue arg op := by
  induction order generalizing positionalArgCount with
  | nil => simp [groupsOf, addressed]
  | cons group order ih =>
    cases group with
    | positional value =>
      rw [List.filterMap_cons_some (f := Group.positional?) rfl, List.length_cons] at hsome
      obtain ⟨op, hop⟩ := Option.isSome_iff_exists.mp (hsome positionalArgCount (by omega))
      have hrest : ∀ index < positionalArgCount + 1 + (order.filterMap Group.positional?).length,
          (cmd.optionForPosition index).isSome := fun index hindex => hsome index (by omega)
      obtain ⟨haddressed, hgroups⟩ := ih hrest
      refine ⟨?_, ?_⟩
      · simpa [groupsOf, addressed, hop, ArgGroup.optionName, ArgGroup.option, ArgGroup.binding]
          using haddressed
      · simpa [groupsOf, hop, ArgGroup.option] using hgroups
    | flag group =>
      rw [List.filterMap_cons_none (f := Group.positional?) rfl] at hsome
      obtain ⟨haddressed, hgroups⟩ := ih hsome
      refine ⟨?_, ?_⟩
      · simpa [groupsOf, addressed, ArgGroup.optionName, ArgGroup.option, ArgGroup.binding]
          using haddressed
      · simpa [groupsOf, ArgGroup.option] using hgroups

/-- Groups with distinct names, each with its option and its value, pass the checks of the loop. -/
theorem atEvery_fits {groups : List ArgGroup} (hnd : (addressed groups).Nodup)
    (hgroups : ∀ group ∈ groups, group.option.isSome ∧
      ∀ arg op, group ≠ .missingValue arg op) :
    AtEvery (fun before group => group.Fits (addressed before)) groups := by
  have hfresh := (nodup_filterMap_iff ArgGroup.optionName groups).mp hnd
  intro before group after hsplit
  obtain ⟨hsome, hvalue⟩ := hgroups group (by simp [hsplit])
  cases group with
  | positional arg option => exact hsome
  | flag op value => exact hfresh before _ after hsplit op.optionName rfl
  | missingValue arg op => exact hvalue arg op rfl

/-- **Parsing undoes rendering.** For every command other than `is-installed` and `app-info` and
every assignment of values, the tokens of the assignment in any order that keeps the positional
values in theirs are accepted, and the dictionary holds exactly the bindings of the assignment; so
it is the same dictionary in every such order. -/
theorem parseArgs_of_order (hcmd : WellFormed cmd)
    (hname : cmd.name ≠ "is-installed" ∧ cmd.name ≠ "app-info") (assignment : Assignment cmd)
    (order : List Group) (horder : assignment.IsOrder order) :
    (parseArgs cmd (order.flatMap Group.render)).exitCode = .everythingOkay ∧
      ∃ values, (parseArgs cmd (order.flatMap Group.render)).values = some values ∧
        ∀ key value, values.objectForKey key = some value ↔
          (key, value) ∈ assignment.entries := by
  have hgroups : argGroups cmd 0 (order.flatMap Group.render) = groupsOf cmd 0 order := by
    refine argGroups_render hcmd hname (fun value hvalue => ?_) (fun group hgroup => ?_) 0
    · exact assignment.positionals_unrecognized value (horder.positionals ▸ hvalue)
    · exact assignment.flags_render group (horder.flags.mem_iff.mp hgroup)
  -- whatever the order, the bindings are those of the assignment
  have hperm : ((groupsOf cmd 0 order).filterMap ArgGroup.binding).Perm assignment.entries := by
    apply (bindings_groupsOf_perm order 0).trans
    rw [horder.positionals]
    exact (horder.flags.map _).append_left _
  have hnames : (((groupsOf cmd 0 order).filterMap ArgGroup.binding).map Prod.fst).Nodup :=
    (hperm.map Prod.fst).nodup_iff.mpr (assignment.nodup_names hcmd)
  have hpositions : ∀ index < 0 + (order.filterMap Group.positional?).length,
      (cmd.optionForPosition index).isSome := by
    intro index hindex
    rw [Nat.zero_add, horder.positionals] at hindex
    exact assignment.positionals_option index hindex
  obtain ⟨haddressed, hsupported⟩ := addressed_groupsOf hpositions
  have hokay : (parseArgs cmd (order.flatMap Group.render)).exitCode = .everythingOkay := by
    rw [parseArgs_exitCode_iff, hgroups]
    exact atEvery_fits (haddressed ▸ hnames) hsupported
  refine ⟨hokay, _, parseArgs_values hokay, fun key value => ?_⟩
  rw [hgroups, objectForKey_setBindings hnames, NSDictionary.objectForKey_empty, Option.or_none,
    NSDictionary.lookup_eq_some_iff_mem hnames]
  exact hperm.mem_iff

end Assignment

/-! ### The commands of the program -/

instance (cmd : Command) : Decidable (WellFormed cmd) :=
  decidable_of_iff ((cmd.options.map fun op => op.optionName).Nodup ∧
      cmd.flaggedOptions.Pairwise DistinctFlags ∧ ∀ op ∈ cmd.flaggedOptions, "" ∉ flagsOf op)
    ⟨fun h => ⟨h.1, h.2.1, h.2.2⟩, fun h => ⟨h.names, h.flags, h.nonempty⟩⟩

/-- The tables of the program meet the assumptions on tables. -/
theorem wellFormed_of_mem_commandClasses : ∀ cmd ∈ Commands.commandClasses, WellFormed cmd := by
  decide +kernel

/-- An assignment for `upload`: two positional values, a device whose identifier looks like a flag,
and a request for help. -/
def uploadAssignment : Assignment Commands.uploadFileCommand where
  positionals := ["/tmp/data.txt", "com.my.client"]
  flags := [⟨"-d", .withShortFlag deviceIDFlag "--device-id" deviceIDOptionName
      "iOS Simulator GUID, physical device ID, or an alias" true none, some "--overwrite"⟩,
    ⟨"--help", Command.helpCommand, none⟩]
  positionals_option := by decide +kernel
  positionals_unrecognized := by decide +kernel
  flags_render := by
    simp only [List.forall_mem_cons]
    exact ⟨⟨.inl (by decide +kernel), by decide +kernel, by decide +kernel⟩,
      ⟨.inr ⟨rfl, by decide +kernel⟩, by decide +kernel, by decide +kernel⟩, by simp⟩
  flags_nodup := by decide +kernel
  help_name := by decide +kernel

/-- One order of its tokens. -/
def uploadOrder : List Group :=
  [.flag ⟨"--help", Command.helpCommand, none⟩, .positional "/tmp/data.txt",
    .flag ⟨"-d", .withShortFlag deviceIDFlag "--device-id" deviceIDOptionName
      "iOS Simulator GUID, physical device ID, or an alias" true none, some "--overwrite"⟩,
    .positional "com.my.client"]

/-- The tokens `--help /tmp/data.txt -d --overwrite com.my.client` are accepted. -/
theorem parseArgs_of_order_upload :
    (parseArgs Commands.uploadFileCommand (uploadOrder.flatMap Group.render)).exitCode =
      .everythingOkay := by
  have horder : uploadAssignment.IsOrder uploadOrder :=
    ⟨rfl, List.Perm.swap _ _ _⟩
  have hcmd := wellFormed_of_mem_commandClasses Commands.uploadFileCommand (by decide +kernel)
  exact (parseArgs_of_order hcmd (by decide +kernel) uploadAssignment uploadOrder horder).1

end CLI

end IOSDeviceManager
