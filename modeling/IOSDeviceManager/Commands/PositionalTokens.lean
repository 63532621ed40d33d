import IOSDeviceManager.Commands.ArgumentOrder
import IOSDeviceManager.Commands.Process

/-! # Positional values

A positional option has the empty string for its two flags, and the lookup by flag scans it like any
other. So the empty string is the flag of the first positional option: it takes the token after it
for its value, and is a value itself nowhere. -/

namespace IOSDeviceManager

open General

/-- The option that a token is a flag of: a flagged option, or the help option. -/
def Command.flaggedOptionForFlag (cmd : Command) (flag : String) : Option CommandOption :=
  match cmd.flaggedOptions.find? fun op => op.shortFlag == flag || op.longFlag == flag with
  | some op => some op
  | none =>
      if flag = helpShortFlag ∨ flag = helpLongFlag then some Command.helpCommand else none

namespace CLI

/-- The tokens that are no flag of a flagged option, no help flag, and not the value of a flag. -/
def positionalTokens (cmd : Command) : List String → List String
  | [] => []
  | token :: rest =>
      match cmd.flaggedOptionForFlag token with
      | none => token :: positionalTokens cmd rest
      | some op =>
          if op.requiresArgument then
            match rest with
            | [] => []
            | _ :: rest => positionalTokens cmd rest
          else positionalTokens cmd rest

/-- The values of the positional options are the positional tokens, each that of the option at its
position. -/
structure BindsPositionals (cmd : Command) (args : List String) (values : NSDictionary ArgValue) :
    Prop where
  /-- Every positional token is the value of the option at its position. -/
  bound : ∀ index token, (positionalTokens cmd args)[index]? = some token →
    ∃ op, cmd.optionForPosition index = some op ∧
      values.objectForKey op.optionName = some (.string token)
  /-- A positional option has no other value. -/
  only : ∀ op ∈ cmd.positionalOptions, ∀ value, values.objectForKey op.optionName = some value →
    ∃ index token, cmd.optionForPosition index = some op ∧
      (positionalTokens cmd args)[index]? = some token ∧ value = .string token

variable {cmd : Command}

/-! ## The two lookups -/

theorem mem_positionalOptions_iff {op : CommandOption} :
    op ∈ cmd.positionalOptions ↔ op ∈ cmd.options ∧ op.positional = true := by
  simp [Command.positionalOptions]

/-- Whether a token is a flag of an option. -/
abbrev hasFlag (flag : String) (op : CommandOption) : Bool :=
  op.shortFlag == flag || op.longFlag == flag

/-- A positional option has the empty flag only. -/
theorem hasFlag_of_positional {op : CommandOption} (hop : op.positional = true) (flag : String) :
    hasFlag flag op = (flag == "") := by
  obtain ⟨hshort, hlong⟩ := op.flags_eq_empty hop
  simp only [hasFlag, hshort, hlong, Bool.or_self]
  exact Bool.beq_comm

/-- The help option, for a help flag. -/
abbrev helpOptionForFlag (flag : String) : Option CommandOption :=
  if flag = helpShortFlag ∨ flag = helpLongFlag then some Command.helpCommand else none

theorem optionForFlag_eq_or (flag : String) :
    cmd.optionForFlag flag = (cmd.options.find? (hasFlag flag)).or (helpOptionForFlag flag) := by
  unfold Command.optionForFlag
  cases cmd.options.find? (hasFlag flag) <;> rfl

theorem flaggedOptionForFlag_eq_or (flag : String) :
    cmd.flaggedOptionForFlag flag =
      (cmd.flaggedOptions.find? (hasFlag flag)).or (helpOptionForFlag flag) := by
  unfold Command.flaggedOptionForFlag
  cases cmd.flaggedOptions.find? (hasFlag flag) <;> rfl

/-- For a token that is not empty the positional options do not matter. -/
theorem optionForFlag_of_ne_empty {flag : String} (hflag : flag ≠ "") :
    cmd.optionForFlag flag = cmd.flaggedOptionForFlag flag := by
  rw [optionForFlag_eq_or, flaggedOptionForFlag_eq_or, Command.flaggedOptions, List.find?_filter]
  congr 2
  funext op
  cases hop : op.positional with
  | false => simp only [Bool.not_false, true_and, Bool.decide_eq_true]
  | true => simp [hasFlag_of_positional hop, hflag]

/-- The empty string is no flag of a flagged option. -/
theorem hasFlag_empty (hcmd : WellFormed cmd) {op : CommandOption} (hop : op ∈ cmd.options) :
    hasFlag "" op = op.positional := by
  cases hpos : op.positional with
  | true => simpa using hasFlag_of_positional hpos ""
  | false =>
    have hnonempty := hcmd.nonempty op (mem_flaggedOptions_iff.mpr ⟨hop, hpos⟩)
    simp only [flagsOf, List.mem_cons, List.not_mem_nil, or_false, not_or] at hnonempty
    simp [hasFlag, Ne.symm hnonempty.1, Ne.symm hnonempty.2]

theorem flaggedOptionForFlag_empty (hcmd : WellFormed cmd) :
    cmd.flaggedOptionForFlag "" = none := by
  have hfind : cmd.flaggedOptions.find? (hasFlag "") = none := by
    refine List.find?_eq_none.mpr fun op hop => ?_
    obtain ⟨hmem, hpos⟩ := mem_flaggedOptions_iff.mp hop
    simp [hasFlag_empty hcmd hmem, hpos]
  rw [flaggedOptionForFlag_eq_or, hfind]
  rfl

/-- The empty string is the flag of the first positional option. -/
theorem optionForFlag_empty (hcmd : WellFormed cmd) :
    cmd.optionForFlag "" = cmd.positionalOptions.head? := by
  rw [optionForFlag_eq_or, Command.positionalOptions, List.head?_filter,
    List.find?_congr fun op hop => hasFlag_empty hcmd hop]
  exact Option.or_none

/-- The lookup of flagged options finds no positional option. -/
theorem positional_of_flaggedOptionForFlag {flag : String} {op : CommandOption}
    (h : cmd.flaggedOptionForFlag flag = some op) : op.positional = false := by
  rw [flaggedOptionForFlag_eq_or, Option.or_eq_some_iff] at h
  rcases h with hfind | ⟨-, hhelp⟩
  · exact (mem_flaggedOptions_iff.mp (List.mem_of_find?_eq_some hfind)).2
  · obtain ⟨-, hop⟩ := Option.ite_none_right_eq_some.mp hhelp
    rw [← Option.some.inj hop]
    rfl

/-- Only the empty string finds a positional option. -/
theorem eq_empty_of_optionForFlag {flag : String} {op : CommandOption}
    (h : cmd.optionForFlag flag = some op) (hop : op.positional = true) : flag = "" := by
  rcases Command.optionForFlag_eq_some h with ⟨-, hflag⟩ | ⟨rfl, -⟩
  · simpa [hasFlag, hasFlag_of_positional hop] using
      (by simpa [hasFlag] using hflag : hasFlag flag op = true)
  · cases hop

/-! ## The groups of the tokens -/

/-- The positional value of a group, with the option it is for. -/
def ArgGroup.positional? : ArgGroup → Option (String × Option CommandOption)
  | .positional token option => some (token, option)
  | .flag _ _ => none
  | .missingValue _ _ => none

theorem positional?_eq_some {group : ArgGroup} {token : String} {option : Option CommandOption} :
    group.positional? = some (token, option) ↔ group = .positional token option := by
  cases group <;> simp [ArgGroup.positional?]

/-- The command takes its positional values by position. -/
abbrev ByPosition (cmd : Command) : Prop :=
  cmd.name ≠ "is-installed" ∧ cmd.name ≠ "app-info"

/-- A token that is no flag is positional. -/
theorem positionalTokens_cons_none {token : String} (h : cmd.flaggedOptionForFlag token = none)
    (rest : List String) :
    positionalTokens cmd (token :: rest) = token :: positionalTokens cmd rest := by
  cases rest <;> simp [positionalTokens, h]

/-- A flag is left out, with its value if it takes one. -/
theorem positionalTokens_cons_some {token : String} {op : CommandOption}
    (h : cmd.flaggedOptionForFlag token = some op) (rest : List String) :
    positionalTokens cmd (token :: rest) =
      positionalTokens cmd (if op.requiresArgument then rest.tail else rest) := by
  cases rest <;> cases hreq : op.requiresArgument <;> simp [positionalTokens, h, hreq]

/-- At the head of the tokens the empty string is positional. -/
theorem positionalTokens_empty_cons (hcmd : WellFormed cmd) (rest : List String) :
    positionalTokens cmd ("" :: rest) = "" :: positionalTokens cmd rest :=
  positionalTokens_cons_none (flaggedOptionForFlag_empty hcmd) rest

/-- Where no positional token is empty, the lookup of the first token is that of flagged options. -/
theorem optionForFlag_of_notMem (hcmd : WellFormed cmd) {token : String} {rest : List String}
    (hne : "" ∉ positionalTokens cmd (token :: rest)) :
    cmd.optionForFlag token = cmd.flaggedOptionForFlag token := by
  refine optionForFlag_of_ne_empty fun hempty => hne ?_
  rw [hempty, positionalTokens_empty_cons hcmd]
  exact List.mem_cons_self

/-- As long as no positional token is empty, the positional groups are the positional tokens. -/
theorem filterMap_positional_argGroups (hcmd : WellFormed cmd) (hname : ByPosition cmd)
    (positionalArgCount : Nat) {args : List String} (hne : "" ∉ positionalTokens cmd args) :
    (argGroups cmd positionalArgCount args).filterMap ArgGroup.positional? =
      ((positionalTokens cmd args).zipIdx positionalArgCount).map
        fun entry => (entry.1, cmd.optionForPosition entry.2) := by
  induction positionalArgCount, args using argGroups.induct cmd with
  | case1 => rfl
  | case2 n token rest hnone ih =>
    have hflagged := (optionForFlag_of_notMem hcmd hne).symm.trans hnone
    rw [positionalTokens_cons_none hflagged, List.mem_cons, not_or] at hne
    rw [positionalTokens_cons_none hflagged]
    simp [argGroups, hnone, ArgGroup.positional?, positionalOption, hname, ih hne.2]
  | case3 n token op hop hreq =>
    have hflagged := (optionForFlag_of_notMem hcmd hne).symm.trans hop
    rw [positionalTokens_cons_some hflagged]
    simp [argGroups, positionalTokens, hop, hreq, ArgGroup.positional?]
  | case4 n token op hop hreq value rest ih =>
    have hflagged := (optionForFlag_of_notMem hcmd hne).symm.trans hop
    rw [positionalTokens_cons_some hflagged, if_pos hreq, List.tail_cons] at hne ⊢
    simp [argGroups, hop, hreq, List.filterMap_cons, ArgGroup.positional?, ih hne]
  | case5 n token rest op hop hreq ih =>
    have hflagged := (optionForFlag_of_notMem hcmd hne).symm.trans hop
    rw [positionalTokens_cons_some hflagged, if_neg hreq] at hne ⊢
    simp [argGroups, hop, hreq, List.filterMap_cons, ArgGroup.positional?, ih hne]

/-- As long as no positional token is empty, no flag is for a positional option. -/
theorem positional_of_flag_mem (hcmd : WellFormed cmd) {positionalArgCount : Nat}
    {args : List String} (hne : "" ∉ positionalTokens cmd args) {op : CommandOption}
    {value : ArgValue} (hgroup : .flag op value ∈ argGroups cmd positionalArgCount args) :
    op.positional = false := by
  induction positionalArgCount, args using argGroups.induct cmd with
  | case1 => simp [argGroups] at hgroup
  | case2 n token rest hnone ih =>
    have hflagged := (optionForFlag_of_notMem hcmd hne).symm.trans hnone
    rw [positionalTokens_cons_none hflagged, List.mem_cons, not_or] at hne
    exact ih hne.2 (by simpa [argGroups, hnone] using hgroup)
  | case3 n token found hfound hreq => simp [argGroups, hfound, hreq] at hgroup
  | case4 n token found hfound hreq v rest ih =>
    have hflagged := (optionForFlag_of_notMem hcmd hne).symm.trans hfound
    rw [positionalTokens_cons_some hflagged, if_pos hreq, List.tail_cons] at hne
    simp only [argGroups, hfound, hreq, if_true, List.mem_cons, ArgGroup.flag.injEq] at hgroup
    rcases hgroup with ⟨rfl, -⟩ | hgroup
    · exact positional_of_flaggedOptionForFlag hflagged
    · exact ih hne hgroup
  | case5 n token rest found hfound hreq ih =>
    have hflagged := (optionForFlag_of_notMem hcmd hne).symm.trans hfound
    rw [positionalTokens_cons_some hflagged, if_neg hreq] at hne
    simp only [argGroups, hfound, hreq, Bool.false_eq_true, if_false, List.mem_cons,
      ArgGroup.flag.injEq] at hgroup
    rcases hgroup with ⟨rfl, -⟩ | hgroup
    · exact positional_of_flaggedOptionForFlag hflagged
    · exact ih hne hgroup

/-- A flag that is for a positional option is the empty string, and so for the first of them. -/
theorem head?_of_flag_mem (hcmd : WellFormed cmd) {positionalArgCount : Nat} {args : List String}
    {op : CommandOption} (hop : op.positional = true) {value : ArgValue}
    (hgroup : .flag op value ∈ argGroups cmd positionalArgCount args) :
    cmd.positionalOptions.head? = some op := by
  have hflag : ∀ {token}, cmd.optionForFlag token = some op →
      cmd.positionalOptions.head? = some op := by
    intro token h
    rw [← optionForFlag_empty hcmd, ← eq_empty_of_optionForFlag h hop, h]
  induction positionalArgCount, args using argGroups.induct cmd with
  | case1 => simp [argGroups] at hgroup
  | case2 n token rest hnone ih => exact ih (by simpa [argGroups, hnone] using hgroup)
  | case3 n token found hfound hreq => simp [argGroups, hfound, hreq] at hgroup
  | case4 n token found hfound hreq v rest ih =>
    simp only [argGroups, hfound, hreq, if_true, List.mem_cons, ArgGroup.flag.injEq] at hgroup
    rcases hgroup with ⟨rfl, -⟩ | hgroup
    · exact hflag hfound
    · exact ih hgroup
  | case5 n token rest found hfound hreq ih =>
    simp only [argGroups, hfound, hreq, Bool.false_eq_true, if_false, List.mem_cons,
      ArgGroup.flag.injEq] at hgroup
    rcases hgroup with ⟨rfl, -⟩ | hgroup
    · exact hflag hfound
    · exact ih hgroup

/-- A positional value is no flag. -/
theorem optionForFlag_of_positional_mem {positionalArgCount : Nat} {args : List String}
    {token : String} {option : Option CommandOption}
    (hgroup : .positional token option ∈ argGroups cmd positionalArgCount args) :
    cmd.optionForFlag token = none := by
  induction positionalArgCount, args using argGroups.induct cmd with
  | case1 => simp [argGroups] at hgroup
  | case2 n arg rest hnone ih =>
    simp only [argGroups, hnone, List.mem_cons, ArgGroup.positional.injEq] at hgroup
    rcases hgroup with ⟨rfl, -⟩ | hgroup
    · exact hnone
    · exact ih hgroup
  | case3 n arg op hop hreq => simp [argGroups, hop, hreq] at hgroup
  | case4 n arg op hop hreq value rest ih =>
    exact ih (by simpa [argGroups, hop, hreq] using hgroup)
  | case5 n arg rest op hop hreq ih => exact ih (by simpa [argGroups, hop, hreq] using hgroup)

/-- An empty positional token is taken for the flag of a positional option, and if the token after
it is empty as well, both are positional. -/
theorem exists_flag_of_mem (hcmd : WellFormed cmd) (hname : ByPosition cmd)
    {positionalArgCount : Nat} {args : List String}
    (hvalid : ∀ group ∈ argGroups cmd positionalArgCount args, group.option.isSome ∧
      ∀ token op, group ≠ .missingValue token op)
    (hmem : "" ∈ positionalTokens cmd args) :
    ∃ op value, .flag op value ∈ argGroups cmd positionalArgCount args ∧ op.positional = true ∧
      (value = .string "" → ∃ index, (positionalTokens cmd args)[index]? = some "" ∧
        (positionalTokens cmd args)[index + 1]? = some "") := by
  induction positionalArgCount, args using argGroups.induct cmd with
  | case1 => simp [positionalTokens] at hmem
  | case2 n token rest hnone ih =>
    have hgroups : argGroups cmd n (token :: rest) =
        .positional token (cmd.optionForPosition n) :: argGroups cmd (n + 1) rest := by
      simp [argGroups, hnone, positionalOption, hname]
    rw [hgroups] at hvalid ⊢
    obtain ⟨hhead, hrest⟩ := List.forall_mem_cons.mp hvalid
    have hne : token ≠ "" := by
      -- a command with an option at this position takes the empty string for a flag
      rintro rfl
      obtain ⟨op, hop⟩ := Option.isSome_iff_exists.mp hhead.1
      obtain ⟨hop, hpos, -⟩ := Command.optionForPosition_eq_some hop
      rw [optionForFlag_empty hcmd, List.head?_eq_none_iff] at hnone
      exact List.not_mem_nil (hnone ▸ mem_positionalOptions_iff.mpr ⟨hop, hpos⟩)
    have hflagged := (optionForFlag_of_ne_empty hne).symm.trans hnone
    rw [positionalTokens_cons_none hflagged] at hmem ⊢
    obtain ⟨op, value, hgroup, hpos, htwice⟩ :=
      ih hrest ((List.mem_cons.mp hmem).resolve_left hne.symm)
    refine ⟨op, value, List.mem_cons_of_mem _ hgroup, hpos, fun hvalue => ?_⟩
    obtain ⟨index, hfirst, hsecond⟩ := htwice hvalue
    exact ⟨index + 1, hfirst, hsecond⟩
  | case3 n token op hop hreq =>
    have hgroup : .missingValue token op ∈ argGroups cmd n [token] := by
      simp [argGroups, hop, hreq]
    exact absurd rfl ((hvalid _ hgroup).2 token op)
  | case4 n token op hop hreq value rest ih =>
    have hgroups : argGroups cmd n (token :: value :: rest) =
        .flag op (.string value) :: argGroups cmd n rest := by
      simp [argGroups, hop, hreq]
    rw [hgroups] at hvalid ⊢
    by_cases hne : token = ""
    · subst hne
      rw [optionForFlag_empty hcmd] at hop
      have hpos := (mem_positionalOptions_iff.mp (List.mem_of_head? hop)).2
      refine ⟨op, .string value, List.mem_cons_self, hpos, fun hvalue => ⟨0, ?_⟩⟩
      obtain rfl : value = "" := ArgValue.string.inj hvalue
      simp [positionalTokens_empty_cons hcmd]
    · have hflagged := (optionForFlag_of_ne_empty hne).symm.trans hop
      rw [positionalTokens_cons_some hflagged, if_pos hreq, List.tail_cons] at hmem ⊢
      obtain ⟨other, v, hgroup, hpos, htwice⟩ := ih (List.forall_mem_cons.mp hvalid).2 hmem
      exact ⟨other, v, List.mem_cons_of_mem _ hgroup, hpos, htwice⟩
  | case5 n token rest op hop hreq ih =>
    have hgroups : argGroups cmd n (token :: rest) =
        .flag op (.bool true) :: argGroups cmd n rest := by
      simp [argGroups, hop, hreq]
    rw [hgroups] at hvalid ⊢
    by_cases hne : token = ""
    · subst hne
      rw [optionForFlag_empty hcmd] at hop
      have hpos := (mem_positionalOptions_iff.mp (List.mem_of_head? hop)).2
      refine ⟨op, .bool true, List.mem_cons_self, hpos, fun hvalue => ?_⟩
      cases hvalue
    · have hflagged := (optionForFlag_of_ne_empty hne).symm.trans hop
      rw [positionalTokens_cons_some hflagged, if_neg hreq] at hmem ⊢
      obtain ⟨other, v, hgroup, hpos, htwice⟩ := ih (List.forall_mem_cons.mp hvalid).2 hmem
      exact ⟨other, v, List.mem_cons_of_mem _ hgroup, hpos, htwice⟩

/-! ## Accepted tokens -/

/-- Accepted groups have an option, and their value. -/
theorem valid_of_atEvery_fits {groups : List ArgGroup}
    (h : AtEvery (fun before group => group.Fits (addressed before)) groups) :
    ∀ group ∈ groups, group.option.isSome ∧ ∀ token op, group ≠ .missingValue token op := by
  intro group hgroup
  obtain ⟨before, after, hsplit⟩ := List.append_of_mem hgroup
  have hfits := h before group after hsplit
  cases group with
  | positional token option => exact ⟨hfits, nofun⟩
  | flag op value => exact ⟨rfl, nofun⟩
  | missingValue token op => exact hfits.elim

/-- An accepted flag comes once. -/
theorem value_unique_of_atEvery_fits {groups : List ArgGroup}
    (h : AtEvery (fun before group => group.Fits (addressed before)) groups) {op : CommandOption}
    {value other : ArgValue} (hvalue : .flag op value ∈ groups) (hother : .flag op other ∈ groups) :
    value = other := by
  have hlater : ∀ {v w before after}, groups = before ++ .flag op v :: after →
      .flag op w ∉ before := by
    intro v w before after hsplit hmem
    refine h before _ after hsplit (List.mem_filterMap.mpr ⟨_, hmem, rfl⟩)
  obtain ⟨before, after, hsplit⟩ := List.append_of_mem hvalue
  rw [hsplit, List.mem_append, List.mem_cons] at hother
  rcases hother with hmem | heq | hmem
  · exact absurd hmem (hlater hsplit)
  · exact (ArgGroup.flag.inj heq).2.symm
  · obtain ⟨middle, last, hmiddle⟩ := List.append_of_mem hmem
    have hsplit' : groups = (before ++ .flag op value :: middle) ++ .flag op other :: last := by
      simp [hsplit, hmiddle]
    exact absurd (by simp) (hlater (v := other) (w := value) hsplit')

/-- What is bound comes from a binding. -/
theorem mem_of_objectForKey_setBindings {bindings : List (String × ArgValue)}
    {values : NSDictionary ArgValue} {name : String} {value : ArgValue}
    (h : (setBindings values bindings).objectForKey name = some value) :
    (name, value) ∈ bindings ∨ values.objectForKey name = some value := by
  induction bindings generalizing values with
  | nil => exact .inr h
  | cons entry bindings ih =>
    rw [setBindings, List.foldl_cons, ← setBindings] at h
    rcases ih h with hmem | hvalue
    · exact .inl (List.mem_cons_of_mem _ hmem)
    · by_cases hname : name = entry.1
      · rw [hname, NSDictionary.objectForKey_setObject_self] at hvalue
        left
        rw [hname, ← Option.some.inj hvalue]
        exact List.mem_cons_self
      · rw [values.objectForKey_setObject_of_ne hname] at hvalue
        exact .inr hvalue

/-- Bindings of other names leave a value alone. -/
theorem objectForKey_setBindings_of_notMem {bindings : List (String × ArgValue)} {name : String}
    (h : name ∉ bindings.map Prod.fst) (values : NSDictionary ArgValue) :
    (setBindings values bindings).objectForKey name = values.objectForKey name := by
  induction bindings generalizing values with
  | nil => rfl
  | cons entry bindings ih =>
    rw [List.map_cons, List.mem_cons, not_or] at h
    rw [setBindings, List.foldl_cons, ← setBindings, ih h.2,
      values.objectForKey_setObject_of_ne h.1]

/-- The last binding of a name counts. -/
theorem objectForKey_setBindings_append {before after : List (String × ArgValue)} {name : String}
    {value : ArgValue} (h : name ∉ after.map Prod.fst) (values : NSDictionary ArgValue) :
    (setBindings values (before ++ (name, value) :: after)).objectForKey name = some value := by
  have happend : setBindings values (before ++ (name, value) :: after) =
      setBindings ((setBindings values before).setObject name value) after := by
    rw [setBindings, List.foldl_append]
    rfl
  rw [happend, objectForKey_setBindings_of_notMem h, NSDictionary.objectForKey_setObject_self]

section Accepted

variable {args : List String} {values : NSDictionary ArgValue}

/-- The value of an option of the table is that of a group for the option. -/
theorem group_of_value (hcmd : WellFormed cmd)
    (hhelp : ∀ op ∈ cmd.options, op.optionName ≠ Command.helpCommand.optionName)
    (hokay : (parseArgs cmd args).exitCode = .everythingOkay)
    (hvalues : (parseArgs cmd args).values = some values) {op : CommandOption}
    (hop : op ∈ cmd.options) {value : ArgValue}
    (hvalue : values.objectForKey op.optionName = some value) :
    ∃ group ∈ argGroups cmd 0 args, group.option = some op ∧
      group.binding = some (op.optionName, value) := by
  obtain rfl := Option.some.inj ((parseArgs_values hokay).symm.trans hvalues)
  have hmem := (mem_of_objectForKey_setBindings hvalue).resolve_right (by simp)
  obtain ⟨group, hgroup, hbinding⟩ := List.mem_filterMap.mp hmem
  obtain ⟨other, hother, hname⟩ := option_of_binding hbinding
  have hsame : other = op := by
    rcases option_of_mem_argGroups hgroup hother with hmem | rfl
    · exact List.inj_on_of_nodup_map hcmd.names hmem hop hname
    · exact absurd hname.symm (hhelp op hop)
  exact ⟨group, hgroup, hsame ▸ hother, hbinding⟩

/-- The value of a positional option is the last positional value for it: as its flag it would have
come before. -/
theorem objectForKey_of_positional (hcmd : WellFormed cmd)
    (hhelp : ∀ op ∈ cmd.options, op.optionName ≠ Command.helpCommand.optionName)
    (hokay : (parseArgs cmd args).exitCode = .everythingOkay)
    (hvalues : (parseArgs cmd args).values = some values) {before after : List ArgGroup}
    {token : String} {op : CommandOption} (hop : op ∈ cmd.options)
    (hsplit : argGroups cmd 0 args = before ++ .positional token (some op) :: after)
    (hlast : ∀ t, .positional t (some op) ∉ after) :
    values.objectForKey op.optionName = some (.string token) := by
  have hfits := (parseArgs_exitCode_iff cmd args).mp hokay
  obtain rfl := Option.some.inj ((parseArgs_values hokay).symm.trans hvalues)
  rw [hsplit, List.filterMap_append, List.filterMap_cons_some (f := ArgGroup.binding) rfl]
  refine objectForKey_setBindings_append (fun hname => ?_) _
  obtain ⟨⟨_, value⟩, hentry, rfl⟩ := List.mem_map.mp hname
  obtain ⟨group, hgroup, hbinding⟩ := List.mem_filterMap.mp hentry
  obtain ⟨other, hother, hsame⟩ := option_of_binding hbinding
  have hmem : group ∈ argGroups cmd 0 args := by
    rw [hsplit]
    exact List.mem_append_right _ (List.mem_cons_of_mem _ hgroup)
  -- a group after it that binds the name is for the same option
  obtain rfl : other = op := by
    rcases option_of_mem_argGroups hmem hother with hmem | rfl
    · exact List.inj_on_of_nodup_map hcmd.names hmem hop hsame
    · exact absurd hsame.symm (hhelp op hop)
  cases group with
  | positional t option =>
    obtain rfl : option = some other := hother
    exact hlast t hgroup
  | flag found v =>
    obtain rfl : found = other := Option.some.inj hother
    obtain ⟨middle, last, rfl⟩ := List.append_of_mem hgroup
    have hfresh := hfits (before ++ .positional token (some found) :: middle) (.flag found v) last
      (by simp [hsplit])
    exact hfresh (List.mem_filterMap.mpr ⟨.positional token (some found), by simp, rfl⟩)
  | missingValue t op => cases hbinding

/-- So a token that is taken for the value at a position is the value of the option there. -/
theorem objectForKey_of_position (hcmd : WellFormed cmd)
    (hhelp : ∀ op ∈ cmd.options, op.optionName ≠ Command.helpCommand.optionName)
    (hokay : (parseArgs cmd args).exitCode = .everythingOkay)
    (hvalues : (parseArgs cmd args).values = some values) {tokens : List String}
    (hgroups : (argGroups cmd 0 args).filterMap ArgGroup.positional? =
      tokens.zipIdx.map fun entry => (entry.1, cmd.optionForPosition entry.2))
    {index : Nat} {token : String} (htoken : tokens[index]? = some token) {op : CommandOption}
    (hop : cmd.optionForPosition index = some op) :
    values.objectForKey op.optionName = some (.string token) := by
  have hentry : (token, some op) ∈ (argGroups cmd 0 args).filterMap ArgGroup.positional? := by
    rw [hgroups, ← hop]
    exact List.mem_map.mpr ⟨(token, index), List.mem_zipIdx_iff_getElem?.mpr htoken, rfl⟩
  obtain ⟨group, hgroup, hpositional⟩ := List.mem_filterMap.mp hentry
  obtain rfl := positional?_eq_some.mp hpositional
  obtain ⟨before, after, hsplit⟩ := List.append_of_mem hgroup
  refine objectForKey_of_positional hcmd hhelp hokay hvalues
    (Command.optionForPosition_eq_some hop).1 hsplit fun t ht => ?_
  -- the options of the positional groups are those of different positions
  have hoptions : ((argGroups cmd 0 args).filterMap ArgGroup.positional?).filterMap Prod.snd =
      positionalOptionsOf cmd tokens := by
    rw [hgroups, List.filterMap_map]
    rfl
  have hnodup : (positionalOptionsOf cmd tokens).Nodup := nodup_positionalOptionsOf tokens
  rw [← hoptions, hsplit, List.filterMap_append,
    List.filterMap_cons_some (f := ArgGroup.positional?) rfl, List.filterMap_append,
    List.filterMap_cons_some (f := Prod.snd) rfl] at hnodup
  refine (List.nodup_cons.mp (List.nodup_append.mp hnodup).2.1).1 ?_
  exact List.mem_filterMap.mpr ⟨(t, some op), List.mem_filterMap.mpr ⟨_, ht, rfl⟩, rfl⟩

/-- An option that no flag is for has the value at a position. -/
theorem position_of_value (hcmd : WellFormed cmd)
    (hhelp : ∀ op ∈ cmd.options, op.optionName ≠ Command.helpCommand.optionName)
    (hokay : (parseArgs cmd args).exitCode = .everythingOkay)
    (hvalues : (parseArgs cmd args).values = some values) {tokens : List String}
    (hgroups : (argGroups cmd 0 args).filterMap ArgGroup.positional? =
      tokens.zipIdx.map fun entry => (entry.1, cmd.optionForPosition entry.2))
    {op : CommandOption} (hop : op ∈ cmd.options)
    (hflag : ∀ value, .flag op value ∉ argGroups cmd 0 args) {value : ArgValue}
    (hvalue : values.objectForKey op.optionName = some value) :
    ∃ index token, cmd.optionForPosition index = some op ∧ tokens[index]? = some token ∧
      value = .string token := by
  obtain ⟨group, hgroup, hoption, hbinding⟩ :=
    group_of_value hcmd hhelp hokay hvalues hop hvalue
  cases group with
  | positional token option =>
    obtain rfl : option = some op := hoption
    have hentry : (token, some op) ∈ (argGroups cmd 0 args).filterMap ArgGroup.positional? :=
      List.mem_filterMap.mpr ⟨_, hgroup, rfl⟩
    rw [hgroups] at hentry
    obtain ⟨⟨found, index⟩, hindex, heq⟩ := List.mem_map.mp hentry
    obtain ⟨rfl, hposition⟩ := Prod.mk.inj heq
    refine ⟨index, found, hposition, List.mem_zipIdx_iff_getElem?.mp hindex, ?_⟩
    exact (congrArg Prod.snd (Option.some.inj hbinding)).symm
  | flag other v =>
    obtain rfl : other = op := Option.some.inj hoption
    exact absurd hgroup (hflag v)
  | missingValue token other => cases hbinding

/-- Where no positional token is empty, the positional tokens are bound. -/
theorem bindsPositionals_of_ne_empty (hcmd : WellFormed cmd) (hname : ByPosition cmd)
    (hhelp : ∀ op ∈ cmd.options, op.optionName ≠ Command.helpCommand.optionName)
    (hokay : (parseArgs cmd args).exitCode = .everythingOkay)
    (hvalues : (parseArgs cmd args).values = some values)
    (hne : "" ∉ positionalTokens cmd args) : BindsPositionals cmd args values := by
  have hgroups := filterMap_positional_argGroups hcmd hname 0 hne
  refine ⟨fun index token htoken => ?_, fun op hop value hvalue => ?_⟩
  · have hentry : (token, cmd.optionForPosition index) ∈
        (argGroups cmd 0 args).filterMap ArgGroup.positional? := by
      rw [hgroups]
      exact List.mem_map.mpr ⟨(token, index), List.mem_zipIdx_iff_getElem?.mpr htoken, rfl⟩
    obtain ⟨group, hgroup, hpositional⟩ := List.mem_filterMap.mp hentry
    obtain rfl := positional?_eq_some.mp hpositional
    have hvalid := valid_of_atEvery_fits ((parseArgs_exitCode_iff cmd args).mp hokay)
    obtain ⟨op, hop⟩ := Option.isSome_iff_exists.mp (hvalid _ hgroup).1
    exact ⟨op, hop, objectForKey_of_position hcmd hhelp hokay hvalues hgroups htoken hop⟩
  · obtain ⟨hmem, hpos⟩ := mem_positionalOptions_iff.mp hop
    refine position_of_value hcmd hhelp hokay hvalues hgroups hmem (fun v hflag => ?_) hvalue
    rw [positional_of_flag_mem hcmd hne hflag] at hpos
    cases hpos

/-- A positional option that is bound to the empty string is bound as the flag it looks like. -/
theorem flag_mem_of_empty_value (hcmd : WellFormed cmd)
    (hhelp : ∀ op ∈ cmd.options, op.optionName ≠ Command.helpCommand.optionName)
    (hokay : (parseArgs cmd args).exitCode = .everythingOkay)
    (hvalues : (parseArgs cmd args).values = some values) {op : CommandOption}
    (hop : op ∈ cmd.positionalOptions)
    (hvalue : values.objectForKey op.optionName = some (.string "")) :
    .flag op (.string "") ∈ argGroups cmd 0 args := by
  obtain ⟨group, hgroup, hoption, hbinding⟩ := group_of_value hcmd hhelp hokay hvalues
    (mem_positionalOptions_iff.mp hop).1 hvalue
  cases group with
  | positional token option =>
    obtain rfl : option = some op := hoption
    obtain rfl : token = "" := ArgValue.string.inj (congrArg Prod.snd (Option.some.inj hbinding))
    have hnone := optionForFlag_of_positional_mem hgroup
    rw [optionForFlag_empty hcmd, List.head?_eq_none_iff] at hnone
    exact absurd hop (hnone ▸ List.not_mem_nil)
  | flag other value =>
    obtain rfl : other = op := Option.some.inj hoption
    obtain rfl : value = .string "" := congrArg Prod.snd (Option.some.inj hbinding)
    exact hgroup
  | missingValue token other => cases hbinding

/-- Where a positional token is empty, the positional tokens are not bound. -/
theorem ne_empty_of_bindsPositionals (hcmd : WellFormed cmd) (hname : ByPosition cmd)
    (hhelp : ∀ op ∈ cmd.options, op.optionName ≠ Command.helpCommand.optionName)
    (hokay : (parseArgs cmd args).exitCode = .everythingOkay)
    (hvalues : (parseArgs cmd args).values = some values)
    (hbinds : BindsPositionals cmd args values) : "" ∉ positionalTokens cmd args := by
  intro hmem
  have hfits := (parseArgs_exitCode_iff cmd args).mp hokay
  obtain ⟨op, value, hgroup, hpos, htwice⟩ :=
    exists_flag_of_mem hcmd hname (valid_of_atEvery_fits hfits) hmem
  -- an empty token is the value of the option at its position, and that is `op`
  have hunique : ∀ index, (positionalTokens cmd args)[index]? = some "" →
      op.position = index ∧ value = .string "" := by
    intro index hindex
    obtain ⟨other, hother, hvalue⟩ := hbinds.bound index "" hindex
    obtain ⟨hmem, hpositional, hposition⟩ := Command.optionForPosition_eq_some hother
    have hflag := flag_mem_of_empty_value hcmd hhelp hokay hvalues
      (mem_positionalOptions_iff.mpr ⟨hmem, hpositional⟩) hvalue
    have hsame : other = op := Option.some.inj
      ((head?_of_flag_mem hcmd hpositional hflag).symm.trans (head?_of_flag_mem hcmd hpos hgroup))
    subst hsame
    exact ⟨hposition, value_unique_of_atEvery_fits hfits hgroup hflag⟩
  obtain ⟨index, hindex⟩ := List.mem_iff_getElem?.mp hmem
  obtain ⟨first, hfirst, hsecond⟩ := htwice (hunique index hindex).2
  have h₁ := (hunique first hfirst).1
  have h₂ := (hunique (first + 1) hsecond).1
  omega

end Accepted

/-! ### The commands of the program -/

/-- No option of the program is named like the help option. -/
theorem optionName_ne_help : ∀ cmd ∈ Commands.commandClasses, ∀ op ∈ cmd.options,
    op.optionName ≠ Command.helpCommand.optionName := by
  decide +kernel

/-- **The empty string is a flag.** For every command of the program other than `is-installed` and
`app-info` and all accepted arguments: the values of the positional options are the positional
tokens, in the order of the positions, exactly if none of these tokens is empty. -/
theorem bindsPositionals_iff (hcmd : cmd ∈ Commands.commandClasses) (hname : ByPosition cmd)
    {args : List String} {values : NSDictionary ArgValue}
    (hokay : (parseArgs cmd args).exitCode = .everythingOkay)
    (hvalues : (parseArgs cmd args).values = some values) :
    BindsPositionals cmd args values ↔ "" ∉ positionalTokens cmd args :=
  ⟨ne_empty_of_bindsPositionals (wellFormed_of_mem_commandClasses cmd hcmd) hname
      (optionName_ne_help cmd hcmd) hokay hvalues,
    bindsPositionals_of_ne_empty (wellFormed_of_mem_commandClasses cmd hcmd) hname
      (optionName_ne_help cmd hcmd) hokay hvalues⟩

/-- What `resign -o "" a.ipa b` is parsed to; here the empty string is the value of a flag. -/
def resignValues : NSDictionary ArgValue :=
  ((NSDictionary.empty.setObject "output-path" (.string "")).setObject "app-path"
    (.string "a.ipa")).setObject "profile-path" (.string "b")

/-- So its positional tokens are bound. -/
theorem bindsPositionals_iff_resign :
    BindsPositionals Commands.resignCommand ["-o", "", "a.ipa", "b"] resignValues ↔
      "" ∉ positionalTokens Commands.resignCommand ["-o", "", "a.ipa", "b"] :=
  bindsPositionals_iff (by decide +kernel) (by decide) (by decide +kernel) rfl

/-- `xctestconfig "" a.plist` is accepted, with the second token for the first option. -/
theorem not_bindsPositionals_xctestconfig :
    (parseArgs Commands.xctestConfigReadWriteCommand ["", "a.plist"]).exitCode = .everythingOkay ∧
      (parseArgs Commands.xctestConfigReadWriteCommand ["", "a.plist"]).values =
        some (NSDictionary.empty.setObject "input-file" (.string "a.plist")) ∧
      positionalTokens Commands.xctestConfigReadWriteCommand ["", "a.plist"] = ["", "a.plist"] ∧
      ¬ BindsPositionals Commands.xctestConfigReadWriteCommand ["", "a.plist"]
        (NSDictionary.empty.setObject "input-file" (.string "a.plist")) := by
  have htokens : positionalTokens Commands.xctestConfigReadWriteCommand ["", "a.plist"] =
      ["", "a.plist"] := by decide +kernel
  refine ⟨by decide +kernel, rfl, htokens, fun h => ?_⟩
  obtain ⟨op, hop, hvalue⟩ := h.bound 0 "" (by rw [htokens]; rfl)
  have hfirst : Commands.xctestConfigReadWriteCommand.optionForPosition 0 =
      Commands.xctestConfigReadWriteCommand.options.head? := rfl
  obtain rfl := Option.some.inj (hop.symm.trans hfirst)
  exact absurd hvalue (by decide +kernel)

end CLI

end IOSDeviceManager
