import IOSDeviceManager.Foundation.NSStringReplace
import IOSDeviceManager.General.XmlCost

/-! # Placeholders replaced one after the other

A value that is put into a text is searched for the later placeholders as well. It survives if what
it then is stands for it as character data. -/

namespace IOSDeviceManager

open General PropertyList Xml

/-- Placeholders and the values that take their places, in the order of replacement. -/
abbrev Substitution : Type :=
  List (List Char × List Char)

namespace Substitution

/-- Each placeholder gives way to its value. -/
def replaced : Substitution → List Char → List Char
  | [], text => text
  | (name, value) :: later, text => replaced later (NSString.replaceFrom name value 0 text)

/-- The value of a placeholder; any other text is its own. -/
def carried (substitution : Substitution) (text : List Char) : List Char :=
  (substitution.lookup text).getD text

/-- With the later placeholders in it replaced, each value stands for itself. -/
def Survives : Substitution → Prop
  | [] => True
  | (_, value) :: later => characterData (replaced later value) = some value ∧ Survives later

/-- No value contains a later placeholder. -/
def Unnested (substitution : Substitution) : Prop :=
  substitution.Pairwise fun earlier later => ¬ later.1 <:+: earlier.2

/-- No placeholder contains an earlier one. -/
def Apart (substitution : Substitution) : Prop :=
  substitution.Pairwise fun earlier later => ¬ earlier.1 <:+: later.1

/-- The names of placeholders: no characters of markup, and an underscore among them. -/
def IsPlaceholder (name : List Char) : Prop :=
  '_' ∈ name ∧ ∀ c ∈ name, isMarkupChar c = false

instance : DecidablePred Survives
  | [] => isTrue trivial
  | (_, value) :: later =>
    have : Decidable (Survives later) := instDecidablePredSurvives later
    inferInstanceAs (Decidable (characterData (replaced later value) = some value ∧ Survives later))

variable {substitution : Substitution} {name text : List Char}

/-- A placeholder is not empty. -/
theorem IsPlaceholder.ne_nil (h : IsPlaceholder name) : name ≠ [] :=
  List.ne_nil_of_mem h.1

/-- Markup is not part of a placeholder. -/
theorem IsPlaceholder.not_mem (h : IsPlaceholder name) {c : Char} (hc : isMarkupChar c = true) :
    c ∉ name := by
  intro hmem
  rw [h.2 c hmem] at hc
  exact Bool.false_ne_true hc

/-- Replacing a placeholder passes over markup. -/
theorem passesMarkup_replaceFrom (h : IsPlaceholder name) (value : List Char) :
    PassesMarkup (NSString.replaceFrom name value 0) where
  markup := fun _ s hseg =>
    NSString.replaceFrom_append_of_disjoint h.ne_nil (fun c hc => h.not_mem (hseg c hc)) s
  text := fun text _ s hc => NSString.replaceFrom_append_cons h.ne_nil (h.not_mem hc) text s

/-- So does replacing them all. -/
theorem passesMarkup_replaced (h : ∀ entry ∈ substitution, IsPlaceholder entry.1) :
    PassesMarkup substitution.replaced := by
  induction substitution with
  | nil => exact ⟨fun _ _ _ => rfl, fun _ _ _ _ => rfl⟩
  | cons entry later ih =>
    rw [List.forall_mem_cons] at h
    exact (ih h.2).comp (passesMarkup_replaceFrom h.1 entry.2)

/-- A text without underscores contains no placeholder. -/
theorem replaced_of_not_mem (h : ∀ entry ∈ substitution, IsPlaceholder entry.1)
    (htext : '_' ∉ text) : substitution.replaced text = text := by
  induction substitution with
  | nil => rfl
  | cons entry later ih =>
    rw [List.forall_mem_cons] at h
    have hinfix : ¬ entry.1 <:+: text := fun hoccurs => htext (hoccurs.subset h.1.1)
    rw [replaced, NSString.replaceFrom_of_not_infix hinfix, ih h.2]

/-- Such a text is its own. -/
theorem carried_of_not_mem (h : ∀ entry ∈ substitution, IsPlaceholder entry.1)
    (htext : '_' ∉ text) : substitution.carried text = text := by
  have hlookup : substitution.lookup text = none := by
    rw [List.lookup_eq_none_iff]
    intro entry hentry
    rw [bne_iff_ne]
    rintro rfl
    exact htext (h entry hentry).1
  rw [carried, hlookup, Option.getD_none]

/-- A value that contains no placeholder. -/
theorem replaced_of_not_infix (h : ∀ entry ∈ substitution, ¬ entry.1 <:+: text) :
    substitution.replaced text = text := by
  induction substitution with
  | nil => rfl
  | cons entry later ih =>
    rw [List.forall_mem_cons] at h
    rw [replaced, NSString.replaceFrom_of_not_infix h.1, ih h.2]

/-- The first placeholder gives way to its value, in which the later ones are replaced. -/
theorem replaced_cons_self (hname : name ≠ []) (value : List Char) (later : Substitution) :
    replaced ((name, value) :: later) name = replaced later value := by
  have hself := NSString.replaceFrom_append_self hname value []
  have hnil : NSString.replaceFrom name value 0 [] = [] := rfl
  rw [List.append_nil, hnil, List.append_nil] at hself
  rw [replaced, hself]

/-- What takes the place of a placeholder that is replaced after others. -/
theorem replaced_of_split {before later : Substitution} {value : List Char}
    (hnames : ∀ entry ∈ before ++ (name, value) :: later, IsPlaceholder entry.1)
    (hapart : Apart (before ++ (name, value) :: later)) :
    replaced (before ++ (name, value) :: later) name = replaced later value ∧
      carried (before ++ (name, value) :: later) name = value := by
  induction before with
  | nil =>
    have hname : IsPlaceholder name := hnames (name, value) List.mem_cons_self
    exact ⟨replaced_cons_self hname.ne_nil value later, by simp [carried]⟩
  | cons entry before ih =>
    obtain ⟨other, first⟩ := entry
    rw [List.cons_append, List.forall_mem_cons] at hnames
    obtain ⟨hfirst, hrest⟩ := List.pairwise_cons.mp hapart
    have hinfix : ¬ other <:+: name :=
      hfirst (name, value) (List.mem_append_right _ List.mem_cons_self)
    have hne : name ≠ other := fun heq => hinfix (heq ▸ List.infix_rfl)
    have hmismatch : (name == other) = false := beq_eq_false_iff_ne.mpr hne
    obtain ⟨hreplaced, hcarried⟩ := ih hnames.2 hrest
    refine ⟨?_, ?_⟩
    · rw [List.cons_append, replaced, NSString.replaceFrom_of_not_infix hinfix, hreplaced]
    · rw [carried] at hcarried ⊢
      rw [List.cons_append, List.lookup_cons, hmismatch]
      exact hcarried

/-- Tags in a text stay. -/
theorem mem_replaced (hnames : ∀ entry ∈ substitution, IsPlaceholder entry.1)
    (htext : '<' ∈ text) : '<' ∈ substitution.replaced text := by
  obtain ⟨before, after, rfl⟩ := List.append_of_mem htext
  have hpasses := passesMarkup_replaced hnames
  have hlt := hpasses.markup ['<'] after (List.forall_mem_singleton.mpr (by decide))
  rw [List.singleton_append] at hlt
  rw [hpasses.text before '<' after (by decide), hlt]
  exact List.mem_append_right _ List.mem_cons_self

/-- Values that survive contain no tag. -/
theorem Survives.not_mem (h : substitution.Survives)
    (hnames : ∀ entry ∈ substitution, IsPlaceholder entry.1) :
    ∀ entry ∈ substitution, '<' ∉ entry.2 := by
  induction substitution with
  | nil => exact List.forall_mem_nil _
  | cons entry later ih =>
    rw [List.forall_mem_cons] at hnames ⊢
    obtain ⟨hvalue, hlater⟩ := h
    exact ⟨fun hmem => not_mem_of_characterDataFrom hvalue (mem_replaced hnames.2 hmem),
      ih hlater hnames.2⟩

/-- **The values survive** exactly if every placeholder is replaced by what stands for its value. -/
theorem survives_iff (hnames : ∀ entry ∈ substitution, IsPlaceholder entry.1)
    (hapart : substitution.Apart) :
    substitution.Survives ↔ ∀ entry ∈ substitution,
      characterData (substitution.replaced entry.1) = some (substitution.carried entry.1) := by
  induction substitution with
  | nil => simp [Survives]
  | cons entry later ih =>
    obtain ⟨name, value⟩ := entry
    rw [List.forall_mem_cons] at hnames
    obtain ⟨hfirst, hlater⟩ := List.pairwise_cons.mp hapart
    have hhead : carried ((name, value) :: later) name = value := by simp [carried]
    have htail : ∀ other ∈ later,
        replaced ((name, value) :: later) other.1 = replaced later other.1 ∧
          carried ((name, value) :: later) other.1 = carried later other.1 := by
      intro other hother
      have hne : other.1 ≠ name := by
        intro heq
        exact hfirst other hother (heq ▸ List.infix_rfl)
      refine ⟨by rw [replaced, NSString.replaceFrom_of_not_infix (hfirst other hother)], ?_⟩
      rw [carried, carried, List.lookup_cons, beq_eq_false_iff_ne.mpr hne]
    rw [Survives, ih hnames.2 hlater, List.forall_mem_cons, replaced_cons_self hnames.1.ne_nil, hhead]
    refine and_congr Iff.rfl (forall₂_congr fun other hother => ?_)
    rw [(htail other hother).1, (htail other hother).2]

/-- Where no value contains a later placeholder, each placeholder is replaced by its value. -/
theorem replaced_eq_carried (hnames : ∀ entry ∈ substitution, IsPlaceholder entry.1)
    (hapart : substitution.Apart) (hunnested : substitution.Unnested) :
    ∀ entry ∈ substitution,
      substitution.replaced entry.1 = substitution.carried entry.1 := by
  induction substitution with
  | nil => simp
  | cons entry later ih =>
    obtain ⟨name, value⟩ := entry
    rw [List.forall_mem_cons] at hnames ⊢
    obtain ⟨hfirst, hlater⟩ := List.pairwise_cons.mp hapart
    obtain ⟨hvalue, hrest⟩ := List.pairwise_cons.mp hunnested
    refine ⟨?_, fun other hother => ?_⟩
    · rw [replaced_cons_self hnames.1.ne_nil, replaced_of_not_infix hvalue]
      simp [carried]
    · have hne : other.1 ≠ name := by
        intro heq
        exact hfirst other hother (heq ▸ List.infix_rfl)
      rw [replaced, NSString.replaceFrom_of_not_infix (hfirst other hother),
        ih hnames.2 hlater hrest other hother, carried, carried, List.lookup_cons,
        beq_eq_false_iff_ne.mpr hne]

/-- No tag comes from values without one. -/
theorem not_mem_replaced {c : Char} (hvalues : ∀ entry ∈ substitution, c ∉ entry.2)
    (htext : c ∉ text) : c ∉ substitution.replaced text := by
  induction substitution generalizing text with
  | nil => exact htext
  | cons entry later ih =>
    rw [List.forall_mem_cons] at hvalues
    refine ih hvalues.2 fun hmem => ?_
    rcases NSString.mem_of_mem_replaceFrom hmem with h | h
    · exact htext h
    · exact hvalues.1 h

end Substitution

end IOSDeviceManager
