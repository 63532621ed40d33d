import Mathlib
import IOSDeviceManager.General.PropertyList

/-! # What XML markup costs

Of the characters `/`, `&`, `;`, `!` and `?`, no more come out of a text than are in it, the ends of
elements counting as one each, and fewer if a `<` or an `&` comes out as a character. So a text that
is read as a property list with such a character is longer than the property list needs. -/

namespace IOSDeviceManager.General.Xml

variable {state later : LexState} {tokens : List Token} {cs name : List Char} {c : Char}

/-- The measure of a text that gives each character its own. -/
def textMeasure (μ : Char → Nat) (cs : List Char) : Nat :=
  (cs.map μ).sum

/-- The measure of a token; `k` is that of the end of an element. -/
def tokenMeasure (μ : Char → Nat) (k : Nat) : Token → Nat
  | .openTag _ | .doctype => 0
  | .closeTag _ | .emptyTag _ => k
  | .char c => μ c

/-- The measure of tokens. -/
def measure (μ : Char → Nat) (k : Nat) (ts : List Token) : Nat :=
  (ts.map (tokenMeasure μ k)).sum

/-- The characters that markup cannot do without. -/
def markupCost (c : Char) : Nat :=
  if c = '/' ∨ c = '&' ∨ c = ';' ∨ c = '!' ∨ c = '?' then 1 else 0

/-- The characters that stand for themselves in markup only. -/
def special (c : Char) : Nat :=
  if isPlain c then 0 else 1

/-- What has been read towards the end of an element. -/
def credit : LexState → Nat
  | .closeTag _ | .closeSpace _ => 1
  | .attributes _ _ slash => if slash then 1 else 0
  | _ => 0

/-- What has been read for markup that puts out no end of an element. -/
def paid : LexState → Nat
  | .reference _ | .declaration _ | .comment _ | .cdata _ | .doctype _ | .instruction _ => 1
  | _ => 0

/-- What a step puts out has been read, in this step or before it. -/
structure StepCosts (state : LexState) (c : Char) (ts : List Token) (later : LexState) : Prop where
  out : measure markupCost 1 ts + credit later ≤ markupCost c + credit state
  keep : measure markupCost 1 ts + credit later + paid later ≤
    markupCost c + credit state + paid state
  special : 0 < measure special 0 ts →
    measure markupCost 1 ts + credit later + 1 ≤ markupCost c + credit state + paid state

@[simp] theorem measure_nil (μ : Char → Nat) (k : Nat) : measure μ k [] = 0 := rfl

@[simp] theorem measure_append (μ : Char → Nat) (k : Nat) (ts us : List Token) :
    measure μ k (ts ++ us) = measure μ k ts + measure μ k us := by
  simp [measure]

@[simp] theorem measure_cons (μ : Char → Nat) (k : Nat) (t : Token) (ts : List Token) :
    measure μ k (t :: ts) = tokenMeasure μ k t + measure μ k ts := by
  simp [measure]

@[simp] theorem measure_map_char (μ : Char → Nat) (k : Nat) (cs : List Char) :
    measure μ k (cs.map .char) = textMeasure μ cs := by
  rw [measure, textMeasure, List.map_map]
  rfl

@[simp] theorem textMeasure_nil (μ : Char → Nat) : textMeasure μ [] = 0 := rfl

@[simp] theorem textMeasure_append (μ : Char → Nat) (cs ds : List Char) :
    textMeasure μ (cs ++ ds) = textMeasure μ cs + textMeasure μ ds := by
  simp [textMeasure]

@[simp] theorem textMeasure_cons (μ : Char → Nat) (c : Char) (cs : List Char) :
    textMeasure μ (c :: cs) = μ c + textMeasure μ cs := by
  simp [textMeasure]

/-- A character costs one at most. -/
theorem markupCost_le_one (c : Char) : markupCost c ≤ 1 := by
  rw [markupCost]
  split <;> omega

/-- A step that puts nothing out and does not spend what has been read. -/
theorem StepCosts.silent (hcredit : credit later ≤ markupCost c + credit state)
    (hpaid : credit later + paid later ≤ markupCost c + credit state + paid state) :
    StepCosts state c [] later where
  out := by simpa using hcredit
  keep := by simpa using hpaid
  special := by simp

/-- Steps in character data and in references. -/
theorem stepContent_costs (h : stepContent c = some (tokens, later)) :
    StepCosts .content c tokens later := by
  rw [stepContent] at h
  split at h
  · obtain ⟨rfl, rfl⟩ := Prod.mk.inj (Option.some.inj h)
    exact .silent (Nat.zero_le _) (Nat.zero_le _)
  · next hlt =>
    split at h
    · next hamp =>
      obtain ⟨rfl, rfl⟩ := Prod.mk.inj (Option.some.inj h)
      subst hamp
      exact .silent (by decide) (by decide)
    · next hamp =>
      obtain ⟨rfl, rfl⟩ := Prod.mk.inj (Option.some.inj h)
      have hplain : special c = 0 := if_pos (isPlain_iff.mpr ⟨hlt, hamp⟩)
      exact ⟨by simp [tokenMeasure, credit], by simp [tokenMeasure, credit, paid],
        by simp [tokenMeasure, hplain]⟩

/-- A step in a reference. -/
theorem stepReference_costs (h : stepReference name c = some (tokens, later)) :
    StepCosts (.reference name) c tokens later := by
  rw [stepReference] at h
  split at h
  · next hend =>
    obtain ⟨character, -, hresult⟩ := Option.map_eq_some_iff.mp h
    obtain ⟨rfl, rfl⟩ := Prod.mk.inj hresult
    have hone := markupCost_le_one character
    have hsemicolon : markupCost c = 1 := by rw [hend]; rfl
    constructor <;> simp only [measure_cons, measure_nil, tokenMeasure, credit, paid] <;> omega
  · split at h
    · obtain ⟨rfl, rfl⟩ := Prod.mk.inj (Option.some.inj h)
      exact .silent (Nat.zero_le _) (by simp [credit, paid])
    · cases h

/-- A step after `<`. -/
theorem stepMarkup_costs (h : stepMarkup c = some (tokens, later)) :
    StepCosts .markup c tokens later := by
  rw [stepMarkup] at h
  split at h
  · next hc =>
    obtain ⟨rfl, rfl⟩ := Prod.mk.inj (Option.some.inj h)
    subst hc
    exact .silent (by decide) (by decide)
  · split at h
    · next hc =>
      obtain ⟨rfl, rfl⟩ := Prod.mk.inj (Option.some.inj h)
      subst hc
      exact .silent (by decide) (by decide)
    · split at h
      · next hc =>
        obtain ⟨rfl, rfl⟩ := Prod.mk.inj (Option.some.inj h)
        subst hc
        exact .silent (by decide) (by decide)
      · split at h
        · obtain ⟨rfl, rfl⟩ := Prod.mk.inj (Option.some.inj h)
          exact .silent (Nat.zero_le _) (Nat.zero_le _)
        · cases h

/-- A step after `<!`. -/
theorem stepDeclaration_costs {cs : List Char} (h : stepDeclaration cs c = some (tokens, later)) :
    StepCosts (.declaration cs) c tokens later := by
  rw [stepDeclaration] at h
  split at h
  · obtain ⟨rfl, rfl⟩ := Prod.mk.inj (Option.some.inj h)
    exact .silent (Nat.zero_le _) (by simp [credit, paid])
  · split at h
    · obtain ⟨rfl, rfl⟩ := Prod.mk.inj (Option.some.inj h)
      exact .silent (Nat.zero_le _) (by simp [credit, paid])
    · split at h
      · obtain ⟨rfl, rfl⟩ := Prod.mk.inj (Option.some.inj h)
        constructor <;> simp [tokenMeasure, credit, paid]
      · split at h
        · obtain ⟨rfl, rfl⟩ := Prod.mk.inj (Option.some.inj h)
          exact .silent (Nat.zero_le _) (by simp [credit, paid])
        · cases h

/-- A step in a section of characters. -/
theorem stepCdata_costs {brackets : Nat} (h : stepCdata brackets c = some (tokens, later)) :
    StepCosts (.cdata brackets) c tokens later := by
  have hbracket : markupCost ']' = 0 := rfl
  rw [stepCdata] at h
  split at h
  · split at h
    · obtain ⟨rfl, rfl⟩ := Prod.mk.inj (Option.some.inj h)
      constructor <;> simp [tokenMeasure, credit, paid, hbracket]
    · obtain ⟨rfl, rfl⟩ := Prod.mk.inj (Option.some.inj h)
      exact .silent (Nat.zero_le _) (by simp [credit, paid])
  · split at h
    · obtain ⟨rfl, rfl⟩ := Prod.mk.inj (Option.some.inj h)
      exact .silent (Nat.zero_le _) (Nat.zero_le _)
    · obtain ⟨rfl, rfl⟩ := Prod.mk.inj (Option.some.inj h)
      have hheld : measure markupCost 1 (List.replicate brackets (.char ']')) = 0 := by
        simp [measure, tokenMeasure, hbracket]
      constructor <;> simp [hheld, tokenMeasure, credit, paid]

/-- A step in a document type. -/
theorem stepDoctype_costs {quote : Option Char} (h : stepDoctype quote c = some (tokens, later)) :
    StepCosts (.doctype quote) c tokens later := by
  cases quote with
  | some q =>
    obtain ⟨rfl, rfl⟩ := Prod.mk.inj (Option.some.inj h)
    exact .silent (Nat.zero_le _) (by simp [credit, paid])
  | none =>
    rw [stepDoctype] at h
    split at h
    · obtain ⟨rfl, rfl⟩ := Prod.mk.inj (Option.some.inj h)
      exact .silent (Nat.zero_le _) (Nat.zero_le _)
    · split at h
      · obtain ⟨rfl, rfl⟩ := Prod.mk.inj (Option.some.inj h)
        exact .silent (Nat.zero_le _) (by simp [credit, paid])
      · split at h
        · cases h
        · obtain ⟨rfl, rfl⟩ := Prod.mk.inj (Option.some.inj h)
          exact .silent (Nat.zero_le _) (by simp [credit, paid])

/-- A step in a comment or in an instruction: nothing comes out. -/
theorem StepCosts.aside (hcredit : credit later = 0) (hstate : paid state = 1)
    (hpaid : paid later ≤ 1) : StepCosts state c [] later :=
  .silent (by omega) (by omega)

/-- A step behind the name in a tag. -/
theorem stepAttributes_costs {quote : Option Char} {slash : Bool} {before : LexState}
    (hbefore : credit before = credit (.attributes name quote slash))
    (h : stepAttributes name quote slash c = some (tokens, later)) :
    StepCosts before c tokens later := by
  cases quote with
  | some q =>
    obtain ⟨rfl, rfl⟩ := Prod.mk.inj (Option.some.inj h)
    exact .silent (Nat.zero_le _) (Nat.zero_le _)
  | none =>
    rw [stepAttributes] at h
    split at h
    · obtain ⟨rfl, rfl⟩ := Prod.mk.inj (Option.some.inj h)
      have hslash : credit (.attributes name none slash) = if slash then 1 else 0 := rfl
      have hcontent : credit .content = 0 ∧ paid .content = 0 := ⟨rfl, rfl⟩
      rw [hslash] at hbefore
      -- the end of the tag, which a slash before it closes at once
      cases slash with
      | false => constructor <;> simp [tokenMeasure, hcontent.1, hcontent.2]
      | true =>
        rw [if_pos rfl] at hbefore
        constructor <;> simp [tokenMeasure, hcontent.1, hcontent.2, hbefore]
        omega
    · split at h
      · next hc =>
        obtain ⟨rfl, rfl⟩ := Prod.mk.inj (Option.some.inj h)
        have hslash : markupCost c = 1 := by rw [hc]; rfl
        exact .silent (by simp [credit, hslash]) (by simp [credit, paid, hslash]; omega)
      · split at h
        · obtain ⟨rfl, rfl⟩ := Prod.mk.inj (Option.some.inj h)
          exact .silent (Nat.zero_le _) (Nat.zero_le _)
        · split at h
          · cases h
          · obtain ⟨rfl, rfl⟩ := Prod.mk.inj (Option.some.inj h)
            exact .silent (Nat.zero_le _) (Nat.zero_le _)

/-- A step in a closing tag. -/
theorem lexStep_closing_costs {cs : List Char} (hstate : state = .closeTag cs ∨ state = .closeSpace cs)
    (h : lexStep state c = some (tokens, later)) : StepCosts state c tokens later := by
  have hcredit : credit state = 1 := by rcases hstate with rfl | rfl <;> rfl
  have hpaid : paid state = 0 := by rcases hstate with rfl | rfl <;> rfl
  have hcases : (tokens = [] ∧ credit later = 1 ∧ paid later = 0) ∨
      (tokens = [.closeTag cs] ∧ later = .content) := by
    rcases hstate with rfl | rfl <;> rw [lexStep] at h <;> grind [credit, paid]
  rcases hcases with ⟨rfl, hlater, hnone⟩ | ⟨rfl, rfl⟩
  · exact .silent (by omega) (by omega)
  · have hcontent : credit .content = 0 ∧ paid .content = 0 := ⟨rfl, rfl⟩
    constructor <;> simp [tokenMeasure, hcredit, hpaid, hcontent.1, hcontent.2]

/-- **What a step costs.** -/
theorem lexStep_costs (h : lexStep state c = some (tokens, later)) :
    StepCosts state c tokens later := by
  cases state with
  | content => exact stepContent_costs h
  | reference name => exact stepReference_costs h
  | markup => exact stepMarkup_costs h
  | declaration cs => exact stepDeclaration_costs h
  | comment dashes =>
    rw [lexStep] at h
    split at h
    · obtain ⟨rfl, rfl⟩ := Prod.mk.inj (Option.some.inj h)
      exact .aside rfl rfl (Nat.le_refl _)
    · split at h
      · obtain ⟨rfl, rfl⟩ := Prod.mk.inj (Option.some.inj h)
        exact .aside rfl rfl (Nat.zero_le _)
      · obtain ⟨rfl, rfl⟩ := Prod.mk.inj (Option.some.inj h)
        exact .aside rfl rfl (Nat.le_refl _)
  | cdata brackets => exact stepCdata_costs h
  | doctype quote => exact stepDoctype_costs h
  | instruction question =>
    rw [lexStep] at h
    split at h
    · obtain ⟨rfl, rfl⟩ := Prod.mk.inj (Option.some.inj h)
      exact .aside rfl rfl (Nat.zero_le _)
    · obtain ⟨rfl, rfl⟩ := Prod.mk.inj (Option.some.inj h)
      exact .aside rfl rfl (Nat.le_refl _)
  | tagName name =>
    rw [lexStep] at h
    split at h
    · obtain ⟨rfl, rfl⟩ := Prod.mk.inj (Option.some.inj h)
      exact .silent (Nat.zero_le _) (Nat.zero_le _)
    · split at h
      · exact stepAttributes_costs rfl h
      · cases h
  | attributes name quote slash => exact stepAttributes_costs rfl h
  | closeTag cs => exact lexStep_closing_costs (.inl rfl) h
  | closeSpace cs => exact lexStep_closing_costs (.inr rfl) h

/-- **What comes out has been read**, and more has been read where a special character comes out. -/
theorem lexFrom_costs {ts : List Token} (h : lexFrom state cs = some ts) :
    measure markupCost 1 ts ≤ textMeasure markupCost cs + credit state ∧
      (0 < measure special 0 ts →
        measure markupCost 1 ts + 1 ≤ textMeasure markupCost cs + credit state + paid state) := by
  induction cs generalizing state ts with
  | nil =>
    rw [lexFrom, Option.ite_none_right_eq_some] at h
    obtain rfl := Option.some.inj h.2
    simp
  | cons c cs ih =>
    rw [lexFrom] at h
    split at h
    · cases h
    · next first next hstep =>
      obtain ⟨rest, hrest, rfl⟩ := Option.map_eq_some_iff.mp h
      obtain ⟨hle, hlt⟩ := ih hrest
      obtain ⟨hout, hkeep, hspecial⟩ := lexStep_costs hstep
      simp only [measure_append, textMeasure_cons]
      refine ⟨by omega, fun hpos => ?_⟩
      -- the special character comes out in this step or later
      by_cases hfirst : 0 < measure special 0 first
      · have hnow := hspecial hfirst
        omega
      · have hlater := hlt (by omega)
        omega

end IOSDeviceManager.General.Xml

namespace IOSDeviceManager.General.PropertyList

open Xml

variable {δ ε : Type}

/-! ## Property lists -/

mutual

/-- The measure of the texts of a property list and of its elements. -/
def weight (μ : Char → Nat) (k : Nat) (datum : δ → Nat) : PropertyList δ → Nat
  | .string s => textMeasure μ s + k
  | .integer _ | .bool _ => k
  | .data d => datum d + k
  | .array items => weightOfItems μ k datum items + k
  | .dict entries => weightOfEntries μ k datum entries + k

/-- The measure of items. -/
def weightOfItems (μ : Char → Nat) (k : Nat) (datum : δ → Nat) : List (PropertyList δ) → Nat
  | [] => 0
  | item :: items => weight μ k datum item + weightOfItems μ k datum items

/-- The measure of entries. -/
def weightOfEntries (μ : Char → Nat) (k : Nat) (datum : δ → Nat) :
    List (List Char × PropertyList δ) → Nat
  | [] => 0
  | (key, value) :: entries =>
      textMeasure μ key + k + (weight μ k datum value + weightOfEntries μ k datum entries)

end

/-- The measure of the text of bytes. -/
def bytesMeasure (μ : Char → Nat) (bytes : List UInt8) : Nat :=
  textMeasure μ (Base64.encode bytes)

section Parse

variable {μ : Char → Nat} {k fuel : Nat} {name text : List Char} {ts rest : List Token}
  {value : PropertyList (List UInt8)}

/-- A measure to which white space and digits do not add. -/
def OfMarkup (μ : Char → Nat) : Prop :=
  (∀ c, isSpace c = true → μ c = 0) ∧ ∀ c, c.isDigit = true → μ c = 0

/-- White space does not count. -/
theorem measure_skipSpaces (hμ : OfMarkup μ) (k : Nat) (ts : List Token) :
    measure μ k (skipSpaces ts) = measure μ k ts := by
  induction ts using skipSpaces.induct with
  | case1 c rest hspace ih =>
    rw [skipSpaces, if_pos hspace, ih, measure_cons, tokenMeasure, hμ.1 c hspace, Nat.zero_add]
  | case2 c rest hspace => rw [skipSpaces, if_neg hspace]
  | case3 ts hts =>
    rw [skipSpaces]
    exact hts

/-- The tokens behind white space, with the measure of them all. -/
theorem measure_of_skipSpaces (hμ : OfMarkup μ) {token : Token}
    (h : skipSpaces ts = token :: rest) :
    measure μ k ts = tokenMeasure μ k token + measure μ k rest := by
  rw [← measure_skipSpaces hμ, h, measure_cons]

/-- The text up to a closing tag. -/
theorem measure_readText (h : readText name ts = some (text, rest)) :
    measure μ k ts = textMeasure μ text + k + measure μ k rest := by
  induction ts generalizing text with
  | nil => cases h
  | cons token ts ih =>
    cases token with
    | char c =>
      rw [readText] at h
      obtain ⟨⟨tail, later⟩, htail, hresult⟩ := Option.map_eq_some_iff.mp h
      obtain ⟨rfl, rfl⟩ := Prod.mk.inj hresult
      simp only [measure_cons, ih htail, textMeasure_cons, tokenMeasure]
      omega
    | closeTag closed =>
      rw [readText, Option.ite_none_right_eq_some] at h
      obtain ⟨rfl, rfl⟩ := Prod.mk.inj (Option.some.inj h.2)
      rw [measure_cons, textMeasure_nil, tokenMeasure]
      omega
    | openTag opened => cases h
    | emptyTag empty => cases h
    | doctype => cases h

/-- What is left of a text without white space has the same measure. -/
theorem textMeasure_filter (hμ : OfMarkup μ) (text : List Char) :
    textMeasure μ (text.filter fun c => !isSpace c) = textMeasure μ text := by
  induction text with
  | nil => rfl
  | cons c text ih =>
    cases hspace : isSpace c with
    | true => simp [hspace, ih, hμ.1 c hspace]
    | false => simp [hspace, ih]

/-- An element with a text. -/
theorem weight_leaf (hμ : OfMarkup μ) (h : leaf name text = some value) :
    weight μ k (bytesMeasure μ) value = textMeasure μ text + k := by
  rw [leaf] at h
  split at h
  · obtain rfl := Option.some.inj h
    rfl
  · split at h
    · obtain ⟨n, hn, rfl⟩ := Option.map_eq_some_iff.mp h
      rw [integerOf, Option.ite_none_right_eq_some] at hn
      have hzero : textMeasure μ text = 0 := by
        rw [textMeasure, List.sum_eq_zero_iff_forall_eq_nat]
        simpa using fun c hc => hμ.2 c (List.all_eq_true.mp hn.1.2 c hc)
      rw [weight, hzero, Nat.zero_add]
    · split at h
      · obtain ⟨bytes, hbytes, rfl⟩ := Option.map_eq_some_iff.mp h
        rw [bytesOf, Base64.decode_eq_some_iff] at hbytes
        rw [weight, bytesMeasure, ← hbytes, textMeasure_filter hμ]
      · split at h
        · next hempty =>
          obtain rfl := Option.some.inj h
          rw [hempty.2, weight, textMeasure_nil, Nat.zero_add]
        · rw [Option.ite_none_right_eq_some] at h
          obtain rfl := Option.some.inj h.2
          rw [h.1.2, weight, textMeasure_nil, Nat.zero_add]

/-- An empty element. -/
theorem weight_emptyValue (hμ : OfMarkup μ) (h : emptyValue name = some value) :
    weight μ k (bytesMeasure μ) value = k := by
  rw [emptyValue] at h
  split at h
  · obtain rfl := Option.some.inj h
    rw [weight, weightOfItems, Nat.zero_add]
  · split at h
    · obtain rfl := Option.some.inj h
      rw [weight, weightOfEntries, Nat.zero_add]
    · rw [weight_leaf hμ h, textMeasure_nil, Nat.zero_add]

/-- **What is parsed has the measure of its tokens**: values, items and entries. -/
theorem measure_parse (hμ : OfMarkup μ) (fuel : Nat) (ts rest : List Token) :
    (∀ value, parseValue fuel ts = some (value, rest) →
      measure μ k ts = weight μ k (bytesMeasure μ) value + measure μ k rest) ∧
    (∀ items, parseItems fuel ts = some (items, rest) →
      measure μ k ts = weightOfItems μ k (bytesMeasure μ) items + k + measure μ k rest) ∧
    ∀ entries, parseEntries fuel ts = some (entries, rest) →
      measure μ k ts = weightOfEntries μ k (bytesMeasure μ) entries + k + measure μ k rest := by
  -- on the fuel, for the three parsers at once: each calls the others with less
  induction fuel generalizing ts rest with
  | zero => refine ⟨fun _ h => ?_, fun _ h => ?_, fun _ h => ?_⟩ <;> cases h
  | succ fuel ih =>
    refine ⟨fun value h => ?_, fun items h => ?_, fun entries h => ?_⟩
    · rw [parseValue] at h
      split at h
      · next hskip =>
        obtain ⟨empty, hempty, hresult⟩ := Option.map_eq_some_iff.mp h
        obtain ⟨rfl, rfl⟩ := Prod.mk.inj hresult
        rw [measure_of_skipSpaces hμ hskip, weight_emptyValue hμ hempty, tokenMeasure]
      · next hskip =>
        -- an opening tag: an array, a dictionary, or a leaf with its text
        rw [measure_of_skipSpaces hμ hskip, tokenMeasure, Nat.zero_add]
        split at h
        · obtain ⟨⟨items, later⟩, hitems, hresult⟩ := Option.map_eq_some_iff.mp h
          obtain ⟨rfl, rfl⟩ := Prod.mk.inj hresult
          rw [(ih _ _).2.1 items hitems, weight]
        · split at h
          · obtain ⟨⟨entries, later⟩, hentries, hresult⟩ := Option.map_eq_some_iff.mp h
            obtain ⟨rfl, rfl⟩ := Prod.mk.inj hresult
            rw [(ih _ _).2.2 entries hentries, weight]
          · obtain ⟨⟨text, later⟩, htext, h⟩ := Option.bind_eq_some_iff.mp h
            obtain ⟨read, hread, hresult⟩ := Option.map_eq_some_iff.mp h
            obtain ⟨rfl, rfl⟩ := Prod.mk.inj hresult
            rw [measure_readText htext, weight_leaf hμ hread]
      · cases h
    · rw [parseItems] at h
      split at h
      · next hskip =>
        rw [Option.ite_none_right_eq_some] at h
        obtain ⟨rfl, rfl⟩ := Prod.mk.inj (Option.some.inj h.2)
        rw [measure_of_skipSpaces hμ hskip, tokenMeasure, weightOfItems, Nat.zero_add]
      · -- an item, and those after it
        obtain ⟨⟨value, later⟩, hvalue, h⟩ := Option.bind_eq_some_iff.mp h
        obtain ⟨⟨items, last⟩, hitems, hresult⟩ := Option.map_eq_some_iff.mp h
        obtain ⟨rfl, rfl⟩ := Prod.mk.inj hresult
        rw [← measure_skipSpaces hμ k ts, (ih _ _).1 value hvalue, (ih _ _).2.1 items hitems]
        simp only [weightOfItems]
        omega
    · rw [parseEntries] at h
      split at h
      · next hskip =>
        rw [Option.ite_none_right_eq_some] at h
        obtain ⟨rfl, rfl⟩ := Prod.mk.inj (Option.some.inj h.2)
        rw [measure_of_skipSpaces hμ hskip, tokenMeasure, weightOfEntries, Nat.zero_add]
      · next hskip =>
        rw [Option.ite_none_right_eq_some] at h
        -- an entry: its key, its value, and those after it
        obtain ⟨⟨key, later⟩, hkey, h⟩ := Option.bind_eq_some_iff.mp h.2
        obtain ⟨⟨value, last⟩, hvalue, h⟩ := Option.bind_eq_some_iff.mp h
        obtain ⟨⟨entries, final⟩, hentries, hresult⟩ := Option.map_eq_some_iff.mp h
        obtain ⟨rfl, rfl⟩ := Prod.mk.inj hresult
        rw [measure_of_skipSpaces hμ hskip, tokenMeasure, measure_readText hkey,
          (ih _ _).1 value hvalue, (ih _ _).2.2 entries hentries]
        simp only [weightOfEntries]
        omega
      · cases h

end Parse

section Render

variable {depth : Nat} {name text : List Char} {p : PropertyList (List Char)}

/-- Lower case names cost nothing. -/
theorem markupCost_of_mem_name (h : name.all Char.isLower = true) :
    textMeasure markupCost name = 0 := by
  rw [textMeasure, List.sum_eq_zero_iff_forall_eq_nat]
  intro n hn
  obtain ⟨c, hc, rfl⟩ := List.mem_map.mp hn
  have hlower := List.all_eq_true.mp h c hc
  refine if_neg ?_
  rintro (rfl | rfl | rfl | rfl | rfl) <;> exact absurd hlower (by decide)

/-- White space and digits cost nothing. -/
theorem ofMarkup_markupCost : OfMarkup markupCost := by
  constructor <;> intro c hc <;> refine if_neg ?_ <;>
    rintro (rfl | rfl | rfl | rfl | rfl) <;> exact absurd hc (by decide)

/-- White space and digits are not special. -/
theorem ofMarkup_special : OfMarkup special := by
  have hspecial : ∀ c, c ≠ '<' ∧ c ≠ '&' → special c = 0 := fun c h => if_pos (isPlain_iff.mpr h)
  constructor <;> intro c hc <;> refine hspecial c ⟨?_, ?_⟩ <;> rintro rfl <;>
    exact absurd hc (by decide)

/-- A line costs what is in it. -/
theorem markupCost_line (depth : Nat) (text : List Char) :
    textMeasure markupCost (line depth text) = textMeasure markupCost text := by
  have hspaces : textMeasure markupCost (List.replicate (4 * depth) ' ') = 0 := by
    simp [textMeasure, ofMarkup_markupCost.1 ' ' rfl]
  have hnewline : markupCost '\n' = 0 := rfl
  simp [line, hspaces, hnewline]

/-- An element costs one, and what its text costs. -/
theorem markupCost_element (h : name.all Char.isLower = true) (text : List Char) :
    textMeasure markupCost (element name text) = textMeasure markupCost text + 1 := by
  have hchars : markupCost '<' = 0 ∧ markupCost '>' = 0 ∧ markupCost '/' = 1 := ⟨rfl, rfl, rfl⟩
  simp [element, opening, closing, markupCost_of_mem_name h, hchars.1, hchars.2.1, hchars.2.2]

/-- Lines between tags cost one, and what they cost. -/
theorem markupCost_block (depth : Nat) (h : name.all Char.isLower = true) {isEmpty : Bool}
    (hempty : isEmpty = true → textMeasure markupCost text = 0) :
    textMeasure markupCost (block depth name isEmpty text) = textMeasure markupCost text + 1 := by
  have hchars : markupCost '<' = 0 ∧ markupCost '>' = 0 ∧ markupCost '/' = 1 := ⟨rfl, rfl, rfl⟩
  rw [block]
  cases isEmpty with
  | true =>
    rw [if_pos rfl, markupCost_line, hempty rfl]
    simp [emptyElement, markupCost_of_mem_name h, hchars.1, hchars.2.1, hchars.2.2]
  | false =>
    rw [if_neg Bool.false_ne_true, textMeasure_append, textMeasure_append, markupCost_line,
      markupCost_line]
    simp [opening, closing, markupCost_of_mem_name h, hchars.1, hchars.2.1, hchars.2.2]

mutual

/-- **A property list costs** what its texts cost, and one for each element. -/
theorem markupCost_render (depth : Nat) : ∀ p : PropertyList (List Char),
    textMeasure markupCost (render depth p) = weight markupCost 1 (textMeasure markupCost) p
  | .string s => by rw [render, markupCost_line, markupCost_element (by decide), weight]
  | .integer n => by
    have hdigits : textMeasure markupCost (Nat.toDigits 10 n) = 0 := by
      rw [textMeasure, List.sum_eq_zero_iff_forall_eq_nat]
      intro m hm
      obtain ⟨c, hc, rfl⟩ := List.mem_map.mp hm
      exact ofMarkup_markupCost.2 c (Nat.isDigit_of_mem_toDigits (by decide) (by decide) hc)
    rw [render, markupCost_line, markupCost_element (by decide), hdigits, weight]
  | .bool b => by
    rw [render, markupCost_line, weight]
    cases b <;> rfl
  | .data d => by rw [render, markupCost_line, markupCost_element (by decide), weight]
  | .array items => by
    have hempty : items.isEmpty = true →
        textMeasure markupCost (renderItems (depth + 1) items) = 0 := by
      intro hnil
      rw [List.isEmpty_iff.mp hnil, renderItems, textMeasure_nil]
    rw [render, markupCost_block depth (by decide) hempty,
      markupCost_renderItems (depth + 1) items, weight]
  | .dict entries => by
    have hempty : entries.isEmpty = true →
        textMeasure markupCost (renderEntries (depth + 1) entries) = 0 := by
      intro hnil
      rw [List.isEmpty_iff.mp hnil, renderEntries, textMeasure_nil]
    rw [render, markupCost_block depth (by decide) hempty,
      markupCost_renderEntries (depth + 1) entries, weight]

/-- Items. -/
theorem markupCost_renderItems (depth : Nat) : ∀ items : List (PropertyList (List Char)),
    textMeasure markupCost (renderItems depth items) =
      weightOfItems markupCost 1 (textMeasure markupCost) items
  | [] => rfl
  | item :: items => by
    rw [renderItems, textMeasure_append, markupCost_render depth item,
      markupCost_renderItems depth items, weightOfItems]

/-- Entries. -/
theorem markupCost_renderEntries (depth : Nat) :
    ∀ entries : List (List Char × PropertyList (List Char)),
      textMeasure markupCost (renderEntries depth entries) =
        weightOfEntries markupCost 1 (textMeasure markupCost) entries
  | [] => rfl
  | (key, value) :: entries => by
    rw [renderEntries, textMeasure_append, textMeasure_append, markupCost_line,
      markupCost_element (by decide), markupCost_render depth value,
      markupCost_renderEntries depth entries, weightOfEntries]

end

end Render

section Map

variable {ζ : Type} {μ : Char → Nat} {k : Nat} {f g : List Char → List Char} {φ : δ → ε}
  {γ : δ → ζ} {old : ε → Nat} {new : ζ → Nat}

mutual

/-- Texts of the same measure in the place of others. -/
theorem weight_map_congr : ∀ p : PropertyList δ,
    (∀ s ∈ texts p, textMeasure μ (f s) = textMeasure μ (g s)) →
    (∀ d ∈ dataOf p, old (φ d) = new (γ d)) →
      weight μ k old (map f φ p) = weight μ k new (map g γ p)
  | .string s, htexts, _ => by rw [map, map, weight, weight, htexts s List.mem_cons_self]
  | .integer _, _, _ => rfl
  | .bool _, _, _ => rfl
  | .data d, _, hdata => by rw [map, map, weight, weight, hdata d List.mem_cons_self]
  | .array items, htexts, hdata => by
    rw [map, map, weight, weight, weightOfItems_map_congr items htexts hdata]
  | .dict entries, htexts, hdata => by
    rw [map, map, weight, weight, weightOfEntries_map_congr entries htexts hdata]

/-- Texts in items. -/
theorem weightOfItems_map_congr : ∀ items : List (PropertyList δ),
    (∀ s ∈ textsOfItems items, textMeasure μ (f s) = textMeasure μ (g s)) →
    (∀ d ∈ dataOfItems items, old (φ d) = new (γ d)) →
      weightOfItems μ k old (mapItems f φ items) = weightOfItems μ k new (mapItems g γ items)
  | [], _, _ => rfl
  | item :: items, htexts, hdata => by
    rw [textsOfItems, List.forall_mem_append] at htexts
    rw [dataOfItems, List.forall_mem_append] at hdata
    rw [mapItems, mapItems, weightOfItems, weightOfItems,
      weight_map_congr item htexts.1 hdata.1, weightOfItems_map_congr items htexts.2 hdata.2]

/-- Texts in entries. -/
theorem weightOfEntries_map_congr : ∀ entries : List (List Char × PropertyList δ),
    (∀ s ∈ textsOfEntries entries, textMeasure μ (f s) = textMeasure μ (g s)) →
    (∀ d ∈ dataOfEntries entries, old (φ d) = new (γ d)) →
      weightOfEntries μ k old (mapEntries f φ entries) =
        weightOfEntries μ k new (mapEntries g γ entries)
  | [], _, _ => rfl
  | (key, value) :: entries, htexts, hdata => by
    rw [textsOfEntries, List.forall_mem_cons, List.forall_mem_append] at htexts
    rw [dataOfEntries, List.forall_mem_append] at hdata
    rw [mapEntries, mapEntries, weightOfEntries, weightOfEntries, htexts.1,
      weight_map_congr value htexts.2.1 hdata.1,
      weightOfEntries_map_congr entries htexts.2.2 hdata.2]

end

mutual

/-- A text counts for what it is part of. -/
theorem textMeasure_le_weight_map {s : List Char} : ∀ p : PropertyList δ, s ∈ texts p →
    textMeasure μ (g s) ≤ weight μ k new (map g γ p)
  | .string s', h => by
    obtain rfl := List.mem_singleton.mp h
    rw [map, weight]
    exact Nat.le_add_right _ _
  | .array items, h => by
    have hitems := textMeasure_le_weightOfItems_map items h
    rw [map, weight]
    omega
  | .dict entries, h => by
    have hentries := textMeasure_le_weightOfEntries_map entries h
    rw [map, weight]
    omega

/-- A text in items. -/
theorem textMeasure_le_weightOfItems_map {s : List Char} : ∀ items : List (PropertyList δ),
    s ∈ textsOfItems items → textMeasure μ (g s) ≤ weightOfItems μ k new (mapItems g γ items)
  | item :: items, h => by
    rw [mapItems, weightOfItems]
    rcases List.mem_append.mp h with hitem | hitems
    · have hle := textMeasure_le_weight_map item hitem
      omega
    · have hle := textMeasure_le_weightOfItems_map items hitems
      omega

/-- A text in entries. -/
theorem textMeasure_le_weightOfEntries_map {s : List Char} :
    ∀ entries : List (List Char × PropertyList δ), s ∈ textsOfEntries entries →
      textMeasure μ (g s) ≤ weightOfEntries μ k new (mapEntries g γ entries)
  | (key, value) :: entries, h => by
    rw [mapEntries, weightOfEntries]
    rcases List.mem_cons.mp h with rfl | h
    · omega
    · rcases List.mem_append.mp h with hvalue | hentries
      · have hle := textMeasure_le_weight_map value hvalue
        omega
      · have hle := textMeasure_le_weightOfEntries_map entries hentries
        omega

end

end Map

section Document

/-- What is parsed behind the header has the measure of its tokens. -/
theorem measure_of_parse {μ : Char → Nat} (hμ : OfMarkup μ) (k : Nat) {body : List Token}
    {q : PropertyList (List UInt8)}
    (h : parse ([.char '\n', .doctype, .char '\n', .openTag "plist".toList, .char '\n'] ++ body) =
      some q) : measure μ k body = weight μ k (bytesMeasure μ) q + k := by
  have hskip : skipDoctype ([.char '\n', .doctype, .char '\n', .openTag "plist".toList,
      .char '\n'] ++ body) = .openTag "plist".toList :: .char '\n' :: body := rfl
  rw [parse, hskip] at h
  simp only [if_true] at h
  obtain ⟨⟨value, rest⟩, hvalue, h⟩ := Option.bind_eq_some_iff.mp h
  rw [parseValue_congr (skipSpaces_newline body)] at hvalue
  split at h
  · next closed later hclose =>
    rw [Option.ite_none_right_eq_some] at h
    obtain ⟨⟨-, hend⟩, hvalueq⟩ := h
    obtain rfl := Option.some.inj hvalueq
    have hlater : measure μ k later = 0 := by rw [← measure_skipSpaces hμ, hend, measure_nil]
    rw [(measure_parse hμ _ body rest).1 value hvalue, measure_of_skipSpaces hμ hclose, hlater]
    rfl
  · cases h

/-- **No special character is read** from a document in which every text costs what is read for
it. -/
theorem isPlain_of_read_document {f g : List Char → List Char} {φ : δ → List Char}
    {γ : δ → List UInt8} {p : PropertyList δ}
    (hread : read (document (map f φ p)) = some (map g γ p))
    (htexts : ∀ s ∈ texts p, textMeasure markupCost (f s) = textMeasure markupCost (g s))
    (hdata : ∀ d ∈ dataOf p, textMeasure markupCost (φ d) = bytesMeasure markupCost (γ d)) :
    ∀ s ∈ texts p, ∀ c ∈ g s, isPlain c = true := by
  rw [read, lex, document, lexes_header, Option.bind_some] at hread
  obtain ⟨tokens, hlex, hparse⟩ := Option.bind_eq_some_iff.mp hread
  obtain ⟨body, hbody, rfl⟩ := Option.map_eq_some_iff.mp hlex
  obtain ⟨-, hcost⟩ := lexFrom_costs hbody
  have hfooter : textMeasure markupCost footer = 1 := by decide +kernel
  rw [measure_of_parse ofMarkup_markupCost 1 hparse,
    measure_of_parse ofMarkup_special 0 hparse, textMeasure_append, markupCost_render, hfooter,
    weight_map_congr p htexts hdata] at hcost
  intro s hs c hc
  by_contra hspecial
  -- the document would have to be longer than it is
  have hpos : 0 < textMeasure special (g s) := by
    refine List.sum_pos_iff_exists_pos_nat.mpr ⟨special c, List.mem_map_of_mem hc, ?_⟩
    rw [special, if_neg hspecial]
    exact Nat.one_pos
  have hle : textMeasure special (g s) ≤ weight special 0 (bytesMeasure special) (map g γ p) :=
    textMeasure_le_weight_map p hs
  have hzero : credit .content = 0 ∧ paid .content = 0 := ⟨rfl, rfl⟩
  omega

end Document

end IOSDeviceManager.General.PropertyList
