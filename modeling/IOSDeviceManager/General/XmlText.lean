import IOSDeviceManager.General.Hexadecimal

/-! # The tokens of XML text

A machine reads the text character by character and puts tags and characters out. Text without `<`
stands for the characters that its references stand for. -/

namespace IOSDeviceManager.General.Xml

/-- The tokens; attributes are not looked at. -/
inductive Token where
  | openTag (name : List Char)
  | closeTag (name : List Char)
  | emptyTag (name : List Char)
  | char (c : Char)
  | doctype
  deriving DecidableEq

/-! ## References -/

/-- The characters of the name in a reference. -/
def isReferenceChar (c : Char) : Bool :=
  c.isAlphanum || c == '#'

/-- The number that digits stand for. -/
def number (base : Nat) : List Char → Nat → Option Nat
  | [], value => some value
  | c :: cs, value =>
      match Hexadecimal.digitValue c with
      | none => none
      | some digit => if digit < base then number base cs (base * value + digit) else none

/-- The character of a number. -/
def characterOf (value : Option Nat) : Option Char :=
  value.bind fun n => if n.isValidChar then some (Char.ofNat n) else none

/-- The character that a reference stands for. -/
def referenceChar (name : List Char) : Option Char :=
  if name = "lt".toList then some '<'
  else if name = "gt".toList then some '>'
  else if name = "amp".toList then some '&'
  else if name = "apos".toList then some '\''
  else if name = "quot".toList then some '"'
  else
    match name with
    | '#' :: 'x' :: c :: cs => characterOf (number 16 (c :: cs) 0)
    | '#' :: c :: cs => characterOf (number 10 (c :: cs) 0)
    | _ => none

/-- What text without markup stands for; `name` is that of the reference the text starts in. -/
def characterDataFrom : Option (List Char) → List Char → Option (List Char)
  | none, [] => some []
  | some _, [] => none
  | none, c :: cs =>
      if c = '<' then none
      else if c = '&' then characterDataFrom (some []) cs
      else (characterDataFrom none cs).map (c :: ·)
  | some name, c :: cs =>
      if c = ';' then
        match referenceChar name with
        | none => none
        | some character => (characterDataFrom none cs).map (character :: ·)
      else if isReferenceChar c then characterDataFrom (some (name ++ [c])) cs
      else none

/-- The characters that a text stands for. -/
def characterData (text : List Char) : Option (List Char) :=
  characterDataFrom none text

/-! ## The machine -/

/-- The state of the machine. -/
inductive LexState where
  | content
  | reference (name : List Char)
  /-- After `<`. -/
  | markup
  /-- After `<!`. -/
  | declaration (cs : List Char)
  | comment (dashes : Nat)
  | cdata (brackets : Nat)
  | doctype (quote : Option Char)
  | instruction (question : Bool)
  | tagName (name : List Char)
  | attributes (name : List Char) (quote : Option Char) (slash : Bool)
  | closeTag (name : List Char)
  | closeSpace (name : List Char)
  deriving DecidableEq

/-- What a step of the machine puts out, and the state it goes to. -/
abbrev LexResult : Type :=
  Option (List Token × LexState)

/-- White space. -/
def isSpace (c : Char) : Bool :=
  c == ' ' || c == '\n' || c == '\r' || c == '\t'

/-- The characters of names. -/
def isNameChar (c : Char) : Bool :=
  c.isAlphanum || c == '_' || c == '-' || c == '.' || c == ':'

/-- A step in character data. -/
def stepContent (c : Char) : LexResult :=
  if c = '<' then some ([], .markup)
  else if c = '&' then some ([], .reference [])
  else some ([.char c], .content)

/-- A step in a reference. -/
def stepReference (name : List Char) (c : Char) : LexResult :=
  if c = ';' then (referenceChar name).map fun character => ([.char character], .content)
  else if isReferenceChar c then some ([], .reference (name ++ [c]))
  else none

/-- A step after `<`. -/
def stepMarkup (c : Char) : LexResult :=
  if c = '/' then some ([], .closeTag [])
  else if c = '!' then some ([], .declaration [])
  else if c = '?' then some ([], .instruction false)
  else if isNameChar c then some ([], .tagName [c])
  else none

/-- A step after `<!`: a comment, a section of characters or a document type. -/
def stepDeclaration (cs : List Char) (c : Char) : LexResult :=
  if cs ++ [c] = "--".toList then some ([], .comment 0)
  else if cs ++ [c] = "[CDATA[".toList then some ([], .cdata 0)
  else if cs ++ [c] = "DOCTYPE".toList then some ([.doctype], .doctype none)
  else if (cs ++ [c]).isPrefixOf "--".toList || (cs ++ [c]).isPrefixOf "[CDATA[".toList ||
      (cs ++ [c]).isPrefixOf "DOCTYPE".toList then some ([], .declaration (cs ++ [c]))
  else none

/-- A step in a section of characters; brackets are held back, as they may end it. -/
def stepCdata (brackets : Nat) (c : Char) : LexResult :=
  if c = ']' then
    if brackets = 2 then some ([.char ']'], .cdata 2) else some ([], .cdata (brackets + 1))
  else if c = '>' ∧ brackets = 2 then some ([], .content)
  else some (List.replicate brackets (.char ']') ++ [.char c], .cdata 0)

/-- A step in a document type. -/
def stepDoctype (quote : Option Char) (c : Char) : LexResult :=
  match quote with
  | some q => some ([], .doctype (if c = q then none else some q))
  | none =>
      if c = '>' then some ([], .content)
      else if c = '"' ∨ c = '\'' then some ([], .doctype (some c))
      else if c = '[' ∨ c = '<' then none
      else some ([], .doctype none)

/-- A step behind the name in a tag. -/
def stepAttributes (name : List Char) (quote : Option Char) (slash : Bool) (c : Char) : LexResult :=
  match quote with
  | some q => some ([], .attributes name (if c = q then none else some q) false)
  | none =>
      if c = '>' then some ([if slash then .emptyTag name else .openTag name], .content)
      else if c = '/' then some ([], .attributes name none true)
      else if c = '"' ∨ c = '\'' then some ([], .attributes name (some c) false)
      else if c = '<' then none
      else some ([], .attributes name none false)

/-- A step of the machine. -/
def lexStep (state : LexState) (c : Char) : LexResult :=
  match state with
  | .content => stepContent c
  | .reference name => stepReference name c
  | .markup => stepMarkup c
  | .declaration cs => stepDeclaration cs c
  | .comment dashes =>
      if c = '-' then some ([], .comment (dashes + 1))
      else if c = '>' ∧ 2 ≤ dashes then some ([], .content)
      else some ([], .comment 0)
  | .cdata brackets => stepCdata brackets c
  | .doctype quote => stepDoctype quote c
  | .instruction question =>
      if c = '>' ∧ question = true then some ([], .content)
      else some ([], .instruction (c == '?'))
  | .tagName name =>
      if isNameChar c then some ([], .tagName (name ++ [c]))
      else if isSpace c ∨ c = '/' ∨ c = '>' then stepAttributes name none false c
      else none
  | .attributes name quote slash => stepAttributes name quote slash c
  | .closeTag name =>
      if isNameChar c then some ([], .closeTag (name ++ [c]))
      else if c = '>' then some ([.closeTag name], .content)
      else if isSpace c then some ([], .closeSpace name)
      else none
  | .closeSpace name =>
      if c = '>' then some ([.closeTag name], .content)
      else if isSpace c then some ([], .closeSpace name)
      else none

/-- The tokens of a text, from a state on. It ends in character data. -/
def lexFrom (state : LexState) : List Char → Option (List Token)
  | [] => if state = .content then some [] else none
  | c :: cs =>
      match lexStep state c with
      | none => none
      | some (tokens, state) => (lexFrom state cs).map (tokens ++ ·)

/-- The tokens of a text. -/
def lex (cs : List Char) : Option (List Token) :=
  lexFrom .content cs

variable {state later : LexState} {tokens : List Token} {cs rest text name : List Char} {c : Char}

/-- A step, and the rest of the text. -/
theorem lexFrom_cons (h : lexStep state c = some (tokens, later)) (cs : List Char) :
    lexFrom state (c :: cs) = (lexFrom later cs).map (tokens ++ ·) := by
  rw [lexFrom, h]

/-- A step that puts nothing out. -/
theorem lexFrom_cons_silent (h : lexStep state c = some ([], later)) (cs : List Char) :
    lexFrom state (c :: cs) = lexFrom later cs := by
  rw [lexFrom_cons h]
  exact Option.map_id'

/-- What the machine puts out along a text, and the state it is then in. -/
def lexRun (state : LexState) : List Char → Option (List Token × LexState)
  | [] => some ([], state)
  | c :: cs =>
      match lexStep state c with
      | none => none
      | some (tokens, state) =>
          (lexRun state cs).map fun result => (tokens ++ result.1, result.2)

/-- A text that the machine is led through as a whole. -/
theorem lexFrom_append (h : lexRun state text = some (tokens, later)) (rest : List Char) :
    lexFrom state (text ++ rest) = (lexFrom later rest).map (tokens ++ ·) := by
  induction text generalizing state tokens with
  | nil =>
    obtain ⟨rfl, rfl⟩ := Prod.mk.inj (Option.some.inj h)
    exact Option.map_id'.symm
  | cons c text ih =>
    rw [lexRun] at h
    split at h
    · cases h
    · next first next hstep =>
      obtain ⟨⟨last, final⟩, hrun, hresult⟩ := Option.map_eq_some_iff.mp h
      obtain ⟨rfl, rfl⟩ := Prod.mk.inj hresult
      rw [List.cons_append, lexFrom_cons hstep, ih hrun]
      simp [Function.comp_def]

/-! ## Reading character data -/

/-- The character stands for itself. -/
def isPlain (c : Char) : Bool :=
  c != '<' && c != '&'

theorem isPlain_iff : isPlain c = true ↔ c ≠ '<' ∧ c ≠ '&' := by
  simp [isPlain]

/-- A plain character is put out. -/
theorem lexFrom_plain_cons (h : isPlain c = true) (cs : List Char) :
    lexFrom .content (c :: cs) = (lexFrom .content cs).map (.char c :: ·) := by
  obtain ⟨hlt, hamp⟩ := isPlain_iff.mp h
  have hstep : lexStep .content c = some ([.char c], .content) := by
    rw [lexStep, stepContent, if_neg hlt, if_neg hamp]
  exact lexFrom_cons hstep cs

/-- Plain text is put out. -/
theorem lexFrom_plain_append (h : ∀ c ∈ text, isPlain c = true) (rest : List Char) :
    lexFrom .content (text ++ rest) = (lexFrom .content rest).map (text.map .char ++ ·) := by
  induction text with
  | nil => exact Option.map_id'.symm
  | cons c text ih =>
    rw [List.forall_mem_cons] at h
    rw [List.cons_append, lexFrom_plain_cons h.1, ih h.2]
    simp [Function.comp_def]

/-- The state in which character data is read, in a reference or not. -/
def dataState : Option (List Char) → LexState
  | none => .content
  | some name => .reference name

/-- **Character data up to the next tag** is read as what it stands for. -/
theorem lexFrom_characterData (reference : Option (List Char)) (htext : '<' ∉ text)
    (rest : List Char) :
    lexFrom (dataState reference) (text ++ '<' :: rest) =
      (characterDataFrom reference text).bind fun cs =>
        (lexFrom .content ('<' :: rest)).map (cs.map .char ++ ·) := by
  induction text generalizing reference with
  | nil =>
    cases reference with
    | none => exact Option.map_id'.symm
    | some name =>
      -- a reference that is not closed
      have hstep : lexStep (.reference name) '<' = none := rfl
      rw [List.nil_append, dataState, lexFrom, hstep]
      rfl
  | cons c text ih =>
    rw [List.mem_cons, not_or] at htext
    have hlt : c ≠ '<' := fun heq => htext.1 heq.symm
    rw [List.cons_append]
    cases reference with
    | none =>
      rw [characterDataFrom, if_neg hlt]
      by_cases hamp : c = '&'
      · subst hamp
        have hstep : lexStep .content '&' = some ([], .reference []) := rfl
        rw [dataState, lexFrom_cons_silent hstep, if_pos rfl]
        exact ih (some []) htext.2
      · rw [dataState, lexFrom_plain_cons (isPlain_iff.mpr ⟨hlt, hamp⟩), if_neg hamp]
        have hrest := ih none htext.2
        rw [dataState] at hrest
        rw [hrest]
        cases characterDataFrom none text <;> simp [Function.comp_def]
    | some name =>
      rw [characterDataFrom, dataState, lexFrom, lexStep, stepReference]
      by_cases hend : c = ';'
      · rw [if_pos hend, if_pos hend]
        cases referenceChar name with
        | none => rfl
        | some character =>
          have hrest := ih none htext.2
          rw [dataState] at hrest
          simp only [Option.map_some, hrest]
          cases characterDataFrom none text <;> simp [Function.comp_def]
      · rw [if_neg hend, if_neg hend]
        by_cases hchar : isReferenceChar c = true
        · rw [if_pos hchar, if_pos hchar]
          have hrest := ih (some (name ++ [c])) htext.2
          rw [dataState] at hrest
          simp [hrest]
        · rw [if_neg hchar, if_neg hchar]
          rfl

/-- Plain text stands for itself. -/
theorem characterData_plain (h : ∀ c ∈ text, isPlain c = true) : characterData text = some text := by
  unfold characterData
  induction text with
  | nil => rfl
  | cons c text ih =>
    rw [List.forall_mem_cons] at h
    obtain ⟨hlt, hamp⟩ := isPlain_iff.mp h.1
    rw [characterDataFrom, if_neg hlt, if_neg hamp, ih h.2, Option.map_some]

/-- Character data contains no tag. -/
theorem not_mem_of_characterDataFrom {reference : Option (List Char)}
    (h : characterDataFrom reference text = some cs) : '<' ∉ text := by
  induction text generalizing reference cs with
  | nil => exact List.not_mem_nil
  | cons c text ih =>
    rw [List.mem_cons, not_or]
    cases reference with
    | none =>
      rw [characterDataFrom] at h
      split at h
      · cases h
      · next hlt =>
        refine ⟨fun heq => hlt heq.symm, ?_⟩
        split at h
        · exact ih h
        · obtain ⟨rest, hrest, -⟩ := Option.map_eq_some_iff.mp h
          exact ih hrest
    | some name =>
      rw [characterDataFrom] at h
      split at h
      · next hend =>
        refine ⟨fun heq => absurd (heq.trans hend) (by decide), ?_⟩
        split at h
        · cases h
        · obtain ⟨rest, hrest, -⟩ := Option.map_eq_some_iff.mp h
          exact ih hrest
      · rw [Option.ite_none_right_eq_some] at h
        exact ⟨fun heq => absurd (heq ▸ h.1) (by decide), ih h.2⟩

/-! ## Reading tags -/

/-- The characters of a name that has begun. -/
theorem lexFrom_tagName (hname : ∀ c ∈ name, isNameChar c = true) (cs rest : List Char) :
    lexFrom (.tagName cs) (name ++ rest) = lexFrom (.tagName (cs ++ name)) rest := by
  induction name generalizing cs with
  | nil => rw [List.nil_append, List.append_nil]
  | cons c name ih =>
    rw [List.forall_mem_cons] at hname
    have hstep : lexStep (.tagName cs) c = some ([], .tagName (cs ++ [c])) := by
      rw [lexStep, if_pos hname.1]
    rw [List.cons_append, lexFrom_cons_silent hstep, ih hname.2, List.append_assoc,
      List.singleton_append]

/-- The characters of the name in a closing tag. -/
theorem lexFrom_closeName (hname : ∀ c ∈ name, isNameChar c = true) (cs rest : List Char) :
    lexFrom (.closeTag cs) (name ++ rest) = lexFrom (.closeTag (cs ++ name)) rest := by
  induction name generalizing cs with
  | nil => rw [List.nil_append, List.append_nil]
  | cons c name ih =>
    rw [List.forall_mem_cons] at hname
    have hstep : lexStep (.closeTag cs) c = some ([], .closeTag (cs ++ [c])) := by
      rw [lexStep, if_pos hname.1]
    rw [List.cons_append, lexFrom_cons_silent hstep, ih hname.2, List.append_assoc,
      List.singleton_append]

/-- The first character of a tag does not make it anything else. -/
theorem lexStep_markup (h : isNameChar c = true) :
    lexStep .markup c = some ([], .tagName [c]) := by
  have hslash : c ≠ '/' := fun heq => absurd h (by rw [heq]; decide)
  have hbang : c ≠ '!' := fun heq => absurd h (by rw [heq]; decide)
  have hquestion : c ≠ '?' := fun heq => absurd h (by rw [heq]; decide)
  rw [lexStep, stepMarkup, if_neg hslash, if_neg hbang, if_neg hquestion, if_pos h]

/-- The names of tags. -/
def IsTagName (name : List Char) : Prop :=
  name ≠ [] ∧ ∀ c ∈ name, isNameChar c = true

instance : Decidable (IsTagName name) :=
  decidable_of_iff (name ≠ [] ∧ name.all isNameChar = true)
    (and_congr_right fun _ => List.all_eq_true)

/-- **An opening tag.** -/
theorem lexFrom_openTag (hne : name ≠ []) (hname : ∀ c ∈ name, isNameChar c = true)
    (rest : List Char) : lexFrom .content ('<' :: (name ++ '>' :: rest)) =
      (lexFrom .content rest).map (.openTag name :: ·) := by
  obtain ⟨c, cs, rfl⟩ := List.exists_cons_of_ne_nil hne
  rw [List.forall_mem_cons] at hname
  have hstart : lexStep .content '<' = some ([], .markup) := rfl
  have hend : lexStep (.tagName (c :: cs)) '>' = some ([.openTag (c :: cs)], .content) := rfl
  rw [lexFrom_cons_silent hstart, List.cons_append, lexFrom_cons_silent (lexStep_markup hname.1),
    lexFrom_tagName hname.2, List.singleton_append, lexFrom_cons hend]
  rfl

/-- **The tag of an empty element.** -/
theorem lexFrom_emptyTag (hne : name ≠ []) (hname : ∀ c ∈ name, isNameChar c = true)
    (rest : List Char) : lexFrom .content ('<' :: (name ++ '/' :: '>' :: rest)) =
      (lexFrom .content rest).map (.emptyTag name :: ·) := by
  obtain ⟨c, cs, rfl⟩ := List.exists_cons_of_ne_nil hne
  rw [List.forall_mem_cons] at hname
  have hstart : lexStep .content '<' = some ([], .markup) := rfl
  have hslash : lexStep (.tagName (c :: cs)) '/' =
      some ([], .attributes (c :: cs) none true) := rfl
  have hend : lexStep (.attributes (c :: cs) none true) '>' =
      some ([.emptyTag (c :: cs)], .content) := rfl
  rw [lexFrom_cons_silent hstart, List.cons_append, lexFrom_cons_silent (lexStep_markup hname.1),
    lexFrom_tagName hname.2, List.singleton_append, lexFrom_cons_silent hslash, lexFrom_cons hend]
  rfl

/-- **A closing tag.** -/
theorem lexFrom_closeTag (hname : ∀ c ∈ name, isNameChar c = true) (rest : List Char) :
    lexFrom .content ('<' :: '/' :: (name ++ '>' :: rest)) =
      (lexFrom .content rest).map (.closeTag name :: ·) := by
  have hstart : lexStep .content '<' = some ([], .markup) := rfl
  have hslash : lexStep .markup '/' = some ([], .closeTag []) := rfl
  have hend : lexStep (.closeTag name) '>' = some ([.closeTag name], .content) := rfl
  rw [lexFrom_cons_silent hstart, lexFrom_cons_silent hslash, lexFrom_closeName hname,
    List.nil_append, lexFrom_cons hend]
  rfl

/-! ## Texts that are read apart from what follows them -/

/-- Whatever follows the text, these are its tokens, if it has any. -/
def Lexes (text : List Char) (tokens : Option (List Token)) : Prop :=
  ∀ rest, lexFrom .content (text ++ rest) =
    tokens.bind fun ts => (lexFrom .content rest).map (ts ++ ·)

/-- Two texts, one behind the other. -/
theorem Lexes.append {first second : List Char} {ts us : Option (List Token)}
    (hfirst : Lexes first ts) (hsecond : Lexes second us) :
    Lexes (first ++ second) (ts.bind fun ts => us.map (ts ++ ·)) := by
  intro rest
  rw [List.append_assoc, hfirst, hsecond]
  cases ts <;> cases us <;> simp [Function.comp_def]

/-- Plain text. -/
theorem lexes_plain (h : ∀ c ∈ text, isPlain c = true) : Lexes text (some (text.map .char)) :=
  lexFrom_plain_append h

/-- An opening tag. -/
theorem lexes_openTag (hne : name ≠ []) (hname : ∀ c ∈ name, isNameChar c = true) :
    Lexes ('<' :: (name ++ ['>'])) (some [.openTag name]) := by
  intro rest
  rw [List.cons_append, List.append_assoc]
  exact lexFrom_openTag hne hname rest

/-- The tag of an empty element. -/
theorem lexes_emptyTag (hne : name ≠ []) (hname : ∀ c ∈ name, isNameChar c = true) :
    Lexes ('<' :: (name ++ ['/', '>'])) (some [.emptyTag name]) := by
  intro rest
  rw [List.cons_append, List.append_assoc]
  exact lexFrom_emptyTag hne hname rest

/-- Character data and the closing tag behind it. -/
theorem lexes_characterData (htext : '<' ∉ text) (hname : ∀ c ∈ name, isNameChar c = true) :
    Lexes (text ++ '<' :: '/' :: (name ++ ['>']))
      ((characterData text).map fun cs => cs.map .char ++ [.closeTag name]) := by
  intro rest
  have hclose := lexFrom_closeTag hname rest
  rw [List.append_assoc, List.cons_append, List.cons_append, List.append_assoc,
    List.singleton_append]
  have hdata := lexFrom_characterData none htext ('/' :: (name ++ '>' :: rest))
  rw [dataState, hclose] at hdata
  rw [hdata, characterData]
  cases characterDataFrom none text <;> simp [Function.comp_def]

/-- A text that the machine is led through as a whole. -/
theorem lexes_of_lexRun (h : lexRun .content text = some (tokens, .content)) :
    Lexes text (some tokens) :=
  lexFrom_append h

end IOSDeviceManager.General.Xml
