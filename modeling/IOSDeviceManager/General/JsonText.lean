import IOSDeviceManager.General.Hexadecimal

/-! # The tokens of JSON text

A machine reads the text character by character and puts tokens out: punctuation, strings, numbers
and the three words. A string may be spelled in more than one way. Whatever follows a token, the
token is read from its spelling, and text without a backslash has no string in it that would need
one. -/

namespace IOSDeviceManager.General.Json

open Hexadecimal

/-! ## Numbers -/

/-- How far a number has been read. -/
inductive NumberPart where
  | start
  | minus
  | zero
  | integer
  | point
  | fraction
  | exponent
  | sign
  | power
  deriving DecidableEq, Repr

namespace NumberPart

/-- What follows the integral part of a number. -/
def afterInteger (c : Char) : Option NumberPart :=
  if c = '.' then some point else if c = 'e' ∨ c = 'E' then some exponent else none

/-- A number is read further. -/
def next (c : Char) : NumberPart → Option NumberPart
  | start =>
      if c = '-' then some minus
      else if c = '0' then some zero
      else if c.isDigit then some integer else none
  | minus => if c = '0' then some zero else if c.isDigit then some integer else none
  | zero => afterInteger c
  | integer => if c.isDigit then some integer else afterInteger c
  | point => if c.isDigit then some fraction else none
  | fraction =>
      if c.isDigit then some fraction
      else if c = 'e' ∨ c = 'E' then some exponent else none
  | exponent =>
      if c = '+' ∨ c = '-' then some sign else if c.isDigit then some power else none
  | sign | power => if c.isDigit then some power else none

/-- A number may end here. -/
def isComplete : NumberPart → Bool
  | zero | integer | fraction | power => true
  | _ => false

/-- The rest of a number. -/
def completes : NumberPart → List Char → Bool
  | part, [] => part.isComplete
  | part, c :: cs =>
      match part.next c with
      | none => false
      | some part => part.completes cs

end NumberPart

/-- The grammar of numbers. -/
def isNumber (cs : List Char) : Bool :=
  NumberPart.start.completes cs

/-- A number, as the literal that is printed for it. -/
abbrev NumberLiteral : Type :=
  { cs : List Char // isNumber cs = true }

/-- The characters of numbers and of the words `true`, `false` and `null`. -/
def isWordChar (c : Char) : Bool :=
  c.isAlphanum || c == '-' || c == '+' || c == '.'

/-! ## Strings -/

/-- The characters that a string may hold only as an escape. -/
def isControl (c : Char) : Bool :=
  decide (c.toNat < 0x20)

/-- The character stands for itself in every spelling of a string, except perhaps for `/`. -/
def isPlain (c : Char) : Bool :=
  c != '"' && c != '\\' && !isControl c

/-- The spelling of a character that escapes `/` as well. -/
def escapeChar (c : Char) : List Char :=
  match c with
  | '"' => ['\\', '"']
  | '\\' => ['\\', '\\']
  | '/' => ['\\', '/']
  | '\n' => ['\\', 'n']
  | '\r' => ['\\', 'r']
  | '\t' => ['\\', 't']
  | '\x08' => ['\\', 'b']
  | '\x0c' => ['\\', 'f']
  | c =>
      if isControl c then
        ['\\', 'u', '0', '0', lowerDigit (c.toNat / 16), lowerDigit (c.toNat % 16)]
      else [c]

/-- The spelling of a string that escapes `/` as well. -/
def escape (cs : List Char) : List Char :=
  cs.flatMap escapeChar

/-- The character of a short escape. -/
def unescape : Char → Option Char
  | '"' => some '"'
  | '\\' => some '\\'
  | '/' => some '/'
  | 'n' => some '\n'
  | 'r' => some '\r'
  | 't' => some '\t'
  | 'b' => some '\x08'
  | 'f' => some '\x0c'
  | _ => none

/-! ## The machine -/

/-- The tokens. -/
inductive Token where
  | openArray
  | closeArray
  | openObject
  | closeObject
  | comma
  | colon
  | string (s : String)
  | number (n : NumberLiteral)
  | bool (b : Bool)
  | null
  deriving DecidableEq

/-- The state of the machine, with the characters of the token it is in. -/
inductive LexState where
  | between
  | word (cs : List Char)
  | string (cs : List Char)
  | escape (cs : List Char)
  /-- In the four digits of an escape, the second of a surrogate pair after `high`. -/
  | unicode (cs : List Char) (high : Option Nat) (value left : Nat)
  /-- After the first escape of a surrogate pair. -/
  | lowEscape (cs : List Char) (high : Nat)
  | lowUnicode (cs : List Char) (high : Nat)
  deriving DecidableEq

/-- What a step of the machine puts out, and the state it goes to. -/
abbrev LexResult : Type :=
  Option (List Token × LexState)

/-- The token of a word. -/
def wordToken (cs : List Char) : Option Token :=
  if h : isNumber cs = true then some (.number ⟨cs, h⟩)
  else if cs = "true".toList then some (.bool true)
  else if cs = "false".toList then some (.bool false)
  else if cs = "null".toList then some .null
  else none

/-- A step between tokens. -/
def stepBetween (c : Char) : LexResult :=
  match c with
  | ' ' | '\n' | '\r' | '\t' => some ([], .between)
  | '[' => some ([.openArray], .between)
  | ']' => some ([.closeArray], .between)
  | '\x7b' => some ([.openObject], .between)
  | '\x7d' => some ([.closeObject], .between)
  | ',' => some ([.comma], .between)
  | ':' => some ([.colon], .between)
  | '"' => some ([], .string [])
  | c => if isWordChar c then some ([], .word [c]) else none

/-- A step in a word. The character after it is read as between tokens. -/
def stepWord (cs : List Char) (c : Char) : LexResult :=
  if isWordChar c then some ([], .word (cs ++ [c]))
  else
    match wordToken cs, stepBetween c with
    | some token, some (tokens, state) => some (token :: tokens, state)
    | _, _ => none

/-- The end of four hexadecimal digits: a character, or half of a surrogate pair. -/
def unicodeEnd (cs : List Char) (high : Option Nat) (value : Nat) : LexResult :=
  match high with
  | none =>
      if 0xD800 ≤ value ∧ value < 0xDC00 then some ([], .lowEscape cs value)
      else if 0xDC00 ≤ value ∧ value < 0xE000 then none
      else some ([], .string (cs ++ [Char.ofNat value]))
  | some high =>
      if 0xDC00 ≤ value ∧ value < 0xE000 then
        some ([], .string
          (cs ++ [Char.ofNat (0x10000 + (high - 0xD800) * 0x400 + (value - 0xDC00))]))
      else none

/-- A step of the machine. -/
def lexStep (state : LexState) (c : Char) : LexResult :=
  match state with
  | .between => stepBetween c
  | .word cs => stepWord cs c
  | .string cs =>
      if c = '"' then some ([.string (String.ofList cs)], .between)
      else if c = '\\' then some ([], .escape cs)
      else if isControl c then none
      else some ([], .string (cs ++ [c]))
  | .escape cs =>
      if c = 'u' then some ([], .unicode cs none 0 4)
      else (unescape c).map fun character => ([], .string (cs ++ [character]))
  | .unicode cs high value left =>
      match digitValue c with
      | none => none
      | some digit =>
          if left = 1 then unicodeEnd cs high (16 * value + digit)
          else some ([], .unicode cs high (16 * value + digit) (left - 1))
  | .lowEscape cs high => if c = '\\' then some ([], .lowUnicode cs high) else none
  | .lowUnicode cs high => if c = 'u' then some ([], .unicode cs (some high) 0 4) else none

/-- The end of the text. -/
def lexEnd : LexState → Option (List Token)
  | .between => some []
  | .word cs => (wordToken cs).map fun token => [token]
  | _ => none

/-- The tokens of a text, from a state on. -/
def lexFrom (state : LexState) : List Char → Option (List Token)
  | [] => lexEnd state
  | c :: cs =>
      match lexStep state c with
      | none => none
      | some (tokens, state) => (lexFrom state cs).map (tokens ++ ·)

/-- The tokens of a text. -/
def lex (cs : List Char) : Option (List Token) :=
  lexFrom .between cs

attribute [local simp] lexStep

variable {state later : LexState} {tokens : List Token} {cs rest text s : List Char} {c : Char}

/-- A step, and the rest of the text. -/
theorem lexFrom_cons (h : lexStep state c = some (tokens, later)) (cs : List Char) :
    lexFrom state (c :: cs) = (lexFrom later cs).map (tokens ++ ·) := by
  rw [lexFrom, h]

/-- A step that puts nothing out. -/
theorem lexFrom_cons_silent (h : lexStep state c = some ([], later)) (cs : List Char) :
    lexFrom state (c :: cs) = lexFrom later cs := by
  rw [lexFrom_cons h]
  exact Option.map_id'

/-! ## Reading strings -/

/-- A text spells characters: in a string, they are read from it. -/
def Spells (text s : List Char) : Prop :=
  ∀ cs rest, lexFrom (.string cs) (text ++ rest) = lexFrom (.string (cs ++ s)) rest

theorem spells_nil : Spells [] [] := by
  intro cs rest
  rw [List.nil_append, List.append_nil]

/-- Spellings are put together. -/
theorem Spells.append {other t : List Char} (h : Spells text s) (hother : Spells other t) :
    Spells (text ++ other) (s ++ t) := by
  intro cs rest
  rw [List.append_assoc, h, hother, List.append_assoc]

/-- A plain character is spelled as it is. -/
theorem spells_plain (h : isPlain c = true) : Spells [c] [c] := by
  intro cs rest
  simp only [isPlain, Bool.and_eq_true, bne_iff_ne, Bool.not_eq_true'] at h
  obtain ⟨⟨hquote, hbackslash⟩, hcontrol⟩ := h
  apply lexFrom_cons_silent
  rw [lexStep, if_neg hquote, if_neg hbackslash, if_neg (by simp [hcontrol])]

/-- A short escape. -/
theorem spells_unescape {short : Char} (hu : short ≠ 'u') (h : unescape short = some c) :
    Spells ['\\', short] [c] := by
  intro cs rest
  have hstart : lexStep (.string cs) '\\' = some ([], .escape cs) := rfl
  have hend : lexStep (.escape cs) short = some ([], .string (cs ++ [c])) := by
    rw [lexStep, if_neg hu, h]
    rfl
  exact (lexFrom_cons_silent hstart _).trans (lexFrom_cons_silent hend _)

/-- The escape of a control character with four digits. -/
theorem spells_unicode (h : c.toNat < 0x20) :
    Spells ['\\', 'u', '0', '0', lowerDigit (c.toNat / 16), lowerDigit (c.toNat % 16)] [c] := by
  intro cs rest
  have hhigh : digitValue (lowerDigit (c.toNat / 16)) = some (c.toNat / 16) :=
    (digitValue_lowerDigit (by omega)).1
  have hlow : digitValue (lowerDigit (c.toNat % 16)) = some (c.toNat % 16) :=
    (digitValue_lowerDigit (by omega)).1
  have hzero : digitValue '0' = some 0 := by decide
  have hvalue : 16 * (c.toNat / 16) + c.toNat % 16 = c.toNat := Nat.div_add_mod _ 16
  have hend : unicodeEnd cs none c.toNat = some ([], .string (cs ++ [c])) := by
    rw [unicodeEnd, if_neg (by omega), if_neg (by omega), Char.ofNat_toNat]
  have hstart : lexStep (.string cs) '\\' = some ([], .escape cs) := rfl
  have hu : lexStep (.escape cs) 'u' = some ([], .unicode cs none 0 4) := rfl
  have hfirst : lexStep (.unicode cs none 0 4) '0' = some ([], .unicode cs none 0 3) := by
    simp [hzero]
  have hsecond : lexStep (.unicode cs none 0 3) '0' = some ([], .unicode cs none 0 2) := by
    simp [hzero]
  have hthird : lexStep (.unicode cs none 0 2) (lowerDigit (c.toNat / 16)) =
      some ([], .unicode cs none (c.toNat / 16) 1) := by simp [hhigh]
  have hfourth : lexStep (.unicode cs none (c.toNat / 16) 1) (lowerDigit (c.toNat % 16)) =
      some ([], .string (cs ++ [c])) := by simp [hlow, hvalue, hend]
  simp only [List.cons_append, List.nil_append]
  rw [lexFrom_cons_silent hstart, lexFrom_cons_silent hu, lexFrom_cons_silent hfirst,
    lexFrom_cons_silent hsecond, lexFrom_cons_silent hthird, lexFrom_cons_silent hfourth]

/-- Every character is spelled by its escape. -/
theorem spells_escapeChar (c : Char) : Spells (escapeChar c) [c] := by
  unfold escapeChar
  split
  · exact spells_unescape (by decide) rfl
  · exact spells_unescape (by decide) rfl
  · exact spells_unescape (by decide) rfl
  · exact spells_unescape (by decide) rfl
  · exact spells_unescape (by decide) rfl
  · exact spells_unescape (by decide) rfl
  · exact spells_unescape (by decide) rfl
  · exact spells_unescape (by decide) rfl
  · next c hquote hbackslash _ _ _ _ _ _ =>
    split
    · next hcontrol => exact spells_unicode (by simpa [isControl] using hcontrol)
    · next hcontrol =>
      apply spells_plain
      simp only [isPlain, Bool.and_eq_true, bne_iff_ne, Bool.not_eq_true']
      exact ⟨⟨hquote, hbackslash⟩, Bool.eq_false_iff.mpr hcontrol⟩

/-- **Every string is spelled by its escape.** -/
theorem spells_escape (s : List Char) : Spells (escape s) s := by
  induction s with
  | nil => exact spells_nil
  | cons c s ih => exact (spells_escapeChar c).append ih

/-- **A plain string is spelled as it is.** -/
theorem spells_self (h : ∀ c ∈ s, isPlain c = true) : Spells s s := by
  induction s with
  | nil => exact spells_nil
  | cons c s ih =>
    rw [List.forall_mem_cons] at h
    exact (spells_plain h.1).append (ih h.2)

/-- **A string in quotes** is read from its spelling. -/
theorem lexFrom_quoted (h : Spells text s) (rest : List Char) :
    lexFrom .between ('"' :: (text ++ '"' :: rest)) =
      (lexFrom .between rest).map (.string (String.ofList s) :: ·) := by
  have hopen : lexStep .between '"' = some ([], .string []) := rfl
  rw [lexFrom_cons_silent hopen, h [], List.nil_append]
  have hclose : lexStep (.string s) '"' =
    some ([.string (String.ofList s)], .between) := by rw [lexStep, if_pos rfl]
  exact lexFrom_cons hclose rest

/-! ## Reading words -/

/-- The characters that may continue a number are those of words. -/
theorem isWordChar_of_next {part next : NumberPart} (h : part.next c = some next) :
    isWordChar c = true := by
  by_contra hno
  have hdigit : ¬ c.isDigit = true := fun hc => hno (by simp [isWordChar, Char.isAlphanum, hc])
  have hminus : c ≠ '-' := fun hc => hno (by rw [hc]; decide)
  have hplus : c ≠ '+' := fun hc => hno (by rw [hc]; decide)
  have hpoint : c ≠ '.' := fun hc => hno (by rw [hc]; decide)
  have hlower : c ≠ 'e' := fun hc => hno (by rw [hc]; decide)
  have hupper : c ≠ 'E' := fun hc => hno (by rw [hc]; decide)
  have hzero : c ≠ '0' := fun hc => hno (by rw [hc]; decide)
  cases part <;>
    simp [NumberPart.next, NumberPart.afterInteger, hdigit, hminus, hplus, hpoint, hlower, hupper,
      hzero] at h

/-- The characters of numbers are those of words. -/
theorem forall_isWordChar_of_completes {part : NumberPart} (h : part.completes cs = true) :
    ∀ c ∈ cs, isWordChar c = true := by
  induction cs generalizing part with
  | nil => simp
  | cons c cs ih =>
    rw [NumberPart.completes] at h
    split at h
    · cases h
    · next next hnext => exact List.forall_mem_cons.mpr ⟨isWordChar_of_next hnext, ih h⟩

/-- The text does not go on with a character of a word. -/
def EndsWord : List Char → Prop
  | [] => True
  | c :: _ => isWordChar c = false

/-- A character of a word starts one. -/
theorem stepBetween_of_isWordChar (h : isWordChar c = true) :
    stepBetween c = some ([], .word [c]) := by
  unfold stepBetween
  split
  all_goals first | exact absurd h (by decide) | rw [if_pos h]

/-- The characters of a word are read. -/
theorem lexFrom_word_append {word : List Char} (hword : ∀ c ∈ word, isWordChar c = true)
    (cs rest : List Char) :
    lexFrom (.word cs) (word ++ rest) = lexFrom (.word (cs ++ word)) rest := by
  induction word generalizing cs with
  | nil => rw [List.nil_append, List.append_nil]
  | cons c word ih =>
    rw [List.forall_mem_cons] at hword
    have hstep : lexStep (.word cs) c = some ([], .word (cs ++ [c])) := by
      rw [lexStep, stepWord, if_pos hword.1]
    rw [List.cons_append, lexFrom_cons_silent hstep, ih hword.2, List.append_assoc,
      List.singleton_append]

/-- The end of a word. -/
theorem lexFrom_word_end {token : Token} (htoken : wordToken cs = some token)
    (hrest : EndsWord rest) :
    lexFrom (.word cs) rest = (lexFrom .between rest).map (token :: ·) := by
  cases rest with
  | nil => simp [lexFrom, lexEnd, htoken]
  | cons c rest =>
    have hno : ¬ isWordChar c = true := by simpa [EndsWord] using hrest
    rw [lexFrom, lexFrom, lexStep, lexStep, stepWord, if_neg hno, htoken]
    cases stepBetween c with
    | none => rfl
    | some result => simp [Function.comp_def]

/-- **A word** is read, if the text does not go on with one. -/
theorem lexFrom_word {word : List Char} {token : Token} (hne : word ≠ [])
    (hword : ∀ c ∈ word, isWordChar c = true) (htoken : wordToken word = some token)
    (hrest : EndsWord rest) :
    lexFrom .between (word ++ rest) = (lexFrom .between rest).map (token :: ·) := by
  obtain ⟨c, cs, rfl⟩ := List.exists_cons_of_ne_nil hne
  rw [List.forall_mem_cons] at hword
  have hstart : lexStep .between c = some ([], .word [c]) := stepBetween_of_isWordChar hword.1
  rw [List.cons_append, lexFrom_cons_silent hstart, lexFrom_word_append hword.2,
    List.singleton_append, lexFrom_word_end htoken hrest]

/-- The literal of a number is read. -/
theorem lexFrom_number (n : NumberLiteral) (hrest : EndsWord rest) :
    lexFrom .between (n.1 ++ rest) = (lexFrom .between rest).map (.number n :: ·) := by
  have hne : n.1 ≠ [] := by
    intro hnil
    have hempty : isNumber [] = true := hnil ▸ n.2
    cases hempty
  exact lexFrom_word hne (forall_isWordChar_of_completes n.2) (dif_pos n.2) hrest

/-! ## Text without a backslash -/

/-- A string of this token would need no escape. -/
def Token.IsPlain : Token → Prop
  | string s => ∀ c ∈ s.toList, isPlain c = true
  | _ => True

/-- The states between the characters of a text without a backslash. -/
def LexState.IsPlain : LexState → Prop
  | between | word _ => True
  | string cs => ∀ c ∈ cs, isPlain c = true
  | _ => False

/-- What is put out between tokens is plain. -/
theorem isPlain_of_stepBetween (h : stepBetween c = some (tokens, later)) :
    (∀ token ∈ tokens, token.IsPlain) ∧ later.IsPlain := by
  unfold stepBetween at h
  split at h
  case h_12 =>
    split at h
    · cases h
      exact ⟨by simp, trivial⟩
    · cases h
  all_goals
    cases h
    simp [Token.IsPlain, LexState.IsPlain]

/-- The token of a word is plain. -/
theorem isPlain_of_wordToken {token : Token} (h : wordToken cs = some token) : token.IsPlain := by
  unfold wordToken at h
  repeat' split at h
  all_goals
    cases h
    try trivial

/-- **A step** on another character than a backslash keeps the state plain. -/
theorem isPlain_of_lexStep (hstate : state.IsPlain) (hc : c ≠ '\\')
    (h : lexStep state c = some (tokens, later)) :
    (∀ token ∈ tokens, token.IsPlain) ∧ later.IsPlain := by
  cases state with
  | between => exact isPlain_of_stepBetween h
  | word cs =>
    simp only [lexStep, stepWord] at h
    split at h
    · cases h
      exact ⟨by simp, trivial⟩
    · split at h
      · next token rest state htoken hbetween =>
        obtain ⟨htokens, hlater⟩ := isPlain_of_stepBetween hbetween
        cases h
        exact ⟨List.forall_mem_cons.mpr ⟨isPlain_of_wordToken htoken, htokens⟩, hlater⟩
      · cases h
  | string cs =>
    simp only [lexStep, hc, if_false] at h
    split at h
    · cases h
      have htoken : (Token.string (String.ofList cs)).IsPlain := by
        rw [Token.IsPlain, String.toList_ofList]
        exact hstate
      exact ⟨by simpa using htoken, trivial⟩
    · next hquote =>
      split at h
      · cases h
      · next hcontrol =>
        cases h
        refine ⟨by simp, ?_⟩
        intro character hmem
        rcases List.mem_append.mp hmem with hmem | hmem
        · exact hstate character hmem
        · rw [List.mem_singleton.mp hmem]
          simp [isPlain, hquote, hc, hcontrol]
  -- in an escape a state is not plain
  | escape cs => exact hstate.elim
  | unicode cs high value left => exact hstate.elim
  | lowEscape cs high => exact hstate.elim
  | lowUnicode cs high => exact hstate.elim

/-- **Text without a backslash** has plain strings only. By induction on the text, each step from
the one before. -/
theorem isPlain_of_lexFrom (hstate : state.IsPlain) (hcs : '\\' ∉ cs)
    (h : lexFrom state cs = some tokens) : ∀ token ∈ tokens, token.IsPlain := by
  induction cs generalizing state tokens with
  | nil =>
    cases state with
    | between =>
      cases h
      simp
    | word cs =>
      obtain ⟨token, htoken, rfl⟩ := Option.map_eq_some_iff.mp h
      simpa using isPlain_of_wordToken htoken
    | string cs => cases h
    | escape cs => cases h
    | unicode cs high value left => cases h
    | lowEscape cs high => cases h
    | lowUnicode cs high => cases h
  | cons c cs ih =>
    rw [List.mem_cons, not_or] at hcs
    rw [lexFrom] at h
    split at h
    · cases h
    · next first later hstep =>
      obtain ⟨rest, hrest, rfl⟩ := Option.map_eq_some_iff.mp h
      obtain ⟨hfirst, hlater⟩ := isPlain_of_lexStep hstate (fun hc => hcs.1 hc.symm) hstep
      intro token hmem
      rcases List.mem_append.mp hmem with hmem | hmem
      · exact hfirst token hmem
      · exact ih hlater hcs.2 hrest token hmem

end IOSDeviceManager.General.Json
