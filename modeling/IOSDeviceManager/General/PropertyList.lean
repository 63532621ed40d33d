import IOSDeviceManager.General.Base64
import IOSDeviceManager.General.XmlText

/-! # XML property lists

Property lists are written over several lines, the texts in them as they are, and read back by way
of the tokens of XML. As long as no text contains a `<`, what is read is what the texts stand for as
character data, and nothing else is read. -/

namespace IOSDeviceManager.General

open Xml

/-- A property list whose data are of type `δ`: the characters between the tags, or the bytes. -/
inductive PropertyList (δ : Type) where
  | string (s : List Char)
  | integer (n : Nat)
  | bool (b : Bool)
  | data (d : δ)
  | array (items : List (PropertyList δ))
  | dict (entries : List (List Char × PropertyList δ))

namespace PropertyList

variable {δ ε : Type}

mutual

/-- Another text in the place of each, and other data. -/
def map (text : List Char → List Char) (datum : δ → ε) : PropertyList δ → PropertyList ε
  | .string s => .string (text s)
  | .integer n => .integer n
  | .bool b => .bool b
  | .data d => .data (datum d)
  | .array items => .array (mapItems text datum items)
  | .dict entries => .dict (mapEntries text datum entries)

/-- Another text in the place of each text of the items. -/
def mapItems (text : List Char → List Char) (datum : δ → ε) :
    List (PropertyList δ) → List (PropertyList ε)
  | [] => []
  | item :: items => map text datum item :: mapItems text datum items

/-- Another text in the place of each text of the entries, keys among them. -/
def mapEntries (text : List Char → List Char) (datum : δ → ε) :
    List (List Char × PropertyList δ) → List (List Char × PropertyList ε)
  | [] => []
  | (key, value) :: entries =>
      (text key, map text datum value) :: mapEntries text datum entries

end

mutual

/-- What texts and data stand for, if all stand for something. -/
def interpret (text : List Char → Option (List Char)) (datum : δ → Option ε) :
    PropertyList δ → Option (PropertyList ε)
  | .string s => (text s).map .string
  | .integer n => some (.integer n)
  | .bool b => some (.bool b)
  | .data d => (datum d).map .data
  | .array items => (interpretItems text datum items).map .array
  | .dict entries => (interpretEntries text datum entries).map .dict

/-- What the texts and the data in the items stand for. -/
def interpretItems (text : List Char → Option (List Char)) (datum : δ → Option ε) :
    List (PropertyList δ) → Option (List (PropertyList ε))
  | [] => some []
  | item :: items =>
      (interpret text datum item).bind fun item =>
        (interpretItems text datum items).map (item :: ·)

/-- What the texts and the data in the entries stand for. -/
def interpretEntries (text : List Char → Option (List Char)) (datum : δ → Option ε) :
    List (List Char × PropertyList δ) → Option (List (List Char × PropertyList ε))
  | [] => some []
  | (key, value) :: entries =>
      (text key).bind fun key => (interpret text datum value).bind fun value =>
        (interpretEntries text datum entries).map ((key, value) :: ·)

end

mutual

/-- The strings and the keys of a property list. -/
def texts : PropertyList δ → List (List Char)
  | .string s => [s]
  | .integer _ | .bool _ | .data _ => []
  | .array items => textsOfItems items
  | .dict entries => textsOfEntries entries

/-- The strings and the keys in items. -/
def textsOfItems : List (PropertyList δ) → List (List Char)
  | [] => []
  | item :: items => texts item ++ textsOfItems items

/-- The keys of entries, and the strings and the keys in them. -/
def textsOfEntries : List (List Char × PropertyList δ) → List (List Char)
  | [] => []
  | (key, value) :: entries => key :: (texts value ++ textsOfEntries entries)

end

mutual

/-- The data of a property list. -/
def dataOf : PropertyList δ → List δ
  | .string _ | .integer _ | .bool _ => []
  | .data d => [d]
  | .array items => dataOfItems items
  | .dict entries => dataOfEntries entries

/-- The data in items. -/
def dataOfItems : List (PropertyList δ) → List δ
  | [] => []
  | item :: items => dataOf item ++ dataOfItems items

/-- The data in entries. -/
def dataOfEntries : List (List Char × PropertyList δ) → List δ
  | [] => []
  | (_, value) :: entries => dataOf value ++ dataOfEntries entries

end

/-! ## Writing -/

/-- An opening tag. -/
def opening (name : List Char) : List Char :=
  '<' :: (name ++ ['>'])

/-- A closing tag. -/
def closing (name : List Char) : List Char :=
  '<' :: '/' :: (name ++ ['>'])

/-- The tag of an empty element. -/
def emptyElement (name : List Char) : List Char :=
  '<' :: (name ++ ['/', '>'])

/-- A text between tags. -/
def element (name text : List Char) : List Char :=
  opening name ++ (text ++ closing name)

/-- A line at a depth. -/
def line (depth : Nat) (text : List Char) : List Char :=
  List.replicate (4 * depth) ' ' ++ (text ++ ['\n'])

/-- Lines between tags on lines of their own. -/
def block (depth : Nat) (name : List Char) (isEmpty : Bool) (inner : List Char) : List Char :=
  if isEmpty then line depth (emptyElement name)
  else line depth (opening name) ++ (inner ++ line depth (closing name))

/-- The name of the element of a truth value. -/
def boolName (b : Bool) : List Char :=
  if b then "true".toList else "false".toList

mutual

/-- The lines of a property list, the texts as they are. -/
def render (depth : Nat) : PropertyList (List Char) → List Char
  | .string s => line depth (element "string".toList s)
  | .integer n => line depth (element "integer".toList (Nat.toDigits 10 n))
  | .bool b => line depth (emptyElement (boolName b))
  | .data d => line depth (element "data".toList d)
  | .array items =>
      block depth "array".toList items.isEmpty (renderItems (depth + 1) items)
  | .dict entries =>
      block depth "dict".toList entries.isEmpty (renderEntries (depth + 1) entries)

/-- The lines of items. -/
def renderItems (depth : Nat) : List (PropertyList (List Char)) → List Char
  | [] => []
  | item :: items => render depth item ++ renderItems depth items

/-- The lines of entries, those of a value behind the one of its key. -/
def renderEntries (depth : Nat) : List (List Char × PropertyList (List Char)) → List Char
  | [] => []
  | (key, value) :: entries =>
      line depth (element "key".toList key) ++ (render depth value ++ renderEntries depth entries)

end

/-- Items, one list behind the other. -/
theorem renderItems_append (depth : Nat) (items others : List (PropertyList (List Char))) :
    renderItems depth (items ++ others) = renderItems depth items ++ renderItems depth others := by
  induction items with
  | nil => rfl
  | cons item items ih => rw [List.cons_append, renderItems, ih, renderItems, List.append_assoc]

/-- Entries, one list behind the other. -/
theorem renderEntries_append (depth : Nat)
    (entries others : List (List Char × PropertyList (List Char))) :
    renderEntries depth (entries ++ others) =
      renderEntries depth entries ++ renderEntries depth others := by
  induction entries with
  | nil => rfl
  | cons entry entries ih =>
    obtain ⟨key, value⟩ := entry
    rw [List.cons_append, renderEntries, ih, renderEntries, List.append_assoc, List.append_assoc]

/-! ## Tokens -/

/-- The tokens of a text between tags. -/
def elementTokens (name text : List Char) : List Token :=
  .openTag name :: (text.map .char ++ [.closeTag name])

/-- The tokens of a line. -/
def lineTokens (depth : Nat) (tokens : List Token) : List Token :=
  List.replicate (4 * depth) (.char ' ') ++ (tokens ++ [.char '\n'])

/-- The tokens of lines between tags. -/
def blockTokens (depth : Nat) (name : List Char) (isEmpty : Bool) (inner : List Token) :
    List Token :=
  if isEmpty then lineTokens depth [.emptyTag name]
  else lineTokens depth [.openTag name] ++ (inner ++ lineTokens depth [.closeTag name])

mutual

/-- The tokens of a property list whose texts are what they stand for. -/
def tokens (depth : Nat) : PropertyList (List Char) → List Token
  | .string s => lineTokens depth (elementTokens "string".toList s)
  | .integer n => lineTokens depth (elementTokens "integer".toList (Nat.toDigits 10 n))
  | .bool b => lineTokens depth [.emptyTag (boolName b)]
  | .data d => lineTokens depth (elementTokens "data".toList d)
  | .array items =>
      blockTokens depth "array".toList items.isEmpty (tokensOfItems (depth + 1) items)
  | .dict entries =>
      blockTokens depth "dict".toList entries.isEmpty (tokensOfEntries (depth + 1) entries)

/-- The tokens of items. -/
def tokensOfItems (depth : Nat) : List (PropertyList (List Char)) → List Token
  | [] => []
  | item :: items => tokens depth item ++ tokensOfItems depth items

/-- The tokens of entries. -/
def tokensOfEntries (depth : Nat) : List (List Char × PropertyList (List Char)) → List Token
  | [] => []
  | (key, value) :: entries =>
      lineTokens depth (elementTokens "key".toList key) ++
        (tokens depth value ++ tokensOfEntries depth entries)

end

/-! ## Reading -/

/-- The tokens behind white space. -/
def skipSpaces : List Token → List Token
  | .char c :: rest => if isSpace c then skipSpaces rest else .char c :: rest
  | tokens => tokens

/-- The text up to a closing tag, and the tokens behind it. -/
def readText (name : List Char) : List Token → Option (List Char × List Token)
  | .char c :: rest => (readText name rest).map fun result => (c :: result.1, result.2)
  | .closeTag closed :: rest => if closed = name then some ([], rest) else none
  | _ => none

/-- The bytes that the text of data stands for. -/
def bytesOf (text : List Char) : Option (List UInt8) :=
  Base64.decode (text.filter fun c => !isSpace c)

/-- The number that digits stand for. -/
def integerOf (text : List Char) : Option Nat :=
  if text ≠ [] ∧ text.all Char.isDigit then some (Nat.ofDigitChars 10 text 0) else none

/-- An element with a text. Of numbers only those that are not negative are read. -/
def leaf (name text : List Char) : Option (PropertyList (List UInt8)) :=
  if name = "string".toList then some (.string text)
  else if name = "integer".toList then (integerOf text).map .integer
  else if name = "data".toList then (bytesOf text).map .data
  else if name = "true".toList ∧ text = [] then some (.bool true)
  else if name = "false".toList ∧ text = [] then some (.bool false)
  else none

/-- An empty element. -/
def emptyValue (name : List Char) : Option (PropertyList (List UInt8)) :=
  if name = "array".toList then some (.array [])
  else if name = "dict".toList then some (.dict [])
  else leaf name []

mutual

/-- A property list at the front, and the tokens behind it. -/
def parseValue : Nat → List Token → Option (PropertyList (List UInt8) × List Token)
  | 0, _ => none
  | fuel + 1, tokens =>
      match skipSpaces tokens with
      | .emptyTag name :: rest => (emptyValue name).map fun value => (value, rest)
      | .openTag name :: rest =>
          if name = "array".toList then
            (parseItems fuel rest).map fun result => (.array result.1, result.2)
          else if name = "dict".toList then
            (parseEntries fuel rest).map fun result => (.dict result.1, result.2)
          else
            (readText name rest).bind fun result =>
              (leaf name result.1).map fun value => (value, result.2)
      | _ => none

/-- The items up to the end of an array. -/
def parseItems : Nat → List Token → Option (List (PropertyList (List UInt8)) × List Token)
  | 0, _ => none
  | fuel + 1, tokens =>
      match skipSpaces tokens with
      | .closeTag name :: rest => if name = "array".toList then some ([], rest) else none
      | tokens =>
          (parseValue fuel tokens).bind fun value =>
            (parseItems fuel value.2).map fun items => (value.1 :: items.1, items.2)

/-- The entries up to the end of a dictionary. -/
def parseEntries :
    Nat → List Token → Option (List (List Char × PropertyList (List UInt8)) × List Token)
  | 0, _ => none
  | fuel + 1, tokens =>
      match skipSpaces tokens with
      | .closeTag name :: rest => if name = "dict".toList then some ([], rest) else none
      | .openTag name :: rest =>
          if name = "key".toList then
            (readText name rest).bind fun key => (parseValue fuel key.2).bind fun value =>
              (parseEntries fuel value.2).map fun entries =>
                ((key.1, value.1) :: entries.1, entries.2)
          else none
      | _ => none

end

/-- The tokens behind a document type, where there is one. -/
def skipDoctype (tokens : List Token) : List Token :=
  match skipSpaces tokens with
  | .doctype :: rest => skipSpaces rest
  | tokens => tokens

/-- The property list of a document. -/
def parse (tokens : List Token) : Option (PropertyList (List UInt8)) :=
  match skipDoctype tokens with
  | .openTag name :: rest =>
      if name = "plist".toList then
        (parseValue rest.length rest).bind fun value =>
          match skipSpaces value.2 with
          | .closeTag closed :: rest =>
              if closed = "plist".toList ∧ skipSpaces rest = [] then some value.1 else none
          | _ => none
      else none
  | _ => none

/-- The property list that a text is read as. -/
def read (text : List Char) : Option (PropertyList (List UInt8)) :=
  (lex text).bind parse

/-! ## What there is in what is read -/

section Interpret

variable {text : List Char → Option (List Char)} {datum : δ → Option ε}

/-- Items are read as items. -/
theorem interpretItems_cons {item : PropertyList δ} {items : List (PropertyList δ)}
    {read : List (PropertyList ε)} (h : interpretItems text datum (item :: items) = some read) :
    ∃ first rest, read = first :: rest := by
  rw [interpretItems] at h
  obtain ⟨first, -, h⟩ := Option.bind_eq_some_iff.mp h
  obtain ⟨rest, -, rfl⟩ := Option.map_eq_some_iff.mp h
  exact ⟨first, rest, rfl⟩

/-- Entries are read as entries. -/
theorem interpretEntries_cons {key : List Char} {value : PropertyList δ}
    {entries : List (List Char × PropertyList δ)} {read : List (List Char × PropertyList ε)}
    (h : interpretEntries text datum ((key, value) :: entries) = some read) :
    ∃ first rest, read = first :: rest := by
  rw [interpretEntries] at h
  obtain ⟨key, -, h⟩ := Option.bind_eq_some_iff.mp h
  obtain ⟨value, -, h⟩ := Option.bind_eq_some_iff.mp h
  obtain ⟨rest, -, rfl⟩ := Option.map_eq_some_iff.mp h
  exact ⟨(key, value), rest, rfl⟩

end Interpret

/-! ## The tokens of what is written -/

section Write

variable {depth : Nat} {name text : List Char} {ts : Option (List Token)}

/-- A line. -/
theorem lexes_line (depth : Nat) (h : Lexes text ts) :
    Lexes (line depth text) (ts.map (lineTokens depth)) := by
  have hspaces : Lexes (List.replicate (4 * depth) ' ')
      (some (List.replicate (4 * depth) (.char ' '))) := by
    have hplain : ∀ c ∈ List.replicate (4 * depth) ' ', isPlain c = true := by
      intro c hc
      rw [List.eq_of_mem_replicate hc]
      rfl
    simpa using lexes_plain hplain
  have hnewline : Lexes ['\n'] (some [.char '\n']) := lexes_plain (List.forall_mem_singleton.mpr rfl)
  have hline := hspaces.append (h.append hnewline)
  rw [line]
  cases ts <;> exact hline

/-- A text between tags. -/
theorem lexes_element (hname : IsTagName name) (htext : '<' ∉ text) :
    Lexes (element name text) ((characterData text).map (elementTokens name)) := by
  have helement :=
    (lexes_openTag hname.1 hname.2).append (lexes_characterData htext hname.2)
  rw [element, opening, closing]
  cases hdata : characterData text <;> rw [hdata] at helement <;> exact helement

/-- An element without items. -/
theorem lexes_block_empty (depth : Nat) (hname : IsTagName name) :
    Lexes (block depth name true text) (some (blockTokens depth name true [])) :=
  lexes_line depth (lexes_emptyTag hname.1 hname.2)

/-- Lines between tags. -/
theorem lexes_block (depth : Nat) (hname : IsTagName name) (h : Lexes text ts) :
    Lexes (block depth name false text) (ts.map (blockTokens depth name false)) := by
  have hclose : Lexes (closing name) (some [.closeTag name]) :=
    lexes_characterData List.not_mem_nil hname.2
  have hblock := (lexes_line depth (lexes_openTag hname.1 hname.2)).append
    (h.append (lexes_line depth hclose))
  rw [block]
  cases ts <;> exact hblock

/-- The digits of a number. -/
theorem lexes_integer (depth n : Nat) :
    Lexes (line depth (element "integer".toList (Nat.toDigits 10 n)))
      (some (lineTokens depth (elementTokens "integer".toList (Nat.toDigits 10 n)))) := by
  have hdigit : ∀ c ∈ Nat.toDigits 10 n, isPlain c = true := by
    intro c hc
    have hc := Nat.isDigit_of_mem_toDigits (by decide) (by decide) hc
    have hlt : c ≠ '<' := fun heq => absurd hc (by rw [heq]; decide)
    have hamp : c ≠ '&' := fun heq => absurd hc (by rw [heq]; decide)
    exact isPlain_iff.mpr ⟨hlt, hamp⟩
  have htext : '<' ∉ Nat.toDigits 10 n := fun h => absurd (hdigit '<' h) (by decide)
  have hline := lexes_line depth
    (lexes_element (show IsTagName "integer".toList by decide) htext)
  rw [characterData_plain hdigit] at hline
  exact hline

mutual

/-- **The tokens of what is written** are those of what the texts stand for. -/
theorem lexes_render (depth : Nat) : ∀ p : PropertyList (List Char),
    (∀ s ∈ texts p, '<' ∉ s) → (∀ d ∈ dataOf p, '<' ∉ d) →
      Lexes (render depth p) ((interpret characterData characterData p).map (tokens depth))
  | .string s, htexts, _ => by
    have hname : IsTagName "string".toList := by decide
    have hline := lexes_line depth (lexes_element hname (htexts s List.mem_cons_self))
    rw [render, interpret]
    cases hs : characterData s <;> rw [hs] at hline <;> exact hline
  | .integer n, _, _ => lexes_integer depth n
  | .bool b, _, _ => by
    have hname : IsTagName (boolName b) := by cases b <;> decide
    exact lexes_line depth (lexes_emptyTag hname.1 hname.2)
  | .data d, _, hdata => by
    have hname : IsTagName "data".toList := by decide
    have hline := lexes_line depth (lexes_element hname (hdata d List.mem_cons_self))
    rw [render, interpret]
    cases hd : characterData d <;> rw [hd] at hline <;> exact hline
  | .array [], _, _ => lexes_block_empty depth (by decide)
  | .array (item :: items), htexts, hdata => by
    have hname : IsTagName "array".toList := by decide
    have hitems := lexes_block depth hname
      (lexes_renderItems (depth + 1) (item :: items) htexts hdata)
    rw [render, interpret]
    cases hread : interpretItems characterData characterData (item :: items) with
    | none => rw [hread] at hitems; exact hitems
    | some read =>
      obtain ⟨first, rest, rfl⟩ := interpretItems_cons hread
      rw [hread] at hitems
      exact hitems
  | .dict [], _, _ => lexes_block_empty depth (by decide)
  | .dict ((key, value) :: entries), htexts, hdata => by
    have hname : IsTagName "dict".toList := by decide
    have hentries := lexes_block depth hname
      (lexes_renderEntries (depth + 1) ((key, value) :: entries) htexts hdata)
    rw [render, interpret]
    cases hread : interpretEntries characterData characterData ((key, value) :: entries) with
    | none => rw [hread] at hentries; exact hentries
    | some read =>
      obtain ⟨first, rest, rfl⟩ := interpretEntries_cons hread
      rw [hread] at hentries
      exact hentries

/-- The tokens of items. -/
theorem lexes_renderItems (depth : Nat) : ∀ items : List (PropertyList (List Char)),
    (∀ s ∈ textsOfItems items, '<' ∉ s) → (∀ d ∈ dataOfItems items, '<' ∉ d) →
      Lexes (renderItems depth items)
        ((interpretItems characterData characterData items).map (tokensOfItems depth))
  | [], _, _ => lexes_plain (List.forall_mem_nil _)
  | item :: items, htexts, hdata => by
    rw [textsOfItems, List.forall_mem_append] at htexts
    rw [dataOfItems, List.forall_mem_append] at hdata
    have happend := (lexes_render depth item htexts.1 hdata.1).append
      (lexes_renderItems depth items htexts.2 hdata.2)
    rw [renderItems, interpretItems]
    cases hitem : interpret characterData characterData item <;>
      cases hitems : interpretItems characterData characterData items <;>
      rw [hitem, hitems] at happend <;> exact happend

/-- The tokens of entries. -/
theorem lexes_renderEntries (depth : Nat) :
    ∀ entries : List (List Char × PropertyList (List Char)),
      (∀ s ∈ textsOfEntries entries, '<' ∉ s) → (∀ d ∈ dataOfEntries entries, '<' ∉ d) →
        Lexes (renderEntries depth entries)
          ((interpretEntries characterData characterData entries).map (tokensOfEntries depth))
  | [], _, _ => lexes_plain (List.forall_mem_nil _)
  | (key, value) :: entries, htexts, hdata => by
    rw [textsOfEntries, List.forall_mem_cons, List.forall_mem_append] at htexts
    rw [dataOfEntries, List.forall_mem_append] at hdata
    have hname : IsTagName "key".toList := by decide
    have hkey := lexes_line depth (lexes_element hname htexts.1)
    have happend := hkey.append ((lexes_render depth value htexts.2.1 hdata.1).append
      (lexes_renderEntries depth entries htexts.2.2 hdata.2))
    rw [renderEntries, interpretEntries]
    cases htext : characterData key <;>
      cases hvalue : interpret characterData characterData value <;>
      cases hentries : interpretEntries characterData characterData entries <;>
      rw [htext, hvalue, hentries] at happend <;> exact happend

end

end Write

/-! ## Reading is by what the texts stand for -/

section Parse

variable {depth fuel : Nat} {name : List Char} {rest ts : List Token}

/-- Spaces are skipped. -/
theorem skipSpaces_replicate (n : Nat) (rest : List Token) :
    skipSpaces (List.replicate n (.char ' ') ++ rest) = skipSpaces rest := by
  induction n with
  | zero => rfl
  | succ n ih => exact ih

/-- The spaces before a line are skipped. -/
theorem skipSpaces_line (depth : Nat) (token : Token) (ts rest : List Token) :
    skipSpaces (lineTokens depth (token :: ts) ++ rest) =
      skipSpaces (token :: (ts ++ .char '\n' :: rest)) := by
  rw [lineTokens, List.append_assoc, skipSpaces_replicate]
  simp

/-- A line break is skipped. -/
theorem skipSpaces_newline (rest : List Token) :
    skipSpaces (.char '\n' :: rest) = skipSpaces rest := rfl

/-- Where white space has been skipped, there is no more. -/
theorem skipSpaces_skipSpaces (ts : List Token) : skipSpaces (skipSpaces ts) = skipSpaces ts := by
  induction ts using skipSpaces.induct with
  | case1 c rest hspace ih =>
    rw [skipSpaces, if_pos hspace]
    exact ih
  | case2 c rest hspace =>
    have hskip : skipSpaces (.char c :: rest) = .char c :: rest := by
      rw [skipSpaces, if_neg hspace]
    rw [hskip, hskip]
  | case3 ts hts =>
    have hskip : skipSpaces ts = ts := by
      rw [skipSpaces]
      exact hts
    rw [hskip, hskip]

/-- White space before a value does not matter. -/
theorem parseValue_congr (h : skipSpaces rest = skipSpaces ts) (fuel : Nat) :
    parseValue fuel rest = parseValue fuel ts := by
  cases fuel with
  | zero => rfl
  | succ fuel => rw [parseValue, parseValue, h]

/-- White space before items does not matter. -/
theorem parseItems_congr (h : skipSpaces rest = skipSpaces ts) (fuel : Nat) :
    parseItems fuel rest = parseItems fuel ts := by
  cases fuel with
  | zero => rfl
  | succ fuel => rw [parseItems, parseItems, h]

/-- White space before entries does not matter. -/
theorem parseEntries_congr (h : skipSpaces rest = skipSpaces ts) (fuel : Nat) :
    parseEntries fuel rest = parseEntries fuel ts := by
  cases fuel with
  | zero => rfl
  | succ fuel => rw [parseEntries, parseEntries, h]

/-- The text between tags. -/
theorem readText_element (name text : List Char) (rest : List Token) :
    readText name (text.map .char ++ .closeTag name :: rest) = some (text, rest) := by
  induction text with
  | nil =>
    rw [List.map_nil, List.nil_append, readText, if_pos rfl]
  | cons c text ih =>
    rw [List.map_cons, List.cons_append, readText, ih]
    rfl

/-- An element with a text is read as what it stands for. -/
theorem parseValue_element (harray : name ≠ "array".toList) (hdict : name ≠ "dict".toList)
    (depth fuel : Nat) (text : List Char) (rest : List Token) :
    parseValue (fuel + 1) (lineTokens depth (elementTokens name text) ++ rest) =
      (leaf name text).map fun value => (value, .char '\n' :: rest) := by
  have hskip : skipSpaces (lineTokens depth (elementTokens name text) ++ rest) =
      .openTag name :: (text.map .char ++ .closeTag name :: .char '\n' :: rest) := by
    rw [elementTokens, skipSpaces_line]
    simp [skipSpaces]
  rw [parseValue, hskip]
  simp only [if_neg harray, if_neg hdict, readText_element, Option.bind_some]

/-- An empty element. -/
theorem parseValue_emptyElement (depth fuel : Nat) (name : List Char) (rest : List Token) :
    parseValue (fuel + 1) (lineTokens depth [.emptyTag name] ++ rest) =
      (emptyValue name).map fun value => (value, .char '\n' :: rest) := by
  rw [parseValue, skipSpaces_line]
  rfl

/-- A property list does not start with a closing tag. -/
theorem skipSpaces_tokens_ne (depth : Nat) (p : PropertyList (List Char)) (rest later : List Token)
    (name : List Char) : skipSpaces (tokens depth p ++ rest) ≠ .closeTag name :: later := by
  cases p with
  | string s => rw [tokens, elementTokens, skipSpaces_line]; simp [skipSpaces]
  | integer n => rw [tokens, elementTokens, skipSpaces_line]; simp [skipSpaces]
  | bool b => rw [tokens, skipSpaces_line]; simp [skipSpaces]
  | data d => rw [tokens, elementTokens, skipSpaces_line]; simp [skipSpaces]
  | array items =>
    rw [tokens, blockTokens]
    cases items.isEmpty with
    | true => rw [if_pos rfl, skipSpaces_line]; simp [skipSpaces]
    | false => rw [if_neg Bool.false_ne_true, List.append_assoc, skipSpaces_line]; simp [skipSpaces]
  | dict entries =>
    rw [tokens, blockTokens]
    cases entries.isEmpty with
    | true => rw [if_pos rfl, skipSpaces_line]; simp [skipSpaces]
    | false => rw [if_neg Bool.false_ne_true, List.append_assoc, skipSpaces_line]; simp [skipSpaces]

/-- Every property list has tokens. -/
theorem length_tokens_pos (depth : Nat) (p : PropertyList (List Char)) :
    0 < (tokens depth p).length := by
  refine List.length_pos_iff.mpr fun hnil => ?_
  have hne := skipSpaces_tokens_ne depth p [.closeTag []] [] []
  rw [hnil] at hne
  exact hne rfl

/-- An item, where the array does not end. -/
theorem parseItems_value (h : ∀ name later, skipSpaces ts ≠ .closeTag name :: later) (fuel : Nat) :
    parseItems (fuel + 1) ts = (parseValue fuel ts).bind fun value =>
      (parseItems fuel value.2).map fun items => (value.1 :: items.1, items.2) := by
  rw [parseItems]
  split
  · next heq => exact absurd heq (h _ _)
  · rw [parseValue_congr (skipSpaces_skipSpaces ts)]

/-- The end of an array. -/
theorem parseItems_end (depth fuel : Nat) (rest : List Token) :
    parseItems (fuel + 1) (lineTokens depth [.closeTag "array".toList] ++ rest) =
      some ([], .char '\n' :: rest) := by
  rw [parseItems, skipSpaces_line]
  rfl

/-- The end of a dictionary. -/
theorem parseEntries_end (depth fuel : Nat) (rest : List Token) :
    parseEntries (fuel + 1) (lineTokens depth [.closeTag "dict".toList] ++ rest) =
      some ([], .char '\n' :: rest) := by
  rw [parseEntries, skipSpaces_line]
  rfl

/-- An entry: its key and its value. -/
theorem parseEntries_key (depth fuel : Nat) (key : List Char) (rest : List Token) :
    parseEntries (fuel + 1) (lineTokens depth (elementTokens "key".toList key) ++ rest) =
      (parseValue fuel rest).bind fun value => (parseEntries fuel value.2).map fun entries =>
        ((key, value.1) :: entries.1, entries.2) := by
  have hskip : skipSpaces (lineTokens depth (elementTokens "key".toList key) ++ rest) =
      .openTag "key".toList ::
        (key.map .char ++ .closeTag "key".toList :: .char '\n' :: rest) := by
    rw [elementTokens, skipSpaces_line]
    simp [skipSpaces]
  have hnewline : parseValue fuel (.char '\n' :: rest) = parseValue fuel rest :=
    parseValue_congr (skipSpaces_newline rest) fuel
  rw [parseEntries, hskip]
  simp only [if_true, readText_element, Option.bind_some, hnewline]

/-- Items between tags. -/
theorem parseValue_items (depth fuel : Nat) (inner rest : List Token) :
    parseValue (fuel + 1) (blockTokens depth "array".toList false inner ++ rest) =
      (parseItems fuel (inner ++ (lineTokens depth [.closeTag "array".toList] ++ rest))).map
        fun result => (.array result.1, result.2) := by
  have hnewline : ∀ later, parseItems fuel (.char '\n' :: later) = parseItems fuel later :=
    fun later => parseItems_congr (skipSpaces_newline later) fuel
  rw [blockTokens, if_neg Bool.false_ne_true, List.append_assoc, List.append_assoc, parseValue,
    skipSpaces_line, ← hnewline]
  rfl

/-- Entries between tags. -/
theorem parseValue_entries (depth fuel : Nat) (inner rest : List Token) :
    parseValue (fuel + 1) (blockTokens depth "dict".toList false inner ++ rest) =
      (parseEntries fuel (inner ++ (lineTokens depth [.closeTag "dict".toList] ++ rest))).map
        fun result => (.dict result.1, result.2) := by
  have hnewline : ∀ later, parseEntries fuel (.char '\n' :: later) = parseEntries fuel later :=
    fun later => parseEntries_congr (skipSpaces_newline later) fuel
  rw [blockTokens, if_neg Bool.false_ne_true, List.append_assoc, List.append_assoc, parseValue,
    skipSpaces_line, ← hnewline]
  rfl

/-- The digits of a number stand for it. -/
theorem integerOf_toDigits (n : Nat) : integerOf (Nat.toDigits 10 n) = some n := by
  have hdigits : (Nat.toDigits 10 n).all Char.isDigit = true :=
    List.all_eq_true.mpr fun c hc => Nat.isDigit_of_mem_toDigits (by decide) (by decide) hc
  rw [integerOf, if_pos ⟨Nat.toDigits_ne_nil, hdigits⟩, Nat.ofDigitChars_ten_toDigits]

mutual

/-- **The tokens of a property list are parsed** as what its data stand for. -/
theorem parseValue_tokens : ∀ (depth : Nat) (p : PropertyList (List Char)) (fuel : Nat)
    (rest : List Token), (tokens depth p).length ≤ fuel →
      parseValue fuel (tokens depth p ++ rest) =
        (interpret some bytesOf p).map fun value => (value, .char '\n' :: rest)
  | depth, p, 0, _, h => absurd h (Nat.not_le.mpr (length_tokens_pos depth p))
  | depth, .string s, fuel + 1, rest, _ => by
    rw [tokens, parseValue_element (by decide) (by decide)]
    rfl
  | depth, .integer n, fuel + 1, rest, _ => by
    have hleaf : leaf "integer".toList (Nat.toDigits 10 n) =
        (integerOf (Nat.toDigits 10 n)).map .integer := rfl
    rw [tokens, parseValue_element (by decide) (by decide), hleaf, integerOf_toDigits]
    rfl
  | depth, .bool b, fuel + 1, rest, _ => by
    rw [tokens, parseValue_emptyElement]
    cases b <;> rfl
  | depth, .data d, fuel + 1, rest, _ => by
    have hleaf : leaf "data".toList d = (bytesOf d).map .data := rfl
    rw [tokens, parseValue_element (by decide) (by decide), hleaf, interpret]
  | depth, .array [], fuel + 1, rest, _ => parseValue_emptyElement depth fuel _ rest
  | depth, .dict [], fuel + 1, rest, _ => parseValue_emptyElement depth fuel _ rest
  | depth, .array (item :: items), fuel + 1, rest, h => by
    -- the tags are tokens too, and leave fuel for the items
    have hfuel : (tokensOfItems (depth + 1) (item :: items)).length < fuel := by
      simp only [tokens, List.isEmpty_cons, blockTokens, Bool.false_eq_true, if_false,
        lineTokens, List.length_append, List.length_singleton] at h
      omega
    rw [tokens, List.isEmpty_cons, parseValue_items,
      parseItems_tokens (depth + 1) (item :: items) fuel depth rest hfuel, interpret]
    cases interpretItems some bytesOf (item :: items) <;> rfl
  | depth, .dict ((key, value) :: entries), fuel + 1, rest, h => by
    have hfuel : (tokensOfEntries (depth + 1) ((key, value) :: entries)).length < fuel := by
      simp only [tokens, List.isEmpty_cons, blockTokens, Bool.false_eq_true, if_false,
        lineTokens, List.length_append, List.length_singleton] at h
      omega
    rw [tokens, List.isEmpty_cons, parseValue_entries,
      parseEntries_tokens (depth + 1) ((key, value) :: entries) fuel depth rest hfuel, interpret]
    cases interpretEntries some bytesOf ((key, value) :: entries) <;> rfl

/-- The tokens of items are parsed up to the end of the array. -/
theorem parseItems_tokens : ∀ (depth : Nat) (items : List (PropertyList (List Char)))
    (fuel outer : Nat) (rest : List Token), (tokensOfItems depth items).length < fuel →
      parseItems fuel
          (tokensOfItems depth items ++ (lineTokens outer [.closeTag "array".toList] ++ rest)) =
        (interpretItems some bytesOf items).map fun values => (values, .char '\n' :: rest)
  | _, _, 0, _, _, h => absurd h (Nat.not_lt_zero _)
  | depth, [], fuel + 1, outer, rest, _ => parseItems_end outer fuel rest
  | depth, item :: items, fuel + 1, outer, rest, h => by
    have hlength : (tokensOfItems depth (item :: items)).length =
        (tokens depth item).length + (tokensOfItems depth items).length := by
      rw [tokensOfItems, List.length_append]
    have hpos := length_tokens_pos depth item
    have hitem : (tokens depth item).length ≤ fuel := by omega
    have hitems : (tokensOfItems depth items).length < fuel := by omega
    have hnewline : ∀ later, parseItems fuel (.char '\n' :: later) = parseItems fuel later :=
      fun later => parseItems_congr (skipSpaces_newline later) fuel
    rw [tokensOfItems, List.append_assoc,
      parseItems_value (fun name later => skipSpaces_tokens_ne depth item _ later name),
      parseValue_tokens depth item fuel _ hitem, interpretItems]
    cases interpret some bytesOf item with
    | none => rfl
    | some value =>
      simp only [Option.map_some, Option.bind_some, hnewline,
        parseItems_tokens depth items fuel outer rest hitems, Option.map_map]
      rfl

/-- The tokens of entries are parsed up to the end of the dictionary. -/
theorem parseEntries_tokens : ∀ (depth : Nat)
    (entries : List (List Char × PropertyList (List Char))) (fuel outer : Nat)
    (rest : List Token), (tokensOfEntries depth entries).length < fuel →
      parseEntries fuel
          (tokensOfEntries depth entries ++ (lineTokens outer [.closeTag "dict".toList] ++ rest)) =
        (interpretEntries some bytesOf entries).map fun values => (values, .char '\n' :: rest)
  | _, _, 0, _, _, h => absurd h (Nat.not_lt_zero _)
  | depth, [], fuel + 1, outer, rest, _ => parseEntries_end outer fuel rest
  | depth, (key, value) :: entries, fuel + 1, outer, rest, h => by
    have hlength : (tokensOfEntries depth ((key, value) :: entries)).length =
        (lineTokens depth (elementTokens "key".toList key)).length +
          ((tokens depth value).length + (tokensOfEntries depth entries).length) := by
      rw [tokensOfEntries, List.length_append, List.length_append]
    have hpos := length_tokens_pos depth value
    have hvalue : (tokens depth value).length ≤ fuel := by omega
    have hentries : (tokensOfEntries depth entries).length < fuel := by omega
    have hnewline : ∀ later, parseEntries fuel (.char '\n' :: later) = parseEntries fuel later :=
      fun later => parseEntries_congr (skipSpaces_newline later) fuel
    rw [tokensOfEntries, List.append_assoc, List.append_assoc, parseEntries_key,
      parseValue_tokens depth value fuel _ hvalue, interpretEntries]
    cases interpret some bytesOf value with
    | none => rfl
    | some read =>
      simp only [Option.map_some, Option.bind_some, hnewline,
        parseEntries_tokens depth entries fuel outer rest hentries, Option.map_map]
      rfl

end

end Parse

/-! ## Documents -/

/-- What stands before a property list in a document. -/
def header : List Char :=
  "<?xml version=\"1.0\" encoding=\"UTF-8\"?>\n".toList ++
    "<!DOCTYPE plist PUBLIC \"-//Apple//DTD PLIST 1.0//EN\" ".toList ++
    "\"http://www.apple.com/DTDs/PropertyList-1.0.dtd\">\n".toList ++
    "<plist version=\"1.0\">\n".toList

/-- What stands behind it. -/
def footer : List Char :=
  "</plist>\n".toList

/-- The document of a property list. -/
def document (p : PropertyList (List Char)) : List Char :=
  header ++ (render 0 p ++ footer)

/-- The tokens of the header. -/
theorem lexes_header : Lexes header
    (some [.char '\n', .doctype, .char '\n', .openTag "plist".toList, .char '\n']) := by
  unfold header
  rw [String.toList_ofList, String.toList_ofList, String.toList_ofList, String.toList_ofList,
    String.toList_ofList]
  exact lexes_of_lexRun (by decide +kernel)

/-- The tokens of the footer. -/
theorem lexes_footer : Lexes footer (some [.closeTag "plist".toList, .char '\n']) :=
  lexes_of_lexRun (by decide +kernel)

/-- The tokens of a document are parsed as what the data stand for. -/
theorem parse_document (p : PropertyList (List Char)) :
    parse ([.char '\n', .doctype, .char '\n', .openTag "plist".toList, .char '\n'] ++
      (tokens 0 p ++ [.closeTag "plist".toList, .char '\n'])) = interpret some bytesOf p := by
  have hskip : skipDoctype ([.char '\n', .doctype, .char '\n', .openTag "plist".toList,
        .char '\n'] ++ (tokens 0 p ++ [.closeTag "plist".toList, .char '\n'])) =
      .openTag "plist".toList ::
        .char '\n' :: (tokens 0 p ++ [.closeTag "plist".toList, .char '\n']) := rfl
  have hfuel : (tokens 0 p).length ≤
      (Token.char '\n' :: (tokens 0 p ++ [.closeTag "plist".toList, .char '\n'])).length := by
    rw [List.length_cons, List.length_append]
    omega
  rw [parse, hskip]
  simp only [if_true]
  rw [parseValue_congr (skipSpaces_newline _), parseValue_tokens 0 p _ _ hfuel]
  cases interpret some bytesOf p <;> rfl

mutual

/-- What data stand for, in two steps. -/
theorem interpret_bind {ζ : Type} (text : List Char → Option (List Char)) (first : δ → Option ε)
    (second : ε → Option ζ) : ∀ p : PropertyList δ,
      (interpret text first p).bind (interpret some second) =
        interpret text (fun d => (first d).bind second) p
  | .string s => by
    rw [interpret, interpret]
    cases text s <;> rfl
  | .integer _ => rfl
  | .bool _ => rfl
  | .data d => by
    rw [interpret, interpret]
    cases first d <;> rfl
  | .array items => by
    have hitems := interpretItems_bind text first second items
    rw [interpret, interpret, ← hitems]
    cases interpretItems text first items <;> rfl
  | .dict entries => by
    have hentries := interpretEntries_bind text first second entries
    rw [interpret, interpret, ← hentries]
    cases interpretEntries text first entries <;> rfl

/-- What the data in items stand for, in two steps. -/
theorem interpretItems_bind {ζ : Type} (text : List Char → Option (List Char))
    (first : δ → Option ε) (second : ε → Option ζ) : ∀ items : List (PropertyList δ),
      (interpretItems text first items).bind (interpretItems some second) =
        interpretItems text (fun d => (first d).bind second) items
  | [] => rfl
  | item :: items => by
    have hitem := interpret_bind text first second item
    have hitems := interpretItems_bind text first second items
    rw [interpretItems, interpretItems, ← hitem, ← hitems]
    cases interpret text first item with
    | none => rfl
    | some item =>
      cases interpretItems text first items with
      | none => cases h : interpret some second item <;> simp [h]
      | some items => rfl

/-- What the data in entries stand for, in two steps. -/
theorem interpretEntries_bind {ζ : Type} (text : List Char → Option (List Char))
    (first : δ → Option ε) (second : ε → Option ζ) :
    ∀ entries : List (List Char × PropertyList δ),
      (interpretEntries text first entries).bind (interpretEntries some second) =
        interpretEntries text (fun d => (first d).bind second) entries
  | [] => rfl
  | (key, value) :: entries => by
    have hvalue := interpret_bind text first second value
    have hentries := interpretEntries_bind text first second entries
    rw [interpretEntries, interpretEntries, ← hvalue, ← hentries]
    cases text key with
    | none => rfl
    | some key =>
      cases interpret text first value with
      | none => rfl
      | some value =>
        cases interpretEntries text first entries with
        | none => cases h : interpret some second value <;> simp [h]
        | some entries => rfl

end

/-- **A document is read as what its texts stand for**, as long as none contains a tag. -/
theorem read_document {p : PropertyList (List Char)} (htexts : ∀ s ∈ texts p, '<' ∉ s)
    (hdata : ∀ d ∈ dataOf p, '<' ∉ d) : read (document p) =
      interpret characterData (fun d => (characterData d).bind bytesOf) p := by
  have hlex := lexes_header.append ((lexes_render 0 p htexts hdata).append lexes_footer) []
  rw [List.append_nil] at hlex
  rw [read, lex, document, hlex, ← interpret_bind]
  cases interpret characterData characterData p with
  | none => rfl
  | some q =>
    have hend : lexFrom .content [] = some [] := rfl
    simp only [hend, Option.bind_some, Option.map_some, List.append_nil]
    exact parse_document q

mutual

/-- **Texts in the place of others**: what is read is told by each of them. -/
theorem interpret_map_eq_iff {ζ : Type} (text : List Char → Option (List Char))
    (datum : ε → Option ζ) (f g : List Char → List Char) (φ : δ → ε) (γ : δ → ζ) :
    ∀ p : PropertyList δ, interpret text datum (map f φ p) = some (map g γ p) ↔
      (∀ s ∈ texts p, text (f s) = some (g s)) ∧ ∀ d ∈ dataOf p, datum (φ d) = some (γ d)
  | .string s => by
    rw [map, map, interpret]
    cases hs : text (f s) <;> simp [texts, dataOf, hs]
  | .integer _ => by simp [map, interpret, texts, dataOf]
  | .bool _ => by simp [map, interpret, texts, dataOf]
  | .data d => by
    rw [map, map, interpret]
    cases hd : datum (φ d) <;> simp [texts, dataOf, hd]
  | .array items => by
    have hitems := interpretItems_map_eq_iff text datum f g φ γ items
    rw [map, map, interpret, texts, dataOf, ← hitems]
    simp
  | .dict entries => by
    have hentries := interpretEntries_map_eq_iff text datum f g φ γ entries
    rw [map, map, interpret, texts, dataOf, ← hentries]
    simp

/-- Texts in items. -/
theorem interpretItems_map_eq_iff {ζ : Type} (text : List Char → Option (List Char))
    (datum : ε → Option ζ) (f g : List Char → List Char) (φ : δ → ε) (γ : δ → ζ) :
    ∀ items : List (PropertyList δ),
      interpretItems text datum (mapItems f φ items) = some (mapItems g γ items) ↔
        (∀ s ∈ textsOfItems items, text (f s) = some (g s)) ∧
          ∀ d ∈ dataOfItems items, datum (φ d) = some (γ d)
  | [] => by simp [mapItems, interpretItems, textsOfItems, dataOfItems]
  | item :: items => by
    have hitem := interpret_map_eq_iff text datum f g φ γ item
    have hitems := interpretItems_map_eq_iff text datum f g φ γ items
    rw [mapItems, mapItems, interpretItems, textsOfItems, dataOfItems, List.forall_mem_append,
      List.forall_mem_append, and_and_and_comm, ← hitem, ← hitems]
    cases interpret text datum (map f φ item) <;>
      cases interpretItems text datum (mapItems f φ items) <;> simp

/-- Texts in entries. -/
theorem interpretEntries_map_eq_iff {ζ : Type} (text : List Char → Option (List Char))
    (datum : ε → Option ζ) (f g : List Char → List Char) (φ : δ → ε) (γ : δ → ζ) :
    ∀ entries : List (List Char × PropertyList δ),
      interpretEntries text datum (mapEntries f φ entries) = some (mapEntries g γ entries) ↔
        (∀ s ∈ textsOfEntries entries, text (f s) = some (g s)) ∧
          ∀ d ∈ dataOfEntries entries, datum (φ d) = some (γ d)
  | [] => by simp [mapEntries, interpretEntries, textsOfEntries, dataOfEntries]
  | (key, value) :: entries => by
    have hvalue := interpret_map_eq_iff text datum f g φ γ value
    have hentries := interpretEntries_map_eq_iff text datum f g φ γ entries
    rw [mapEntries, mapEntries, interpretEntries, textsOfEntries, dataOfEntries,
      List.forall_mem_cons, List.forall_mem_append, List.forall_mem_append, and_assoc,
      and_and_and_comm, ← hvalue, ← hentries]
    cases hkey : text (f key) <;>
      cases interpret text datum (map f φ value) <;>
      cases interpretEntries text datum (mapEntries f φ entries) <;> simp [and_assoc]

end

mutual

/-- The texts and the data that take the places of others. -/
theorem texts_map (f : List Char → List Char) (φ : δ → ε) : ∀ p : PropertyList δ,
    texts (map f φ p) = (texts p).map f ∧ dataOf (map f φ p) = (dataOf p).map φ
  | .string _ => ⟨rfl, rfl⟩
  | .integer _ => ⟨rfl, rfl⟩
  | .bool _ => ⟨rfl, rfl⟩
  | .data _ => ⟨rfl, rfl⟩
  | .array items => textsOfItems_map f φ items
  | .dict entries => textsOfEntries_map f φ entries

/-- Those in items. -/
theorem textsOfItems_map (f : List Char → List Char) (φ : δ → ε) : ∀ items : List (PropertyList δ),
    textsOfItems (mapItems f φ items) = (textsOfItems items).map f ∧
      dataOfItems (mapItems f φ items) = (dataOfItems items).map φ
  | [] => ⟨rfl, rfl⟩
  | item :: items => by
    have hitem := texts_map f φ item
    have hitems := textsOfItems_map f φ items
    simp [mapItems, textsOfItems, dataOfItems, hitem.1, hitem.2, hitems.1, hitems.2]

/-- Those in entries. -/
theorem textsOfEntries_map (f : List Char → List Char) (φ : δ → ε) :
    ∀ entries : List (List Char × PropertyList δ),
      textsOfEntries (mapEntries f φ entries) = (textsOfEntries entries).map f ∧
        dataOfEntries (mapEntries f φ entries) = (dataOfEntries entries).map φ
  | [] => ⟨rfl, rfl⟩
  | (key, value) :: entries => by
    have hvalue := texts_map f φ value
    have hentries := textsOfEntries_map f φ entries
    simp [mapEntries, textsOfEntries, dataOfEntries, hvalue.1, hvalue.2, hentries.1, hentries.2]

end

/-- **What is read of a document whose texts have taken the places of others**, if none contains a
tag: the texts that each of them stands for. -/
theorem read_document_map_iff {f g : List Char → List Char} {φ : δ → List Char}
    {γ : δ → List UInt8} {p : PropertyList δ} (htexts : ∀ s ∈ texts p, '<' ∉ f s)
    (hdata : ∀ d ∈ dataOf p, '<' ∉ φ d) :
    read (document (map f φ p)) = some (map g γ p) ↔
      (∀ s ∈ texts p, characterData (f s) = some (g s)) ∧
        ∀ d ∈ dataOf p, (characterData (φ d)).bind bytesOf = some (γ d) := by
  have hmap := texts_map f φ p
  have htags : ∀ s ∈ texts (map f φ p), '<' ∉ s := by
    rw [hmap.1, List.forall_mem_map]
    exact htexts
  have hdatatags : ∀ d ∈ dataOf (map f φ p), '<' ∉ d := by
    rw [hmap.2, List.forall_mem_map]
    exact hdata
  rw [read_document htags hdatatags]
  exact interpret_map_eq_iff _ _ f g φ γ p

/-! ## Rewriting the texts of a document -/

section Rewrite

/-- The characters of markup: those of lower case tags, digits and white space. -/
def isMarkupChar (c : Char) : Bool :=
  c.isLower || c.isDigit || c == '<' || c == '/' || c == '>' || isSpace c

/-- An operation on texts that passes over markup, and over the texts between markup one by one. -/
structure PassesMarkup (f : List Char → List Char) : Prop where
  markup : ∀ seg s, (∀ c ∈ seg, isMarkupChar c = true) → f (seg ++ s) = seg ++ f s
  text : ∀ text c s, isMarkupChar c = true → f (text ++ c :: s) = f text ++ f (c :: s)

/-- Two such operations, one after the other. -/
theorem PassesMarkup.comp {f g : List Char → List Char} (hg : PassesMarkup g)
    (hf : PassesMarkup f) : PassesMarkup (g ∘ f) where
  markup := by
    intro seg s hseg
    rw [Function.comp, Function.comp, hf.markup seg s hseg, hg.markup seg (f s) hseg]
  text := by
    intro text c s hc
    have hone : ∀ t, f (c :: t) = c :: f t :=
      fun t => hf.markup [c] t (List.forall_mem_singleton.mpr hc)
    rw [Function.comp, Function.comp, Function.comp, hf.text text c s hc, hone,
      hg.text (f text) c (f s) hc]

variable {f : List Char → List Char} {name text other : List Char}

/-- Whatever follows the text, the operation puts the other in its place. -/
def Rewrites (f : List Char → List Char) (text other : List Char) : Prop :=
  ∀ s, f (text ++ s) = other ++ f s

/-- Two texts, one behind the other. -/
theorem Rewrites.append {text' other' : List Char} (h : Rewrites f text other)
    (h' : Rewrites f text' other') : Rewrites f (text ++ text') (other ++ other') := by
  intro s
  rw [List.append_assoc, h, h', List.append_assoc]

/-- Text that is passed over. -/
def IsMarkup (text : List Char) : Prop :=
  ∀ c ∈ text, isMarkupChar c = true

instance : Decidable (IsMarkup text) :=
  decidable_of_iff (text.all isMarkupChar = true) List.all_eq_true

/-- Markup stays. -/
theorem PassesMarkup.rewrites (hf : PassesMarkup f) (h : IsMarkup text) :
    Rewrites f text text :=
  fun s => hf.markup text s h

/-- A name in brackets. -/
theorem IsMarkup.bracketed {before after : List Char} (hname : IsMarkup name)
    (hbefore : IsMarkup before) (hafter : IsMarkup after) :
    IsMarkup (before ++ (name ++ after)) := by
  intro c hc
  rcases List.mem_append.mp hc with hc | hc
  · exact hbefore c hc
  · rcases List.mem_append.mp hc with hc | hc
    · exact hname c hc
    · exact hafter c hc

/-- A text between tags is rewritten by itself. -/
theorem PassesMarkup.element (hf : PassesMarkup f) (hname : IsMarkup name)
    (text : List Char) : Rewrites f (element name text) (element name (f text)) := by
  have hopen : IsMarkup (opening name) :=
    hname.bracketed (show IsMarkup ['<'] by decide) (show IsMarkup ['>'] by decide)
  have hclose : IsMarkup (closing name) :=
    hname.bracketed (show IsMarkup ['<', '/'] by decide) (show IsMarkup ['>'] by decide)
  have htext : Rewrites f (text ++ closing name) (f text ++ closing name) := by
    intro s
    rw [List.append_assoc, List.append_assoc, ← hf.rewrites hclose s]
    exact hf.text text '<' _ (by decide)
  exact (hf.rewrites hopen).append htext

/-- A line. -/
theorem PassesMarkup.line (hf : PassesMarkup f) (depth : Nat) (h : Rewrites f text other) :
    Rewrites f (line depth text) (line depth other) := by
  have hspaces : ∀ c ∈ List.replicate (4 * depth) ' ', isMarkupChar c = true := by
    intro c hc
    rw [List.eq_of_mem_replicate hc]
    decide
  exact (hf.rewrites hspaces).append (h.append (hf.rewrites (by decide)))

/-- Lines between tags. -/
theorem PassesMarkup.block (hf : PassesMarkup f) (depth : Nat) (hname : IsMarkup name)
    (isEmpty : Bool) (h : Rewrites f text other) :
    Rewrites f (block depth name isEmpty text) (block depth name isEmpty other) := by
  have hopen : IsMarkup (opening name) :=
    hname.bracketed (show IsMarkup ['<'] by decide) (show IsMarkup ['>'] by decide)
  have hclose : IsMarkup (closing name) :=
    hname.bracketed (show IsMarkup ['<', '/'] by decide) (show IsMarkup ['>'] by decide)
  have hempty : IsMarkup (emptyElement name) :=
    hname.bracketed (show IsMarkup ['<'] by decide) (show IsMarkup ['/', '>'] by decide)
  cases isEmpty with
  | true => exact hf.line depth (hf.rewrites hempty)
  | false =>
    exact (hf.line depth (hf.rewrites hopen)).append
      (h.append (hf.line depth (hf.rewrites hclose)))

mutual

/-- **In a property list each text is rewritten by itself.** -/
theorem PassesMarkup.render (hf : PassesMarkup f) (depth : Nat) :
    ∀ p : PropertyList (List Char), Rewrites f (render depth p) (render depth (map f f p))
  | .string s => hf.line depth (hf.element (by decide) s)
  | .integer n => by
    have hdigits : IsMarkup (Nat.toDigits 10 n) := by
      intro c hc
      have hc := Nat.isDigit_of_mem_toDigits (by decide) (by decide) hc
      simp [isMarkupChar, hc]
    have hname : IsMarkup "integer".toList := by decide
    have helement : IsMarkup (PropertyList.element "integer".toList (Nat.toDigits 10 n)) := by
      have hopen : IsMarkup (opening "integer".toList) := by decide
      have hclose : IsMarkup (closing "integer".toList) := by decide
      exact hdigits.bracketed hopen hclose
    exact hf.line depth (hf.rewrites helement)
  | .bool b => hf.line depth (hf.rewrites (by cases b <;> decide))
  | .data d => hf.line depth (hf.element (by decide) d)
  | .array items => by
    have hempty : (mapItems f f items).isEmpty = items.isEmpty := by cases items <;> rfl
    rw [PropertyList.render, map, PropertyList.render, hempty]
    exact hf.block depth (by decide) items.isEmpty (hf.renderItems (depth + 1) items)
  | .dict entries => by
    have hempty : (mapEntries f f entries).isEmpty = entries.isEmpty := by cases entries <;> rfl
    rw [PropertyList.render, map, PropertyList.render, hempty]
    exact hf.block depth (by decide) entries.isEmpty (hf.renderEntries (depth + 1) entries)

/-- In items. -/
theorem PassesMarkup.renderItems (hf : PassesMarkup f) (depth : Nat) :
    ∀ items : List (PropertyList (List Char)),
      Rewrites f (renderItems depth items) (renderItems depth (mapItems f f items))
  | [] => fun _ => rfl
  | item :: items => (hf.render depth item).append (hf.renderItems depth items)

/-- In entries. -/
theorem PassesMarkup.renderEntries (hf : PassesMarkup f) (depth : Nat) :
    ∀ entries : List (List Char × PropertyList (List Char)),
      Rewrites f (renderEntries depth entries) (renderEntries depth (mapEntries f f entries))
  | [] => fun _ => rfl
  | (key, value) :: entries =>
    (hf.line depth (hf.element (by decide) key)).append
      ((hf.render depth value).append (hf.renderEntries depth entries))

end

/-- **In a document each text is rewritten by itself.** -/
theorem PassesMarkup.document (hf : PassesMarkup f) (hheader : Rewrites f header header)
    (hnil : f [] = []) (p : PropertyList (List Char)) :
    f (document p) = document (map f f p) := by
  have hfooter : Rewrites f footer footer := hf.rewrites (by decide)
  have hdocument := (hheader.append ((hf.render 0 p).append hfooter)) []
  rw [hnil, List.append_nil, List.append_nil] at hdocument
  exact hdocument

end Rewrite

end PropertyList

end IOSDeviceManager.General
