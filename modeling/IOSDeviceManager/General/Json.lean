import IOSDeviceManager.General.JsonText

/-! # JSON values

Values are printed over several lines, with one of the spellings of their strings, and read back by
way of their tokens. Reading is exact: a text is read as a value if and only if its tokens are those
of the value. -/

namespace IOSDeviceManager.General.Json

/-- A JSON value. -/
inductive Value where
  | string (s : String)
  | number (n : NumberLiteral)
  | bool (b : Bool)
  | null
  | array (items : List Value)
  | object (entries : List (String × Value))

/-! ## Printing -/

/-- The spaces before a line. -/
def indent (depth : Nat) : List Char :=
  List.replicate (2 * depth) ' '

/-- What stands between two items, on lines of their own. -/
def lineBreak {α : Type*} (rest : List α) : List Char :=
  if rest.isEmpty then [] else [',', '\n']

/-- A string in quotes. -/
def quoted (spell : List Char → List Char) (s : String) : List Char :=
  '"' :: (spell s.toList ++ ['"'])

mutual

/-- A value whose lines start at a depth. -/
def print (spell : List Char → List Char) (depth : Nat) : Value → List Char
  | .string s => quoted spell s
  | .number n => n.1
  | .bool b => if b then "true".toList else "false".toList
  | .null => "null".toList
  | .array items =>
      '[' :: '\n' :: (printItems spell (depth + 1) items ++ '\n' :: (indent depth ++ [']']))
  | .object entries =>
      '\x7b' :: '\n' ::
        (printEntries spell (depth + 1) entries ++ '\n' :: (indent depth ++ ['\x7d']))

/-- The items of an array, each on its own line. -/
def printItems (spell : List Char → List Char) (depth : Nat) : List Value → List Char
  | [] => []
  | value :: rest =>
      indent depth ++ (print spell depth value ++ (lineBreak rest ++ printItems spell depth rest))

/-- The entries of an object, each on its own line. -/
def printEntries (spell : List Char → List Char) (depth : Nat) :
    List (String × Value) → List Char
  | [] => []
  | (key, value) :: rest =>
      indent depth ++ (quoted spell key ++ (" : ".toList ++ (print spell depth value ++
        (lineBreak rest ++ printEntries spell depth rest))))

end

/-! ## Tokens -/

/-- What stands between two items. -/
def separator {α : Type*} (rest : List α) : List Token :=
  if rest.isEmpty then [] else [.comma]

mutual

/-- The tokens of a value. -/
def tokens : Value → List Token
  | .string s => [.string s]
  | .number n => [.number n]
  | .bool b => [.bool b]
  | .null => [.null]
  | .array items => .openArray :: (tokensOfItems items ++ [.closeArray])
  | .object entries => .openObject :: (tokensOfEntries entries ++ [.closeObject])

/-- The tokens of the items of an array. -/
def tokensOfItems : List Value → List Token
  | [] => []
  | value :: rest => tokens value ++ (separator rest ++ tokensOfItems rest)

/-- The tokens of the entries of an object. -/
def tokensOfEntries : List (String × Value) → List Token
  | [] => []
  | (key, value) :: rest =>
      .string key :: .colon :: (tokens value ++ (separator rest ++ tokensOfEntries rest))

end

mutual

/-- The strings of a value and its keys, at every depth. -/
def strings : Value → List String
  | .string s => [s]
  | .number _ | .bool _ | .null => []
  | .array items => stringsOfItems items
  | .object entries => stringsOfEntries entries

/-- The strings of the items of an array. -/
def stringsOfItems : List Value → List String
  | [] => []
  | value :: rest => strings value ++ stringsOfItems rest

/-- The keys of the entries of an object, and the strings in them. -/
def stringsOfEntries : List (String × Value) → List String
  | [] => []
  | (key, value) :: rest => key :: (strings value ++ stringsOfEntries rest)

end

/-! ## Reading -/

mutual

/-- A value at the front, and the tokens after it. -/
def parseValue : Nat → List Token → Option (Value × List Token)
  | 0, _ => none
  | fuel + 1, tokens =>
      match tokens with
      | .string s :: rest => some (.string s, rest)
      | .number n :: rest => some (.number n, rest)
      | .bool b :: rest => some (.bool b, rest)
      | .null :: rest => some (.null, rest)
      | .openArray :: .closeArray :: rest => some (.array [], rest)
      | .openArray :: rest =>
          (parseItems fuel rest).map fun result => (.array result.1, result.2)
      | .openObject :: .closeObject :: rest => some (.object [], rest)
      | .openObject :: rest =>
          (parseEntries fuel rest).map fun result => (.object result.1, result.2)
      | _ => none

/-- One item or more up to the end of an array. -/
def parseItems : Nat → List Token → Option (List Value × List Token)
  | 0, _ => none
  | fuel + 1, tokens =>
      match parseValue fuel tokens with
      | some (value, .closeArray :: rest) => some ([value], rest)
      | some (value, .comma :: rest) =>
          (parseItems fuel rest).map fun result => (value :: result.1, result.2)
      | _ => none

/-- One entry or more up to the end of an object. -/
def parseEntries : Nat → List Token → Option (List (String × Value) × List Token)
  | 0, _ => none
  | fuel + 1, tokens =>
      match tokens with
      | .string key :: .colon :: tokens =>
          match parseValue fuel tokens with
          | some (value, .closeObject :: rest) => some ([(key, value)], rest)
          | some (value, .comma :: rest) =>
              (parseEntries fuel rest).map fun result => ((key, value) :: result.1, result.2)
          | _ => none
      | _ => none

end

/-- The value of tokens. -/
def parse (tokens : List Token) : Option Value :=
  match parseValue tokens.length tokens with
  | some (value, []) => some value
  | _ => none

/-- The value of a text. -/
def read (cs : List Char) : Option Value :=
  (lex cs).bind parse

/-! ## The tokens of what is printed -/

section Print

variable {spell : List Char → List Char}

/-- Spaces are skipped. -/
theorem lexFrom_indent (depth : Nat) (rest : List Char) :
    lexFrom .between (indent depth ++ rest) = lexFrom .between rest := by
  unfold indent
  induction 2 * depth with
  | zero => rfl
  | succ n ih =>
    have hspace : lexStep .between ' ' = some ([], .between) := rfl
    rw [List.replicate_succ, List.cons_append, lexFrom_cons_silent hspace, ih]

/-- What stands between a key and its value. -/
theorem lexFrom_colon (rest : List Char) : lexFrom .between (" : ".toList ++ rest) =
    (lexFrom .between rest).map (.colon :: ·) := by
  have hspace : lexStep .between ' ' = some ([], .between) := rfl
  have hcolon : lexStep .between ':' = some ([.colon], .between) := rfl
  have htext : " : ".toList ++ rest = ' ' :: ':' :: ' ' :: rest := rfl
  rw [htext, lexFrom_cons_silent hspace, lexFrom_cons hcolon, lexFrom_cons_silent hspace]
  rfl

/-- What stands between two items is a comma. -/
theorem lexFrom_lineBreak {α : Type*} (items : List α) (rest : List Char) :
    lexFrom .between (lineBreak items ++ rest) =
      (lexFrom .between rest).map (separator items ++ ·) := by
  cases items with
  | nil => exact Option.map_id'.symm
  | cons item items =>
    have hcomma : lexStep .between ',' = some ([.comma], .between) := rfl
    have hnewline : lexStep .between '\n' = some ([], .between) := rfl
    have hprint : lineBreak (item :: items) ++ rest = ',' :: '\n' :: rest := rfl
    rw [hprint, lexFrom_cons hcomma, lexFrom_cons_silent hnewline]
    rfl

/-- What follows an item ends a word. -/
theorem endsWord_lineBreak {α : Type*} (items : List α) {rest : List Char}
    (h : items = [] → EndsWord rest) : EndsWord (lineBreak items ++ rest) := by
  cases items with
  | nil => exact h rfl
  | cons item items => exact rfl

/-- A string in quotes. -/
theorem lexFrom_print_quoted {s : String} (h : Spells (spell s.toList) s.toList)
    (rest : List Char) : lexFrom .between (quoted spell s ++ rest) =
      (lexFrom .between rest).map (.string s :: ·) := by
  have hquoted := lexFrom_quoted h rest
  rw [String.ofList_toList] at hquoted
  rw [← hquoted, quoted, List.cons_append, List.append_assoc, List.singleton_append]

/-- The words of truth values. -/
theorem lexFrom_bool (b : Bool) {rest : List Char} (hrest : EndsWord rest) :
    lexFrom .between ((if b then "true".toList else "false".toList) ++ rest) =
      (lexFrom .between rest).map (.bool b :: ·) := by
  have htrue : "true".toList.all isWordChar = true := by decide
  have hfalse : "false".toList.all isWordChar = true := by decide
  cases b with
  | true => exact lexFrom_word (by decide) (List.all_eq_true.mp htrue) rfl hrest
  | false => exact lexFrom_word (by decide) (List.all_eq_true.mp hfalse) rfl hrest

/-- The word for nothing. -/
theorem lexFrom_null {rest : List Char} (hrest : EndsWord rest) :
    lexFrom .between ("null".toList ++ rest) = (lexFrom .between rest).map (.null :: ·) := by
  have hnull : "null".toList.all isWordChar = true := by decide
  exact lexFrom_word (by decide) (List.all_eq_true.mp hnull) rfl hrest

/-- What is printed between brackets, over several lines. -/
theorem lexFrom_brackets {opening closing : Char} {openToken closeToken : Token}
    (hopen : lexStep .between opening = some ([openToken], .between))
    (hclose : lexStep .between closing = some ([closeToken], .between)) (depth : Nat)
    {text rest : List Char} {inner : List Token}
    (h : lexFrom .between (text ++ '\n' :: (indent depth ++ closing :: rest)) =
      (lexFrom .between ('\n' :: (indent depth ++ closing :: rest))).map (inner ++ ·)) :
    lexFrom .between (opening :: '\n' :: (text ++ '\n' :: (indent depth ++ closing :: rest))) =
      (lexFrom .between rest).map (openToken :: (inner ++ [closeToken]) ++ ·) := by
  have hnewline : lexStep .between '\n' = some ([], .between) := rfl
  rw [lexFrom_cons hopen, lexFrom_cons_silent hnewline, h, lexFrom_cons_silent hnewline,
    lexFrom_indent, lexFrom_cons hclose]
  simp [Function.comp_def]

mutual

/-- **The tokens of a value** are read from what is printed for it. -/
theorem lexFrom_print (depth : Nat) {rest : List Char} (hrest : EndsWord rest) :
    ∀ value : Value, (∀ s ∈ strings value, Spells (spell s.toList) s.toList) →
      lexFrom .between (print spell depth value ++ rest) =
        (lexFrom .between rest).map (tokens value ++ ·)
  | .string s, h => lexFrom_print_quoted (h s List.mem_cons_self) rest
  | .number n, _ => lexFrom_number n hrest
  | .bool b, _ => lexFrom_bool b hrest
  | .null, _ => lexFrom_null hrest
  | .array items, h => by
    have hopen : lexStep .between '[' = some ([.openArray], .between) := rfl
    have hclose : lexStep .between ']' = some ([.closeArray], .between) := rfl
    have hend : EndsWord ('\n' :: (indent depth ++ ']' :: rest)) := rfl
    have hprint : print spell depth (.array items) ++ rest = '[' :: '\n' ::
        (printItems spell (depth + 1) items ++ '\n' :: (indent depth ++ ']' :: rest)) := by
      simp [print]
    rw [hprint, tokens]
    exact lexFrom_brackets hopen hclose depth (lexFrom_printItems (depth + 1) hend items h)
  | .object entries, h => by
    have hopen : lexStep .between '\x7b' = some ([.openObject], .between) := rfl
    have hclose : lexStep .between '\x7d' = some ([.closeObject], .between) := rfl
    have hend : EndsWord ('\n' :: (indent depth ++ '\x7d' :: rest)) := rfl
    have hprint : print spell depth (.object entries) ++ rest = '\x7b' :: '\n' ::
        (printEntries spell (depth + 1) entries ++ '\n' :: (indent depth ++ '\x7d' :: rest)) := by
      simp [print]
    rw [hprint, tokens]
    exact lexFrom_brackets hopen hclose depth (lexFrom_printEntries (depth + 1) hend entries h)

/-- The tokens of the items of an array. -/
theorem lexFrom_printItems (depth : Nat) {rest : List Char} (hrest : EndsWord rest) :
    ∀ items : List Value, (∀ s ∈ stringsOfItems items, Spells (spell s.toList) s.toList) →
      lexFrom .between (printItems spell depth items ++ rest) =
        (lexFrom .between rest).map (tokensOfItems items ++ ·)
  | [], _ => Option.map_id'.symm
  | value :: items, h => by
    have hvalue : ∀ s ∈ strings value, Spells (spell s.toList) s.toList :=
      fun s hs => h s (List.mem_append_left _ hs)
    have hitems : ∀ s ∈ stringsOfItems items, Spells (spell s.toList) s.toList :=
      fun s hs => h s (List.mem_append_right _ hs)
    have hnext : EndsWord (lineBreak items ++ (printItems spell depth items ++ rest)) := by
      apply endsWord_lineBreak
      rintro rfl
      exact hrest
    rw [printItems, tokensOfItems]
    simp only [List.append_assoc]
    rw [lexFrom_indent, lexFrom_print depth hnext value hvalue, lexFrom_lineBreak,
      lexFrom_printItems depth hrest items hitems]
    simp [Function.comp_def]

/-- The tokens of the entries of an object. -/
theorem lexFrom_printEntries (depth : Nat) {rest : List Char} (hrest : EndsWord rest) :
    ∀ entries : List (String × Value),
      (∀ s ∈ stringsOfEntries entries, Spells (spell s.toList) s.toList) →
        lexFrom .between (printEntries spell depth entries ++ rest) =
          (lexFrom .between rest).map (tokensOfEntries entries ++ ·)
  | [], _ => Option.map_id'.symm
  | (key, value) :: entries, h => by
    have hkey : Spells (spell key.toList) key.toList := h key List.mem_cons_self
    have hvalue : ∀ s ∈ strings value, Spells (spell s.toList) s.toList :=
      fun s hs => h s (List.mem_cons_of_mem key (List.mem_append_left _ hs))
    have hentries : ∀ s ∈ stringsOfEntries entries, Spells (spell s.toList) s.toList :=
      fun s hs => h s (List.mem_cons_of_mem key (List.mem_append_right _ hs))
    have hnext : EndsWord (lineBreak entries ++ (printEntries spell depth entries ++ rest)) := by
      apply endsWord_lineBreak
      rintro rfl
      exact hrest
    rw [printEntries, tokensOfEntries]
    simp only [List.append_assoc]
    rw [lexFrom_indent, lexFrom_print_quoted hkey, lexFrom_colon,
      lexFrom_print depth hnext value hvalue, lexFrom_lineBreak,
      lexFrom_printEntries depth hrest entries hentries]
    simp [Function.comp_def]

end

end Print

/-! ## Reading is exact -/

/-- Every value has a token. -/
theorem length_tokens_pos (value : Value) : 0 < (tokens value).length := by
  cases value <;> simp [tokens]

/-- A value does not start with a closing bracket. -/
theorem tokens_append_ne_closeArray (value : Value) (rest later : List Token) :
    tokens value ++ rest ≠ .closeArray :: later := by
  cases value <;> simp [tokens]

/-- An array with something in it. -/
theorem parseValue_openArray {fuel : Nat} {ts : List Token} (h : ∀ rest, ts ≠ .closeArray :: rest) :
    parseValue (fuel + 1) (.openArray :: ts) =
      (parseItems fuel ts).map fun result => (.array result.1, result.2) := by
  cases ts with
  | nil => rfl
  | cons token ts =>
    cases token with
    | closeArray => exact absurd rfl (h ts)
    | _ => rfl

/-- An object with something in it. -/
theorem parseValue_openObject {fuel : Nat} {ts : List Token}
    (h : ∀ rest, ts ≠ .closeObject :: rest) :
    parseValue (fuel + 1) (.openObject :: ts) =
      (parseEntries fuel ts).map fun result => (.object result.1, result.2) := by
  cases ts with
  | nil => rfl
  | cons token ts =>
    cases token with
    | closeObject => exact absurd rfl (h ts)
    | _ => rfl

mutual

/-- The tokens of a value are parsed, with fuel for each of them. -/
theorem parseValue_tokens : ∀ (value : Value) (fuel : Nat) (rest : List Token),
    (tokens value).length ≤ fuel → parseValue fuel (tokens value ++ rest) = some (value, rest)
  | value, 0, _, h => absurd h (Nat.not_le.mpr (length_tokens_pos value))
  | .string s, fuel + 1, _, _ => rfl
  | .number n, fuel + 1, _, _ => rfl
  | .bool b, fuel + 1, _, _ => rfl
  | .null, fuel + 1, _, _ => rfl
  | .array [], fuel + 1, _, _ => rfl
  | .object [], fuel + 1, _, _ => rfl
  | .array (value :: items), fuel + 1, rest, h => by
    -- the brackets are tokens too, and leave fuel for the items
    have hfuel : (tokensOfItems (value :: items)).length < fuel := by
      rw [tokens, List.length_cons, List.length_append, List.length_singleton] at h
      omega
    have htokens : tokens (.array (value :: items)) ++ rest =
        .openArray :: (tokensOfItems (value :: items) ++ .closeArray :: rest) := by simp [tokens]
    have hstart : ∀ later, tokensOfItems (value :: items) ++ .closeArray :: rest ≠
        .closeArray :: later := by
      intro later
      rw [tokensOfItems, List.append_assoc]
      exact tokens_append_ne_closeArray value _ later
    rw [htokens, parseValue_openArray hstart, parseItems_tokens value items fuel rest hfuel]
    rfl
  | .object ((key, value) :: entries), fuel + 1, rest, h => by
    have hfuel : (tokensOfEntries ((key, value) :: entries)).length < fuel := by
      rw [tokens, List.length_cons, List.length_append, List.length_singleton] at h
      omega
    have htokens : tokens (.object ((key, value) :: entries)) ++ rest =
        .openObject :: (tokensOfEntries ((key, value) :: entries) ++ .closeObject :: rest) := by
      simp [tokens]
    have hstart : ∀ later, tokensOfEntries ((key, value) :: entries) ++ .closeObject :: rest ≠
        .closeObject :: later := by
      simp [tokensOfEntries]
    rw [htokens, parseValue_openObject hstart, parseEntries_tokens key value entries fuel rest hfuel]
    rfl

/-- The tokens of items are parsed up to the end of the array. -/
theorem parseItems_tokens : ∀ (value : Value) (items : List Value) (fuel : Nat)
    (rest : List Token), (tokensOfItems (value :: items)).length < fuel →
      parseItems fuel (tokensOfItems (value :: items) ++ .closeArray :: rest) =
        some (value :: items, rest)
  | value, items, 0, _, h => absurd h (Nat.not_lt_zero _)
  | value, [], fuel + 1, rest, h => by
    have hfuel : (tokens value).length ≤ fuel := by
      simp only [tokensOfItems, separator, List.isEmpty_nil, if_true, List.append_nil] at h
      omega
    have htokens : tokensOfItems [value] ++ .closeArray :: rest =
        tokens value ++ .closeArray :: rest := by simp [tokensOfItems, separator]
    rw [htokens, parseItems, parseValue_tokens value fuel _ hfuel]
  | value, next :: items, fuel + 1, rest, h => by
    have hlength : (tokensOfItems (value :: next :: items)).length =
        (tokens value).length + (tokensOfItems (next :: items)).length + 1 := by
      rw [tokensOfItems]
      simp only [List.length_append, separator, List.isEmpty_cons, Bool.false_eq_true, if_false,
        List.length_singleton]
      omega
    have hpos := length_tokens_pos value
    have htokens : tokensOfItems (value :: next :: items) ++ .closeArray :: rest =
        tokens value ++ .comma :: (tokensOfItems (next :: items) ++ .closeArray :: rest) := by
      rw [tokensOfItems]
      simp [separator]
    rw [htokens, parseItems, parseValue_tokens value fuel _ (by omega)]
    simp only []
    rw [parseItems_tokens next items fuel rest (by omega)]
    rfl

/-- The tokens of entries are parsed up to the end of the object. -/
theorem parseEntries_tokens : ∀ (key : String) (value : Value) (entries : List (String × Value))
    (fuel : Nat) (rest : List Token), (tokensOfEntries ((key, value) :: entries)).length < fuel →
      parseEntries fuel (tokensOfEntries ((key, value) :: entries) ++ .closeObject :: rest) =
        some ((key, value) :: entries, rest)
  | key, value, entries, 0, _, h => absurd h (Nat.not_lt_zero _)
  | key, value, [], fuel + 1, rest, h => by
    have hfuel : (tokens value).length ≤ fuel := by
      simp only [tokensOfEntries, separator, List.isEmpty_nil, if_true, List.append_nil,
        List.length_cons] at h
      omega
    have htokens : tokensOfEntries [(key, value)] ++ .closeObject :: rest =
        .string key :: .colon :: (tokens value ++ .closeObject :: rest) := by
      simp [tokensOfEntries, separator]
    rw [htokens, parseEntries, parseValue_tokens value fuel _ hfuel]
  | key, value, (nextKey, next) :: entries, fuel + 1, rest, h => by
    have hlength : (tokensOfEntries ((key, value) :: (nextKey, next) :: entries)).length =
        (tokens value).length + (tokensOfEntries ((nextKey, next) :: entries)).length + 3 := by
      rw [tokensOfEntries]
      simp only [List.length_append, separator, List.isEmpty_cons, Bool.false_eq_true, if_false,
        List.length_cons, List.length_nil]
      omega
    have hpos := length_tokens_pos value
    have htokens : tokensOfEntries ((key, value) :: (nextKey, next) :: entries) ++
        .closeObject :: rest = .string key :: .colon :: (tokens value ++ .comma ::
          (tokensOfEntries ((nextKey, next) :: entries) ++ .closeObject :: rest)) := by
      rw [tokensOfEntries]
      simp [separator]
    rw [htokens, parseEntries, parseValue_tokens value fuel _ (by omega)]
    simp only []
    rw [parseEntries_tokens nextKey next entries fuel rest (by omega)]
    rfl

end

/-- Something comes after a separator. -/
theorem separator_of_ne_nil {α : Type*} {items : List α} (h : items ≠ []) :
    separator items = [.comma] := by
  cases items with
  | nil => exact absurd rfl h
  | cons item items => rfl

/-- What is parsed with some fuel has the tokens that were there. -/
structure Parses (fuel : Nat) : Prop where
  value : ∀ ts value rest, parseValue fuel ts = some (value, rest) → ts = tokens value ++ rest
  items : ∀ ts items rest, parseItems fuel ts = some (items, rest) →
    items ≠ [] ∧ ts = tokensOfItems items ++ .closeArray :: rest
  entries : ∀ ts entries rest, parseEntries fuel ts = some (entries, rest) →
    entries ≠ [] ∧ ts = tokensOfEntries entries ++ .closeObject :: rest

/-- Whatever the fuel. By induction on it, as parsing goes. -/
theorem parses (fuel : Nat) : Parses fuel := by
  induction fuel with
  | zero => exact ⟨nofun, nofun, nofun⟩
  | succ fuel ih =>
    refine ⟨?_, ?_, ?_⟩
    · intro ts value rest h
      rw [parseValue.eq_def] at h
      dsimp only at h
      split at h
      -- an array with items
      case h_6 =>
        obtain ⟨⟨items, later⟩, hitems, heq⟩ := Option.map_eq_some_iff.mp h
        cases heq
        simp [tokens, (ih.items _ _ _ hitems).2]
      -- an object with entries
      case h_8 =>
        obtain ⟨⟨entries, later⟩, hentries, heq⟩ := Option.map_eq_some_iff.mp h
        cases heq
        simp [tokens, (ih.entries _ _ _ hentries).2]
      -- the others are one token, or two
      all_goals
        cases h
        try rfl
    · intro ts items rest h
      rw [parseItems] at h
      split at h
      · next value later hvalue =>
        cases h
        rw [ih.value _ _ _ hvalue]
        simp [tokensOfItems, separator]
      · next value later hvalue =>
        obtain ⟨⟨others, after⟩, hothers, heq⟩ := Option.map_eq_some_iff.mp h
        cases heq
        obtain ⟨hne, hlater⟩ := ih.items _ _ _ hothers
        rw [ih.value _ _ _ hvalue, hlater, tokensOfItems, separator_of_ne_nil hne]
        simp
      · cases h
    · intro ts entries rest h
      rw [parseEntries.eq_def] at h
      dsimp only at h
      split at h
      · next key tail =>
        split at h
        · next value later hvalue =>
          cases h
          rw [ih.value _ _ _ hvalue]
          simp [tokensOfEntries, separator]
        · next value later hvalue =>
          obtain ⟨⟨others, after⟩, hothers, heq⟩ := Option.map_eq_some_iff.mp h
          cases heq
          obtain ⟨hne, hlater⟩ := ih.entries _ _ _ hothers
          rw [ih.value _ _ _ hvalue, hlater, tokensOfEntries, separator_of_ne_nil hne]
          simp
        · cases h
      · cases h

/-- **Reading is exact.** A text is read as a value exactly if its tokens are those of the value. -/
theorem read_eq_some_iff {cs : List Char} {value : Value} :
    read cs = some value ↔ lex cs = some (tokens value) := by
  unfold read
  constructor
  · intro h
    obtain ⟨ts, hlex, hparse⟩ := Option.bind_eq_some_iff.mp h
    unfold parse at hparse
    split at hparse
    · next parsed hvalue =>
      cases hparse
      rw [hlex, (parses _).value _ _ _ hvalue, List.append_nil]
    · cases hparse
  · intro h
    have hparse := parseValue_tokens value (tokens value).length [] (Nat.le_refl _)
    rw [List.append_nil] at hparse
    rw [h, Option.bind_some, parse, hparse]

/-- **Printed values are read back**, whatever spelling their strings have. -/
theorem read_print {spell : List Char → List Char} {value : Value} (depth : Nat)
    (h : ∀ s ∈ strings value, Spells (spell s.toList) s.toList) :
    read (print spell depth value) = some value := by
  have hend : EndsWord [] := trivial
  have hlex := lexFrom_print depth hend value h
  rw [List.append_nil, lexFrom, lexEnd, Option.map_some, List.append_nil] at hlex
  exact read_eq_some_iff.mpr hlex

/-! ## Plain values -/

/-- No string of a value, and no key, needs an escape other than that of `/`. -/
def IsPlain (value : Value) : Prop :=
  ∀ s ∈ strings value, ∀ c ∈ s.toList, isPlain c = true

mutual

/-- The strings of a value are among its tokens. -/
theorem mem_tokens {s : String} : ∀ value : Value, s ∈ strings value → .string s ∈ tokens value
  | .string _, h => by
    rw [List.mem_singleton.mp h]
    exact List.mem_singleton_self _
  | .array items, h =>
    List.mem_cons_of_mem _ (List.mem_append_left _ (mem_tokensOfItems items h))
  | .object entries, h =>
    List.mem_cons_of_mem _ (List.mem_append_left _ (mem_tokensOfEntries entries h))

/-- The strings of items are among their tokens. -/
theorem mem_tokensOfItems {s : String} :
    ∀ items : List Value, s ∈ stringsOfItems items → .string s ∈ tokensOfItems items
  | value :: items, h => by
    rcases List.mem_append.mp h with h | h
    · exact List.mem_append_left _ (mem_tokens value h)
    · exact List.mem_append_right _ (List.mem_append_right _ (mem_tokensOfItems items h))

/-- The keys and strings of entries are among their tokens. -/
theorem mem_tokensOfEntries {s : String} : ∀ entries : List (String × Value),
    s ∈ stringsOfEntries entries → .string s ∈ tokensOfEntries entries
  | (key, value) :: entries, h => by
    rcases List.mem_cons.mp h with rfl | h
    · exact List.mem_cons_self
    · apply List.mem_cons_of_mem _ (List.mem_cons_of_mem _ _)
      rcases List.mem_append.mp h with h | h
      · exact List.mem_append_left _ (mem_tokens value h)
      · exact List.mem_append_right _ (List.mem_append_right _ (mem_tokensOfEntries entries h))

end

/-- **What is read without a backslash is plain.** -/
theorem isPlain_of_read {cs : List Char} {value : Value} (hcs : '\\' ∉ cs)
    (h : read cs = some value) : IsPlain value := by
  have hstart : LexState.between.IsPlain := trivial
  intro s hs
  exact isPlain_of_lexFrom hstart hcs (read_eq_some_iff.mp h) (.string s) (mem_tokens value hs)

/-! ## Dropping backslashes -/

/-- A text without its backslashes. -/
def dropBackslashes (cs : List Char) : List Char :=
  cs.filter (· != '\\')

theorem backslash_not_mem_dropBackslashes (cs : List Char) : '\\' ∉ dropBackslashes cs := by
  simp [dropBackslashes]

@[simp] theorem dropBackslashes_append (cs ds : List Char) :
    dropBackslashes (cs ++ ds) = dropBackslashes cs ++ dropBackslashes ds :=
  List.filter_append cs ds

/-- A text without backslashes stays. -/
theorem dropBackslashes_of_not_mem {cs : List Char} (h : '\\' ∉ cs) : dropBackslashes cs = cs := by
  refine List.filter_eq_self.mpr fun c hc => ?_
  rw [bne_iff_ne]
  rintro rfl
  exact h hc

/-- Words have no backslash. -/
theorem dropBackslashes_word {cs : List Char} (h : ∀ c ∈ cs, isWordChar c = true) :
    dropBackslashes cs = cs :=
  dropBackslashes_of_not_mem fun hmem => absurd (h _ hmem) (by decide)

@[simp] theorem dropBackslashes_indent (depth : Nat) :
    dropBackslashes (indent depth) = indent depth :=
  dropBackslashes_of_not_mem fun hmem => absurd (List.eq_of_mem_replicate hmem) (by decide)

@[simp] theorem dropBackslashes_lineBreak {α : Type*} (items : List α) :
    dropBackslashes (lineBreak items) = lineBreak items := by
  cases items <;> rfl

theorem dropBackslashes_cons {c : Char} (h : c ≠ '\\') (cs : List Char) :
    dropBackslashes (c :: cs) = c :: dropBackslashes cs :=
  List.filter_cons_of_pos (bne_iff_ne.mpr h)

@[simp] theorem dropBackslashes_quoted (spell : List Char → List Char) (s : String) :
    dropBackslashes (quoted spell s) = quoted (fun cs => dropBackslashes (spell cs)) s := by
  rw [quoted, dropBackslashes_cons (by decide), dropBackslashes_append, quoted]
  rfl

mutual

/-- **Only the spellings change** when the backslashes of a printed value are dropped. -/
theorem dropBackslashes_print (spell : List Char → List Char) (depth : Nat) : ∀ value : Value,
    dropBackslashes (print spell depth value) =
      print (fun cs => dropBackslashes (spell cs)) depth value
  | .string s => dropBackslashes_quoted spell s
  | .number n => dropBackslashes_word (forall_isWordChar_of_completes n.2)
  | .bool true => by rfl
  | .bool false => by rfl
  | .null => by rfl
  | .array items => by
    rw [print, print, dropBackslashes_cons (by decide), dropBackslashes_cons (by decide),
      dropBackslashes_append, dropBackslashes_printItems, dropBackslashes_cons (by decide),
      dropBackslashes_append, dropBackslashes_indent]
    rfl
  | .object entries => by
    rw [print, print, dropBackslashes_cons (by decide), dropBackslashes_cons (by decide),
      dropBackslashes_append, dropBackslashes_printEntries, dropBackslashes_cons (by decide),
      dropBackslashes_append, dropBackslashes_indent]
    rfl

/-- The same for the items of an array. -/
theorem dropBackslashes_printItems (spell : List Char → List Char) (depth : Nat) :
    ∀ items : List Value, dropBackslashes (printItems spell depth items) =
      printItems (fun cs => dropBackslashes (spell cs)) depth items
  | [] => rfl
  | value :: items => by
    rw [printItems, printItems, dropBackslashes_append, dropBackslashes_append,
      dropBackslashes_append, dropBackslashes_indent, dropBackslashes_lineBreak,
      dropBackslashes_print, dropBackslashes_printItems]

/-- The same for the entries of an object. -/
theorem dropBackslashes_printEntries (spell : List Char → List Char) (depth : Nat) :
    ∀ entries : List (String × Value), dropBackslashes (printEntries spell depth entries) =
      printEntries (fun cs => dropBackslashes (spell cs)) depth entries
  | [] => rfl
  | (key, value) :: entries => by
    have hcolon : dropBackslashes " : ".toList = " : ".toList := rfl
    rw [printEntries, printEntries]
    simp only [dropBackslashes_append, dropBackslashes_indent, dropBackslashes_lineBreak,
      dropBackslashes_quoted, hcolon, dropBackslashes_print, dropBackslashes_printEntries]

end

/-- A plain character is what is left of its escape; only `/` has one. -/
theorem dropBackslashes_escapeChar {c : Char} (h : isPlain c = true) :
    dropBackslashes (escapeChar c) = [c] := by
  unfold escapeChar
  split
  case h_3 => rfl
  case h_9 _ _ hbackslash _ _ _ _ _ _ =>
    have hcontrol : isControl c = false := by
      rw [isPlain, Bool.and_eq_true, Bool.not_eq_true'] at h
      exact h.2
    rw [hcontrol]
    exact List.filter_cons_of_pos (bne_iff_ne.mpr hbackslash)
  all_goals exact absurd h (by decide)

/-- A plain string is what is left of its escape. -/
theorem dropBackslashes_escape {s : List Char} (h : ∀ c ∈ s, isPlain c = true) :
    dropBackslashes (escape s) = s := by
  induction s with
  | nil => rfl
  | cons c s ih =>
    rw [List.forall_mem_cons] at h
    rw [escape, List.flatMap_cons, dropBackslashes_append, dropBackslashes_escapeChar h.1]
    exact congrArg (c :: ·) (ih h.2)

/-- **Without its backslashes**, the printed text of a value is still read as the value, exactly if
the value is plain. -/
theorem read_dropBackslashes_iff (value : Value) (depth : Nat) :
    read (dropBackslashes (print escape depth value)) = some value ↔ IsPlain value := by
  constructor
  · exact isPlain_of_read (backslash_not_mem_dropBackslashes _)
  · intro hplain
    rw [dropBackslashes_print]
    refine read_print depth fun s hs => ?_
    rw [dropBackslashes_escape (hplain s hs)]
    exact spells_self (hplain s hs)

/-- **The text as it is printed** is read as the value. -/
theorem read_print_escape (value : Value) (depth : Nat) :
    read (print escape depth value) = some value :=
  read_print depth fun s _ => spells_escape s.toList

end IOSDeviceManager.General.Json
