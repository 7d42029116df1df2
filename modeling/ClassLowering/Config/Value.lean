import ClassLowering.Config.Number

/-! # Values of a settings file

A value is a quoted text, a truth value, a number or a date, a list or a table. A list may run over
several lines and end with a comma; a table in braces may do neither. A key of several parts puts
its value into tables inside each other.

`readValue` gives the tokens behind a value with the proof that they are fewer. -/

namespace ClassLowering.Settings

/-- A value of a settings file. -/
inductive Value where
  | text (value : String)
  | boolean (value : Bool)
  | numeral (value : Numeral)
  | list (items : List Value)
  /-- A table in braces, which nothing can be added to. -/
  | table (entries : List (String × Value))
  /-- A table that keys of several parts have made. -/
  | dotted (entries : List (String × Value))

/-- Keys with their values, in the order of the file. -/
abbrev Entries : Type := List (String × Value)

namespace Entries

/-- The entries with another value for the first of a key. -/
def setFirst (key : String) (value : Value) : Entries → Entries
  | [] => []
  | (other, old) :: rest =>
    if other = key then (key, value) :: rest else (other, old) :: setFirst key value rest

/-- Adds a value under a key of several parts. All parts but the last lead through tables made by
such keys. -/
def add? (entries : Entries) (value : Value) : (path : List String) → Option Entries
  | [] => none
  | [key] => some (entries ++ [(key, value)])
  | key :: path =>
    match entries.lookup key with
    | none => (add? [] value path).map fun inner => entries ++ [(key, .dotted inner)]
    | some (.dotted inner) =>
      (add? inner value path).map fun inner => setFirst key (.dotted inner) entries
    | some _ => none

end Entries

/-! ## Tokens left -/

/-- What is left of some tokens after at least one of them. -/
abbrev Rest (tokens : List Token) : Type := { rest : List Token // rest.length < tokens.length }

/-- Whether a token is spaces and tabs. -/
def Token.isBlank : Token → Bool
  | .blank _ => true
  | _ => false

/-- Tokens without the blanks in front. -/
def skipBlanks (tokens : List Token) : List Token := tokens.dropWhile Token.isBlank

/-- Tokens without the blanks and line ends in front. -/
def skipLines (tokens : List Token) : List Token :=
  tokens.dropWhile fun token => token.isBlank || token = .newline

/-- Skipping blanks leaves no more than there was. -/
theorem length_skipBlanks_le (tokens : List Token) :
    (skipBlanks tokens).length ≤ tokens.length :=
  (List.dropWhile_sublist _).length_le

/-- What is found behind blanks is no longer than what they stand in front of. -/
theorem length_le_of_skipBlanks {tokens left : List Token} (found : skipBlanks tokens = left) :
    left.length ≤ tokens.length :=
  found ▸ length_skipBlanks_le tokens

/-- Skipping blank lines leaves no more than there was. -/
theorem length_skipLines_le (tokens : List Token) :
    (skipLines tokens).length ≤ tokens.length :=
  (List.dropWhile_sublist _).length_le

/-- What is shorter than a list is shorter than a longer one. -/
theorem length_lt_cons {token : Token} {left tokens : List Token}
    (shorter : left.length < tokens.length) : left.length < (token :: tokens).length :=
  Nat.lt_succ_of_lt shorter

/-! ## Keys -/

/-- The part of a key that a token can be. -/
def key? : Token → Option String
  | .word text => some text
  | .quoted text multiline => if multiline then none else some text
  | _ => none

/-- Reads a key: parts with periods between them, and blanks around those. -/
def readPath (tokens : List Token) : Option (List String × Rest tokens) :=
  match tokens with
  | [] => none
  | first :: rest =>
    match key? first with
    | none => none
    | some key =>
      match found : skipBlanks rest with
      | .period :: more =>
        have blanks := length_skipBlanks_le more
        have inside : more.length < rest.length := length_le_of_skipBlanks found
        match readPath (skipBlanks more) with
        | some (path, ⟨left, shorter⟩) =>
          have before := Nat.lt_trans (Nat.lt_of_lt_of_le shorter blanks) inside
          some (key :: path, ⟨left, length_lt_cons before⟩)
        | none => none
      | left =>
        some ([key], ⟨left, Nat.lt_succ_of_le (length_le_of_skipBlanks found)⟩)
termination_by tokens.length
decreasing_by simp only [List.length_cons]; omega

/-! ## Values -/

mutual

/-- Reads a value. -/
def readValue (tokens : List Token) : Option (Value × Rest tokens) :=
  match tokens with
  | .quoted text _ :: rest => some (.text text, ⟨rest, by simp only [List.length_cons]; omega⟩)
  | .word "true" :: rest => some (.boolean true, ⟨rest, by simp only [List.length_cons]; omega⟩)
  | .word "false" :: rest => some (.boolean false, ⟨rest, by simp only [List.length_cons]; omega⟩)
  | .word word :: rest =>
    match read : readNumeral word rest with
    | some (value, left) =>
      some (.numeral value, ⟨left, by
        have := length_readNumeral read
        simp only [List.length_cons]
        omega⟩)
    | none => none
  | .plus :: .word word :: rest =>
    match read : readNumber word rest with
    | some (value, left) =>
      some (.numeral value, ⟨left, by
        have := length_readNumber read
        simp only [List.length_cons]
        omega⟩)
    | none => none
  | .leftBracket :: rest =>
    match readItems rest with
    | some (items, ⟨left, shorter⟩) =>
      some (.list items, ⟨left, by simp only [List.length_cons]; omega⟩)
    | none => none
  | .leftBrace :: rest =>
    have := length_skipBlanks_le rest
    match found : skipBlanks rest with
    | .rightBrace :: left =>
      some (.table [], ⟨left, by simp only [found, List.length_cons] at this ⊢; omega⟩)
    | inside =>
      match readPairs [] inside with
      | some (entries, ⟨left, shorter⟩) =>
        some (.table entries, ⟨left, by simp only [found, List.length_cons] at this ⊢; omega⟩)
      | none => none
  | _ => none
termination_by (tokens.length, 0)
decreasing_by
  · simp only [List.length_cons, Prod.lex_def]; omega
  · simp only [found, List.length_cons, Prod.lex_def] at this ⊢; omega

/-- Reads the items of a list and the bracket behind them. -/
def readItems (tokens : List Token) : Option (List Value × Rest tokens) :=
  have start := length_skipLines_le tokens
  match found : skipLines tokens with
  | .rightBracket :: rest =>
    some ([], ⟨rest, by simp only [found, List.length_cons] at start; omega⟩)
  | items =>
    match readValue items with
    | none => none
    | some (value, ⟨left, shorter⟩) =>
      have := length_skipLines_le left
      match next : skipLines left with
      | .rightBracket :: rest =>
        some ([value], ⟨rest, by
          simp only [found, next, List.length_cons] at start this; omega⟩)
      | .comma :: rest =>
        match readItems rest with
        | some (values, ⟨left, shorter'⟩) =>
          some (value :: values, ⟨left, by
            simp only [found, next, List.length_cons] at start this; omega⟩)
        | none => none
      | _ => none
termination_by (tokens.length, 1)
decreasing_by
  · simp only [found, Prod.lex_def] at start ⊢; omega
  · simp only [found, next, List.length_cons, Prod.lex_def] at start this ⊢; omega

/-- Reads pairs of a key and a value, with commas between them, and the brace behind them. -/
def readPairs (entries : Entries) (tokens : List Token) : Option (Entries × Rest tokens) :=
  match readPath tokens with
  | some (path, ⟨.equals :: rest, shorter⟩) =>
    have := length_skipBlanks_le rest
    match readValue (skipBlanks rest) with
    | none => none
    | some (value, ⟨left, shorter'⟩) =>
      match entries.add? value path with
      | none => none
      | some entries =>
        have := length_skipBlanks_le left
        match next : skipBlanks left with
        | .rightBrace :: rest =>
          some (entries, ⟨rest, by
            simp only [next, List.length_cons] at shorter this; omega⟩)
        | .comma :: rest =>
          have := length_skipBlanks_le rest
          match readPairs entries (skipBlanks rest) with
          | some (entries, ⟨left, shorter''⟩) =>
            some (entries, ⟨left, by
              simp only [next, List.length_cons] at *; omega⟩)
          | none => none
        | _ => none
  | _ => none
termination_by (tokens.length, 1)
decreasing_by
  · simp only [List.length_cons, Prod.lex_def] at *; omega
  · simp only [next, List.length_cons, Prod.lex_def] at *; omega

end

end ClassLowering.Settings
