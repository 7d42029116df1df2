import ClassLowering.Config.Token

/-! # Numbers and dates of a settings file

A word may start a number or a date, which may take more tokens: a fraction behind a period, an
exponent behind a plus sign, a time behind a colon. Numbers have to be in range. What a date says
is not checked: a word is taken for one by the look of it.

`readNumeral` gives the tokens behind, never more than it was given (`length_readNumeral`). -/

namespace ClassLowering.Settings

/-- A number or a date. No setting is a decimal or a date, so that nothing more is kept of them. -/
inductive Numeral where
  | integer (value : Int)
  | decimal
  | date
  deriving DecidableEq, Repr

/-! ## Digits -/

/-- How digits may be written. -/
structure DigitStyle where
  base : Nat := 10
  /-- Whether digits may stand behind a zero in front. -/
  leadingZeros : Bool := true

/-- What has been read of some digits. -/
structure DigitsSoFar where
  /-- Whether there is a digit. -/
  started : Bool := false
  /-- Whether the first digit is zero. -/
  zeroFirst : Bool := false
  /-- Whether an underscore came last. -/
  underscore : Bool := false

namespace DigitsSoFar

/-- Whether digits may end here. -/
def isComplete (before : DigitsSoFar) : Bool := before.started && !before.underscore

/-- Takes one more digit. -/
def add (before : DigitsSoFar) (digit : Nat) : DigitsSoFar :=
  ⟨true, if before.started then before.zeroFirst else digit = 0, false⟩

end DigitsSoFar

/-- The digits at the start of a text, with single underscores between them left out, and the text
behind them. -/
def digits? (style : DigitStyle) (before : DigitsSoFar) :
    List Char → Option (List Nat × List Char)
  | [] => if before.isComplete then some ([], []) else none
  | c :: rest =>
    match (hexValue? c).filter (· < style.base) with
    | some digit =>
      if before.zeroFirst ∧ ¬ style.leadingZeros then none
      else
        (digits? style (before.add digit) rest).map fun (digits, left) => (digit :: digits, left)
    | none =>
      if ¬ before.isComplete then none
      else if c = '_' then digits? style { before with underscore := true } rest
      else some ([], c :: rest)

/-- The number that digits stand for. -/
def ofDigits (base : Nat) (digits : List Nat) : Nat :=
  digits.foldl (fun number digit => base * number + digit) 0

/-- The number that a text of digits stands for. -/
def natural? (style : DigitStyle) (text : List Char) : Option Nat :=
  match digits? style {} text with
  | some (digits, []) => some (ofDigits style.base digits)
  | _ => none

/-- Whether a text has a minus sign, and the text behind it. -/
def splitSign : List Char → Bool × List Char
  | '-' :: rest => (true, rest)
  | text => (false, text)

/-- A number with a sign. -/
def withSign (negative : Bool) (number : Nat) : Int := if negative then -number else number

/-- The number that a text of digits with a sign stands for. -/
def signed? (style : DigitStyle) (text : List Char) : Option Int :=
  let (negative, digits) := splitSign text
  (natural? style digits).map (withSign negative)

/-- An integer of 64 bits. -/
def integer64? (value : Int) : Option Numeral :=
  if Int64.minValue.toInt ≤ value ∧ value ≤ Int64.maxValue.toInt then
    some (.integer value)
  else
    none

/-! ## Decimals -/

/-- Whether `number * 10 ^ exponent` rounds to a finite number of 64 bits, that is, lies below the
middle between the largest such number and the next power of two. -/
def roundsToFinite (number : Nat) (exponent : Int) : Bool :=
  let limit := Nat.pow 2 1024 - Nat.pow 2 970
  let order := (Nat.toDigits 10 number).length + exponent
  if number = 0 ∨ order < 300 then true
  else if 320 < order then false
  else if 0 ≤ exponent then number * Nat.pow 10 exponent.toNat < limit
  else number < limit * Nat.pow 10 (-exponent).toNat

/-- The exponent that a text behind the digits gives, or the word behind it and a plus sign if the
text ends with its letter; and the tokens behind. -/
def readExponent (suffix : List Char) (rest : List Token) : Option (Int × List Token) :=
  match suffix with
  | [] => some (0, rest)
  | letter :: text =>
    if letter ≠ 'e' ∧ letter ≠ 'E' then none
    else if text ≠ [] then (signed? {} text).map fun exponent => (exponent, rest)
    else
      match rest with
      | .plus :: .word digits :: rest | .word digits :: rest =>
        (natural? {} digits.toList).map fun (exponent : Nat) => ((exponent : Int), rest)
      | _ => none

/-- The digits behind a period, which has to follow the digits in front of it, and the text behind
them. -/
def readFraction (suffix : List Char) : Option String → Option (List Nat × List Char)
  | none => some ([], suffix)
  | some fraction => if suffix = [] then digits? {} {} fraction.toList else none

/-- Reads a decimal. -/
def readDecimal (text : List Char) (fraction : Option String) (rest : List Token) :
    Option (Numeral × List Token) :=
  match digits? { leadingZeros := false } {} (splitSign text).2 with
  | none => none
  | some (whole, suffix) =>
    match readFraction suffix fraction with
    | none => none
    | some (part, suffix) =>
      match readExponent suffix rest with
      | none => none
      | some (exponent, rest) =>
        if roundsToFinite (ofDigits 10 (whole ++ part)) (exponent - part.length) then
          some (.decimal, rest)
        else none

/-- The decimals that are no numbers, or too large for one. -/
def specialDecimals : List String := ["inf", "-inf", "nan", "-nan"]

/-- Reads a number that starts with a word. -/
def readNumber (word : String) (rest : List Token) : Option (Numeral × List Token) :=
  match word.toList with
  | '0' :: 'x' :: digits => whole { base := 16 } digits
  | '0' :: 'o' :: digits => whole { base := 8 } digits
  | '0' :: 'b' :: digits => whole { base := 2 } digits
  | text =>
    if 'e' ∈ text ∨ 'E' ∈ text then readDecimal text none rest
    else
      match rest with
      | .period :: .word fraction :: rest => readDecimal text (some fraction) rest
      | .period :: _ => none
      | rest =>
        if word ∈ specialDecimals then some (.decimal, rest)
        else
          ((signed? { leadingZeros := false } text).bind integer64?).map fun value => (value, rest)
where
  /-- The integer that digits without a sign stand for. -/
  whole (style : DigitStyle) (digits : List Char) : Option (Numeral × List Token) :=
    ((natural? style digits).bind fun (value : Nat) => integer64? value).map
      fun value => (value, rest)

/-! ## Dates -/

/-- The tokens behind a mark and the word that has to follow it; all of them without the mark. -/
def skipMarked (mark : Token) : List Token → Option (List Token)
  | [] => some []
  | token :: rest =>
    if token = mark then
      match rest with
      | .word _ :: rest => some rest
      | _ => none
    else some (token :: rest)

/-- The tokens behind minutes and seconds, with a fraction and an offset if there is one. -/
def skipClock : List Token → Option (List Token)
  | .word _ :: .colon :: .word _ :: rest =>
    ((skipMarked .period rest).bind (skipMarked .plus)).bind (skipMarked .colon)
  | _ => none

/-- The tokens behind the hour of a date, if one stands behind a space. -/
def skipHour : List Token → List Token
  | .blank true :: .word _ :: rest => rest
  | tokens => tokens

/-- Reads what follows the first word of a date, and the colon behind it if `colon` says so. -/
def readDate (colon : Bool) (rest : List Token) : Option (Numeral × List Token) :=
  let rest := skipHour rest
  let left := match colon, rest with
    | true, rest => skipClock rest
    | false, .colon :: rest => skipClock rest
    | false, rest => some rest
  left.map fun left => (.date, left)

/-- Whether a minus sign stands right behind the letter of an exponent. -/
def hasNegativeExponent : List Char → Bool
  | [] => false
  | 'e' :: '-' :: _ | 'E' :: '-' :: _ => true
  | _ :: rest => hasNegativeExponent rest

/-- Whether a word looks like the start of a date: it has a `T`, or a minus sign that is not in
front of the digits. -/
def looksLikeDate (text : List Char) : Bool :=
  't' ∈ text || 'T' ∈ text || ('-' ∈ text.drop 1 && !hasNegativeExponent text)

/-- Whether a word can start a number or a date without a plus sign. -/
def startsNumeral (word : String) : Bool :=
  word = "inf" || word = "nan" || word.toList.head?.any fun c => c = '-' || c.isDigit

/-- Reads a number or a date that starts with a word. -/
def readNumeral (word : String) (rest : List Token) : Option (Numeral × List Token) :=
  if ¬ startsNumeral word then none
  else if looksLikeDate word.toList then readDate false rest
  else
    match rest with
    | .colon :: rest => readDate true rest
    | rest => readNumber word rest

/-! ## Nothing is put back -/

/-- An exponent takes words from the front only. -/
theorem length_readExponent {suffix : List Char} {rest left : List Token} {exponent : Int}
    (read : readExponent suffix rest = some (exponent, left)) : left.length ≤ rest.length := by
  unfold readExponent at read
  repeat' split at read
  all_goals grind [Option.map_eq_some_iff]

/-- A decimal takes words from the front only. -/
theorem length_readDecimal {text : List Char} {fraction : Option String}
    {rest left : List Token} {value : Numeral}
    (read : readDecimal text fraction rest = some (value, left)) :
    left.length ≤ rest.length := by
  unfold readDecimal at read
  repeat' split at read
  all_goals grind [→ length_readExponent]

/-- A number takes words from the front only. -/
theorem length_readNumber {word : String} {rest left : List Token} {value : Numeral}
    (read : readNumber word rest = some (value, left)) : left.length ≤ rest.length := by
  unfold readNumber readNumber.whole at read
  repeat' split at read
  all_goals grind [Option.map_eq_some_iff, → length_readDecimal]

/-- What is skipped behind a mark stands in front. -/
theorem length_skipMarked {mark : Token} {tokens left : List Token}
    (skipped : skipMarked mark tokens = some left) : left.length ≤ tokens.length := by
  unfold skipMarked at skipped
  repeat' split at skipped
  all_goals grind

/-- What is skipped of a time of day stands in front. -/
theorem length_skipClock {tokens left : List Token}
    (skipped : skipClock tokens = some left) : left.length ≤ tokens.length := by
  unfold skipClock at skipped
  split at skipped
  · obtain ⟨middle, found, skipped⟩ := Option.bind_eq_some_iff.1 skipped
    obtain ⟨first, start, found⟩ := Option.bind_eq_some_iff.1 found
    have := length_skipMarked start
    have := length_skipMarked found
    have := length_skipMarked skipped
    simp only [List.length_cons]
    omega
  · exact absurd skipped nofun

/-- What is skipped of an hour stands in front. -/
theorem length_skipHour (tokens : List Token) : (skipHour tokens).length ≤ tokens.length := by
  unfold skipHour
  split
  · simp only [List.length_cons]
    omega
  · exact Nat.le_refl _

/-- A date takes words from the front only. -/
theorem length_readDate {colon : Bool} {rest left : List Token} {value : Numeral}
    (read : readDate colon rest = some (value, left)) : left.length ≤ rest.length := by
  have start := length_skipHour rest
  simp only [readDate, Option.map_eq_some_iff] at read
  obtain ⟨_, skipped, same⟩ := read
  split at skipped
  all_goals grind [→ length_skipClock]

/-- Whatever a word starts, no more words are left than there were behind it. -/
theorem length_readNumeral {word : String} {rest left : List Token} {value : Numeral}
    (read : readNumeral word rest = some (value, left)) : left.length ≤ rest.length := by
  unfold readNumeral at read
  repeat' split at read
  all_goals grind [→ length_readDate, → length_readNumber]

end ClassLowering.Settings
