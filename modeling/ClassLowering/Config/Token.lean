/-! # Words of a settings file

Settings are written as lines of words, quoted texts and signs. A text is cut into tokens one
character at a time: a `Scanner` remembers what it is in the middle of, so that cutting is a
recursion over the characters.

* A comment runs from `#` to the end of its line and leaves no token.
* A text in double quotes may have escapes, one in single quotes has none. Neither may hold control
  characters other than tabs.
* A text in three quotes may span lines. A line end right behind the opening quotes is left out,
  and up to two more quotes in front of the closing ones belong to the text. In three double
  quotes, a backslash at the end of a line takes all blanks and line ends behind it out. -/

namespace ClassLowering.Settings

/-- A token of a settings file. -/
inductive Token where
  | newline
  /-- Spaces and tabs; `isSpace` says that it is one space. -/
  | blank (isSpace : Bool)
  | equals
  | period
  | comma
  | colon
  | plus
  | leftBrace
  | rightBrace
  | leftBracket
  | rightBracket
  /-- A bare key, a number or a truth value. -/
  | word (text : String)
  | quoted (text : String) (multiline : Bool)
  deriving DecidableEq, Repr

/-- The two ways to quote a text. -/
inductive Quote where
  | literal
  | basic
  deriving DecidableEq, Repr

/-- The character that a quotation starts and ends with. -/
def Quote.mark : Quote → Char
  | literal => '\''
  | basic => '"'

/-- What a scanner is in the middle of; collected characters stand in reverse. -/
inductive Scanner where
  | between
  | comment
  | blank (isSpace : Bool)
  | word (collected : List Char)
  /-- Right behind an opening mark. -/
  | opened (quote : Quote)
  /-- Right behind two marks: an empty text, or the start of three. -/
  | openedTwice (quote : Quote)
  /-- In a text of one line. -/
  | single (quote : Quote) (collected : List Char)
  /-- Right behind three opening marks. -/
  | openedThrice (quote : Quote)
  /-- In a text of several lines, behind a run of marks. -/
  | multiple (quote : Quote) (collected : List Char) (marks : Nat)
  /-- Right behind a backslash. -/
  | escape (multiline : Bool) (collected : List Char)
  /-- In a character given by its code, with digits to come. -/
  | code (multiline : Bool) (collected : List Char) (missing value : Nat)
  /-- Behind a backslash and blanks, with a line end to come. -/
  | lineEnd (collected : List Char)
  /-- Behind a backslash and a line end, where blanks and line ends are left out. -/
  | trimming (collected : List Char)
  deriving DecidableEq, Repr

/-- Whether a character can be part of a word. -/
def isWordChar (c : Char) : Bool := c.isAlphanum || c == '_' || c == '-'

/-- Whether a character can be part of a quoted text. -/
def isTextChar (c : Char) : Bool := c == '\t' || (0x20 ≤ c.toNat && c.toNat != 0x7F)

/-- The value of a hexadecimal digit. -/
def hexValue? (c : Char) : Option Nat :=
  if '0' ≤ c && c ≤ '9' then some (c.toNat - '0'.toNat)
  else if 'a' ≤ c && c ≤ 'f' then some (c.toNat - 'a'.toNat + 10)
  else if 'A' ≤ c && c ≤ 'F' then some (c.toNat - 'A'.toNat + 10)
  else none

/-- The character that a backslash and a letter stand for. -/
def simpleEscape? : Char → Option Char
  | '"' => some '"'
  | '\\' => some '\\'
  | 'b' => some '\x08'
  | 'f' => some '\x0c'
  | 'n' => some '\n'
  | 'r' => some '\r'
  | 't' => some '\t'
  | _ => none

/-- The character with a code, unless the code is a surrogate or too large. -/
def charOfCode? (code : Nat) : Option Char :=
  if code.isValidChar then some (Char.ofNat code) else none

namespace Scanner

/-- The text of collected characters. -/
def text (collected : List Char) : String := String.ofList collected.reverse

/-- The scanner in a text of double quotes, with some characters collected. -/
def inBasic (multiline : Bool) (collected : List Char) : Scanner :=
  if multiline then multiple .basic collected 0 else single .basic collected

/-- Starts on a character that does not continue anything. -/
def start (c : Char) : Option (Scanner × List Token) :=
  match c with
  | ' ' => some (blank true, [])
  | '\t' => some (blank false, [])
  | '\n' => some (between, [.newline])
  | '#' => some (comment, [])
  | '=' => some (between, [.equals])
  | '.' => some (between, [.period])
  | ',' => some (between, [.comma])
  | ':' => some (between, [.colon])
  | '+' => some (between, [.plus])
  | '\x7b' => some (between, [.leftBrace])
  | '\x7d' => some (between, [.rightBrace])
  | '[' => some (between, [.leftBracket])
  | ']' => some (between, [.rightBracket])
  | '"' => some (opened .basic, [])
  | '\'' => some (opened .literal, [])
  | c => if isWordChar c then some (word [c], []) else none

/-- Completes a token and starts on the character behind it. -/
def finishWith (token : Token) (c : Char) : Option (Scanner × List Token) :=
  (start c).map fun (next, tokens) => (next, token :: tokens)

/-- Goes on in a text of one line. -/
def stepSingle (quote : Quote) (collected : List Char) (c : Char) :
    Option (Scanner × List Token) :=
  if c = quote.mark then some (between, [.quoted (text collected) false])
  else if c = '\\' ∧ quote = .basic then some (escape false collected, [])
  else if isTextChar c then some (single quote (c :: collected), [])
  else none

/-- Goes on in a text of several lines, where no mark comes right before. -/
def stepMultiple (quote : Quote) (collected : List Char) (c : Char) :
    Option (Scanner × List Token) :=
  if c = quote.mark then some (multiple quote collected 1, [])
  else if c = '\\' ∧ quote = .basic then some (escape true collected, [])
  else if c = '\n' ∨ isTextChar c then some (multiple quote (c :: collected) 0, [])
  else none

/-- The token of a text that a run of at least three marks ends. -/
def closed (quote : Quote) (collected : List Char) (marks : Nat) : Token :=
  .quoted (text (List.replicate (marks - 3) quote.mark ++ collected)) true

/-- Goes on with a character, giving the tokens that it completes. -/
def step (scanner : Scanner) (c : Char) : Option (Scanner × List Token) :=
  match scanner with
  | between => start c
  | comment =>
    if c = '\n' then some (between, [.newline])
    else if c = '\t' || 0x20 ≤ c.toNat then some (comment, [])
    else none
  | blank isSpace =>
    if c = ' ' ∨ c = '\t' then some (blank false, []) else finishWith (.blank isSpace) c
  | word collected =>
    if isWordChar c then some (word (c :: collected), [])
    else finishWith (.word (text collected)) c
  | opened quote =>
    if c = quote.mark then some (openedTwice quote, []) else stepSingle quote [] c
  | openedTwice quote =>
    if c = quote.mark then some (openedThrice quote, []) else finishWith (.quoted "" false) c
  | single quote collected => stepSingle quote collected c
  | openedThrice quote =>
    if c = '\n' then some (multiple quote [] 0, []) else stepMultiple quote [] c
  | multiple quote collected marks =>
    if c = quote.mark then
      if marks = 4 then some (between, [closed quote collected 5])
      else some (multiple quote collected (marks + 1), [])
    else if 3 ≤ marks then finishWith (closed quote collected marks) c
    else stepMultiple quote (List.replicate marks quote.mark ++ collected) c
  | escape multiline collected =>
    if c = 'u' then some (code multiline collected 4 0, [])
    else if c = 'U' then some (code multiline collected 8 0, [])
    else if multiline ∧ c = '\n' then some (trimming collected, [])
    else if multiline ∧ (c = ' ' ∨ c = '\t') then some (lineEnd collected, [])
    else (simpleEscape? c).map fun meant => (inBasic multiline (meant :: collected), [])
  | code multiline collected missing value =>
    match hexValue? c with
    | none => none
    | some digit =>
      let value := 16 * value + digit
      if missing ≤ 1 then
        (charOfCode? value).map fun meant => (inBasic multiline (meant :: collected), [])
      else
        some (code multiline collected (missing - 1) value, [])
  | lineEnd collected =>
    if c = '\n' then some (trimming collected, [])
    else if c = ' ' ∨ c = '\t' then some (lineEnd collected, [])
    else none
  | trimming collected =>
    if c = '\n' ∨ c = ' ' ∨ c = '\t' then some (trimming collected, [])
    else stepMultiple .basic collected c

/-- The token that the end of the text completes, unless it is in the middle of a quoted text. -/
def finish : Scanner → Option (List Token)
  | between | comment => some []
  | blank isSpace => some [.blank isSpace]
  | word collected => some [.word (text collected)]
  | openedTwice _ => some [.quoted "" false]
  | multiple quote collected marks =>
    if 3 ≤ marks then some [closed quote collected marks] else none
  | _ => none

/-- Cuts a text into tokens. -/
def scan (scanner : Scanner) : List Char → Option (List Token)
  | [] => scanner.finish
  | c :: rest =>
    match scanner.step c with
    | some (next, tokens) => (tokens ++ ·) <$> next.scan rest
    | none => none

end Scanner

/-- Line ends of two characters become line ends of one. -/
def foldLineEnds : List Char → List Char
  | '\r' :: '\n' :: rest => '\n' :: foldLineEnds rest
  | c :: rest => c :: foldLineEnds rest
  | [] => []

/-- A text without a byte order mark at its start. -/
def dropMark : List Char → List Char
  | '\ufeff' :: rest => rest
  | text => text

/-- The tokens of a settings file. -/
def tokens? (text : String) : Option (List Token) :=
  Scanner.between.scan (dropMark (foldLineEnds text.toList))

end ClassLowering.Settings
