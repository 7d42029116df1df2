import ClassLowering.Decimal.Shortest
import ClassLowering.Document.Basic

/-! # Documents as text

The text form of a document has one item or field a line, indented by two blanks a level; empty
lists and records stay on their line.

* A text stands in quotes, with quotes, backslashes and control characters escaped.
* A floating-point number is its shortest decimal: positional with a point for magnitudes near
  one, with an explicitly signed exponent otherwise. Infinities and not-a-numbers are null. -/

namespace ClassLowering.Document

open Decimal (Format)

/-! ## Numbers -/

/-- Which decimal exponents are written positionally. -/
structure NumberLayout where
  format : Format
  /-- The least exponent written positionally. -/
  least : Int
  /-- The greatest exponent written positionally. -/
  greatest : Int

/-- Single-precision numbers are positional from a millionth to below ten trillion. -/
def singleLayout : NumberLayout := ⟨.single, -6, 12⟩

/-- Double-precision numbers are positional from a hundred-thousandth to below ten quadrillion. -/
def doubleLayout : NumberLayout := ⟨.double, -5, 15⟩

/-- The text of `0.d₁d₂… * 10 ^ (exponent + 1)`, positional or with an exponent. -/
def NumberLayout.write (layout : NumberLayout) (digits : List Char) (exponent : Int) : String :=
  if layout.least ≤ exponent ∧ exponent ≤ layout.greatest then
    if exponent < 0 then
      String.ofList ("0.".toList ++ List.replicate (-exponent - 1).toNat '0' ++ digits)
    else
      let whole := exponent.toNat + 1
      let fraction := digits.drop whole
      String.ofList (digits.take whole ++ List.replicate (whole - digits.length) '0' ++
        '.' :: (if fraction.isEmpty then ['0'] else fraction))
  else
    let sign := if exponent < 0 then '-' else '+'
    let fraction := digits.drop 1
    String.ofList (digits.take 1 ++ (if fraction.isEmpty then [] else '.' :: fraction) ++
      'e' :: sign :: (toString exponent.natAbs).toList)

/-- The text of the number with some bits. -/
def NumberLayout.text (layout : NumberLayout) (bits : Nat) : String :=
  let format := layout.format
  if format.isFinite bits then
    let magnitude := format.magnitude bits
    let sign := if format.isNegative bits then "-" else ""
    if magnitude.significand = 0 then
      sign ++ "0.0"
    else
      let decimal := Decimal.shortest magnitude
      let digits := (toString decimal.digits).toList
      sign ++ layout.write digits (decimal.exponent + digits.length - 1)
  else
    "null"

/-! ## Texts -/

/-- The digit of a number below sixteen. -/
def hexDigit (n : Nat) : Char := "0123456789abcdef".toList.getD n '0'

/-- A character as it stands between quotes. -/
def escape (c : Char) : List Char :=
  match c with
  | '"' => ['\\', '"']
  | '\\' => ['\\', '\\']
  | '\n' => ['\\', 'n']
  | '\r' => ['\\', 'r']
  | '\t' => ['\\', 't']
  | '\x08' => ['\\', 'b']
  | '\x0c' => ['\\', 'f']
  | c =>
    if c.toNat < 0x20 then ['\\', 'u', '0', '0', hexDigit (c.toNat / 16), hexDigit (c.toNat % 16)]
    else [c]

/-- A text in quotes. -/
def quote (value : String) : String :=
  String.ofList ('"' :: value.toList.flatMap escape ++ ['"'])

/-! ## Trees -/

/-- A new line at a level. -/
def newline (level : Nat) : String := String.ofList ('\n' :: List.replicate (2 * level) ' ')

/-- Items between brackets, each on a line of its own one level deeper. -/
def bracket (left right : String) (level : Nat) (items : List String) : String :=
  if items.isEmpty then left ++ right
  else
    let separator := newline (level + 1)
    left ++ separator ++ ("," ++ separator).intercalate items ++ newline level ++ right

mutual

/-- The text of a document whose first line starts at a level. -/
def prettyAt (level : Nat) : Document → String
  | null => "null"
  | bool value => if value then "true" else "false"
  | int value => toString value
  | single bits => singleLayout.text bits.toNat
  | double bits => doubleLayout.text bits.toNat
  | text value => quote value
  | list items => bracket "[" "]" level (prettyItems (level + 1) items)
  | record fields => bracket "\x7b" "\x7d" level (prettyFields (level + 1) fields)

/-- The texts of the items of a list. -/
def prettyItems (level : Nat) : List Document → List String
  | [] => []
  | item :: items => prettyAt level item :: prettyItems level items

/-- The texts of the fields of a record. -/
def prettyFields (level : Nat) : List (String × Document) → List String
  | [] => []
  | (name, value) :: fields =>
    (quote name ++ ": " ++ prettyAt level value) :: prettyFields level fields

end

/-- The text of a document. -/
def pretty (document : Document) : String := prettyAt 0 document

end ClassLowering.Document
