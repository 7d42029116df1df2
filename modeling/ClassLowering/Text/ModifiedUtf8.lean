/-! # Modified UTF-8

Class files store text in a variant of UTF-8: the zero character takes two bytes, and a character
past the 16-bit range is written as two surrogates of three bytes each. `decode` accepts exactly
the well-formed byte sequences and gives their characters:

* a surrogate pair is combined by joining bit fields, with the bit of `0x10000` always set;
* a surrogate that is not part of a pair becomes the replacement character. -/

namespace ClassLowering.ModifiedUtf8

/-- Whether a byte continues a sequence. -/
def isContinuation (byte : UInt8) : Bool := 0x80 ≤ byte && byte ≤ 0xBF

/-- The payload of a continuation byte. -/
def low6 (byte : UInt8) : Nat := byte.toNat % 64

/-- The payload bits that a surrogate's second byte has beside its kind. -/
def low4 (byte : UInt8) : Nat := byte.toNat % 16

/-- Whether a two-byte sequence is well formed: of the overlong ones only those that start with
`0xC0`, and the one form of `0x40`, are allowed. -/
def validTwo (first second : UInt8) : Bool :=
  isContinuation second && (first != 0xC1 || second == 0x80)

/-- Whether a three-byte sequence is well formed: it is not overlong; surrogates are allowed. -/
def validThree (first second third : UInt8) : Bool :=
  isContinuation second && isContinuation third && (first != 0xE0 || 0xA0 ≤ second)

/-- Whether a three-byte sequence is a high surrogate. -/
def isHighSurrogate (first second : UInt8) : Bool :=
  first == 0xED && 0xA0 ≤ second && second ≤ 0xAF

/-- Whether a three-byte sequence is a low surrogate. -/
def isLowSurrogate (first second : UInt8) : Bool :=
  first == 0xED && 0xB0 ≤ second && second ≤ 0xBF

/-- The character of a two-byte sequence. -/
def charTwo (first second : UInt8) : Char :=
  Char.ofNat (first.toNat % 32 * 64 + low6 second)

/-- The character of a three-byte sequence that is not a surrogate. -/
def charThree (first second third : UInt8) : Char :=
  Char.ofNat (first.toNat % 16 * 4096 + low6 second * 64 + low6 third)

/-- The character of a surrogate pair, from the bytes of both that carry payload. -/
def charPair (high2 high3 low2 low3 : UInt8) : Char :=
  Char.ofNat (0x10000 ||| (low4 high2 <<< 16) ||| (low6 high3 <<< 10) ||| (low4 low2 <<< 6)
    ||| low6 low3)

/-- Stands for a surrogate without its partner. -/
def replacement : Char := Char.ofNat 0xFFFD

/-- The characters of a byte sequence, or nothing if it is not well formed. -/
def decode : List UInt8 → Option (List Char)
  | [] => some []
  | first :: rest =>
    if first = 0x00 then none
    else if first ≤ 0x7F then
      (Char.ofNat first.toNat :: ·) <$> decode rest
    else if first ≤ 0xBF then none
    else if first ≤ 0xDF then
      match rest with
      | second :: rest =>
        if validTwo first second then (charTwo first second :: ·) <$> decode rest else none
      | _ => none
    else if first ≤ 0xEF then
      match rest with
      | second :: third :: rest =>
        if validThree first second third then
          if isHighSurrogate first second then
            match rest with
            | first' :: second' :: third' :: rest' =>
              if isLowSurrogate first' second' && isContinuation third' then
                (charPair second third second' third' :: ·) <$> decode rest'
              else
                (replacement :: ·) <$> decode (first' :: second' :: third' :: rest')
            | rest => (replacement :: ·) <$> decode rest
          else if isLowSurrogate first second then
            (replacement :: ·) <$> decode rest
          else
            (charThree first second third :: ·) <$> decode rest
        else none
      | _ => none
    else none
termination_by bytes => bytes.length

/-- The text of a byte sequence, or nothing if it is not well formed. -/
def decodeString (bytes : List UInt8) : Option String := String.ofList <$> decode bytes

end ClassLowering.ModifiedUtf8
