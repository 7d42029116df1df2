/-! # UTF-8

Bytes are cut into characters and ill-formed parts, where a part is as long as it could still have
become a character. `decode?` accepts well-formed bytes only; `decodeLossy` puts the replacement
character in the place of each ill-formed part. -/

namespace ClassLowering.Utf8

/-- What a decoder is in the middle of. -/
inductive Decoder where
  | between
  /-- In a character with `missing + 1` bytes to come, the next of them in a range. -/
  | inside (missing : Nat) (least greatest : UInt8) (value : Nat)
  deriving DecidableEq, Repr

/-- Starts on a byte: what it completes, if anything, and the decoder behind it. -/
def start (byte : UInt8) : List (Option Char) × Decoder :=
  if byte ≤ 0x7F then ([some (Char.ofNat byte.toNat)], .between)
  else if byte < 0xC2 then ([none], .between)
  else if byte ≤ 0xDF then ([], .inside 0 0x80 0xBF (byte.toNat % 32))
  else if byte = 0xE0 then ([], .inside 1 0xA0 0xBF 0)
  else if byte = 0xED then ([], .inside 1 0x80 0x9F 0xD)
  else if byte ≤ 0xEF then ([], .inside 1 0x80 0xBF (byte.toNat % 16))
  else if byte = 0xF0 then ([], .inside 2 0x90 0xBF 0)
  else if byte ≤ 0xF3 then ([], .inside 2 0x80 0xBF (byte.toNat % 8))
  else if byte = 0xF4 then ([], .inside 2 0x80 0x8F 4)
  else ([none], .between)

/-- Goes on with a byte; one that does not fit ends an ill-formed part and starts anew. -/
def step (decoder : Decoder) (byte : UInt8) : List (Option Char) × Decoder :=
  match decoder with
  | .between => start byte
  | .inside missing least greatest value =>
    if least ≤ byte ∧ byte ≤ greatest then
      let value := 64 * value + byte.toNat % 64
      match missing with
      | 0 => ([some (Char.ofNat value)], .between)
      | missing + 1 => ([], .inside missing 0x80 0xBF value)
    else
      let (parts, next) := start byte
      (none :: parts, next)

/-- The characters of bytes, with `none` for each ill-formed part. -/
def parts (decoder : Decoder) : List UInt8 → List (Option Char)
  | [] => if decoder = .between then [] else [none]
  | byte :: rest =>
    let (completed, next) := step decoder byte
    completed ++ parts next rest

/-- The text of well-formed bytes. -/
def decode? (bytes : List UInt8) : Option String :=
  ((parts .between bytes).mapM id).map String.ofList

/-- The text of bytes, with a replacement character for each ill-formed part. -/
def decodeLossy (bytes : List UInt8) : String :=
  String.ofList ((parts .between bytes).map (·.getD (Char.ofNat 0xFFFD)))

/-- The bytes of a text. -/
def encode (text : String) : List UInt8 := text.toUTF8.toList

end ClassLowering.Utf8
