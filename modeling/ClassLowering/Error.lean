import ClassLowering.Bytecode.Operation

/-! # What can go wrong

Failures are causes with the data that identifies them; `Error.message` is the only place that
words them. Four categories:

* `FormatError`: the bytes are not a class file;
* `UnsupportedFeature`: they are, with an instruction that is not handled;
* `ResolutionError`: a name or a member is unknown or ambiguous;
* `ConsistencyError`: debug data and instructions contradict each other. -/

namespace ClassLowering

open Bytecode (Operation)

/-- What an entry of a constant pool was expected to be. -/
inductive ExpectedConstant where
  /-- Any constant at all. -/
  | constant
  | utf8
  | classReference
  | nameAndType
  | member
  deriving DecidableEq, Repr

/-- The words for an expected constant. -/
def ExpectedConstant.description : ExpectedConstant → String
  | constant => "constant"
  | utf8 => "UTF8 entry"
  | classReference => "class reference"
  | nameAndType => "name-and-type pair"
  | member => "member reference"

/-- Faults of the bytes of a class file. -/
inductive FormatError where
  /-- The first four bytes are not the signature of a class file. -/
  | badMagic (bytes : List UInt8)
  /-- A read of `needed` bytes at `offset` passes the end. -/
  | unexpectedEnd (offset needed : Nat)
  /-- No constant has this tag. -/
  | unknownTag (tag : UInt8) (index : Nat)
  /-- A pool index past the end of the pool. -/
  | badIndex (index : UInt16) (count : Nat)
  /-- A pool index of the wrong kind of constant. -/
  | wrongConstant (index : UInt16) (expected : ExpectedConstant)
  /-- Pool index zero where a constant is required. -/
  | absentConstant
  /-- A two-index constant at the last index of the pool. -/
  | wideOverrun (index : Nat)
  /-- Text that is not modified UTF-8. -/
  | badUtf8 (index : Nat)
  /-- A type descriptor outside the grammar. -/
  | badDescriptor (text : String)
  /-- A method that needs code and has none. -/
  | missingCode (owner name descriptor : String)
  deriving DecidableEq, Repr

/-- Instructions that are recognised and not handled. -/
inductive UnsupportedFeature where
  /-- An operation with a jump table. -/
  | jumpTable (operation : Operation) (offset : UInt32)
  /-- A `wide` operation that widens a `wide` operation. -/
  | wideRecursion (offset : UInt32)
  deriving DecidableEq, Repr

/-- Names and members that cannot be resolved. -/
inductive ResolutionError where
  /-- A class that is neither in the catalog nor in the module. -/
  | unknownClass (name : String)
  /-- No method matches. -/
  | unknownMethod (owner name descriptor : String)
  /-- Several methods match. -/
  | ambiguousMethod (owner name descriptor : String) (count : Nat)
  /-- No field matches. -/
  | unknownField (owner name descriptor : String)
  /-- Several fields match. -/
  | ambiguousField (owner name descriptor : String) (count : Nat)
  deriving DecidableEq, Repr

/-- Contradictions between debug data and instructions. -/
inductive ConsistencyError where
  /-- Several variable ranges of one slot cover one offset. -/
  | overlappingLocals (slot : Nat) (offset : UInt32) (count : Nat)
  /-- An access to the upper half of a two-slot argument. -/
  | splitArgument (slot : Nat)
  deriving DecidableEq, Repr

/-- Why a class file cannot be read or lowered. -/
inductive Error where
  | format (cause : FormatError)
  | unsupported (cause : UnsupportedFeature)
  | resolution (cause : ResolutionError)
  | consistency (cause : ConsistencyError)
  deriving DecidableEq, Repr

/-- A byte as two upper-case hexadecimal digits. -/
def hexByte (byte : UInt8) : String :=
  let digit (n : Nat) : Char := "0123456789ABCDEF".toList.getD n '0'
  String.ofList [digit (byte.toNat / 16), digit (byte.toNat % 16)]

/-- The wording of a format error. -/
def FormatError.message : FormatError → String
  | badMagic bytes => "invalid class magic [" ++ ", ".intercalate (bytes.map hexByte) ++ "]"
  | unexpectedEnd offset needed =>
    s!"unexpected end of input at offset {offset} (needed {needed} bytes)"
  | unknownTag tag index => s!"unknown constant pool tag {tag} at index {index}"
  | badIndex index count =>
    s!"constant pool index {index} is out of range (pool has {count} entries)"
  | wrongConstant index expected =>
    s!"constant pool index {index} is not a {expected.description}"
  | absentConstant => "required constant pool reference is absent"
  | wideOverrun index => s!"wide constant at index {index} overruns the constant pool"
  | badUtf8 index => s!"invalid modified UTF-8 at constant pool index {index}"
  | badDescriptor text => "bad type descriptor u!(\"" ++ text ++ "\")"
  | missingCode owner name descriptor =>
    s!"method {owner}.{name}{descriptor} has no Code attribute"

/-- The wording of an unsupported feature. -/
def UnsupportedFeature.message : UnsupportedFeature → String
  | jumpTable operation offset =>
    s!"jump table opcode {operation.name} at offset {offset} is not supported"
  | wideRecursion offset => s!"wide opcode recursion at offset {offset}"

/-- The wording of a resolution error. -/
def ResolutionError.message : ResolutionError → String
  | unknownClass name => s!"could not find class {name}"
  | unknownMethod owner name descriptor =>
    s!"could not find method {name}{descriptor} on {owner}"
  | ambiguousMethod owner name descriptor count =>
    s!"method {name}{descriptor} on {owner} matches {count} candidates"
  | unknownField owner name descriptor =>
    s!"could not find field {name}:{descriptor} on {owner}"
  | ambiguousField owner name descriptor count =>
    s!"field {name}:{descriptor} on {owner} matches {count} candidates"

/-- The wording of a consistency error. -/
def ConsistencyError.message : ConsistencyError → String
  | overlappingLocals slot offset count =>
    s!"{count} local variable ranges cover slot {slot} at offset {offset}"
  | splitArgument slot => s!"slot {slot} addresses the upper half of a two-slot argument"

/-- The wording of an error: its category and its cause. -/
def Error.message : Error → String
  | format cause => "format error: " ++ cause.message
  | unsupported cause => "unsupported feature: " ++ cause.message
  | resolution cause => "resolution error: " ++ cause.message
  | consistency cause => "consistency error: " ++ cause.message

end ClassLowering
