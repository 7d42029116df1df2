import ClassLowering.Bytecode.Instruction
import ClassLowering.Bytes.LoggedRead
import ClassLowering.ConstantPool.Basic

/-! # Attributes of classes, fields, methods and code

An attribute is a name, a length and that many bytes. Attributes with a known name are decoded
from exactly their bytes; the others are kept as they are. The code of a method is itself an
attribute with attributes, so reading is recursive: `Attribute.readMany` ends because the bytes of
an attribute are fewer than the bytes ahead of it. -/

namespace ClassLowering

open Bytecode (Instruction)
open Read

/-- The life of a local variable: the offsets from `start` on for `length` bytes, in slot
`index`. -/
structure LocalVariable where
  start : UInt16
  length : UInt16
  name : String
  descriptor : String
  index : UInt16
  deriving DecidableEq, Repr

/-- Whether the variable is alive at an offset. -/
def LocalVariable.inRange (row : LocalVariable) (offset : UInt32) : Bool :=
  row.start.toNat ≤ offset.toNat && offset.toNat < row.start.toNat + row.length.toNat

/-- A handler for exceptions thrown between two offsets. -/
structure ExceptionHandler where
  start : UInt16
  stop : UInt16
  handler : UInt16
  /-- The class of exceptions that is handled, or nothing for all of them. -/
  catchClass : Option String
  deriving DecidableEq, Repr

/-- The code of a method without its attributes. -/
structure CodeFrame where
  maxStack : UInt16
  maxLocals : UInt16
  /-- The length of the code array in bytes. -/
  codeLength : UInt32
  instructions : List Instruction
  exceptionTable : List ExceptionHandler
  deriving DecidableEq, Repr

/-- An attribute. -/
inductive Attribute where
  /-- An attribute with a name that is not known. -/
  | raw (name : String) (bytes : List UInt8)
  /-- The code of a method, with attributes of its own. -/
  | code (frame : CodeFrame) (attributes : List Attribute)
  /-- The local variables of a code array. -/
  | localVariableTable (rows : List LocalVariable)
  /-- The class that hosts the nest that this class is in. -/
  | nestHost (name : String)
  /-- The initial value of a field. -/
  | constantValue (constant : Constant)
  /-- The name of the file that a class was compiled from. -/
  | sourceFile (name : String)

/-- The code of a method. -/
structure MethodCode extends CodeFrame where
  attributes : List Attribute

namespace Attribute

/-- The name of an attribute. -/
def name : Attribute → String
  | raw name _ => name
  | code _ _ => "Code"
  | localVariableTable _ => "LocalVariableTable"
  | nestHost _ => "NestHost"
  | constantValue _ => "ConstantValue"
  | sourceFile _ => "SourceFile"

/-! ## The first attribute of a kind -/

/-- The code among some attributes. -/
def code? (attributes : List Attribute) : Option MethodCode :=
  attributes.findSome? fun
    | code frame attributes => some ⟨frame, attributes⟩
    | _ => none

/-- The local variables among some attributes, none if there is no table of them. -/
def localVariables (attributes : List Attribute) : List LocalVariable :=
  (attributes.findSome? fun
    | localVariableTable rows => some rows
    | _ => none).getD []

/-- The nest host among some attributes. -/
def nestHost? (attributes : List Attribute) : Option String :=
  attributes.findSome? fun
    | nestHost name => some name
    | _ => none

/-- The initial value among some attributes. -/
def constantValue? (attributes : List Attribute) : Option Constant :=
  attributes.findSome? fun
    | constantValue constant => some constant
    | _ => none

/-- The source file among some attributes. -/
def sourceFile? (attributes : List Attribute) : Option String :=
  attributes.findSome? fun
    | sourceFile name => some name
    | _ => none

/-! ## Reading -/

variable (pool : ConstantPool)

/-- Reads a row of a table of local variables. -/
def readLocalVariable : Read LocalVariable := do
  let start ← u16
  let length ← u16
  let name ← pool.utf8 (← u16)
  let descriptor ← pool.utf8 (← u16)
  let index ← u16
  return ⟨start, length, name, descriptor, index⟩

/-- Reads a row of an exception table. -/
def readExceptionHandler : Read ExceptionHandler := do
  let start ← u16
  let stop ← u16
  let handler ← u16
  let catchClass ← pool.className? (← u16)
  return ⟨start, stop, handler, catchClass⟩

/-- Reads the code of a method up to its attributes, and the number of those. -/
def readCodeFrame : Read (CodeFrame × UInt16) := do
  let maxStack ← u16
  let maxLocals ← u16
  let codeLength ← u32
  let code ← sub codeLength.toNat
  let instructions ← Instruction.readAll code
  let handlers ← u16
  let exceptionTable ← times handlers.toNat (readExceptionHandler pool)
  let attributes ← u16
  return (⟨maxStack, maxLocals, codeLength, instructions, exceptionTable⟩, attributes)

/-- Reads the name and splits off the bytes of an attribute. -/
def readHeader : Read (String × Cursor) := do
  let name ← pool.utf8 (← u16)
  let length ← u32
  let payload ← sub length.toNat
  return (name, payload)

/-- Decodes the bytes of an attribute that has no attributes of its own. -/
def readPlain (name : String) (payload : Cursor) : Logged Error Attribute :=
  match name with
  | "LocalVariableTable" => do
    let (rows, _) ← (do
      let count ← u16
      times count.toNat (readLocalVariable pool) : Read (List LocalVariable)).run payload
    return localVariableTable rows
  | "NestHost" => do
    let (index, _) ← u16.run payload
    return nestHost (← pool.className index)
  | "ConstantValue" => do
    let (index, _) ← u16.run payload
    return constantValue (← pool.required index)
  | "SourceFile" => do
    let (index, _) ← u16.run payload
    return sourceFile (← pool.utf8 index)
  | name => do
    let bytes := payload.rest
    Logged.record .debug s!"skipping {bytes.length} bytes of undecoded attribute {name}"
    return raw name bytes

/-- The payload of an attribute and what is behind it are shorter than the attribute, so nested
attributes end. -/
theorem readHeader_length_lt {start payload next : Cursor} {name : String}
    (found : readHeader pool start = .ok ((name, payload), next)) :
    payload.rest.length < start.rest.length ∧ next.rest.length < start.rest.length := by
  obtain ⟨index, afterIndex, readIndex, found⟩ := bind_eq_ok.1 found
  obtain ⟨text, afterName, readName, found⟩ := bind_eq_ok.1 found
  obtain ⟨length, afterLength, readLength, found⟩ := bind_eq_ok.1 found
  obtain ⟨bytes, afterBytes, split, found⟩ := bind_eq_ok.1 found
  cases found
  have := consumes_u16 _ _ _ readIndex
  have := consumes_lift _ _ _ _ readName
  have := consumes_u32 _ _ _ readLength
  have := sub_length split
  omega

/-- A handler gives no byte back. -/
theorem consumes_readExceptionHandler : Consumes 0 (readExceptionHandler pool) :=
  (consumes_u16.bind fun _ => consumes_u16.bind fun _ => consumes_u16.bind fun _ =>
    consumes_u16.bind fun _ => (consumes_lift _).bind fun _ => consumes_pure _).mono (Nat.zero_le _)

/-- The front part of a code attribute gives no byte back. -/
theorem consumes_readCodeFrame : Consumes 0 (readCodeFrame pool) :=
  (consumes_u16.bind fun _ => consumes_u16.bind fun _ => consumes_u32.bind fun _ =>
    (consumes_sub _).bind fun _ => (consumes_lift _).bind fun _ => consumes_u16.bind fun _ =>
    (consumes_times (consumes_readExceptionHandler pool) _).bind fun _ =>
    consumes_u16.bind fun _ => consumes_pure _).mono (Nat.zero_le _)

/-- Reads `count` attributes. -/
def readMany (count : Nat) (cursor : Cursor) : Logged Error (List Attribute × Cursor) :=
  match count with
  | 0 => pure ([], cursor)
  | count + 1 =>
    match _header : readHeader pool cursor with
    | .error failure => throw failure
    | .ok ((name, payload), next) => do
      let first ←
        if name = "Code" then
          match _body : readCodeFrame pool payload with
          | .error failure => throw failure
          | .ok ((frame, inner), nested) => do
            let (attributes, _) ← readMany inner.toNat nested
            pure (code frame attributes)
        else
          readPlain pool name payload
      let (others, stop) ← readMany count next
      return (first :: others, stop)
termination_by cursor.rest.length
decreasing_by
  · exact (readHeader_length_lt pool _header).2
  · have := readHeader_length_lt pool _header
    have := consumes_readCodeFrame pool payload _ nested _body
    omega

/-- Reads a list of attributes, count included. -/
def readList : LoggedRead (List Attribute) := do
  let count ← u16
  readMany pool count.toNat

end Attribute

end ClassLowering
