import ClassLowering.Bytecode.Instruction
import ClassLowering.LocalStorage
import ClassLowering.Resolution.Member
import ClassLowering.Target.Body

/-! # Lowering one instruction

Every source instruction contributes either target instructions or one deferred record. Most
operations have a fixed counterpart; accesses to slots consult the storage of the method, and
operands that are pool indices are resolved in a scope. -/

namespace ClassLowering

open Bytecode (Conversion ElementKind FieldAccess Invocation Operation ValueKind)
open Target (Deferred ElementType FieldRef MethodRef NumberType TypeSig)

/-- What a source instruction becomes. -/
inductive Contribution where
  | instructions (list : List Target.Instruction)
  | deferred (record : Deferred)
  deriving DecidableEq, Repr

namespace Contribution

/-- One target instruction. -/
def single (instruction : Target.Instruction) : Contribution := instructions [instruction]

end Contribution

/-! ## Fixed counterparts -/

/-- The representation that a conversion leads to. -/
def Bytecode.Conversion.target : Conversion → NumberType
  | .longToInt | .floatToInt | .doubleToInt => .i4
  | .intToLong | .floatToLong | .doubleToLong => .i8
  | .intToFloat | .longToFloat | .doubleToFloat => .r4
  | .intToDouble | .longToDouble | .floatToDouble => .r8
  | .intToByte => .i1
  | .intToChar => .u2
  | .intToShort => .i2

/-- The representation of an array element. -/
def Bytecode.ElementKind.target : ElementKind → ElementType
  | .int => .number .i4
  | .long => .number .i8
  | .float => .number .r4
  | .double => .number .r8
  | .ref => .ref
  | .byte => .number .i1
  | .char => .number .u2
  | .short => .number .i2

/-- The bits of a small single-precision number. -/
def singleBits (n : Fin 3) : UInt32 :=
  match n with
  | 0 => 0x00000000
  | 1 => 0x3f800000
  | 2 => 0x40000000

/-- The bits of a small double-precision number. -/
def doubleBits (n : Fin 2) : UInt64 :=
  match n with
  | 0 => 0x0000000000000000
  | 1 => 0x3ff0000000000000

/-- The counterpart of an operation that needs neither an operand nor a context. -/
def fixedCounterpart : Operation → Option Target.Instruction
  | .nop => some .nop
  | .refConstNull => some .ldnull
  | .intConst n => some (.ldcI4 (Int32.ofInt (n.val - 1)))
  | .longConst n => some (.ldcI8 (Int64.ofNat n.val))
  | .floatConst n => some (.ldcR4 (singleBits n))
  | .doubleConst n => some (.ldcR8 (doubleBits n))
  | .shuffle .pop => some .pop
  | .shuffle .dup => some .dup
  | .arith op _ => some (.arith op)
  | .neg _ => some .neg
  | .bit op _ => some (.bit op)
  | .convert conversion => some (.conv conversion.target)
  | .returnValue _ | .returnVoid => some .ret
  | .arrayLength => some .ldlen
  | .throw => some .throw
  | .arrayLoad kind => some (.ldelem kind.target)
  | .arrayStore kind => some (.stelem kind.target)
  | _ => none

/-- The element type that a number stands for when an array of primitive elements is made. -/
def primitiveElement (code : Int32) : Option TypeSig :=
  match code.toInt with
  | 4 => some .bool
  | 5 => some .char
  | 6 => some .f32
  | 7 => some .f64
  | 8 => some .i8
  | 9 => some .i16
  | 10 => some .i32
  | 11 => some .i64
  | _ => none

/-- The counterpart of a field access. -/
def accessCounterpart (field : FieldRef) : FieldAccess → Target.Instruction
  | .getStatic => .ldsfld field
  | .putStatic => .stsfld field
  | .getField => .ldfld field
  | .putField => .stfld field

/-- The counterpart of an invocation: only virtual and interface methods are dispatched. -/
def invocationCounterpart (method : MethodRef) : Invocation → Target.Instruction
  | .special | .static => .call method
  | .virtual | .interface => .callvirt method

/-! ## Counterparts in a method -/

/-- Lowering in a method, whose storage grows on the way. -/
abbrev Emit : Type → Type := StateT LocalStorage (Logged Error)

namespace Emit

/-- Finds the place of a slot for an access at an offset. -/
def place (slot : Nat) (offset : UInt32) (kind : ValueKind) : Emit Place := fun storage =>
  storage.lookup slot offset kind

/-- The instruction that loads a slot at an offset. -/
def load (slot : Nat) (offset : UInt32) (kind : ValueKind) : Emit Target.Instruction := do
  match ← place slot offset kind with
  | .parameter index => return .ldarg index
  | .localVariable index => return .ldloc index

/-- The instruction that stores into a slot that is alive at an offset. -/
def store (slot : Nat) (offset : UInt32) (kind : ValueKind) : Emit Target.Instruction := do
  match ← place slot offset kind with
  | .parameter index => return .starg index
  | .localVariable index => return .stloc index

/-- Records an instruction without a counterpart. -/
def unmapped (instruction : Bytecode.Instruction) : Emit Contribution := do
  let operation := instruction.operation
  liftM (Logged.record .trace
    s!"no mapping for {operation.name} at {instruction.offset}" : Logged Error Unit)
  return .deferred (.unmapped instruction.offset operation)

variable (scope : Scope) (pool : ConstantPool)

/-- Loads a constant; a text is wrapped into an object. -/
def constant (instruction : Bytecode.Instruction) : Emit Contribution := do
  match ← pool.required instruction.index with
  | .integer value => return .single (.ldcI4 value)
  | .float bits => return .single (.ldcR4 bits)
  | .long value => return .single (.ldcI8 value)
  | .double bits => return .single (.ldcR8 bits)
  | .string text => return .instructions [.ldstr text, .call Catalog.stringFactory]
  | _ => unmapped instruction

/-- Adds a constant to a slot: the slot is loaded at the instruction's own offset and stored at the
next one. -/
def increment (instruction : Bytecode.Instruction) (next : UInt32) : Emit Contribution := do
  match instruction.operand with
  | .twoValue slot constant =>
    let slot := slot.toUInt32.toUInt16.toNat
    let load ← load slot instruction.offset .int
    let store ← store slot next .int
    return .instructions [load, .ldcI4 constant, .arith .add, store]
  | _ => return .instructions []

/-- Lowers an instruction; `next` is the offset behind it, where a stored value starts to live. -/
def lower (instruction : Bytecode.Instruction) (next : UInt32) : Emit Contribution :=
  match instruction.branchTarget? with
  | some target =>
    return .deferred (.branch instruction.offset instruction.operation target)
  | none =>
    match fixedCounterpart instruction.operation with
    | some counterpart => return .single counterpart
    | none =>
      match instruction.operation with
      | .load kind => .single <$> load instruction.index.toNat instruction.offset kind
      | .loadSlot kind slot => .single <$> load slot.val instruction.offset kind
      | .store kind => .single <$> store instruction.index.toNat next kind
      | .storeSlot kind slot => .single <$> store slot.val next kind
      | .bytePush | .shortPush => return .single (.ldcI4 (instruction.value?.getD 0))
      | .loadConst | .loadConstWide | .loadConst2Wide => constant pool instruction
      | .intInc => increment instruction next
      | .field access => do
        let field ← scope.field (← pool.member instruction.index)
        return .single (accessCounterpart field access)
      | .invoke invocation => do
        let method ← scope.method (← pool.member instruction.index)
        return .single (invocationCounterpart method invocation)
      | .new => do
        let type ← scope.resolve (← pool.className instruction.index)
        return .instructions
          [.ldtoken type, .callRuntime .typeFromHandle, .callRuntime .uninitializedObject]
      | .newArray =>
        match instruction.value?.bind primitiveElement with
        | some element => return .single (.newarr element)
        | none => unmapped instruction
      | .refNewArray => do
        let element ← scope.classSig (← pool.className instruction.index)
        return .single (.newarr element)
      | .checkCast => do
        let type ← scope.classSig (← pool.className instruction.index)
        return .single (.castclass type)
      | _ => unmapped instruction

end Emit

end ClassLowering
