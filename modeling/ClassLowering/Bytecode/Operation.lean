/-! # The instruction set of class files

An operation is what one code byte stands for. The regular families of the instruction set
(typed loads, typed arithmetic, comparisons, …) are constructors with parameters, so a statement
about a family is one statement.

* `Operation.ofCode` and `Operation.code` relate operations and bytes; every byte stands for
  exactly one operation.
* `Operation.shape` says which operand follows the code byte.
* `Operation.name` is the mnemonic used in dumps and messages. -/

namespace ClassLowering.Bytecode

/-- Kinds of values on the operand stack and in local slots. -/
inductive ValueKind where
  | int
  | long
  | float
  | double
  | ref
  deriving DecidableEq, Repr

namespace ValueKind

/-- The word for a kind in mnemonics. -/
def name : ValueKind → String
  | int => "Int"
  | long => "Long"
  | float => "Float"
  | double => "Double"
  | ref => "Ref"

/-- All kinds, in the order of their code bytes. -/
def all : List ValueKind := [int, long, float, double, ref]

end ValueKind

/-- Kinds of numbers that arithmetic works on. -/
inductive NumericKind where
  | int
  | long
  | float
  | double
  deriving DecidableEq, Repr

namespace NumericKind

/-- A numeric kind as a kind of value. -/
def toValueKind : NumericKind → ValueKind
  | int => .int
  | long => .long
  | float => .float
  | double => .double

/-- All numeric kinds, in the order of their code bytes. -/
def all : List NumericKind := [int, long, float, double]

end NumericKind

/-- Kinds of integers that bitwise operations work on. -/
inductive IntegerKind where
  | int
  | long
  deriving DecidableEq, Repr

namespace IntegerKind

/-- An integer kind as a kind of value. -/
def toValueKind : IntegerKind → ValueKind
  | int => .int
  | long => .long

/-- Both integer kinds, in the order of their code bytes. -/
def all : List IntegerKind := [int, long]

end IntegerKind

/-- Kinds of array elements that have access operations of their own. -/
inductive ElementKind where
  | int
  | long
  | float
  | double
  | ref
  | byte
  | char
  | short
  deriving DecidableEq, Repr

namespace ElementKind

/-- The word for an element kind in mnemonics. -/
def name : ElementKind → String
  | int => "Int"
  | long => "Long"
  | float => "Float"
  | double => "Double"
  | ref => "Ref"
  | byte => "Byte"
  | char => "Char"
  | short => "Short"

/-- All element kinds, in the order of their code bytes. -/
def all : List ElementKind := [int, long, float, double, ref, byte, char, short]

end ElementKind

/-- Arithmetic with two operands. -/
inductive Arithmetic where
  | add
  | sub
  | mul
  | div
  | rem
  deriving DecidableEq, Repr

namespace Arithmetic

/-- The word for an arithmetic operation in mnemonics. -/
def name : Arithmetic → String
  | add => "Add"
  | sub => "Sub"
  | mul => "Mul"
  | div => "Div"
  | rem => "Rem"

/-- All arithmetic operations, in the order of their code bytes. -/
def all : List Arithmetic := [add, sub, mul, div, rem]

end Arithmetic

/-- Bitwise operations and shifts; `ushr` shifts zeros in. -/
inductive Bitwise where
  | shl
  | shr
  | ushr
  | and
  | or
  | xor
  deriving DecidableEq, Repr

namespace Bitwise

/-- The word for a bitwise operation in mnemonics. -/
def name : Bitwise → String
  | shl => "Shl"
  | shr => "Shr"
  | ushr => "Ushr"
  | and => "And"
  | or => "Or"
  | xor => "Xor"

/-- All bitwise operations, in the order of their code bytes. -/
def all : List Bitwise := [shl, shr, ushr, and, or, xor]

end Bitwise

/-- Numeric conversions. -/
inductive Conversion where
  | intToLong
  | intToFloat
  | intToDouble
  | longToInt
  | longToFloat
  | longToDouble
  | floatToInt
  | floatToLong
  | floatToDouble
  | doubleToInt
  | doubleToLong
  | doubleToFloat
  | intToByte
  | intToChar
  | intToShort
  deriving DecidableEq, Repr

namespace Conversion

/-- The mnemonic of a conversion. -/
def name : Conversion → String
  | intToLong => "IntToLong"
  | intToFloat => "IntToFloat"
  | intToDouble => "IntToDouble"
  | longToInt => "LongToInt"
  | longToFloat => "LongToFloat"
  | longToDouble => "LongToDouble"
  | floatToInt => "FloatToInt"
  | floatToLong => "FloatToLong"
  | floatToDouble => "FloatToDouble"
  | doubleToInt => "DoubleToInt"
  | doubleToLong => "DoubleToLong"
  | doubleToFloat => "DoubleToFloat"
  | intToByte => "IntToByte"
  | intToChar => "IntToChar"
  | intToShort => "IntToShort"

/-- All conversions, in the order of their code bytes. -/
def all : List Conversion :=
  [intToLong, intToFloat, intToDouble, longToInt, longToFloat, longToDouble, floatToInt,
    floatToLong, floatToDouble, doubleToInt, doubleToLong, doubleToFloat, intToByte, intToChar,
    intToShort]

end Conversion

/-- Rearrangements of the operand stack. -/
inductive StackShuffle where
  | pop
  | pop2
  | dup
  | dupX1
  | dupX2
  | dup2
  | dup2X1
  | dup2X2
  | swap
  deriving DecidableEq, Repr

namespace StackShuffle

/-- The mnemonic of a stack rearrangement. -/
def name : StackShuffle → String
  | pop => "Pop"
  | pop2 => "Pop2"
  | dup => "Dup"
  | dupX1 => "DupX1"
  | dupX2 => "DupX2"
  | dup2 => "Dup2"
  | dup2X1 => "Dup2X1"
  | dup2X2 => "Dup2X2"
  | swap => "Swap"

/-- All stack rearrangements, in the order of their code bytes. -/
def all : List StackShuffle := [pop, pop2, dup, dupX1, dupX2, dup2, dup2X1, dup2X2, swap]

end StackShuffle

/-- Three-way comparisons of two numbers; `L` and `G` say which way a comparison with a
not-a-number goes. -/
inductive ThreeWay where
  | long
  | floatL
  | floatG
  | doubleL
  | doubleG
  deriving DecidableEq, Repr

namespace ThreeWay

/-- The mnemonic of a three-way comparison. -/
def name : ThreeWay → String
  | long => "LongCompare"
  | floatL => "FloatCompareL"
  | floatG => "FloatCompareG"
  | doubleL => "DoubleCompareL"
  | doubleG => "DoubleCompareG"

/-- All three-way comparisons, in the order of their code bytes. -/
def all : List ThreeWay := [long, floatL, floatG, doubleL, doubleG]

end ThreeWay

/-- Conditions on integers that a branch can test. -/
inductive Condition where
  | eq
  | ne
  | lt
  | ge
  | gt
  | le
  deriving DecidableEq, Repr

namespace Condition

/-- The word for a condition in mnemonics. -/
def name : Condition → String
  | eq => "Eq"
  | ne => "Ne"
  | lt => "Lt"
  | ge => "Ge"
  | gt => "Gt"
  | le => "Le"

/-- All conditions, in the order of their code bytes. -/
def all : List Condition := [eq, ne, lt, ge, gt, le]

end Condition

/-- Conditions on two references that a branch can test. -/
inductive RefCondition where
  | eq
  | ne
  deriving DecidableEq, Repr

namespace RefCondition

/-- The word for a reference condition in mnemonics. -/
def name : RefCondition → String
  | eq => "Eq"
  | ne => "Ne"

/-- Both reference conditions, in the order of their code bytes. -/
def all : List RefCondition := [eq, ne]

end RefCondition

/-- Accesses to fields. -/
inductive FieldAccess where
  | getStatic
  | putStatic
  | getField
  | putField
  deriving DecidableEq, Repr

namespace FieldAccess

/-- The mnemonic of a field access. -/
def name : FieldAccess → String
  | getStatic => "GetStatic"
  | putStatic => "PutStatic"
  | getField => "GetField"
  | putField => "PutField"

/-- All field accesses, in the order of their code bytes. -/
def all : List FieldAccess := [getStatic, putStatic, getField, putField]

end FieldAccess

/-- Method invocations through a member reference. -/
inductive Invocation where
  | virtual
  | special
  | static
  | interface
  deriving DecidableEq, Repr

namespace Invocation

/-- The mnemonic of an invocation. -/
def name : Invocation → String
  | virtual => "InvokeVirtual"
  | special => "InvokeSpecial"
  | static => "InvokeStatic"
  | interface => "InvokeInterface"

/-- All invocations, in the order of their code bytes. -/
def all : List Invocation := [virtual, special, static, interface]

end Invocation

/-- An operation of the instruction set: what one code byte stands for. -/
inductive Operation where
  /-- Does nothing. -/
  | nop
  /-- Pushes the null reference. -/
  | refConstNull
  /-- Pushes the integer `n - 1`. -/
  | intConst (n : Fin 7)
  /-- Pushes the long integer `n`. -/
  | longConst (n : Fin 2)
  /-- Pushes the single-precision number `n`. -/
  | floatConst (n : Fin 3)
  /-- Pushes the double-precision number `n`. -/
  | doubleConst (n : Fin 2)
  /-- Pushes a signed byte. -/
  | bytePush
  /-- Pushes a signed 16-bit integer. -/
  | shortPush
  /-- Pushes a constant with a one-byte index. -/
  | loadConst
  /-- Pushes a constant with a two-byte index. -/
  | loadConstWide
  /-- Pushes a two-word constant with a two-byte index. -/
  | loadConst2Wide
  /-- Pushes a local slot. -/
  | load (kind : ValueKind)
  /-- Pushes one of the first four local slots. -/
  | loadSlot (kind : ValueKind) (slot : Fin 4)
  /-- Pushes an array element. -/
  | arrayLoad (kind : ElementKind)
  /-- Pops into a local slot. -/
  | store (kind : ValueKind)
  /-- Pops into one of the first four local slots. -/
  | storeSlot (kind : ValueKind) (slot : Fin 4)
  /-- Pops into an array element. -/
  | arrayStore (kind : ElementKind)
  /-- Rearranges the stack. -/
  | shuffle (action : StackShuffle)
  /-- Computes on two numbers. -/
  | arith (op : Arithmetic) (kind : NumericKind)
  /-- Negates a number. -/
  | neg (kind : NumericKind)
  /-- Computes on the bits of integers. -/
  | bit (op : Bitwise) (kind : IntegerKind)
  /-- Adds a constant to a local slot. -/
  | intInc
  /-- Converts a number. -/
  | convert (conversion : Conversion)
  /-- Compares two numbers, giving −1, 0 or 1. -/
  | compare (comparison : ThreeWay)
  /-- Branches on an integer compared with zero. -/
  | ifZero (condition : Condition)
  /-- Branches on two integers. -/
  | ifIntCmp (condition : Condition)
  /-- Branches on two references. -/
  | ifRefCmp (condition : RefCondition)
  /-- Branches always. -/
  | goto
  /-- Jumps to a subroutine. -/
  | jsr
  /-- Returns from a subroutine. -/
  | ret
  /-- Branches by index in a table. -/
  | tableSwitch
  /-- Branches by key in a table. -/
  | lookupSwitch
  /-- Returns a value from the method. -/
  | returnValue (kind : ValueKind)
  /-- Returns from the method without a value. -/
  | returnVoid
  /-- Reads or writes a field. -/
  | field (access : FieldAccess)
  /-- Invokes a method. -/
  | invoke (invocation : Invocation)
  /-- Invokes a call site computed at run time. -/
  | invokeDynamic
  /-- Allocates an object. -/
  | new
  /-- Allocates an array of primitive elements. -/
  | newArray
  /-- Allocates an array of references. -/
  | refNewArray
  /-- Pushes the length of an array. -/
  | arrayLength
  /-- Throws an exception. -/
  | throw
  /-- Checks the class of a reference. -/
  | checkCast
  /-- Tests the class of a reference. -/
  | instanceOf
  /-- Enters a monitor. -/
  | monitorEnter
  /-- Leaves a monitor. -/
  | monitorExit
  /-- Widens the operand of the operation that follows. -/
  | wide
  /-- Allocates an array of several dimensions. -/
  | multiNewArray
  /-- Branches on a null reference. -/
  | ifNull
  /-- Branches on a non-null reference. -/
  | ifNonNull
  /-- Branches always, with a four-byte displacement. -/
  | gotoWide
  /-- Jumps to a subroutine, with a four-byte displacement. -/
  | jsrWide
  /-- Reserved for debuggers. -/
  | breakpoint
  /-- A byte without a meaning, `0xcb + n`. -/
  | reserved (n : Fin 51)
  /-- Reserved for implementations. -/
  | impDep1
  /-- Reserved for implementations. -/
  | impDep2
  deriving DecidableEq, Repr

namespace Operation

/-- The operations in the order of their code bytes. -/
def all : List Operation :=
  [[nop, refConstNull], (List.finRange 7).map intConst, (List.finRange 2).map longConst,
    (List.finRange 3).map floatConst, (List.finRange 2).map doubleConst,
    [bytePush, shortPush, loadConst, loadConstWide, loadConst2Wide],
    ValueKind.all.map load,
    ValueKind.all.flatMap (fun kind => (List.finRange 4).map (loadSlot kind)),
    ElementKind.all.map arrayLoad,
    ValueKind.all.map store,
    ValueKind.all.flatMap (fun kind => (List.finRange 4).map (storeSlot kind)),
    ElementKind.all.map arrayStore,
    StackShuffle.all.map shuffle,
    Arithmetic.all.flatMap (fun op => NumericKind.all.map (arith op)),
    NumericKind.all.map neg,
    Bitwise.all.flatMap (fun op => IntegerKind.all.map (bit op)),
    [intInc], Conversion.all.map convert, ThreeWay.all.map compare,
    Condition.all.map ifZero, Condition.all.map ifIntCmp, RefCondition.all.map ifRefCmp,
    [goto, jsr, ret, tableSwitch, lookupSwitch],
    ValueKind.all.map returnValue, [returnVoid],
    FieldAccess.all.map field, Invocation.all.map invoke,
    [invokeDynamic, new, newArray, refNewArray, arrayLength, throw, checkCast, instanceOf,
      monitorEnter, monitorExit, wide, multiNewArray, ifNull, ifNonNull, gotoWide, jsrWide,
      breakpoint],
    (List.finRange 51).map reserved, [impDep1, impDep2]].flatten

/-- The operation that a code byte stands for. -/
def ofCode (code : UInt8) : Operation := all[code.toNat]?.getD nop

/-- The place of an operation in the instruction set. -/
def index : Operation → Nat
  | nop => 0x00
  | refConstNull => 0x01
  | intConst n => 0x02 + n
  | longConst n => 0x09 + n
  | floatConst n => 0x0b + n
  | doubleConst n => 0x0e + n
  | bytePush => 0x10
  | shortPush => 0x11
  | loadConst => 0x12
  | loadConstWide => 0x13
  | loadConst2Wide => 0x14
  | load kind => 0x15 + kind.ctorIdx
  | loadSlot kind slot => 0x1a + 4 * kind.ctorIdx + slot
  | arrayLoad kind => 0x2e + kind.ctorIdx
  | store kind => 0x36 + kind.ctorIdx
  | storeSlot kind slot => 0x3b + 4 * kind.ctorIdx + slot
  | arrayStore kind => 0x4f + kind.ctorIdx
  | shuffle action => 0x57 + action.ctorIdx
  | arith op kind => 0x60 + 4 * op.ctorIdx + kind.ctorIdx
  | neg kind => 0x74 + kind.ctorIdx
  | bit op kind => 0x78 + 2 * op.ctorIdx + kind.ctorIdx
  | intInc => 0x84
  | convert conversion => 0x85 + conversion.ctorIdx
  | compare comparison => 0x94 + comparison.ctorIdx
  | ifZero condition => 0x99 + condition.ctorIdx
  | ifIntCmp condition => 0x9f + condition.ctorIdx
  | ifRefCmp condition => 0xa5 + condition.ctorIdx
  | goto => 0xa7
  | jsr => 0xa8
  | ret => 0xa9
  | tableSwitch => 0xaa
  | lookupSwitch => 0xab
  | returnValue kind => 0xac + kind.ctorIdx
  | returnVoid => 0xb1
  | field access => 0xb2 + access.ctorIdx
  | invoke invocation => 0xb6 + invocation.ctorIdx
  | invokeDynamic => 0xba
  | new => 0xbb
  | newArray => 0xbc
  | refNewArray => 0xbd
  | arrayLength => 0xbe
  | throw => 0xbf
  | checkCast => 0xc0
  | instanceOf => 0xc1
  | monitorEnter => 0xc2
  | monitorExit => 0xc3
  | wide => 0xc4
  | multiNewArray => 0xc5
  | ifNull => 0xc6
  | ifNonNull => 0xc7
  | gotoWide => 0xc8
  | jsrWide => 0xc9
  | breakpoint => 0xca
  | reserved n => 0xcb + n
  | impDep1 => 0xfe
  | impDep2 => 0xff

/-- The code byte of an operation. -/
def code (operation : Operation) : UInt8 := operation.index.toUInt8

/-- The mnemonic of an operation. -/
def name : Operation → String
  | nop => "Nop"
  | refConstNull => "RefConstNull"
  | intConst n => if n = 0 then "IntConstM1" else "IntConst" ++ toString (n.val - 1)
  | longConst n => "LongConst" ++ toString n.val
  | floatConst n => "FloatConst" ++ toString n.val
  | doubleConst n => "DoubleConst" ++ toString n.val
  | bytePush => "BytePush"
  | shortPush => "ShortPush"
  | loadConst => "LoadConst"
  | loadConstWide => "LoadConstWide"
  | loadConst2Wide => "LoadConst2Wide"
  | load kind => kind.name ++ "Load"
  | loadSlot kind slot => kind.name ++ "Load" ++ toString slot.val
  | arrayLoad kind => kind.name ++ "ArrayLoad"
  | store kind => kind.name ++ "Store"
  | storeSlot kind slot => kind.name ++ "Store" ++ toString slot.val
  | arrayStore kind => kind.name ++ "ArrayStore"
  | shuffle action => action.name
  | arith op kind => kind.toValueKind.name ++ op.name
  | neg kind => kind.toValueKind.name ++ "Neg"
  | bit op kind => kind.toValueKind.name ++ op.name
  | intInc => "IntInc"
  | convert conversion => conversion.name
  | compare comparison => comparison.name
  | ifZero condition => "If" ++ condition.name
  | ifIntCmp condition => "IfIntCmp" ++ condition.name
  | ifRefCmp condition => "IfRefCmp" ++ condition.name
  | goto => "Goto"
  | jsr => "Jsr"
  | ret => "Ret"
  | tableSwitch => "TableSwitch"
  | lookupSwitch => "LookupSwitch"
  | returnValue kind => kind.name ++ "Return"
  | returnVoid => "Return"
  | field access => access.name
  | invoke invocation => invocation.name
  | invokeDynamic => "InvokeDynamic"
  | new => "New"
  | newArray => "NewArray"
  | refNewArray => "RefNewArray"
  | arrayLength => "ArrayLength"
  | throw => "Throw"
  | checkCast => "CheckCast"
  | instanceOf => "InstanceOf"
  | monitorEnter => "MonitorEnter"
  | monitorExit => "MonitorExit"
  | wide => "Wide"
  | multiNewArray => "MultiNewArray"
  | ifNull => "IfNull"
  | ifNonNull => "IfNonNull"
  | gotoWide => "GotoWide"
  | jsrWide => "JsrWide"
  | breakpoint => "Breakpoint"
  | reserved n => "Reserved(" ++ toString (0xcb + n.val) ++ ")"
  | impDep1 => "ImpDep1"
  | impDep2 => "ImpDep2"

end Operation

/-- What follows a code byte. -/
inductive OperandShape where
  /-- Nothing. -/
  | simple
  /-- One byte, or two after a `wide` operation. -/
  | oneValue
  /-- Two bytes. -/
  | wideOneValue
  /-- A slot and a signed constant, one byte each, or two each after a `wide` operation. -/
  | twoValue
  /-- A signed displacement. -/
  | branch
  /-- Two bytes and one byte more. -/
  | valueExtra
  /-- A padded jump table. -/
  | table
  deriving DecidableEq, Repr

namespace Operation

/-- The shape of the operand that follows the code byte. -/
def shape : Operation → OperandShape
  | bytePush | loadConst | load _ | store _ | ret | newArray => .oneValue
  | shortPush | loadConstWide | loadConst2Wide | field _ | invoke .virtual | invoke .special
  | invoke .static | new | refNewArray | checkCast | instanceOf => .wideOneValue
  | intInc => .twoValue
  | ifZero _ | ifIntCmp _ | ifRefCmp _ | goto | jsr | ifNull | ifNonNull | gotoWide
  | jsrWide => .branch
  | invoke .interface | invokeDynamic | multiNewArray => .valueExtra
  | tableSwitch | lookupSwitch => .table
  | _ => .simple

/-- The places of the operations of the table are counted through without a gap. -/
theorem map_index_all : all.map index = List.range 256 := by decide +kernel

/-- Every operation stands in the table at its own place. -/
theorem getElem?_all_index (operation : Operation) : all[operation.index]? = some operation := by
  cases operation with
  | loadSlot kind slot | storeSlot kind slot => revert slot; cases kind <;> decide +kernel
  | load kind | store kind | arrayLoad kind | arrayStore kind | neg kind | returnValue kind =>
    cases kind <;> decide +kernel
  | arith op kind | bit op kind => cases op <;> cases kind <;> decide +kernel
  | shuffle family | convert family | compare family | ifZero family | ifIntCmp family
  | ifRefCmp family | field family | invoke family => cases family <;> decide +kernel
  | intConst n | longConst n | floatConst n | doubleConst n | reserved n =>
    revert n; decide +kernel
  | _ => decide +kernel

/-- Places in the table are below 256. -/
theorem index_lt (operation : Operation) : operation.index < 256 := by
  have length_all : all.length = 256 := by simpa using congrArg List.length map_index_all
  obtain ⟨bound, -⟩ := List.getElem?_eq_some_iff.1 (getElem?_all_index operation)
  exact length_all ▸ bound

/-- The operation of an operation's code is that operation. -/
@[simp] theorem ofCode_code (operation : Operation) : ofCode operation.code = operation := by
  simp [ofCode, code, Nat.mod_eq_of_lt (index_lt operation), getElem?_all_index]

/-- The code of the operation of a byte is that byte. -/
@[simp] theorem code_ofCode (byte : UInt8) : (ofCode byte).code = byte := by
  have place : (all.map index)[byte.toNat]? = some byte.toNat := by
    rw [map_index_all, List.getElem?_range byte.toNat_lt]
  obtain ⟨operation, found, same⟩ := Option.map_eq_some_iff.1 (List.getElem?_map ▸ place)
  simp [ofCode, code, found, same]

end Operation

end ClassLowering.Bytecode
