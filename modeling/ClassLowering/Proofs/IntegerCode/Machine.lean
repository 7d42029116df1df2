import ClassLowering.Lowering.Body
import ClassLowering.Proofs.ArgumentLayout

/-! # Two machines for integer code

Straight-line integer code runs on a source machine and, once lowered, on a target machine. Both
compute with 32-bit integers that wrap around and both have a stack of them; they differ in where
variables live.

* A source frame (`SourceFrame`) has one array of slots. The arguments are laid out in its first
  slots, a long or double one in two of them; all other slots start at zero.
* A target frame (`TargetFrame`) has an array of arguments, one entry for each, and an array of
  local variables that start at zero.

`SourceFrame.run` and `TargetFrame.run` give the value that is returned. There is none when a
machine is stuck, that is when an instruction lacks its operands or is not integer code, and when
it runs past the last instruction. -/

namespace ClassLowering

open Bytecode (Instruction ValueKind)

/-- A value that a method works on. -/
inductive Value where
  | int (value : Int32)
  | long (value : Int64)
  | float (bits : UInt32)
  | double (bits : UInt64)
  /-- A reference to an object, by its handle. -/
  | ref (handle : Nat)
  deriving DecidableEq, Repr

/-- The kind of a value. -/
def Value.kind : Value → ValueKind
  | int _ => .int
  | long _ => .long
  | float _ => .float
  | double _ => .double
  | ref _ => .ref

/-- The integer that a value is. -/
def Value.int? : Value → Option Int32
  | int value => some value
  | long _ | float _ | double _ | ref _ => none

/-! ## Progress of a machine -/

/-- Where a machine is after some instructions. -/
inductive Progress (Frame : Type) where
  /-- It goes on with a frame. -/
  | running (frame : Frame)
  /-- It has returned a value. -/
  | returned (value : Int32)
  /-- It cannot go on. -/
  | stuck
  deriving DecidableEq, Repr

namespace Progress

variable {Frame : Type}

/-- Goes on, unless the machine has returned or is stuck. -/
def andThen (progress : Progress Frame) (next : Frame → Progress Frame) : Progress Frame :=
  match progress with
  | running frame => next frame
  | returned value => returned value
  | stuck => stuck

/-- The value that has been returned. -/
def value? : Progress Frame → Option Int32
  | returned value => some value
  | running _ | stuck => none

/-- Goes on with a frame that is made from what a partial step gives. -/
def ofOption {α : Type} (frame : α → Frame) : Option α → Progress Frame
  | some result => running (frame result)
  | none => stuck

/-- Runs a list of instructions. -/
def execute {Code : Type} (step : Code → Frame → Progress Frame) :
    List Code → Frame → Progress Frame
  | [], frame => running frame
  | code :: codes, frame => (step code frame).andThen (execute step codes)

/-- Code in two parts runs one part after the other. -/
theorem execute_append {Code : Type} (step : Code → Frame → Progress Frame)
    (first second : List Code) (frame : Frame) :
    execute step (first ++ second) frame =
      (execute step first frame).andThen (execute step second) := by
  induction first generalizing frame with
  | nil => rfl
  | cons code codes rest =>
    rw [List.cons_append, execute, execute]
    cases step code frame with
    | running next => exact rest next
    | returned value => rfl
    | stuck => rfl

end Progress

/-! ## Computing on a stack of integers

What an instruction does with the stack alone is a partial function on stacks, whose head is the
top. -/

/-- Pushes a value. -/
def push (value : Int32) (stack : List Int32) : Option (List Int32) := some (value :: stack)

/-- Replaces the top of a stack. -/
def unary (f : Int32 → Int32) : List Int32 → Option (List Int32)
  | value :: rest => some (f value :: rest)
  | [] => none

/-- Replaces the two values on top of a stack; the right operand is the top. -/
def binary (f : Int32 → Int32 → Int32) : List Int32 → Option (List Int32)
  | right :: left :: rest => some (f left right :: rest)
  | _ => none

/-- Drops the top of a stack. -/
def dropTop : List Int32 → Option (List Int32)
  | _ :: rest => some rest
  | [] => none

/-- Doubles the top of a stack. -/
def doubleTop : List Int32 → Option (List Int32)
  | value :: rest => some (value :: value :: rest)
  | [] => none

/-- Keeps the low byte of an integer, with its sign. -/
def lowByte (value : Int32) : Int32 := value.toInt8.toInt32

/-- Keeps the low 16 bits of an integer, with their sign. -/
def lowShort (value : Int32) : Int32 := value.toInt16.toInt32

/-- Keeps the low 16 bits of an integer, as a number that is not negative. -/
def lowChar (value : Int32) : Int32 := value.toUInt32.toUInt16.toUInt32.toInt32

/-- Returns the top of a stack. -/
def returnTop {Frame : Type} : List Int32 → Progress Frame
  | value :: _ => .returned value
  | [] => .stuck

/-! ## The source machine -/

/-- A frame of the source machine. -/
structure SourceFrame where
  stack : List Int32
  /-- The slots; the upper half of a two-slot value holds nothing. -/
  slots : Nat → Option Value

/-- The slots of parameters that have the given values. -/
def layOut : List FieldType → List Value → List (Option Value)
  | type :: types, value :: values =>
    some value :: List.replicate (type.slots - 1) none ++ layOut types values
  | _, _ => []

/-- The slots of the arguments of a method, of which the object it works on is the first. -/
def layOutArguments (hasThis : Bool) (parameters : List FieldType) (arguments : List Value) :
    List (Option Value) :=
  (arguments.take (receiverWidth hasThis)).map some ++
    layOut parameters (arguments.drop (receiverWidth hasThis))

/-- The integer constant at an index of a pool. -/
def ConstantPool.integer? (pool : ConstantPool) (index : Nat) : Option Int32 :=
  match index with
  | 0 => none
  | index + 1 =>
    match pool.constants[index]? with
    | some (.integer value) => some value
    | _ => none

/-- What a source instruction does that is integer code. -/
inductive IntegerAction where
  /-- Computes on the stack alone. -/
  | compute (effect : List Int32 → Option (List Int32))
  /-- Pushes a slot. -/
  | load (slot : Nat)
  /-- Pops into a slot. -/
  | store (slot : Nat)
  /-- Adds a constant to a slot. -/
  | increment (slot : Nat) (constant : Int32)
  /-- Returns the top of the stack. -/
  | finish

/-- The slot that is read or written. -/
def IntegerAction.slot? : IntegerAction → Option Nat
  | load slot | store slot | increment slot _ => some slot
  | compute _ | finish => none

/-- The meaning of an instruction that is straight-line integer code; all others have none. -/
def Bytecode.Instruction.action? (pool : ConstantPool) (instruction : Instruction) :
    Option IntegerAction :=
  match instruction.operation, instruction.operand with
  | .nop, _ => some (.compute some)
  | .intConst n, _ => some (.compute (push (Int32.ofInt (n.val - 1))))
  | .bytePush, .oneValue value | .shortPush, .oneValue value => some (.compute (push value))
  | .loadConst, .oneValue index | .loadConstWide, .oneValue index =>
    (pool.integer? index.toInt.toNat).map fun value => .compute (push value)
  | .load .int, .oneValue slot => some (.load slot.toInt.toNat)
  | .loadSlot .int slot, _ => some (.load slot.val)
  | .store .int, .oneValue slot => some (.store slot.toInt.toNat)
  | .storeSlot .int slot, _ => some (.store slot.val)
  | .intInc, .twoValue slot constant => some (.increment slot.toInt.toNat constant)
  | .arith .add .int, _ => some (.compute (binary (· + ·)))
  | .arith .sub .int, _ => some (.compute (binary (· - ·)))
  | .arith .mul .int, _ => some (.compute (binary (· * ·)))
  | .neg .int, _ => some (.compute (unary (- ·)))
  | .bit .and .int, _ => some (.compute (binary (· &&& ·)))
  | .bit .or .int, _ => some (.compute (binary (· ||| ·)))
  | .bit .xor .int, _ => some (.compute (binary (· ^^^ ·)))
  | .convert .intToByte, _ => some (.compute (unary lowByte))
  | .convert .intToChar, _ => some (.compute (unary lowChar))
  | .convert .intToShort, _ => some (.compute (unary lowShort))
  | .shuffle .dup, _ => some (.compute doubleTop)
  | .shuffle .pop, _ => some (.compute dropTop)
  | .returnValue .int, _ => some .finish
  | _, _ => none

namespace SourceFrame

/-- The frame that a method starts with. -/
def start (hasThis : Bool) (parameters : List FieldType) (arguments : List Value) :
    SourceFrame where
  stack := []
  slots slot := (layOutArguments hasThis parameters arguments)[slot]?.getD (some (.int 0))

/-- The integer in a slot. -/
def read (frame : SourceFrame) (slot : Nat) : Option Int32 := (frame.slots slot).bind Value.int?

/-- Puts an integer into a slot. -/
def assign (frame : SourceFrame) (slot : Nat) (value : Int32) : SourceFrame :=
  { frame with slots := fun other => if other = slot then some (.int value) else frame.slots other }

/-- Performs one action; reading a slot that does not hold an integer is not possible. -/
def perform (frame : SourceFrame) : IntegerAction → Progress SourceFrame
  | .compute effect => .ofOption (fun stack => { frame with stack }) (effect frame.stack)
  | .load slot =>
    .ofOption (fun value => { frame with stack := value :: frame.stack }) (frame.read slot)
  | .store slot =>
    match frame.stack with
    | value :: stack => .running ({ frame with stack }.assign slot value)
    | [] => .stuck
  | .increment slot constant =>
    .ofOption (fun value => frame.assign slot (value + constant)) (frame.read slot)
  | .finish => returnTop frame.stack

/-- Runs one instruction. -/
def step (pool : ConstantPool) (instruction : Instruction) (frame : SourceFrame) :
    Progress SourceFrame :=
  match instruction.action? pool with
  | some action => frame.perform action
  | none => .stuck

/-- The value that code returns. -/
def run (pool : ConstantPool) (code : List Instruction) (frame : SourceFrame) : Option Int32 :=
  (Progress.execute (step pool) code frame).value?

end SourceFrame

/-! ## The target machine -/

/-- What a target instruction does with the stack alone. -/
def Target.Instruction.effect? : Target.Instruction → Option (List Int32 → Option (List Int32))
  | .nop => some some
  | .ldcI4 value => some (push value)
  | .arith .add => some (binary (· + ·))
  | .arith .sub => some (binary (· - ·))
  | .arith .mul => some (binary (· * ·))
  | .neg => some (unary (- ·))
  | .bit .and => some (binary (· &&& ·))
  | .bit .or => some (binary (· ||| ·))
  | .bit .xor => some (binary (· ^^^ ·))
  | .conv .i1 => some (unary lowByte)
  | .conv .u2 => some (unary lowChar)
  | .conv .i2 => some (unary lowShort)
  | .dup => some doubleTop
  | .pop => some dropTop
  | _ => none

/-- A frame of the target machine. -/
structure TargetFrame where
  stack : List Int32
  arguments : List Value
  locals : List Int32
  deriving DecidableEq, Repr

namespace TargetFrame

/-- The frame that a body starts with. -/
def start (arguments : List Value) (body : Target.Body) : TargetFrame where
  stack := []
  arguments
  locals := List.replicate body.locals.length 0

/-- The integer at a place. -/
def read (frame : TargetFrame) : Place → Option Int32
  | .parameter index => frame.arguments[index.toNat]?.bind Value.int?
  | .localVariable index => frame.locals[index.toNat]?

/-- Puts an integer at a place. -/
def write (frame : TargetFrame) (value : Int32) : Place → TargetFrame
  | .parameter index => { frame with arguments := frame.arguments.set index.toNat (.int value) }
  | .localVariable index => { frame with locals := frame.locals.set index.toNat value }

/-- Pushes the integer at a place. -/
def load (frame : TargetFrame) (place : Place) : Progress TargetFrame :=
  .ofOption (fun value => { frame with stack := value :: frame.stack }) (frame.read place)

/-- Pops an integer into a place that holds one. -/
def store (frame : TargetFrame) (place : Place) : Progress TargetFrame :=
  match frame.stack, frame.read place with
  | value :: stack, some _ => .running ({ frame with stack }.write value place)
  | _, _ => .stuck

/-- Runs one instruction. -/
def step (instruction : Target.Instruction) (frame : TargetFrame) : Progress TargetFrame :=
  match instruction with
  | .ldarg index => frame.load (.parameter index)
  | .starg index => frame.store (.parameter index)
  | .ldloc index => frame.load (.localVariable index)
  | .stloc index => frame.store (.localVariable index)
  | .ret => returnTop frame.stack
  | instruction =>
    .ofOption (fun stack => { frame with stack }) (instruction.effect?.bind (· frame.stack))

/-- The value that a body returns. -/
def run (body : Target.Body) (frame : TargetFrame) : Option Int32 :=
  (Progress.execute step (body.instructions.map Prod.snd) frame).value?

end TargetFrame

end ClassLowering
