import ClassLowering.Bytecode.Operation
import ClassLowering.Target.Signature

/-! # Method bodies of the target

A body is a list of stack-machine instructions, each with the offset of the source instruction it
comes from, the local variables they use, and what is carried along without instructions: branches,
source instructions without a counterpart, and protected regions. -/

namespace ClassLowering.Target

open Bytecode (Arithmetic Bitwise Operation)

/-- Number representations of the target. -/
inductive NumberType where
  | i1
  | u2
  | i2
  | i4
  | i8
  | r4
  | r8
  deriving DecidableEq, Repr

/-- Array elements that have instructions of their own. -/
inductive ElementType where
  | number (type : NumberType)
  | ref
  deriving DecidableEq, Repr

/-- Helpers of the target's runtime. -/
inductive RuntimeHelper where
  /-- Turns a type token into a type object. -/
  | typeFromHandle
  /-- Allocates an object without running a constructor. -/
  | uninitializedObject
  deriving DecidableEq, Repr

/-- An instruction of the target; floating-point constants are kept as their bits. -/
inductive Instruction where
  | nop
  | ldnull
  | ldcI4 (value : Int32)
  | ldcI8 (value : Int64)
  | ldcR4 (bits : UInt32)
  | ldcR8 (bits : UInt64)
  | ldstr (text : String)
  | ldarg (index : UInt16)
  | starg (index : UInt16)
  | ldloc (index : UInt16)
  | stloc (index : UInt16)
  | arith (op : Arithmetic)
  | neg
  | bit (op : Bitwise)
  | conv (type : NumberType)
  | dup
  | pop
  | ret
  | throw
  | ldtoken (type : TypeRef)
  | callRuntime (helper : RuntimeHelper)
  | call (method : MethodRef)
  | callvirt (method : MethodRef)
  | ldfld (field : FieldRef)
  | ldsfld (field : FieldRef)
  | stfld (field : FieldRef)
  | stsfld (field : FieldRef)
  | ldelem (type : ElementType)
  | stelem (type : ElementType)
  | newarr (element : TypeSig)
  | ldlen
  | castclass (type : TypeSig)
  deriving DecidableEq, Repr

/-- A local variable. -/
structure Local where
  /-- The number that the variable is labelled with, which is mostly its source slot. -/
  slot : UInt16
  name : Option String
  sig : TypeSig
  deriving DecidableEq, Repr

/-- A source instruction without target instructions. -/
inductive Deferred where
  /-- A branch to an offset. -/
  | branch (offset : UInt32) (operation : Operation) (target : UInt32)
  /-- An operation that has no counterpart. -/
  | unmapped (offset : UInt32) (operation : Operation)
  deriving DecidableEq, Repr

/-- A region of source offsets with a handler for exceptions. -/
structure Region where
  start : UInt32
  stop : UInt32
  handler : UInt32
  catchClass : Option String
  deriving DecidableEq, Repr

/-- The body of a method. -/
structure Body where
  maxStack : UInt16
  locals : List Local
  /-- Instructions with the offsets they come from. -/
  instructions : List (UInt32 × Instruction)
  deferred : List Deferred
  regions : List Region
  deriving DecidableEq, Repr

end ClassLowering.Target
