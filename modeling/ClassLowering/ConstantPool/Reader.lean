import ClassLowering.Bytes.LoggedRead
import ClassLowering.ConstantPool.Basic
import ClassLowering.Text.ModifiedUtf8

/-! # Reading constant pools

A pool is a count and the constants for the indices from 1 to below it, each behind a tag. A long
or double constant takes two indices and stands at both. A string constant names a text constant
that may come later, so strings are resolved once all constants are there; then every remaining
reference is checked. -/

namespace ClassLowering

open Read

/-- A constant as it stands in the file, where a string constant is still an index. -/
inductive RawConstant where
  | plain (constant : Constant)
  | stringRef (text : UInt16)
  deriving DecidableEq, Repr

namespace RawConstant

/-- Whether the constant takes two indices. -/
def isWide : RawConstant → Bool
  | plain (.long _) | plain (.double _) => true
  | _ => false

/-- Reads a text constant for an index. -/
def readUtf8 (index : Nat) : Read Constant := do
  let length ← u16
  match ModifiedUtf8.decodeString (← bytes length.toNat) with
  | some text => return .utf8 text
  | none => fail (.format (.badUtf8 index))

/-- Reads a constant that consists of two indices. -/
def readPair (make : UInt16 → UInt16 → Constant) : Read Constant := do
  let first ← u16
  let second ← u16
  return make first second

/-- Reads a reference to a method's executable form. -/
def readMethodHandle : Read Constant := do
  let kind ← u8
  let reference ← u16
  return .methodHandle kind reference

/-- Reads the constant for an index, tag included. -/
def read (index : Nat) : Read RawConstant := do
  let tag ← u8
  match tag.toNat with
  | 1 => plain <$> readUtf8 index
  | 3 => (fun value => plain (.integer value)) <$> i32
  | 4 => (fun bits => plain (.float bits)) <$> u32
  | 5 => (fun value => plain (.long value)) <$> i64
  | 6 => (fun bits => plain (.double bits)) <$> u64
  | 7 => (fun name => plain (.classRef name)) <$> u16
  | 8 => stringRef <$> u16
  | 9 => plain <$> readPair .fieldRef
  | 10 => plain <$> readPair .methodRef
  | 11 => plain <$> readPair .interfaceMethodRef
  | 12 => plain <$> readPair .nameAndType
  | 15 => plain <$> readMethodHandle
  | 16 => (fun descriptor => plain (.methodType descriptor)) <$> u16
  | 17 => plain <$> readPair .dynamic
  | 18 => plain <$> readPair .invokeDynamic
  | 19 => (fun name => plain (.moduleRef name)) <$> u16
  | 20 => (fun name => plain (.packageRef name)) <$> u16
  | _ => fail (.format (.unknownTag tag index))

/-- Reads the constants for the indices from `index` to below `count`. -/
def readAll (count index : Nat) : Read (List RawConstant) :=
  if index < count then do
    let constant ← read index
    if constant.isWide then
      if index + 1 < count then
        let others ← readAll count (index + 2)
        return constant :: constant :: others
      else
        fail (.format (.wideOverrun index))
    else
      let others ← readAll count (index + 1)
      return constant :: others
  else
    pure []
termination_by count - index

/-- The constant that is meant, with the text of a string constant taken from the table. -/
def resolve (table : Array RawConstant) : RawConstant → Except Error Constant
  | plain constant => .ok constant
  | stringRef text => do
    match ← lookupIndex table text with
    | plain (.utf8 text) => return .string text
    | _ => ConstantPool.refuse text .utf8

end RawConstant

namespace ConstantPool

/-- The pool of a list of constants as they stand in the file. -/
def ofRaw (raw : List RawConstant) : Except Error ConstantPool := do
  let constants ← raw.mapM (RawConstant.resolve raw.toArray)
  let pool : ConstantPool := ⟨constants.toArray⟩
  constants.forM pool.check
  return pool

/-- Reads a pool, count included. -/
def read : LoggedRead ConstantPool := do
  let count ← u16
  let raw ← RawConstant.readAll count.toNat 1
  let pool ← ofRaw raw
  LoggedRead.record .trace s!"decoded constant pool with {count} entries"
  return pool

end ConstantPool

end ClassLowering
