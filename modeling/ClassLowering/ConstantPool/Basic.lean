import ClassLowering.Error

/-! # Constant pools

The constant pool of a class file is a table of constants with indices from 1; index 0 stands for
an absent constant. A constant may refer to others by index; the accessors follow references and
say which index is at fault when the constant there is not of the kind that is asked for. -/

namespace ClassLowering

/-- A constant; floating-point numbers are kept as their bits. -/
inductive Constant where
  | utf8 (text : String)
  | integer (value : Int32)
  | float (bits : UInt32)
  | long (value : Int64)
  | double (bits : UInt64)
  | string (text : String)
  | classRef (name : UInt16)
  | nameAndType (name descriptor : UInt16)
  | fieldRef (owner nameAndType : UInt16)
  | methodRef (owner nameAndType : UInt16)
  | interfaceMethodRef (owner nameAndType : UInt16)
  | methodHandle (kind : UInt8) (reference : UInt16)
  | methodType (descriptor : UInt16)
  | dynamic (bootstrap nameAndType : UInt16)
  | invokeDynamic (bootstrap nameAndType : UInt16)
  | moduleRef (name : UInt16)
  | packageRef (name : UInt16)
  deriving DecidableEq, Repr

/-- A member of a class, by name. -/
structure MemberReference where
  owner : String
  name : String
  descriptor : String
  deriving DecidableEq, Repr

/-- The entry of a table at an index from 1. -/
def lookupIndex {α : Type} (entries : Array α) (index : UInt16) : Except Error α :=
  if index = 0 then
    .error (.format .absentConstant)
  else
    match entries[index.toNat - 1]? with
    | some entry => .ok entry
    | none => .error (.format (.badIndex index (entries.size + 1)))

/-- The constants of a pool, from index 1 on. -/
structure ConstantPool where
  constants : Array Constant
  deriving DecidableEq

namespace ConstantPool

/-- The number of indices, the absent one included. -/
def size (pool : ConstantPool) : Nat := pool.constants.size + 1

/-- The constant at an index; nothing at index 0. -/
def get (pool : ConstantPool) (index : UInt16) : Except Error (Option Constant) :=
  if index = 0 then .ok none else some <$> lookupIndex pool.constants index

/-- The constant at an index where there has to be one. -/
def required (pool : ConstantPool) (index : UInt16) : Except Error Constant :=
  lookupIndex pool.constants index

/-- Refuses the constant at an index. -/
def refuse {α : Type} (index : UInt16) (expected : ExpectedConstant) : Except Error α :=
  .error (.format (.wrongConstant index expected))

/-- The text at an index. -/
def utf8 (pool : ConstantPool) (index : UInt16) : Except Error String := do
  match ← pool.required index with
  | .utf8 text => return text
  | _ => refuse index .utf8

/-- The name of the class at an index. -/
def className (pool : ConstantPool) (index : UInt16) : Except Error String := do
  match ← pool.required index with
  | .classRef name => pool.utf8 name
  | _ => refuse index .classReference

/-- The name of the class at an index; no class at index 0. -/
def className? (pool : ConstantPool) (index : UInt16) : Except Error (Option String) :=
  if index = 0 then .ok none else some <$> pool.className index

/-- The name and the descriptor at an index. -/
def nameAndType (pool : ConstantPool) (index : UInt16) : Except Error (String × String) := do
  match ← pool.required index with
  | .nameAndType name descriptor => return (← pool.utf8 name, ← pool.utf8 descriptor)
  | _ => refuse index .nameAndType

/-- The member that the constant at an index refers to. -/
def member (pool : ConstantPool) (index : UInt16) : Except Error MemberReference := do
  match ← pool.required index with
  | .fieldRef owner pair | .methodRef owner pair | .interfaceMethodRef owner pair =>
    let (name, descriptor) ← pool.nameAndType pair
    return ⟨← pool.className owner, name, descriptor⟩
  | _ => refuse index .member

/-- Checks the references of one constant. -/
def check (pool : ConstantPool) : Constant → Except Error Unit
  | .classRef name | .methodType name | .moduleRef name | .packageRef name =>
    discard (pool.utf8 name)
  | .nameAndType name descriptor => do
    discard (pool.utf8 name)
    discard (pool.utf8 descriptor)
  | .fieldRef owner pair | .methodRef owner pair | .interfaceMethodRef owner pair => do
    discard (pool.className owner)
    discard (pool.nameAndType pair)
  | .methodHandle _ reference => discard (pool.required reference)
  | .dynamic _ pair | .invokeDynamic _ pair => discard (pool.nameAndType pair)
  | _ => pure ()

end ConstantPool

end ClassLowering
