/-! # Types and members of the target

A target type is named by the class it stands for. It is either one of the library types that the
target provides or a type defined by the module at hand; signatures are built from such types. -/

namespace ClassLowering.Target

/-- The place of a type in its module. -/
structure TypeId where
  index : Nat
  deriving DecidableEq, Repr

/-- Where a type is defined. -/
inductive Origin where
  /-- In the library of the target. -/
  | library
  /-- In the module at hand. -/
  | module (id : TypeId)
  deriving DecidableEq, Repr

/-- A type that has been found. -/
structure TypeRef where
  /-- The name of the class that it stands for. -/
  name : String
  origin : Origin
  deriving DecidableEq, Repr

/-- The type of a variable, a parameter or a result. -/
inductive TypeSig where
  | void
  | bool
  | char
  | i8
  | i16
  | i32
  | i64
  | f32
  | f64
  /-- A text of the target, as opposed to an object of the text class. -/
  | nativeString
  | object (type : TypeRef)
  | array (element : TypeSig)
  deriving DecidableEq, Repr

/-- The type of a method. -/
structure MethodSig where
  /-- Whether the method works on an object. -/
  hasThis : Bool
  params : List TypeSig
  ret : TypeSig
  deriving DecidableEq, Repr

/-- A method that has been found. -/
structure MethodRef where
  owner : TypeRef
  name : String
  sig : MethodSig
  deriving DecidableEq, Repr

/-- A field that has been found. -/
structure FieldRef where
  owner : TypeRef
  name : String
  sig : TypeSig
  isStatic : Bool
  deriving DecidableEq, Repr

end ClassLowering.Target
