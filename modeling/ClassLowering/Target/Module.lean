import ClassLowering.Target.Body

/-! # Modules of the target

A module is a list of types. A type is registered under the name of its class, at most once, and
is attached either to the top level of the module or to an enclosing type. -/

namespace ClassLowering.Target

/-- Modifiers of a type. -/
structure TypeFlags where
  isPublic : Bool := false
  isNestedPrivate : Bool := false
  isAbstract : Bool := false
  isSealed : Bool := false
  isInterface : Bool := false
  deriving DecidableEq, Repr

/-- Modifiers of a method. -/
structure MethodFlags where
  isPublic : Bool
  isPrivate : Bool
  isFinal : Bool
  isStatic : Bool
  isAbstract : Bool
  isVirtual : Bool
  isExternal : Bool
  isSpecialName : Bool
  deriving DecidableEq, Repr

/-- Modifiers of a field. -/
structure FieldFlags where
  isPublic : Bool
  isPrivate : Bool
  isStatic : Bool
  isInitOnly : Bool
  deriving DecidableEq, Repr

/-- The initial value of a field. -/
inductive Literal where
  | int (value : Int32)
  | long (value : Int64)
  | float (bits : UInt32)
  | double (bits : UInt64)
  | string (text : String)
  deriving DecidableEq, Repr

/-- A field of a type. -/
structure FieldDef where
  name : String
  descriptor : String
  flags : FieldFlags
  sig : TypeSig
  constant : Option Literal
  deriving DecidableEq, Repr

/-- A method of a type. -/
structure MethodDef where
  name : String
  /-- The name in the class file. -/
  sourceName : String
  descriptor : String
  flags : MethodFlags
  sig : MethodSig
  body : Option Body
  deriving DecidableEq, Repr

/-- A type of a module. -/
structure TypeDef where
  /-- The name of the class that the type stands for. -/
  source : String
  space : String
  name : String
  flags : TypeFlags := {}
  superName : Option String := none
  base : Option TypeRef := none
  interfaces : List String := []
  enclosing : Option TypeId := none
  nested : List TypeId := []
  fields : List FieldDef := []
  methods : List MethodDef := []
  deriving DecidableEq, Repr

/-- A module. -/
structure Module where
  name : String
  types : List TypeDef := []
  topLevel : List TypeId := []
  deriving DecidableEq, Repr

namespace Module

/-- A module without types. -/
def empty (name : String) : Module := { name }

/-- The type registered for a class. -/
def lookup (module : Module) (source : String) : Option TypeId :=
  (module.types.findIdx? fun type => type.source = source).map TypeId.mk

/-- The type at a place. -/
def get? (module : Module) (id : TypeId) : Option TypeDef := module.types[id.index]?

/-- A class that is looked up has a type. -/
theorem get?_of_lookup {module : Module} {source : String} {id : TypeId}
    (found : module.lookup source = some id) :
    ∃ type, module.get? id = some type ∧ type.source = source := by
  obtain ⟨index, position, rfl⟩ := Option.map_eq_some_iff.1 found
  obtain ⟨bound, same, -⟩ := List.findIdx?_eq_some_iff_getElem.1 position
  exact ⟨_, List.getElem?_eq_getElem bound, of_decide_eq_true same⟩

/-- Adds a type, unless its class has one already. -/
def register (module : Module) (type : TypeDef) : Option (TypeId × Module) :=
  match module.lookup type.source with
  | some _ => none
  | none => some (⟨module.types.length⟩, { module with types := module.types ++ [type] })

/-- Changes the type at a place. -/
def update (module : Module) (id : TypeId) (change : TypeDef → TypeDef) : Module :=
  { module with types := module.types.modify id.index change }

/-- Puts a type below its host, or at the top level without one. -/
def attach (module : Module) (id : TypeId) : (host : Option TypeId) → Module
  | some host =>
    (module.update id fun type => { type with enclosing := some host }).update host
      fun type => { type with nested := type.nested ++ [id] }
  | none => { module with topLevel := module.topLevel ++ [id] }

/-- Whether a type has a place: below another type or at the top level. -/
def isAttached (module : Module) (id : TypeId) : Bool :=
  (module.get? id).any (·.enclosing.isSome) || module.topLevel.contains id

end Module

end ClassLowering.Target
