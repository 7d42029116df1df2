import ClassLowering.Catalog
import ClassLowering.Descriptor
import ClassLowering.Error
import ClassLowering.Target.Module

/-! # What names mean

A scope is a library and a module. A class name is looked up in the library first and then in the
module; descriptors become signatures by looking up the classes they name. -/

namespace ClassLowering

open Target (MethodSig Module TypeDef TypeRef TypeSig)

/-- What a type of a module offers. -/
def Target.TypeDef.surface (type : TypeDef) : Surface where
  superName := type.superName
  interfaces := type.interfaces
  methods := type.methods.map fun method => ⟨method.name, method.descriptor, method.flags.isStatic⟩
  fields := type.fields.map fun field => ⟨field.name, field.descriptor, field.flags.isStatic⟩

/-- The field type of a descriptor, or the error that it has none. -/
def FieldType.ofDescriptor (descriptor : String) : Except Error FieldType :=
  match FieldType.ofDescriptor? descriptor with
  | some type => .ok type
  | none => .error (.format (.badDescriptor descriptor))

/-- The method type of a descriptor, or the error that it has none. -/
def MethodType.ofDescriptor (descriptor : String) : Except Error MethodType :=
  match MethodType.ofDescriptor? descriptor with
  | some type => .ok type
  | none => .error (.format (.badDescriptor descriptor))

/-- Where names are looked up. -/
structure Scope where
  catalog : Catalog
  module : Module

namespace Scope

/-- The type for a class name and what it offers. -/
def find? (scope : Scope) (name : String) : Option (TypeRef × Surface) :=
  match scope.catalog.get? name with
  | some type => some (⟨name, .library⟩, type.surface)
  | none =>
    match scope.module.lookup name with
    | some id => (scope.module.get? id).map fun type => (⟨name, .module id⟩, type.surface)
    | none => none

/-- The type for a class name. -/
def resolve (scope : Scope) (name : String) : Except Error TypeRef :=
  match scope.catalog.typeRef? name with
  | some type => .ok type
  | none =>
    match scope.module.lookup name with
    | some id => .ok ⟨name, .module id⟩
    | none => .error (.resolution (.unknownClass name))

/-- A class name has the type that is found together with what it offers. -/
theorem resolve_eq_find? (scope : Scope) (name : String) :
    scope.resolve name =
      match scope.find? name with
      | some (type, _) => .ok type
      | none => .error (.resolution (.unknownClass name)) := by
  unfold resolve find? Catalog.typeRef?
  cases known : scope.catalog.get? name with
  | some entry =>
    rw [Option.map_some, Catalog.name_of_get? known]
  | none =>
    dsimp only [Option.map_none]
    cases placed : scope.module.lookup name with
    | none => rfl
    | some id =>
      obtain ⟨type, stored, -⟩ := Module.get?_of_lookup placed
      dsimp only
      rw [stored, Option.map_some]

/-- The signature for a field type. -/
def fieldSig (scope : Scope) : FieldType → Except Error TypeSig
  | .byte => .ok .i8
  | .char => .ok .char
  | .double => .ok .f64
  | .float => .ok .f32
  | .int => .ok .i32
  | .long => .ok .i64
  | .short => .ok .i16
  | .boolean => .ok .bool
  | .object name => .object <$> scope.resolve name
  | .array element => .array <$> scope.fieldSig element

/-- The signature for a result type. -/
def resultSig (scope : Scope) : Option FieldType → Except Error TypeSig
  | some type => scope.fieldSig type
  | none => .ok .void

/-- The signature for a method type. -/
def methodSig (scope : Scope) (type : MethodType) (hasThis : Bool) : Except Error MethodSig := do
  let params ← type.parameters.mapM scope.fieldSig
  let ret ← scope.resultSig type.result
  return ⟨hasThis, params, ret⟩

/-- The signature for the name of a class or, with a bracket in front, of an array type. -/
def classSig (scope : Scope) (name : String) : Except Error TypeSig :=
  if name.toList.head? = some '[' then do
    let type ← FieldType.ofDescriptor name
    scope.fieldSig type
  else
    .object <$> scope.resolve name

/-- The signature for the root of all classes. -/
def objectSig (scope : Scope) : Except Error TypeSig :=
  .object <$> scope.resolve Catalog.objectClass

/-- The names that can be looked up. -/
def names (scope : Scope) : List String :=
  scope.catalog.types.map LibraryType.name ++ scope.module.types.map TypeDef.source

/-- A name that is found is one of the names that can be looked up. -/
theorem mem_names_of_find? {scope : Scope} {name : String} {type : TypeRef} {surface : Surface}
    (found : scope.find? name = some (type, surface)) : name ∈ scope.names := by
  unfold find? at found
  split at found
  · next entry listed =>
    have member := List.mem_of_find?_eq_some listed
    simp only [names, List.mem_append, List.mem_map]
    exact .inl ⟨entry, member, Catalog.name_of_get? listed⟩
  · split at found
    · next id listed =>
      obtain ⟨type, stored, same⟩ := Module.get?_of_lookup listed
      simp only [names, List.mem_append, List.mem_map]
      exact .inr ⟨type, List.mem_of_getElem? stored, same⟩
    · cases found

end Scope

end ClassLowering
