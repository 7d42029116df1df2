import ClassLowering.Lowering.Body

/-! # Lowering batches of classes

A batch of classes becomes a module in three passes: all classes are registered, so that their
names are known; then their members are declared, so that references to them can be resolved; then
each is attached to its host and gets its base type and bodies. Of several classes with one name
the first is kept.

A failure in the last pass ends the batch, unless classes are isolated from each other: then the
class at fault is left without bodies. -/

namespace ClassLowering

open Target (Body FieldDef FieldFlags Literal MethodDef MethodFlags Module TypeDef TypeFlags TypeId
  TypeRef)

/-! ## Declarations -/

/-- The modifiers of the type for a class; a static class can neither be made nor extended. -/
def AccessFlags.typeFlags (flags : AccessFlags) : TypeFlags where
  isPublic := flags.isPublic
  isNestedPrivate := flags.isPrivate
  isAbstract := flags.isStatic || flags.isAbstract
  isSealed := flags.isStatic
  isInterface := flags.isInterface

/-- The modifiers of a method. -/
def AccessFlags.methodFlags (flags : AccessFlags) (isSpecialName : Bool) : MethodFlags where
  isPublic := flags.isPublic
  isPrivate := flags.isPrivate
  isFinal := flags.isFinal
  isStatic := flags.isStatic
  isAbstract := flags.isAbstract
  isVirtual := flags.isAbstract
  isExternal := flags.isNative
  isSpecialName := isSpecialName

/-- The modifiers of a field. -/
def AccessFlags.fieldFlags (flags : AccessFlags) : FieldFlags where
  isPublic := flags.isPublic
  isPrivate := flags.isPrivate
  isStatic := flags.isStatic
  isInitOnly := flags.isFinal

/-- The initial value that a constant can be. -/
def Constant.literal? : Constant → Option Literal
  | .integer value => some (.int value)
  | .long value => some (.long value)
  | .float bits => some (.float bits)
  | .double bits => some (.double bits)
  | .string text => some (.string text)
  | _ => none

/-- The type for a class, without members. -/
def ClassFile.typeDef (file : ClassFile) : TypeDef :=
  let (space, name) := Naming.typeName file.name
  { source := file.name, space, name
    flags := file.flags.typeFlags
    superName := file.superClass
    interfaces := file.interfaces }

/-- Declares a field. -/
def declareField (scope : Scope) (field : Member) : Except Error FieldDef := do
  let type ← FieldType.ofDescriptor field.descriptor
  let sig ← scope.fieldSig type
  return {
    name := field.name
    descriptor := field.descriptor
    flags := field.flags.fieldFlags
    sig
    constant := (Attribute.constantValue? field.attributes).bind Constant.literal? }

/-- Declares a method, without its body. -/
def declareMethod (scope : Scope) (method : Member) : Except Error MethodDef := do
  let name := Naming.member method.name
  let type ← MethodType.ofDescriptor method.descriptor
  let sig ← scope.methodSig type !method.flags.isStatic
  return {
    name
    sourceName := method.name
    descriptor := method.descriptor
    flags := method.flags.methodFlags (name ≠ method.name)
    sig
    body := none }

/-- Declares the fields of a class. -/
def declareFields (scope : Scope) (file : ClassFile) : Except Error (List FieldDef) :=
  file.fields.mapM (declareField scope)

/-- Declares the methods of a class. -/
def declareMethods (scope : Scope) (file : ClassFile) : Except Error (List MethodDef) :=
  file.methods.mapM (declareMethod scope)

/-- The base type of a class. -/
def baseOf (scope : Scope) (file : ClassFile) : Except Error (Option TypeRef) :=
  match file.superClass with
  | some name => some <$> scope.resolve name
  | none => .ok none

/-! ## Passes -/

/-- A class with the place of its type. -/
structure PlacedClass where
  id : TypeId
  file : ClassFile

/-- Registers classes in order and keeps the ones that are new. -/
def registerAll (module : Module) : List ClassFile → Logged Error (Module × List PlacedClass)
  | [] => pure (module, [])
  | file :: files =>
    match module.register file.typeDef with
    | some (id, module) => do
      let (module, placed) ← registerAll module files
      return (module, ⟨id, file⟩ :: placed)
    | none => do
      Logged.record .warn s!"duplicate class {file.name}, keeping the first definition"
      registerAll module files

/-- Declares the members of a class. -/
def declareMembers (catalog : Catalog) (module : Module) (placed : PlacedClass) :
    Logged Error Module := do
  let scope : Scope := ⟨catalog, module⟩
  let file := placed.file
  let fields ← declareFields scope file
  let methods ← declareMethods scope file
  let origin := (Attribute.sourceFile? file.attributes).getD "unknown source"
  Logged.record .debug <|
    s!"declared {file.name} ({fields.length} fields, {methods.length} methods) from {origin}"
  return module.update placed.id fun type => { type with fields, methods }

/-- The body of a method; native and abstract methods have none. -/
def lowerMethod (scope : Scope) (file : ClassFile) (method : Member) :
    Logged Error (Option Body) :=
  if method.flags.isNative || method.flags.isAbstract then
    pure none
  else
    match Attribute.code? method.attributes with
    | none =>
      throw (.format (.missingCode file.name method.name method.descriptor))
    | some code => do
      Logged.record .debug s!"translating {file.name}.{method.name}{method.descriptor}"
      some <$> lowerBody scope file.pool method code

/-- The base type and the bodies of a class. -/
def lowerContents (scope : Scope) (file : ClassFile) :
    Logged Error (Option TypeRef × List (Option Body)) := do
  let base ← baseOf scope file
  let bodies ← file.methods.mapM (lowerMethod scope file)
  return (base, bodies)

/-- Gives a type its base and its methods their bodies. -/
def Target.TypeDef.complete (type : TypeDef) (base : Option TypeRef)
    (bodies : List (Option Body)) : TypeDef :=
  { type with
    base
    methods := type.methods.zipWith (fun method body => { method with body }) bodies }

/-- The place of the host of a class that is nested. -/
def hostOf (module : Module) (file : ClassFile) : Except Error (Option TypeId) :=
  match Attribute.nestHost? file.attributes with
  | none => .ok none
  | some name =>
    match module.lookup name with
    | some host => .ok (some host)
    | none => .error (.resolution (.unknownClass name))

/-- Attaches a class to its host and gives its type the base and the bodies. Names are looked up in
the module at hand. The module is given back also when the class fails, which it can do before it is
attached and after that. -/
def completeClass (catalog : Catalog) (module : Module) (placed : PlacedClass) :
    Module × Logged Error Unit :=
  match hostOf module placed.file with
  | .error failure => (module, throw failure)
  | .ok host =>
    let attached := module.attach placed.id host
    let contents := lowerContents ⟨catalog, attached⟩ placed.file
    match contents.result with
    | .ok (base, bodies) => (attached.update placed.id (·.complete base bodies), discard contents)
    | .error _ => (attached, discard contents)

/-- Completes a class of a batch. In isolation, a class that fails stays as it is by then, and goes
to the top level if it has no place yet; otherwise its failure ends the batch. -/
def completeNext (catalog : Catalog) (isolate : Bool) (module : Module) (placed : PlacedClass) :
    Logged Error Module :=
  let (later, outcome) := completeClass catalog module placed
  tryCatch (do outcome; return later) fun failure =>
    if isolate then do
      let message := failure.message
      Logged.record .error s!"leaving {placed.file.name} without bodies: {message}"
      return if later.isAttached placed.id then later else later.attach placed.id none
    else
      throw failure

/-- Lowers a batch of classes to a module. -/
def lowerBatch (catalog : Catalog) (name : String) (isolate : Bool) (files : List ClassFile) :
    Logged Error Module := do
  let (registered, placed) ← registerAll (Module.empty name) files
  let declared ← placed.foldlM (declareMembers catalog) registered
  placed.foldlM (completeNext catalog isolate) declared

end ClassLowering
