import ClassLowering.Lowering.Module

/-! # Types that a module refers to

A module mentions types in signatures, as bases, as owners of members and as operands. Each kind of
data has a list of the types it mentions (`references`) and can have them renamed (`rename`);
renaming changes the list and nothing else (`references_rename`). What no renaming outside a set
of types changes mentions that set only (`forall_mem_of_rename_fixed`). -/

namespace ClassLowering

variable (f : Target.TypeRef → Target.TypeRef)

namespace Target

/-! ## Signatures and members -/

/-- Renames the types in a signature. -/
def TypeSig.rename : TypeSig → TypeSig
  | object type => object (f type)
  | array element => array element.rename
  | other => other

/-- The types in a signature. -/
def TypeSig.references : TypeSig → List TypeRef
  | object type => [type]
  | array element => element.references
  | _ => []

/-- The types that a signature refers to are renamed with it. -/
@[simp] theorem TypeSig.references_rename (sig : TypeSig) :
    (sig.rename f).references = sig.references.map f := by
  induction sig with
  | array element induction => exact induction
  | _ => rfl

/-- A signature stays what it is if nothing is renamed. -/
@[simp] theorem TypeSig.rename_id (sig : TypeSig) : sig.rename id = sig := by
  induction sig with
  | array element induction => exact congrArg array induction
  | _ => rfl

/-- Renames the types in a method signature. -/
def MethodSig.rename (sig : MethodSig) : MethodSig where
  hasThis := sig.hasThis
  params := sig.params.map (TypeSig.rename f)
  ret := sig.ret.rename f

/-- The types in a method signature. -/
def MethodSig.references (sig : MethodSig) : List TypeRef :=
  sig.params.flatMap TypeSig.references ++ sig.ret.references

/-- The types that the signature of a method refers to are renamed with it. -/
@[simp] theorem MethodSig.references_rename (sig : MethodSig) :
    (sig.rename f).references = sig.references.map f := by
  simp [references, rename, List.flatMap_map, List.map_flatMap]

/-- The signature of a method stays what it is if nothing is renamed. -/
@[simp] theorem MethodSig.rename_id (sig : MethodSig) : sig.rename id = sig := by
  simp [rename, funext TypeSig.rename_id]

/-- Renames the types in a reference to a method. -/
def MethodRef.rename (method : MethodRef) : MethodRef where
  owner := f method.owner
  name := method.name
  sig := method.sig.rename f

/-- The types in a reference to a method. -/
def MethodRef.references (method : MethodRef) : List TypeRef :=
  method.owner :: method.sig.references

/-- The types that a reference to a method names are renamed with it. -/
@[simp] theorem MethodRef.references_rename (method : MethodRef) :
    (method.rename f).references = method.references.map f := by
  simp [references, rename]

/-- A reference to a method stays what it is if nothing is renamed. -/
@[simp] theorem MethodRef.rename_id (method : MethodRef) : method.rename id = method := by
  rw [rename, MethodSig.rename_id, id]

/-- Renames the types in a reference to a field. -/
def FieldRef.rename (field : FieldRef) : FieldRef where
  owner := f field.owner
  name := field.name
  sig := field.sig.rename f
  isStatic := field.isStatic

/-- The types in a reference to a field. -/
def FieldRef.references (field : FieldRef) : List TypeRef :=
  field.owner :: field.sig.references

/-- The types that a reference to a field names are renamed with it. -/
@[simp] theorem FieldRef.references_rename (field : FieldRef) :
    (field.rename f).references = field.references.map f := by
  simp [references, rename]

/-- A reference to a field stays what it is if nothing is renamed. -/
@[simp] theorem FieldRef.rename_id (field : FieldRef) : field.rename id = field := by
  rw [rename, TypeSig.rename_id, id]

/-! ## Bodies -/

/-- Renames the types in an instruction. -/
def Instruction.rename : Instruction → Instruction
  | ldtoken type => ldtoken (f type)
  | call method => call (method.rename f)
  | callvirt method => callvirt (method.rename f)
  | ldfld field => ldfld (field.rename f)
  | ldsfld field => ldsfld (field.rename f)
  | stfld field => stfld (field.rename f)
  | stsfld field => stsfld (field.rename f)
  | newarr element => newarr (element.rename f)
  | castclass type => castclass (type.rename f)
  | other => other

/-- The types in an instruction. -/
def Instruction.references : Instruction → List TypeRef
  | ldtoken type => [type]
  | call method | callvirt method => method.references
  | ldfld field | ldsfld field | stfld field | stsfld field => field.references
  | newarr type | castclass type => type.references
  | _ => []

/-- The types that an instruction refers to are renamed with it. -/
@[simp] theorem Instruction.references_rename (instruction : Instruction) :
    (instruction.rename f).references = instruction.references.map f := by
  cases instruction <;> simp [rename, references]

/-- An instruction stays what it is if nothing is renamed. -/
@[simp] theorem Instruction.rename_id (instruction : Instruction) :
    instruction.rename id = instruction := by
  cases instruction <;> simp [rename]

/-- Renames the types of a local variable. -/
def Local.rename (declared : Local) : Local where
  slot := declared.slot
  name := declared.name
  sig := declared.sig.rename f

/-- A variable stays what it is if nothing is renamed. -/
@[simp] theorem Local.rename_id (declared : Local) : declared.rename id = declared := by
  rw [rename, TypeSig.rename_id]

/-- Renames the types in a body. -/
def Body.rename (body : Body) : Body where
  maxStack := body.maxStack
  locals := body.locals.map (Local.rename f)
  instructions := body.instructions.map (Prod.map id (Instruction.rename f))
  deferred := body.deferred
  regions := body.regions

/-- The types in a body. -/
def Body.references (body : Body) : List TypeRef :=
  body.locals.flatMap (fun declared => declared.sig.references) ++
    body.instructions.flatMap (fun (_, instruction) => instruction.references)

/-- The types that a body refers to are renamed with it. -/
@[simp] theorem Body.references_rename (body : Body) :
    (body.rename f).references = body.references.map f := by
  simp [references, rename, Local.rename, List.flatMap_map, List.map_flatMap]

/-- A body stays what it is if nothing is renamed. -/
@[simp] theorem Body.rename_id (body : Body) : body.rename id = body := by
  rw [rename, show Local.rename id = id from funext Local.rename_id,
    show Instruction.rename id = id from funext Instruction.rename_id, Prod.map_id, List.map_id,
    List.map_id]

/-! ## Declarations -/

/-- Renames the types in a field. -/
def FieldDef.rename (field : FieldDef) : FieldDef := { field with sig := field.sig.rename f }

/-- A field stays what it is if nothing is renamed. -/
@[simp] theorem FieldDef.rename_id (field : FieldDef) : field.rename id = field := by
  rw [rename, TypeSig.rename_id]

/-- Renames the types in a method. -/
def MethodDef.rename (method : MethodDef) : MethodDef :=
  { method with sig := method.sig.rename f, body := method.body.map (Body.rename f) }

/-- The types in a method. -/
def MethodDef.references (method : MethodDef) : List TypeRef :=
  method.sig.references ++ method.body.toList.flatMap Body.references

/-- The types that a method refers to, in its signature or its body, are renamed with it. -/
@[simp] theorem MethodDef.references_rename (method : MethodDef) :
    (method.rename f).references = method.references.map f := by
  cases same : method.body <;> simp [references, rename, same]

/-- A method stays what it is if nothing is renamed. -/
@[simp] theorem MethodDef.rename_id (method : MethodDef) : method.rename id = method := by
  simp [rename, funext Body.rename_id]

/-- Renames the types in a type, its place among other types aside. -/
def TypeDef.rename (type : TypeDef) : TypeDef :=
  { type with
    base := type.base.map f
    fields := type.fields.map (FieldDef.rename f)
    methods := type.methods.map (MethodDef.rename f) }

/-- The types in a type. -/
def TypeDef.references (type : TypeDef) : List TypeRef :=
  type.base.toList ++ type.fields.flatMap (fun field => field.sig.references) ++
    type.methods.flatMap MethodDef.references

/-- The types that a type refers to, in its base or its members, are renamed with it. -/
@[simp] theorem TypeDef.references_rename (type : TypeDef) :
    (type.rename f).references = type.references.map f := by
  cases same : type.base <;>
    simp [references, rename, FieldDef.rename, same, List.flatMap_map, List.map_flatMap]

/-- A type stays what it is if nothing is renamed. -/
@[simp] theorem TypeDef.rename_id (type : TypeDef) : type.rename id = type := by
  simp [rename, funext FieldDef.rename_id, funext MethodDef.rename_id]

/-- The types in a module. -/
def Module.references (module : Module) : List TypeRef :=
  module.types.flatMap TypeDef.references

end Target

/-! ## Lowering in progress -/

/-- Renames the types in a contribution. -/
def Contribution.rename : Contribution → Contribution
  | instructions list => instructions (list.map (Target.Instruction.rename f))
  | deferred record => deferred record

/-- Renames the types in the storage of a method. -/
def LocalStorage.rename (storage : LocalStorage) : LocalStorage :=
  { storage with
    locals := storage.locals.map (Target.Local.rename f)
    object := storage.object.rename f }

/-- Renames the owner of a member that was found. -/
def Found.rename : Found → Found
  | missing => missing
  | one owner key => one (f owner) key
  | many count => many count

/-- Renames the owner of a member that was found along superclasses. -/
def ChainFound.rename : ChainFound → ChainFound
  | decided found => decided (found.rename f)
  | exhausted seen interfaces => exhausted seen interfaces

/-! ## Renamings that change nothing -/

/-- Moves one type to another origin and keeps all others. -/
def Target.TypeRef.move (type candidate : TypeRef) : TypeRef :=
  if candidate = type then
    ⟨type.name, if type.origin = .library then .module ⟨0⟩ else .library⟩
  else
    candidate

/-- The type that is moved does not stay what it is. -/
theorem Target.TypeRef.move_self_ne (type : TypeRef) : type.move type ≠ type := by
  intro same
  have origins := congrArg TypeRef.origin same
  rw [move, if_pos rfl] at origins
  dsimp only at origins
  split at origins
  · next library => rw [library] at origins; cases origins
  · next defined => exact defined origins.symm

/-- If no renaming outside a set changes a list of types, the list has only types of the set. -/
theorem forall_mem_of_rename_fixed {types : List Target.TypeRef} {property : Target.TypeRef → Prop}
    (fixed : ∀ f : Target.TypeRef → Target.TypeRef, (∀ type, property type → f type = type) →
      types.map f = types) : ∀ type ∈ types, property type := by
  intro type member
  refine Classical.byContradiction fun outside => type.move_self_ne ?_
  have moved : types.map type.move = types.map id := by
    rw [List.map_id]
    refine fixed _ fun candidate holds => if_neg ?_
    rintro rfl
    exact outside holds
  exact List.map_inj_left.1 moved type member

end ClassLowering
