import ClassLowering.Proofs.Batches
import ClassLowering.Proofs.Members.Sites

/-! # References agree with declarations

A body refers to members of its module by a name and a signature. Each reference is linked to the
one member of its owner that has the name and the readable type of the call site
(`lowerBatch_links`). This member has the signature of the reference, and the call site's own
descriptor, unless class names hold marks that make readable types ambiguous
(`not_declares_colliding`). -/

namespace ClassLowering

open Target (Body MethodDef MethodRef Module TypeDef TypeId)

/-! ## Declared and completed types -/

variable {scope : Scope} {file : ClassFile} {type : TypeDef}

/-- Methods are declared with the signatures that their descriptors stand for. -/
theorem isDeclared_method (declared : declaredType scope file = .ok type) :
    ∀ method ∈ type.methods, MemberKind.method.IsDeclared scope method ∧ method.body = none := by
  intro method listed
  obtain ⟨-, found, -⟩ := declaredType_spec declared
  obtain ⟨member, -, single⟩ := Except.exists_of_mem_mapM found listed
  obtain ⟨source, typed, single⟩ := Except.bind_eq_ok.1 single
  obtain ⟨sig, resolved, same⟩ := Except.bind_eq_ok.1 single
  cases same
  exact ⟨⟨source, MethodType.ofDescriptor_eq_ok.1 typed, resolved⟩, rfl⟩

/-- Fields are declared with the signatures that their descriptors stand for. -/
theorem isDeclared_field (declared : declaredType scope file = .ok type) :
    ∀ field ∈ type.fields, MemberKind.field.IsDeclared scope field := by
  intro field listed
  obtain ⟨found, -, -⟩ := declaredType_spec declared
  obtain ⟨member, -, single⟩ := Except.exists_of_mem_mapM found listed
  obtain ⟨source, typed, single⟩ := Except.bind_eq_ok.1 single
  obtain ⟨sig, resolved, same⟩ := Except.bind_eq_ok.1 single
  cases same
  exact ⟨source, FieldType.ofDescriptor_eq_ok.1 typed, Except.map_eq_ok.2 ⟨sig, resolved, rfl⟩⟩

/-- The contents that a completion has are those of the class. -/
theorem bodies_of_completion {isolate : Bool} {completed : Completion}
    (found : completion scope isolate file = .ok completed) :
    ∀ contents ∈ completed.contents,
      (file.methods.mapM fun method => (lowerMethod scope file method).result) =
        .ok contents.2 := by
  intro contents listed
  have lowered := (completion_spec found).2 contents listed
  obtain ⟨base, -, lowered⟩ := Logged.bind_eq_ok.1 lowered
  obtain ⟨bodies, mapped, same⟩ := Logged.bind_eq_ok.1 lowered
  cases same
  rw [Logged.result_mapM] at mapped
  exact mapped

/-- A completed type has the declared members, and bodies that are lowered from its class. -/
structure IsCompleted (scope : Scope) (file : ClassFile) (declared type : TypeDef) : Prop where
  surface : type.surface = declared.surface
  methods : ∀ method ∈ type.methods, MemberKind.method.IsDeclared scope method
  fields : ∀ field ∈ type.fields, MemberKind.field.IsDeclared scope field
  bodies : ∀ (index : Nat) (method : MethodDef) (body : Body),
    type.methods[index]? = some method → method.body = some body →
    ∃ member, file.methods[index]? = some member ∧
      (lowerMethod scope file member).result = .ok (some body)

/-- A type that is left without contents is completed. -/
theorem isCompleted_self (declared : declaredType scope file = .ok type) :
    IsCompleted scope file type type where
  surface := rfl
  methods method listed := (isDeclared_method declared method listed).1
  fields := isDeclared_field declared
  bodies index method body listed filled := by
    have empty := (isDeclared_method declared method (List.mem_of_getElem? listed)).2
    rw [empty] at filled
    cases filled

/-- Methods that get bodies keep their keys. -/
theorem map_key_zipWith {methods : List MethodDef} {bodies : List (Option Body)}
    (length : bodies.length = methods.length) :
    (methods.zipWith (fun method body => { method with body }) bodies).map MemberKind.method.key =
      methods.map MemberKind.method.key := by
  induction methods generalizing bodies with
  | nil => rfl
  | cons method methods step =>
    cases bodies with
    | nil => cases length
    | cons body bodies =>
      rw [List.zipWith_cons_cons, List.map_cons, List.map_cons, step (Nat.succ.inj length)]
      rfl

/-- A type that gets its contents is completed. -/
theorem isCompleted_complete (declared : declaredType scope file = .ok type)
    {bodies : List (Option Body)}
    (lowered : (file.methods.mapM fun method => (lowerMethod scope file method).result) =
      .ok bodies) (base : Option Target.TypeRef) :
    IsCompleted scope file type (type.complete base bodies) where
  surface := by
    have length : bodies.length = type.methods.length := by
      obtain ⟨-, found, -⟩ := declaredType_spec declared
      rw [Except.length_mapM lowered, Except.length_mapM found]
    exact congrArg (fun methods => { type.surface with methods }) (map_key_zipWith length)
  methods method listed := by
    obtain ⟨index, found⟩ := List.mem_iff_getElem?.1 listed
    obtain ⟨own, body, ownFound, -, rfl⟩ := List.getElem?_zipWith_eq_some.1 found
    exact (isDeclared_method declared own (List.mem_of_getElem? ownFound)).1
  fields field listed := isDeclared_field declared field listed
  bodies index method body found filled := by
    obtain ⟨own, _, -, listed, rfl⟩ := List.getElem?_zipWith_eq_some.1 found
    cases filled
    have single := Except.getElem?_mapM lowered index
    rw [listed, Option.map_some] at single
    exact Option.map_eq_some_iff.1 single

/-- The types of an assembled module are completed. -/
theorem isCompleted_assembledType (declared : declaredType scope file = .ok type) {isolate : Bool}
    {completed : Completion} (found : completion scope isolate file = .ok completed)
    {completions : List Completion} {index : Nat} (listed : completions[index]? = some completed) :
    IsCompleted scope file type (assembledType completions index type) := by
  have filled : IsCompleted scope file type (completed.fill type) := by
    have bodies := bodies_of_completion found
    unfold Completion.fill
    split
    · next base own contents => exact isCompleted_complete declared (bodies _ contents) base
    · exact isCompleted_self declared
  rw [assembledType, listed, completedType_some]
  exact ⟨filled.surface, filled.methods, filled.fields, filled.bodies⟩

/-! ## Whole batches -/

/-- The types of a lowered module are completed, each from the first class of its name, in a scope
where all of them are declared. -/
theorem isCompleted_of_lowerBatch {catalog : Catalog} {name : String} {isolate : Bool}
    {files : List ClassFile} {module : Module}
    (lowered : (lowerBatch catalog name isolate files).result = .ok module) :
    ∃ declared : List TypeDef, declared.length = module.types.length ∧
      ∀ (id : TypeId) (type : TypeDef), module.get? id = some type →
        ∃ file single, files.find? (·.name = type.source) = some file ∧
          declared[id.index]? = some single ∧
          IsCompleted ⟨catalog, { name, types := declared }⟩ file single type := by
  obtain ⟨declared, completions, declares, completes, rfl⟩ := lowerBatch_eq_ok.1 lowered
  refine ⟨declared, by rw [assemble, List.length_mapIdx], fun id type found => ?_⟩
  have sources : (registered name (keepFirst [] files)).sources = declared.map TypeDef.source := by
    rw [sources_registered, sources_of_declaredType declares]
  -- declarations only need the names of types, which are there after registering
  have scopes : declaredType ⟨catalog, registered name (keepFirst [] files)⟩ =
      declaredType ⟨catalog, { name, types := declared }⟩ := declaredType_congr rfl sources
  rw [scopes] at declares
  rw [Module.get?, assemble, List.getElem?_mapIdx] at found
  obtain ⟨single, listed, rfl⟩ := Option.map_eq_some_iff.1 found
  have own := Except.getElem?_mapM declares id.index
  rw [listed, Option.map_some, Option.map_eq_some_iff] at own
  obtain ⟨file, kept, own⟩ := own
  have other := Except.getElem?_mapM completes id.index
  rw [kept, Option.map_some, eq_comm, Option.map_eq_some_iff] at other
  obtain ⟨completed, completedListed, other⟩ := other
  refine ⟨file, single, ?_, listed, isCompleted_assembledType own other.symm completedListed⟩
  rw [assembledType_source, source_of_declaredType own]
  exact (find?_of_mem_keepFirst (List.mem_of_getElem? kept)).1

/-- An instruction that names a member, in the first class of a name: the method is at an index of
the class and the instruction at an offset of its code. -/
def IsCallSite (files : List ClassFile) (source : String) (index : Nat) (offset : UInt32)
    (site : MemberReference) : Prop :=
  ∃ file, files.find? (·.name = source) = some file ∧
    ∃ method, file.methods[index]? = some method ∧
      ∃ code, Attribute.code? method.attributes = some code ∧
        ∃ instruction ∈ code.instructions, instruction.offset = offset ∧
          instruction.member? file.pool = some site

/-- Every reference in a lowered module to a member of the module is linked to the one member of its
owner that has the name and the readable type of the call site; it carries this member's signature
if and only if the member has the call site's descriptor, which is so if no class name makes
readable types ambiguous. -/
theorem lowerBatch_links {catalog : Catalog} {name : String} {isolate : Bool}
    {files : List ClassFile} {module : Module}
    (lowered : (lowerBatch catalog name isolate files).result = .ok module)
    {place : TypeId} {type : TypeDef} (listed : module.get? place = some type)
    {index : Nat} {method : MethodDef} (declared : type.methods[index]? = some method)
    {body : Body} (filled : method.body = some body)
    {offset : UInt32} {instruction : Target.Instruction}
    (emitted : (offset, instruction) ∈ body.instructions) (id : TypeId) :
    (∀ reference ∈ instruction.methodRef?, reference.owner.origin = .module id →
      ∃ site owner target, IsCallSite files type.source index offset site ∧
        module.get? id = some owner ∧
        MemberKind.method.Links owner reference.name reference.sig (!reference.sig.hasThis)
          site.descriptor target) ∧
    ∀ reference ∈ instruction.fieldRef?, reference.owner.origin = .module id →
      ∃ site owner target, IsCallSite files type.source index offset site ∧
        module.get? id = some owner ∧
        MemberKind.field.Links owner reference.name (reference.sig, reference.isStatic)
          reference.isStatic site.descriptor target := by
  obtain ⟨types, length, completed⟩ := isCompleted_of_lowerBatch lowered
  obtain ⟨file, single, first, -, own⟩ := completed place type listed
  obtain ⟨member, memberListed, bodyLowered⟩ := own.bodies index method body declared filled
  obtain ⟨code, coded, bodyLowered⟩ := code_of_lowerMethod bodyLowered
  obtain ⟨source, sourceListed, sameOffset, sited⟩ := site_of_lowerBody bodyLowered _ emitted
  have callSite {site : MemberReference} (named : source.member? file.pool = some site) :
      IsCallSite files type.source index offset site :=
    ⟨file, first, member, memberListed, code, coded, source, sourceListed, sameOffset, named⟩
  -- references are resolved among declared types, which are completed in the module
  have owners {declared : TypeDef} (stored : types[id.index]? = some declared) :
      ∃ owner ownFile, module.get? id = some owner ∧
        IsCompleted ⟨catalog, { name, types }⟩ ownFile declared owner := by
    obtain ⟨bound, -⟩ := List.getElem?_eq_some_iff.1 stored
    have found : module.get? id = some _ := List.getElem?_eq_getElem (length ▸ bound)
    obtain ⟨ownFile, other, -, otherStored, complete⟩ := completed id _ found
    cases stored.symm.trans otherStored
    exact ⟨_, ownFile, found, complete⟩
  constructor
  · intro reference carried inside
    obtain outside | ⟨site, named, resolved⟩ := sited.method reference carried
    · cases outside.symm.trans inside
    · obtain ⟨_, stored, links⟩ := Scope.links_of_method resolved inside
      obtain ⟨owner, _, found, complete⟩ := owners stored
      obtain ⟨target, links⟩ := links owner complete.surface complete.methods
      exact ⟨site, owner, target, callSite named, found, links⟩
  · intro reference carried inside
    obtain ⟨site, named, resolved⟩ := sited.field reference carried
    obtain ⟨_, stored, links⟩ := Scope.links_of_field resolved inside
    obtain ⟨owner, _, found, complete⟩ := owners stored
    obtain ⟨target, links⟩ := links owner complete.surface complete.fields
    exact ⟨site, owner, target, callSite named, found, links⟩

/-- A class with a method, and a class that calls this method as an inherited one. -/
def inheritingBatch : List ClassFile :=
  [{ name := "A", flags := ⟨0x21⟩, superClass := some "java/lang/Object", interfaces := []
     fields := [], methods := [⟨⟨0x101⟩, "step", "(I[LA;)V", []⟩], attributes := []
     pool := ⟨#[]⟩ },
   { name := "B", flags := ⟨0x21⟩, superClass := some "A", interfaces := [], fields := []
     methods := [⟨⟨0x1⟩, "run", "()V", [.code ⟨3, 1, 9,
       [⟨.load .ref, 0, .oneValue 0, false⟩, ⟨.bytePush, 2, .oneValue 1, false⟩,
        ⟨.refConstNull, 4, .simple, false⟩, ⟨.invoke .virtual, 5, .oneValue 6, false⟩,
        ⟨.returnVoid, 8, .simple, false⟩], []⟩ []]⟩]
     attributes := []
     pool := ⟨#[.utf8 "B", .classRef 1, .utf8 "step", .utf8 "(I[LA;)V", .nameAndType 3 4,
       .methodRef 2 5]⟩ }]

/-- The call of an inherited method refers to the class that has the method. -/
theorem lowerBatch_links_inheriting :
    ∃ (module : Module) (reference : MethodRef),
      (lowerBatch Catalog.standard "M" false inheritingBatch).result = .ok module ∧
      reference.owner = ⟨"A", .module ⟨0⟩⟩ ∧
      ∃ site owner target, IsCallSite inheritingBatch "B" 0 5 site ∧
        module.get? ⟨0⟩ = some owner ∧
        MemberKind.method.Links owner reference.name reference.sig (!reference.sig.hasThis)
          site.descriptor target := by
  have evaluated :
      ∃ module ∈ (lowerBatch Catalog.standard "M" false inheritingBatch).result.toOption,
        ∃ type ∈ module.get? ⟨1⟩, type.source = "B" ∧
          ∃ method ∈ type.methods[0]?, ∃ body ∈ method.body, ∃ entry ∈ body.instructions,
            entry.1 = 5 ∧ ∃ reference ∈ entry.2.methodRef?,
              reference.owner = ⟨"A", .module ⟨0⟩⟩ := by
    decide +kernel
  obtain ⟨module, lowered, type, listed, source, method, declared, body, filled, ⟨offset, _⟩,
    emitted, rfl, reference, carried, owner⟩ := evaluated
  have lowered := Except.eq_ok_of_mem_toOption lowered
  have links := (lowerBatch_links lowered listed declared filled emitted ⟨0⟩).1 reference carried
    (congrArg Target.TypeRef.origin owner)
  rw [source] at links
  exact ⟨module, reference, lowered, owner, links⟩

/-- A class that declares a method with a class and a number as parameters, and calls it with one
parameter whose class name reads like both. -/
def collidingBatch : List ClassFile :=
  [{ name := "A", flags := ⟨0x21⟩, superClass := some "java/lang/Object", interfaces := []
     fields := []
     methods := [⟨⟨0x109⟩, "m", "(LX;I)V", []⟩, ⟨⟨0x9⟩, "run", "()V", [.code ⟨1, 1, 5,
       [⟨.refConstNull, 0, .simple, false⟩, ⟨.invoke .static, 1, .oneValue 6, false⟩,
        ⟨.returnVoid, 4, .simple, false⟩], []⟩ []]⟩]
     attributes := []
     pool := ⟨#[.utf8 "A", .classRef 1, .utf8 "m", .utf8 "(LX,int32;)V", .nameAndType 3 4,
       .methodRef 2 5]⟩ },
   { name := "X", flags := ⟨0x21⟩, superClass := some "java/lang/Object", interfaces := []
     fields := [], methods := [], attributes := [], pool := ⟨#[]⟩ },
   { name := "X,int32", flags := ⟨0x21⟩, superClass := some "java/lang/Object", interfaces := []
     fields := [], methods := [], attributes := [], pool := ⟨#[]⟩ }]

/-- The method that the call refers to. -/
def collidingReference : MethodRef :=
  ⟨⟨"A", .module ⟨0⟩⟩, "m", ⟨false, [.object ⟨"X,int32", .module ⟨2⟩⟩], .void⟩⟩

/-- A class name with a comma lets a call refer to a method that its owner does not declare. -/
theorem not_declares_colliding :
    ∃ (module : Module) (owner : TypeDef) (run : MethodDef) (body : Body),
      (lowerBatch Catalog.standard "M" false collidingBatch).result = .ok module ∧
      module.get? ⟨0⟩ = some owner ∧ run ∈ owner.methods ∧ run.body = some body ∧
      (1, .call collidingReference) ∈ body.instructions ∧
      ∀ descriptor, ¬ MemberKind.method.Declares owner collidingReference.name
        collidingReference.sig descriptor := by
  have evaluated :
      ∃ module ∈ (lowerBatch Catalog.standard "M" false collidingBatch).result.toOption,
        ∃ owner ∈ module.get? ⟨0⟩,
          (∀ method ∈ owner.methods, method.sig ≠ collidingReference.sig) ∧
          ∃ body ∈ owner.methods.filterMap MethodDef.body,
            (1, .call collidingReference) ∈ body.instructions := by
    decide +kernel
  obtain ⟨module, lowered, owner, listed, different, body, bodies, emitted⟩ := evaluated
  obtain ⟨run, declared, filled⟩ := List.mem_filterMap.1 bodies
  refine ⟨module, owner, run, body, Except.eq_ok_of_mem_toOption lowered, listed, declared, filled,
    emitted, ?_⟩
  rintro descriptor ⟨method, single, -⟩
  have inside := List.mem_filter.1 (single ▸ List.mem_singleton_self method)
  rw [Bool.and_eq_true, decide_eq_true_eq, decide_eq_true_eq] at inside
  exact different method inside.1 inside.2.2

end ClassLowering
