import Mathlib.Data.List.Forall2
import Mathlib.Data.Nat.Bitwise
import ClassLowering.Proofs.Isolation
import ClassLowering.Proofs.Members.Sites

/-! # Types stand for classes

Members are declared in one pass and get their bodies in another one, from two lists that are put
together at the end. Still each type of a module stands for one class, member by member
(`TypeDef.StandsFor`): the first class of its name, in the order of the batch, and each body is that
of the method in its place (`lowerBatch_surface`).

What a type has is said about the class alone and about the module that the batch becomes, although
members are declared when no type has members yet, and bodies are lowered when only the classes in
front are completed. -/

namespace ClassLowering

open Target (Body FieldDef MethodDef Module TypeDef TypeRef)

/-! ## First classes -/

/-- The classes with no class of the same name in front of them. -/
def firstOfEachName (files : List ClassFile) : List ClassFile :=
  (files.zipIdx.filter fun (file, place) =>
    file.name ∉ (files.take place).map ClassFile.name).map Prod.fst

/-- The classes that are kept are those with a name that is neither known nor in front. -/
theorem keepFirst_eq_filter (known : List String) (files : List ClassFile) :
    keepFirst known files = (files.zipIdx.filter fun (file, place) =>
      file.name ∉ known ∧ file.name ∉ (files.take place).map ClassFile.name).map Prod.fst := by
  induction files generalizing known with
  | nil => rfl
  | cons first files induction =>
    -- the places behind the first class are counted from one on
    have later (known : List String) :
        ((files.zipIdx 1).filter fun (file, place) => file.name ∉ known ∧
            file.name ∉ ((first :: files).take place).map ClassFile.name).map Prod.fst =
          (files.zipIdx.filter fun (file, place) => file.name ∉ known ++ [first.name] ∧
            file.name ∉ (files.take place).map ClassFile.name).map Prod.fst := by
      rw [List.zipIdx_succ, List.filter_map, List.map_map]
      congr 1
      refine List.filter_congr fun entry _ => ?_
      simp [and_assoc]
    rw [keepFirst, List.zipIdx_cons]
    by_cases old : first.name ∈ known
    · rw [if_pos old, induction, List.filter_cons_of_neg (by simp [old]), later]
      congr 1
      refine List.filter_congr fun entry _ => ?_
      by_cases same : entry.1.name = first.name
      · simp [same, old]
      · simp [same]
    · rw [if_neg old, induction, List.filter_cons_of_pos (by simp [old]), List.map_cons, later]

/-- Nothing has been seen at the start, so the first class of each name is kept. -/
theorem keepFirst_nil (files : List ClassFile) : keepFirst [] files = firstOfEachName files := by
  rw [keepFirst_eq_filter]
  simp [firstOfEachName]

/-! ## Access flags -/

/-- Whether the bit at a place is set. -/
def AccessFlags.bit (flags : AccessFlags) (place : Nat) : Bool := flags.bits.toNat.testBit place

/-- A mask of one bit is there if its bit is set. -/
theorem AccessFlags.has_eq_bit (flags : AccessFlags) {mask : UInt16} {place : Nat}
    (single : mask.toNat = 2 ^ place) : flags.has mask = flags.bit place := by
  have masked : (flags.bits &&& mask).toNat = (flags.bit place).toNat * 2 ^ place := by
    rw [UInt16.toNat_and, single, Nat.and_two_pow]
    rfl
  have positive : 0 < 2 ^ place := Nat.two_pow_pos place
  rw [has, Bool.eq_iff_iff, beq_iff_eq, ← UInt16.toNat_inj, masked, single]
  cases flags.bit place with
  | false => simp [positive.ne]
  | true => simp

/-- The flags that matter are single bits. -/
theorem AccessFlags.eq_bit (flags : AccessFlags) :
    flags.isPublic = flags.bit 0 ∧ flags.isPrivate = flags.bit 1 ∧ flags.isStatic = flags.bit 3 ∧
      flags.isFinal = flags.bit 4 ∧ flags.isNative = flags.bit 8 ∧
      flags.isInterface = flags.bit 9 ∧ flags.isAbstract = flags.bit 10 :=
  ⟨flags.has_eq_bit rfl, flags.has_eq_bit rfl, flags.has_eq_bit rfl, flags.has_eq_bit rfl,
    flags.has_eq_bit rfl, flags.has_eq_bit rfl, flags.has_eq_bit rfl⟩

/-! ## What types stand for -/

namespace Target

/-- The field stands for a field of a class. -/
structure FieldDef.StandsFor (scope : Scope) (member : Member) (field : FieldDef) : Prop where
  name : field.name = member.name
  descriptor : field.descriptor = member.descriptor
  flags : field.flags = {
    isPublic := member.flags.bit 0
    isPrivate := member.flags.bit 1
    isStatic := member.flags.bit 3
    isInitOnly := member.flags.bit 4 }
  sig : ∃ type, FieldType.ofDescriptor? member.descriptor = some type ∧
    scope.fieldSig type = .ok field.sig
  constant : field.constant =
    (Attribute.constantValue? member.attributes).bind Constant.literal?

/-- The method stands for a method of a class. -/
structure MethodDef.StandsFor (scope : Scope) (file : ClassFile) (member : Member)
    (method : MethodDef) : Prop where
  name : method.name = Naming.member member.name
  sourceName : method.sourceName = member.name
  descriptor : method.descriptor = member.descriptor
  flags : method.flags = {
    isPublic := member.flags.bit 0
    isPrivate := member.flags.bit 1
    isFinal := member.flags.bit 4
    isStatic := member.flags.bit 3
    isAbstract := member.flags.bit 10
    isVirtual := member.flags.bit 10
    isExternal := member.flags.bit 8
    isSpecialName := Naming.member member.name ≠ member.name }
  sig : ∃ type, MethodType.ofDescriptor? member.descriptor = some type ∧
    scope.methodSig type (!member.flags.bit 3) = .ok method.sig
  hasThis : method.sig.hasThis = !member.flags.bit 3
  /-- Methods that are neither native nor abstract have bodies, and no others. -/
  hasBody : method.body.isSome ↔ member.flags.bit 8 = false ∧ member.flags.bit 10 = false
  /-- A body is lowered from the first code attribute of the method itself. -/
  body : ∀ body, method.body = some body →
    ∃ code, Attribute.code? member.attributes = some code ∧
      (lowerBody scope file.pool member code).result = .ok body

/-- The type stands for a class. -/
structure TypeDef.StandsFor (scope : Scope) (file : ClassFile) (type : TypeDef) : Prop where
  source : type.source = file.name
  name : (type.space, type.name) = Naming.typeName file.name
  flags : type.flags = {
    isPublic := file.flags.bit 0
    isNestedPrivate := file.flags.bit 1
    isAbstract := file.flags.bit 3 || file.flags.bit 10
    isSealed := file.flags.bit 3
    isInterface := file.flags.bit 9 }
  superName : type.superName = file.superClass
  interfaces : type.interfaces = file.interfaces
  base : baseOf scope file = .ok type.base
  fields : List.Forall₂ (FieldDef.StandsFor scope) file.fields type.fields
  methods : List.Forall₂ (MethodDef.StandsFor scope file) file.methods type.methods

end Target

/-! ## Members -/

/-- Computations for a list succeed with the results of the computations for its elements. -/
theorem Except.forall₂_of_mapM {ε α β : Type} {f : α → Except ε β} {items : List α}
    {results : List β} (found : items.mapM f = .ok results) :
    List.Forall₂ (fun item result => f item = .ok result) items results := by
  have same := mapM_eq_ok.1 found
  rw [← List.forall₂_eq_eq_eq, List.forall₂_map_left_iff, List.forall₂_map_right_iff] at same
  exact same

section

variable {scope : Scope} {file : ClassFile} {member : Member}

/-- A field that is declared stands for the field of the class. -/
theorem standsFor_of_declareField {field : FieldDef}
    (declared : declareField scope member = .ok field) : field.StandsFor scope member := by
  obtain ⟨type, typed, declared⟩ := Except.bind_eq_ok.1 declared
  obtain ⟨sig, lowered, declared⟩ := Except.bind_eq_ok.1 declared
  cases declared
  refine ⟨rfl, rfl, ?_, ⟨type, FieldType.ofDescriptor_eq_ok.1 typed, lowered⟩, rfl⟩
  obtain ⟨isPublic, isPrivate, isStatic, isFinal, -⟩ := member.flags.eq_bit
  rw [AccessFlags.fieldFlags, isPublic, isPrivate, isStatic, isFinal]

/-- A method has a body if it is neither native nor abstract. -/
theorem isSome_of_lowerMethod {body : Option Body}
    (lowered : (lowerMethod scope file member).result = .ok body) :
    body.isSome ↔ member.flags.isNative = false ∧ member.flags.isAbstract = false := by
  unfold lowerMethod at lowered
  split at lowered
  · next bodiless =>
    cases lowered
    rw [Bool.or_eq_true] at bodiless
    rcases bodiless with native | abstract
    · simp [native]
    · simp [abstract]
  · next bodied =>
    rw [Bool.not_eq_true, Bool.or_eq_false_iff] at bodied
    split at lowered
    · cases lowered
    · obtain ⟨-, -, lowered⟩ := Logged.bind_eq_ok.1 lowered
      rw [Logged.result_map, Except.map_eq_ok] at lowered
      obtain ⟨_, -, rfl⟩ := lowered
      simp [bodied]

/-- A method that is declared and gets the body that is lowered for it stands for the method of the
class. -/
theorem standsFor_of_declareMethod {method : MethodDef} {body : Option Body}
    (declared : declareMethod scope member = .ok method)
    (lowered : (lowerMethod scope file member).result = .ok body) :
    MethodDef.StandsFor scope file member { method with body } := by
  obtain ⟨type, typed, declared⟩ := Except.bind_eq_ok.1 declared
  obtain ⟨sig, signed, declared⟩ := Except.bind_eq_ok.1 declared
  cases declared
  obtain ⟨isPublic, isPrivate, isStatic, isFinal, isNative, -, isAbstract⟩ := member.flags.eq_bit
  rw [isStatic] at signed
  have hasBody := isSome_of_lowerMethod lowered
  rw [isNative, isAbstract] at hasBody
  refine ⟨rfl, rfl, rfl, ?_, ⟨type, MethodType.ofDescriptor_eq_ok.1 typed, signed⟩, ?_, hasBody, ?_⟩
  · rw [AccessFlags.methodFlags, isPublic, isPrivate, isStatic, isFinal, isNative, isAbstract]
  · obtain ⟨_, -, signed⟩ := Except.bind_eq_ok.1 signed
    obtain ⟨_, -, signed⟩ := Except.bind_eq_ok.1 signed
    cases signed
    rfl
  · rintro own rfl
    exact code_of_lowerMethod lowered

end

/-! ## Types -/

section

variable {scope : Scope} {file : ClassFile}

/-- Methods and their bodies, which are found in the same order, are put together. -/
theorem forall₂_zipWith_body {members : List Member} {methods : List MethodDef}
    {bodies : List (Option Body)}
    (declared : List.Forall₂ (fun member method => declareMethod scope member = .ok method) members
      methods)
    (lowered : List.Forall₂ (fun member body => (lowerMethod scope file member).result = .ok body)
      members bodies) :
    List.Forall₂ (MethodDef.StandsFor scope file) members
      (methods.zipWith (fun method body => { method with body }) bodies) := by
  induction declared generalizing bodies with
  | nil => exact .nil
  | cons first _ induction =>
    cases lowered with
    | cons body others => exact .cons (standsFor_of_declareMethod first body) (induction others)

/-- A type that is declared and completed stands for its class. -/
theorem standsFor_complete {type : TypeDef} {base : Option TypeRef} {bodies : List (Option Body)}
    (declared : declaredType scope file = .ok type)
    (lowered : (lowerContents scope file).result = .ok (base, bodies)) :
    (type.complete base bodies).StandsFor scope file := by
  obtain ⟨fields, methods, same⟩ := declaredType_spec declared
  obtain ⟨_, based, lowered⟩ := Logged.bind_eq_ok.1 lowered
  obtain ⟨_, mapped, lowered⟩ := Logged.bind_eq_ok.1 lowered
  cases lowered
  rw [Logged.result_mapM] at mapped
  obtain ⟨isPublic, isPrivate, isStatic, -, -, isInterface, isAbstract⟩ := file.flags.eq_bit
  have flags : type.flags = file.flags.typeFlags := by rw [same]; rfl
  refine ⟨by rw [same]; rfl, by rw [same]; rfl, ?_, by rw [same]; rfl, by rw [same]; rfl, based, ?_,
    ?_⟩
  · refine flags.trans ?_
    rw [AccessFlags.typeFlags, isPublic, isPrivate, isStatic, isInterface, isAbstract]
  · exact (Except.forall₂_of_mapM fields).imp fun _ _ => standsFor_of_declareField
  · exact forall₂_zipWith_body (Except.forall₂_of_mapM methods) (Except.forall₂_of_mapM mapped)

/-- Where a type is attached does not matter for what it stands for. -/
theorem Target.TypeDef.StandsFor.attach {type : TypeDef} (stands : type.StandsFor scope file)
    (enclosing : Option Target.TypeId) (nested : List Target.TypeId) :
    TypeDef.StandsFor scope file { type with enclosing, nested } :=
  ⟨stands.source, stands.name, stands.flags, stands.superName, stands.interfaces, stands.base,
    stands.fields, stands.methods⟩

end

/-! ## Whole batches -/

/-- Without isolation, a class that is completed has contents. -/
theorem contents_of_completion {scope : Scope} {file : ClassFile} {completed : Completion}
    (found : completion scope false file = .ok completed) :
    ∃ contents, completed.contents = some contents ∧
      (lowerContents scope file).result = .ok contents := by
  unfold completion at found
  split at found
  · cases found
  · split at found
    · cases found
    · next contents lowered =>
      cases found
      exact ⟨contents, rfl, lowered⟩

/-- A type of a class with contents is put together from them. -/
theorem exists_assembledType {completions : List Completion} {index : Nat} {completed : Completion}
    {base : Option TypeRef} {bodies : List (Option Body)}
    (listed : completions[index]? = some completed)
    (filled : completed.contents = some (base, bodies)) (type : TypeDef) :
    ∃ enclosing nested, assembledType completions index type =
      { type.complete base bodies with enclosing, nested } := by
  rw [assembledType, listed, completedType_some, Completion.fill, filled]
  exact ⟨_, _, rfl⟩

/-- The types of a module stand for the first classes of each name of the batch, in its order,
member by member: each field and each method for the one at its place, with the flags of its access
bits and the signature of its descriptor, and each body for the code of the method at its place. -/
theorem lowerBatch_surface {catalog : Catalog} {name : String} {files : List ClassFile}
    {module : Module} (lowered : (lowerBatch catalog name false files).result = .ok module) :
    List.Forall₂ (TypeDef.StandsFor ⟨catalog, module⟩) (firstOfEachName files) module.types := by
  obtain ⟨declared, completions, declares, completes, rfl⟩ := lowerBatch_eq_ok.1 lowered
  rw [← keepFirst_nil]
  generalize keepFirst [] files = kept at declares completes
  -- members are declared in a scope without members, where names mean the same as in the end
  have sources : (assemble name declared completions).sources = (registered name kept).sources := by
    rw [sources_registered, sources_assemble, sources_of_declaredType declares]
  have scopes : declaredType ⟨catalog, assemble name declared completions⟩ =
      declaredType ⟨catalog, registered name kept⟩ := declaredType_congr rfl sources
  rw [← scopes] at declares
  -- bodies are lowered in a scope without bodies, which has the same outline
  have outline := outline_of_completes declares name List.prefix_rfl completes
  have declaredEach := Except.forall₂_of_mapM declares
  have completedEach := Except.forall₂_of_mapM completes
  have size : (assemble name declared completions).types.length = declared.length :=
    List.length_mapIdx
  refine List.forall₂_iff_get.2 ⟨declaredEach.length_eq.trans size.symm,
    fun index inside below => ?_⟩
  have own := declaredEach.get inside (size ▸ below)
  have completed := completedEach.get inside (completedEach.length_eq ▸ inside)
  obtain ⟨⟨base, bodies⟩, filled, contents⟩ := contents_of_completion completed
  rw [← result_lowerContents_congr catalog outline] at contents
  have listed := List.getElem?_eq_getElem (completedEach.length_eq ▸ inside)
  obtain ⟨enclosing, nested, shape⟩ := exists_assembledType listed filled
    (declared.get ⟨index, size ▸ below⟩)
  have same : (assemble name declared completions).types.get ⟨index, below⟩ =
      assembledType completions index (declared.get ⟨index, size ▸ below⟩) := List.getElem_mapIdx
  rw [same, shape]
  exact (standsFor_complete own contents).attach enclosing nested

/-- An abstract class with a native method between others, a class with a static method, and another
class with the name of the first one. -/
def duplicatedBatch : List ClassFile :=
  let code : Attribute := .code ⟨0, 1, 1, [⟨.returnVoid, 0, .simple, false⟩], []⟩ []
  [{ name := "p/A", flags := ⟨0x421⟩, superClass := some "java/lang/Object", interfaces := ["B"]
     fields := [⟨⟨0x1A⟩, "f", "LB;", []⟩]
     methods := [⟨⟨0x401⟩, "g", "(I)Lp/A;", []⟩, ⟨⟨0x1⟩, "<init>", "()V", [code]⟩,
       ⟨⟨0x109⟩, "h", "(J)V", []⟩, ⟨⟨0x11⟩, "k", "([J)V", [code]⟩]
     attributes := [], pool := ⟨#[]⟩ },
   { name := "B", flags := ⟨0x21⟩, superClass := some "p/A", interfaces := [], fields := []
     methods := [⟨⟨0x9⟩, "run", "()V", [code]⟩], attributes := [], pool := ⟨#[]⟩ },
   { name := "p/A", flags := ⟨0x20⟩, superClass := none, interfaces := [], fields := []
     methods := [], attributes := [], pool := ⟨#[]⟩ }]

/-- A class with four methods, a class that calls one, and the first class once more. -/
theorem lowerBatch_surface_duplicated :
    ∃ module, (lowerBatch Catalog.standard "M" false duplicatedBatch).result = .ok module ∧
      (module.types.map fun type =>
        (type.source, type.methods.map fun method => (method.name, method.body.isSome))) =
          [("p/A", [("g", false), (".ctor", true), ("h", false), ("k", true)]),
            ("B", [("run", true)])] ∧
      List.Forall₂ (TypeDef.StandsFor ⟨Catalog.standard, module⟩) (duplicatedBatch.take 2)
        module.types := by
  have evaluated :
      ∃ module ∈ (lowerBatch Catalog.standard "M" false duplicatedBatch).result.toOption,
        (module.types.map fun type =>
          (type.source, type.methods.map fun method => (method.name, method.body.isSome))) =
            [("p/A", [("g", false), (".ctor", true), ("h", false), ("k", true)]),
              ("B", [("run", true)])] := by
    decide +kernel
  obtain ⟨module, lowered, methods⟩ := evaluated
  have lowered := Except.eq_ok_of_mem_toOption lowered
  have first : firstOfEachName duplicatedBatch = duplicatedBatch.take 2 := rfl
  exact ⟨module, lowered, methods, first ▸ lowerBatch_surface lowered⟩

end ClassLowering
