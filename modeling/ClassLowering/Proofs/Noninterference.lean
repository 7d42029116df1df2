import ClassLowering.Proofs.Isolation

/-! # The code of a class concerns no other class

The code of the methods of a class decides which bodies its methods get, and whether the class
fails. Nothing else depends on it: declarations and hosts are taken from other parts of the class,
and what is looked up in a type are its names and members. So two batches that are the same except
for the code of one class (`ClassFile.hideCode`) become modules that are the same except for the
contents of that class (`Target.Module.hideContents`), when classes are completed in isolation
(`lowerBatch_noninterference`). -/

namespace ClassLowering

open Target (MethodDef Module TypeDef TypeId)

/-! ## What is hidden -/

/-- Whether an attribute is the code of a method. -/
def Attribute.isCode : Attribute → Bool
  | code _ _ => true
  | _ => false

/-- A member without code. -/
def Member.withoutCode (member : Member) : Member :=
  { member with attributes := member.attributes.filter fun entry => !entry.isCode }

namespace ClassFile

/-- A class without the code of its methods, and without the pool, which only code refers to. -/
def withoutCode (file : ClassFile) : ClassFile :=
  { file with methods := file.methods.map Member.withoutCode, pool := ⟨#[]⟩ }

/-- Hides the code of the class with a name; other classes are kept. -/
def hideCode (owner : String) (file : ClassFile) : ClassFile :=
  if file.name = owner then file.withoutCode else file

end ClassFile

/-- Hides the base and the bodies of the type for a class; other types are kept. -/
def Target.Module.hideContents (owner : String) (module : Module) : Module :=
  { module with
    types := module.types.map fun type => if type.source = owner then type.bare else type }

/-! ## What does not depend on code -/

section

variable (owner : String) (file : ClassFile)

/-- Hiding code does not change the name of a class. -/
@[simp] theorem ClassFile.name_hideCode : (file.hideCode owner).name = file.name := by
  unfold hideCode
  split <;> rfl

/-- Hiding code does not change what is declared first. -/
@[simp] theorem ClassFile.typeDef_hideCode : (file.hideCode owner).typeDef = file.typeDef := by
  unfold hideCode
  split <;> rfl

/-- Members are declared without regard to code. -/
@[simp] theorem declaredType_hideCode (scope : Scope) :
    declaredType scope (file.hideCode owner) = declaredType scope file := by
  unfold ClassFile.hideCode
  split
  · have methods : declareMethods scope file.withoutCode = declareMethods scope file := by
      unfold declareMethods ClassFile.withoutCode
      dsimp only
      rw [List.mapM_map]
      rfl
    unfold declaredType
    rw [methods]
    rfl
  · rfl

/-- The host of a class is found without regard to code. -/
@[simp] theorem attachment_hideCode (module : Module) :
    attachment module (file.hideCode owner) = attachment module file := by
  unfold ClassFile.hideCode
  split <;> rfl

/-- Which classes are kept depends on their names only. -/
theorem keepFirst_map_hideCode (known : List String) (files : List ClassFile) :
    keepFirst known (files.map (ClassFile.hideCode owner)) =
      (keepFirst known files).map (ClassFile.hideCode owner) := by
  induction files generalizing known with
  | nil => rfl
  | cons first files induction =>
    rw [List.map_cons, keepFirst, keepFirst, ClassFile.name_hideCode]
    by_cases shared : first.name ∈ known
    · rw [if_pos shared, if_pos shared, induction]
    · rw [if_neg shared, if_neg shared, induction, List.map_cons]

end

section

variable {owner : String} {first second : List ClassFile}

/-- A class whose code is not hidden is the same in both lists. -/
theorem getElem?_of_hideCode
    (same : first.map (ClassFile.hideCode owner) = second.map (ClassFile.hideCode owner))
    {index : Nat} {file : ClassFile} (listed : first[index]? = some file)
    (visible : file.name ≠ owner) : second[index]? = some file := by
  have hidden := congrArg (fun files => files[index]?) same
  simp only [List.getElem?_map, listed, Option.map_some] at hidden
  obtain ⟨other, listedOther, equal⟩ := Option.map_eq_some_iff.1 hidden.symm
  have names := congrArg ClassFile.name equal
  rw [ClassFile.name_hideCode, ClassFile.name_hideCode] at names
  rw [ClassFile.hideCode, if_neg (names ▸ visible), ClassFile.hideCode, if_neg visible] at equal
  rw [listedOther, equal]

/-- What does not depend on code is the same for classes that differ in hidden code only. -/
theorem map_eq_of_hideCode {α : Type} {view : ClassFile → α}
    (blind : ∀ file, view (file.hideCode owner) = view file)
    (same : first.map (ClassFile.hideCode owner) = second.map (ClassFile.hideCode owner)) :
    first.map view = second.map view := by
  have hidden (files : List ClassFile) :
      (files.map (ClassFile.hideCode owner)).map view = files.map view := by
    rw [List.map_map]
    exact List.map_congr_left fun file _ => blind file
  rw [← hidden first, same, hidden second]

/-- The same types are declared. -/
theorem mapM_declaredType_of_hideCode (scope : Scope)
    (same : first.map (ClassFile.hideCode owner) = second.map (ClassFile.hideCode owner)) :
    first.mapM (declaredType scope) = second.mapM (declaredType scope) := by
  have view (files : List ClassFile) :
      files.mapM (declaredType scope) = (files.map (declaredType scope)).mapM id := by
    rw [List.mapM_map]
    rfl
  rw [view, view, map_eq_of_hideCode (declaredType_hideCode owner · scope) same]

end

/-! ## Putting modules together -/

/-- Classes that are completed are attached to their hosts. -/
theorem hosts_of_completions {catalog : Catalog} {module : Module} {isolate : Bool}
    {files : List ClassFile} {completions : List Completion}
    (completes : files.mapM (completion ⟨catalog, module⟩ isolate) = .ok completions) :
    completions.map Completion.host = files.map (attachment module) := by
  refine Except.map_of_mapM completes fun file completed own => ?_
  rw [completion_eq catalog module isolate ⟨⟨0⟩, file⟩] at own
  split at own
  · cases own
    rfl
  · -- a class that fails in isolation is attached all the same
    cases isolate <;> cases own
    rfl

section

variable {completions others : List Completion}

/-- The types that a type encloses depend on the hosts only. -/
theorem hosted_congr (hosts : completions.map Completion.host = others.map Completion.host) :
    hosted completions = hosted others := by
  have view (completions : List Completion) (host : Option TypeId) :
      hosted completions host =
        ((completions.map Completion.host).zipIdx.filter fun (above, _) => above = host).map
          fun (_, index) => ⟨index⟩ := by
    rw [hosted, List.zipIdx_map, List.filter_map, List.map_map]
    rfl
  funext host
  rw [view, view, hosts]

/-- The type that encloses a type is its host. -/
theorem enclosing_assembledType (completions : List Completion) (index : Nat) (type : TypeDef) :
    (assembledType completions index type).enclosing =
      (completions[index]?.bind Completion.host).or type.enclosing := by
  unfold assembledType
  cases completions[index]? with
  | none => rfl
  | some completion => rw [completedType_some]; rfl

/-- Modules are the same except for the contents of one class if all hosts are the same, and what
has been found out about the other classes. -/
theorem hideContents_assemble {owner name : String} {declared : List TypeDef}
    (hosts : completions.map Completion.host = others.map Completion.host)
    (fits : ∀ (index : Nat) (type : TypeDef), declared[index]? = some type →
      (∀ completion ∈ completions[index]?, completion.Fits type) ∧
        ∀ completion ∈ others[index]?, completion.Fits type)
    (visible : ∀ (index : Nat) (type : TypeDef), declared[index]? = some type →
      type.source ≠ owner → completions[index]? = others[index]?) :
    (assemble name declared completions).hideContents owner =
      (assemble name declared others).hideContents owner := by
  have enclosing (index : Nat) :
      completions[index]?.bind Completion.host = others[index]?.bind Completion.host := by
    have same := congrArg (fun hosts => hosts[index]?.bind id) hosts
    simpa only [List.getElem?_map, Option.bind_map, Function.id_comp] using same
  have types : (assemble name declared completions).types.map
        (fun type => if type.source = owner then type.bare else type) =
      (assemble name declared others).types.map
        (fun type => if type.source = owner then type.bare else type) := by
    refine List.ext_getElem? fun index => ?_
    rw [assemble, assemble, List.getElem?_map, List.getElem?_map, List.getElem?_mapIdx,
      List.getElem?_mapIdx]
    cases listed : declared[index]? with
    | none => rfl
    | some type =>
      rw [Option.map_some, Option.map_some, Option.map_some, Option.map_some,
        assembledType_source, assembledType_source]
      by_cases own : type.source = owner
      · -- without contents, only the place of the type is left of what was found out
        rw [if_pos own, if_pos own, bare_assembledType (fits index type listed).1,
          bare_assembledType (fits index type listed).2, enclosing_assembledType,
          enclosing_assembledType, enclosing index]
        unfold assembledType
        rw [hosted_congr hosts]
      · rw [if_neg own, if_neg own]
        unfold assembledType
        rw [visible index type listed own, hosted_congr hosts]
  unfold Module.hideContents
  rw [types]
  unfold assemble
  rw [hosted_congr hosts]

end

/-! ## Whole batches -/

/-- Classes that are the same except for hidden code are completed to modules that are the same
except for hidden contents. -/
theorem hideContents_of_completions {catalog : Catalog} {owner name : String}
    {first second : List ClassFile} {declaring : Scope} {types : List TypeDef}
    {completions others : List Completion}
    (same : first.map (ClassFile.hideCode owner) = second.map (ClassFile.hideCode owner))
    (declares : first.mapM (declaredType declaring) = .ok types)
    (completes : first.mapM (completion ⟨catalog, { name, types }⟩ true) = .ok completions)
    (completesOther : second.mapM (completion ⟨catalog, { name, types }⟩ true) = .ok others) :
    (assemble name types completions).hideContents owner =
      (assemble name types others).hideContents owner := by
  have declaresOther := (mapM_declaredType_of_hideCode declaring same).symm.trans declares
  refine hideContents_assemble ?_ (fun index type listed => ?_) fun index type listed visible => ?_
  · rw [hosts_of_completions completes, hosts_of_completions completesOther]
    exact map_eq_of_hideCode (attachment_hideCode owner · _) same
  · exact ⟨fits_of_completions List.prefix_rfl declares completes listed,
      fits_of_completions List.prefix_rfl declaresOther completesOther listed⟩
  · -- a class that is not hidden is the same in both lists, and so is what it finds out
    have declared := Except.getElem?_mapM declares index
    rw [listed] at declared
    obtain ⟨file, place, declared⟩ := Option.map_eq_some_iff.1 declared
    have placeOther := getElem?_of_hideCode same place (source_of_declaredType declared ▸ visible)
    have found := Except.getElem?_mapM completes index
    have foundOther := Except.getElem?_mapM completesOther index
    rw [place] at found
    rw [placeOther] at foundOther
    exact Option.map_injective (fun _ _ => Except.ok.inj) (found.symm.trans foundOther)

/-- The code of a class is not seen from outside the class. If the members of a batch can be
declared, those of a batch that is the same except for the code of one class are declared the same
way. In isolation the two batches become modules that are the same except for the base and the
bodies of that class; and every other class has the same outcome in the modules that it is met in,
though these may have different bodies of that class already. -/
theorem lowerBatch_noninterference (catalog : Catalog) (name owner : String)
    {first second : List ClassFile}
    (same : first.map (ClassFile.hideCode owner) = second.map (ClassFile.hideCode owner))
    {declared : Module} {placed : List PlacedClass}
    (declares : (declareBatch catalog name first).result = .ok (declared, placed)) :
    ∃ others left right,
      (declareBatch catalog name second).result = .ok (declared, others) ∧
      (lowerBatch catalog name true first).result = .ok left ∧
      (lowerBatch catalog name true second).result = .ok right ∧
      left.hideContents owner = right.hideContents owner ∧
      ∀ index current, placed[index]? = some current → current.file.name ≠ owner →
        ∀ outcome, HasOutcome catalog declared placed index outcome ↔
          HasOutcome catalog declared others index outcome := by
  -- the same classes are kept, so they are registered and declared in the same way
  have kept : (keepFirst [] first).map (ClassFile.hideCode owner) =
      (keepFirst [] second).map (ClassFile.hideCode owner) := by
    rw [← keepFirst_map_hideCode, same, keepFirst_map_hideCode]
  have sameRegistered : registered name (keepFirst [] first) =
      registered name (keepFirst [] second) :=
    congrArg (fun types => ({ name, types } : Module))
      (map_eq_of_hideCode (ClassFile.typeDef_hideCode owner) kept)
  rw [result_declareBatch] at declares
  obtain ⟨types, declaresFirst, found⟩ := Except.map_eq_ok.1 declares
  cases found
  have declaresOther := (mapM_declaredType_of_hideCode _ kept).symm.trans declaresFirst
  rw [sameRegistered] at declaresOther
  -- with isolation every class is completed in the one way or the other
  obtain ⟨completions, completes⟩ :=
    exists_completions catalog { name, types } (keepFirst [] first)
  obtain ⟨others, completesOther⟩ :=
    exists_completions catalog { name, types } (keepFirst [] second)
  refine ⟨placeFrom 0 (keepFirst [] second), assemble name types completions,
    assemble name types others, ?_, ?_, ?_, ?_, ?_⟩
  · rw [result_declareBatch, declaresOther]
    rfl
  · exact lowerBatch_eq_ok.2 ⟨types, completions, declaresFirst, completes, rfl⟩
  · exact lowerBatch_eq_ok.2 ⟨types, others, declaresOther, completesOther, rfl⟩
  · exact hideContents_of_completions kept declaresFirst completes completesOther
  · intro index current listed visible outcome
    rw [getElem?_placeFrom] at listed
    obtain ⟨file, place, rfl⟩ := Option.map_eq_some_iff.1 listed
    rw [hasOutcome_iff declaresFirst, hasOutcome_iff declaresOther, place,
      getElem?_of_hideCode kept place visible]

/-- A class with some methods, and a class nested in it that extends it and calls its method
`step`. -/
def callingBatch (methods : List Member) (pool : ConstantPool) : List ClassFile :=
  [{ name := "A", flags := ⟨0x21⟩, superClass := some "java/lang/Object", interfaces := []
     fields := [], methods, attributes := [], pool },
   { name := "A$B", flags := ⟨0x21⟩, superClass := some "A", interfaces := [], fields := []
     methods := [⟨⟨0x9⟩, "run", "()V", [.code ⟨0, 0, 4,
       [⟨.invoke .static, 0, .oneValue 6, false⟩, ⟨.returnVoid, 3, .simple, false⟩], []⟩ []]⟩]
     attributes := [.nestHost "A"]
     pool := ⟨#[.utf8 "A", .classRef 1, .utf8 "step", .utf8 "()V", .nameAndType 3 4,
       .methodRef 2 5]⟩ }]

/-- Two methods that return. -/
def returningMethods : List Member :=
  [⟨⟨0x9⟩, "step", "()V", [.code ⟨0, 0, 1, [⟨.returnVoid, 0, .simple, false⟩], []⟩ []]⟩,
   ⟨⟨0x9⟩, "last", "()V", [.raw "Synthetic" [], .code ⟨0, 0, 1,
     [⟨.returnVoid, 0, .simple, false⟩], []⟩ []]⟩]

/-- Methods with the same names, of which one makes an object of a class that the pool names at 2,
and the other one has no code. -/
def failingMethods : List Member :=
  [⟨⟨0x9⟩, "step", "()V", [.code ⟨1, 0, 4, [⟨.new, 0, .oneValue 2, false⟩,
     ⟨.returnVoid, 3, .simple, false⟩], []⟩ [.localVariableTable []]]⟩,
   ⟨⟨0x9⟩, "last", "()V", [.raw "Synthetic" []]⟩]

/-- The method that is called may return or fail; the class that calls it is lowered to the same. -/
theorem lowerBatch_noninterference_calling :
    ∃ left right,
      (lowerBatch Catalog.standard "M" true (callingBatch returningMethods ⟨#[]⟩)).result =
        .ok left ∧
      (lowerBatch Catalog.standard "M" true
        (callingBatch failingMethods ⟨#[.utf8 "Missing", .classRef 1]⟩)).result = .ok right ∧
      left.hideContents "A" = right.hideContents "A" ∧
      left.types.map (fun type => (type.base.isSome, type.methods.map (·.body.isSome))) =
        [(true, [true, true]), (true, [true])] ∧
      right.types.map (fun type => (type.base.isSome, type.methods.map (·.body.isSome))) =
        [(false, [false, false]), (true, [true])] := by
  have evaluated :
      (∃ pass ∈ (declareBatch Catalog.standard "M"
          (callingBatch returningMethods ⟨#[]⟩)).result.toOption, pass.1.types.length = 2) ∧
      (∃ left ∈ (lowerBatch Catalog.standard "M" true
          (callingBatch returningMethods ⟨#[]⟩)).result.toOption,
        left.types.map (fun type => (type.base.isSome, type.methods.map (·.body.isSome))) =
          [(true, [true, true]), (true, [true])]) ∧
      ∃ right ∈ (lowerBatch Catalog.standard "M" true
          (callingBatch failingMethods ⟨#[.utf8 "Missing", .classRef 1]⟩)).result.toOption,
        right.types.map (fun type => (type.base.isSome, type.methods.map (·.body.isSome))) =
          [(false, [false, false]), (true, [true])] := by
    decide +kernel
  obtain ⟨⟨pass, declares, -⟩, ⟨left, lowered, bodies⟩, right, loweredOther, bodiesOther⟩ :=
    evaluated
  have hidden : (callingBatch returningMethods ⟨#[]⟩).map (ClassFile.hideCode "A") =
      (callingBatch failingMethods ⟨#[.utf8 "Missing", .classRef 1]⟩).map
        (ClassFile.hideCode "A") :=
    rfl
  obtain ⟨_, _, _, -, lowers, lowersOther, same, -⟩ :=
    lowerBatch_noninterference Catalog.standard "M" "A" hidden
      (Except.eq_ok_of_mem_toOption declares)
  cases lowers.symm.trans (Except.eq_ok_of_mem_toOption lowered)
  cases lowersOther.symm.trans (Except.eq_ok_of_mem_toOption loweredOther)
  exact ⟨left, right, lowers, lowersOther, same, bodies, bodiesOther⟩

end ClassLowering
