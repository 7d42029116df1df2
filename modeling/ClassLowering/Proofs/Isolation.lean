import ClassLowering.Proofs.Batches
import ClassLowering.Proofs.Storage.Labels

/-! # Completing classes in isolation

A class that cannot be completed ends the lowering of a batch, unless classes are completed in
isolation: then it is left as it was declared, in its place, and the batch goes on. The two ways
agree (`lowerBatch_isolation`), because completing or failing to complete a class changes nothing
that later classes look up: neither the names of the classes nor what their types offer
(`outline_of_completes`).

That a batch becomes a module in isolation holds with labels of variables that wrap around behind 16
bits. `ClassFile.OverflowsIn` says in which classes they do. -/

namespace ClassLowering

open Target (Body MethodDef Module TypeDef TypeId TypeRef)

variable {ε α β : Type}

/-- The first of a list of computations that fails decides how the list fails. -/
theorem Except.mapM_eq_error {f : α → Except ε β} {items : List α} {index : Nat} {item : α}
    {failure : ε} (listed : items[index]? = some item) (fails : f item = .error failure)
    (before : ∀ earlier ∈ items.take index, ∃ result, f earlier = .ok result) :
    items.mapM f = .error failure := by
  induction items generalizing index with
  | nil => cases listed
  | cons first items induction =>
    rw [List.mapM_cons]
    cases index with
    | zero =>
      cases listed
      rw [fails]
      rfl
    | succ index =>
      rw [List.take_succ_cons, List.forall_mem_cons] at before
      obtain ⟨⟨result, found⟩, before⟩ := before
      rw [found, induction listed before]
      rfl

/-! ## Completing one class -/

/-- Completes a class on its own in a module: once it is attached to its host, its base type and the
bodies of its methods are found, or it fails. -/
def ownContents (catalog : Catalog) (module : Module) (placed : PlacedClass) :
    Except Error (Option TypeRef × List (Option Body)) := do
  let host ← hostOf module placed.file
  (lowerContents ⟨catalog, module.attach placed.id host⟩ placed.file).result

/-- The host that a class is attached to; without one it is at the top level. -/
def attachment (module : Module) (file : ClassFile) : Option TypeId :=
  (hostOf module file).toOption.join

/-- A class is completed the same way in modules with the same outline. -/
theorem ownContents_congr (catalog : Catalog) {first second : Module}
    (same : first.outline = second.outline) (placed : PlacedClass) :
    ownContents catalog first placed = ownContents catalog second placed := by
  unfold ownContents
  rw [hostOf_congr (Module.sources_eq_of_outline same)]
  congr 1
  funext host
  refine result_lowerContents_congr catalog ?_ placed.file
  rw [Module.outline_attach, Module.outline_attach, same]

/-- What is found out about a class in the last pass is what it gives on its own. -/
theorem completion_eq (catalog : Catalog) (module : Module) (isolate : Bool)
    (placed : PlacedClass) :
    completion ⟨catalog, module⟩ isolate placed.file =
      match ownContents catalog module placed with
      | .ok contents => .ok ⟨attachment module placed.file, some contents⟩
      | .error failure =>
        if isolate then .ok ⟨attachment module placed.file, none⟩ else .error failure := by
  unfold completion ownContents attachment
  dsimp only
  cases hostOf module placed.file with
  | error failure => rfl
  | ok host =>
    change _ = match (lowerContents ⟨catalog, module.attach placed.id host⟩ placed.file).result with
      | .ok contents => _
      | .error failure => _
    rw [result_lowerContents_congr catalog (module.outline_attach placed.id host)]
    dsimp only
    cases (lowerContents ⟨catalog, module⟩ placed.file).result <;> rfl

/-! ## Completing classes one after the other -/

/-- The class at an index is the one at that distance from the start. -/
theorem getElem?_placeFrom (start : Nat) (files : List ClassFile) (index : Nat) :
    (placeFrom start files)[index]? = files[index]?.map fun file => ⟨⟨start + index⟩, file⟩ := by
  induction files generalizing start index with
  | nil => rfl
  | cons file files induction =>
    cases index with
    | zero => rfl
    | succ index =>
      rw [placeFrom, List.getElem?_cons_succ, List.getElem?_cons_succ, induction,
        Nat.add_right_comm, Nat.add_assoc]

/-- The first classes are at the first places. -/
theorem take_placeFrom (start count : Nat) (files : List ClassFile) :
    (placeFrom start files).take count = placeFrom start (files.take count) := by
  induction files generalizing start count with
  | nil => rw [placeFrom, List.take_nil, List.take_nil, placeFrom]
  | cons file files induction =>
    cases count with
    | zero => rfl
    | succ count =>
      rw [placeFrom, List.take_succ_cons, List.take_succ_cons, placeFrom, induction]

/-- What a class has found out about itself, or how it has failed, in the module that it is met in
when the classes of a batch are completed in isolation, one after the other. -/
def HasOutcome (catalog : Catalog) (declared : Module) (placed : List PlacedClass) (index : Nat)
    (outcome : Except Error (Option TypeRef × List (Option Body))) : Prop :=
  ∃ module current,
    ((placed.take index).foldlM (completeNext catalog true) declared).result = .ok module ∧
    placed[index]? = some current ∧ ownContents catalog module current = outcome

section

variable {catalog : Catalog} {name : String} {files : List ClassFile} {types : List TypeDef}
  {declaring : Scope}

/-- In isolation, there is something found out about each class. -/
theorem exists_completions (catalog : Catalog) (module : Module) (files : List ClassFile) :
    ∃ completions, files.mapM (completion ⟨catalog, module⟩ true) = .ok completions := by
  refine Except.exists_mapM_iff.2 fun file _ => ?_
  rw [completion_eq catalog module true ⟨⟨0⟩, file⟩]
  cases ownContents catalog module ⟨⟨0⟩, file⟩ with
  | error failure => exact ⟨_, rfl⟩
  | ok contents => exact ⟨_, rfl⟩

/-- The classes before a class do not matter for its outcome. -/
theorem hasOutcome_iff (declares : files.mapM (declaredType declaring) = .ok types) (index : Nat)
    (outcome : Except Error (Option TypeRef × List (Option Body))) :
    HasOutcome catalog { name, types } (placeFrom 0 files) index outcome ↔
      ∃ file, files[index]? = some file ∧
        ownContents catalog { name, types } ⟨⟨index⟩, file⟩ = outcome := by
  obtain ⟨completions, found⟩ := exists_completions catalog { name, types } (files.take index)
  -- the module that the class is met in shows what the declared one shows
  have same := outline_of_completes declares name (files.take_prefix index) found
  unfold HasOutcome
  rw [take_placeFrom, result_completeClasses declares (files.take_prefix index), found,
    getElem?_placeFrom, Nat.zero_add]
  constructor
  · rintro ⟨module, current, met, listed, own⟩
    cases met
    obtain ⟨file, first, rfl⟩ := Option.map_eq_some_iff.1 listed
    exact ⟨file, first, (ownContents_congr catalog same _).symm.trans own⟩
  · rintro ⟨file, listed, own⟩
    refine ⟨_, ⟨⟨index⟩, file⟩, rfl, ?_, (ownContents_congr catalog same _).trans own⟩
    rw [listed, Option.map_some]

/-- Classes that do not fail are completed the same way in isolation. -/
theorem mapM_completion_true_of_false {module : Module} {completions : List Completion}
    (found : files.mapM (completion ⟨catalog, module⟩ false) = .ok completions) :
    files.mapM (completion ⟨catalog, module⟩ true) = .ok completions := by
  have completed := Except.exists_mapM_iff.1 ⟨completions, found⟩
  rw [Except.mapM_eq_ok] at found ⊢
  refine (List.map_congr_left fun file listed => ?_).trans found
  obtain ⟨result, own⟩ := completed file listed
  rw [completion_eq catalog module _ ⟨⟨0⟩, file⟩] at own ⊢
  rw [completion_eq catalog module false ⟨⟨0⟩, file⟩]
  split at own
  · rfl
  · cases own

/-- Without isolation, all classes are completed if none of them fails. -/
theorem exists_completions_iff (declares : files.mapM (declaredType declaring) = .ok types) :
    (∃ completions, files.mapM (completion ⟨catalog, { name, types }⟩ false) = .ok completions) ↔
      ∀ index failure,
        ¬HasOutcome catalog { name, types } (placeFrom 0 files) index (.error failure) := by
  simp only [Except.exists_mapM_iff, hasOutcome_iff declares]
  constructor
  · rintro completed index failure ⟨file, listed, fails⟩
    obtain ⟨result, found⟩ := completed file (List.mem_of_getElem? listed)
    rw [completion_eq catalog _ false ⟨⟨index⟩, file⟩, fails] at found
    cases found
  · intro clean file listed
    obtain ⟨index, place⟩ := List.mem_iff_getElem?.1 listed
    rw [completion_eq catalog _ false ⟨⟨index⟩, file⟩]
    cases own : ownContents catalog { name, types } ⟨⟨index⟩, file⟩ with
    | ok contents => exact ⟨_, rfl⟩
    | error failure => exact absurd ⟨file, place, own⟩ (clean index failure)

/-- Without isolation, the first class that fails decides. -/
theorem mapM_completion_eq_error (declares : files.mapM (declaredType declaring) = .ok types)
    {index : Nat} {failure : Error}
    (fails : HasOutcome catalog { name, types } (placeFrom 0 files) index (.error failure))
    (before : ∀ earlier < index, ∃ contents,
      HasOutcome catalog { name, types } (placeFrom 0 files) earlier (.ok contents)) :
    files.mapM (completion ⟨catalog, { name, types }⟩ false) = .error failure := by
  obtain ⟨file, listed, own⟩ := (hasOutcome_iff declares _ _).1 fails
  refine Except.mapM_eq_error listed ?_ fun other front => ?_
  · rw [completion_eq catalog _ false ⟨⟨index⟩, file⟩, own]
    rfl
  · obtain ⟨earlier, place⟩ := List.mem_iff_getElem?.1 front
    have bound : earlier < index := by
      have short := (List.getElem?_eq_some_iff.1 place).1
      rw [List.length_take] at short
      omega
    rw [List.getElem?_take_of_lt bound] at place
    obtain ⟨contents, gives⟩ := before earlier bound
    obtain ⟨_, same, own⟩ := (hasOutcome_iff declares _ _).1 gives
    cases place.symm.trans same
    rw [completion_eq catalog _ false ⟨⟨earlier⟩, other⟩, own]
    exact ⟨_, rfl⟩

/-- The type of a class after its completion in isolation: it is the declared one in its place, with
the contents that the class has found, and with none if it has failed. -/
structure Target.TypeDef.EndsAs (declared : TypeDef) (host : Option TypeId)
    (outcome : Except Error (Option TypeRef × List (Option Body))) (type : TypeDef) : Prop where
  bare : type.bare = { declared with enclosing := host, nested := type.nested }
  base : type.base = match outcome with
    | .ok (base, _) => base
    | .error _ => none
  bodies : type.methods.map MethodDef.body = match outcome with
    | .ok (_, bodies) => bodies
    | .error _ => declared.methods.map fun _ => none

/-- A declared type ends with the contents that its class finds on its own. -/
theorem endsAs_assembledType {module : Module} {completions : List Completion}
    {current : PlacedClass}
    {index : Nat} {type : TypeDef} (declared : declaredType declaring current.file = .ok type)
    (completes : completions[index]?.map .ok =
      some (completion ⟨catalog, module⟩ true current.file)) :
    type.EndsAs (attachment module current.file) (ownContents catalog module current)
      (assembledType completions index type) := by
  obtain ⟨completed, listed, found⟩ := Option.map_eq_some_iff.1 completes
  have fits := fits_of_completion declared found.symm
  have bare := bare_of_declaredType declared
  have shape : assembledType completions index type =
      { completed.fill type with
        enclosing := completed.host
        nested := (assembledType completions index type).nested } := by
    unfold assembledType
    rw [listed, completedType_some, (free_of_declaredType declared).1, Option.or_none]
  have whole : (assembledType completions index type).bare =
      { type with
        enclosing := completed.host
        nested := (assembledType completions index type).nested } := by
    refine (congrArg TypeDef.bare shape).trans ?_
    exact congrArg (fun filled => { filled with
      enclosing := completed.host, nested := (assembledType completions index type).nested })
      ((Completion.bare_fill fits).trans bare)
  -- the completion has contents exactly if the class does not fail
  rw [completion_eq catalog module true current] at found
  generalize ownContents catalog module current = outcome at found ⊢
  cases outcome with
  | ok contents =>
    cases found
    obtain ⟨base, bodies⟩ := contents
    have same : bodies.length = type.methods.length := fits (base, bodies) rfl
    refine ⟨whole, congrArg TypeDef.base shape, ?_⟩
    rw [congrArg TypeDef.methods shape]
    exact TypeDef.bodies_complete same base
  | error failure =>
    cases found
    have bodiless := congrArg (fun type => type.methods.map MethodDef.body) bare
    dsimp only [TypeDef.bare] at bodiless
    rw [List.map_map] at bodiless
    refine ⟨whole, (congrArg TypeDef.base shape).trans (congrArg TypeDef.base bare).symm, ?_⟩
    rw [congrArg TypeDef.methods shape]
    exact bodiless.symm

end

/-! ## Labels of 16 bits -/

/-- The table of variables of a method that is lowered, with its argument slots. -/
def Member.labelTable? (method : Member) : Option (List LocalVariable × List (Option UInt16)) :=
  if method.flags.isNative || method.flags.isAbstract then
    none
  else do
    let code ← Attribute.code? method.attributes
    let type ← MethodType.ofDescriptor? method.descriptor
    return (Attribute.localVariables code.attributes,
      LocalStorage.argumentSlots type.parameters !method.flags.isStatic)

/-- The tables of the methods of a class. -/
def ClassFile.labelTables (file : ClassFile) : List (List LocalVariable × List (Option UInt16)) :=
  file.methods.filterMap Member.labelTable?

/-- The labels of all tables of a class are below the last number of 16 bits. -/
def ClassFile.LabelsFit (file : ClassFile) : Prop :=
  ∀ table ∈ file.labelTables, LocalStorage.labelEnd table.1 table.2 ≤ 65535

instance (file : ClassFile) : Decidable file.LabelsFit :=
  inferInstanceAs (Decidable (∀ table ∈ _, _))

/-- A number of 16 bits is passed while the labels of some table of the class are computed. -/
def ClassFile.OverflowsIn (scope : Scope) (file : ClassFile) : Prop :=
  ∃ table ∈ file.labelTables, LocalStorage.Overflows scope table.1 table.2

/-- No number is passed in a class whose labels fit, wherever its names are looked up. -/
theorem ClassFile.LabelsFit.not_overflowsIn {file : ClassFile} (fit : file.LabelsFit)
    (scope : Scope) : ¬file.OverflowsIn scope := by
  rintro ⟨table, listed, overflows⟩
  exact absurd overflows.lt (Nat.not_lt.2 (fit table listed))

/-- A method that is lowered has a storage for its table. -/
theorem exists_storage_of_lowerMethod {scope : Scope} {file : ClassFile} {method : Member}
    {body : Option Body} {table : List LocalVariable × List (Option UInt16)}
    (lowered : (lowerMethod scope file method).result = .ok body)
    (tabled : method.labelTable? = some table) :
    ∃ storage, (LocalStorage.ofTable scope table.1 table.2).result = .ok storage := by
  unfold Member.labelTable? at tabled
  unfold lowerMethod at lowered
  split at tabled
  · cases tabled
  · next concrete =>
    rw [if_neg concrete] at lowered
    obtain ⟨code, coded, tabled⟩ := Option.bind_eq_some_iff.1 tabled
    obtain ⟨type, typed, tabled⟩ := Option.bind_eq_some_iff.1 tabled
    cases tabled
    rw [coded] at lowered
    obtain ⟨_, -, lowered⟩ := Logged.bind_eq_ok.1 lowered
    rw [Logged.result_map] at lowered
    obtain ⟨body, lowered, -⟩ := Except.map_eq_ok.1 lowered
    obtain ⟨found, storage, _, _, same, built, -⟩ := lowerBody_parts lowered
    cases typed.symm.trans same
    exact ⟨storage, built⟩

/-- In a class that is lowered a number is passed if its labels do not fit. -/
theorem overflowsIn_of_not_labelsFit {scope : Scope} {file : ClassFile}
    {contents : Option TypeRef × List (Option Body)}
    (lowered : (lowerContents scope file).result = .ok contents) (large : ¬file.LabelsFit) :
    file.OverflowsIn scope := by
  simp only [ClassFile.LabelsFit, not_forall] at large
  obtain ⟨table, listed, exceeds⟩ := large
  obtain ⟨method, member, tabled⟩ := List.mem_filterMap.1 listed
  obtain ⟨base, -, lowered⟩ := Logged.bind_eq_ok.1 lowered
  obtain ⟨bodies, found, -⟩ := Logged.bind_eq_ok.1 lowered
  rw [Logged.result_mapM] at found
  obtain ⟨body, lowered⟩ := Except.exists_mapM_iff.1 ⟨bodies, found⟩ method member
  obtain ⟨storage, built⟩ := exists_storage_of_lowerMethod lowered tabled
  exact ⟨table, listed, (LocalStorage.overflows_iff built).2 (Nat.lt_of_not_le exceeds)⟩

/-! ## Whole batches -/

/-- A batch whose members cannot be declared fails with the same error in isolation and not in
isolation. Otherwise it becomes a module in isolation, where each class ends with what it finds when
it is completed on its own, and with nothing but its declared members if it fails. Without isolation
the batch becomes the same module if no class fails, and the first class that fails decides how the
batch fails.

Labels of variables wrap around behind 16 bits on the way. They do so in no class whose labels fit,
and in every class that is completed although its labels do not fit, for instance because of a
variable in slot 65535. So a run that stops where a label overflows stops only in a class whose
labels do not fit. -/
theorem lowerBatch_isolation (catalog : Catalog) (name : String) (files : List ClassFile) :
    (∀ failure isolate, (declareBatch catalog name files).result = .error failure →
      (lowerBatch catalog name isolate files).result = .error failure) ∧
    (∀ declared placed, (declareBatch catalog name files).result = .ok (declared, placed) →
      ∃ isolated, (lowerBatch catalog name true files).result = .ok isolated ∧
        ((∃ module, (lowerBatch catalog name false files).result = .ok module) ↔
          ∀ index failure, ¬HasOutcome catalog declared placed index (.error failure)) ∧
        (∀ module, (lowerBatch catalog name false files).result = .ok module →
          module = isolated) ∧
        (∀ index failure, HasOutcome catalog declared placed index (.error failure) →
          (∀ earlier < index, ∃ contents,
            HasOutcome catalog declared placed earlier (.ok contents)) →
          (lowerBatch catalog name false files).result = .error failure) ∧
        ∀ index current, placed[index]? = some current →
          ∃ outcome declaredType type, HasOutcome catalog declared placed index outcome ∧
            declared.get? current.id = some declaredType ∧
            isolated.get? current.id = some type ∧
            declaredType.EndsAs (attachment declared current.file) outcome type) ∧
    ∀ file ∈ files, ∀ scope, (file.LabelsFit → ¬file.OverflowsIn scope) ∧
      ∀ contents, (lowerContents scope file).result = .ok contents → ¬file.LabelsFit →
        file.OverflowsIn scope := by
  refine ⟨fun failure isolate fails => ?_, fun declared placed found => ?_, fun file _ scope =>
    ⟨fun fit => fit.not_overflowsIn scope, fun _ => overflowsIn_of_not_labelsFit⟩⟩
  · rw [lowerBatch_eq_bind, Logged.result_bind, fails]
    rfl
  have lowered (isolate : Bool) := congrArg Logged.result
    (lowerBatch_eq_bind catalog name isolate files)
  simp only [Logged.result_bind, found] at lowered
  rw [result_declareBatch] at found
  obtain ⟨types, declares, same⟩ := Except.map_eq_ok.1 found
  cases same
  generalize keepFirst [] files = kept at declares lowered
  -- the two ways differ in what is found out about each class, not in how the module is built
  have lowered (isolate : Bool) : (lowerBatch catalog name isolate files).result =
      assemble name types <$> kept.mapM (completion ⟨catalog, { name, types }⟩ isolate) :=
    (lowered isolate).trans (result_completeClasses declares List.prefix_rfl)
  obtain ⟨completions, completes⟩ := exists_completions catalog { name, types } kept
  simp only [lowered, completes]
  refine ⟨assemble name types completions, rfl, ?_, ?_, ?_, ?_⟩
  · rw [← exists_completions_iff declares]
    constructor
    · rintro ⟨module, built⟩
      obtain ⟨others, finished, -⟩ := Except.map_eq_ok.1 built
      exact ⟨others, finished⟩
    · rintro ⟨others, finished⟩
      exact ⟨_, Except.map_eq_ok.2 ⟨others, finished, rfl⟩⟩
  · intro module built
    obtain ⟨others, finished, rfl⟩ := Except.map_eq_ok.1 built
    cases completes.symm.trans (mapM_completion_true_of_false finished)
    rfl
  · intro index failure fails before
    rw [mapM_completion_eq_error declares fails before]
    rfl
  · intro index current listed
    rw [getElem?_placeFrom, Nat.zero_add] at listed
    obtain ⟨file, place, rfl⟩ := Option.map_eq_some_iff.1 listed
    have completed := Except.getElem?_mapM completes index
    have declared := Except.getElem?_mapM declares index
    rw [place, Option.map_some] at completed declared
    obtain ⟨type, known, declared⟩ := Option.map_eq_some_iff.1 declared.symm
    refine ⟨_, type, assembledType completions index type,
      (hasOutcome_iff declares index _).2 ⟨file, place, rfl⟩, known, ?_,
      endsAs_assembledType declared.symm completed.symm⟩
    change (types.mapIdx (assembledType completions))[index]? = _
    rw [List.getElem?_mapIdx, known, Option.map_some]

/-- A class, a class nested in it without its superclass, a class without its host, a class with a
method without code, and a class that makes an object of the second one and has a variable in the
last slot. -/
def troubledBatch : List ClassFile :=
  [{ name := "A", flags := ⟨0x21⟩, superClass := some "java/lang/Object", interfaces := []
     fields := [], methods := [], attributes := [], pool := ⟨#[]⟩ },
   { name := "A$B", flags := ⟨0x20⟩, superClass := some "Missing", interfaces := []
     fields := [⟨⟨0x2⟩, "outer", "[LA;", []⟩]
     methods := [⟨⟨0x9⟩, "run", "(LA;)V", [.code ⟨0, 1, 1,
       [⟨.returnVoid, 0, .simple, false⟩], []⟩ []]⟩]
     attributes := [.nestHost "A"], pool := ⟨#[]⟩ },
   { name := "C$D", flags := ⟨0x20⟩, superClass := some "A", interfaces := [], fields := []
     methods := [], attributes := [.nestHost "C"], pool := ⟨#[]⟩ },
   { name := "E", flags := ⟨0x21⟩, superClass := some "A", interfaces := [], fields := []
     methods := [⟨⟨0x9⟩, "first", "()V", [.code ⟨0, 0, 1,
       [⟨.returnVoid, 0, .simple, false⟩], []⟩ []]⟩, ⟨⟨0x9⟩, "second", "()V", []⟩]
     attributes := [], pool := ⟨#[]⟩ },
   { name := "F", flags := ⟨0x21⟩, superClass := some "E", interfaces := [], fields := []
     methods := [⟨⟨0x9⟩, "make", "()LA$B;", [.code ⟨1, 0, 4,
       [⟨.new, 0, .oneValue 2, false⟩, ⟨.returnValue .ref, 3, .simple, false⟩], []⟩
       [.localVariableTable [⟨0, 4, "x", "I", 65535⟩]]]⟩]
     attributes := [], pool := ⟨#[.utf8 "A$B", .classRef 1]⟩ }]

/-- Three classes of the batch fail, each in its own way, and the others are whole. -/
theorem lowerBatch_isolation_troubled :
    ∃ isolated,
      (lowerBatch Catalog.standard "M" true troubledBatch).result = .ok isolated ∧
      (lowerBatch Catalog.standard "M" false troubledBatch).result =
        .error (.resolution (.unknownClass "Missing")) ∧
      isolated.types.map (fun type => (type.source, type.enclosing, type.base.isSome,
        type.methods.map (·.body.isSome))) =
        [("A", none, true, []), ("A$B", some ⟨0⟩, false, [false]), ("C$D", none, false, []),
          ("E", none, false, [false, false]), ("F", none, true, [true])] ∧
      ∃ last ∈ troubledBatch, last.name = "F" ∧ last.OverflowsIn ⟨Catalog.standard, isolated⟩ := by
  have evaluated :
      ∃ pass ∈ (declareBatch Catalog.standard "M" troubledBatch).result.toOption,
        (∃ first ∈ pass.2[0]?, ∃ contents ∈ (ownContents Catalog.standard pass.1 first).toOption,
          contents.2 = []) ∧
        ∃ module ∈ ((pass.2.take 1).foldlM (completeNext Catalog.standard true)
          pass.1).result.toOption,
        ∃ second ∈ pass.2[1]?, ownContents Catalog.standard module second =
          .error (.resolution (.unknownClass "Missing")) := by
    decide +kernel
  have shown :
      ∃ isolated ∈ (lowerBatch Catalog.standard "M" true troubledBatch).result.toOption,
        isolated.types.map (fun type => (type.source, type.enclosing, type.base.isSome,
          type.methods.map (·.body.isSome))) =
          [("A", none, true, []), ("A$B", some ⟨0⟩, false, [false]), ("C$D", none, false, []),
            ("E", none, false, [false, false]), ("F", none, true, [true])] ∧
        ∃ last ∈ troubledBatch, last.name = "F" ∧ ¬last.LabelsFit ∧
          ∃ contents ∈ (lowerContents ⟨Catalog.standard, isolated⟩ last).result.toOption,
            contents.1.isSome := by
    decide +kernel
  obtain ⟨⟨declared, placed⟩, declares, ⟨first, firstListed, contents, gives, -⟩,
    module, met, second, secondListed, fails⟩ := evaluated
  have ⟨_, passes, labels⟩ := lowerBatch_isolation Catalog.standard "M" troubledBatch
  have ⟨isolated, lowered, _, _, stops, _⟩ :=
    passes declared placed (Except.eq_ok_of_mem_toOption declares)
  obtain ⟨same, built, types, last, listed, called, large, filled, completed, -⟩ := shown
  cases lowered.symm.trans (Except.eq_ok_of_mem_toOption built)
  refine ⟨isolated, lowered, stops 1 _ ⟨module, second, Except.eq_ok_of_mem_toOption met,
    secondListed, fails⟩ fun earlier bound => ?_, types, last, listed, called,
    (labels last listed _).2 filled (Except.eq_ok_of_mem_toOption completed) large⟩
  obtain rfl : earlier = 0 := by omega
  exact ⟨contents, declared, first, rfl, firstListed, Except.eq_ok_of_mem_toOption gives⟩

end ClassLowering
