import ClassLowering.Proofs.References.Lowering

/-! # What the passes over a batch do

A batch is lowered in three passes that change one module. The first two register and declare the
classes (`result_declareBatch`): the first class of each name is kept, and its type is at the index
of the class. What the last pass finds out about a class is told apart from the module that it
changes (`completion`, `Completion.finish`). A module is put together from the declared types and
what was found out about the first classes (`assemble`): a type encloses the types of those that
name its class as their host. -/

namespace ClassLowering

open Target (Body Module TypeDef TypeId TypeRef)

/-! ## Names of types -/

namespace Target.Module

/-- The classes that have types, in the order of the types. -/
def sources (module : Module) : List String := module.types.map TypeDef.source

/-- A class is looked up among the names of all classes. -/
theorem lookup_eq (module : Module) (name : String) :
    module.lookup name = (module.sources.findIdx? (· = name)).map TypeId.mk := by
  rw [lookup, sources, List.findIdx?_map]
  rfl

/-- Modules with the same classes have them at the same places. -/
theorem lookup_congr {first second : Module} (same : first.sources = second.sources) :
    first.lookup = second.lookup := by
  funext name
  rw [lookup_eq, lookup_eq, same]

/-- A module has no type for a name exactly if no type has this name as source. -/
theorem lookup_eq_none_iff {module : Module} {name : String} :
    module.lookup name = none ↔ name ∉ module.sources := by
  rw [lookup_eq, Option.map_eq_none_iff, List.findIdx?_eq_none_iff]
  simp only [decide_eq_false_iff_not]
  constructor
  · exact fun absent member => absent name member rfl
  · rintro absent other member rfl
    exact absent member

/-- The type of a class is at the place of its name. -/
theorem getElem?_sources_of_lookup {module : Module} {name : String} {id : TypeId}
    (found : module.lookup name = some id) : module.sources[id.index]? = some name := by
  rw [lookup_eq] at found
  obtain ⟨index, position, rfl⟩ := Option.map_eq_some_iff.1 found
  obtain ⟨bound, same, -⟩ := List.findIdx?_eq_some_iff_getElem.1 position
  rw [List.getElem?_eq_getElem bound, Option.some.injEq]
  exact of_decide_eq_true same

/-- A class with one type only is looked up to that type. -/
theorem lookup_of_getElem? {module : Module} {name : String} {id : TypeId}
    (distinct : module.sources.Nodup) (listed : module.sources[id.index]? = some name) :
    module.lookup name = some id := by
  cases found : module.lookup name with
  | none => exact absurd (List.mem_of_getElem? listed) (lookup_eq_none_iff.1 found)
  | some other =>
    obtain ⟨bound, -⟩ := List.getElem?_eq_some_iff.1 listed
    have same := listed.trans (getElem?_sources_of_lookup found).symm
    exact congrArg (fun index => some (TypeId.mk index))
      ((List.getElem?_inj bound distinct).1 same).symm

/-- A change of a type keeps what it has in common with the type before, at all places. -/
theorem map_types_update {α : Type} {view : TypeDef → α} {change : TypeDef → TypeDef}
    (keeps : ∀ type, view (change type) = view type) (module : Module) (id : TypeId) :
    (module.update id change).types.map view = module.types.map view := by
  refine List.ext_getElem? fun index => ?_
  rw [update, List.getElem?_map, List.getElem?_map, List.getElem?_modify]
  cases module.types[index]? with
  | none => rfl
  | some type =>
    dsimp only [Option.map_eq_map, Option.map_some]
    split
    · rw [keeps]
    · rfl

/-- Attaching a type keeps all that does not depend on which types are nested. -/
theorem map_types_attach {α : Type} {view : TypeDef → α}
    (enclosing : ∀ (type : TypeDef) host, view { type with enclosing := host } = view type)
    (nested : ∀ (type : TypeDef) ids, view { type with nested := ids } = view type)
    (module : Module) (id : TypeId) (host : Option TypeId) :
    (module.attach id host).types.map view = module.types.map view := by
  cases host with
  | none => rfl
  | some host =>
    unfold attach
    dsimp only
    rw [map_types_update fun type => nested type _, map_types_update fun type => enclosing type _]

/-- Attaching a type adds none. -/
theorem length_types_attach (module : Module) (id : TypeId) (host : Option TypeId) :
    (module.attach id host).types.length = module.types.length := by
  cases host <;> simp [attach, update]

/-- A type is registered unless its class is known. -/
theorem register_eq (module : Module) (type : TypeDef) :
    module.register type =
      if type.source ∈ module.sources then none
      else some (⟨module.types.length⟩, { module with types := module.types ++ [type] }) := by
  rw [register]
  split
  · next id found =>
    have known := List.mem_of_getElem? (getElem?_sources_of_lookup found)
    rw [if_pos known]
  · next missing => rw [if_neg (lookup_eq_none_iff.1 missing)]

end Target.Module

/-- A class is the source of its type. -/
@[simp] theorem ClassFile.typeDef_source (file : ClassFile) : file.typeDef.source = file.name := rfl

/-! ## Registering classes -/

/-- The classes that are kept: of each name that is not known, the first one. -/
def keepFirst (known : List String) : List ClassFile → List ClassFile
  | [] => []
  | file :: files =>
    if file.name ∈ known then keepFirst known files
    else file :: keepFirst (known ++ [file.name]) files

/-- A class that is kept is the first one of its name. -/
theorem find?_of_mem_keepFirst {known : List String} {files : List ClassFile} {file : ClassFile}
    (kept : file ∈ keepFirst known files) :
    files.find? (·.name = file.name) = some file ∧ file.name ∉ known := by
  induction files generalizing known with
  | nil => cases kept
  | cons first files induction =>
    rw [keepFirst] at kept
    split at kept
    · next shared =>
      obtain ⟨found, fresh⟩ := induction kept
      refine ⟨?_, fresh⟩
      rw [List.find?_cons_of_neg, found]
      exact fun same => fresh (of_decide_eq_true same ▸ shared)
    · next fresh =>
      obtain rfl | later := List.mem_cons.1 kept
      · exact ⟨List.find?_cons_of_pos (decide_eq_true rfl), fresh⟩
      · obtain ⟨found, freshLater⟩ := induction later
        rw [List.mem_append, List.mem_singleton, not_or] at freshLater
        refine ⟨?_, freshLater.1⟩
        rw [List.find?_cons_of_neg, found]
        exact fun same => freshLater.2 (of_decide_eq_true same).symm

/-- Classes with distinct names that are not known are all kept. -/
theorem keepFirst_eq_self {known : List String} {files : List ClassFile}
    (distinct : (files.map ClassFile.name).Nodup)
    (fresh : ∀ file ∈ files, file.name ∉ known) : keepFirst known files = files := by
  induction files generalizing known with
  | nil => rfl
  | cons file files induction =>
    obtain ⟨firstFresh, fresh⟩ := List.forall_mem_cons.1 fresh
    obtain ⟨differs, distinct⟩ := List.nodup_cons.1 distinct
    rw [keepFirst, if_neg firstFresh, induction distinct]
    intro other listed
    rw [List.mem_append, List.mem_singleton]
    rintro (old | same)
    · exact fresh other listed old
    · exact differs (same ▸ List.mem_map_of_mem listed)

/-- Classes at consecutive places. -/
def placeFrom (start : Nat) : List ClassFile → List PlacedClass
  | [] => []
  | file :: files => ⟨⟨start⟩, file⟩ :: placeFrom (start + 1) files

/-- The module in which all classes are registered. -/
def registered (name : String) (files : List ClassFile) : Module where
  name
  types := files.map ClassFile.typeDef

/-- Registering gives the types of the classes, in their order. -/
theorem sources_registered (name : String) (files : List ClassFile) :
    (registered name files).sources = files.map ClassFile.name := by
  rw [Module.sources, registered, List.map_map]
  rfl

/-- Registering always succeeds, and adds the types of the classes that are kept. -/
theorem result_registerAll (module : Module) (files : List ClassFile) :
    (registerAll module files).result =
      .ok ({ module with
          types := module.types ++ (keepFirst module.sources files).map ClassFile.typeDef },
        placeFrom module.types.length (keepFirst module.sources files)) := by
  induction files generalizing module with
  | nil =>
    rw [keepFirst, List.map_nil, List.append_nil]
    rfl
  | cons file files induction =>
    rw [registerAll, Module.register_eq, ClassFile.typeDef_source]
    by_cases known : file.name ∈ module.sources
    · rw [if_pos known, keepFirst, if_pos known, ← induction module]
      rfl
    · rw [if_neg known, keepFirst, if_neg known, Logged.result_bind, induction]
      have sources : ({ module with types := module.types ++ [file.typeDef] } : Module).sources =
          module.sources ++ [file.name] := by
        rw [Module.sources, List.map_append]
        rfl
      rw [sources, List.append_assoc, List.length_append]
      rfl

/-! ## Declaring members -/

/-- Names are resolved in the library first and then in the module. -/
theorem Scope.resolve_eq (scope : Scope) (name : String) :
    scope.resolve name =
      match scope.catalog.get? name with
      | some _ => .ok ⟨name, .library⟩
      | none =>
        match scope.module.lookup name with
        | some id => .ok ⟨name, .module id⟩
        | none => .error (.resolution (.unknownClass name)) := by
  rw [resolve, Catalog.typeRef?]
  cases known : scope.catalog.get? name with
  | some type => rw [Option.map_some, Catalog.name_of_get? known]
  | none => rfl

/-- How names are resolved depends on the library and the names of the classes only. -/
theorem Scope.renamesTypes_id {first second : Scope} (catalogs : second.catalog = first.catalog)
    (sources : second.module.sources = first.module.sources) :
    RenamesTypes id first second := by
  intro name
  rw [id_map, resolve_eq, resolve_eq, catalogs, Module.lookup_congr sources]

/-- The type for a class, with its members. -/
def declaredType (scope : Scope) (file : ClassFile) : Except Error TypeDef := do
  let fields ← declareFields scope file
  let methods ← declareMethods scope file
  return { file.typeDef with fields, methods }

/-- What is declared in a scope with renamed types has renamed types. -/
theorem declaredType_eq_map {f : TypeRef → TypeRef} {first second : Scope}
    (renames : first.RenamesTypes f second) (file : ClassFile) :
    declaredType second file = TypeDef.rename f <$> declaredType first file := by
  refine Except.bind_eq_map (Except.mapM_eq_map fun field _ => declareField_eq_map renames field)
    fun fields => ?_
  exact Except.bind_eq_map (Except.mapM_eq_map fun method _ => declareMethod_eq_map renames method)
    fun methods => rfl

/-- Members are declared the same way in scopes with the same library and the same classes. -/
theorem declaredType_congr {first second : Scope} (catalogs : second.catalog = first.catalog)
    (sources : second.module.sources = first.module.sources) :
    declaredType second = declaredType first := by
  funext file
  rw [declaredType_eq_map (Scope.renamesTypes_id catalogs sources), funext TypeDef.rename_id]
  exact id_map _

/-- Declaring the members of a class changes its type to one with them. -/
theorem result_declareMembers (catalog : Catalog) (module : Module) (placed : PlacedClass) :
    (declareMembers catalog module placed).result =
      (fun declared => module.update placed.id fun type =>
        { type with fields := declared.fields, methods := declared.methods }) <$>
          declaredType ⟨catalog, module⟩ placed.file := by
  unfold declareMembers declaredType
  simp only [Logged.result_bind, Logged.result_lift, Logged.result_record, Logged.result_pure]
  cases declareFields ⟨catalog, module⟩ placed.file with
  | error failure => rfl
  | ok fields => cases declareMethods ⟨catalog, module⟩ placed.file <;> rfl

/-- A list with the element behind its front part changed. -/
theorem modify_append_cons {α : Type} (change : α → α) (front : List α) (old : α)
    (rest : List α) :
    (front ++ old :: rest).modify front.length change = front ++ change old :: rest := by
  induction front with
  | nil => rfl
  | cons first front induction => exact congrArg (first :: ·) induction

/-- A declared type differs from the registered one in its members, which are those of the class. -/
theorem declaredType_spec {scope : Scope} {file : ClassFile} {type : TypeDef}
    (declared : declaredType scope file = .ok type) :
    declareFields scope file = .ok type.fields ∧ declareMethods scope file = .ok type.methods ∧
      type = { file.typeDef with fields := type.fields, methods := type.methods } := by
  obtain ⟨fields, fieldsFound, declared⟩ := Except.bind_eq_ok.1 declared
  obtain ⟨methods, methodsFound, declared⟩ := Except.bind_eq_ok.1 declared
  cases declared
  exact ⟨fieldsFound, methodsFound, rfl⟩

/-- A declared type has the name of its class. -/
theorem source_of_declaredType {scope : Scope} {file : ClassFile} {type : TypeDef}
    (declared : declaredType scope file = .ok type) : type.source = file.name := by
  rw [(declaredType_spec declared).2.2]
  rfl

/-- A declared type is not nested and encloses no type. -/
theorem free_of_declaredType {scope : Scope} {file : ClassFile} {type : TypeDef}
    (declared : declaredType scope file = .ok type) : type.enclosing = none ∧ type.nested = [] := by
  rw [(declaredType_spec declared).2.2]
  exact ⟨rfl, rfl⟩

/-- Declaring members class by class, with the classes in front declared before. -/
theorem foldlM_declareMembers (scope : Scope) (name : String) (front : List TypeDef)
    (files : List ClassFile)
    (sources : scope.module.sources =
      front.map TypeDef.source ++ files.map ClassFile.name) :
    (placeFrom front.length files).foldlM
        (fun module placed => (declareMembers scope.catalog module placed).result)
        { name, types := front ++ files.map ClassFile.typeDef } =
      (fun types => { name, types := front ++ types }) <$> files.mapM (declaredType scope) := by
  induction files generalizing front with
  | nil => rfl
  | cons file files induction =>
    let module : Module := { name, types := front ++ (file :: files).map ClassFile.typeDef }
    -- signatures depend on the names of classes only, so the order of declaring does not matter
    have same : declaredType ⟨scope.catalog, module⟩ = declaredType scope := by
      refine declaredType_congr rfl ?_
      rw [sources, Module.sources, List.map_append, List.map_map]
      rfl
    rw [placeFrom, List.foldlM_cons, List.mapM_cons, result_declareMembers, same]
    cases declared : declaredType scope file with
    | error failure => rfl
    | ok type =>
      have updated : module.update ⟨front.length⟩ (fun old =>
          { old with fields := type.fields, methods := type.methods }) =
            { name, types := front ++ [type] ++ files.map ClassFile.typeDef } := by
        rw [Module.update]
        dsimp only [module]
        rw [List.map_cons, modify_append_cons, ← (declaredType_spec declared).2.2,
          List.append_assoc]
        rfl
      change List.foldlM _ (module.update ⟨front.length⟩ _) _ = _
      have next := induction (front ++ [type]) (by
        rw [sources, List.map_append, List.append_assoc, List.map_singleton,
          source_of_declaredType declared]
        rfl)
      rw [List.length_append] at next
      rw [updated]
      refine next.trans ?_
      cases files.mapM (declaredType scope) with
      | error failure => rfl
      | ok types => exact congrArg Except.ok (by dsimp only; rw [List.append_assoc]; rfl)

/-! ## Completing classes -/

/-- What is found out about a class in the last pass. -/
structure Completion where
  host : Option TypeId
  /-- The base type and the bodies, unless the class is left without them. -/
  contents : Option (Option TypeRef × List (Option Body))

/-- Completes a class on its own. -/
def completion (scope : Scope) (isolate : Bool) (file : ClassFile) : Except Error Completion :=
  match hostOf scope.module file with
  | .error failure => if isolate then .ok ⟨none, none⟩ else .error failure
  | .ok host =>
    match (lowerContents scope file).result with
    | .error failure => if isolate then .ok ⟨host, none⟩ else .error failure
    | .ok contents => .ok ⟨host, some contents⟩

/-- A class that is completed has the host it names, unless the host is missing, and the contents of
the class, unless it is left without them. -/
theorem completion_spec {scope : Scope} {isolate : Bool} {file : ClassFile}
    {completed : Completion} (found : completion scope isolate file = .ok completed) :
    (completed.host = none ∨ hostOf scope.module file = .ok completed.host) ∧
      ∀ contents ∈ completed.contents, (lowerContents scope file).result = .ok contents := by
  unfold completion at found
  split at found
  · cases isolate <;> cases found
    exact ⟨.inl rfl, by rintro _ ⟨⟩⟩
  · next host hosts =>
    split at found
    · cases isolate <;> cases found
      exact ⟨.inr hosts, by rintro _ ⟨⟩⟩
    · next contents lowered =>
      cases found
      refine ⟨.inr hosts, ?_⟩
      rintro _ ⟨⟩
      exact lowered

/-- A host that is found has a type in the module. -/
theorem lt_of_hostOf {module : Module} {file : ClassFile} {host : TypeId}
    (found : hostOf module file = .ok (some host)) : host.index < module.types.length := by
  unfold hostOf at found
  split at found
  · cases found
  · split at found
    · next place listed =>
      cases found
      obtain ⟨type, stored, -⟩ := Module.get?_of_lookup listed
      exact (List.getElem?_eq_some_iff.1 stored).1
    · cases found

/-- Hosts have types in the module. -/
theorem host_lt_of_completion {scope : Scope} {isolate : Bool} {file : ClassFile}
    {completed : Completion} (found : completion scope isolate file = .ok completed) :
    ∀ id ∈ completed.host, id.index < scope.module.types.length := by
  intro id hosted
  obtain none | hosts := (completion_spec found).1
  · rw [none] at hosted
    cases hosted
  · rw [hosted] at hosts
    exact lt_of_hostOf hosts

/-- Gives a type the contents that were found. -/
def Completion.fill (completion : Completion) (type : TypeDef) : TypeDef :=
  match completion.contents with
  | some (base, bodies) => type.complete base bodies
  | none => type

/-- Attaches and completes one class. -/
def Completion.finish (completion : Completion) (id : TypeId) (module : Module) : Module :=
  (module.attach id completion.host).update id completion.fill

/-- Hosts are looked up among the names of all classes. -/
theorem hostOf_congr {first second : Module} (same : first.sources = second.sources)
    (file : ClassFile) : hostOf first file = hostOf second file := by
  unfold hostOf
  rw [Module.lookup_congr same]

/-- A class that is left without contents is only attached. -/
theorem Completion.finish_of_none (host : Option TypeId) (id : TypeId) (module : Module) :
    Completion.finish ⟨host, none⟩ id module = module.attach id host := by
  rw [finish, Module.update]
  exact congrArg (fun types => { module.attach id host with types }) (List.modify_id _ _)

/-- How a batch goes on behind a class, told from the module that the class leaves and how it
ends. -/
theorem result_completeNext (catalog : Catalog) (isolate : Bool) (module : Module)
    (placed : PlacedClass) :
    (completeNext catalog isolate module placed).result =
      let (later, outcome) := completeClass catalog module placed
      match outcome.result with
      | .ok () => .ok later
      | .error failure =>
        if isolate then
          .ok (if later.isAttached placed.id then later else later.attach placed.id none)
        else .error failure := by
  unfold completeNext
  obtain ⟨later, log, outcome⟩ := completeClass catalog module placed
  rw [Logged.result_tryCatch, Logged.result_bind]
  cases outcome with
  | ok => rfl
  | error failure => cases isolate <;> rfl

/-! ## Putting the module together -/

/-- The places of the classes with a host; without one, of the classes at the top level. -/
def hosted (completions : List Completion) (host : Option TypeId) : List TypeId :=
  (completions.zipIdx.filter fun (completion, _) => completion.host = host).map
    fun (_, index) => ⟨index⟩

/-- A type with what has been found out about its class. -/
def completedType (completion : Option Completion) (type : TypeDef) : TypeDef :=
  match completion with
  | some completion => completion.fill { type with enclosing := completion.host.or type.enclosing }
  | none => type

/-- The type at an index, after the classes of some completions have been completed. -/
def assembledType (completions : List Completion) (index : Nat) (type : TypeDef) : TypeDef :=
  { completedType completions[index]? type with
    nested := type.nested ++ hosted completions (some ⟨index⟩) }

/-- The module of declared types, after the classes of some completions have been completed. -/
def assemble (name : String) (declared : List TypeDef) (completions : List Completion) :
    Module where
  name
  types := declared.mapIdx (assembledType completions)
  topLevel := hosted completions none

/-- What a host has grows by the last class if this has it as host. -/
theorem hosted_append (completions : List Completion) (last : Completion)
    (host : Option TypeId) :
    hosted (completions ++ [last]) host =
      hosted completions host ++ if last.host = host then [⟨completions.length⟩] else [] := by
  rw [hosted, List.zipIdx_append, List.filter_append, List.map_append, hosted]
  congr 1
  by_cases same : last.host = host <;> simp [same]

/-- What completing a class does to the type at an index. -/
def Completion.touch (completion : Completion) (id : TypeId) (index : Nat) (type : TypeDef) :
    TypeDef :=
  let enclosed :=
    if id.index = index then { type with enclosing := completion.host.or type.enclosing } else type
  let hosting :=
    if completion.host = some ⟨index⟩ then { enclosed with nested := enclosed.nested ++ [id] }
    else enclosed
  if id.index = index then completion.fill hosting else hosting

/-- A host is known by its index. -/
theorem Target.TypeId.some_eq_some_mk {host : TypeId} {index : Nat} :
    (some host = some (TypeId.mk index)) = (host.index = index) := by
  rw [Option.some.injEq, TypeId.mk.injEq]

/-- Finishing a class changes its type and that of its host, and no other. -/
theorem Completion.getElem?_types_finish (completion : Completion) (id : TypeId) (module : Module)
    (index : Nat) :
    (completion.finish id module).types[index]? =
      module.types[index]?.map (completion.touch id index) := by
  rw [finish, Module.update, List.getElem?_modify]
  obtain ⟨host, contents⟩ := completion
  cases host with
  | none =>
    rw [Module.attach, Option.map_eq_map]
    congr 1
    funext type
    unfold touch
    split <;> rfl
  | some host =>
    rw [Module.attach, Module.update, List.getElem?_modify, Module.update, List.getElem?_modify,
      Option.map_eq_map, Option.map_eq_map, Option.map_eq_map, Option.map_map, Option.map_map]
    congr 1
    funext type
    unfold touch
    simp only [Function.comp_apply, TypeId.some_eq_some_mk]
    rfl

/-- Finishing a class without a host puts its type at the top level. -/
theorem Completion.topLevel_finish (completion : Completion) (id : TypeId) (module : Module) :
    (completion.finish id module).topLevel =
      module.topLevel ++ if completion.host = none then [id] else [] := by
  obtain ⟨host, contents⟩ := completion
  cases host with
  | none => rfl
  | some host => exact (List.append_nil _).symm

/-- Contents are found without regard to the types that a type encloses. -/
theorem Completion.fill_nested (completion : Completion) (type : TypeDef) (nested : List TypeId) :
    completion.fill { type with nested } = { completion.fill type with nested } := by
  unfold fill
  split <;> rfl

/-- Contents are found without regard to the type that encloses a type. -/
theorem Completion.fill_enclosing (completion : Completion) (type : TypeDef)
    (enclosing : Option TypeId) :
    completion.fill { type with enclosing } = { completion.fill type with enclosing } := by
  unfold fill
  split <;> rfl

/-- A completed class is enclosed by its host. -/
theorem completedType_some (completion : Completion) (type : TypeDef) :
    completedType (some completion) type =
      { completion.fill type with enclosing := completion.host.or type.enclosing } :=
  completion.fill_enclosing type _

/-- One more completion touches a type as completing one more class does. -/
theorem assembledType_append (completions : List Completion) (last : Completion) (index : Nat)
    (type : TypeDef) :
    assembledType (completions ++ [last]) index type =
      last.touch ⟨completions.length⟩ index (assembledType completions index type) := by
  unfold assembledType Completion.touch
  rw [hosted_append]
  by_cases own : completions.length = index
  -- the type of the class itself, which may be its own host
  · subst own
    rw [List.getElem?_concat_length, List.getElem?_eq_none (Nat.le_refl _)]
    dsimp only [completedType]
    rw [if_pos rfl, if_pos rfl]
    split
    · rw [← List.append_assoc, ← Completion.fill_nested]
    · rw [List.append_nil, ← Completion.fill_nested]
  · have same : (completions ++ [last])[index]? = completions[index]? := by
      rw [List.getElem?_append]
      split
      · rfl
      · rw [List.getElem?_eq_none (by rw [List.length_singleton]; omega),
          List.getElem?_eq_none (by omega)]
    rw [same, if_neg own, if_neg own]
    by_cases hosts : last.host = some ⟨index⟩
    · rw [if_pos hosts, if_pos hosts, ← List.append_assoc]
    · rw [if_neg hosts, if_neg hosts, List.append_nil]

/-- Completing one more class. -/
theorem finish_assemble (name : String) (declared : List TypeDef) (completions : List Completion)
    (last : Completion) :
    last.finish ⟨completions.length⟩ (assemble name declared completions) =
      assemble name declared (completions ++ [last]) := by
  generalize same : last.finish ⟨completions.length⟩ (assemble name declared completions) = finished
  have names : finished.name = name := by
    rw [← same]
    obtain ⟨host, contents⟩ := last
    cases host <;> rfl
  have types : finished.types = declared.mapIdx (assembledType (completions ++ [last])) := by
    refine List.ext_getElem? fun index => ?_
    rw [← same, Completion.getElem?_types_finish, assemble, List.getElem?_mapIdx,
      List.getElem?_mapIdx, Option.map_map]
    congr 1
    funext type
    exact (assembledType_append completions last index type).symm
  have topLevel : finished.topLevel = hosted (completions ++ [last]) none := by
    rw [← same, Completion.topLevel_finish, hosted_append]
    rfl
  rw [assemble, ← names, ← types, ← topLevel]

/-- Completing a class keeps its name. -/
theorem assembledType_source (completions : List Completion) (index : Nat) (type : TypeDef) :
    (assembledType completions index type).source = type.source := by
  unfold assembledType completedType Completion.fill
  cases completions[index]? with
  | none => rfl
  | some completion => dsimp only; split <;> rfl

/-- Completing classes keeps their names. -/
theorem sources_assemble (name : String) (declared : List TypeDef)
    (completions : List Completion) :
    (assemble name declared completions).sources = declared.map TypeDef.source := by
  refine List.ext_getElem? fun index => ?_
  rw [Module.sources, assemble, List.getElem?_map, List.getElem?_mapIdx, List.getElem?_map,
    Option.map_map]
  congr 1
  funext type
  exact assembledType_source completions index type

/-- Nothing is attached or completed in the beginning. -/
theorem assemble_nil (name : String) (declared : List TypeDef) :
    assemble name declared [] = { name, types := declared } := by
  have types : declared.mapIdx (assembledType []) = declared := by
    refine List.ext_getElem? fun index => ?_
    have same : assembledType [] index = id := by
      funext type
      unfold assembledType
      exact congrArg (fun nested => { type with nested }) (List.append_nil type.nested)
    rw [List.getElem?_mapIdx, same, Option.map_id_fun, id]
  rw [assemble, types]
  rfl

/-! ## The first passes -/

/-- Registers the classes of a batch and declares their members. -/
def declareBatch (catalog : Catalog) (name : String) (files : List ClassFile) :
    Logged Error (Module × List PlacedClass) := do
  let (registered, placed) ← registerAll (Module.empty name) files
  let declared ← placed.foldlM (declareMembers catalog) registered
  return (declared, placed)

/-- The classes that are kept are declared on their own, at consecutive places. -/
theorem result_declareBatch (catalog : Catalog) (name : String) (files : List ClassFile) :
    (declareBatch catalog name files).result =
      (fun declared => ({ name, types := declared }, placeFrom 0 (keepFirst [] files))) <$>
        (keepFirst [] files).mapM
          (declaredType ⟨catalog, registered name (keepFirst [] files)⟩) := by
  have register : (registerAll (Module.empty name) files).result =
      .ok (registered name (keepFirst [] files), placeFrom 0 (keepFirst [] files)) :=
    result_registerAll (Module.empty name) files
  rw [declareBatch, Logged.result_bind, register]
  generalize keepFirst [] files = kept
  have declare := foldlM_declareMembers ⟨catalog, registered name kept⟩ name [] kept
    (sources_registered name kept)
  change ((placeFrom 0 kept).foldlM (declareMembers catalog) (registered name kept) >>=
    fun declared => pure (declared, placeFrom 0 kept)).result = _
  rw [Logged.result_bind, Logged.result_foldlM]
  refine (congrArg (· >>= _) declare).trans ?_
  cases kept.mapM (declaredType ⟨catalog, registered name kept⟩) <;> rfl

/-- The declared types have the names of the kept classes. -/
theorem sources_of_declaredType {scope : Scope} {files : List ClassFile} {declared : List TypeDef}
    (found : files.mapM (declaredType scope) = .ok declared) :
    declared.map TypeDef.source = files.map ClassFile.name :=
  Except.map_of_mapM found fun _ _ => source_of_declaredType

/-! ## Renaming types -/

section

variable (σ : TypeId → TypeId) (f : TypeRef → TypeRef)

/-- Renames the types in the contents of a class, and the places of hosts. -/
def Completion.rename (completion : Completion) : Completion where
  host := completion.host.map σ
  contents :=
    completion.contents.map (Prod.map (Option.map f) (List.map (Option.map (Body.rename f))))

/-- Renamed contents are given to renamed types. -/
theorem Completion.fill_rename (completion : Completion) (type : TypeDef) :
    (completion.rename σ f).fill (type.rename f) = (completion.fill type).rename f := by
  obtain ⟨host, contents⟩ := completion
  cases contents with
  | none => rfl
  | some contents =>
    obtain ⟨base, bodies⟩ := contents
    change TypeDef.complete _ (base.map f) (bodies.map _) =
      TypeDef.rename f (type.complete base bodies)
    unfold TypeDef.complete TypeDef.rename
    dsimp only
    rw [List.zipWith_map, List.map_zipWith]
    rfl

/-- Renamed types are completed to renamed types, with renamed places of hosts. -/
theorem completedType_rename (completion : Option Completion) {type : TypeDef}
    (free : type.enclosing = none) :
    completedType (completion.map (Completion.rename σ f)) (type.rename f) =
      { (completedType completion type).rename f with
        enclosing := (completedType completion type).enclosing.map σ } := by
  cases completion with
  | none =>
    change type.rename f = { type.rename f with enclosing := type.enclosing.map σ }
    rw [free, Option.map_none, ← free]
    rfl
  | some completion =>
    rw [Option.map_some, completedType_some, completedType_some, Completion.fill_rename]
    change { (completion.fill type).rename f with
      enclosing := (completion.host.map σ).or type.enclosing } =
        { (completion.fill type).rename f with
          enclosing := (completion.host.or type.enclosing).map σ }
    rw [free, Option.or_none, Option.or_none]

variable {σ} {f} {first second : Scope}

/-- Completing a class in a scope with renamed types gives what is renamed. -/
theorem completion_eq_map (renames : first.Renames f second)
    (places : ∀ name, second.module.lookup name = (first.module.lookup name).map σ)
    (isolate : Bool) (file : ClassFile) :
    completion second isolate file =
      Completion.rename σ f <$> completion first isolate file := by
  have hosts : hostOf second.module file = Option.map σ <$> hostOf first.module file := by
    unfold hostOf
    split
    · rfl
    · next name _ =>
      rw [places name]
      cases first.module.lookup name <;> rfl
  unfold completion
  rw [hosts, follows_lowerContents renames file]
  cases hostOf first.module file with
  | error failure => cases isolate <;> rfl
  | ok host =>
    cases (lowerContents first file).result with
    | error failure => cases isolate <;> rfl
    | ok contents => rfl

end

end ClassLowering
