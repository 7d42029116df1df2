import Mathlib.Control.Monad.Basic
import ClassLowering.Proofs.Passes

/-! # What later classes see of a module

Names are looked up in the module at hand, which changes from class to class. What a look-up can see
of it is its outline (`Target.Module.outline`): the names of the classes and what their types offer.
In modules with the same outline every class has the same contents (`result_lowerContents_congr`),
and attaching or completing classes keeps the outline (`outline_assemble`). -/

namespace ClassLowering

open Target (Body MethodDef Module TypeDef TypeId TypeRef)

/-! ## What is looked up -/

namespace Target

/-- A type without a base and without bodies. -/
def TypeDef.bare (type : TypeDef) : TypeDef :=
  { type with
    base := none
    methods := type.methods.map fun method => { method with body := none } }

/-- A type offers the same with and without contents. -/
theorem TypeDef.surface_bare (type : TypeDef) : type.bare.surface = type.surface := by
  unfold TypeDef.surface bare
  dsimp only
  rw [List.map_map]
  rfl

/-- A type that gets contents is the same without them. -/
theorem TypeDef.bare_complete {type : TypeDef} {bodies : List (Option Body)}
    (fits : bodies.length = type.methods.length) (base : Option TypeRef) :
    (type.complete base bodies).bare = type.bare := by
  unfold complete bare
  dsimp only
  rw [List.map_zipWith]
  congr 1
  refine List.ext_getElem (by simp [fits]) fun index _ _ => ?_
  simp

/-- The methods of a type get the bodies that it is given. -/
theorem TypeDef.bodies_complete {type : TypeDef} {bodies : List (Option Body)}
    (fits : bodies.length = type.methods.length) (base : Option TypeRef) :
    (type.complete base bodies).methods.map MethodDef.body = bodies := by
  unfold complete
  dsimp only
  rw [List.map_zipWith]
  refine List.ext_getElem (by simp [fits]) fun index _ _ => ?_
  simp

/-- What a module shows to those who look names up: its classes and what their types offer. -/
def Module.outline (module : Module) : List (String × Surface) :=
  module.types.map fun type => (type.source, type.surface)

/-- Modules with the same outline have types for the same classes. -/
theorem Module.sources_eq_of_outline {first second : Module}
    (same : first.outline = second.outline) : first.sources = second.sources := by
  have names := congrArg (List.map Prod.fst) same
  rw [outline, outline, List.map_map, List.map_map] at names
  exact names

/-- Attaching a class keeps the outline. -/
theorem Module.outline_attach (module : Module) (id : TypeId) (host : Option TypeId) :
    (module.attach id host).outline = module.outline :=
  map_types_attach (fun _ _ => rfl) (fun _ _ => rfl) module id host

end Target

/-- Names are found the same way in scopes with the same library and the same outline. -/
theorem Scope.find?_congr (catalog : Catalog) {first second : Module}
    (same : first.outline = second.outline) (name : String) :
    Scope.find? ⟨catalog, first⟩ name = Scope.find? ⟨catalog, second⟩ name := by
  have offered (module : Module) (id : TypeId) :
      (module.get? id).map (fun type => ((⟨name, .module id⟩ : TypeRef), type.surface)) =
        module.outline[id.index]?.map fun entry => (⟨name, .module id⟩, entry.2) := by
    rw [Module.outline, List.getElem?_map, Option.map_map]
    rfl
  unfold find?
  dsimp only
  rw [Module.lookup_congr (Module.sources_eq_of_outline same)]
  simp only [offered, same]

/-- A class has the same contents in scopes with the same library and the same outline. -/
theorem result_lowerContents_congr (catalog : Catalog) {first second : Module}
    (same : first.outline = second.outline) (file : ClassFile) :
    (lowerContents ⟨catalog, first⟩ file).result =
      (lowerContents ⟨catalog, second⟩ file).result := by
  have renames : Scope.Renames id ⟨catalog, second⟩ ⟨catalog, first⟩ := by
    refine ⟨fun name => ?_, rfl⟩
    rw [Scope.find?_congr catalog same, Prod.map_id, Option.map_id_fun, id]
  rw [follows_lowerContents renames file, funext Body.rename_id]
  cases (lowerContents ⟨catalog, second⟩ file).result with
  | error failure => rfl
  | ok contents => simp

/-! ## Types and their contents -/

/-- There is a body, or none, for each method of a class. -/
theorem length_bodies {scope : Scope} {file : ClassFile} {base : Option TypeRef}
    {bodies : List (Option Body)}
    (lowered : (lowerContents scope file).result = .ok (base, bodies)) :
    bodies.length = file.methods.length := by
  obtain ⟨base, -, lowered⟩ := Logged.bind_eq_ok.1 lowered
  obtain ⟨bodies, found, lowered⟩ := Logged.bind_eq_ok.1 lowered
  cases lowered
  rw [Logged.result_mapM] at found
  exact Except.length_mapM found

/-- A declared type has a method for each method of its class. -/
theorem length_methods_of_declaredType {scope : Scope} {file : ClassFile} {type : TypeDef}
    (declared : declaredType scope file = .ok type) :
    type.methods.length = file.methods.length :=
  Except.length_mapM (declaredType_spec declared).2.1

/-- A declared type has no contents. -/
theorem bare_of_declaredType {scope : Scope} {file : ClassFile} {type : TypeDef}
    (declared : declaredType scope file = .ok type) : type.bare = type := by
  obtain ⟨-, methods, same⟩ := declaredType_spec declared
  have bodiless : type.methods.map (fun method => { method with body := none }) = type.methods := by
    refine (List.map_congr_left fun method listed => ?_).trans type.methods.map_id
    obtain ⟨source, -, found⟩ := Except.exists_of_mem_mapM methods listed
    obtain ⟨descriptor, -, found⟩ := Except.bind_eq_ok.1 found
    obtain ⟨sig, -, found⟩ := Except.bind_eq_ok.1 found
    cases found
    rfl
  rw [TypeDef.bare, bodiless, same]
  rfl

/-- The bodies that were found for a class are as many as its type has methods. -/
def Completion.Fits (completion : Completion) (type : TypeDef) : Prop :=
  ∀ contents ∈ completion.contents, contents.2.length = type.methods.length

/-- What is found out about a class fits its type. -/
theorem fits_of_completion {scope declaring : Scope} {isolate : Bool} {file : ClassFile}
    {completed : Completion} {type : TypeDef} (declared : declaredType declaring file = .ok type)
    (found : completion scope isolate file = .ok completed) : completed.Fits type := by
  intro contents given
  rw [length_bodies ((completion_spec found).2 contents given),
    length_methods_of_declaredType declared]

/-- What has been found out about the first classes fits their types. -/
theorem fits_of_completions {scope declaring : Scope} {isolate : Bool}
    {front files : List ClassFile}
    {types : List TypeDef} {completions : List Completion} (first : front <+: files)
    (declares : files.mapM (declaredType declaring) = .ok types)
    (completes : front.mapM (completion scope isolate) = .ok completions) {index : Nat}
    {type : TypeDef} (listed : types[index]? = some type) :
    ∀ completion ∈ completions[index]?, completion.Fits type := by
  intro completed given
  have declared := Except.getElem?_mapM declares index
  have found := Except.getElem?_mapM completes index
  rw [listed] at declared
  rw [Option.mem_def.1 given, Option.map_some] at found
  obtain ⟨file, place, found⟩ := Option.map_eq_some_iff.1 found
  have inside := (List.getElem?_eq_some_iff.1 place).1
  obtain ⟨back, rfl⟩ := first
  rw [List.getElem?_append_left inside, place, Option.map_some, Option.map_some,
    Option.some.injEq] at declared
  exact fits_of_completion declared found

/-- A type that is completed is the same without contents. -/
theorem Completion.bare_fill {completion : Completion} {type : TypeDef}
    (fits : completion.Fits type) : (completion.fill type).bare = type.bare := by
  unfold fill
  split
  · next base bodies given => exact TypeDef.bare_complete (fits (base, bodies) given) base
  · rfl

/-- Without its contents, a type that is put together differs from the declared one in its place
only. -/
theorem bare_assembledType {completions : List Completion} {index : Nat} {type : TypeDef}
    (fits : ∀ completion ∈ completions[index]?, completion.Fits type) :
    (assembledType completions index type).bare =
      { type.bare with
        enclosing := (assembledType completions index type).enclosing
        nested := (assembledType completions index type).nested } := by
  unfold assembledType
  cases found : completions[index]? with
  | none => rfl
  | some completion =>
    have same := Completion.bare_fill (fits completion found)
    rw [completedType_some]
    generalize completion.fill type = filled at same ⊢
    dsimp only
    rw [← same]
    rfl

/-- Completing classes keeps the outline. -/
theorem outline_assemble (name : String) {declared : List TypeDef} {completions : List Completion}
    (fits : ∀ (index : Nat) (type : TypeDef) (completion : Completion),
      declared[index]? = some type → completions[index]? = some completion →
        completion.Fits type) :
    (assemble name declared completions).outline = Module.outline { name, types := declared } := by
  refine List.ext_getElem? fun index => ?_
  rw [Module.outline, Module.outline, assemble, List.getElem?_map, List.getElem?_map,
    List.getElem?_mapIdx]
  dsimp only
  cases found : declared[index]? with
  | none => rfl
  | some type =>
    have bare := bare_assembledType fun completion => fits index type completion found
    rw [Option.map_some, Option.map_some, Option.map_some, assembledType_source,
      ← TypeDef.surface_bare, bare, ← TypeDef.surface_bare type]
    rfl

end ClassLowering
