import ClassLowering.Proofs.Batches

/-! # Modules are closed

Every type that a lowered module mentions is either a class of the library or a type of the module
itself, found under the name it carries (`TypeRef.IsBound`). The library comes first, so a class of
the batch with the name of a library class is never mentioned.

Lowering commutes with every renaming that keeps what names are looked up to, so what it yields is
changed by none of them; and what is changed by none of them mentions nothing else
(`forall_mem_of_rename_fixed`). -/

namespace ClassLowering

open Target (Module TypeDef TypeRef)

/-- The names of the classes of a library. -/
def Catalog.names (catalog : Catalog) : List String := catalog.types.map LibraryType.name

/-- A catalog lacks a name exactly if it is not among its names. -/
theorem Catalog.get?_eq_none_iff {catalog : Catalog} {name : String} :
    catalog.get? name = none ↔ name ∉ catalog.names := by
  rw [get?, List.find?_eq_none, names, List.mem_map]
  simp

/-- A type that a catalog has is known by its name. -/
theorem Catalog.mem_names_of_get? {catalog : Catalog} {name : String} {type : LibraryType}
    (found : catalog.get? name = some type) : name ∈ catalog.names := by
  refine Classical.byContradiction fun absent => ?_
  cases (get?_eq_none_iff.2 absent).symm.trans found

/-- The type is a class of the library, or the type of the module for a class with its name that the
library does not have. -/
def Target.TypeRef.IsBound (catalog : Catalog) (module : Module) (type : TypeRef) : Prop :=
  match type.origin with
  | .library => type.name ∈ catalog.names
  | .module id =>
    module.types[id.index]?.map TypeDef.source = some type.name ∧ type.name ∉ catalog.names

/-- Whether a type is bound depends on the names of the classes only. -/
theorem Target.TypeRef.isBound_congr {catalog : Catalog} {first second : Module}
    (same : first.sources = second.sources) (type : TypeRef) :
    type.IsBound catalog first ↔ type.IsBound catalog second := by
  unfold IsBound
  cases type.origin with
  | library => rfl
  | module id =>
    have names : first.types[id.index]?.map TypeDef.source =
        second.types[id.index]?.map TypeDef.source := by
      rw [← List.getElem?_map, ← List.getElem?_map]
      exact congrArg (·[id.index]?) same
    dsimp only
    rw [names]

/-- Types that are found are bound. -/
theorem Scope.isBound_of_find? {scope : Scope} {name : String} {type : TypeRef}
    {surface : Surface} (found : scope.find? name = some (type, surface)) :
    type.IsBound scope.catalog scope.module := by
  unfold find? at found
  split at found
  · next entry listed =>
    cases found
    exact Catalog.mem_names_of_get? listed
  · next absent =>
    split at found
    · next id listed =>
      obtain ⟨defined, -, same⟩ := Option.map_eq_some_iff.1 found
      cases same
      refine ⟨?_, Catalog.get?_eq_none_iff.1 absent⟩
      rw [← List.getElem?_map]
      exact Module.getElem?_sources_of_lookup listed
    · cases found

/-! ## What lowering mentions -/

section

variable {f : TypeRef → TypeRef} {catalog : Catalog} {module : Module}

/-- A renaming that keeps all bound types keeps what is looked up. -/
theorem Scope.renames_self {scope : Scope} (catalogs : scope.catalog = catalog)
    (sources : scope.module.sources = module.sources)
    (fixed : ∀ type : TypeRef, type.IsBound catalog module → f type = type)
    (text : Catalog.stringClass ∈ catalog.names) : scope.Renames f scope where
  find name := by
    cases found : scope.find? name with
    | none => rfl
    | some pair =>
      obtain ⟨type, surface⟩ := pair
      have bound := isBound_of_find? found
      rw [catalogs, TypeRef.isBound_congr sources] at bound
      rw [Option.map_some, Prod.map_apply, fixed type bound, id]
  text := fixed _ text

/-- Types that are declared are kept by a renaming that keeps what names are resolved to. -/
theorem rename_of_declaredType {scope : Scope} (renames : scope.RenamesTypes f scope)
    {files : List ClassFile} {declared : List TypeDef}
    (found : files.mapM (declaredType scope) = .ok declared) :
    ∀ type ∈ declared, type.rename f = type ∧ type.enclosing = none := by
  intro type listed
  obtain ⟨file, -, single⟩ := Except.exists_of_mem_mapM found listed
  have same := declaredType_eq_map renames file
  rw [single] at same
  exact ⟨(Except.ok.inj same).symm, (free_of_declaredType single).1⟩

/-- What is found out about classes is kept by a renaming that keeps what is looked up. -/
theorem rename_of_completion {scope : Scope} (renames : scope.Renames f scope) {isolate : Bool}
    {files : List ClassFile} {completions : List Completion}
    (found : files.mapM (completion scope isolate) = .ok completions) :
    ∀ completion ∈ completions, completion.rename id f = completion := by
  intro completed listed
  obtain ⟨file, -, single⟩ := Except.exists_of_mem_mapM found listed
  have same := completion_eq_map (σ := id) renames (fun name => by rw [Option.map_id_fun, id])
    isolate file
  rw [single] at same
  exact (Except.ok.inj same).symm

/-- A type is kept when the declared type and its completion are. -/
theorem rename_assembledType {completions : List Completion} {type : TypeDef} (index : Nat)
    (declared : type.rename f = type) (free : type.enclosing = none)
    (completed : ∀ completion ∈ completions, completion.rename id f = completion) :
    (assembledType completions index type).rename f = assembledType completions index type := by
  have same : completions[index]?.map (Completion.rename id f) = completions[index]? := by
    cases found : completions[index]? with
    | none => rfl
    | some completion =>
      rw [Option.map_some, completed completion (List.mem_of_getElem? found)]
  have filled := completedType_rename id f completions[index]? free
  rw [same, declared, Option.map_id_fun, id] at filled
  change { (completedType completions[index]? type).rename f with
    nested := type.nested ++ hosted completions (some ⟨index⟩) } = _
  exact congrArg (fun filled : TypeDef =>
    { filled with nested := type.nested ++ hosted completions (some ⟨index⟩) }) filled.symm

/-- Every type that a lowered module mentions is bound. -/
theorem isBound_of_mem_references {name : String} {isolate : Bool} {files : List ClassFile}
    (text : Catalog.stringClass ∈ catalog.names)
    (lowered : (lowerBatch catalog name isolate files).result = .ok module) :
    ∀ type ∈ module.references, type.IsBound catalog module := by
  obtain ⟨declared, completions, declares, completes, rfl⟩ := lowerBatch_eq_ok.1 lowered
  have sources := sources_of_declaredType declares
  -- a renaming that keeps all bound types keeps the module, so it finds no others to rename
  refine forall_mem_of_rename_fixed fun f fixed => ?_
  have registers : (registered name (keepFirst [] files)).sources =
      (assemble name declared completions).sources := by
    rw [sources_assemble, sources, sources_registered]
  have first := rename_of_declaredType (Scope.renames_self rfl registers fixed text).types declares
  have kept : Scope.Renames f ⟨catalog, { name, types := declared }⟩
      ⟨catalog, { name, types := declared }⟩ :=
    Scope.renames_self rfl (sources_assemble name declared completions).symm fixed text
  have second := rename_of_completion kept completes
  have types : ∀ type ∈ (assemble name declared completions).types, type.rename f = type := by
    intro type listed
    obtain ⟨index, bound, rfl⟩ := List.mem_mapIdx.1 listed
    obtain ⟨same, free⟩ := first _ (List.getElem_mem bound)
    exact rename_assembledType index same free second
  rw [Module.references, List.map_flatMap, List.flatMap_def, List.flatMap_def]
  refine congrArg List.flatten (List.map_congr_left fun type listed => ?_)
  rw [← TypeDef.references_rename, types type listed]

end

/-- A module that is lowered with the library of the target mentions only types of the library and
types of its own, each under its name; and a class with the name of a library class is mentioned
nowhere. -/
theorem lowerBatch_closed {name : String} {isolate : Bool} {files : List ClassFile}
    {module : Module}
    (lowered : (lowerBatch Catalog.standard name isolate files).result = .ok module) :
    (∀ type ∈ module.references, type.IsBound Catalog.standard module) ∧
      ∀ id defined, module.get? id = some defined → defined.source ∈ Catalog.standard.names →
        ∀ type ∈ module.references, type.origin ≠ .module id := by
  have text : Catalog.stringClass ∈ Catalog.standard.names := by decide
  have bound := isBound_of_mem_references text lowered
  refine ⟨bound, fun id defined found shared type listed same => ?_⟩
  have own := bound type listed
  rw [TypeRef.IsBound, same] at own
  obtain ⟨named, unshared⟩ := own
  rw [show module.types[id.index]? = some defined from found, Option.map_some,
    Option.some.injEq] at named
  exact unshared (named ▸ shared)

/-- A class with the name of a library class, and one that mentions this name in the type of a field
and wraps a text. -/
def reusingBatch : List ClassFile :=
  [{ name := "java/lang/String", flags := ⟨0x21⟩, superClass := some "java/lang/Object"
     interfaces := [], fields := [], methods := [], attributes := [], pool := ⟨#[]⟩ },
   { name := "A", flags := ⟨0x21⟩, superClass := some "java/lang/Object", interfaces := []
     fields := [⟨⟨0x9⟩, "texts", "[Ljava/lang/String;", []⟩, ⟨⟨0x9⟩, "next", "LA;", []⟩]
     methods := [⟨⟨0x9⟩, "make", "()LA;", [.code ⟨2, 0, 6,
       [⟨.loadConst, 0, .oneValue 3, false⟩, ⟨.new, 2, .oneValue 2, false⟩,
        ⟨.returnValue .ref, 5, .simple, false⟩], []⟩ []]⟩]
     attributes := [], pool := ⟨#[.utf8 "A", .classRef 1, .string "x"]⟩ }]

/-- A class takes the name of a library type, which all references keep to. -/
theorem lowerBatch_closed_reusing :
    ∃ module, (lowerBatch Catalog.standard "M" false reusingBatch).result = .ok module ∧
      module.types.map TypeDef.source = ["java/lang/String", "A"] ∧
      module.references.length = 8 ∧
      (∀ type ∈ module.references, type.IsBound Catalog.standard module) ∧
      ∀ type ∈ module.references, type.origin ≠ .module ⟨0⟩ := by
  have evaluated :
      ∃ module ∈ (lowerBatch Catalog.standard "M" false reusingBatch).result.toOption,
        module.types.map TypeDef.source = ["java/lang/String", "A"] ∧
        module.references.length = 8 ∧
        ∃ defined ∈ module.get? ⟨0⟩, defined.source ∈ Catalog.standard.names := by
    decide +kernel
  obtain ⟨module, lowered, sources, count, defined, found, shared⟩ := evaluated
  have lowered := Except.eq_ok_of_mem_toOption lowered
  obtain ⟨bound, unused⟩ := lowerBatch_closed lowered
  exact ⟨module, lowered, sources, count, bound, unused _ defined found shared⟩

end ClassLowering
