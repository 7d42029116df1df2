import Mathlib.Data.List.Nodup
import ClassLowering.Proofs.Batches

/-! # The order of a batch does not matter

Classes with distinct names may be listed in any order: the batch is lowered or refused all the
same, and the module is the same up to the places of types (`lowerBatch_perm`). Places are renamed
by the class that stands at them (`movedId`). -/

namespace ClassLowering

open Target (Module TypeDef TypeId TypeRef)

/-- The place, among classes in another order, of the class at a place. -/
def movedId (files moved : List ClassFile) (id : TypeId) : TypeId :=
  match files[id.index]? with
  | some file => ⟨moved.findIdx (·.name = file.name)⟩
  | none => id

/-- Renames the places of types in a module. -/
def Target.TypeRef.moveIds (σ : TypeId → TypeId) (type : TypeRef) : TypeRef where
  name := type.name
  origin :=
    match type.origin with
    | .library => .library
    | .module id => .module (σ id)

/-- The renaming permutes the places below a bound. -/
structure Permutes (σ : TypeId → TypeId) (count : Nat) : Prop where
  bound : ∀ id, id.index < count → (σ id).index < count
  injective : ∀ first second, first.index < count → second.index < count →
    σ first = σ second → first = second
  surjective : ∀ id, id.index < count → ∃ origin, origin.index < count ∧ σ origin = id

/-- The second module is the first one with its types at other places: a type that is moved is the
same, with renamed places, and encloses the same types. -/
structure Target.Module.AgreesUpTo (σ : TypeId → TypeId) (first second : Module) : Prop where
  name : second.name = first.name
  count : second.types.length = first.types.length
  places : Permutes σ first.types.length
  types : ∀ id type, first.get? id = some type →
    ∃ moved, second.get? (σ id) = some moved ∧ moved.nested.Perm (type.nested.map σ) ∧
      moved = { type.rename (TypeRef.moveIds σ) with
        enclosing := type.enclosing.map σ, nested := moved.nested }
  topLevel : second.topLevel.Perm (first.topLevel.map σ)

/-! ## Classes in another order -/

section

variable {files moved : List ClassFile}

/-- A class is found at the only place of its name. -/
theorem findIdx_name (distinct : (files.map ClassFile.name).Nodup) {index : Nat}
    {file : ClassFile} (found : files[index]? = some file) :
    files.findIdx (·.name = file.name) = index := by
  obtain ⟨bound, rfl⟩ := List.getElem?_eq_some_iff.1 found
  refine (List.findIdx_eq bound).2 ⟨decide_eq_true rfl, fun other before => ?_⟩
  refine decide_eq_false fun same => ?_
  have inside : other < (files.map ClassFile.name).length := by
    rw [List.length_map]
    omega
  have names : (files.map ClassFile.name)[other]? = (files.map ClassFile.name)[index]? := by
    rw [List.getElem?_map, List.getElem?_map, List.getElem?_eq_getElem (by omega),
      List.getElem?_eq_getElem bound]
    exact congrArg some same
  exact Nat.ne_of_lt before ((List.getElem?_inj inside distinct).1 names)

/-- What is found for classes one by one is found in any order. -/
theorem exists_mapM_moved (perm : files.Perm moved) {α β : Type} {g : α → β}
    {find : ClassFile → Except Error α} {findMoved : ClassFile → Except Error β}
    (same : ∀ file, findMoved file = g <$> find file) :
    (∃ results, files.mapM find = .ok results) ↔ ∃ results, moved.mapM findMoved = .ok results := by
  rw [Except.exists_mapM_iff, Except.exists_mapM_iff]
  refine forall_congr' fun file => imp_congr perm.mem_iff ?_
  rw [same]
  cases find file with
  | error failure =>
    constructor
    · rintro ⟨result, found⟩
      cases found
    · rintro ⟨result, found⟩
      cases found
  | ok result => exact ⟨fun _ => ⟨g result, rfl⟩, fun _ => ⟨result, rfl⟩⟩

variable (distinct : (files.map ClassFile.name).Nodup) (perm : files.Perm moved)

include distinct perm

/-- A class that is moved goes to the place of its name. -/
theorem movedId_eq {id : TypeId} {index : Nat} {file : ClassFile}
    (found : files[id.index]? = some file) (there : moved[index]? = some file) :
    movedId files moved id = ⟨index⟩ := by
  have names := (perm.map ClassFile.name).nodup_iff.1 distinct
  rw [movedId, found]
  exact congrArg TypeId.mk (findIdx_name names there)

/-- The class at a place is at the renamed place in the other order. -/
theorem getElem?_movedId {id : TypeId} {file : ClassFile} (found : files[id.index]? = some file) :
    moved[(movedId files moved id).index]? = some file := by
  obtain ⟨index, there⟩ := List.mem_iff_getElem?.1 (perm.mem_iff.1 (List.mem_of_getElem? found))
  rw [movedId_eq distinct perm found there]
  exact there

/-- Every place in the other order is a renamed one. -/
theorem exists_movedId {place : TypeId} {file : ClassFile}
    (there : moved[place.index]? = some file) :
    ∃ id, files[id.index]? = some file ∧ movedId files moved id = place := by
  obtain ⟨index, found⟩ := List.mem_iff_getElem?.1 (perm.mem_iff.2 (List.mem_of_getElem? there))
  exact ⟨⟨index⟩, found, movedId_eq distinct perm found there⟩

/-- Classes with distinct names are permuted by moving them. -/
theorem permutes_movedId : Permutes (movedId files moved) files.length where
  bound id inside := by
    have there := getElem?_movedId distinct perm (List.getElem?_eq_getElem inside)
    obtain ⟨bound, -⟩ := List.getElem?_eq_some_iff.1 there
    exact perm.length_eq ▸ bound
  injective first second firstInside secondInside same := by
    have one := getElem?_movedId distinct perm (List.getElem?_eq_getElem firstInside)
    have other := getElem?_movedId distinct perm (List.getElem?_eq_getElem secondInside)
    rw [same, other, Option.some.injEq] at one
    have files := List.Nodup.of_map _ distinct
    exact congrArg TypeId.mk ((List.Nodup.getElem_inj_iff files).1 one.symm)
  surjective place inside := by
    rw [perm.length_eq] at inside
    obtain ⟨id, found, same⟩ := exists_movedId distinct perm (List.getElem?_eq_getElem inside)
    obtain ⟨bound, -⟩ := List.getElem?_eq_some_iff.1 found
    exact ⟨id, bound, same⟩

/-- What is found for the class at a place is found at the renamed place in the other order. -/
theorem getElem?_mapM_moved {α β : Type} {g : α → β} {find : ClassFile → Except Error α}
    {findMoved : ClassFile → Except Error β} (same : ∀ file, findMoved file = g <$> find file)
    {results : List α} {others : List β} (found : files.mapM find = .ok results)
    (there : moved.mapM findMoved = .ok others) (id : TypeId) (inside : id.index < files.length) :
    others[(movedId files moved id).index]? = results[id.index]?.map g := by
  have first := Except.getElem?_mapM found id.index
  have second := Except.getElem?_mapM there (movedId files moved id).index
  have file := List.getElem?_eq_getElem inside
  rw [getElem?_movedId distinct perm file, Option.map_some, same] at second
  rw [file, Option.map_some] at first
  obtain ⟨result, listed, single⟩ := Option.map_eq_some_iff.1 first.symm
  obtain ⟨other, otherListed, otherSingle⟩ := Option.map_eq_some_iff.1 second.symm
  rw [← single] at otherSingle
  cases otherSingle
  rw [listed, otherListed]
  rfl

/-- Names are looked up to renamed places. -/
theorem lookup_moved (first second : Module) (sources : first.sources = files.map ClassFile.name)
    (movedSources : second.sources = moved.map ClassFile.name) (name : String) :
    second.lookup name = (first.lookup name).map (movedId files moved) := by
  cases found : first.lookup name with
  | none =>
    rw [Module.lookup_eq_none_iff, sources, (perm.map ClassFile.name).mem_iff,
      ← movedSources] at found
    exact Module.lookup_eq_none_iff.2 found
  | some id =>
    have named := Module.getElem?_sources_of_lookup found
    rw [sources, List.getElem?_map] at named
    obtain ⟨file, listed, rfl⟩ := Option.map_eq_some_iff.1 named
    have names : second.sources.Nodup := movedSources ▸
      (perm.map ClassFile.name).nodup_iff.1 distinct
    refine Module.lookup_of_getElem? names ?_
    rw [movedSources, List.getElem?_map, getElem?_movedId distinct perm listed, Option.map_some]

end

/-! ## Scopes with types at other places -/

section

variable {σ : TypeId → TypeId} {catalog : Catalog} {first second : Module}

/-- What a type offers does not depend on the places of types. -/
@[simp] theorem Target.TypeDef.surface_rename (f : TypeRef → TypeRef) (type : TypeDef) :
    (type.rename f).surface = type.surface := by
  rw [surface, surface, rename]
  dsimp only
  rw [List.map_map, List.map_map]
  rfl

variable (lookups : ∀ name, second.lookup name = (first.lookup name).map σ)

include lookups

/-- Names are found in the second module at the places that those of the first are moved to. -/
theorem renamesTypes_moveIds :
    Scope.RenamesTypes (TypeRef.moveIds σ) ⟨catalog, first⟩ ⟨catalog, second⟩ := by
  intro name
  rw [Scope.resolve_eq, Scope.resolve_eq]
  dsimp only
  rw [lookups]
  cases catalog.get? name with
  | some type => rfl
  | none => cases first.lookup name <;> rfl

/-- Whole types are found in the second module at the places that those of the first are moved
to. -/
theorem renames_moveIds
    (types : ∀ name id, first.lookup name = some id →
      second.get? (σ id) = (first.get? id).map (TypeDef.rename (TypeRef.moveIds σ))) :
    Scope.Renames (TypeRef.moveIds σ) ⟨catalog, first⟩ ⟨catalog, second⟩ where
  find name := by
    rw [Scope.find?, Scope.find?]
    dsimp only
    cases catalog.get? name with
    | some type => rfl
    | none =>
      rw [lookups]
      cases found : first.lookup name with
      | none => rfl
      | some id =>
        dsimp only [Option.map_some]
        rw [types name id found, Option.map_map, Option.map_map]
        congr 1
        funext type
        simp only [Function.comp_apply, TypeDef.surface_rename]
        rfl
  text := rfl

end

/-! ## Enclosed types -/

/-- The types that are hosted by a type are those of the classes that are completed with it as
host. -/
theorem mem_hosted {completions : List Completion} {host : Option TypeId} {id : TypeId} :
    id ∈ hosted completions host ↔
      ∃ completion, completions[id.index]? = some completion ∧ completion.host = host := by
  rw [hosted, List.mem_map]
  constructor
  · rintro ⟨⟨completion, index⟩, listed, rfl⟩
    rw [List.mem_filter, List.mem_zipIdx_iff_getElem?, decide_eq_true_eq] at listed
    exact ⟨completion, listed⟩
  · rintro ⟨completion, listed, same⟩
    refine ⟨(completion, id.index), ?_, rfl⟩
    rw [List.mem_filter, List.mem_zipIdx_iff_getElem?, decide_eq_true_eq]
    exact ⟨listed, same⟩

/-- A host lists no type twice. -/
theorem nodup_hosted (completions : List Completion) (host : Option TypeId) :
    (hosted completions host).Nodup := by
  have places : (completions.zipIdx.map (TypeId.mk ∘ Prod.snd)).Nodup := by
    rw [← List.map_map, List.zipIdx_map_snd]
    exact List.Nodup.map (fun _ _ same => TypeId.mk.inj same) List.nodup_range'
  exact places.sublist (List.filter_sublist.map _)

section

variable {σ : TypeId → TypeId} {f : TypeRef → TypeRef} {completions others : List Completion}
  {count : Nat}

/-- Optional places are told apart by their new names. -/
theorem Permutes.map_injective (places : Permutes σ count) {first second : Option TypeId}
    (firstInside : ∀ id ∈ first, id.index < count) (secondInside : ∀ id ∈ second, id.index < count)
    (same : first.map σ = second.map σ) : first = second := by
  cases first with
  | none => exact (Option.map_eq_none_iff.1 same.symm).symm
  | some id =>
    obtain ⟨other, rfl, equal⟩ := Option.map_eq_some_iff.1 same.symm
    exact congrArg some
      (places.injective _ _ (firstInside id rfl) (secondInside other rfl) equal.symm)

/-- Moved classes have moved hosts, so that moved types enclose the same types. -/
theorem hosted_moved (places : Permutes σ count) (length : completions.length = count)
    (otherLength : others.length = count)
    (moved : ∀ id : TypeId, id.index < count →
      others[(σ id).index]? = completions[id.index]?.map (Completion.rename σ f))
    (inside : ∀ completion ∈ completions, ∀ id ∈ completion.host, id.index < count)
    (host : Option TypeId) (hostInside : ∀ id ∈ host, id.index < count) :
    (hosted others (host.map σ)).Perm ((hosted completions host).map σ) := by
  have bound {id : TypeId} (listed : id ∈ hosted completions host) : id.index < count := by
    obtain ⟨completion, found, -⟩ := mem_hosted.1 listed
    obtain ⟨bound, -⟩ := List.getElem?_eq_some_iff.1 found
    exact length ▸ bound
  -- neither list repeats a place, so they need only have the same members
  refine (List.perm_ext_iff_of_nodup (nodup_hosted _ _) ?_).2 fun place => ?_
  · exact List.Nodup.map_on (fun first firstListed second secondListed same =>
      places.injective _ _ (bound firstListed) (bound secondListed) same) (nodup_hosted _ _)
  · rw [mem_hosted, List.mem_map]
    constructor
    · rintro ⟨completed, found, hosts⟩
      obtain ⟨placeBound, -⟩ := List.getElem?_eq_some_iff.1 found
      obtain ⟨id, idBound, rfl⟩ := places.surjective place (otherLength ▸ placeBound)
      rw [moved id idBound] at found
      obtain ⟨completion, listed, rfl⟩ := Option.map_eq_some_iff.1 found
      have own := places.map_injective (inside completion (List.mem_of_getElem? listed))
        hostInside hosts
      exact ⟨id, mem_hosted.2 ⟨completion, listed, own⟩, rfl⟩
    · rintro ⟨id, listed, rfl⟩
      obtain ⟨completion, found, rfl⟩ := mem_hosted.1 listed
      refine ⟨completion.rename σ f, ?_, rfl⟩
      rw [moved id (bound listed), found, Option.map_some]

/-- A type that is put together at another place is the same up to places. -/
theorem assembledType_moved {type : TypeDef} (free : type.enclosing = none ∧ type.nested = [])
    {id place : TypeId}
    (moved : others[place.index]? = completions[id.index]?.map (Completion.rename σ f))
    (hosts : (hosted others (some place)).Perm ((hosted completions (some id)).map σ)) :
    (assembledType others place.index (type.rename f)).nested.Perm
        ((assembledType completions id.index type).nested.map σ) ∧
      assembledType others place.index (type.rename f) =
        { (assembledType completions id.index type).rename f with
          enclosing := (assembledType completions id.index type).enclosing.map σ
          nested := (assembledType others place.index (type.rename f)).nested } := by
  constructor
  · change (type.nested ++ hosted others (some place)).Perm
      ((type.nested ++ hosted completions (some id)).map σ)
    rw [free.2, List.nil_append, List.nil_append]
    exact hosts
  · unfold assembledType
    rw [moved, completedType_rename σ f _ free.1]
    rfl

end

/-! ## Whole batches -/

section

variable {catalog : Catalog} {name : String} {isolate : Bool} {files moved : List ClassFile}
  (distinct : (files.map ClassFile.name).Nodup) (perm : files.Perm moved)

include distinct perm

/-- Members are declared with types at their new places. -/
theorem declaredType_moved (file : ClassFile) :
    declaredType ⟨catalog, registered name moved⟩ file =
      TypeDef.rename (TypeRef.moveIds (movedId files moved)) <$>
        declaredType ⟨catalog, registered name files⟩ file :=
  declaredType_eq_map (renamesTypes_moveIds (lookup_moved distinct perm _ _
    (sources_registered name files) (sources_registered name moved))) file

variable {declared others : List TypeDef}
  (declares : files.mapM (declaredType ⟨catalog, registered name files⟩) = .ok declared)
  (movedDeclares : moved.mapM (declaredType ⟨catalog, registered name moved⟩) = .ok others)

include declares movedDeclares

/-- Classes are completed with types at their new places. -/
theorem completion_moved (file : ClassFile) :
    completion ⟨catalog, { name, types := others }⟩ isolate file =
      Completion.rename (movedId files moved) (TypeRef.moveIds (movedId files moved)) <$>
        completion ⟨catalog, { name, types := declared }⟩ isolate file := by
  have lookups := lookup_moved distinct perm { name, types := declared } { name, types := others }
    (sources_of_declaredType declares) (sources_of_declaredType movedDeclares)
  refine completion_eq_map (renames_moveIds lookups fun source id found => ?_) lookups isolate file
  refine getElem?_mapM_moved distinct perm (declaredType_moved distinct perm) declares
    movedDeclares id ?_
  obtain ⟨bound, -⟩ := List.getElem?_eq_some_iff.1 (Module.getElem?_sources_of_lookup found)
  rw [Module.sources, List.length_map, Except.length_mapM declares] at bound
  exact bound

variable {completions otherCompletions : List Completion}
  (completes : files.mapM (completion ⟨catalog, { name, types := declared }⟩ isolate) =
    .ok completions)
  (movedCompletes : moved.mapM (completion ⟨catalog, { name, types := others }⟩ isolate) =
    .ok otherCompletions)

include completes movedCompletes

/-- Types that are put together at other places agree. -/
theorem agreesUpTo_movedId :
    (assemble name declared completions).AgreesUpTo (movedId files moved)
      (assemble name others otherCompletions) := by
  have places := permutes_movedId distinct perm
  have declaredMoved := getElem?_mapM_moved distinct perm
    (declaredType_moved distinct perm) declares movedDeclares
  have completionsMoved := getElem?_mapM_moved distinct perm
    (completion_moved distinct perm declares movedDeclares) completes movedCompletes
  -- hosts are classes of the batch, so they are moved as well
  have inside : ∀ completion ∈ completions, ∀ id ∈ completion.host, id.index < files.length := by
    intro completed listed id hosted
    obtain ⟨file, -, single⟩ := Except.exists_of_mem_mapM completes listed
    have bound := host_lt_of_completion single id hosted
    rw [Except.length_mapM declares] at bound
    exact bound
  have hosts := hosted_moved places (Except.length_mapM completes)
    ((Except.length_mapM movedCompletes).trans perm.length_eq.symm) completionsMoved inside
  have length : (assemble name declared completions).types.length = files.length := by
    rw [assemble, List.length_mapIdx, Except.length_mapM declares]
  exact {
    name := rfl
    count := by
      rw [length, perm.length_eq, assemble, List.length_mapIdx, Except.length_mapM movedDeclares]
    places := by
      rw [length]
      exact places
    types := by
      intro id type found
      rw [Module.get?, assemble, List.getElem?_mapIdx] at found
      obtain ⟨single, listed, rfl⟩ := Option.map_eq_some_iff.1 found
      obtain ⟨bound, -⟩ := List.getElem?_eq_some_iff.1 listed
      rw [Except.length_mapM declares] at bound
      obtain ⟨file, -, own⟩ := Except.exists_of_mem_mapM declares (List.mem_of_getElem? listed)
      -- the type that is declared in the other order, assembled from what is found out there
      refine ⟨_, ?_, assembledType_moved (free_of_declaredType own) (completionsMoved id bound)
        (hosts (some id) ?_)⟩
      · rw [Module.get?, assemble, List.getElem?_mapIdx, declaredMoved id bound, listed]
        rfl
      · rintro _ ⟨⟩
        exact bound
    topLevel := hosts none (by rintro _ ⟨⟩) }

end

/-- The order of classes with distinct names does not matter: a batch is lowered in one order if and
only if it is lowered in another, and to modules that agree up to the places of types. -/
theorem lowerBatch_perm (catalog : Catalog) (name : String) (isolate : Bool)
    {files moved : List ClassFile} (distinct : (files.map ClassFile.name).Nodup)
    (perm : files.Perm moved) :
    ((∃ module, (lowerBatch catalog name isolate files).result = .ok module) ↔
      ∃ module, (lowerBatch catalog name isolate moved).result = .ok module) ∧
    ∀ first second, (lowerBatch catalog name isolate files).result = .ok first →
      (lowerBatch catalog name isolate moved).result = .ok second →
      first.AgreesUpTo (movedId files moved) second := by
  have kept : keepFirst [] files = files := keepFirst_eq_self distinct fun _ _ => List.not_mem_nil
  have movedKept : keepFirst [] moved = moved :=
    keepFirst_eq_self ((perm.map ClassFile.name).nodup_iff.1 distinct) fun _ _ => List.not_mem_nil
  simp only [lowerBatch_eq_ok, kept, movedKept]
  -- each class is declared and completed on its own, so both passes succeed in any order
  refine ⟨⟨?_, ?_⟩, ?_⟩
  · rintro ⟨_, declared, completions, declares, completes, -⟩
    obtain ⟨others, movedDeclares⟩ :=
      (exists_mapM_moved perm (declaredType_moved distinct perm)).1 ⟨declared, declares⟩
    obtain ⟨otherCompletions, movedCompletes⟩ := (exists_mapM_moved perm
      (completion_moved distinct perm declares movedDeclares)).1 ⟨completions, completes⟩
    exact ⟨_, others, otherCompletions, movedDeclares, movedCompletes, rfl⟩
  · rintro ⟨_, others, otherCompletions, movedDeclares, movedCompletes, -⟩
    obtain ⟨declared, declares⟩ :=
      (exists_mapM_moved perm (declaredType_moved distinct perm)).2 ⟨others, movedDeclares⟩
    obtain ⟨completions, completes⟩ := (exists_mapM_moved perm
      (completion_moved distinct perm declares movedDeclares)).2 ⟨otherCompletions, movedCompletes⟩
    exact ⟨_, declared, completions, declares, completes, rfl⟩
  · rintro _ _ ⟨declared, completions, declares, completes, rfl⟩
      ⟨others, otherCompletions, movedDeclares, movedCompletes, rfl⟩
    exact agreesUpTo_movedId distinct perm declares movedDeclares completes movedCompletes

/-- A class, a class nested in it, and a class whose superclass is missing. -/
def nestedBatch : List ClassFile :=
  [{ name := "A", flags := ⟨0x21⟩, superClass := some "java/lang/Object", interfaces := []
     fields := [⟨⟨0x9⟩, "inner", "LA$B;", []⟩]
     methods := [⟨⟨0x9⟩, "make", "()LA$B;", [.code ⟨1, 0, 4,
       [⟨.new, 0, .oneValue 2, false⟩, ⟨.returnValue .ref, 3, .simple, false⟩], []⟩ []]⟩]
     attributes := [], pool := ⟨#[.utf8 "A$B", .classRef 1]⟩ },
   { name := "A$B", flags := ⟨0x20⟩, superClass := some "java/lang/Object", interfaces := []
     fields := [⟨⟨0x2⟩, "outer", "[LA;", []⟩], methods := [], attributes := [.nestHost "A"]
     pool := ⟨#[]⟩ },
   { name := "C", flags := ⟨0x21⟩, superClass := some "Missing", interfaces := [], fields := []
     methods := [⟨⟨0x9⟩, "run", "(LA;)V", [.code ⟨0, 1, 1,
       [⟨.returnVoid, 0, .simple, false⟩], []⟩ []]⟩]
     attributes := [], pool := ⟨#[]⟩ }]

/-- Reversing a batch of a class, a class in it and a third one. -/
theorem lowerBatch_perm_nested :
    ∃ first second,
      (lowerBatch Catalog.standard "M" true nestedBatch).result = .ok first ∧
      (lowerBatch Catalog.standard "M" true nestedBatch.reverse).result = .ok second ∧
      first.types.map TypeDef.source = ["A", "A$B", "C"] ∧
      second.types.map TypeDef.source = ["C", "A$B", "A"] ∧
      first.topLevel = [⟨0⟩, ⟨2⟩] ∧ second.topLevel = [⟨0⟩, ⟨2⟩] ∧
      first.AgreesUpTo (movedId nestedBatch nestedBatch.reverse) second := by
  have evaluated :
      ∃ first ∈ (lowerBatch Catalog.standard "M" true nestedBatch).result.toOption,
        first.types.map TypeDef.source = ["A", "A$B", "C"] ∧ first.topLevel = [⟨0⟩, ⟨2⟩] := by
    decide +kernel
  have movedEvaluated :
      ∃ second ∈ (lowerBatch Catalog.standard "M" true nestedBatch.reverse).result.toOption,
        second.types.map TypeDef.source = ["C", "A$B", "A"] ∧ second.topLevel = [⟨0⟩, ⟨2⟩] := by
    decide +kernel
  obtain ⟨first, lowered, sources, top⟩ := evaluated
  obtain ⟨second, movedLowered, movedSources, movedTop⟩ := movedEvaluated
  have lowered := Except.eq_ok_of_mem_toOption lowered
  have movedLowered := Except.eq_ok_of_mem_toOption movedLowered
  obtain ⟨-, agree⟩ := lowerBatch_perm Catalog.standard "M" true
    (by decide) nestedBatch.reverse_perm.symm
  exact ⟨first, second, lowered, movedLowered, sources, movedSources, top, movedTop,
    agree first second lowered movedLowered⟩

end ClassLowering
