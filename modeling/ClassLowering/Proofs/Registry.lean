import Mathlib.Data.Finmap
import ClassLowering.Proofs.Batches

/-! # The types of a module as a registry

A module is built by edits: types are registered under the names of their classes, attached to hosts
or to the top level, and get their base and their members. Whatever the order of edits is, no class
has two types, looking a class up gives the place of its type, and a place that was given out stays
with its type (`Target.Module.headings_prefix_perform`). An index of names kept beside the types
stays in step with them (`Target.Indexed.mirrors_perform`).

Lowering a batch is such a run of edits (`edited_lowerBatch`). A class whose name occurs earlier in
the batch is refused by the registry, so that the batch without it gives the same
(`keepFirst_append_cons`). -/

namespace ClassLowering

open Target (FieldDef MethodDef Module TypeDef TypeId TypeRef)

namespace Target

/-! ## Edits -/

/-- What a type keeps from its registration on: its names, flags and ancestors. -/
def TypeDef.heading (type : TypeDef) : TypeDef :=
  { type with base := none, enclosing := none, nested := [], fields := [], methods := [] }

/-- A change of a type that concerns its base and its members only. -/
structure MemberChange where
  change : TypeDef → TypeDef
  keeps : ∀ type, change type =
    { type with
      base := (change type).base
      fields := (change type).fields
      methods := (change type).methods }

/-- Changing members does not change the heading of a type. -/
theorem MemberChange.heading_change (members : MemberChange) (type : TypeDef) :
    (members.change type).heading = type.heading := by
  rw [members.keeps type]
  rfl

/-- The steps that a module is built by. -/
inductive Edit where
  | register (type : TypeDef)
  | attach (id : TypeId) (host : Option TypeId)
  | update (id : TypeId) (members : MemberChange)

namespace Module

/-- Carries out an edit; a type that is refused changes nothing. -/
def apply (module : Module) : Edit → Module
  | .register type =>
    match module.register type with
    | some (_, next) => next
    | none => module
  | .attach id host => module.attach id host
  | .update id members => module.update id members.change

/-- Carries out edits in order. -/
def perform (module : Module) (edits : List Edit) : Module := edits.foldl apply module

/-- Edits are performed in their order. -/
theorem perform_append (module : Module) (first second : List Edit) :
    module.perform (first ++ second) = (module.perform first).perform second :=
  List.foldl_append

/-- What the types of a module keep, in the order of the types. -/
def headings (module : Module) : List TypeDef := module.types.map TypeDef.heading

/-- The sources of a module are told from its headings. -/
theorem sources_eq_map (module : Module) : module.sources = module.headings.map TypeDef.source := by
  rw [headings, List.map_map]
  rfl

/-- Changing members does not change any heading. -/
theorem headings_update (module : Module) (id : TypeId) (members : MemberChange) :
    (module.update id members.change).headings = module.headings :=
  map_types_update members.heading_change module id

/-- Attaching types does not change any heading. -/
theorem headings_attach (module : Module) (id : TypeId) (host : Option TypeId) :
    (module.attach id host).headings = module.headings :=
  map_types_attach (fun _ _ => rfl) (fun _ _ => rfl) module id host

/-- An edit keeps all headings in place, and adds at most one, of a class that had no type. -/
theorem headings_apply (module : Module) (edit : Edit) :
    (module.apply edit).headings = module.headings ∨
      ∃ type : TypeDef, type.source ∉ module.sources ∧
        (module.apply edit).headings = module.headings ++ [type.heading] := by
  cases edit with
  | register type =>
    unfold apply
    dsimp only
    rw [register_eq]
    by_cases known : type.source ∈ module.sources
    · rw [if_pos known]
      exact .inl rfl
    · rw [if_neg known]
      exact .inr ⟨type, known, List.map_append⟩
  | attach id host => exact .inl (module.headings_attach id host)
  | update id members => exact .inl (module.headings_update id members)

/-! ## Runs of edits -/

/-- An edit may add a heading, behind the others. -/
theorem headings_prefix_apply (module : Module) (edit : Edit) :
    module.headings <+: (module.apply edit).headings := by
  obtain same | ⟨type, -, more⟩ := module.headings_apply edit
  · rw [same]
  · rw [more]
    exact List.prefix_append _ _

/-- Edits keep the headings of all types in their places. -/
theorem headings_prefix_perform (module : Module) (edits : List Edit) :
    module.headings <+: (module.perform edits).headings := by
  induction edits generalizing module with
  | nil => exact List.prefix_rfl
  | cons edit edits induction => exact (module.headings_prefix_apply edit).trans (induction _)

/-- No edit makes two types for one source. -/
theorem nodup_apply {module : Module} (distinct : module.sources.Nodup) (edit : Edit) :
    (module.apply edit).sources.Nodup := by
  rw [sources_eq_map]
  obtain same | ⟨type, new, more⟩ := module.headings_apply edit
  · rw [same, ← sources_eq_map]
    exact distinct
  · rw [more, List.map_append, ← sources_eq_map, List.map_singleton]
    exact List.nodup_append.2 ⟨distinct, List.nodup_singleton _, by
      rintro known listed _ single rfl
      exact new (List.mem_singleton.1 single ▸ listed)⟩

/-- Edits never give a class a second type. -/
theorem nodup_perform {module : Module} (distinct : module.sources.Nodup) (edits : List Edit) :
    (module.perform edits).sources.Nodup := by
  induction edits generalizing module with
  | nil => exact distinct
  | cons edit edits induction => exact induction (nodup_apply distinct edit)

/-- A class is looked up to the place of its type. -/
theorem lookup_eq_some_iff {module : Module} (distinct : module.sources.Nodup) {source : String}
    {id : TypeId} :
    module.lookup source = some id ↔
      ∃ inside : id.index < module.types.length, module.types[id.index].source = source := by
  have place : module.sources[id.index]? = some source ↔
      ∃ inside : id.index < module.types.length, module.types[id.index].source = source := by
    rw [List.getElem?_eq_some_iff, sources]
    simp
  rw [← place]
  exact ⟨getElem?_sources_of_lookup, lookup_of_getElem? distinct⟩

/-- Looking a class up after a type was added behind the others. -/
theorem lookup_append (module : Module) (type : TypeDef) (source : String) :
    ({ module with types := module.types ++ [type] } : Module).lookup source =
      (module.lookup source).or
        (if type.source = source then some ⟨module.types.length⟩ else none) := by
  unfold lookup
  dsimp only
  rw [List.findIdx?_append]
  by_cases same : type.source = source
  · cases module.types.findIdx? _ <;> simp [same]
  · cases module.types.findIdx? _ <;> simp [same]

/-- Where a class is found depends on the headings of types only. -/
theorem lookup_congr_headings {first second : Module} (same : first.headings = second.headings)
    (source : String) : first.lookup source = second.lookup source := by
  have sources : first.sources = second.sources := by rw [sources_eq_map, sources_eq_map, same]
  rw [lookup_congr sources]

end Module

/-! ## An index of names -/

/-- A module with an index that has the place of the type of each class. -/
structure Indexed where
  module : Module
  index : Finmap fun _ : String => TypeId

namespace Indexed

/-- A module without types and its index. -/
def empty (name : String) : Indexed := ⟨.empty name, ∅⟩

/-- Adds a type, unless its class is in the index. -/
def register (indexed : Indexed) (type : TypeDef) : Option (TypeId × Indexed) :=
  if type.source ∈ indexed.index then none
  else
    let id : TypeId := ⟨indexed.module.types.length⟩
    some (id, {
      module := { indexed.module with types := indexed.module.types ++ [type] }
      index := indexed.index.insert type.source id })

/-- Carries out an edit; the index is looked at and changed by registering only. -/
def apply (indexed : Indexed) : Edit → Indexed
  | .register type =>
    match indexed.register type with
    | some (_, next) => next
    | none => indexed
  | edit => { indexed with module := indexed.module.apply edit }

/-- Carries out edits in order. -/
def perform (indexed : Indexed) (edits : List Edit) : Indexed := edits.foldl apply indexed

/-- The index is one of the types of a module. -/
structure Mirrors (indexed : Indexed) (module : Module) : Prop where
  same : indexed.module = module
  lookup : ∀ source, indexed.index.lookup source = module.lookup source

variable {indexed : Indexed} {module : Module}

/-- The index has the classes that have types. -/
theorem Mirrors.mem_iff (mirrors : indexed.Mirrors module) {source : String} :
    source ∈ indexed.index ↔ source ∈ module.sources := by
  rw [← not_iff_not, ← Finmap.lookup_eq_none, mirrors.lookup, Module.lookup_eq_none_iff]

/-- Both refuse, or both give the same place and are in step afterwards. -/
def SameAnswer (indexed : Option (TypeId × Indexed)) (plain : Option (TypeId × Module)) : Prop :=
  Option.Rel (fun first second => first.1 = second.1 ∧ first.2.Mirrors second.2) indexed plain

/-- Registering through the index answers as searching all types does. -/
theorem Mirrors.register (mirrors : indexed.Mirrors module) (type : TypeDef) :
    SameAnswer (indexed.register type) (module.register type) := by
  obtain rfl := mirrors.same
  rw [Module.register_eq, Indexed.register]
  by_cases known : type.source ∈ indexed.module.sources
  · rw [if_pos known, if_pos (mirrors.mem_iff.2 known)]
    exact .none
  · rw [if_neg known, if_neg (mt mirrors.mem_iff.1 known)]
    refine .some ⟨rfl, rfl, fun source => ?_⟩
    dsimp only
    rw [Module.lookup_append]
    by_cases same : type.source = source
    · subst same
      rw [Finmap.lookup_insert, Module.lookup_eq_none_iff.2 known, if_pos rfl, Option.none_or]
    · rw [Finmap.lookup_insert_of_ne _ (Ne.symm same), mirrors.lookup, if_neg same, Option.or_none]

/-- With and without an index, edits change a module in the same way. -/
theorem Mirrors.apply (mirrors : indexed.Mirrors module) (edit : Edit) :
    (indexed.apply edit).Mirrors (module.apply edit) := by
  obtain rfl := mirrors.same
  cases edit with
  | register type =>
    have answers := mirrors.register type
    unfold Indexed.apply Module.apply
    dsimp only
    -- both accept the type or both refuse it
    revert answers
    cases indexed.register type <;> cases indexed.module.register type <;> intro answers
    · exact mirrors
    · cases answers
    · cases answers
    · cases answers with
      | some both => exact both.2
  | attach id host =>
    refine ⟨rfl,
      fun source => (mirrors.lookup source).trans (Module.lookup_congr_headings ?_ source)⟩
    exact (indexed.module.headings_attach id host).symm
  | update id members =>
    refine ⟨rfl,
      fun source => (mirrors.lookup source).trans (Module.lookup_congr_headings ?_ source)⟩
    exact (indexed.module.headings_update id members).symm

/-- An empty module is mirrored by an empty index. -/
theorem mirrors_empty (name : String) : (empty name).Mirrors (.empty name) :=
  ⟨rfl, fun _ => rfl⟩

/-- An index that mirrors a module does so through all edits. -/
theorem mirrors_perform (mirrors : indexed.Mirrors module) (edits : List Edit) :
    (indexed.perform edits).Mirrors (module.perform edits) := by
  induction edits generalizing indexed module with
  | nil => exact mirrors
  | cons edit edits induction => exact induction (mirrors.apply edit)

end Indexed

end Target

open Target (Edit Indexed)

/-! ## Batches -/

/-- The later module comes from the earlier one by edits. -/
def Edited (module later : Module) : Prop := ∃ edits, module.perform edits = later

/-- Edits after edits are edits. -/
theorem Edited.trans {first second third : Module} (before : Edited first second)
    (after : Edited second third) : Edited first third := by
  obtain ⟨edits, rfl⟩ := before
  obtain ⟨more, rfl⟩ := after
  exact ⟨edits ++ more, first.perform_append edits more⟩

/-- Registering classes is a sequence of edits. -/
theorem edited_registerAll {files : List ClassFile} {module later : Module}
    {placed : List PlacedClass}
    (registered : (registerAll module files).result = .ok (later, placed)) :
    Edited module later := by
  induction files generalizing module placed with
  | nil =>
    cases registered
    exact ⟨[], rfl⟩
  | cons file files induction =>
    have first : Edited module (module.apply (.register file.typeDef)) :=
      ⟨[.register file.typeDef], rfl⟩
    unfold registerAll at registered
    unfold Target.Module.apply at first
    dsimp only at first
    -- a class is registered, or refused because its name is taken
    split at registered
    · next id next found =>
      rw [found] at first
      obtain ⟨_, others, registered⟩ := Logged.bind_eq_ok.1 registered
      cases registered
      exact first.trans (induction others)
    · next refused =>
      obtain ⟨_, -, registered⟩ := Logged.bind_eq_ok.1 registered
      exact induction registered

/-- Declaring members is a sequence of edits. -/
theorem edited_declareMembers {catalog : Catalog} {module later : Module} {placed : PlacedClass}
    (declared : (declareMembers catalog module placed).result = .ok later) :
    Edited module later := by
  rw [result_declareMembers] at declared
  obtain ⟨type, -, rfl⟩ := Except.map_eq_ok.1 declared
  exact ⟨[.update placed.id ⟨_, fun _ => rfl⟩], rfl⟩

/-- Attaching a type is an edit. -/
theorem edited_attach (module : Module) (id : TypeId) (host : Option TypeId) :
    Edited module (module.attach id host) := ⟨[.attach id host], rfl⟩

/-- A class edits the module, whether it fails or not. -/
theorem edited_completeClass (catalog : Catalog) (module : Module) (placed : PlacedClass) :
    Edited module (completeClass catalog module placed).1 := by
  unfold completeClass
  split
  · exact ⟨[], rfl⟩
  · next host _ =>
    have attached := edited_attach module placed.id host
    dsimp only
    split
    · exact attached.trans ⟨[.update placed.id ⟨_, fun _ => rfl⟩], rfl⟩
    · exact attached

/-- A class of a batch edits the module, also if it is recovered. -/
theorem edited_completeNext {catalog : Catalog} {isolate : Bool} {module later : Module}
    {placed : PlacedClass}
    (completed : (completeNext catalog isolate module placed).result = .ok later) :
    Edited module later := by
  have edited := edited_completeClass catalog module placed
  rw [result_completeNext] at completed
  generalize completeClass catalog module placed = left at edited completed
  obtain ⟨left, log, _ | _⟩ := left
  · cases isolate with
    | false => cases completed
    | true =>
      cases completed
      split
      · exact edited
      · exact edited.trans (edited_attach left placed.id none)
  · cases completed
    exact edited

/-- A pass whose steps are edits is a run of edits. -/
theorem edited_foldlM {step : Module → PlacedClass → Logged Error Module}
    (each : ∀ module placed later, (step module placed).result = .ok later → Edited module later)
    {placed : List PlacedClass} {module later : Module}
    (passed : (placed.foldlM step module).result = .ok later) : Edited module later := by
  induction placed generalizing module with
  | nil =>
    cases passed
    exact ⟨[], rfl⟩
  | cons first others induction =>
    rw [List.foldlM_cons] at passed
    obtain ⟨middle, found, passed⟩ := Logged.bind_eq_ok.1 passed
    exact (each _ _ _ found).trans (induction passed)

/-- A batch is lowered by edits of an empty module. -/
theorem edited_lowerBatch {catalog : Catalog} {name : String} {isolate : Bool}
    {files : List ClassFile} {module : Module}
    (lowered : (lowerBatch catalog name isolate files).result = .ok module) :
    Edited (.empty name) module := by
  obtain ⟨⟨registered, placed⟩, first, lowered⟩ := Logged.bind_eq_ok.1 lowered
  obtain ⟨declared, second, third⟩ := Logged.bind_eq_ok.1 lowered
  have declares := edited_foldlM (fun _ _ _ => edited_declareMembers) second
  have completes := edited_foldlM (fun _ _ _ => edited_completeNext) third
  exact (edited_registerAll first).trans (declares.trans completes)

/-- A class whose name is known or occurs earlier is not among those that are kept. -/
theorem keepFirst_append_cons {known : List String} {front : List ClassFile} {file : ClassFile}
    (earlier : file.name ∈ known ∨ file.name ∈ front.map ClassFile.name) (back : List ClassFile) :
    keepFirst known (front ++ file :: back) = keepFirst known (front ++ back) := by
  induction front generalizing known with
  | nil =>
    have shared := earlier.resolve_right List.not_mem_nil
    rw [List.nil_append, List.nil_append, keepFirst, if_pos shared]
  | cons first front induction =>
    rw [List.map_cons, List.mem_cons] at earlier
    rw [List.cons_append, List.cons_append, keepFirst, keepFirst]
    split
    · next shared =>
      refine induction ?_
      obtain old | same | later := earlier
      · exact .inl old
      · exact .inl (same ▸ shared)
      · exact .inr later
    · refine congrArg (first :: ·) (induction ?_)
      rw [List.mem_append, List.mem_singleton, or_assoc]
      exact earlier

/-! ## Integrity -/

/-- What a module that is built by edits is to its users. -/
structure Target.Module.Intact (module : Module) : Prop where
  distinct : module.sources.Nodup
  lookup : ∀ source id, module.lookup source = some id ↔
    ∃ inside : id.index < module.types.length, module.types[id.index].source = source
  /-- A place that is given out is new, and the type is there. -/
  registered : ∀ type id next, module.register type = some (id, next) →
    module.get? id = none ∧ next.get? id = some type ∧ next = module.apply (.register type)
  refused : ∀ type, type.source ∈ module.sources →
    module.register type = none ∧ module.apply (.register type) = module
  /-- A place stays with its type. -/
  kept : ∀ edits id type, module.get? id = some type →
    ∃ later, (module.perform edits).get? id = some later ∧ later.heading = type.heading

/-- A module with one type for each source is intact. -/
theorem Target.Module.intact_of_nodup {module : Module} (distinct : module.sources.Nodup) :
    module.Intact where
  distinct := distinct
  lookup _ _ := lookup_eq_some_iff distinct
  registered type id next accepted := by
    rw [apply, accepted]
    rw [register_eq] at accepted
    split at accepted
    · cases accepted
    · cases accepted
      exact ⟨List.getElem?_eq_none (Nat.le_refl _), List.getElem?_concat_length, rfl⟩
  refused type known := by
    have refused : module.register type = none := by rw [register_eq, if_pos known]
    rw [apply, refused]
    exact ⟨rfl, rfl⟩
  kept edits id type listed := by
    have heading : module.headings[id.index]? = some type.heading := by
      rw [headings, List.getElem?_map]
      exact Option.map_eq_some_iff.2 ⟨type, listed, rfl⟩
    obtain ⟨more, grown⟩ := module.headings_prefix_perform edits
    have later : (module.perform edits).headings[id.index]? = some type.heading := by
      rw [← grown, List.getElem?_append_left (List.getElem?_eq_some_iff.1 heading).1, heading]
    rw [headings, List.getElem?_map] at later
    exact Option.map_eq_some_iff.1 later

/-- A module that is built by edits is intact, with an index in step with its types. Lowering a
batch is such a run of edits, and a class whose name occurs earlier in the batch changes nothing of
what is lowered, neither the module nor the failure. -/
theorem registry_intact (name : String) (edits : List Edit) :
    ((Module.empty name).perform edits).Intact ∧
    ((Indexed.empty name).perform edits).Mirrors ((Module.empty name).perform edits) ∧
    (∀ type, Indexed.SameAnswer (((Indexed.empty name).perform edits).register type)
      (((Module.empty name).perform edits).register type)) ∧
    (∀ catalog isolate files module, (lowerBatch catalog name isolate files).result = .ok module →
      Edited (.empty name) module) ∧
    ∀ (catalog : Catalog) (isolate : Bool) (front : List ClassFile) (file : ClassFile)
      (back : List ClassFile), file.name ∈ front.map ClassFile.name →
        (lowerBatch catalog name isolate (front ++ file :: back)).result =
          (lowerBatch catalog name isolate (front ++ back)).result := by
  have started : (Module.empty name).sources.Nodup := List.nodup_nil
  have mirrors := Indexed.mirrors_perform (Indexed.mirrors_empty name) edits
  refine ⟨?_, mirrors, mirrors.register, fun catalog isolate files module => edited_lowerBatch, ?_⟩
  · exact Module.intact_of_nodup (Module.nodup_perform started edits)
  · intro catalog isolate front file back earlier
    rw [result_lowerBatch, result_lowerBatch, keepFirst_append_cons (.inr earlier)]

/-- A class, and another one with its name and a field without a type. -/
def shadowingPair : ClassFile × ClassFile :=
  ({ name := "A", flags := ⟨0x21⟩, superClass := some "java/lang/Object", interfaces := []
     fields := [⟨⟨0⟩, "f", "LB;", []⟩], methods := [], attributes := [], pool := ⟨#[]⟩ },
   { name := "A", flags := ⟨0x20⟩, superClass := some "C", interfaces := []
     fields := [⟨⟨0⟩, "g", "?", []⟩], methods := [], attributes := [.nestHost "D"], pool := ⟨#[]⟩ })

/-- A class that extends `A`. -/
def shadowedClient : ClassFile :=
  { name := "B", flags := ⟨0x21⟩, superClass := some "A", interfaces := [], fields := []
    methods := [], attributes := [], pool := ⟨#[]⟩ }

/-- A class that comes again under the name of an earlier one is left out, and its client keeps to
the first. -/
theorem registry_intact_shadowed :
    shadowingPair.2.name ∈ [shadowingPair.1].map ClassFile.name ∧
      (lowerBatch Catalog.standard "M" false
        ([shadowingPair.1] ++ shadowingPair.2 :: [shadowedClient])).result =
          (lowerBatch Catalog.standard "M" false ([shadowingPair.1] ++ [shadowedClient])).result ∧
      ∃ module, (lowerBatch Catalog.standard "M" false
          ([shadowingPair.1] ++ shadowingPair.2 :: [shadowedClient])).result = .ok module ∧
        module.sources = ["A", "B"] := by
  have earlier : shadowingPair.2.name ∈ [shadowingPair.1].map ClassFile.name := by decide
  have same := (registry_intact "M" []).2.2.2.2 Catalog.standard false [shadowingPair.1]
    shadowingPair.2 [shadowedClient] earlier
  have evaluated : ∃ module ∈ (lowerBatch Catalog.standard "M" false
      ([shadowingPair.1] ++ [shadowedClient])).result.toOption, module.sources = ["A", "B"] := by
    decide +kernel
  obtain ⟨module, lowered, sources⟩ := evaluated
  exact ⟨earlier, same, module, same.trans (Except.eq_ok_of_mem_toOption lowered), sources⟩

end ClassLowering
