import ClassLowering.Proofs.BatchOrder
import ClassLowering.Proofs.Links
import ClassLowering.Proofs.Noninterference

/-! # Nested types and the top level

Every class may name any class of the batch as its host, also itself, so the types of a module need
not form a forest. A type is reached from the top level exactly if the hosts, followed from its
class on, do not come back to a class that has been passed (`lowerBatch_rooted`). A walk over the
top level and all that is nested below it visits these types, each of them once, and no others. -/

namespace ClassLowering

open Target (Module TypeDef TypeId)

/-! ## Walking over a module -/

namespace Target.Module

open Links (Ends follow)

variable (module : Module)

/-- The place of the type that encloses the type at a place. -/
def enclosing? (id : TypeId) : Option TypeId := (module.get? id).bind TypeDef.enclosing

/-- The places of the types that are nested in the type at a place. -/
def nestedIn (id : TypeId) : List TypeId := ((module.get? id).map TypeDef.nested).getD []

/-- The places of all types. -/
def places : List TypeId := (List.range module.types.length).map TypeId.mk

/-- Following the enclosing types of a type leads to the top level. -/
def Rooted (id : TypeId) : Prop :=
  ∃ steps, ∃ root ∈ module.topLevel, follow module.enclosing? steps id = some root

/-- The places that are visited, in this order, by a walk over some places and all that is nested
below them, down to a depth. -/
def walk : (depth : Nat) → List TypeId → List TypeId
  | 0, _ => []
  | depth + 1, ids => ids.flatMap fun id => id :: walk depth (module.nestedIn id)

/-- Types are nested in the types that enclose them, and at the top level without one. -/
structure Coherent : Prop where
  mem_nestedIn : ∀ {id host : TypeId}, id ∈ module.nestedIn host ↔ module.enclosing? id = some host
  mem_topLevel : ∀ {id : TypeId},
    id ∈ module.topLevel ↔ id.index < module.types.length ∧ module.enclosing? id = none
  enclosing_lt : ∀ {id host : TypeId}, module.enclosing? id = some host →
    host.index < module.types.length
  nodup_nestedIn : ∀ host, (module.nestedIn host).Nodup
  nodup_topLevel : module.topLevel.Nodup

/-- The place is so many enclosing types away from one without. -/
def AtLevel (level : Nat) (id : TypeId) : Prop :=
  ∃ root, follow module.enclosing? level id = some root ∧ module.enclosing? root = none

variable {module}

/-- The places of a module are those below the number of its types. -/
theorem mem_places {id : TypeId} : id ∈ module.places ↔ id.index < module.types.length := by
  rw [places, List.mem_map]
  constructor
  · rintro ⟨index, below, rfl⟩
    exact List.mem_range.1 below
  · intro below
    exact ⟨id.index, List.mem_range.2 below, rfl⟩

/-- No place comes twice. -/
theorem nodup_places : module.places.Nodup :=
  List.nodup_range.map fun _ _ same => TypeId.mk.inj same

/-- A place has one level only. -/
theorem AtLevel.unique {id : TypeId} {level other : Nat} (first : module.AtLevel level id)
    (second : module.AtLevel other id) : level = other := by
  obtain ⟨_, reached, ends⟩ := first
  obtain ⟨_, reachedOther, endsOther⟩ := second
  exact Links.eq_of_ends reached ends reachedOther endsOther

/-- From a place at a level, each step down is one level further. -/
theorem AtLevel.below {id above : TypeId} {level steps : Nat} (atLevel : module.AtLevel level above)
    (reached : follow module.enclosing? steps id = some above) :
    module.AtLevel (steps + level) id := by
  obtain ⟨root, last, ends⟩ := atLevel
  refine ⟨root, ?_, ends⟩
  rw [Links.follow_add, reached, Option.bind_some, last]

namespace Coherent

variable (coherent : module.Coherent)

include coherent

/-- A walk visits what is enclosed, directly or not, by a place that it starts with. -/
theorem mem_walk {depth : Nat} {ids : List TypeId} {id : TypeId} :
    id ∈ module.walk depth ids ↔
      ∃ steps < depth, ∃ above ∈ ids, follow module.enclosing? steps id = some above := by
  induction depth generalizing ids with
  | zero => simp [walk]
  | succ depth induction =>
    rw [walk, List.mem_flatMap]
    simp only [List.mem_cons, induction, coherent.mem_nestedIn]
    constructor
    · rintro ⟨above, listed, rfl | ⟨steps, bound, inner, encloses, reached⟩⟩
      · exact ⟨0, Nat.zero_lt_succ depth, id, listed, rfl⟩
      · refine ⟨steps + 1, Nat.succ_lt_succ bound, above, listed, ?_⟩
        rw [Links.follow_succ, reached, Option.bind_some, encloses]
    · rintro ⟨steps, bound, above, listed, reached⟩
      refine ⟨above, listed, ?_⟩
      cases steps with
      | zero => exact .inl (Option.some.inj reached)
      | succ steps =>
        rw [Links.follow_succ] at reached
        obtain ⟨inner, reachedInner, encloses⟩ := Option.bind_eq_some_iff.1 reached
        exact .inr ⟨steps, Nat.lt_of_succ_lt_succ bound, inner, encloses, reachedInner⟩

/-- A walk that starts at one level visits no place twice. -/
theorem nodup_walk {depth level : Nat} {ids : List TypeId} (distinct : ids.Nodup)
    (leveled : ∀ id ∈ ids, module.AtLevel level id) : (module.walk depth ids).Nodup := by
  induction depth generalizing level ids with
  | zero => exact .nil
  | succ depth induction =>
    have below {above id : TypeId} (listed : above ∈ ids) (inner : id ∈ module.nestedIn above) :
        module.AtLevel (1 + level) id := by
      refine (leveled above listed).below ?_
      rw [Links.follow_succ]
      exact coherent.mem_nestedIn.1 inner
    rw [walk, List.nodup_flatMap]
    constructor
    · intro above listed
      refine List.nodup_cons.2 ⟨fun again => ?_, induction (coherent.nodup_nestedIn above)
        fun id inner => below listed inner⟩
      -- what is nested below a place is at another level
      obtain ⟨steps, -, inner, member, reached⟩ := coherent.mem_walk.1 again
      have := (leveled above listed).unique ((below listed member).below reached)
      omega
    · refine distinct.imp_of_mem fun {first second} firstListed secondListed different => ?_
      intro id visited visitedAgain
      have reach {above : TypeId} (listed : above ∈ ids)
          (visited : id ∈ above :: module.walk depth (module.nestedIn above)) :
          ∃ steps, follow module.enclosing? steps id = some above := by
        have member : id ∈ module.walk (depth + 1) [above] := by
          rw [walk, List.flatMap_singleton]
          exact visited
        obtain ⟨steps, -, _, only, reached⟩ := coherent.mem_walk.1 member
        rw [List.mem_singleton.1 only] at reached
        exact ⟨steps, reached⟩
      obtain ⟨steps, reached⟩ := reach firstListed visited
      obtain ⟨more, reachedAgain⟩ := reach secondListed visitedAgain
      -- both are as far away from the place, so they are the same
      have levels := ((leveled first firstListed).below reached).unique
        ((leveled second secondListed).below reachedAgain)
      have same : steps = more := by omega
      rw [same, reachedAgain] at reached
      exact different (Option.some.inj reached).symm

/-- Enclosing types are types of the module. -/
theorem closed : ∀ id ∈ module.places, ∀ host ∈ module.enclosing? id, host ∈ module.places :=
  fun _ _ _ encloses => mem_places.2 (coherent.enclosing_lt encloses)

/-- Following enclosing types leads to the top level exactly if it ends. -/
theorem rooted_iff {id : TypeId} (listed : id ∈ module.places) :
    module.Rooted id ↔ Ends module.enclosing? id := by
  constructor
  · rintro ⟨steps, root, top, reached⟩
    exact ⟨steps, root, reached, (coherent.mem_topLevel.1 top).2⟩
  · rintro ⟨steps, root, reached, none⟩
    have inside := mem_places.1 (Links.mem_of_follow coherent.closed listed reached)
    exact ⟨steps, root, coherent.mem_topLevel.2 ⟨inside, none⟩, reached⟩

/-- A place from which the top level is reached is that of a type. -/
theorem mem_places_of_rooted {id : TypeId} (rooted : module.Rooted id) : id ∈ module.places := by
  obtain ⟨steps, root, top, reached⟩ := rooted
  cases steps with
  | zero =>
    cases reached
    exact mem_places.2 (coherent.mem_topLevel.1 top).1
  | succ steps =>
    rw [follow] at reached
    obtain ⟨host, encloses, -⟩ := Option.bind_eq_some_iff.1 reached
    obtain ⟨type, found, -⟩ := Option.bind_eq_some_iff.1 encloses
    exact mem_places.2 (List.getElem?_eq_some_iff.1 found).1

/-- A walk from the top level visits no place twice. -/
theorem nodup_walk_topLevel (depth : Nat) : (module.walk depth module.topLevel).Nodup := by
  have leveled : ∀ id ∈ module.topLevel, module.AtLevel 0 id := fun id top =>
    ⟨id, rfl, (coherent.mem_topLevel.1 top).2⟩
  exact coherent.nodup_walk coherent.nodup_topLevel leveled

/-- A walk from the top level, if it is as deep as there are types, visits the places from which the
top level is reached. -/
theorem mem_walk_topLevel {depth : Nat} (deep : module.types.length ≤ depth) {id : TypeId} :
    id ∈ module.walk depth module.topLevel ↔ module.Rooted id := by
  rw [coherent.mem_walk]
  constructor
  · rintro ⟨steps, -, root, top, reached⟩
    exact ⟨steps, root, top, reached⟩
  · intro rooted
    have listed := coherent.mem_places_of_rooted rooted
    obtain ⟨steps, root, top, reached⟩ := rooted
    have short := Links.lt_length_of_ends coherent.closed listed reached
      (coherent.mem_topLevel.1 top).2
    rw [places, List.length_map, List.length_range] at short
    exact ⟨steps, Nat.lt_of_lt_of_le short deep, root, top, reached⟩

end Coherent

end Target.Module

/-! ## Modules of batches -/

section

variable {name : String} {declared : List TypeDef} {completions : List Completion}
  (free : ∀ type ∈ declared, type.enclosing = none ∧ type.nested = [])
  (size : declared.length = completions.length)

include free

include size in
/-- The type of a class is enclosed by that of its host. -/
theorem enclosing?_assemble (id : TypeId) :
    (assemble name declared completions).enclosing? id =
      completions[id.index]?.bind Completion.host := by
  rw [Module.enclosing?, Module.get?, assemble, List.getElem?_mapIdx]
  cases found : declared[id.index]? with
  | none =>
    rw [List.getElem?_eq_none (size ▸ List.getElem?_eq_none_iff.1 found)]
    rfl
  | some type =>
    rw [Option.map_some, Option.bind_some, enclosing_assembledType,
      (free type (List.mem_of_getElem? found)).1, Option.or_none]

/-- The types of the classes with a host are nested in its type. -/
theorem nestedIn_assemble
    (hosts : ∀ completion ∈ completions, ∀ host ∈ completion.host, host.index < declared.length)
    (id : TypeId) :
    (assemble name declared completions).nestedIn id = hosted completions (some id) := by
  rw [Module.nestedIn, Module.get?, assemble, List.getElem?_mapIdx]
  cases found : declared[id.index]? with
  | none =>
    refine (List.eq_nil_iff_forall_not_mem.2 fun nested listed => ?_).symm
    obtain ⟨completion, given, host⟩ := mem_hosted.1 listed
    have inside := hosts completion (List.mem_of_getElem? given) id host
    have outside := List.getElem?_eq_none_iff.1 found
    omega
  | some type =>
    change type.nested ++ _ = _
    rw [(free type (List.mem_of_getElem? found)).2]
    rfl

include size in
/-- Hosts and the lists of nested types agree. -/
theorem coherent_assemble
    (hosts : ∀ completion ∈ completions, ∀ host ∈ completion.host, host.index < declared.length) :
    (assemble name declared completions).Coherent where
  mem_nestedIn := by
    intro id host
    rw [nestedIn_assemble free hosts, enclosing?_assemble free size, mem_hosted,
      Option.bind_eq_some_iff]
  mem_topLevel := by
    intro id
    have length : (assemble name declared completions).types.length = completions.length := by
      rw [assemble, List.length_mapIdx, size]
    rw [enclosing?_assemble free size, length]
    change id ∈ hosted completions none ↔ _
    rw [mem_hosted]
    constructor
    -- a class without a host is at the top level, and every type has a class
    · rintro ⟨completion, given, host⟩
      exact ⟨(List.getElem?_eq_some_iff.1 given).1, by rw [given, Option.bind_some, host]⟩
    · rintro ⟨inside, none⟩
      rw [List.getElem?_eq_getElem inside, Option.bind_some] at none
      exact ⟨_, List.getElem?_eq_getElem inside, none⟩
  enclosing_lt := by
    intro id host encloses
    rw [enclosing?_assemble free size] at encloses
    obtain ⟨completion, given, host⟩ := Option.bind_eq_some_iff.1 encloses
    rw [assemble, List.length_mapIdx]
    exact hosts completion (List.mem_of_getElem? given) _ host
  nodup_nestedIn := by
    intro host
    rw [nestedIn_assemble free hosts]
    exact nodup_hosted completions _
  nodup_topLevel := nodup_hosted completions none

end

/-! ## Hosts by name -/

/-- The host that the first class of a name gives. -/
def hostName? (files : List ClassFile) (name : String) : Option String :=
  (files.find? (·.name = name)).bind fun file => Attribute.nestHost? file.attributes

/-- A class is attached to the type of the host that it names, if there is one. -/
theorem attachment_eq (module : Module) (file : ClassFile) :
    attachment module file = (Attribute.nestHost? file.attributes).bind module.lookup := by
  unfold attachment hostOf
  cases Attribute.nestHost? file.attributes with
  | none => rfl
  | some name =>
    dsimp only
    rw [Option.bind_some]
    cases module.lookup name <;> rfl

/-- Every name is that of a class that is kept, unless it is known. -/
theorem mem_names_keepFirst {known : List String} {files : List ClassFile} {file : ClassFile}
    (listed : file ∈ files) (fresh : file.name ∉ known) :
    file.name ∈ (keepFirst known files).map ClassFile.name := by
  induction files generalizing known with
  | nil => cases listed
  | cons first files induction =>
    rw [keepFirst]
    obtain rfl | later := List.mem_cons.1 listed
    · rw [if_neg fresh]
      exact List.mem_cons_self
    · split
      · exact induction later fresh
      · by_cases same : file.name = first.name
        · rw [same]
          exact List.mem_cons_self
        · refine List.mem_cons_of_mem _ (induction later ?_)
          rw [List.mem_append, List.mem_singleton, not_or]
          exact ⟨fresh, same⟩

section

variable {files : List ClassFile} {module declared : Module}
  (encloses : ∀ id, module.enclosing? id =
    (keepFirst [] files)[id.index]?.bind (attachment declared))
  (sources : declared.sources = (keepFirst [] files).map ClassFile.name)

/-- A class that is kept gives the host of its name. -/
theorem hostName?_of_kept {file : ClassFile} (kept : file ∈ keepFirst [] files) :
    hostName? files file.name = Attribute.nestHost? file.attributes := by
  rw [hostName?, (find?_of_mem_keepFirst kept).1, Option.bind_some]

include sources in
/-- A class without a type gives no host. -/
theorem hostName?_eq_none {name : String} (missing : declared.lookup name = none) :
    hostName? files name = none := by
  have absent := Module.lookup_eq_none_iff.1 missing
  rw [sources] at absent
  have unlisted : files.find? (·.name = name) = none := by
    refine List.find?_eq_none.2 fun file listed same => absent ?_
    rw [← of_decide_eq_true same]
    exact mem_names_keepFirst listed List.not_mem_nil
  rw [hostName?, unlisted, Option.bind_none]

include encloses sources in
/-- The type of a kept class is at the top level, and its host, if it gives one, has no type; or it
is enclosed by the type of its host, which is kept. -/
theorem host_cases {id : TypeId} {file : ClassFile}
    (listed : (keepFirst [] files)[id.index]? = some file) :
    module.enclosing? id = none ∧
      (∀ host ∈ hostName? files file.name, hostName? files host = none) ∨
      ∃ place host, module.enclosing? id = some place ∧
        (keepFirst [] files)[place.index]? = some host ∧
        hostName? files file.name = some host.name := by
  have own := hostName?_of_kept (List.mem_of_getElem? listed)
  have link := encloses id
  rw [listed, Option.bind_some, attachment_eq, ← own] at link
  -- no host is named, or it has no type, or it has one
  cases named : hostName? files file.name with
  | none =>
    rw [named, Option.bind_none] at link
    exact .inl ⟨link, fun _ given => by cases given⟩
  | some name =>
    rw [named, Option.bind_some] at link
    cases found : declared.lookup name with
    | none =>
      refine .inl ⟨link.trans found, ?_⟩
      rintro _ ⟨⟩
      exact hostName?_eq_none sources found
    | some place =>
      have given := Module.getElem?_sources_of_lookup found
      rw [sources, List.getElem?_map] at given
      obtain ⟨host, kept, rfl⟩ := Option.map_eq_some_iff.1 given
      exact .inr ⟨place, host, link.trans found, kept, rfl⟩

include encloses sources in
/-- Following enclosing types ends exactly if following the hosts of classes does. -/
theorem ends_enclosing?_iff {id : TypeId} {file : ClassFile}
    (listed : (keepFirst [] files)[id.index]? = some file) :
    Links.Ends module.enclosing? id ↔ Links.Ends (hostName? files) file.name := by
  constructor
  -- a step from type to type is a step from class to class
  · rintro ⟨steps, last, reached, none⟩
    induction steps generalizing id file with
    | zero =>
      cases reached
      obtain ⟨-, hosts⟩ | ⟨_, _, encloses, -⟩ := host_cases encloses sources listed
      · -- a host without a type is the last one
        cases named : hostName? files file.name with
        | none => exact Links.ends_of_next_eq_none named
        | some host => exact .cons named (Links.ends_of_next_eq_none (hosts host named))
      · rw [none] at encloses
        cases encloses
    | succ steps induction =>
      rw [Links.follow] at reached
      obtain ⟨place, encloses', reached⟩ := Option.bind_eq_some_iff.1 reached
      obtain ⟨absent, -⟩ | ⟨_, host, found, kept, named⟩ := host_cases encloses sources listed
      · rw [absent] at encloses'
        cases encloses'
      · rw [found] at encloses'
        cases encloses'
        exact .cons named (induction kept reached)
  -- and a step from class to class is one from type to type, until a host has no type
  · rintro ⟨steps, last, reached, none⟩
    induction steps generalizing id file with
    | zero =>
      cases reached
      obtain ⟨absent, -⟩ | ⟨_, _, -, -, named⟩ := host_cases encloses sources listed
      · exact Links.ends_of_next_eq_none absent
      · rw [none] at named
        cases named
    | succ steps induction =>
      rw [Links.follow] at reached
      obtain ⟨name, named, reached⟩ := Option.bind_eq_some_iff.1 reached
      obtain ⟨absent, -⟩ | ⟨_, host, found, kept, named'⟩ := host_cases encloses sources listed
      · exact Links.ends_of_next_eq_none absent
      · rw [named] at named'
        cases named'
        exact .cons found (induction kept reached)

end

/-- Following the hosts of the classes of a batch ends unless it runs into a cycle. -/
theorem ends_hostName?_iff {files : List ClassFile} {file : ClassFile} (listed : file ∈ files) :
    Links.Ends (hostName? files) file.name ↔ ¬Links.RunsIntoCycle (hostName? files) file.name := by
  let hosts := files.filterMap fun file => Attribute.nestHost? file.attributes
  have closed : ∀ name ∈ files.map ClassFile.name ++ hosts, ∀ host ∈ hostName? files name,
      host ∈ files.map ClassFile.name ++ hosts := by
    intro name _ host given
    obtain ⟨owner, found, named⟩ := Option.bind_eq_some_iff.1 given
    exact List.mem_append_right _
      (List.mem_filterMap.2 ⟨owner, List.mem_of_find?_eq_some found, named⟩)
  exact Links.ends_iff closed (List.mem_append_left _ (List.mem_map_of_mem listed))

/-- The hosts and the names of the types of a module, in terms of the classes of the batch. -/
theorem nesting_of_lowerBatch {catalog : Catalog} {name : String} {isolate : Bool}
    {files : List ClassFile} {module : Module}
    (lowered : (lowerBatch catalog name isolate files).result = .ok module) :
    module.Coherent ∧ module.sources = (keepFirst [] files).map ClassFile.name ∧
      ∃ declared : Module, declared.sources = (keepFirst [] files).map ClassFile.name ∧
        ∀ id, module.enclosing? id =
          (keepFirst [] files)[id.index]?.bind (attachment declared) := by
  obtain ⟨declared, completions, declares, completes, rfl⟩ := lowerBatch_eq_ok.1 lowered
  have size : declared.length = completions.length := by
    rw [Except.length_mapM declares, Except.length_mapM completes]
  have free : ∀ type ∈ declared, type.enclosing = none ∧ type.nested = [] := fun type listed => by
    obtain ⟨file, -, found⟩ := Except.exists_of_mem_mapM declares listed
    exact free_of_declaredType found
  have sources := sources_of_declaredType declares
  refine ⟨?_, (sources_assemble name declared completions).trans sources,
    { name, types := declared }, sources, fun id => ?_⟩
  · refine coherent_assemble free size fun completion listed => ?_
    obtain ⟨file, -, found⟩ := Except.exists_of_mem_mapM completes listed
    exact host_lt_of_completion found
  · have hosts :=
      congrArg (fun list => list[id.index]?.bind (fun host => host))
        (hosts_of_completions completes)
    simp only [List.getElem?_map, Option.bind_map, Function.comp_def] at hosts
    rw [enclosing?_assemble free size, hosts]

/-- In every module that a batch becomes, following enclosing types from a type leads to the top
level unless following hosts from its class runs into a cycle; a walk over the top level and all
that is nested below it visits the types from which the top level is reached, each of them once; and
if no hosts run into a cycle it visits every type. -/
theorem lowerBatch_rooted {catalog : Catalog} {name : String} {isolate : Bool}
    {files : List ClassFile} {module : Module}
    (lowered : (lowerBatch catalog name isolate files).result = .ok module) :
    (∀ id type, module.get? id = some type →
      (module.Rooted id ↔ ¬Links.RunsIntoCycle (hostName? files) type.source)) ∧
    ∀ depth, module.types.length ≤ depth →
      (module.walk depth module.topLevel).Nodup ∧
      (∀ id, id ∈ module.walk depth module.topLevel ↔ module.Rooted id) ∧
      ((∀ file ∈ files, ¬Links.RunsIntoCycle (hostName? files) file.name) →
        (module.walk depth module.topLevel).Perm module.places) := by
  obtain ⟨coherent, names, declared, sources, encloses⟩ := nesting_of_lowerBatch lowered
  -- the class of a type is the first one of its name
  have kept {id : TypeId} {type : TypeDef} (found : module.get? id = some type) :
      ∃ file ∈ files, (keepFirst [] files)[id.index]? = some file ∧ file.name = type.source := by
    have listed : module.sources[id.index]? = some type.source := by
      rw [Module.sources, List.getElem?_map]
      exact congrArg (Option.map TypeDef.source) found
    rw [names, List.getElem?_map] at listed
    obtain ⟨file, given, same⟩ := Option.map_eq_some_iff.1 listed
    have first := (find?_of_mem_keepFirst (List.mem_of_getElem? given)).1
    exact ⟨file, List.mem_of_find?_eq_some first, given, same⟩
  have rooted : ∀ id type, module.get? id = some type →
      (module.Rooted id ↔ ¬Links.RunsIntoCycle (hostName? files) type.source) := by
    intro id type found
    obtain ⟨file, listed, given, same⟩ := kept found
    have place := Module.mem_places.2 (List.getElem?_eq_some_iff.1 found).1
    rw [coherent.rooted_iff place, ends_enclosing?_iff encloses sources given,
      ends_hostName?_iff listed, same]
  refine ⟨rooted, fun depth deep => ⟨coherent.nodup_walk_topLevel depth,
    fun id => coherent.mem_walk_topLevel deep, fun acyclic => ?_⟩⟩
  refine (List.perm_ext_iff_of_nodup (coherent.nodup_walk_topLevel depth)
    Module.nodup_places).2 fun id => ?_
  rw [coherent.mem_walk_topLevel deep]
  refine ⟨coherent.mem_places_of_rooted, fun place => ?_⟩
  have found := List.getElem?_eq_getElem (Module.mem_places.1 place)
  obtain ⟨file, listed, -, same⟩ := kept found
  exact (rooted id _ found).2 (same ▸ acyclic file listed)

/-- A class with a nested class, in which another one is nested; two classes that are hosts of each
other, and a class that is nested in one of them; and a class without its host. -/
def circularBatch : List ClassFile :=
  let nested (name host : String) : ClassFile :=
    { name, flags := ⟨0x20⟩, superClass := some "java/lang/Object", interfaces := [], fields := []
      methods := [], attributes := [.nestHost host], pool := ⟨#[]⟩ }
  [nested "A$B$C" "A$B",
   nested "A$B" "A",
   { name := "A", flags := ⟨0x21⟩, superClass := some "java/lang/Object", interfaces := []
     fields := [], methods := [], attributes := [], pool := ⟨#[]⟩ },
   nested "X" "Y",
   nested "Y" "X",
   nested "X$Z" "X",
   nested "D$E" "D"]

/-- A walk meets the nested classes and the class without its host, but not the two that are hosts
of each other. -/
theorem lowerBatch_rooted_circular :
    ∃ module, (lowerBatch Catalog.standard "M" true circularBatch).result = .ok module ∧
      module.walk 7 module.topLevel = [⟨2⟩, ⟨1⟩, ⟨0⟩, ⟨6⟩] ∧
      module.Rooted ⟨0⟩ ∧ ¬module.Rooted ⟨5⟩ ∧
      ¬Links.RunsIntoCycle (hostName? circularBatch) "A$B$C" ∧
      Links.RunsIntoCycle (hostName? circularBatch) "X$Z" := by
  have evaluated :
      ∃ module ∈ (lowerBatch Catalog.standard "M" true circularBatch).result.toOption,
        module.walk 7 module.topLevel = [⟨2⟩, ⟨1⟩, ⟨0⟩, ⟨6⟩] ∧ module.types.length = 7 ∧
        (module.get? ⟨0⟩).map TypeDef.source = some "A$B$C" ∧
        (module.get? ⟨5⟩).map TypeDef.source = some "X$Z" := by
    decide +kernel
  obtain ⟨module, lowered, walk, size, first, last⟩ := evaluated
  have lowered := Except.eq_ok_of_mem_toOption lowered
  obtain ⟨rooted, walks⟩ := lowerBatch_rooted lowered
  obtain ⟨-, visits, -⟩ := walks 7 (Nat.le_of_eq size)
  rw [walk] at visits
  obtain ⟨firstType, foundFirst, firstName⟩ := Option.map_eq_some_iff.1 first
  obtain ⟨lastType, foundLast, lastName⟩ := Option.map_eq_some_iff.1 last
  have firstRooted := (visits ⟨0⟩).1 (by decide)
  have lastRootless := (visits ⟨5⟩).not.1 (by decide)
  refine ⟨module, lowered, walk, firstRooted, lastRootless, ?_, ?_⟩
  · rw [← firstName]
    exact (rooted _ _ foundFirst).1 firstRooted
  · rw [← lastName]
    exact not_not.1 ((rooted _ _ foundLast).not.1 lastRootless)

/-- A class that is its own host. -/
def selfHosted : ClassFile :=
  { name := "A", flags := ⟨0x21⟩, superClass := some "java/lang/Object", interfaces := [],
    fields := [], methods := [], attributes := [.nestHost "A"], pool := ⟨#[]⟩ }

/-- Not every type of every module leads to the top level. -/
theorem not_rooted_selfHosted :
    ¬∀ (catalog : Catalog) (name : String) (isolate : Bool) (files : List ClassFile)
      (module : Module), (lowerBatch catalog name isolate files).result = .ok module →
      ∀ id type, module.get? id = some type → module.Rooted id := by
  intro claimed
  have evaluated : ∃ module ∈ (lowerBatch Catalog.standard "M" false [selfHosted]).result.toOption,
      module.topLevel = [] ∧ (module.get? ⟨0⟩).isSome := by
    decide +kernel
  obtain ⟨module, lowered, empty, found⟩ := evaluated
  obtain ⟨type, found⟩ := Option.isSome_iff_exists.1 found
  obtain ⟨_, root, listed, -⟩ :=
    claimed _ _ _ _ module (Except.eq_ok_of_mem_toOption lowered) ⟨0⟩ type found
  rw [empty] at listed
  cases listed

end ClassLowering
