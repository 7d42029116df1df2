import Mathlib.Data.List.Induction
import ClassLowering.Proofs.Passes

/-! # Every type has one place

A type of a module is listed either at the top level or below the one type that encloses it, in the
order in which the classes were registered. Classes are attached one after the other, whether they
are completed or not, so while a batch is lowered this holds for the classes that have been attached
(`Target.Module.Attached`), and attaching one more class keeps it (`Target.Module.Attached.finish`).
As long as it holds, the places of a module tell which classes have been attached
(`Target.Module.Attached.isAttached_iff`). -/

namespace ClassLowering

open Target (Module TypeDef TypeId)

/-! ## What completing a class changes -/

namespace Completion

variable (completion : Completion)

/-- Contents do not change where a type is placed. -/
@[simp] theorem enclosing_fill (type : TypeDef) :
    (completion.fill type).enclosing = type.enclosing := by
  unfold fill
  split <;> rfl

/-- Contents do not change which types are placed in a type. -/
@[simp] theorem nested_fill (type : TypeDef) : (completion.fill type).nested = type.nested := by
  unfold fill
  split <;> rfl

variable (id : TypeId) (index : Nat) (type : TypeDef)

/-- The type of a class gets the host as its enclosing type. -/
theorem enclosing_touch :
    (completion.touch id index type).enclosing =
      if id.index = index then completion.host.or type.enclosing else type.enclosing := by
  unfold touch
  by_cases own : id.index = index <;> by_cases hosts : completion.host = some ⟨index⟩ <;>
    simp [own, hosts]

/-- The type of the host gets the class as a nested one. -/
theorem nested_touch :
    (completion.touch id index type).nested =
      type.nested ++ if completion.host = some ⟨index⟩ then [id] else [] := by
  unfold touch
  by_cases own : id.index = index <;> by_cases hosts : completion.host = some ⟨index⟩ <;>
    simp [own, hosts]

variable (module : Module)

/-- A type after a class has been completed, and the type that it was before. -/
theorem get?_finish_eq_some {id : TypeId} {place : TypeId} {type : TypeDef} :
    (completion.finish id module).get? place = some type ↔
      ∃ before, module.get? place = some before ∧
        completion.touch id place.index before = type := by
  rw [Module.get?, getElem?_types_finish, Option.map_eq_some_iff]
  rfl

/-- Of the lists of nested types, that of the host gets longer. -/
theorem map_nested_finish :
    (completion.finish id module).types.map TypeDef.nested =
      match completion.host with
      | none => module.types.map TypeDef.nested
      | some host => (module.types.map TypeDef.nested).modify host.index (· ++ [id]) := by
  refine List.ext_getElem? fun index => ?_
  rw [List.getElem?_map, getElem?_types_finish, Option.map_map]
  cases hosts : completion.host with
  | none =>
    rw [List.getElem?_map]
    congr 1
    funext type
    rw [Function.comp_apply, nested_touch, hosts, if_neg (by simp), List.append_nil]
  | some host =>
    rw [List.getElem?_modify, List.getElem?_map, Option.map_eq_map, Option.map_map]
    congr 1
    funext type
    rw [Function.comp_apply, nested_touch, hosts]
    simp only [TypeId.some_eq_some_mk, Function.comp_apply]
    split
    · rfl
    · exact List.append_nil _

end Completion

/-! ## Lists of places -/

/-- One more element in one of several lists is one more element altogether. -/
theorem perm_flatten_modify {α : Type} {lists : List (List α)} {index : Nat}
    (inside : index < lists.length) (item : α) :
    ((lists.modify index (· ++ [item])).flatten).Perm (lists.flatten ++ [item]) := by
  induction lists generalizing index with
  | nil => cases inside
  | cons first lists induction =>
    cases index with
    | zero =>
      rw [List.modify_zero_cons, List.flatten_cons, List.flatten_cons, List.append_assoc,
        List.append_assoc]
      exact List.perm_append_comm.append_left first
    | succ index =>
      rw [List.modify_succ_cons, List.flatten_cons, List.flatten_cons, List.append_assoc]
      exact (induction (Nat.lt_of_succ_lt_succ inside)).append_left first

section

variable {ids : List TypeId} {count : Nat} (below : ∀ id ∈ ids, id.index < count) (added : Prop)
  [Decidable added]

include below

/-- A place that is added is in a list of earlier places, and nothing else changes. -/
theorem mem_append_place (id : TypeId) :
    id ∈ (ids ++ if added then [⟨count⟩] else []) ↔
      if count = id.index then added else id ∈ ids := by
  have last : id ∈ (if added then [⟨count⟩] else [] : List TypeId) ↔ added ∧ count = id.index := by
    split
    · next adds =>
      rw [List.mem_singleton]
      exact ⟨fun same => ⟨adds, same ▸ rfl⟩, fun same => congrArg TypeId.mk same.2.symm⟩
    · next keeps =>
      exact ⟨fun listed => absurd listed List.not_mem_nil, fun same => absurd same.1 keeps⟩
  rw [List.mem_append, last]
  split
  · next own =>
    have fresh : id ∉ ids := fun listed => absurd (below id listed) (by omega)
    exact ⟨fun listed => (listed.resolve_left fresh).1, fun adds => .inr ⟨adds, own⟩⟩
  · next other => exact ⟨fun listed => listed.resolve_right fun same => other same.2, .inl⟩

/-- A list of places stays ascending if a later place is added. -/
theorem pairwise_append_place (ascending : ids.Pairwise (·.index < ·.index)) :
    (ids ++ if added then [⟨count⟩] else [] : List TypeId).Pairwise (·.index < ·.index) := by
  refine List.pairwise_append.2 ⟨ascending, ?_, fun id listed last more => ?_⟩
  · split <;> simp
  · split at more
    · rw [List.mem_singleton.1 more]
      exact below id listed
    · cases more

end

/-! ## Attaching classes one after the other -/

namespace Target.Module

/-- The first `count` types have their places, and no other type has one. -/
structure Attached (module : Module) (count : Nat) : Prop where
  /-- The places of these types are listed once each, and no others. -/
  once : (module.topLevel ++ module.types.flatMap TypeDef.nested).Perm
    ((List.range count).map TypeId.mk)
  /-- Types are nested in the types that enclose them. -/
  nested_iff : ∀ {id : TypeId} {type : TypeDef}, module.get? id = some type → ∀ host,
    type.enclosing = some host ↔ ∃ above, module.get? host = some above ∧ id ∈ above.nested
  /-- The other types are at the top level. -/
  topLevel_iff : ∀ {id : TypeId} {type : TypeDef}, module.get? id = some type → id.index < count →
    (type.enclosing = none ↔ id ∈ module.topLevel)
  topLevel_ascending : module.topLevel.Pairwise (·.index < ·.index)
  nested_ascending : ∀ type ∈ module.types, type.nested.Pairwise (·.index < ·.index)

namespace Attached

variable {module : Module} {count : Nat} (attached : module.Attached count)

include attached

/-- Only types that are placed are listed anywhere. -/
theorem lt_of_mem {id : TypeId}
    (listed : id ∈ module.topLevel ++ module.types.flatMap TypeDef.nested) : id.index < count := by
  obtain ⟨index, inside, rfl⟩ := List.mem_map.1 (attached.once.mem_iff.1 listed)
  exact List.mem_range.1 inside

/-- Types of the top level are placed. -/
theorem lt_of_mem_topLevel : ∀ id ∈ module.topLevel, id.index < count :=
  fun _ listed => attached.lt_of_mem (List.mem_append_left _ listed)

/-- Types in a type are placed. -/
theorem lt_of_mem_nested {type : TypeDef} (stored : type ∈ module.types) :
    ∀ id ∈ type.nested, id.index < count :=
  fun _ listed => attached.lt_of_mem
    (List.mem_append_right _ (List.mem_flatMap.2 ⟨type, stored, listed⟩))

/-- A type that has no place yet is not enclosed. -/
theorem enclosing_eq_none {id : TypeId} {type : TypeDef} (found : module.get? id = some type)
    (free : count ≤ id.index) : type.enclosing = none := by
  cases encloses : type.enclosing with
  | none => rfl
  | some host =>
    obtain ⟨above, stored, listed⟩ := (attached.nested_iff found host).1 encloses
    have := attached.lt_of_mem_nested (List.mem_of_getElem? stored) id listed
    omega

/-- The places of a module tell the types that have been attached from the others. -/
theorem isAttached_iff {id : TypeId} (inside : id.index < module.types.length) :
    module.isAttached id = true ↔ id.index < count := by
  have found : module.get? id = some (module.types.get ⟨id.index, inside⟩) :=
    List.getElem?_eq_getElem inside
  generalize module.types.get ⟨id.index, inside⟩ = type at found
  rw [isAttached, found, Bool.or_eq_true, Option.any_some, List.contains_iff_mem]
  constructor
  · rintro (enclosed | listed)
    · by_contra free
      rw [attached.enclosing_eq_none found (Nat.le_of_not_lt free)] at enclosed
      cases enclosed
    · exact attached.lt_of_mem_topLevel id listed
  · intro placed
    cases encloses : type.enclosing with
    | some host => exact .inl rfl
    | none => exact .inr ((attached.topLevel_iff found placed).1 encloses)

/-- After the next class has been attached, a type is enclosed by what enclosed it before, and the
type of the class by its host. -/
theorem enclosing_finish {completion : Completion} {id : TypeId} {before : TypeDef}
    (stored : module.get? id = some before) :
    (completion.touch ⟨count⟩ id.index before).enclosing =
      if count = id.index then completion.host else before.enclosing := by
  rw [completion.enclosing_touch]
  split
  · next own => rw [attached.enclosing_eq_none stored (Nat.le_of_eq own), Option.or_none]
  · rfl

/-- After the next class has been attached, its host lists it as well. -/
theorem mem_nested_finish {completion : Completion} {host : TypeId} {above : TypeDef}
    (stored : module.get? host = some above) (id : TypeId) :
    id ∈ (completion.touch ⟨count⟩ host.index above).nested ↔
      if count = id.index then completion.host = some host else id ∈ above.nested := by
  rw [completion.nested_touch]
  exact mem_append_place (attached.lt_of_mem_nested (List.mem_of_getElem? stored)) _ id

section

variable {completion : Completion}
  (hosted : ∀ host ∈ completion.host, host.index < module.types.length)

include hosted

/-- The type of the next class is listed once more than before, at the top level or in its host. -/
theorem once_finish :
    ((completion.finish ⟨count⟩ module).topLevel ++
      (completion.finish ⟨count⟩ module).types.flatMap TypeDef.nested).Perm
      ((List.range (count + 1)).map TypeId.mk) := by
  have last : (List.range (count + 1)).map TypeId.mk =
      (List.range count).map TypeId.mk ++ [⟨count⟩] := by
    rw [List.range_succ, List.map_append, List.map_singleton]
  have before := attached.once.append_right [⟨count⟩]
  rw [List.append_assoc] at before
  rw [last, completion.topLevel_finish, List.flatMap_def, completion.map_nested_finish]
  cases hosts : completion.host with
  | none =>
    rw [if_pos rfl, List.append_assoc, ← List.flatMap_def]
    exact (List.perm_append_comm.append_left _).trans before
  | some host =>
    have inside : host.index < (module.types.map TypeDef.nested).length := by
      rw [List.length_map]
      exact hosted host hosts
    have longer := perm_flatten_modify inside (⟨count⟩ : TypeId)
    rw [← List.flatMap_def] at longer
    rw [if_neg (by simp), List.append_nil]
    exact (longer.append_left _).trans before

/-- A type that lists another one encloses it, also after the next class has been attached. -/
theorem nested_iff_finish {id : TypeId} {type : TypeDef}
    (found : (completion.finish ⟨count⟩ module).get? id = some type) (host : TypeId) :
    type.enclosing = some host ↔
      ∃ above, (completion.finish ⟨count⟩ module).get? host = some above ∧ id ∈ above.nested := by
  obtain ⟨before, stored, rfl⟩ := (completion.get?_finish_eq_some module).1 found
  rw [attached.enclosing_finish stored]
  by_cases own : count = id.index
  · rw [if_pos own]
    constructor
    · intro hosts
      have storedHost := List.getElem?_eq_getElem (hosted host hosts)
      refine ⟨_, (completion.get?_finish_eq_some module).2 ⟨_, storedHost, rfl⟩, ?_⟩
      rw [attached.mem_nested_finish storedHost, if_pos own]
      exact hosts
    · rintro ⟨_, foundAbove, listed⟩
      obtain ⟨above, storedAbove, rfl⟩ := (completion.get?_finish_eq_some module).1 foundAbove
      rw [attached.mem_nested_finish storedAbove, if_pos own] at listed
      exact listed
  -- another type is listed where it was before
  · rw [if_neg own, attached.nested_iff stored host]
    constructor
    · rintro ⟨above, storedAbove, listed⟩
      refine ⟨_, (completion.get?_finish_eq_some module).2 ⟨above, storedAbove, rfl⟩, ?_⟩
      rw [attached.mem_nested_finish storedAbove, if_neg own]
      exact listed
    · rintro ⟨_, foundAbove, listed⟩
      obtain ⟨above, storedAbove, rfl⟩ := (completion.get?_finish_eq_some module).1 foundAbove
      rw [attached.mem_nested_finish storedAbove, if_neg own] at listed
      exact ⟨above, storedAbove, listed⟩

/-- The first types have their places, and the type of the next class gets one. -/
theorem finish : (completion.finish ⟨count⟩ module).Attached (count + 1) where
  once := attached.once_finish hosted
  nested_iff := attached.nested_iff_finish hosted
  topLevel_iff := by
    intro id type found inside
    obtain ⟨before, stored, rfl⟩ := (completion.get?_finish_eq_some module).1 found
    rw [attached.enclosing_finish stored, completion.topLevel_finish,
      mem_append_place attached.lt_of_mem_topLevel]
    by_cases own : count = id.index
    · rw [if_pos own, if_pos own]
    · rw [if_neg own, if_neg own]
      exact attached.topLevel_iff stored (by omega)
  topLevel_ascending := by
    rw [completion.topLevel_finish]
    exact pairwise_append_place attached.lt_of_mem_topLevel _ attached.topLevel_ascending
  nested_ascending := by
    intro type listed
    obtain ⟨index, given⟩ := List.mem_iff_getElem?.1 listed
    have found : (completion.finish ⟨count⟩ module).get? ⟨index⟩ = some type := given
    obtain ⟨before, stored, rfl⟩ := (completion.get?_finish_eq_some module).1 found
    have member := List.mem_of_getElem? stored
    rw [completion.nested_touch]
    exact pairwise_append_place (attached.lt_of_mem_nested member) _
      (attached.nested_ascending before member)

end

end Attached

section

variable {module : Module} {id : TypeId} (attached : module.Attached id.index)
  (inside : id.index < module.types.length)

include attached inside

/-- The next class has no place yet, and the module tells so. -/
theorem Attached.not_isAttached : ¬module.isAttached id := by
  rw [attached.isAttached_iff inside]
  exact Nat.lt_irrefl _

/-- The next class has a place once it is attached, and the module tells so. -/
theorem Attached.isAttached_attach {host : Option TypeId}
    (hosted : ∀ above ∈ host, above.index < module.types.length) :
    (module.attach id host).isAttached id := by
  have next : (Completion.finish ⟨host, none⟩ id module).Attached (id.index + 1) :=
    attached.finish hosted
  rw [Completion.finish_of_none] at next
  rw [← module.length_types_attach id host] at inside
  exact (next.isAttached_iff inside).2 (Nat.lt_succ_self _)

end

/-- No type has a place in the beginning. -/
theorem attached_zero {name : String} {types : List TypeDef}
    (free : ∀ type ∈ types, type.enclosing = none ∧ type.nested = []) :
    Attached { name, types } 0 where
  once := by
    have none : types.flatMap TypeDef.nested = [] :=
      List.flatMap_eq_nil_iff.2 fun type listed => (free type listed).2
    rw [none]
    exact .refl _
  nested_iff := by
    intro id type found host
    rw [(free type (List.mem_of_getElem? found)).1]
    constructor
    · intro encloses
      cases encloses
    · rintro ⟨above, stored, listed⟩
      rw [(free above (List.mem_of_getElem? stored)).2] at listed
      cases listed
  topLevel_iff := by
    intro id type found inside
    cases inside
  topLevel_ascending := .nil
  nested_ascending := by
    intro type listed
    rw [(free type listed).2]
    exact .nil

end Target.Module

/-- When some classes have been attached, these have their places. -/
theorem attached_assemble {name : String} {declared : List TypeDef} {completions : List Completion}
    (free : ∀ type ∈ declared, type.enclosing = none ∧ type.nested = [])
    (hosts : ∀ completion ∈ completions, ∀ host ∈ completion.host, host.index < declared.length) :
    (assemble name declared completions).Attached completions.length := by
  -- the last class is attached to a module where the others have been attached
  induction completions using List.reverseRecOn with
  | nil =>
    rw [assemble_nil]
    exact Module.attached_zero free
  | append_singleton completions last induction =>
    have before :=
      induction fun completion listed => hosts completion (List.mem_append_left _ listed)
    rw [← finish_assemble, List.length_append, List.length_singleton]
    refine before.finish fun host given => ?_
    have size : (assemble name declared completions).types.length = declared.length :=
      List.length_mapIdx
    rw [size]
    exact hosts last (List.mem_append_right _ (List.mem_singleton_self last)) host given

end ClassLowering
