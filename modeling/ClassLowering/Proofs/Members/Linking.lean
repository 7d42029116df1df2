import ClassLowering.Proofs.Descriptors
import ClassLowering.Proofs.Passes

/-! # What a resolved reference says about its owner

A search that succeeds ends at a type with exactly one candidate (`Scope.offers_of_search`), and a
signature determines the type that it is resolved from (`source?_of_methodSig`). Methods and fields
are linked alike: a reference names the one member with its name and readable type, and it carries
that member's signature if and only if the descriptors are the same (`MemberKind.links`). -/

namespace ClassLowering

open Target (FieldDef FieldRef MethodDef MethodRef MethodSig TypeDef TypeRef TypeSig)

/-! ## Searching -/

/-- One match is the only one. -/
theorem Found.eq_of_ofMatches {found : List (TypeRef × MemberKey)} {owner : TypeRef}
    {key : MemberKey} (one : Found.ofMatches found = .one owner key) : found = [(owner, key)] := by
  unfold ofMatches at one
  split at one <;> cases one
  rfl

namespace Scope

variable {scope : Scope} {candidates : Surface → List MemberKey}

/-- A type that can be found has exactly one candidate. -/
def Offers (scope : Scope) (candidates : Surface → List MemberKey) (owner : TypeRef)
    (key : MemberKey) : Prop :=
  ∃ name surface, scope.find? name = some (owner, surface) ∧ candidates surface = [key]

/-- A search along superclasses ends at the first type with candidates. -/
theorem offers_of_searchChain {name : String} {seen interfaces : List String} {owner : TypeRef}
    {key : MemberKey}
    (found : scope.searchChain candidates name seen interfaces = .ok (.decided (.one owner key))) :
    scope.Offers candidates owner key := by
  fun_induction Scope.searchChain scope candidates name seen interfaces with
  | case1 => cases found
  | case2 => cases found
  | case3 name seen interfaces fresh other surface listed none seen' interfaces' superName super
    step =>
    exact step found
  | case4 => cases found
  | case5 name seen interfaces fresh other surface listed some =>
    have one := Found.eq_of_ofMatches (ChainFound.decided.inj (Except.ok.inj found))
    obtain ⟨single, same, pair⟩ := List.map_eq_singleton_iff.1 one
    cases pair
    exact ⟨name, surface, listed, same⟩

/-- Each match in interfaces stands among all candidates of its type. -/
theorem sublist_of_searchInterfaces {pending seen : List String}
    {found : List (TypeRef × MemberKey)}
    (searched : (scope.searchInterfaces candidates pending seen).result = .ok found) :
    ∀ pair ∈ found, ∃ name surface, scope.find? name = some (pair.1, surface) ∧
      pair.2 ∈ candidates surface ∧ ((candidates surface).map (pair.1, ·)).Sublist found := by
  fun_induction Scope.searchInterfaces scope candidates pending seen generalizing found with
  | case1 =>
    cases searched
    exact fun _ listed => absurd listed List.not_mem_nil
  | case2 seen name pending known step => exact step searched
  | case3 seen name pending fresh missing step =>
    obtain ⟨-, -, searched⟩ := Logged.bind_eq_ok.1 searched
    exact step searched
  | case4 seen name pending fresh owner surface listed step =>
    obtain ⟨others, remaining, same⟩ := Logged.bind_eq_ok.1 searched
    cases same
    rintro pair member
    -- the matches of one type are found together, in front of those that are found later
    obtain own | other := List.mem_append.1 member
    · obtain ⟨key, candidate, rfl⟩ := List.mem_map.1 own
      exact ⟨name, surface, listed, candidate, List.sublist_append_left _ _⟩
    · obtain ⟨name, surface, listed, candidate, sublist⟩ := step remaining pair other
      exact ⟨name, surface, listed, candidate, sublist.trans (List.sublist_append_right _ _)⟩

/-- A search that finds one member ends at a type with this candidate only. -/
theorem offers_of_search {name : String} {owner : TypeRef} {key : MemberKey}
    (found : (scope.search candidates name).result = .ok (.one owner key)) :
    scope.Offers candidates owner key := by
  obtain ⟨chain, searched, found⟩ := Logged.bind_eq_ok.1 found
  cases chain with
  | decided outcome =>
    cases found
    exact offers_of_searchChain searched
  | exhausted seen interfaces =>
    obtain ⟨all, interfacesSearched, found⟩ := Logged.bind_eq_ok.1 found
    obtain rfl := Found.eq_of_ofMatches (Except.ok.inj found)
    obtain ⟨name, surface, listed, candidate, sublist⟩ :=
      sublist_of_searchInterfaces interfacesSearched _ List.mem_cons_self
    refine ⟨name, surface, listed, ?_⟩
    -- all candidates of the type are among the matches, of which there is only one
    have few := sublist.length_le
    rw [List.length_map] at few
    obtain ⟨other, same⟩ := List.length_eq_one_iff.1
      (Nat.le_antisymm few (List.length_pos_of_mem candidate))
    rw [same] at candidate ⊢
    exact congrArg (fun key => [key]) (List.mem_singleton.1 candidate).symm

/-- A type of the module that is found is at its place. -/
theorem find?_module {name : String} {owner : TypeRef} {surface : Surface} {id : Target.TypeId}
    (found : scope.find? name = some (owner, surface)) (place : owner.origin = .module id) :
    ∃ type, scope.module.get? id = some type ∧ type.surface = surface := by
  unfold find? at found
  split at found
  · cases found
    cases place
  · split at found
    · obtain ⟨type, listed, same⟩ := Option.map_eq_some_iff.1 found
      cases same
      cases place
      exact ⟨type, listed, rfl⟩
    · cases found

end Scope

/-! ## Signatures -/

/-- The type that a signature is resolved from. -/
def Target.TypeSig.source? : TypeSig → Option FieldType
  | .void | .nativeString => none
  | .bool => some .boolean
  | .char => some .char
  | .i8 => some .byte
  | .i16 => some .short
  | .i32 => some .int
  | .i64 => some .long
  | .f32 => some .float
  | .f64 => some .double
  | .object type => some (.object type.name)
  | .array element => element.source?.map .array

/-- The method type that a signature is resolved from. -/
def Target.MethodSig.source? (sig : MethodSig) : Option MethodType :=
  (sig.params.mapM TypeSig.source?).map (⟨·, sig.ret.source?⟩)

namespace Scope

variable {scope : Scope}

/-- A type that a name is resolved to has that name. -/
theorem name_of_resolve {name : String} {type : TypeRef} (found : scope.resolve name = .ok type) :
    type.name = name := by
  rw [resolve_eq] at found
  split at found
  · cases found; rfl
  · split at found <;> cases found
    rfl

/-- The signature of a type determines the type. -/
theorem source?_of_fieldSig {type : FieldType} {sig : TypeSig}
    (found : scope.fieldSig type = .ok sig) : sig.source? = some type := by
  induction type generalizing sig with
  | object name =>
    obtain ⟨resolved, named, rfl⟩ := Except.map_eq_ok.1 found
    rw [TypeSig.source?, name_of_resolve named]
  | array element step =>
    obtain ⟨inner, resolved, rfl⟩ := Except.map_eq_ok.1 found
    rw [TypeSig.source?, step resolved, Option.map_some]
  | _ => cases found; rfl

/-- The signatures of parameters tell the parameters. -/
theorem mapM_source?_of_fieldSig {types : List FieldType} {sigs : List TypeSig}
    (found : types.mapM scope.fieldSig = .ok sigs) : sigs.mapM TypeSig.source? = some types := by
  induction types generalizing sigs with
  | nil => cases found; rfl
  | cons type types step =>
    rw [List.mapM_cons] at found
    obtain ⟨sig, resolved, found⟩ := Except.bind_eq_ok.1 found
    obtain ⟨others, remaining, same⟩ := Except.bind_eq_ok.1 found
    cases same
    rw [List.mapM_cons, source?_of_fieldSig resolved, step remaining]
    rfl

/-- The signature of a result tells the result. -/
theorem source?_of_resultSig {result : Option FieldType} {sig : TypeSig}
    (found : scope.resultSig result = .ok sig) : sig.source? = result := by
  cases result with
  | none => cases found; rfl
  | some type => exact source?_of_fieldSig found

/-- The signature of a method determines its type. -/
theorem source?_of_methodSig {type : MethodType} {hasThis : Bool} {sig : MethodSig}
    (found : scope.methodSig type hasThis = .ok sig) :
    sig.source? = some type ∧ sig.hasThis = hasThis := by
  obtain ⟨params, resolved, found⟩ := Except.bind_eq_ok.1 found
  obtain ⟨ret, resultResolved, same⟩ := Except.bind_eq_ok.1 found
  cases same
  refine ⟨?_, rfl⟩
  rw [MethodSig.source?, mapM_source?_of_fieldSig resolved, Option.map_some,
    source?_of_resultSig resultResolved]

end Scope

/-! ## Kinds of members -/

/-- What methods and fields have in common. -/
structure MemberKind (Def Ty Sig : Type) where
  /-- The members of this kind that a type declares. -/
  members : TypeDef → List Def
  key : Def → MemberKey
  /-- The type that a descriptor spells. -/
  type? : String → Option Ty
  /-- The readable form of a type. -/
  description : Ty → String
  /-- The marks that make readable forms ambiguous when they stand in class names. -/
  marks : List Char
  /-- The signature for a type, of a static member or not. -/
  resolve : Scope → Ty → Bool → Except Error Sig
  /-- The signature of a member, which says whether the member is static. -/
  sig : Def → Sig

namespace MemberKind

/-- Methods; their signatures say whether there is an object to work on. -/
def method : MemberKind MethodDef MethodType MethodSig where
  members := TypeDef.methods
  key method := ⟨method.name, method.descriptor, method.flags.isStatic⟩
  type? := MethodType.ofDescriptor?
  description := MethodType.description
  marks := MethodType.marks
  resolve scope type isStatic := scope.methodSig type !isStatic
  sig := MethodDef.sig

/-- Fields. -/
def field : MemberKind FieldDef FieldType (TypeSig × Bool) where
  members := TypeDef.fields
  key field := ⟨field.name, field.descriptor, field.flags.isStatic⟩
  type? := FieldType.ofDescriptor?
  description := FieldType.description
  marks := FieldType.marks
  resolve scope type isStatic := (·, isStatic) <$> scope.fieldSig type
  sig field := (field.sig, field.flags.isStatic)

variable {Def Ty Sig : Type} (kind : MemberKind Def Ty Sig)

/-- The readable form of a descriptor. -/
def readable? (descriptor : String) : Option String :=
  (kind.type? descriptor).map kind.description

/-- The members with a name and the readable form of a descriptor. -/
def matching (type : TypeDef) (name descriptor : String) : List Def :=
  (kind.members type).filter fun member =>
    (kind.key member).name = name &&
      kind.readable? (kind.key member).descriptor = kind.readable? descriptor

/-- A type declares exactly one member with a name and a signature, under a descriptor. -/
def Declares [DecidableEq Sig] (type : TypeDef) (name : String) (sig : Sig)
    (descriptor : String) : Prop :=
  ∃ member, ((kind.members type).filter fun member =>
      (kind.key member).name = name && kind.sig member = sig) = [member] ∧
    (kind.key member).descriptor = descriptor

/-- No class name in a descriptor holds a mark of readable forms; what a descriptor starts with is
part of no name. -/
def IsPlain (descriptor : String) : Prop :=
  ∀ mark ∈ kind.marks, mark ∉ descriptor.toList.tail

/-- The member that a reference is linked to; the reference has a name, a signature and a
descriptor, and it takes the member to be static or not. -/
structure Links [DecidableEq Sig] (type : TypeDef) (name : String) (sig : Sig) (isStatic : Bool)
    (descriptor : String) (member : Def) : Prop where
  /-- It is the only member with the name and the readable form of the descriptor. -/
  single : kind.matching type name descriptor = [member]
  static : (kind.key member).isStatic = isStatic
  /-- It is declared with the signature if and only if it has the descriptor. -/
  declares_iff :
    kind.Declares type name sig descriptor ↔ (kind.key member).descriptor = descriptor
  /-- It has the descriptor if readable forms are unambiguous. -/
  declares_of_plain : kind.IsPlain descriptor → kind.IsPlain (kind.key member).descriptor →
    kind.Declares type name sig descriptor

/-- A member has the signature that its descriptor stands for. -/
def IsDeclared (scope : Scope) (member : Def) : Prop :=
  ∃ type, kind.type? (kind.key member).descriptor = some type ∧
    kind.resolve scope type (kind.key member).isStatic = .ok (kind.sig member)

/-- Descriptors and signatures determine types, and so do readable forms without marks. -/
structure Lawful : Prop where
  type?_inj : ∀ {first second : String} {type : Ty}, kind.type? first = some type →
    kind.type? second = some type → first = second
  description_inj : ∀ {first second : String} {type other : Ty}, kind.type? first = some type →
    kind.type? second = some other → kind.IsPlain first → kind.IsPlain second →
    kind.description type = kind.description other → type = other
  resolve_inj : ∀ {scope : Scope} {type other : Ty} {isStatic otherStatic : Bool} {sig : Sig},
    kind.resolve scope type isStatic = .ok sig → kind.resolve scope other otherStatic = .ok sig →
    type = other

/-- Methods are told from their descriptors and signatures. -/
theorem lawful_method : method.Lawful where
  type?_inj := MethodType.ofDescriptor?_inj
  description_inj found foundOther plain plainOther same := by
    refine MethodType.description_inj ?_ ?_ same
    · rw [← MethodType.toList_of_ofDescriptor? found]
      exact plain
    · rw [← MethodType.toList_of_ofDescriptor? foundOther]
      exact plainOther
  resolve_inj found foundOther := Option.some.inj
    ((Scope.source?_of_methodSig found).1.symm.trans (Scope.source?_of_methodSig foundOther).1)

/-- Fields are told from their descriptors and signatures. -/
theorem lawful_field : field.Lawful where
  type?_inj := FieldType.ofDescriptor?_inj
  description_inj found foundOther plain plainOther same := by
    refine FieldType.description_inj ?_ ?_ same
    · rw [← FieldType.toList_of_ofDescriptor? found]
      exact plain
    · rw [← FieldType.toList_of_ofDescriptor? foundOther]
      exact plainOther
  resolve_inj found foundOther := by
    obtain ⟨sig, resolved, rfl⟩ := Except.map_eq_ok.1 found
    obtain ⟨other, otherResolved, same⟩ := Except.map_eq_ok.1 foundOther
    cases same
    exact Option.some.inj ((Scope.source?_of_fieldSig resolved).symm.trans
      (Scope.source?_of_fieldSig otherResolved))

section

variable {kind} {scope : Scope} {type : TypeDef} {name descriptor : String}
  {member : Def} {source : Ty} {sig : Sig} (lawful : kind.Lawful)
  (declared : ∀ member ∈ kind.members type, kind.IsDeclared scope member)
  (single : kind.matching type name descriptor = [member])
  (typed : kind.type? descriptor = some source)
  (carried : kind.resolve scope source (kind.key member).isStatic = .ok sig)

/-- The members that match are those with the name whose descriptors read the same. -/
theorem mem_matching {other : Def} : other ∈ kind.matching type name descriptor ↔
    other ∈ kind.members type ∧ (kind.key other).name = name ∧
      kind.readable? (kind.key other).descriptor = kind.readable? descriptor := by
  rw [matching, List.mem_filter, Bool.and_eq_true, decide_eq_true_eq, decide_eq_true_eq]

include lawful declared single typed carried

/-- A member with the signature that a reference carries is the one that it is linked to. -/
theorem eq_of_sig (other : Def) (listed : other ∈ kind.members type)
    (named : (kind.key other).name = name) (same : kind.sig other = sig) : other = member := by
  obtain ⟨otherSource, otherTyped, resolved⟩ := declared other listed
  rw [same] at resolved
  have sources := lawful.resolve_inj resolved carried
  have matched : other ∈ kind.matching type name descriptor := by
    refine mem_matching.2 ⟨listed, named, ?_⟩
    rw [readable?, readable?, otherTyped, typed, sources]
  rw [single] at matched
  exact List.mem_singleton.1 matched

/-- A reference carries the signature of the member that it is linked to if and only if the
descriptors are the same. -/
theorem declares_iff_descriptor [DecidableEq Sig] :
    kind.Declares type name sig descriptor ↔ (kind.key member).descriptor = descriptor := by
  have only := eq_of_sig lawful declared single typed carried
  obtain ⟨listed, alike⟩ := mem_matching.1 (single ▸ List.mem_singleton_self member)
  constructor
  · rintro ⟨other, filtered, same⟩
    have inside := List.mem_filter.1 (filtered ▸ List.mem_singleton_self other)
    rw [Bool.and_eq_true, decide_eq_true_eq, decide_eq_true_eq] at inside
    obtain ⟨otherListed, otherNamed, carries⟩ := inside
    rw [← only other otherListed otherNamed carries]
    exact same
  · intro same
    obtain ⟨own, ownTyped, resolved⟩ := declared member listed
    rw [same, typed] at ownTyped
    cases ownTyped
    rw [carried] at resolved
    refine ⟨member, ?_, same⟩
    -- to carry the signature and to match the call site is the same for the declared members
    rw [← single]
    refine List.filter_congr fun other otherListed => Bool.eq_iff_iff.2 ?_
    rw [Bool.and_eq_true, Bool.and_eq_true, decide_eq_true_eq, decide_eq_true_eq,
      decide_eq_true_eq]
    constructor
    · rintro ⟨otherNamed, carries⟩
      rw [only other otherListed otherNamed carries]
      exact alike
    · rintro ⟨otherNamed, otherAlike⟩
      have matched := mem_matching.2 ⟨otherListed, otherNamed, otherAlike⟩
      rw [single, List.mem_singleton] at matched
      rw [matched]
      exact ⟨alike.1, (Except.ok.inj resolved).symm⟩

/-- A reference is linked to the only member with its name and readable type. -/
theorem links [DecidableEq Sig] :
    kind.Links type name sig (kind.key member).isStatic descriptor member where
  single := single
  static := rfl
  declares_iff := declares_iff_descriptor lawful declared single typed carried
  declares_of_plain plain plainMember := by
    refine (declares_iff_descriptor lawful declared single typed carried).2 ?_
    obtain ⟨listed, -, alike⟩ := mem_matching.1 (single ▸ List.mem_singleton_self member)
    obtain ⟨own, ownTyped, -⟩ := declared member listed
    rw [readable?, readable?, ownTyped, typed, Option.map_some, Option.map_some,
      Option.some.injEq] at alike
    rw [lawful.description_inj ownTyped typed plainMember plain alike] at ownTyped
    exact lawful.type?_inj ownTyped typed

end

/-- A reference is linked to the member that its only candidate is the key of. -/
theorem Lawful.links_of_candidates {kind : MemberKind Def Ty Sig} [DecidableEq Sig]
    (lawful : kind.Lawful) {scope : Scope}
    {type : TypeDef} {name descriptor : String} {source : Ty} {sig : Sig} {key : MemberKey}
    (declared : ∀ member ∈ kind.members type, kind.IsDeclared scope member)
    (typed : kind.type? descriptor = some source)
    (candidates : (((kind.members type).map kind.key).filter fun key => key.name = name &&
      (kind.type? key.descriptor).any (kind.description · = kind.description source)) = [key])
    (carried : kind.resolve scope source key.isStatic = .ok sig) :
    ∃ member, kind.Links type name sig key.isStatic descriptor member := by
  rw [List.filter_map, List.map_eq_singleton_iff] at candidates
  obtain ⟨member, single, rfl⟩ := candidates
  refine ⟨member, links lawful declared ?_ typed carried⟩
  rw [← single]
  refine List.filter_congr fun other listed => ?_
  obtain ⟨own, ownTyped, -⟩ := declared other listed
  rw [Function.comp_apply, readable?, readable?, ownTyped, typed, Option.map_some, Option.map_some,
    Option.any_some]
  simp only [Option.some.injEq]

end MemberKind

/-! ## Resolved references -/

namespace Scope

variable {scope : Scope} {reference : MemberReference} {id : Target.TypeId}

/-- A reference that is resolved to a method of the module is linked to it. -/
theorem links_of_method {found : MethodRef} (resolved : (scope.method reference).result = .ok found)
    (place : found.owner.origin = .module id) :
    ∃ declared, scope.module.get? id = some declared ∧
      ∀ type : TypeDef, type.surface = declared.surface →
        (∀ method ∈ type.methods, MemberKind.method.IsDeclared scope method) →
        ∃ method, MemberKind.method.Links type found.name found.sig (!found.sig.hasThis)
          reference.descriptor method := by
  obtain ⟨-, -, resolved⟩ := Logged.bind_eq_ok.1 resolved
  obtain ⟨source, typed, resolved⟩ := Logged.bind_eq_ok.1 resolved
  obtain ⟨outcome, searched, resolved⟩ := Logged.bind_eq_ok.1 resolved
  -- only a single match gives a reference
  cases outcome with
  | missing => cases resolved
  | many count => cases resolved
  | one owner key =>
    obtain ⟨-, -, resolved⟩ := Logged.bind_eq_ok.1 resolved
    obtain ⟨sig, carried, same⟩ := Logged.bind_eq_ok.1 resolved
    cases same
    obtain ⟨name, surface, listed, candidates⟩ := offers_of_search searched
    obtain ⟨declared, stored, rfl⟩ := find?_module listed place
    refine ⟨declared, stored, fun type surfaces all => ?_⟩
    -- the match was found by the surface of the type, which it keeps when it is completed
    rw [← surfaces] at candidates
    have typed := MethodType.ofDescriptor_eq_ok.1 typed
    obtain ⟨method, links⟩ :=
      MemberKind.lawful_method.links_of_candidates all typed candidates carried
    rw [← Bool.not_not key.isStatic, ← (source?_of_methodSig carried).2] at links
    exact ⟨method, links⟩

/-- A reference that is resolved to a field of the module is linked to it. -/
theorem links_of_field {found : FieldRef} (resolved : (scope.field reference).result = .ok found)
    (place : found.owner.origin = .module id) :
    ∃ declared, scope.module.get? id = some declared ∧
      ∀ type : TypeDef, type.surface = declared.surface →
        (∀ field ∈ type.fields, MemberKind.field.IsDeclared scope field) →
        ∃ field, MemberKind.field.Links type found.name (found.sig, found.isStatic) found.isStatic
          reference.descriptor field := by
  obtain ⟨-, -, resolved⟩ := Logged.bind_eq_ok.1 resolved
  obtain ⟨source, typed, resolved⟩ := Logged.bind_eq_ok.1 resolved
  obtain ⟨outcome, searched, resolved⟩ := Logged.bind_eq_ok.1 resolved
  cases outcome with
  | missing => cases resolved
  | many count => cases resolved
  | one owner key =>
    obtain ⟨sig, carried, same⟩ := Logged.bind_eq_ok.1 resolved
    cases same
    obtain ⟨name, surface, listed, candidates⟩ := offers_of_search searched
    obtain ⟨declared, stored, rfl⟩ := find?_module listed place
    refine ⟨declared, stored, fun type surfaces all => ?_⟩
    rw [← surfaces] at candidates
    have typed := FieldType.ofDescriptor_eq_ok.1 typed
    exact MemberKind.lawful_field.links_of_candidates all typed candidates
      (Except.map_eq_ok.2 ⟨sig, carried, rfl⟩)

end Scope

end ClassLowering
