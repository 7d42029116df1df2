import Mathlib.Data.List.Perm.Basic
import Mathlib.Logic.Relation
import ClassLowering.Proofs.Links
import ClassLowering.Proofs.References.Resolution

/-! # What a search for a member finds

The types above a class may form any graph: superclasses may lead back to the class, interfaces may
be reached in several ways, and names may have no type. `Scope.Answers` says what a search has to
find there without saying how. The first class on the way up that has a match decides; if none has
one, all types that are reached through interfaces count, each of them once. The search finds
exactly this (`Scope.answers_iff`), for methods and for fields (`Scope.method_field_answers`). -/

namespace ClassLowering

open Links (follow)
open Relation (ReflTransGen TransGen)
open Target (FieldRef MethodRef TypeRef)

/-! ## Matches -/

namespace Found

/-- What matches amount to: nothing, the one member, or their number. -/
inductive StandsFor : Found → List (TypeRef × MemberKey) → Prop
  | missing : StandsFor .missing []
  | one (owner : TypeRef) (key : MemberKey) : StandsFor (.one owner key) [(owner, key)]
  | many {found : List (TypeRef × MemberKey)} (several : 2 ≤ found.length) :
    StandsFor (.many found.length) found

/-- What matches are taken for stands for them. -/
theorem standsFor_ofMatches (found : List (TypeRef × MemberKey)) :
    (Found.ofMatches found).StandsFor found := by
  match found with
  | [] => exact .missing
  | [(owner, key)] => exact .one owner key
  | first :: second :: rest => exact .many (by simp)

/-- Matches amount to the same in any order. -/
theorem StandsFor.eq_of_perm {first second : List (TypeRef × MemberKey)} {outcome other : Found}
    (stands : outcome.StandsFor first) (standsOther : other.StandsFor second)
    (same : first.Perm second) : outcome = other := by
  have size := same.length_eq
  cases stands with
  | missing =>
    cases standsOther with
    | missing => rfl
    | one => simp at size
    | many several => simp [← size] at several
  | one owner key =>
    cases standsOther with
    | missing => simp at size
    | one => cases List.singleton_perm_singleton.1 same; rfl
    | many several => simp [← size] at several
  | many several =>
    cases standsOther with
    | missing => simp [size] at several
    | one => simp [size] at several
    | many => rw [size]

end Found

namespace Scope

/-! ## The types above a class -/

section

variable (scope : Scope) (candidates : Surface → List MemberKey)

/-- The superclass that the type with a name has. -/
def superName? (name : String) : Option String := (scope.find? name).bind (·.2.superName)

/-- The type with a name lists an interface. -/
def Implements (name interface : String) : Prop :=
  ∃ owner surface, scope.find? name = some (owner, surface) ∧ interface ∈ surface.interfaces

/-- The matches in the type with a name. -/
def matchesIn (name : String) : List (TypeRef × MemberKey) :=
  match scope.find? name with
  | some (owner, surface) => (candidates surface).map (owner, ·)
  | none => []

/-- The name has a type, and there is no match in it. -/
def Lacks (name : String) : Prop :=
  (scope.find? name).isSome ∧ scope.matchesIn candidates name = []

/-- The name is that of a class or of one of its superclasses. Superclasses that come again add
none. -/
def OnChain (root name : String) : Prop := ∃ steps, follow scope.superName? steps root = some name

/-- All that is passed on the way from a class up to a superclass has a type without a match. -/
def Leads (root name : String) : Prop :=
  ∃ steps, follow scope.superName? steps root = some name ∧
    ∀ earlier < steps, ∀ lower ∈ follow scope.superName? earlier root, scope.Lacks candidates lower

/-- The list holds, each of them once, the names that are reached from a class and its superclasses
through interfaces, have a type and are not themselves on the way up. -/
structure IsClosure (root : String) (names : List String) : Prop where
  nodup : names.Nodup
  mem_iff : ∀ name, name ∈ names ↔
    (scope.find? name).isSome ∧ ¬scope.OnChain root name ∧
      ∃ lower, scope.OnChain root lower ∧ TransGen scope.Implements lower name

/-- The outcomes that a search from a class may have. -/
inductive Answers (root : String) : Except Error Found → Prop
  /-- The first class with a match decides. -/
  | decided {name : String} {found : Found} (leads : scope.Leads candidates root name)
      (offers : scope.matchesIn candidates name ≠ [])
      (stands : found.StandsFor (scope.matchesIn candidates name)) : Answers root (.ok found)
  /-- A superclass without a type is needed before. -/
  | unresolved {name : String} (leads : scope.Leads candidates root name)
      (unknown : scope.find? name = none) : Answers root (.error (.resolution (.unknownClass name)))
  /-- No class has a match, and all types that are reached through interfaces count. -/
  | collected {names : List String} {found : Found}
      (lacking : ∀ name, scope.OnChain root name → scope.Lacks candidates name)
      (closure : scope.IsClosure root names)
      (stands : found.StandsFor (names.flatMap (scope.matchesIn candidates))) :
        Answers root (.ok found)

end

variable {scope : Scope} {candidates : Surface → List MemberKey} {root : String}

/-- The superclass of a class that is found is the one of its surface. -/
theorem superName?_of_find? {name : String} {owner : TypeRef} {surface : Surface}
    (found : scope.find? name = some (owner, surface)) :
    scope.superName? name = surface.superName := by
  rw [superName?, found, Option.bind_some]

/-- The interfaces of a class that is found are those of its surface. -/
theorem implements_of_find? {name interface : String} {owner : TypeRef} {surface : Surface}
    (found : scope.find? name = some (owner, surface)) :
    scope.Implements name interface ↔ interface ∈ surface.interfaces := by
  constructor
  · rintro ⟨other, otherSurface, foundOther, listed⟩
    rw [found] at foundOther
    cases foundOther
    exact listed
  · exact fun listed => ⟨owner, surface, found, listed⟩

/-- The matches in a class that is found are the candidates in its surface. -/
theorem matchesIn_of_find? {name : String} {owner : TypeRef} {surface : Surface}
    (found : scope.find? name = some (owner, surface)) :
    scope.matchesIn candidates name = (candidates surface).map (owner, ·) := by
  rw [matchesIn, found]

/-! ## There is one answer -/

/-- What a search is led to is a superclass. -/
theorem Leads.onChain {name : String} (leads : scope.Leads candidates root name) :
    scope.OnChain root name := by
  obtain ⟨steps, reached, -⟩ := leads
  exact ⟨steps, reached⟩

/-- The first type on the way up that is missing or has a match is one type. -/
theorem Leads.unique {name other : String} (leads : scope.Leads candidates root name)
    (stops : ¬scope.Lacks candidates name) (leadsOther : scope.Leads candidates root other)
    (stopsOther : ¬scope.Lacks candidates other) : name = other := by
  obtain ⟨steps, reached, passed⟩ := leads
  obtain ⟨more, reachedOther, passedOther⟩ := leadsOther
  rcases Nat.lt_trichotomy steps more with earlier | rfl | later
  · exact absurd (passedOther steps earlier name reached) stops
  · exact Option.some.inj (reached.symm.trans reachedOther)
  · exact absurd (passed more later other reachedOther) stopsOther

/-- A class with a match does not lack one. -/
theorem not_lacks_of_offers {name : String} (offers : scope.matchesIn candidates name ≠ []) :
    ¬scope.Lacks candidates name :=
  fun lacks => offers lacks.2

/-- An unknown class does not lack a match, since nobody knows. -/
theorem not_lacks_of_unknown {name : String} (unknown : scope.find? name = none) :
    ¬scope.Lacks candidates name := by
  rintro ⟨found, -⟩
  simp [unknown] at found

/-- All enumerations of what is reached through interfaces are the same up to order. -/
theorem IsClosure.perm {first second : List String} (closure : scope.IsClosure root first)
    (closureSecond : scope.IsClosure root second) : first.Perm second := by
  refine (List.perm_ext_iff_of_nodup closure.nodup closureSecond.nodup).2 fun name => ?_
  rw [closure.mem_iff, closureSecond.mem_iff]

/-- There is one answer only. -/
theorem Answers.unique {outcome other : Except Error Found}
    (answers : scope.Answers candidates root outcome)
    (answersOther : scope.Answers candidates root other) : outcome = other := by
  -- the way up from the root is one, so both answers stop at the same class or at none
  cases answers with
  | decided leads offers stands =>
    have stops := not_lacks_of_offers offers
    cases answersOther with
    | decided leadsOther offersOther standsOther =>
      obtain rfl := leads.unique stops leadsOther (not_lacks_of_offers offersOther)
      rw [stands.eq_of_perm standsOther (List.Perm.refl _)]
    | unresolved leadsOther unknown =>
      obtain rfl := leads.unique stops leadsOther (not_lacks_of_unknown unknown)
      simp [matchesIn, unknown] at offers
    | collected lacking => exact absurd (lacking _ leads.onChain) stops
  | unresolved leads unknown =>
    have stops : ¬scope.Lacks candidates _ := not_lacks_of_unknown unknown
    cases answersOther with
    | decided leadsOther offersOther standsOther =>
      obtain rfl := leads.unique stops leadsOther (not_lacks_of_offers offersOther)
      simp [matchesIn, unknown] at offersOther
    | unresolved leadsOther unknownOther =>
      rw [leads.unique stops leadsOther (not_lacks_of_unknown unknownOther)]
    | collected lacking => exact absurd (lacking _ leads.onChain) stops
  | collected lacking closure stands =>
    cases answersOther with
    | decided leads offers => exact absurd (lacking _ leads.onChain) (not_lacks_of_offers offers)
    | unresolved leads unknown =>
      exact absurd (lacking _ leads.onChain) (not_lacks_of_unknown unknown)
    | collected _ closureOther standsOther =>
      have same := (closure.perm closureOther).flatMap_right (scope.matchesIn candidates)
      rw [stands.eq_of_perm standsOther same]

/-! ## The way up -/

variable (scope candidates root) in
/-- How far a search has come: it is at a class, and it has seen all that is below. -/
structure Climbed (name : String) (seen interfaces : List String) : Prop where
  /-- All that was passed has been seen. -/
  reached : ∃ steps, follow scope.superName? steps root = some name ∧
    ∀ earlier < steps, ∀ lower ∈ follow scope.superName? earlier root, lower ∈ seen
  onChain : ∀ lower ∈ seen, scope.OnChain root lower
  lacking : ∀ lower ∈ seen, scope.Lacks candidates lower
  /-- Only the class at hand is above what has been seen. -/
  closed : ∀ lower ∈ seen, ∀ upper ∈ scope.superName? lower, upper ∈ seen ∨ upper = name
  listed : ∀ interface, interface ∈ interfaces ↔ ∃ lower ∈ seen, scope.Implements lower interface

variable (scope candidates root) in
/-- A search has seen the whole way up. -/
structure Exhausted (seen interfaces : List String) : Prop where
  mem_seen : ∀ name, name ∈ seen ↔ scope.OnChain root name
  lacking : ∀ lower ∈ seen, scope.Lacks candidates lower
  listed : ∀ interface, interface ∈ interfaces ↔ ∃ lower ∈ seen, scope.Implements lower interface

/-- A search starts at the root and has seen nothing. -/
theorem climbed_start : scope.Climbed candidates root root [] [] where
  reached := ⟨0, rfl, by simp⟩
  onChain := by simp
  lacking := by simp
  closed := by simp
  listed := by simp

namespace Climbed

variable {name : String} {seen interfaces : List String}

/-- A search that has come to a class was led there. -/
theorem leads (climbed : scope.Climbed candidates root name seen interfaces) :
    scope.Leads candidates root name := by
  obtain ⟨steps, reached, passed⟩ := climbed.reached
  exact ⟨steps, reached, fun earlier less lower below =>
    climbed.lacking lower (passed earlier less lower below)⟩

/-- The class that the search started from is the first that it sees. -/
theorem root_mem (climbed : scope.Climbed candidates root name seen interfaces) :
    root = name ∨ root ∈ seen := by
  obtain ⟨steps, reached, passed⟩ := climbed.reached
  cases steps with
  | zero => exact .inl (Option.some.inj reached)
  | succ steps => exact .inr (passed 0 (Nat.succ_pos steps) root rfl)

/-- A search has seen the whole way up once nothing unseen is above. -/
theorem exhausted_of_closed (onChain : ∀ lower ∈ seen, scope.OnChain root lower)
    (lacking : ∀ lower ∈ seen, scope.Lacks candidates lower)
    (listed : ∀ interface, interface ∈ interfaces ↔
      ∃ lower ∈ seen, scope.Implements lower interface)
    (start : root ∈ seen)
    (closed : ∀ lower ∈ seen, ∀ upper ∈ scope.superName? lower, upper ∈ seen) :
    scope.Exhausted candidates root seen interfaces where
  mem_seen name := by
    refine ⟨onChain name, ?_⟩
    rintro ⟨steps, reached⟩
    exact Links.mem_of_follow closed start reached
  lacking := lacking
  listed := listed

/-- The way up comes back to a class that has been seen. -/
theorem exhausted_of_mem (climbed : scope.Climbed candidates root name seen interfaces)
    (again : name ∈ seen) : scope.Exhausted candidates root seen interfaces := by
  refine exhausted_of_closed climbed.onChain climbed.lacking climbed.listed ?_ ?_
  · rcases climbed.root_mem with rfl | start
    · exact again
    · exact start
  · intro lower below upper above
    rcases climbed.closed lower below upper above with inside | rfl
    · exact inside
    · exact again

section

variable {owner : TypeRef} {surface : Surface}
  (climbed : scope.Climbed candidates root name seen interfaces)
  (found : scope.find? name = some (owner, surface)) (none : candidates surface = [])

include climbed found

/-- The class that a search is at is a superclass, like those that it has seen. -/
theorem onChain_cons : ∀ lower ∈ name :: seen, scope.OnChain root lower := by
  intro lower below
  rcases List.mem_cons.1 below with rfl | below
  · exact climbed.leads.onChain
  · exact climbed.onChain lower below

/-- With the class that a search is at, the interfaces of all that it has seen are listed. -/
theorem listed_append (interface : String) : interface ∈ interfaces ++ surface.interfaces ↔
    ∃ lower ∈ name :: seen, scope.Implements lower interface := by
  simp only [List.mem_append, climbed.listed, List.mem_cons, exists_eq_or_imp,
    implements_of_find? found, or_comm]

include none

/-- If the class that a search is at has no match, then nothing that it has seen has one. -/
theorem lacking_cons : ∀ lower ∈ name :: seen, scope.Lacks candidates lower := by
  intro lower below
  rcases List.mem_cons.1 below with rfl | below
  · refine ⟨by simp [found], ?_⟩
    rw [matchesIn_of_find? found, none, List.map_nil]
  · exact climbed.lacking lower below

/-- The way up ends at a class without a superclass. -/
theorem exhausted_of_top (top : surface.superName = Option.none) :
    scope.Exhausted candidates root (name :: seen) (interfaces ++ surface.interfaces) := by
  refine exhausted_of_closed (climbed.onChain_cons found) (climbed.lacking_cons found none)
    (climbed.listed_append found) ?_ ?_
  · rcases climbed.root_mem with rfl | start
    · exact List.mem_cons_self
    · exact List.mem_cons_of_mem _ start
  · intro lower below upper above
    rcases List.mem_cons.1 below with rfl | below
    · simp [superName?_of_find? found, top] at above
    · rcases climbed.closed lower below upper above with inside | rfl
      · exact List.mem_cons_of_mem _ inside
      · exact List.mem_cons_self

/-- One step up to the superclass. -/
theorem step {superName : String} (super : surface.superName = some superName) :
    scope.Climbed candidates root superName (name :: seen) (interfaces ++ surface.interfaces) where
  reached := by
    obtain ⟨steps, reached, passed⟩ := climbed.reached
    refine ⟨steps + 1, ?_, fun earlier less lower below => ?_⟩
    · rw [Links.follow_succ, reached, Option.bind_some, superName?_of_find? found, super]
    · rcases Nat.lt_succ_iff_lt_or_eq.1 less with before | rfl
      · exact List.mem_cons_of_mem _ (passed earlier before lower below)
      · cases reached.symm.trans below
        exact List.mem_cons_self
  onChain := climbed.onChain_cons found
  lacking := climbed.lacking_cons found none
  closed lower below upper above := by
    rcases List.mem_cons.1 below with rfl | below
    · rw [superName?_of_find? found, super] at above
      exact .inr (Option.some.inj above).symm
    · rcases climbed.closed lower below upper above with inside | rfl
      · exact .inl (List.mem_cons_of_mem _ inside)
      · exact .inl List.mem_cons_self
  listed := climbed.listed_append found

end

end Climbed

/-- The search along superclasses stops at the first type that is missing or has a match, or it has
seen the whole way up. -/
theorem searchChain_spec {name : String} {seen interfaces : List String}
    (climbed : scope.Climbed candidates root name seen interfaces) :
    match scope.searchChain candidates name seen interfaces with
    | .error failure => scope.Answers candidates root (.error failure)
    | .ok (.decided found) => scope.Answers candidates root (.ok found)
    | .ok (.exhausted seen interfaces) => scope.Exhausted candidates root seen interfaces := by
  fun_induction Scope.searchChain scope candidates name seen interfaces with
  | case1 name seen interfaces again => exact climbed.exhausted_of_mem again
  | case2 name seen interfaces fresh missing => exact .unresolved climbed.leads missing
  | case3 name seen interfaces fresh owner surface found none seen' interfaces' superName super
    step =>
    exact step (climbed.step found none super)
  | case4 name seen interfaces fresh owner surface found none seen' interfaces' top =>
    exact climbed.exhausted_of_top found none top
  | case5 name seen interfaces fresh owner surface found some =>
    refine .decided climbed.leads ?_ ?_
    · rw [matchesIn_of_find? found]
      simpa using some
    · rw [matchesIn_of_find? found]
      exact Found.standsFor_ofMatches _

/-! ## Interfaces -/

variable (scope) in
/-- What a search through interfaces visits, from the interfaces that are pending and the types that
have been seen. -/
structure Visits (pending seen names : List String) : Prop where
  nodup : names.Nodup
  fresh : ∀ name ∈ names, name ∉ seen
  known : ∀ name ∈ names, (scope.find? name).isSome
  reached : ∀ name ∈ names, ∃ first ∈ pending, ReflTransGen scope.Implements first name
  /-- Nothing that is pending or listed by a visited type is left out. -/
  pending : ∀ name ∈ pending, (scope.find? name).isSome → name ∈ seen ∨ name ∈ names
  closed : ∀ name ∈ names, ∀ interface, scope.Implements name interface →
    (scope.find? interface).isSome → interface ∈ seen ∨ interface ∈ names

namespace Visits

variable {name : String} {pending seen names : List String}

/-- Where nothing is pending, nothing is visited. -/
theorem nil (seen : List String) : scope.Visits [] seen [] := by
  constructor <;> simp

/-- A type that has been seen before is not visited again. -/
theorem cons_of_mem (visits : scope.Visits pending seen names) (met : name ∈ seen) :
    scope.Visits (name :: pending) seen names where
  nodup := visits.nodup
  fresh := visits.fresh
  known := visits.known
  closed := visits.closed
  reached := by
    intro other visited
    obtain ⟨first, listed, path⟩ := visits.reached other visited
    exact ⟨first, List.mem_cons_of_mem _ listed, path⟩
  pending := by
    intro other listed known
    rcases List.mem_cons.1 listed with rfl | listed
    · exact .inl met
    · exact visits.pending other listed known

/-- A name without a type is passed over. It counts as seen from then on, but nothing that has a
type can be that name. -/
theorem cons_of_missing (visits : scope.Visits pending (name :: seen) names)
    (missing : scope.find? name = none) : scope.Visits (name :: pending) seen names := by
  have settled (other : String) (known : (scope.find? other).isSome)
      (inside : other ∈ name :: seen ∨ other ∈ names) : other ∈ seen ∨ other ∈ names := by
    rcases inside with inside | visited
    · rcases List.mem_cons.1 inside with rfl | inside
      · simp [missing] at known
      · exact .inl inside
    · exact .inr visited
  refine ⟨visits.nodup, ?_, visits.known, ?_, ?_, ?_⟩
  · exact fun other visited met => visits.fresh other visited (List.mem_cons_of_mem _ met)
  · intro other visited
    obtain ⟨first, listed, path⟩ := visits.reached other visited
    exact ⟨first, List.mem_cons_of_mem _ listed, path⟩
  · intro other listed known
    rcases List.mem_cons.1 listed with rfl | listed
    · simp [missing] at known
    · exact settled other known (visits.pending other listed known)
  · intro other visited interface implements known
    exact settled interface known (visits.closed other visited interface implements known)

/-- A type that has not been seen is visited, and its interfaces are pending behind the others. -/
theorem cons_of_found {owner : TypeRef} {surface : Surface}
    (visits : scope.Visits (pending ++ surface.interfaces) (name :: seen) names)
    (fresh : name ∉ seen) (found : scope.find? name = some (owner, surface)) :
    scope.Visits (name :: pending) seen (name :: names) := by
  have settled (other : String) (inside : other ∈ name :: seen ∨ other ∈ names) :
      other ∈ seen ∨ other ∈ name :: names := by
    simp only [List.mem_cons] at inside ⊢
    tauto
  refine ⟨?_, ?_, ?_, ?_, ?_, ?_⟩
  · exact List.nodup_cons.2 ⟨fun visited => visits.fresh name visited List.mem_cons_self,
      visits.nodup⟩
  · intro other visited
    rcases List.mem_cons.1 visited with rfl | visited
    · exact fresh
    · exact fun met => visits.fresh other visited (List.mem_cons_of_mem _ met)
  · intro other visited
    rcases List.mem_cons.1 visited with rfl | visited
    · simp [found]
    · exact visits.known other visited
  -- a type is reached from what was pending before, or through the interfaces of this one
  · intro other visited
    rcases List.mem_cons.1 visited with rfl | visited
    · exact ⟨other, List.mem_cons_self, .refl⟩
    · obtain ⟨first, listed, path⟩ := visits.reached other visited
      rcases List.mem_append.1 listed with listed | listed
      · exact ⟨first, List.mem_cons_of_mem _ listed, path⟩
      · exact ⟨name, List.mem_cons_self, .head ((implements_of_find? found).2 listed) path⟩
  · intro other listed known
    rcases List.mem_cons.1 listed with rfl | listed
    · exact .inr List.mem_cons_self
    · exact settled other (visits.pending other (List.mem_append_left _ listed) known)
  · intro other visited interface implements known
    rcases List.mem_cons.1 visited with rfl | visited
    · have listed := (implements_of_find? found).1 implements
      exact settled interface (visits.pending interface (List.mem_append_right _ listed) known)
    · exact settled interface (visits.closed other visited interface implements known)

end Visits

variable (scope candidates) in
/-- The search collects the matches of the types that it visits. -/
theorem searchInterfaces_spec (pending seen : List String) :
    ∃ names, scope.Visits pending seen names ∧
      (scope.searchInterfaces candidates pending seen).result =
        .ok (names.flatMap (scope.matchesIn candidates)) := by
  fun_induction Scope.searchInterfaces scope candidates pending seen with
  | case1 seen => exact ⟨[], .nil seen, rfl⟩
  | case2 seen name pending met step =>
    obtain ⟨names, visits, same⟩ := step
    exact ⟨names, visits.cons_of_mem met, same⟩
  | case3 seen name pending fresh missing step =>
    obtain ⟨names, visits, same⟩ := step
    refine ⟨names, visits.cons_of_missing missing, ?_⟩
    rw [Logged.result_bind, Logged.result_record]
    exact same
  | case4 seen name pending fresh owner surface found step =>
    obtain ⟨names, visits, same⟩ := step
    refine ⟨name :: names, visits.cons_of_found fresh found, ?_⟩
    rw [Logged.result_bind, same, List.flatMap_cons, matchesIn_of_find? found]
    rfl

/-- Without interfaces there is nothing to search. -/
theorem result_searchInterfaces_nil (seen : List String) :
    (scope.searchInterfaces candidates [] seen).result = .ok [] := by
  rw [searchInterfaces, Logged.result_pure]

/-- One step of the search through interfaces, without its log. -/
theorem result_searchInterfaces_cons (name : String) (pending seen : List String) :
    (scope.searchInterfaces candidates (name :: pending) seen).result =
      if name ∈ seen then
        (scope.searchInterfaces candidates pending seen).result
      else
        match scope.find? name with
        | none => (scope.searchInterfaces candidates pending (name :: seen)).result
        | some (owner, surface) =>
          ((candidates surface).map (owner, ·) ++ ·) <$>
            (scope.searchInterfaces candidates (pending ++ surface.interfaces)
              (name :: seen)).result := by
  rw [searchInterfaces]
  split
  · rfl
  · split
    · next missing => rw [missing, Logged.result_bind, Logged.result_record]; rfl
    · next owner surface found =>
      rw [found, bind_pure_comp, Logged.result_map]

/-- What is visited after the whole way up is what is reached through interfaces. -/
theorem Exhausted.isClosure {seen interfaces names : List String}
    (exhausted : scope.Exhausted candidates root seen interfaces)
    (visits : scope.Visits interfaces seen names) : scope.IsClosure root names where
  nodup := visits.nodup
  mem_iff name := by
    constructor
    · intro visited
      refine ⟨visits.known name visited, fun onChain => ?_, ?_⟩
      · exact visits.fresh name visited ((exhausted.mem_seen name).2 onChain)
      · obtain ⟨first, listed, path⟩ := visits.reached name visited
        obtain ⟨lower, met, implements⟩ := (exhausted.listed first).1 listed
        exact ⟨lower, (exhausted.mem_seen lower).1 met, .head' implements path⟩
    · rintro ⟨known, offChain, lower, onChain, path⟩
      -- all types on the path are on the way up or visited, and this one is not on the way up
      have inside : name ∈ seen ∨ name ∈ names := by
        clear offChain
        induction path with
        | single implements =>
          have listed :=
            (exhausted.listed _).2 ⟨lower, (exhausted.mem_seen lower).2 onChain, implements⟩
          exact visits.pending _ listed known
        | tail _ implements step =>
          obtain ⟨owner, surface, found, listed⟩ := id implements
          rcases step (by simp [found]) with met | visited
          · exact visits.pending _ ((exhausted.listed _).2 ⟨_, met, implements⟩) known
          · exact visits.closed _ visited _ implements known
      rcases inside with met | visited
      · exact absurd ((exhausted.mem_seen name).1 met) offChain
      · exact visited

/-! ## The search -/

/-- The search, without its log. -/
theorem result_search (name : String) :
    (scope.search candidates name).result =
      match scope.searchChain candidates name [] [] with
      | .error failure => .error failure
      | .ok (.decided found) => .ok found
      | .ok (.exhausted seen interfaces) =>
        Found.ofMatches <$> (scope.searchInterfaces candidates interfaces seen).result := by
  rw [search, Logged.result_bind, Logged.result_lift]
  cases scope.searchChain candidates name [] [] with
  | error failure => rfl
  | ok outcome =>
    cases outcome with
    | decided found => rfl
    | exhausted seen interfaces =>
      exact Logged.result_map _ _

/-- A search finds what there is to find. -/
theorem answers_search (name : String) :
    scope.Answers candidates name (scope.search candidates name).result := by
  have start : scope.Climbed candidates name name [] [] := climbed_start
  have spec := searchChain_spec start
  rw [result_search]
  cases chain : scope.searchChain candidates name [] [] with
  | error failure =>
    rw [chain] at spec
    exact spec
  | ok outcome =>
    rw [chain] at spec
    cases outcome with
    | decided found => exact spec
    | exhausted seen interfaces =>
      obtain ⟨names, visits, same⟩ := scope.searchInterfaces_spec candidates interfaces seen
      have lacking (lower : String) (onChain : scope.OnChain name lower) :=
        spec.lacking lower ((spec.mem_seen lower).2 onChain)
      change scope.Answers candidates name
        (Found.ofMatches <$> (scope.searchInterfaces candidates interfaces seen).result)
      rw [same]
      exact .collected lacking (spec.isClosure visits) (Found.standsFor_ofMatches _)

/-- A search finds exactly what there is to find. -/
theorem answers_iff {name : String} {outcome : Except Error Found} :
    scope.Answers candidates name outcome ↔ outcome = (scope.search candidates name).result := by
  refine ⟨fun answers => answers.unique (answers_search name), ?_⟩
  rintro rfl
  exact answers_search name

/-! ## References -/

section

variable (scope)

/-- What a reference to a method stands for, given what is found for it. -/
def methodFound (reference : MemberReference) (type : MethodType) : Found → Except Error MethodRef
  | .one owner key =>
    (⟨owner, Naming.member reference.name, ·⟩) <$> scope.methodSig type !key.isStatic
  | .missing =>
    .error (.resolution (.unknownMethod reference.owner reference.name reference.descriptor))
  | .many count =>
    .error (.resolution
      (.ambiguousMethod reference.owner reference.name reference.descriptor count))

/-- What a reference to a field stands for, given what is found for it. -/
def fieldFound (reference : MemberReference) (type : FieldType) : Found → Except Error FieldRef
  | .one owner key => (⟨owner, reference.name, ·, key.isStatic⟩) <$> scope.fieldSig type
  | .missing =>
    .error (.resolution (.unknownField reference.owner reference.name reference.descriptor))
  | .many count =>
    .error (.resolution
      (.ambiguousField reference.owner reference.name reference.descriptor count))

end

section

variable {reference : MemberReference} (known : (scope.find? reference.owner).isSome)

include known

/-- The class that a reference names is known. -/
theorem exists_resolve : ∃ owner, scope.resolve reference.owner = .ok owner := by
  obtain ⟨⟨owner, surface⟩, found⟩ := Option.isSome_iff_exists.1 known
  exact ⟨owner, by rw [resolve_eq_find?, found]⟩

/-- A method is looked up by a search for its name and the readable form of its type. -/
theorem result_method {type : MethodType}
    (typed : MethodType.ofDescriptor? reference.descriptor = some type) :
    (scope.method reference).result =
      (scope.search (methodCandidates (Naming.member reference.name) type.description)
        reference.owner).result >>= scope.methodFound reference type := by
  obtain ⟨owner, resolved⟩ := exists_resolve known
  have read : MethodType.ofDescriptor reference.descriptor = .ok type := by
    rw [MethodType.ofDescriptor, typed]
  rw [method, resolved, read]
  change (scope.search _ reference.owner >>= _).result = _
  rw [Logged.result_bind]
  congr 1
  funext found
  cases found with
  | missing => rfl
  | many count => rfl
  | one owner key =>
    dsimp only [methodFound]
    cases scope.methodSig type !key.isStatic <;> rfl

/-- A field is looked up by a search for its name and the readable form of its type. -/
theorem result_field {type : FieldType}
    (typed : FieldType.ofDescriptor? reference.descriptor = some type) :
    (scope.field reference).result =
      (scope.search (fieldCandidates reference.name type.description) reference.owner).result >>=
        scope.fieldFound reference type := by
  obtain ⟨owner, resolved⟩ := exists_resolve known
  have read : FieldType.ofDescriptor reference.descriptor = .ok type := by
    rw [FieldType.ofDescriptor, typed]
  rw [field, resolved, read]
  change (scope.search _ reference.owner >>= _).result = _
  rw [Logged.result_bind]
  congr 1
  funext found
  cases found with
  | missing => rfl
  | many count => rfl
  | one owner key =>
    dsimp only [fieldFound]
    cases scope.fieldSig type <;> rfl

end

/-- **References follow the hierarchy.** For a reference to a known class with a legal descriptor
there is one answer, and the reference stands for the member that it names. -/
theorem method_field_answers {reference : MemberReference}
    (known : (scope.find? reference.owner).isSome) :
    (∀ type, MethodType.ofDescriptor? reference.descriptor = some type →
      ∃ outcome, (∀ other, scope.Answers
          (methodCandidates (Naming.member reference.name) type.description) reference.owner other ↔
          other = outcome) ∧
        (scope.method reference).result = outcome >>= scope.methodFound reference type) ∧
    ∀ type, FieldType.ofDescriptor? reference.descriptor = some type →
      ∃ outcome, (∀ other, scope.Answers
          (fieldCandidates reference.name type.description) reference.owner other ↔
          other = outcome) ∧
        (scope.field reference).result = outcome >>= scope.fieldFound reference type := by
  refine ⟨fun type typed => ?_, fun type typed => ?_⟩
  · exact ⟨_, fun other => answers_iff, result_method known typed⟩
  · exact ⟨_, fun other => answers_iff, result_field known typed⟩

end Scope

/-- Two classes that extend each other; their interfaces have one interface in common, and one of
them is missing. -/
def tangledScope : Scope where
  catalog := Catalog.standard
  module :=
    { name := "M"
      types :=
        let type (source : String) (superName : Option String) (interfaces : List String)
            (methods : List Target.MethodDef) : Target.TypeDef :=
          { source, space := "", name := source, superName, interfaces, methods }
        let declared : Target.MethodDef :=
          { name := "m", sourceName := "m", descriptor := "()V"
            flags := ⟨true, false, false, false, true, true, false, false⟩
            sig := ⟨true, [], .void⟩, body := none }
        [type "A" (some "B") ["I", "J"] [],
         type "B" (some "A") ["J", "Gone", "A"] [],
         type "I" none ["K"] [],
         type "J" none ["K", "I"] [],
         type "K" none ["I"] [declared]] }

/-- The search passes the circle of classes and finds the method in the common interface. -/
theorem method_field_answers_tangled :
    ∃ outcome, (∀ other, tangledScope.Answers (Scope.methodCandidates "m" "void()") "A" other ↔
        other = outcome) ∧
      (tangledScope.method ⟨"A", "m", "()V"⟩).result =
        outcome >>= tangledScope.methodFound ⟨"A", "m", "()V"⟩ ⟨[], none⟩ ∧
      outcome = .ok (.one ⟨"K", .module ⟨4⟩⟩ ⟨"m", "()V", false⟩) := by
  have known : (tangledScope.find? (⟨"A", "m", "()V"⟩ : MemberReference).owner).isSome := by
    decide +kernel
  have typed : MethodType.ofDescriptor? "()V" = some ⟨[], none⟩ := by decide +kernel
  have described : (⟨[], none⟩ : MethodType).description = "void()" := by decide +kernel
  obtain ⟨outcome, answers, same⟩ := (Scope.method_field_answers known).1 ⟨[], none⟩ typed
  rw [described] at answers
  replace answers : ∀ other, tangledScope.Answers (Scope.methodCandidates "m" "void()") "A" other ↔
    other = outcome := answers
  refine ⟨outcome, answers, same, ((answers _).1 (Scope.answers_iff.2 ?_)).symm⟩
  have chain : tangledScope.searchChain (Scope.methodCandidates "m" "void()") "A" [] [] =
      .ok (.exhausted ["B", "A"] ["I", "J", "J", "Gone", "A"]) := by
    decide +kernel
  have first : tangledScope.find? "I" = some (⟨"I", .module ⟨2⟩⟩, ⟨none, ["K"], [], []⟩) := by
    decide +kernel
  have second : tangledScope.find? "J" =
      some (⟨"J", .module ⟨3⟩⟩, ⟨none, ["K", "I"], [], []⟩) := by
    decide +kernel
  have third : tangledScope.find? "K" =
      some (⟨"K", .module ⟨4⟩⟩, ⟨none, ["I"], [⟨"m", "()V", false⟩], []⟩) := by
    decide +kernel
  have missing : tangledScope.find? "Gone" = none := by decide +kernel
  rw [Scope.result_search, chain]
  simp [Scope.result_searchInterfaces_nil, Scope.result_searchInterfaces_cons, first, second, third,
    missing, Scope.methodCandidates, typed, described, Found.ofMatches]

end ClassLowering
