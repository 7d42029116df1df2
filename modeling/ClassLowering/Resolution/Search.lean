import ClassLowering.Log
import ClassLowering.Resolution.Scope

/-! # Searching for members

A member is searched for in a class and then in its superclasses; the first of them that has a
match decides. If none has one, the interfaces of all of them are searched, breadth first, and all
matches count. Hierarchies may be cyclic: no type is looked at twice. -/

namespace ClassLowering

open Target (TypeRef)

/-- The outcome of a search. -/
inductive Found where
  | missing
  | one (owner : TypeRef) (key : MemberKey)
  | many (count : Nat)
  deriving DecidableEq, Repr

/-- The outcome that a list of matches stands for. -/
def Found.ofMatches : List (TypeRef × MemberKey) → Found
  | [] => .missing
  | [(owner, key)] => .one owner key
  | found => .many found.length

/-- The outcome of a search along superclasses. -/
inductive ChainFound where
  /-- A type on the way has matches. -/
  | decided (found : Found)
  /-- No type has a match; these types were seen and these interfaces are to be searched. -/
  | exhausted (seen : List String) (interfaces : List String)
  deriving DecidableEq, Repr

namespace Scope

/-- How many names that can be looked up have not been seen. -/
def unseen (scope : Scope) (seen : List String) : Nat :=
  scope.names.countP (· ∉ seen)

/-- Seeing one more name leaves no more names unseen. -/
theorem unseen_cons_le (scope : Scope) (seen : List String) (name : String) :
    scope.unseen (name :: seen) ≤ scope.unseen seen :=
  List.countP_mono_left fun other _ => by simp

/-- Seeing a name that can be looked up for the first time leaves fewer names unseen. -/
theorem unseen_cons_lt (scope : Scope) {seen : List String} {name : String}
    (known : name ∈ scope.names) (fresh : name ∉ seen) :
    scope.unseen (name :: seen) < scope.unseen seen := by
  obtain ⟨before, after, split⟩ := List.append_of_mem known
  have fewer (names : List String) :
      names.countP (· ∉ name :: seen) ≤ names.countP (· ∉ seen) :=
    List.countP_mono_left fun other _ => by simp
  have := fewer before
  have := fewer after
  simp only [unseen, split, List.countP_append]
  rw [List.countP_cons_of_neg (by simp), List.countP_cons_of_pos (by simpa using fresh)]
  omega

variable (scope : Scope) (candidates : Surface → List MemberKey)

/-- Searches a class and its superclasses; `seen` and `interfaces` are what was met before. -/
def searchChain (name : String) (seen interfaces : List String) : Except Error ChainFound :=
  if name ∈ seen then
    .ok (.exhausted seen interfaces)
  else
    match _found : scope.find? name with
    | none => .error (.resolution (.unknownClass name))
    | some (owner, surface) =>
      match candidates surface with
      | [] =>
        let seen' := name :: seen
        let interfaces := interfaces ++ surface.interfaces
        match surface.superName with
        | some superName => searchChain superName seen' interfaces
        | none => .ok (.exhausted seen' interfaces)
      | keys => .ok (.decided (.ofMatches (keys.map (owner, ·))))
termination_by scope.unseen seen
decreasing_by exact scope.unseen_cons_lt (mem_names_of_find? _found) (by assumption)

/-- Collects the matches in interfaces and in what they extend; an unknown interface is passed
over. -/
def searchInterfaces (pending seen : List String) :
    Logged Error (List (TypeRef × MemberKey)) :=
  match pending with
  | [] => pure []
  | name :: pending =>
    if name ∈ seen then
      searchInterfaces pending seen
    else
      match _found : scope.find? name with
      | none => do
        Logged.record .trace s!"skipping unknown interface {name}"
        searchInterfaces pending (name :: seen)
      | some (owner, surface) => do
        let others ← searchInterfaces (pending ++ surface.interfaces) (name :: seen)
        return (candidates surface).map (owner, ·) ++ others
termination_by (scope.unseen seen, pending.length)
decreasing_by
  · exact Prod.Lex.right _ (by simp)
  · have := scope.unseen_cons_le seen name
    rcases Nat.lt_or_eq_of_le this with less | same
    · exact Prod.Lex.left _ _ less
    · rw [same]
      exact Prod.Lex.right _ (by simp)
  · exact Prod.Lex.left _ _ (scope.unseen_cons_lt (mem_names_of_find? _found) (by assumption))

/-- Searches for a member from a class on. -/
def search (name : String) : Logged Error Found := do
  match ← scope.searchChain candidates name [] [] with
  | .decided found => return found
  | .exhausted seen interfaces =>
    return .ofMatches (← scope.searchInterfaces candidates interfaces seen)

end Scope

end ClassLowering
