import ClassLowering.Proofs.Outcomes
import ClassLowering.Proofs.References.Renaming

/-! # Resolution commutes with renaming types

If a second scope finds what a first scope finds, with types renamed (`Scope.Renames`), then the
second one resolves signatures and members as the first one does, with types renamed; and it fails
where the first one fails, in the same way.

Each function has a lemma of its own; they are put together by the rules for computations that
follow each other (`Except.bind_eq_map`, `Logged.Follows`). -/

namespace ClassLowering

open Target (FieldRef MethodRef MethodSig TypeRef TypeSig)

section

variable {ε α β γ δ : Type}

/-! ## Computations that follow each other -/

/-- A sequence follows another one if its first step and its continuation do. -/
theorem Except.bind_eq_map {g : α → β} {h : γ → δ} {first : Except ε α} {second : Except ε β}
    {next : α → Except ε γ} {nextSecond : β → Except ε δ} (same : second = g <$> first)
    (rest : ∀ value, nextSecond (g value) = h <$> next value) :
    second >>= nextSecond = h <$> (first >>= next) := by
  rw [same]
  cases first with
  | error failure => rfl
  | ok value => exact rest value

/-- Computations over a list follow each other if they do so for its elements. -/
theorem Except.mapM_eq_map {g : β → γ} {f : α → Except ε β} {fSecond : α → Except ε γ}
    {items : List α} (same : ∀ item ∈ items, fSecond item = g <$> f item) :
    items.mapM fSecond = List.map g <$> items.mapM f := by
  induction items with
  | nil => rfl
  | cons item items induction =>
    obtain ⟨first, others⟩ := List.forall_mem_cons.1 same
    rw [List.mapM_cons, List.mapM_cons]
    exact bind_eq_map first fun value => bind_eq_map (induction others) fun values => rfl

/-- The second computation gives what the first one gives, changed by a function. -/
def Logged.Follows (g : α → β) (first : Logged ε α) (second : Logged ε β) : Prop :=
  second.result = g <$> first.result

namespace Logged.Follows

variable {g : α → β} {h : γ → δ}

/-- A value follows the one that it is changed from. -/
theorem pure (value : α) : Follows g (Pure.pure value : Logged ε α) (Pure.pure (g value)) := rfl

/-- A failure follows itself. -/
theorem throw (failure : ε) :
    Follows g (MonadExcept.throw failure : Logged ε α) (MonadExcept.throw failure) := rfl

/-- A computation follows itself. -/
theorem refl (first : Logged ε α) : Follows id first first :=
  (LawfulFunctor.id_map first.result).symm

/-- An outcome that is there already follows the one that it is changed from. -/
theorem lift {first : Except ε α} {second : Except ε β} (same : second = g <$> first) :
    Follows g (liftM first : Logged ε α) (liftM second) := same

/-- A sequence follows another one if its first step and its continuation do. -/
theorem bind {first : Logged ε α} {second : Logged ε β} {next : α → Logged ε γ}
    {nextSecond : β → Logged ε δ} (follows : Follows g first second)
    (rest : ∀ value, Follows h (next value) (nextSecond (g value))) :
    Follows h (first >>= next) (second >>= nextSecond) := by
  rw [Follows, result_bind, result_bind]
  exact Except.bind_eq_map follows rest

/-- What is made of a result follows what is made of another one. -/
theorem map {first : Logged ε α} {second : Logged ε β} {next : α → γ} {nextSecond : β → δ}
    (follows : Follows g first second) (rest : ∀ value, nextSecond (g value) = h (next value)) :
    Follows h (next <$> first) (nextSecond <$> second) := by
  rw [Follows, result_map, result_map, follows, Functor.map_map, Functor.map_map]
  exact congrArg (· <$> first.result) (funext rest)

/-- Computations over a list follow each other if they do so for its elements. -/
theorem mapM {next : γ → Logged ε α} {nextSecond : γ → Logged ε β} {items : List γ}
    (follows : ∀ item ∈ items, Follows g (next item) (nextSecond item)) :
    Follows (List.map g) (items.mapM next) (items.mapM nextSecond) := by
  rw [Follows, result_mapM, result_mapM]
  exact Except.mapM_eq_map follows

end Logged.Follows

end

/-! ## Looking names up -/

namespace Scope

/-- The second scope resolves names as the first one does, with types renamed. -/
def RenamesTypes (f : TypeRef → TypeRef) (first second : Scope) : Prop :=
  ∀ name, second.resolve name = f <$> first.resolve name

/-- The second scope finds what the first one finds, with types renamed, and the class of texts
keeps its type. -/
structure Renames (f : TypeRef → TypeRef) (first second : Scope) : Prop where
  find : ∀ name, second.find? name = (first.find? name).map (Prod.map f id)
  text : f ⟨Catalog.stringClass, .library⟩ = ⟨Catalog.stringClass, .library⟩

variable {f : TypeRef → TypeRef} {first second : Scope}

/-- Where types are found with other names for them, names are resolved to those. -/
theorem Renames.types (renames : Renames f first second) : RenamesTypes f first second := by
  intro name
  rw [resolve_eq_find?, resolve_eq_find?, renames.find name]
  cases first.find? name <;> rfl

namespace RenamesTypes

/-- The signature of a field type is renamed with the types that it names. -/
theorem fieldSig (renames : RenamesTypes f first second) (type : FieldType) :
    second.fieldSig type = TypeSig.rename f <$> first.fieldSig type := by
  induction type with
  | object name =>
    rw [Scope.fieldSig, Scope.fieldSig, renames name, Functor.map_map, Functor.map_map]
    rfl
  | array element induction =>
    rw [Scope.fieldSig, Scope.fieldSig, induction, Functor.map_map, Functor.map_map]
    rfl
  | _ => rfl

/-- The signature of a result is renamed with the types that it names. -/
theorem resultSig (renames : RenamesTypes f first second) (type : Option FieldType) :
    second.resultSig type = TypeSig.rename f <$> first.resultSig type := by
  cases type with
  | none => rfl
  | some type => exact renames.fieldSig type

/-- The signature of a method is renamed with the types that it names. -/
theorem methodSig (renames : RenamesTypes f first second) (type : MethodType) (hasThis : Bool) :
    second.methodSig type hasThis = MethodSig.rename f <$> first.methodSig type hasThis :=
  Except.bind_eq_map (Except.mapM_eq_map fun parameter _ => renames.fieldSig parameter) fun _ =>
    Except.bind_eq_map (renames.resultSig type.result) fun _ => rfl

/-- The signature of a class is renamed with its type. -/
theorem classSig (renames : RenamesTypes f first second) (name : String) :
    second.classSig name = TypeSig.rename f <$> first.classSig name := by
  unfold Scope.classSig
  split
  · exact Except.bind_eq_map (id_map _).symm renames.fieldSig
  · rw [renames name, Functor.map_map, Functor.map_map]
    rfl

/-- The signature of objects is renamed with their type. -/
theorem objectSig (renames : RenamesTypes f first second) :
    second.objectSig = TypeSig.rename f <$> first.objectSig := by
  rw [Scope.objectSig, Scope.objectSig, renames, Functor.map_map, Functor.map_map]
  rfl

end RenamesTypes

end Scope

/-! ## Searching for members -/

/-- Matches with renamed owners are an outcome with a renamed owner. -/
theorem Found.ofMatches_map (f : TypeRef → TypeRef) (found : List (TypeRef × MemberKey)) :
    ofMatches (found.map (Prod.map f id)) = (ofMatches found).rename f := by
  match found with
  | [] => rfl
  | [_] => rfl
  | first :: second :: rest =>
    rw [List.map_cons, List.map_cons]
    exact congrArg many (by simp)

namespace Scope

variable {f : TypeRef → TypeRef} {first second : Scope}

namespace Renames

/-- What is found in the first scope is found in the second, renamed. -/
theorem find?_eq_some (renames : Renames f first second) {name : String} {owner : TypeRef}
    {surface : Surface} (found : first.find? name = some (owner, surface)) :
    second.find? name = some (f owner, surface) := by
  rw [renames.find, found]
  rfl

/-- What is missing in the first scope is missing in the second. -/
theorem find?_eq_none (renames : Renames f first second) {name : String}
    (missing : first.find? name = none) : second.find? name = none := by
  rw [renames.find, missing]
  rfl

variable {candidates : Surface → List MemberKey}

/-- A class that is known decides, or leads to its superclass. -/
theorem searchChain_of_find? {scope : Scope} {name : String} {owner : TypeRef} {surface : Surface}
    {seen : List String} (fresh : name ∉ seen) (found : scope.find? name = some (owner, surface))
    (interfaces : List String) :
    scope.searchChain candidates name seen interfaces =
      match candidates surface with
      | [] =>
        match surface.superName with
        | some superName =>
          scope.searchChain candidates superName (name :: seen) (interfaces ++ surface.interfaces)
        | none => .ok (.exhausted (name :: seen) (interfaces ++ surface.interfaces))
      | keys => .ok (.decided (.ofMatches (keys.map (owner, ·)))) := by
  rw [Scope.searchChain, if_neg fresh]
  split
  · next missing => cases missing.symm.trans found
  · next same =>
    cases same.symm.trans found
    rfl

/-- A class that is not known cannot be searched. -/
theorem searchChain_of_unknown {scope : Scope} {name : String} {seen : List String}
    (fresh : name ∉ seen) (missing : scope.find? name = none) (interfaces : List String) :
    scope.searchChain candidates name seen interfaces =
      .error (.resolution (.unknownClass name)) := by
  rw [Scope.searchChain, if_neg fresh]
  split
  · rfl
  · next same => cases missing.symm.trans same

/-- The search along superclasses takes the same way in both scopes. -/
theorem searchChain (renames : Renames f first second) (name : String)
    (seen interfaces : List String) :
    second.searchChain candidates name seen interfaces =
      ChainFound.rename f <$> first.searchChain candidates name seen interfaces := by
  -- both searches have seen the same names, so they take the same branch at every step
  fun_induction first.searchChain candidates name seen interfaces with
  | case1 name seen interfaces met =>
    rw [Scope.searchChain, if_pos met]
    rfl
  | case2 name seen interfaces fresh missing =>
    rw [searchChain_of_unknown fresh (renames.find?_eq_none missing)]
    rfl
  | case3 name seen interfaces fresh owner surface found none _ _ superName extended induction =>
    rw [searchChain_of_find? fresh (renames.find?_eq_some found), none, extended]
    exact induction
  | case4 name seen interfaces fresh owner surface found none _ _ extended =>
    rw [searchChain_of_find? fresh (renames.find?_eq_some found), none, extended]
    rfl
  | case5 name seen interfaces fresh owner surface found matched =>
    rw [searchChain_of_find? fresh (renames.find?_eq_some found)]
    split
    · next none => cases matched none
    · change _ = Except.ok (ChainFound.decided (Found.rename f _))
      rw [← Found.ofMatches_map, List.map_map]
      rfl

/-- The search in interfaces takes the same way in both scopes. -/
theorem searchInterfaces (renames : Renames f first second) (pending seen : List String) :
    Logged.Follows (List.map (Prod.map f id))
      (first.searchInterfaces candidates pending seen)
      (second.searchInterfaces candidates pending seen) := by
  -- both searches have seen the same names, so they take the same branch at every step
  fun_induction first.searchInterfaces candidates pending seen with
  | case1 seen =>
    rw [Scope.searchInterfaces]
    exact .pure []
  | case2 seen name pending met induction =>
    rw [Scope.searchInterfaces, if_pos met]
    exact induction
  | case3 seen name pending fresh missing induction =>
    rw [Scope.searchInterfaces, if_neg fresh]
    split
    · exact .bind (g := id) rfl fun _ => induction
    · next same => cases (renames.find?_eq_none missing).symm.trans same
  | case4 seen name pending fresh owner surface found induction =>
    rw [Scope.searchInterfaces, if_neg fresh]
    split
    · next same => cases (renames.find?_eq_some found).symm.trans same
    · next same =>
      cases (renames.find?_eq_some found).symm.trans same
      refine .bind induction fun others => ?_
      change Except.ok _ = Except.ok _
      rw [List.map_append, List.map_map]
      rfl

/-- The search for a member finds the same in both scopes, renamed. -/
theorem search (renames : Renames f first second) (name : String) :
    Logged.Follows (Found.rename f) (first.search candidates name)
      (second.search candidates name) := by
  refine .bind (.lift (renames.searchChain name [] [])) fun chain => ?_
  cases chain with
  | decided found => exact .pure found
  | exhausted seen interfaces =>
    refine .bind (renames.searchInterfaces interfaces seen) fun found => ?_
    rw [Found.ofMatches_map]
    exact .pure _

/-- Whether a name is known does not depend on the names of types. -/
theorem discard_resolve (renames : Renames f first second) (name : String) :
    Logged.Follows id (discard (liftM (first.resolve name)) : Logged Error PUnit)
      (discard (liftM (second.resolve name))) := by
  rw [renames.types name]
  cases first.resolve name <;> rfl

/-- A reference to a method is resolved in both scopes to the same, renamed. -/
theorem method (renames : Renames f first second) (reference : MemberReference) :
    Logged.Follows (MethodRef.rename f) (first.method reference) (second.method reference) := by
  refine .bind (renames.discard_resolve _) fun _ => .bind (.refl _) fun type => ?_
  refine .bind (renames.search reference.owner) fun found => ?_
  cases found with
  | missing => exact .throw _
  | many count => exact .throw _
  | one owner key =>
    refine .bind (.refl _) fun _ => ?_
    exact .bind (.lift (renames.types.methodSig type _)) fun sig => .pure _

/-- A reference to a field is resolved in both scopes to the same, renamed. -/
theorem field (renames : Renames f first second) (reference : MemberReference) :
    Logged.Follows (FieldRef.rename f) (first.field reference) (second.field reference) := by
  refine .bind (renames.discard_resolve _) fun _ => .bind (.refl _) fun type => ?_
  refine .bind (renames.search reference.owner) fun found => ?_
  cases found with
  | missing => exact .throw _
  | many count => exact .throw _
  | one owner key => exact .bind (.lift (renames.types.fieldSig type)) fun sig => .pure _

end Renames

end Scope

end ClassLowering
