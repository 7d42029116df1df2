import ClassLowering.Proofs.Emission.Steps
import ClassLowering.Proofs.Members.Linking

/-! # Where references to members come from

The methods and fields that lowered instructions refer to are the ones that source instructions
name, resolved (`Emit.yields_lower`); only the method that wraps texts is named by no source
instruction. Every reference in a body has a source instruction at its offset
(`site_of_lowerBody`). -/

namespace ClassLowering

open Target (Body FieldRef MethodRef)

/-- The member that a source instruction names. -/
def Bytecode.Instruction.member? (pool : ConstantPool) (instruction : Instruction) :
    Option MemberReference :=
  match instruction.operation with
  | .field _ | .invoke _ => (pool.member instruction.index).toOption
  | _ => none

/-- The method that a target instruction calls. -/
def Target.Instruction.methodRef? : Target.Instruction → Option MethodRef
  | .call method | .callvirt method => some method
  | _ => none

/-- The field that a target instruction accesses. -/
def Target.Instruction.fieldRef? : Target.Instruction → Option FieldRef
  | .ldfld field | .ldsfld field | .stfld field | .stsfld field => some field
  | _ => none

/-- The references of a target instruction are those of a source instruction, resolved. -/
structure Target.Instruction.IsSited (scope : Scope) (pool : ConstantPool)
    (source : Bytecode.Instruction) (target : Target.Instruction) : Prop where
  method : ∀ reference ∈ target.methodRef?, reference.owner.origin = .library ∨
    ∃ site, source.member? pool = some site ∧ (scope.method site).result = .ok reference
  field : ∀ reference ∈ target.fieldRef?,
    ∃ site, source.member? pool = some site ∧ (scope.field site).result = .ok reference

/-- A target instruction refers to no member. -/
def Target.Instruction.IsFree (target : Target.Instruction) : Prop :=
  target.methodRef? = none ∧ target.fieldRef? = none

/-- An instruction that refers to no member needs no site. -/
theorem Target.Instruction.IsFree.isSited {target : Target.Instruction} (free : target.IsFree)
    (scope : Scope) (pool : ConstantPool) (source : Bytecode.Instruction) :
    target.IsSited scope pool source where
  method reference listed := by
    rw [free.1] at listed
    cases listed
  field reference listed := by
    rw [free.2] at listed
    cases listed

/-! ## Lowering instructions -/

/-- What a step gives has a property, whatever the storage. -/
def Emit.Yields {α : Type} (property : α → Prop) (step : Emit α) : Prop :=
  ∀ storage value later, (step storage).result = .ok (value, later) → property value

namespace Emit.Yields

variable {α β : Type} {property : α → Prop} {next : β → Prop}

/-- Anything yields something. -/
theorem any (step : Emit α) : Yields (fun _ => True) step := fun _ _ _ _ => trivial

/-- A value yields what holds of it. -/
theorem pure {value : α} (holds : property value) : Yields property (Pure.pure value) := by
  intro storage value later same
  obtain ⟨rfl, -⟩ := Emit.pure_eq_ok.1 same
  exact holds

/-- A sequence yields what its continuation yields for all that the first part may yield. -/
theorem bind {first : Emit α} {rest : α → Emit β} (yields : Yields property first)
    (following : ∀ value, property value → Yields next (rest value)) :
    Yields next (first >>= rest) := by
  intro storage value later found
  obtain ⟨middle, _, before, after⟩ := Emit.bind_eq_ok.1 found
  exact following middle (yields _ _ _ before) _ _ _ after

/-- What is made of a result yields what follows from the property of the result. -/
theorem map {first : Emit α} {f : α → β} (yields : Yields property first)
    (following : ∀ value, property value → next (f value)) : Yields next (f <$> first) := by
  intro storage value later found
  obtain ⟨middle, before, rfl⟩ := Emit.map_eq_ok.1 found
  exact following middle (yields _ _ _ before)

/-- A computation that is lifted yields its result. -/
theorem lift (outcome : Logged Error α) :
    Yields (fun value => outcome.result = .ok value) (liftM outcome) := by
  intro storage value later found
  obtain ⟨middle, before, after⟩ := Logged.bind_eq_ok.1 found
  cases after
  exact before

/-- An outcome that is there already yields its value. -/
theorem liftExcept (outcome : Except Error α) :
    Yields (fun value => outcome = .ok value) (liftM outcome) := fun _ _ _ found =>
  (Emit.lift_eq_ok.1 found).1

end Emit.Yields

namespace Emit

variable {scope : Scope} {pool : ConstantPool} {instruction : Bytecode.Instruction}

/-- The references of all target instructions of a contribution are resolved ones. -/
abbrev IsSited (scope : Scope) (pool : ConstantPool) (instruction : Bytecode.Instruction)
    (contribution : Contribution) : Prop :=
  ∀ target ∈ contribution.targets, target.IsSited scope pool instruction

/-- Instructions that refer to no member need no site. -/
theorem isSited_of_free {list : List Target.Instruction} (free : ∀ target ∈ list, target.IsFree) :
    IsSited scope pool instruction (.instructions list) := fun target listed =>
  (free target listed).isSited scope pool instruction

/-- One instruction that refers to no member needs no site. -/
theorem isSited_single {target : Target.Instruction} (free : target.IsFree) :
    IsSited scope pool instruction (.single target) :=
  isSited_of_free (List.forall_mem_singleton.2 free)

/-- A load refers to no member. -/
theorem yields_load (slot : Nat) (offset : UInt32) (kind : Bytecode.ValueKind) :
    Yields Target.Instruction.IsFree (load slot offset kind) := by
  refine .bind (.any _) fun place _ => ?_
  cases place <;> exact .pure ⟨rfl, rfl⟩

/-- A store refers to no member. -/
theorem yields_store (slot : Nat) (offset : UInt32) (kind : Bytecode.ValueKind) :
    Yields Target.Instruction.IsFree (store slot offset kind) := by
  refine .bind (.any _) fun place _ => ?_
  cases place <;> exact .pure ⟨rfl, rfl⟩

/-- A deferred record refers to no member. -/
theorem yields_unmapped :
    Yields (IsSited scope pool instruction) (unmapped instruction) :=
  .bind (.any _) fun _ _ => .pure fun _ listed => absurd listed List.not_mem_nil

/-- A constant refers to no member. -/
theorem yields_constant :
    Yields (IsSited scope pool instruction) (constant pool instruction) := by
  refine .bind (.any _) fun value _ => ?_
  cases value with
  | string content =>
    refine .pure fun target listed => ?_
    obtain rfl | rfl : target = .ldstr content ∨ target = .call Catalog.stringFactory := by
      simpa [Contribution.targets] using listed
    · exact Target.Instruction.IsFree.isSited ⟨rfl, rfl⟩ _ _ _
    · refine ⟨?_, ?_⟩
      · rintro _ ⟨⟩
        exact .inl rfl
      · rintro _ ⟨⟩
  | integer | float | long | double => exact .pure (isSited_single ⟨rfl, rfl⟩)
  | _ => exact yields_unmapped

/-- An increment refers to no member. -/
theorem yields_increment (next : UInt32) :
    Yields (IsSited scope pool instruction) (increment instruction next) := by
  unfold increment
  split
  · refine .bind (yields_load _ _ _) fun load loadFree => ?_
    refine .bind (yields_store _ _ _) fun store storeFree => .pure (isSited_of_free ?_)
    simp only [List.forall_mem_cons]
    exact ⟨loadFree, ⟨rfl, rfl⟩, ⟨rfl, rfl⟩, storeFree,
      fun _ listed => absurd listed List.not_mem_nil⟩
  · exact .pure fun _ listed => absurd listed List.not_mem_nil

/-- Fixed counterparts refer to no members. -/
theorem isFree_fixedCounterpart {operation : Bytecode.Operation}
    {counterpart : Target.Instruction} (fixed : fixedCounterpart operation = some counterpart) :
    counterpart.IsFree := by
  unfold fixedCounterpart at fixed
  split at fixed <;> cases fixed <;> exact ⟨rfl, rfl⟩

/-- A field access refers to the field that the source instruction names. -/
theorem isSited_access {reference : MemberReference} {field : FieldRef}
    (named : instruction.member? pool = some reference)
    (resolved : (scope.field reference).result = .ok field) (access : Bytecode.FieldAccess) :
    IsSited scope pool instruction (.single (accessCounterpart field access)) := by
  intro target listed
  obtain rfl := List.mem_singleton.1 listed
  refine ⟨?_, ?_⟩
  · cases access <;> rintro _ ⟨⟩
  · cases access <;> rintro _ ⟨⟩ <;> exact ⟨reference, named, resolved⟩

/-- An invocation refers to the method that the source instruction names. -/
theorem isSited_invocation {reference : MemberReference} {method : MethodRef}
    (named : instruction.member? pool = some reference)
    (resolved : (scope.method reference).result = .ok method) (invocation : Bytecode.Invocation) :
    IsSited scope pool instruction (.single (invocationCounterpart method invocation)) := by
  intro target listed
  obtain rfl := List.mem_singleton.1 listed
  refine ⟨?_, ?_⟩
  · cases invocation <;> rintro _ ⟨⟩ <;> exact .inr ⟨reference, named, resolved⟩
  · cases invocation <;> rintro _ ⟨⟩

/-- The references of lowered instructions are the ones that the source instruction names. -/
theorem yields_lower (next : UInt32) :
    Yields (IsSited scope pool instruction) (lower scope pool instruction next) := by
  unfold lower
  split
  · exact .pure fun _ listed => absurd listed List.not_mem_nil
  · split
    · next counterpart fixed => exact .pure (isSited_single (isFree_fixedCounterpart fixed))
    · split
      · exact .map (yields_load _ _ _) fun _ free => isSited_single free
      · exact .map (yields_load _ _ _) fun _ free => isSited_single free
      · exact .map (yields_store _ _ _) fun _ free => isSited_single free
      · exact .map (yields_store _ _ _) fun _ free => isSited_single free
      · exact .pure (isSited_single ⟨rfl, rfl⟩)
      · exact .pure (isSited_single ⟨rfl, rfl⟩)
      · exact yields_constant
      · exact yields_constant
      · exact yields_constant
      · exact yields_increment next
      -- the operations that name a member
      · next access operation =>
        refine .bind (.liftExcept _) fun reference named => ?_
        refine .bind (.lift _) fun field resolved => .pure ?_
        refine isSited_access ?_ resolved access
        rw [Bytecode.Instruction.member?, operation]
        exact congrArg Except.toOption named
      · next invocation operation =>
        refine .bind (.liftExcept _) fun reference named => ?_
        refine .bind (.lift _) fun method resolved => .pure ?_
        refine isSited_invocation ?_ resolved invocation
        rw [Bytecode.Instruction.member?, operation]
        exact congrArg Except.toOption named
      · refine .bind (.any _) fun name _ => .bind (.any _) fun type _ => .pure (isSited_of_free ?_)
        simp only [List.forall_mem_cons]
        exact ⟨⟨rfl, rfl⟩, ⟨rfl, rfl⟩, ⟨rfl, rfl⟩, fun _ listed => absurd listed List.not_mem_nil⟩
      · split
        · exact .pure (isSited_single ⟨rfl, rfl⟩)
        · exact yields_unmapped
      · exact .bind (.any _) fun name _ => .bind (.any _) fun element _ =>
          .pure (isSited_single ⟨rfl, rfl⟩)
      · exact .bind (.any _) fun name _ => .bind (.any _) fun type _ =>
          .pure (isSited_single ⟨rfl, rfl⟩)
      · exact yields_unmapped

end Emit

/-! ## Lowering bodies -/

variable {scope : Scope} {pool : ConstantPool}

/-- Every target instruction comes from a source instruction at its offset. -/
theorem site_of_lowerInstructions {code : List (Bytecode.Instruction × UInt32)}
    {storage later : LocalStorage} {contributions : List (UInt32 × Contribution)}
    (lowered : (lowerInstructions scope pool code storage).result = .ok (contributions, later)) :
    ∀ entry ∈ collectInstructions contributions, ∃ instruction ∈ code.map Prod.fst,
      instruction.offset = entry.1 ∧ entry.2.IsSited scope pool instruction := by
  induction code generalizing storage contributions with
  | nil =>
    cases lowered
    exact fun _ listed => absurd listed List.not_mem_nil
  | cons pair rest step =>
    obtain ⟨instruction, next⟩ := pair
    obtain ⟨contribution, middle, first, lowered⟩ := Emit.bind_eq_ok.1 lowered
    obtain ⟨others, last, remaining, lowered⟩ := Emit.bind_eq_ok.1 lowered
    cases lowered
    have sited := Emit.yields_lower next _ _ _ first
    intro entry listed
    rw [collectInstructions, List.flatMap_cons, List.mem_append] at listed
    -- what is emitted comes from the first instruction or from one behind it
    obtain own | other := listed
    · refine ⟨instruction, List.mem_cons_self, ?_⟩
      cases contribution with
      | instructions list =>
        obtain ⟨target, member, rfl⟩ := List.mem_map.1 own
        exact ⟨rfl, sited target member⟩
      | deferred record => cases own
    · obtain ⟨source, member, found⟩ := step remaining entry other
      exact ⟨source, List.mem_cons_of_mem _ member, found⟩

/-- Every instruction of a body comes from a source instruction at its offset. -/
theorem site_of_lowerBody {method : Member} {code : MethodCode} {body : Body}
    (lowered : (lowerBody scope pool method code).result = .ok body) :
    ∀ entry ∈ body.instructions, ∃ instruction ∈ code.instructions,
      instruction.offset = entry.1 ∧ entry.2.IsSited scope pool instruction := by
  obtain ⟨_, _, contributions, _, -, -, emitted, -, instructions⟩ := lowerBody_spec lowered
  have sites := site_of_lowerInstructions emitted
  rw [map_fst_withNext] at sites
  rw [instructions]
  exact sites

/-- A method with a body has code, from which the body is lowered. -/
theorem code_of_lowerMethod {file : ClassFile} {method : Member} {body : Body}
    (lowered : (lowerMethod scope file method).result = .ok (some body)) :
    ∃ code, Attribute.code? method.attributes = some code ∧
      (lowerBody scope file.pool method code).result = .ok body := by
  unfold lowerMethod at lowered
  split at lowered
  · cases lowered
  · split at lowered
    · cases lowered
    · next code found =>
      obtain ⟨-, -, lowered⟩ := Logged.bind_eq_ok.1 lowered
      rw [Logged.result_map, Except.map_eq_ok] at lowered
      obtain ⟨own, lowered, same⟩ := lowered
      cases same
      exact ⟨code, found, lowered⟩

end ClassLowering
