import ClassLowering.Proofs.Members.Sites

/-! # How deep the stack gets

Instructions of simple integer code have a fixed effect on the depth of the stack. Lowering keeps
the effect of every instruction (`Emit.yields_effects`), with one exception: an increment leaves the
stack of the source alone, and its counterpart puts two values on top of whatever is there. So the
bound that a body inherits from its code holds for the lowered code exactly if every increment has
room for two values, and is never exceeded by more than two (`lowerBody_depths`). -/

namespace ClassLowering

open Bytecode (Instruction Operation)
open Target (Body)

/-! ## Depths -/

/-- What an instruction does to the depth of a stack. -/
inductive StackEffect where
  /-- The depth changes by a number of values. -/
  | moves (change : Int)
  /-- The stack is given up. -/
  | clears
  deriving DecidableEq, Repr

namespace StackEffect

/-- The depth behind an instruction. -/
def after : StackEffect → Int → Int
  | moves change, depth => depth + change
  | clears, _ => 0

/-- The depths behind each instruction of a sequence. -/
def depths (start : Int) : List StackEffect → List Int
  | [] => []
  | first :: rest => first.after start :: depths (first.after start) rest

/-- The depth behind no instruction of a sequence exceeds the limit. -/
def Within (limit start : Int) (effects : List StackEffect) : Prop :=
  ∀ depth ∈ depths start effects, depth ≤ limit

instance (limit start : Int) (effects : List StackEffect) :
    Decidable (Within limit start effects) :=
  inferInstanceAs (Decidable (∀ _ ∈ _, _))

variable {limit start : Int}

/-- No code needs no stack. -/
@[simp] theorem within_nil : Within limit start [] := by
  simp [Within, depths]

/-- The stack is deep enough if it is for the first instruction and, from there on, for the
others. -/
@[simp] theorem within_cons {first : StackEffect} {rest : List StackEffect} :
    Within limit start (first :: rest) ↔
      first.after start ≤ limit ∧ Within limit (first.after start) rest := by
  simp [Within, depths]

/-- What an increment does to the stack once it is lowered: two values are put there, added and
stored. -/
def increment : List StackEffect := [moves 1, moves 1, moves (-1), moves (-1)]

/-- An increment leaves the stack as it was, and needs room for two values. -/
theorem within_increment_append {rest : List StackEffect} :
    Within limit start (increment ++ rest) ↔ start + 2 ≤ limit ∧ Within limit start rest := by
  have two : start + 1 + 1 = start + 2 := by omega
  have one : start + 2 + -1 = start + 1 := by omega
  have none : start + 1 + -1 = start := by omega
  simp only [increment, List.cons_append, List.nil_append, within_cons, after, two, one, none]
  constructor
  · rintro ⟨-, room, -, -, others⟩
    exact ⟨room, others⟩
  · rintro ⟨room, others⟩
    exact ⟨by omega, room, by omega, by omega, others⟩

end StackEffect

open StackEffect

/-! ## Effects of instructions -/

/-- What an operation of simple integer code does to the depth of the stack. -/
def Bytecode.Operation.stackEffect? : Operation → Option StackEffect
  | .nop | .intInc | .neg .int => some (.moves 0)
  | .intConst _ | .bytePush | .shortPush | .load .int | .loadSlot .int _ | .shuffle .dup =>
    some (.moves 1)
  | .store .int | .storeSlot .int _ | .arith _ .int | .bit _ .int | .shuffle .pop =>
    some (.moves (-1))
  | .returnValue _ | .returnVoid => some .clears
  | _ => none

/-- What a target instruction does to the depth of the stack, if simple integer code has it. -/
def Target.Instruction.stackEffect? : Target.Instruction → Option StackEffect
  | .nop | .neg => some (.moves 0)
  | .ldcI4 _ | .ldarg _ | .ldloc _ | .dup => some (.moves 1)
  | .starg _ | .stloc _ | .arith _ | .bit _ | .pop => some (.moves (-1))
  | .ret => some .clears
  | _ => none

/-- The effects of simple integer code. -/
def Bytecode.stackEffects? (code : List Instruction) : Option (List StackEffect) :=
  code.mapM fun instruction => instruction.operation.stackEffect?

/-- The effects of code are those of its first instruction and of the others. -/
theorem stackEffects?_cons {instruction : Instruction} {code : List Instruction}
    {effects : List StackEffect} :
    Bytecode.stackEffects? (instruction :: code) = some effects ↔
      ∃ first, instruction.operation.stackEffect? = some first ∧
        ∃ others, Bytecode.stackEffects? code = some others ∧ first :: others = effects := by
  simp [Bytecode.stackEffects?, Option.bind_eq_some_iff]

/-- The effects of the instructions of a body. -/
def Target.Body.stackEffects? (body : Body) : Option (List StackEffect) :=
  body.instructions.mapM fun entry => entry.2.stackEffect?

/-- The effects of an operation once it is lowered. -/
def Bytecode.Operation.expand (operation : Operation) (effect : StackEffect) : List StackEffect :=
  if operation = .intInc then increment else [effect]

/-- The effects of code once it is lowered. -/
def expandAll : List Instruction → List StackEffect → List StackEffect
  | instruction :: code, effect :: effects =>
    instruction.operation.expand effect ++ expandAll code effects
  | _, _ => []

/-- An operation with an effect is no branch. -/
theorem Bytecode.Instruction.branchTarget?_of_stackEffect? {instruction : Instruction}
    {effect : StackEffect} (shaped : instruction.Shaped)
    (known : instruction.operation.stackEffect? = some effect) :
    instruction.branchTarget? = none := by
  have straight : instruction.operation.shape ≠ .branch := by
    unfold Operation.stackEffect? at known
    split at known <;> simp_all [Operation.shape]
  unfold branchTarget?
  split
  · next displacement operand =>
    unfold Shaped at shaped
    split at shaped <;> simp_all
  · rfl

/-- Fixed counterparts keep the effect. -/
theorem stackEffect?_of_fixedCounterpart {operation : Operation} {effect : StackEffect}
    {counterpart : Target.Instruction} (fixed : fixedCounterpart operation = some counterpart)
    (known : operation.stackEffect? = some effect) : counterpart.stackEffect? = some effect := by
  unfold Operation.stackEffect? at known
  split at known <;> cases known <;> cases fixed <;> rfl

/-- The other operations with an effect push a constant or access a slot. -/
theorem Bytecode.Operation.cases_of_stackEffect? {operation : Operation} {effect : StackEffect}
    (known : operation.stackEffect? = some effect) (free : fixedCounterpart operation = none) :
    operation = .intInc ∨
      effect = .moves 1 ∧ (operation = .bytePush ∨ operation = .shortPush ∨
        operation = .load .int ∨ ∃ slot, operation = .loadSlot .int slot) ∨
      effect = .moves (-1) ∧
        (operation = .store .int ∨ ∃ slot, operation = .storeSlot .int slot) := by
  unfold Operation.stackEffect? at known
  split at known <;> cases known <;> simp_all [fixedCounterpart]

/-! ## Lowering -/

namespace Emit

variable {scope : Scope} {pool : ConstantPool} {instruction : Instruction} {effect : StackEffect}

/-- The effects of the target instructions of a contribution. -/
def HasEffects (effects : List StackEffect) (contribution : Contribution) : Prop :=
  contribution.targets.mapM Target.Instruction.stackEffect? = some effects

/-- One instruction has the effect that it is emitted for. -/
theorem hasEffects_single {target : Target.Instruction} (same : target.stackEffect? = some effect) :
    HasEffects [effect] (.single target) := by
  simp [HasEffects, Contribution.targets, Contribution.single, same]

/-- Loading puts one value on the stack. -/
theorem yields_load_effect (slot : Nat) (offset : UInt32) (kind : Bytecode.ValueKind) :
    Yields (fun target => target.stackEffect? = some (.moves 1)) (load slot offset kind) := by
  refine .bind (.any _) fun place _ => ?_
  cases place <;> exact .pure rfl

/-- Storing takes one value off the stack. -/
theorem yields_store_effect (slot : Nat) (offset : UInt32) (kind : Bytecode.ValueKind) :
    Yields (fun target => target.stackEffect? = some (.moves (-1))) (store slot offset kind) := by
  refine .bind (.any _) fun place _ => ?_
  cases place <;> exact .pure rfl

/-- An increment is emitted with the effects that are written down for it. -/
theorem yields_increment_effects (next : UInt32) (operation : instruction.operation = .intInc)
    (shaped : instruction.Shaped) :
    Yields (HasEffects StackEffect.increment) (increment instruction next) := by
  unfold Instruction.Shaped at shaped
  rw [operation] at shaped
  obtain ⟨slot, constant, operand, -⟩ := shaped
  unfold increment
  rw [operand]
  refine .bind (yields_load_effect _ _ _) fun load loads => ?_
  refine .bind (yields_store_effect _ _ _) fun store stores => .pure ?_
  have pushes : (Target.Instruction.ldcI4 constant).stackEffect? = some (.moves 1) := rfl
  have adds : (Target.Instruction.arith .add).stackEffect? = some (.moves (-1)) := rfl
  simp [HasEffects, Contribution.targets, loads, pushes, adds, stores, StackEffect.increment]

/-- Lowering keeps the effect of every instruction but an increment. -/
theorem yields_effects (next : UInt32) (shaped : instruction.Shaped)
    (known : instruction.operation.stackEffect? = some effect) :
    Yields (HasEffects (instruction.operation.expand effect))
      (lower scope pool instruction next) := by
  rw [lower, Instruction.branchTarget?_of_stackEffect? shaped known]
  dsimp only
  cases fixed : fixedCounterpart instruction.operation with
  | some counterpart =>
    have other : instruction.operation ≠ .intInc := by
      intro increments
      rw [increments] at fixed
      cases fixed
    rw [Operation.expand, if_neg other]
    exact .pure (hasEffects_single (stackEffect?_of_fixedCounterpart fixed known))
  | none =>
    -- without a fixed counterpart it is an increment, or it pushes one value, or it stores one
    obtain increments | ⟨rfl, pushes⟩ | ⟨rfl, stores⟩ :=
      Operation.cases_of_stackEffect? known fixed
    · rw [increments]
      exact yields_increment_effects next increments shaped
    · obtain operation | operation | operation | ⟨slot, operation⟩ := pushes <;> rw [operation]
      · exact .pure (hasEffects_single rfl)
      · exact .pure (hasEffects_single rfl)
      · exact .map (yields_load_effect _ _ _) fun _ => hasEffects_single
      · exact .map (yields_load_effect _ _ _) fun _ => hasEffects_single
    · obtain operation | ⟨slot, operation⟩ := stores <;> rw [operation]
      · exact .map (yields_store_effect _ _ _) fun _ => hasEffects_single
      · exact .map (yields_store_effect _ _ _) fun _ => hasEffects_single

end Emit

/-- The effects of lowered code, one instruction after the other. -/
theorem effects_of_lowerInstructions {scope : Scope} {pool : ConstantPool}
    {code : List (Instruction × UInt32)} {storage later : LocalStorage}
    {contributions : List (UInt32 × Contribution)} {effects : List StackEffect}
    (shaped : ∀ instruction ∈ code.map Prod.fst, instruction.Shaped)
    (known : Bytecode.stackEffects? (code.map Prod.fst) = some effects)
    (lowered : (lowerInstructions scope pool code storage).result = .ok (contributions, later)) :
    ((collectInstructions contributions).mapM fun entry => entry.2.stackEffect?) =
      some (expandAll (code.map Prod.fst) effects) := by
  induction code generalizing storage contributions effects with
  | nil =>
    cases lowered
    rfl
  | cons pair rest induction =>
    obtain ⟨instruction, next⟩ := pair
    obtain ⟨contribution, middle, first, lowered⟩ := Emit.bind_eq_ok.1 lowered
    obtain ⟨others, last, remaining, lowered⟩ := Emit.bind_eq_ok.1 lowered
    cases lowered
    obtain ⟨firstShaped, othersShaped⟩ := List.forall_mem_cons.1 shaped
    obtain ⟨effect, firstKnown, others, othersKnown, rfl⟩ := stackEffects?_cons.1 known
    have own := Emit.yields_effects next firstShaped firstKnown _ _ _ first
    have behind := induction othersShaped othersKnown remaining
    rw [collectInstructions_eq] at behind ⊢
    -- all targets of an instruction have its offset, which does not matter for the stack
    have targets : ((contribution.targets.map (instruction.offset, ·)).mapM
        fun entry : UInt32 × Target.Instruction => entry.2.stackEffect?) =
          some (instruction.operation.expand effect) := by
      rw [List.mapM_map]
      exact own
    rw [List.flatMap_cons, List.mapM_append, targets, behind]
    rfl

/-- Lowered code stays within a limit if the code does and every increment has room for two
values. -/
theorem within_expandAll_iff {limit start : Int} {code : List Instruction}
    {effects : List StackEffect} (known : Bytecode.stackEffects? code = some effects) :
    Within limit start (expandAll code effects) ↔
      Within limit start effects ∧ ∀ place ∈ code.zip (start :: depths start effects),
        place.1.operation = .intInc → place.2 + 2 ≤ limit := by
  induction code generalizing start effects with
  | nil =>
    cases known
    simp [expandAll]
  | cons instruction rest induction =>
    obtain ⟨effect, firstKnown, others, othersKnown, rfl⟩ := stackEffects?_cons.1 known
    rw [expandAll, Operation.expand, depths, List.zip_cons_cons, List.forall_mem_cons, within_cons]
    -- an increment leaves the depth as it is, but needs two more values in between
    by_cases increments : instruction.operation = .intInc
    · have still : effect = .moves 0 := by
        rw [increments] at firstKnown
        cases firstKnown
        rfl
      subst still
      have same : (StackEffect.moves 0).after start = start := Int.add_zero start
      rw [if_pos increments, within_increment_append, same, induction othersKnown]
      constructor
      · rintro ⟨room, within, others⟩
        exact ⟨⟨by omega, within⟩, fun _ => room, others⟩
      · rintro ⟨⟨-, within⟩, room, others⟩
        exact ⟨room increments, within, others⟩
    · rw [if_neg increments, List.singleton_append, within_cons, induction othersKnown]
      constructor
      · rintro ⟨first, within, others⟩
        exact ⟨⟨first, within⟩, fun increment => absurd increment increments, others⟩
      · rintro ⟨⟨first, within⟩, -, others⟩
        exact ⟨first, within, others⟩

/-! ## Whole bodies -/

/-- The bound of a body is the one of its code. -/
theorem maxStack_of_lowerBody {scope : Scope} {pool : ConstantPool} {method : Member}
    {code : MethodCode} {body : Body}
    (lowered : (lowerBody scope pool method code).result = .ok body) :
    body.maxStack = code.maxStack := by
  obtain ⟨_, -, lowered⟩ := Logged.bind_eq_ok.1 lowered
  obtain ⟨_, -, lowered⟩ := Logged.bind_eq_ok.1 lowered
  obtain ⟨_, -, lowered⟩ := Logged.bind_eq_ok.1 lowered
  cases lowered
  rfl

/-- Every instruction stands at a depth within the limit. -/
theorem depth_le_of_mem_zip {limit start : Int} {code : List Instruction}
    {effects : List StackEffect} (within : Within limit start effects) (low : start ≤ limit)
    {place : Instruction × Int} (listed : place ∈ code.zip (start :: depths start effects)) :
    place.2 ≤ limit := by
  obtain rfl | behind := List.mem_cons.1 (List.of_mem_zip listed).2
  · exact low
  · exact within _ behind

/-- The bound on the stack of a body of simple integer code. The body has the bound of its code. If
the code stays within it, then the lowered code exceeds it by two values at most, and it stays
within it exactly if every increment of the code has room for two values where it stands. -/
theorem lowerBody_depths {bytes : List UInt8} {file : ClassFile} {method : Member}
    {code : MethodCode} {scope : Scope} {body : Body} {effects : List StackEffect}
    (parsed : (ClassFile.parse bytes).result = .ok file) (declared : method ∈ file.methods)
    (coded : Attribute.code? method.attributes = some code)
    (simple : Bytecode.stackEffects? code.instructions = some effects)
    (within : Within code.maxStack.toNat 0 effects)
    (lowered : (lowerBody scope file.pool method code).result = .ok body) :
    body.maxStack = code.maxStack ∧ ∃ emitted, body.stackEffects? = some emitted ∧
      Within (body.maxStack.toNat + 2) 0 emitted ∧
      (Within body.maxStack.toNat 0 emitted ↔
        ∀ place ∈ code.instructions.zip (0 :: depths 0 effects),
          place.1.operation = .intInc → place.2 + 2 ≤ body.maxStack.toNat) := by
  have bound : body.maxStack = code.maxStack := maxStack_of_lowerBody lowered
  obtain ⟨_, _, contributions, _, -, -, emitted, -, instructions⟩ := lowerBody_spec lowered
  have shaped := ClassFile.shaped_of_parse parsed declared coded
  have found : body.stackEffects? = some (expandAll code.instructions effects) := by
    have known := effects_of_lowerInstructions (by rwa [map_fst_withNext])
      (by rwa [map_fst_withNext]) emitted
    rwa [map_fst_withNext, ← instructions] at known
  -- no depth is more than two above that of the code
  refine ⟨bound, _, found, ?_, ?_⟩
  · rw [within_expandAll_iff simple, bound]
    refine ⟨fun depth listed => ?_, fun place listed _ => ?_⟩
    · have := within depth listed
      omega
    · have := depth_le_of_mem_zip within (Int.natCast_nonneg _) listed
      omega
  · rw [within_expandAll_iff simple, bound]
    exact and_iff_right within

/-- A class whose only method is static and has descriptor `(I)I`: it increments its argument,
stores the square of it and returns it. Two values are the most that is on the stack. -/
def squaringClass : List UInt8 :=
  [0xCA, 0xFE, 0xBA, 0xBE, 0, 0, 0, 52,
    -- the pool: `A` as a text and a class, `f`, `(I)I` and `Code`
    0, 6, 1, 0, 1, 65, 7, 0, 1, 1, 0, 1, 102, 1, 0, 4, 40, 73, 41, 73, 1, 0, 4, 67, 111, 100, 101,
    0, 0x21, 0, 2, 0, 0, 0, 0, 0, 0,
    -- the method and its code
    0, 1, 0, 9, 0, 3, 0, 4, 0, 1, 0, 5, 0, 0, 0, 21, 0, 2, 0, 2, 0, 0, 0, 9,
    0x84, 0, 1, 0x1A, 0x59, 0x68, 0x3C, 0x1B, 0xAC,
    0, 0, 0, 0, 0, 0]

/-- The method is simple integer code, and its increment has room for two values. -/
theorem squaringClass_spec :
    ∃ file ∈ (ClassFile.parse squaringClass).result.toOption,
      ∃ method ∈ file.methods, ∃ code ∈ Attribute.code? method.attributes,
        ∃ effects ∈ Bytecode.stackEffects? code.instructions,
          Within code.maxStack.toNat 0 effects ∧
          ∃ body ∈ (lowerBody ⟨Catalog.standard, .empty "M"⟩ file.pool method code).result.toOption,
            ∀ place ∈ code.instructions.zip (0 :: depths 0 effects),
              place.1.operation = .intInc → place.2 + 2 ≤ body.maxStack.toNat := by
  decide +kernel

/-- The increment comes where nothing is on the stack, so there is room for two values. -/
theorem lowerBody_depths_squaring :
    ∃ file method code effects body emitted,
      (ClassFile.parse squaringClass).result = .ok file ∧ method ∈ file.methods ∧
      Attribute.code? method.attributes = some code ∧
      Bytecode.stackEffects? code.instructions = some effects ∧
      Within code.maxStack.toNat 0 effects ∧
      (lowerBody ⟨Catalog.standard, .empty "M"⟩ file.pool method code).result = .ok body ∧
      body.stackEffects? = some emitted ∧ Within body.maxStack.toNat 0 emitted := by
  obtain ⟨file, parsed, method, declared, code, coded, effects, simple, within, body, lowered,
    room⟩ := squaringClass_spec
  have parsed := Except.eq_ok_of_mem_toOption parsed
  have lowered := Except.eq_ok_of_mem_toOption lowered
  obtain ⟨-, emitted, found, -, fits⟩ :=
    lowerBody_depths parsed declared coded simple within lowered
  exact ⟨file, method, code, effects, body, emitted, parsed, declared, coded, simple, within,
    lowered, found, fits.2 room⟩

/-- A class whose only method is static and has descriptor `(I)V`: it increments its argument and
returns, so that the stack is always empty. -/
def idleClass : List UInt8 :=
  [0xCA, 0xFE, 0xBA, 0xBE, 0, 0, 0, 52,
    -- the pool: `A` and `java/lang/Object` as texts and classes, `f`, `(I)V` and `Code`
    0, 8, 1, 0, 1, 65, 7, 0, 1,
    1, 0, 16, 106, 97, 118, 97, 47, 108, 97, 110, 103, 47, 79, 98, 106, 101, 99, 116, 7, 0, 3,
    1, 0, 1, 102, 1, 0, 4, 40, 73, 41, 86, 1, 0, 4, 67, 111, 100, 101,
    0, 0x21, 0, 2, 0, 4, 0, 0, 0, 0,
    -- the method and its code
    0, 1, 0, 9, 0, 5, 0, 6, 0, 1, 0, 7, 0, 0, 0, 16, 0, 0, 0, 1, 0, 0, 0, 4,
    0x84, 0, 1, 0xB1,
    0, 0, 0, 0, 0, 0]

/-- The code needs no stack, and its lowered form exceeds the bound of the body. -/
theorem not_within_idle :
    ∃ file ∈ (ClassFile.parse idleClass).result.toOption,
      ∃ method ∈ file.methods, ∃ code ∈ Attribute.code? method.attributes,
        ∃ effects ∈ Bytecode.stackEffects? code.instructions,
          Within code.maxStack.toNat 0 effects ∧
          ∃ body ∈ (lowerBody ⟨Catalog.standard, .empty "M"⟩ file.pool method code).result.toOption,
            ∃ emitted ∈ body.stackEffects?, ¬Within body.maxStack.toNat 0 emitted := by
  decide +kernel

end ClassLowering
