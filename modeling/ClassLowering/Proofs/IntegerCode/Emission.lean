import Mathlib.Data.List.Forall2
import ClassLowering.Proofs.IntegerCode.Machine
import ClassLowering.Proofs.ParsedCode
import ClassLowering.Proofs.SyntheticStorage

/-! # What integer instructions are lowered to

An instruction that is integer code is lowered to target instructions that realize its action
(`emits_of_lower`): a computation on the stack becomes one instruction with the same effect, an
access to a slot becomes an access to the place where the storage keeps it, and an increment becomes
a load, a constant, an addition and a store. -/

namespace ClassLowering

open Bytecode (Instruction)

/-- The target instructions do what an action does, given which place keeps a slot. -/
inductive Realizes (keeps : Nat → Place → Prop) :
    IntegerAction → List Target.Instruction → Prop where
  | compute {effect : List Int32 → Option (List Int32)} {counterpart : Target.Instruction}
      (same : counterpart.effect? = some effect) : Realizes keeps (.compute effect) [counterpart]
  | load {slot : Nat} {place : Place} (kept : keeps slot place) :
      Realizes keeps (.load slot) [place.load]
  | store {slot : Nat} {place : Place} (kept : keeps slot place) :
      Realizes keeps (.store slot) [place.store]
  | increment {slot : Nat} {constant : Int32} {loaded stored : Place}
      (loads : keeps slot loaded) (stores : keeps slot stored) :
      Realizes keeps (.increment slot constant)
        [loaded.load, .ldcI4 constant, .arith .add, stored.store]
  | finish : Realizes keeps .finish [.ret]

/-- Only the place of the slot that the action is about matters. -/
theorem Realizes.mono {keeps keepsMore : Nat → Place → Prop} {action : IntegerAction}
    {list : List Target.Instruction}
    (more : ∀ slot place, action.slot? = some slot → keeps slot place → keepsMore slot place)
    (realizes : Realizes keeps action list) : Realizes keepsMore action list := by
  cases realizes with
  | compute same => exact .compute same
  | load kept => exact .load (more _ _ rfl kept)
  | store kept => exact .store (more _ _ rfl kept)
  | increment loads stores => exact .increment (more _ _ rfl loads) (more _ _ rfl stores)
  | finish => exact .finish

namespace Emit

variable {storage later : LocalStorage} {slot : Nat} {offset : UInt32}
  {emitted : Target.Instruction}

/-- Loading a slot is loading from the place that is looked up. -/
theorem load_spec (synthetic : storage.Synthetic)
    (found : (load slot offset .int storage).result = .ok (emitted, later)) :
    later.Synthetic ∧ storage.Grows later ∧
      ∃ place : Place, later.Holds slot .int place ∧ emitted = place.load := by
  rw [load_eq_map] at found
  obtain ⟨place, looked, rfl⟩ := map_eq_ok.1 found
  obtain ⟨laterSynthetic, grows, holds⟩ := LocalStorage.lookup_spec synthetic looked
  exact ⟨laterSynthetic, grows, place, holds, rfl⟩

/-- Storing into a slot is storing into the place that is looked up. -/
theorem store_spec (synthetic : storage.Synthetic)
    (found : (store slot offset .int storage).result = .ok (emitted, later)) :
    later.Synthetic ∧ storage.Grows later ∧
      ∃ place : Place, later.Holds slot .int place ∧ emitted = place.store := by
  rw [store_eq_map] at found
  obtain ⟨place, looked, rfl⟩ := map_eq_ok.1 found
  obtain ⟨laterSynthetic, grows, holds⟩ := LocalStorage.lookup_spec synthetic looked
  exact ⟨laterSynthetic, grows, place, holds, rfl⟩

end Emit

/-! ## Constants -/

/-- An integer constant that has a meaning is the constant that is loaded. -/
theorem ConstantPool.required_of_integer? {pool : ConstantPool} {index : UInt16} {value : Int32}
    (found : pool.integer? index.toNat = some value) :
    pool.required index = .ok (.integer value) := by
  unfold integer? at found
  split at found
  · cases found
  · next position same =>
    have positive : index ≠ 0 := by
      rintro rfl
      cases same
    unfold required lookupIndex
    rw [if_neg positive, same, Nat.succ_sub_one]
    split at found
    · next constant listed =>
      cases found
      rw [listed]
    · cases found

/-! ## Single instructions -/

/-- The place where a storage keeps a slot that holds an integer. -/
def LocalStorage.KeepsInt (storage : LocalStorage) (slot : Nat) (place : Place) : Prop :=
  storage.Holds slot .int place

/-- Lowering an action leaves a storage that has grown and gives instructions that realize it. -/
def Emits (storage later : LocalStorage) (action : IntegerAction) (contribution : Contribution) :
    Prop :=
  later.Synthetic ∧ storage.Grows later ∧
    ∃ list, contribution = .instructions list ∧ Realizes later.KeepsInt action list

section

variable {storage later : LocalStorage} {slot : Nat} {offset next : UInt32}
  {contribution : Contribution}

/-- One instruction that computes on the stack alone. -/
theorem emits_compute {effect : List Int32 → Option (List Int32)} {counterpart : Target.Instruction}
    (synthetic : storage.Synthetic) (same : counterpart.effect? = some effect) :
    Emits storage storage (.compute effect) (.single counterpart) :=
  ⟨synthetic, .refl _, _, rfl, .compute same⟩

/-- A load is emitted as the load of the place of its slot. -/
theorem emits_load (synthetic : storage.Synthetic)
    (found : ((Contribution.single <$> Emit.load slot offset .int) storage).result =
      .ok (contribution, later)) :
    Emits storage later (.load slot) contribution := by
  obtain ⟨emitted, looked, rfl⟩ := Emit.map_eq_ok.1 found
  obtain ⟨laterSynthetic, grows, place, holds, rfl⟩ := Emit.load_spec synthetic looked
  exact ⟨laterSynthetic, grows, _, rfl, .load holds⟩

/-- A store is emitted as the store into the place of its slot. -/
theorem emits_store (synthetic : storage.Synthetic)
    (found : ((Contribution.single <$> Emit.store slot offset .int) storage).result =
      .ok (contribution, later)) :
    Emits storage later (.store slot) contribution := by
  obtain ⟨emitted, looked, rfl⟩ := Emit.map_eq_ok.1 found
  obtain ⟨laterSynthetic, grows, place, holds, rfl⟩ := Emit.store_spec synthetic looked
  exact ⟨laterSynthetic, grows, _, rfl, .store holds⟩

/-- An increment loads and stores the same slot, at two offsets. -/
theorem emits_increment {instruction : Instruction} {first constant : Int32}
    (synthetic : storage.Synthetic) (operand : instruction.operand = .twoValue first constant)
    (found : (Emit.increment instruction next storage).result = .ok (contribution, later)) :
    Emits storage later (.increment first.toUInt32.toUInt16.toNat constant) contribution := by
  unfold Emit.increment at found
  rw [operand] at found
  obtain ⟨loadInstruction, middle, loading, found⟩ := Emit.bind_eq_ok.1 found
  obtain ⟨storeInstruction, last, storing, found⟩ := Emit.bind_eq_ok.1 found
  obtain ⟨middleSynthetic, firstGrows, loaded, loads, rfl⟩ := Emit.load_spec synthetic loading
  obtain ⟨lastSynthetic, secondGrows, stored, stores, rfl⟩ :=
    Emit.store_spec middleSynthetic storing
  cases found
  exact ⟨lastSynthetic, firstGrows.trans secondGrows, _, rfl,
    .increment (loads.grow secondGrows) stores⟩

/-- A constant that is an integer is pushed. -/
theorem emits_constant {pool : ConstantPool} {instruction : Instruction} {value : Int32}
    (synthetic : storage.Synthetic)
    (found : (Emit.constant pool instruction storage).result = .ok (contribution, later))
    (integer : pool.integer? instruction.index.toNat = some value) :
    Emits storage later (.compute (push value)) contribution := by
  unfold Emit.constant at found
  rw [ConstantPool.required_of_integer? integer] at found
  cases found
  exact emits_compute synthetic rfl

end

/-- Slots are 16-bit numbers. -/
theorem slot_lt_of_action? {pool : ConstantPool} {instruction : Instruction}
    {action : IntegerAction} {slot : Nat} (shaped : instruction.Shaped)
    (meaning : instruction.action? pool = some action) (accessed : action.slot? = some slot) :
    slot < 65536 := by
  obtain ⟨operation, offset, operand, wide⟩ := instruction
  unfold Instruction.action? at meaning
  dsimp only at meaning
  split at meaning
  case h_5 index | h_6 index =>
    obtain ⟨value, -, rfl⟩ := Option.map_eq_some_iff.1 meaning
    cases accessed
  -- slots in the operand
  case h_7 | h_9 =>
    obtain ⟨_, same, refused | isIndex⟩ := shaped
    · cases refused
    · cases same
      cases meaning
      cases accessed
      exact isIndex.toNat_lt
  case h_11 =>
    obtain ⟨_, _, same, isIndex⟩ := shaped
    cases same
    cases meaning
    cases accessed
    exact isIndex.toNat_lt
  -- slots in the operation
  case h_8 slot | h_10 slot =>
    cases meaning
    cases accessed
    omega
  case h_25 => cases meaning
  all_goals
    cases meaning
    cases accessed

/-- Lowered integer code realizes the action of the instruction. -/
theorem emits_of_lower {scope : Scope} {pool : ConstantPool} {instruction : Instruction}
    {next : UInt32} {action : IntegerAction} {storage later : LocalStorage}
    {contribution : Contribution} (shaped : instruction.Shaped)
    (meaning : instruction.action? pool = some action) (synthetic : storage.Synthetic)
    (found : (Emit.lower scope pool instruction next storage).result = .ok (contribution, later)) :
    Emits storage later action contribution := by
  obtain ⟨operation, offset, operand, wide⟩ := instruction
  unfold Instruction.action? at meaning
  dsimp only at meaning
  split at meaning
  -- pushed bytes and shorts: the operand is the value itself
  case h_3 value | h_4 value =>
    cases meaning
    cases found
    exact emits_compute synthetic rfl
  -- constants of the pool
  case h_5 index | h_6 index =>
    obtain ⟨_, same, refused | isIndex⟩ := shaped
    · cases refused
    · cases same
      obtain ⟨value, integer, rfl⟩ := Option.map_eq_some_iff.1 meaning
      rw [← isIndex.toNat_eq] at integer
      exact emits_constant synthetic found integer
  -- slots in the operand
  case h_7 slot =>
    obtain ⟨_, same, refused | isIndex⟩ := shaped
    · cases refused
    · cases same
      cases meaning
      rw [← isIndex.toNat_eq]
      exact emits_load synthetic found
  case h_9 slot =>
    obtain ⟨_, same, refused | isIndex⟩ := shaped
    · cases refused
    · cases same
      cases meaning
      rw [← isIndex.toNat_eq]
      exact emits_store synthetic found
  case h_11 slot constant =>
    obtain ⟨_, _, same, isIndex⟩ := shaped
    cases same
    cases meaning
    rw [← isIndex.toNat_eq]
    exact emits_increment synthetic rfl found
  -- slots in the operation
  case h_8 slot =>
    obtain rfl : operand = .simple := shaped
    cases meaning
    exact emits_load synthetic found
  case h_10 slot =>
    obtain rfl : operand = .simple := shaped
    cases meaning
    exact emits_store synthetic found
  case h_24 =>
    obtain rfl : operand = .simple := shaped
    cases meaning
    cases found
    exact ⟨synthetic, .refl _, _, rfl, .finish⟩
  case h_25 => cases meaning
  -- all others compute on the stack and have a fixed counterpart
  all_goals
    obtain rfl : operand = .simple := shaped
    cases meaning
    cases found
    exact emits_compute synthetic rfl

/-! ## Code arrays -/

/-- Instructions of contributions come one after another. -/
theorem collectInstructions_cons (offset : UInt32) (list : List Target.Instruction)
    (contributions : List (UInt32 × Contribution)) :
    (collectInstructions ((offset, .instructions list) :: contributions)).map Prod.snd =
      list ++ (collectInstructions contributions).map Prod.snd := by
  rw [collectInstructions, List.flatMap_cons, List.map_append, List.map_map]
  congr 1
  exact List.map_id' list

/-- The target instructions of one source instruction realize its action. -/
def Bytecode.Instruction.RealizedBy (pool : ConstantPool) (keeps : Nat → Place → Prop)
    (instruction : Instruction) (list : List Target.Instruction) : Prop :=
  ∃ action, instruction.action? pool = some action ∧ Realizes keeps action list

/-- Lowered integer code realizes the actions of its instructions, all with the storage that is
left in the end. -/
theorem realizedBy_of_lowerInstructions {scope : Scope} {pool : ConstantPool}
    {code : List (Instruction × UInt32)} {storage later : LocalStorage}
    {contributions : List (UInt32 × Contribution)} (synthetic : storage.Synthetic)
    (shaped : ∀ pair ∈ code, pair.1.Shaped)
    (integer : ∀ pair ∈ code, (pair.1.action? pool).isSome)
    (found : (lowerInstructions scope pool code storage).result = .ok (contributions, later)) :
    later.Synthetic ∧ storage.Grows later ∧
      ∃ lists, (collectInstructions contributions).map Prod.snd = lists.flatten ∧
        List.Forall₂ (Instruction.RealizedBy pool later.KeepsInt) (code.map Prod.fst) lists := by
  induction code generalizing storage contributions with
  | nil =>
    cases found
    exact ⟨synthetic, .refl _, [], rfl, .nil⟩
  | cons pair rest induction =>
    obtain ⟨firstShaped, shaped⟩ := List.forall_mem_cons.1 shaped
    obtain ⟨firstInteger, integer⟩ := List.forall_mem_cons.1 integer
    obtain ⟨action, meaning⟩ := Option.isSome_iff_exists.1 firstInteger
    obtain ⟨contribution, middle, first, found⟩ := Emit.bind_eq_ok.1 found
    obtain ⟨others, last, remaining, found⟩ := Emit.bind_eq_ok.1 found
    cases found
    obtain ⟨middleSynthetic, grows, list, rfl, realizes⟩ :=
      emits_of_lower firstShaped meaning synthetic first
    obtain ⟨lastSynthetic, growsMore, lists, same, realized⟩ :=
      induction middleSynthetic shaped integer remaining
    refine ⟨lastSynthetic, grows.trans growsMore, list :: lists, ?_, .cons ⟨action, meaning, ?_⟩
      realized⟩
    · rw [collectInstructions_cons, same, List.flatten_cons]
    -- a place that is kept stays kept while later instructions add variables
    · exact realizes.mono fun _ _ _ kept => kept.grow growsMore

end ClassLowering
