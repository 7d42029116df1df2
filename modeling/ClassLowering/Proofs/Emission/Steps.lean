import Mathlib.Data.List.Forall2
import ClassLowering.Proofs.Encoding.Instructions
import ClassLowering.Proofs.Storage.Variables

/-! # What lowering an instruction can give

The instructions of a parsed class have operands of the right shape and ascending offsets
(`CodeFrame.WellFormed`). Lowering such an instruction does one of six things (`Contributes`), and
this is said in terms of the storage that is left in the end: an answer that a storage gave is the
one that it gives from then on. So all contributions of a method are told from one storage
(`lowerInstructions_spec`). -/

namespace ClassLowering

open Bytecode (Instruction ValueKind)

/-! ## Code arrays -/

namespace Bytecode.Instruction

variable {start : Nat} {instructions : List Instruction}

/-- No instruction stands before the first one. -/
theorem RunningOffsets.start_le (offsets : RunningOffsets start instructions) :
    ∀ instruction ∈ instructions, start ≤ instruction.offset.toNat := by
  intro instruction listed
  obtain ⟨index, inside, rfl⟩ := List.mem_iff_getElem.1 listed
  rw [offsets index inside]
  exact Nat.le_add_right _ _

/-- Instructions that start where the ones before them end have ascending offsets. -/
theorem RunningOffsets.ascending (offsets : RunningOffsets start instructions) :
    instructions.Pairwise (·.offset < ·.offset) := by
  induction instructions generalizing start with
  | nil => exact .nil
  | cons instruction others induction =>
    obtain ⟨here, later⟩ := runningOffsets_cons.1 offsets
    refine .cons (fun other listed => ?_) (induction later)
    have filled : 0 < instruction.encode.length :=
      List.length_pos_iff.2 (encodeWith_ne_nil instruction _)
    have behind := later.start_le other listed
    rw [UInt32.lt_iff_toNat_lt]
    omega

end Bytecode.Instruction

/-- The instructions have operands of the right shape, and each one stands behind those before. -/
structure CodeFrame.WellFormed (frame : CodeFrame) : Prop where
  shaped : ∀ instruction ∈ frame.instructions, instruction.Shaped
  ascending : frame.instructions.Pairwise (·.offset < ·.offset)

/-- An instruction is known by its offset. -/
theorem CodeFrame.WellFormed.eq_of_offset {frame : CodeFrame} (formed : frame.WellFormed)
    {first second : Instruction} (listed : first ∈ frame.instructions)
    (otherListed : second ∈ frame.instructions) (same : first.offset = second.offset) :
    first = second := by
  have nodup : (frame.instructions.map Instruction.offset).Nodup :=
    List.pairwise_map.2 (formed.ascending.imp fun less => UInt32.ne_of_lt less)
  exact List.inj_on_of_nodup_map nodup listed otherListed same

/-- All code of the methods of a parsed class is well formed. -/
theorem ClassFile.wellFormed_of_parse {bytes : List UInt8} {file : ClassFile} {method : Member}
    {frame : CodeFrame} {nested : List Attribute} (parsed : (parse bytes).result = .ok file)
    (listed : method ∈ file.methods) (coded : .code frame nested ∈ method.attributes) :
    frame.WellFormed := by
  refine frame_of_parse CodeFrame.WellFormed
    (fun pool start step stop read => ?_) parsed listed coded
  obtain ⟨code, base, length, all⟩ := Attribute.readAll_of_readCodeFrame read
  refine ⟨Instruction.shaped_of_readAll all, ?_⟩
  -- a code array is shorter than its offsets can tell, as its length is a 32-bit number
  have small : 0 + code.length < 2 ^ 32 := by
    rw [Nat.zero_add, length]
    exact UInt32.toNat_lt _
  exact ((Instruction.readAll_eq_ok_iff.1 all).encodes small).2.1.ascending

/-! ## Accesses to slots -/

/-- The access of an instruction that loads a slot. -/
def Bytecode.Instruction.loadAccess? (instruction : Instruction) : Option LocalStorage.Access :=
  match instruction.operation, instruction.operand with
  | .load kind, .oneValue slot => some ⟨slot.toInt.toNat, instruction.offset, kind⟩
  | .loadSlot kind slot, _ => some ⟨slot.val, instruction.offset, kind⟩
  | .intInc, .twoValue slot _ => some ⟨slot.toInt.toNat, instruction.offset, .int⟩
  | _, _ => none

/-- The access of an instruction that stores into a slot: the value lives from the offset behind the
instruction on. -/
def Bytecode.Instruction.storeAccess? (instruction : Instruction) (next : UInt32) :
    Option LocalStorage.Access :=
  match instruction.operation, instruction.operand with
  | .store kind, .oneValue slot => some ⟨slot.toInt.toNat, next, kind⟩
  | .storeSlot kind slot, _ => some ⟨slot.val, next, kind⟩
  | .intInc, .twoValue slot _ => some ⟨slot.toInt.toNat, next, .int⟩
  | _, _ => none

/-- The slot of a load or a store has a number of 16 bits. -/
theorem Bytecode.Instruction.Shaped.isIndex_of_oneValue {instruction : Instruction}
    (shaped : instruction.Shaped) (shape : instruction.operation.shape = .oneValue)
    (noPush : instruction.operation ≠ .bytePush) {slot : Int32}
    (operand : instruction.operand = .oneValue slot) : Bytecode.IsIndex slot := by
  unfold Instruction.Shaped at shaped
  rw [shape] at shaped
  obtain ⟨_, same, push | isIndex⟩ := shaped
  · exact absurd push noPush
  · cases operand.symm.trans same
    exact isIndex

/-- The slot of an increment has a number of 16 bits. -/
theorem Bytecode.Instruction.Shaped.isIndex_of_twoValue {instruction : Instruction}
    (shaped : instruction.Shaped) (shape : instruction.operation.shape = .twoValue)
    {slot constant : Int32} (operand : instruction.operand = .twoValue slot constant) :
    Bytecode.IsIndex slot := by
  unfold Instruction.Shaped at shaped
  rw [shape] at shaped
  obtain ⟨_, _, same, isIndex⟩ := shaped
  cases operand.symm.trans same
  exact isIndex

/-- Accesses of instructions of the right shape are to slots with numbers of 16 bits. -/
theorem Bytecode.Instruction.Shaped.slot_lt {instruction : Instruction}
    (shaped : instruction.Shaped) (next : UInt32) {access : LocalStorage.Access}
    (accesses : instruction.loadAccess? = some access ∨
      instruction.storeAccess? next = some access) : access.slot < 65536 := by
  have four (slot : Fin 4) : slot.val < 65536 := Nat.lt_trans slot.isLt (by decide)
  rcases accesses with reads | writes
  · unfold loadAccess? at reads
    split at reads <;> cases reads
    · next operation operand =>
      exact (shaped.isIndex_of_oneValue (by rw [operation]; rfl)
        (by simp [operation]) operand).toNat_lt
    · exact four _
    · next operation operand =>
      exact (shaped.isIndex_of_twoValue (by rw [operation]; rfl) operand).toNat_lt
  · unfold storeAccess? at writes
    split at writes <;> cases writes
    · next operation operand =>
      exact (shaped.isIndex_of_oneValue (by rw [operation]; rfl)
        (by simp [operation]) operand).toNat_lt
    · exact four _
    · next operation operand =>
      exact (shaped.isIndex_of_twoValue (by rw [operation]; rfl) operand).toNat_lt

/-- The place that a target instruction loads from. -/
def Target.Instruction.loadedPlace? : Target.Instruction → Option Place
  | ldarg index => some (.parameter index)
  | ldloc index => some (.localVariable index)
  | _ => none

/-- The place that a target instruction stores into. -/
def Target.Instruction.storedPlace? : Target.Instruction → Option Place
  | starg index => some (.parameter index)
  | stloc index => some (.localVariable index)
  | _ => none

/-- The target instruction accesses neither parameters nor variables. -/
def Target.Instruction.IsPlaceless (target : Target.Instruction) : Prop :=
  target.loadedPlace? = none ∧ target.storedPlace? = none

/-- Loading a place reads it. -/
@[simp] theorem Place.loadedPlace?_load (place : Place) : place.load.loadedPlace? = some place := by
  cases place <;> rfl

/-- Loading a place writes none. -/
@[simp] theorem Place.storedPlace?_load (place : Place) : place.load.storedPlace? = none := by
  cases place <;> rfl

/-- Storing into a place reads none. -/
@[simp] theorem Place.loadedPlace?_store (place : Place) : place.store.loadedPlace? = none := by
  cases place <;> rfl

/-- Storing into a place writes it. -/
@[simp] theorem Place.storedPlace?_store (place : Place) :
    place.store.storedPlace? = some place := by
  cases place <;> rfl

/-! ## Contributions -/

/-- The target instructions of a contribution. -/
def Contribution.targets : Contribution → List Target.Instruction
  | instructions list => list
  | deferred _ => []

/-- What an instruction contributes, when the storage answers its accesses. -/
inductive Contributes (storage : LocalStorage) (instruction : Instruction) (next : UInt32) :
    Contribution → Prop where
  | branch {target : UInt32} (leads : instruction.branchTarget? = some target) :
      Contributes storage instruction next
        (.deferred (.branch instruction.offset instruction.operation target))
  | unmapped (straight : instruction.branchTarget? = none) :
      Contributes storage instruction next
        (.deferred (.unmapped instruction.offset instruction.operation))
  | placeless {list : List Target.Instruction} (straight : instruction.branchTarget? = none)
      (filled : list ≠ []) (placeless : ∀ target ∈ list, target.IsPlaceless) :
      Contributes storage instruction next (.instructions list)
  | load {access : LocalStorage.Access} {place : Place}
      (straight : instruction.branchTarget? = none) (reads : instruction.loadAccess? = some access)
      (settles : storage.Settles access (.ok place)) :
      Contributes storage instruction next (.single place.load)
  | store {access : LocalStorage.Access} {place : Place}
      (straight : instruction.branchTarget? = none)
      (writes : instruction.storeAccess? next = some access)
      (settles : storage.Settles access (.ok place)) :
      Contributes storage instruction next (.single place.store)
  | increment {constant : Int32} {loadAccess storeAccess : LocalStorage.Access}
      {loaded stored : Place} (straight : instruction.branchTarget? = none)
      (reads : instruction.loadAccess? = some loadAccess)
      (loads : storage.Settles loadAccess (.ok loaded))
      (writes : instruction.storeAccess? next = some storeAccess)
      (stores : storage.Settles storeAccess (.ok stored)) :
      Contributes storage instruction next
        (.instructions [loaded.load, .ldcI4 constant, .arith .add, stored.store])

/-- Answers of a storage stay, so that contributions stay. -/
theorem Contributes.extend {storage later : LocalStorage} {instruction : Instruction}
    {next : UInt32} {contribution : Contribution}
    (contributes : Contributes storage instruction next contribution)
    (more : storage.Extends later) : Contributes later instruction next contribution := by
  cases contributes with
  | branch leads => exact .branch leads
  | unmapped straight => exact .unmapped straight
  | placeless straight filled placeless => exact .placeless straight filled placeless
  | load straight reads settles => exact .load straight reads (settles.extend more)
  | store straight writes settles => exact .store straight writes (settles.extend more)
  | increment straight reads loads writes stores =>
    exact .increment straight reads (loads.extend more) writes (stores.extend more)

namespace Emit

/-- The step leads to a storage for which its value has a property. -/
def Leads {α : Type} (property : LocalStorage → α → Prop) (step : Emit α) : Prop :=
  ∀ storage value later, (step storage).result = .ok (value, later) →
    storage.LeadsTo later ∧ property later value

namespace Leads

variable {α β : Type} {property : LocalStorage → α → Prop} {after : LocalStorage → β → Prop}

/-- A value leads to what holds of it in every storage. -/
theorem pure {value : α} (holds : ∀ storage, property storage value) :
    Leads property (Pure.pure value) := by
  intro storage value later same
  obtain ⟨rfl, rfl⟩ := Emit.pure_eq_ok.1 same
  exact ⟨.refl, holds storage⟩

/-- What the first step gives may be used in the second one if it stays. -/
theorem bind {first : Emit α} {rest : α → Emit β} (leads : Leads property first)
    (stays : ∀ storage later value, property storage value → storage.Extends later →
      property later value)
    (following : ∀ value, Leads (fun storage result => property storage value →
      after storage result) (rest value)) : Leads after (first >>= rest) := by
  intro storage result later found
  obtain ⟨value, middle, before, found⟩ := Emit.bind_eq_ok.1 found
  obtain ⟨toMiddle, holds⟩ := leads _ _ _ before
  obtain ⟨toLater, result⟩ := following value _ _ _ found
  exact ⟨toMiddle.trans toLater, result (stays _ _ _ holds toLater.toExtends)⟩

/-- What is found outside the storage leaves it alone. -/
theorem bindLift {outcome : Logged Error α} {rest : α → Emit β}
    (following : ∀ value, Leads after (rest value)) : Leads after (liftM outcome >>= rest) := by
  intro storage result later found
  obtain ⟨value, middle, before, found⟩ := Emit.bind_eq_ok.1 found
  obtain ⟨_, -, same⟩ := Logged.bind_eq_ok.1 before
  cases same
  exact following value _ _ _ found

/-- An outcome that is there already leaves the storage to what follows. -/
theorem bindLiftExcept {outcome : Except Error α} {rest : α → Emit β}
    (following : ∀ value, Leads after (rest value)) : Leads after (liftM outcome >>= rest) := by
  intro storage result later found
  obtain ⟨value, middle, before, found⟩ := Emit.bind_eq_ok.1 found
  obtain ⟨-, rfl⟩ := Emit.lift_eq_ok.1 before
  exact following value _ _ _ found

/-- What is made of a result leads to what follows from the property of the result. -/
theorem map {first : Emit α} {f : α → β} (leads : Leads property first)
    (following : ∀ storage value, property storage value → after storage (f value)) :
    Leads after (f <$> first) := by
  intro storage result later found
  obtain ⟨value, before, rfl⟩ := Emit.map_eq_ok.1 found
  obtain ⟨toLater, holds⟩ := leads _ _ _ before
  exact ⟨toLater, following _ _ holds⟩

end Leads

variable {scope : Scope} {pool : ConstantPool} {instruction : Instruction} {next : UInt32}

/-- The place that is looked up is the one where the storage keeps the slot from then on. -/
theorem leads_place (access : LocalStorage.Access) :
    Leads (fun storage place => storage.Settles access (.ok place))
      (place access.slot access.offset access.kind) :=
  fun _ _ _ found => LocalStorage.settles_of_lookup found

/-- Lowering the instruction gives what it contributes to the storage that is left. -/
abbrev LeadsToContribution (instruction : Instruction) (next : UInt32)
    (step : Emit Contribution) : Prop :=
  Leads (fun storage => Contributes storage instruction next) step

/-- Lowering an instruction that reads a variable contributes the load of its place. -/
theorem leads_loadAccess {slot : Nat} {offset : UInt32} {kind : ValueKind}
    (straight : instruction.branchTarget? = none)
    (reads : instruction.loadAccess? = some ⟨slot, offset, kind⟩) :
    LeadsToContribution instruction next (.single <$> load slot offset kind) := by
  rw [load_eq_map, Functor.map_map]
  exact .map (leads_place ⟨slot, offset, kind⟩) fun _ _ settles => .load straight reads settles

/-- Lowering an instruction that writes a variable contributes the store into its place. -/
theorem leads_storeAccess {slot : Nat} {offset : UInt32} {kind : ValueKind}
    (straight : instruction.branchTarget? = none)
    (writes : instruction.storeAccess? next = some ⟨slot, offset, kind⟩) :
    LeadsToContribution instruction next (.single <$> store slot offset kind) := by
  rw [store_eq_map, Functor.map_map]
  exact .map (leads_place ⟨slot, offset, kind⟩) fun _ _ settles => .store straight writes settles

/-- An instruction without a counterpart contributes a deferred record. -/
theorem leads_unmapped (straight : instruction.branchTarget? = none) :
    LeadsToContribution instruction next (unmapped instruction) :=
  .bindLift fun _ => .pure fun _ => .unmapped straight

/-- One target instruction that accesses no place. -/
theorem leads_single {target : Target.Instruction} (straight : instruction.branchTarget? = none)
    (placeless : target.IsPlaceless) :
    LeadsToContribution instruction next (pure (.single target)) :=
  .pure fun _ => .placeless straight (List.cons_ne_nil _ _) (List.forall_mem_singleton.2 placeless)

/-- Lowering a constant contributes the constant or a deferred record. -/
theorem leads_constant (straight : instruction.branchTarget? = none) :
    LeadsToContribution instruction next (constant pool instruction) := by
  refine .bindLiftExcept fun value => ?_
  cases value with
  | string content =>
    refine .pure fun _ => .placeless straight (List.cons_ne_nil _ _) ?_
    simp only [List.forall_mem_cons]
    exact ⟨⟨rfl, rfl⟩, ⟨rfl, rfl⟩, fun _ listed => absurd listed List.not_mem_nil⟩
  | integer | float | long | double => exact leads_single straight ⟨rfl, rfl⟩
  | _ => exact leads_unmapped straight

/-- An increment loads and stores the same slot, at two offsets. -/
theorem leads_increment (straight : instruction.branchTarget? = none)
    (operation : instruction.operation = .intInc) (shaped : instruction.Shaped) :
    LeadsToContribution instruction next (increment instruction next) := by
  unfold Instruction.Shaped at shaped
  rw [operation] at shaped
  obtain ⟨slot, constant, operand, isIndex⟩ := shaped
  unfold increment
  rw [operand]
  dsimp only
  rw [isIndex.toNat_eq]
  have reads : instruction.loadAccess? = some ⟨slot.toInt.toNat, instruction.offset, .int⟩ := by
    rw [Instruction.loadAccess?, operation, operand]
  have writes : instruction.storeAccess? next = some ⟨slot.toInt.toNat, next, .int⟩ := by
    rw [Instruction.storeAccess?, operation, operand]
  simp only [load_eq_map, store_eq_map, bind_map_left]
  refine .bind (leads_place ⟨slot.toInt.toNat, instruction.offset, .int⟩)
    (fun _ _ _ => LocalStorage.Settles.extend) fun loaded => ?_
  refine .bind (leads_place ⟨slot.toInt.toNat, next, .int⟩)
    (fun _ _ _ => LocalStorage.Settles.extend) fun stored => ?_
  exact .pure fun _ stores loads => .increment straight reads loads writes stores

/-- Fixed counterparts access no place. -/
theorem isPlaceless_fixedCounterpart {operation : Bytecode.Operation}
    {counterpart : Target.Instruction} (fixed : fixedCounterpart operation = some counterpart) :
    counterpart.IsPlaceless := by
  unfold fixedCounterpart at fixed
  split at fixed <;> cases fixed <;> exact ⟨rfl, rfl⟩

/-- The operand of an operation with a single value is the index that is read off it. -/
theorem toNat_index {value : Int32} (operand : instruction.operand = .oneValue value)
    (isIndex : Bytecode.IsIndex value) : instruction.index.toNat = value.toInt.toNat := by
  have read : instruction.value? = some value := by rw [Instruction.value?, operand]
  rw [← isIndex.toInt_index read, Int.toNat_natCast]

/-- Lowering an instruction of the right shape gives what it contributes. -/
theorem leads_lower (shaped : instruction.Shaped) :
    LeadsToContribution instruction next (lower scope pool instruction next) := by
  unfold lower
  split
  · next target leads => exact .pure fun _ => .branch leads
  · next straight =>
    split
    · next counterpart fixed => exact leads_single straight (isPlaceless_fixedCounterpart fixed)
    · split
      -- accesses to slots
      · next kind operation =>
        unfold Instruction.Shaped at shaped
        rw [operation] at shaped
        obtain ⟨value, operand, refused | isIndex⟩ := shaped
        · cases refused
        · rw [toNat_index operand isIndex]
          exact leads_loadAccess straight (by rw [Instruction.loadAccess?, operation, operand])
      · next kind slot operation =>
        exact leads_loadAccess straight (by rw [Instruction.loadAccess?, operation])
      · next kind operation =>
        unfold Instruction.Shaped at shaped
        rw [operation] at shaped
        obtain ⟨value, operand, refused | isIndex⟩ := shaped
        · cases refused
        · rw [toNat_index operand isIndex]
          exact leads_storeAccess straight (by rw [Instruction.storeAccess?, operation, operand])
      · next kind slot operation =>
        exact leads_storeAccess straight (by rw [Instruction.storeAccess?, operation])
      · exact leads_single straight ⟨rfl, rfl⟩
      · exact leads_single straight ⟨rfl, rfl⟩
      · exact leads_constant straight
      · exact leads_constant straight
      · exact leads_constant straight
      · next operation => exact leads_increment straight operation shaped
      -- operands that are pool indices
      · next access _ =>
        refine .bindLiftExcept fun reference => .bindLift fun field => leads_single straight ?_
        cases access <;> exact ⟨rfl, rfl⟩
      · next invocation _ =>
        refine .bindLiftExcept fun reference => .bindLift fun method => leads_single straight ?_
        cases invocation <;> exact ⟨rfl, rfl⟩
      · refine .bindLiftExcept fun name => .bindLift fun type => .pure fun _ =>
          .placeless straight (List.cons_ne_nil _ _) ?_
        simp only [List.forall_mem_cons]
        exact ⟨⟨rfl, rfl⟩, ⟨rfl, rfl⟩, ⟨rfl, rfl⟩, fun _ listed => absurd listed List.not_mem_nil⟩
      · split
        · exact leads_single straight ⟨rfl, rfl⟩
        · exact leads_unmapped straight
      · exact .bindLiftExcept fun name => .bindLift fun element => leads_single straight ⟨rfl, rfl⟩
      · exact .bindLiftExcept fun name => .bindLift fun type => leads_single straight ⟨rfl, rfl⟩
      · exact leads_unmapped straight

end Emit

/-! ## Whole code arrays -/

/-- An instruction with the offset behind it is one of the code array. -/
theorem mem_of_mem_withNext {stop : UInt32} {code : List Instruction}
    {pair : Instruction × UInt32} (listed : pair ∈ withNext stop code) : pair.1 ∈ code :=
  map_fst_withNext stop code ▸ List.mem_map_of_mem listed

/-- The target instructions of contributions, one after the other. -/
theorem collectInstructions_eq (contributions : List (UInt32 × Contribution)) :
    collectInstructions contributions =
      contributions.flatMap fun part => part.2.targets.map (part.1, ·) := by
  unfold collectInstructions
  congr 1
  funext ⟨offset, contribution⟩
  cases contribution <;> rfl

/-- What is emitted for an offset is a target of the contribution at that offset. -/
theorem mem_collectInstructions {contributions : List (UInt32 × Contribution)}
    {entry : UInt32 × Target.Instruction} :
    entry ∈ collectInstructions contributions ↔
      ∃ part ∈ contributions, part.1 = entry.1 ∧ entry.2 ∈ part.2.targets := by
  obtain ⟨offset, target⟩ := entry
  simp [collectInstructions_eq, and_comm]

/-- Every instruction has one contribution, at its offset, and all contributions are told from the
storage that is left in the end. -/
theorem lowerInstructions_spec {scope : Scope} {pool : ConstantPool}
    {code : List (Instruction × UInt32)} {storage later : LocalStorage}
    {contributions : List (UInt32 × Contribution)} (shaped : ∀ pair ∈ code, pair.1.Shaped)
    (lowered : (lowerInstructions scope pool code storage).result = .ok (contributions, later)) :
    storage.LeadsTo later ∧
      List.Forall₂ (fun pair entry => entry.1 = pair.1.offset ∧
        Contributes later pair.1 pair.2 entry.2) code contributions := by
  induction code generalizing storage contributions with
  | nil =>
    cases lowered
    exact ⟨.refl, .nil⟩
  | cons pair rest induction =>
    obtain ⟨instruction, next⟩ := pair
    obtain ⟨contribution, middle, first, lowered⟩ := Emit.bind_eq_ok.1 lowered
    obtain ⟨others, last, remaining, lowered⟩ := Emit.bind_eq_ok.1 lowered
    cases lowered
    obtain ⟨firstShaped, othersShaped⟩ := List.forall_mem_cons.1 shaped
    obtain ⟨toMiddle, contributes⟩ := Emit.leads_lower firstShaped _ _ _ first
    obtain ⟨toLater, contributeOthers⟩ := induction othersShaped remaining
    exact ⟨toMiddle.trans toLater,
      .cons ⟨rfl, contributes.extend toLater.toExtends⟩ contributeOthers⟩

end ClassLowering
