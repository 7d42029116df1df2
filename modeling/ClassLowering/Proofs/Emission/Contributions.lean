import ClassLowering.Proofs.Emission.Steps

/-! # No instruction is lost

A body is put together from the contributions of the source instructions, in order: each of them
contributes some target instructions or one deferred record, and never both (`Contribution.IsFrom`).
All of them are tagged with the offset of the source instruction, so that the tags of a body account
for the offsets of the source (`Accounts`). Both are put together in `lowerBody_contributions`.

No instruction is passed over for its operand either: an operand that an operation asks for is
always there, and it is always small enough (`Instruction.KeepsOperand`). What an instruction
becomes does not depend on the order in which its operation and its operand are looked at, since an
instruction with a displacement is a branch and nothing else (`Instruction.BranchesOnly`). -/

namespace ClassLowering

open Bytecode (Instruction Operation)
open Target (Body Deferred)

/-! ## Single contributions -/

/-- The deferred records of a contribution. -/
def Contribution.records : Contribution → List Deferred
  | instructions _ => []
  | deferred record => [record]

namespace Target.Deferred

/-- The offset of the source instruction. -/
def offset : Deferred → UInt32
  | branch offset _ _ | unmapped offset _ => offset

/-- The operation of the source instruction. -/
def operation : Deferred → Operation
  | branch _ operation _ | unmapped _ operation => operation

end Target.Deferred

/-- The contribution accounts for the instruction. -/
structure Contribution.IsFrom (source : Instruction) (contribution : Contribution) : Prop where
  /-- It is some target instructions or one record of the instruction, and never both. -/
  once : (contribution.targets ≠ [] ∧ contribution.records = []) ∨
    contribution.targets = [] ∧ ∃ record, contribution.records = [record] ∧
      record.offset = source.offset ∧ record.operation = source.operation
  /-- It is a branch exactly if the operand is a displacement, from the instruction's own offset. -/
  branch : ∀ offset operation target, .branch offset operation target ∈ contribution.records ↔
    offset = source.offset ∧ operation = source.operation ∧
      ∃ displacement, source.operand = .branch displacement ∧
        (target.toNat : Int) = (source.offset.toNat + displacement.toInt) % 2 ^ 32

/-- A displacement is added to an offset modulo 2 ^ 32. -/
theorem toNat_add_displacement (offset : UInt32) (displacement : Int32) :
    ((offset + displacement.toUInt32).toNat : Int) =
      (offset.toNat + displacement.toInt) % 2 ^ 32 := by
  have word : (displacement.toUInt32.toNat : Int) = displacement.toInt % 2 ^ 32 := by
    rw [← Int32.toInt_toBitVec, BitVec.toInt_eq_toNat_cond]
    have bound : displacement.toBitVec.toNat < 2 ^ 32 := displacement.toBitVec.isLt
    change (displacement.toBitVec.toNat : Int) = _
    split <;> omega
  rw [UInt32.toNat_add]
  omega

/-- A jump goes to the sum of its offset and its displacement, in 32-bit words. -/
theorem Bytecode.Instruction.branchTarget?_eq_some_iff {source : Instruction} {target : UInt32} :
    source.branchTarget? = some target ↔
      ∃ displacement, source.operand = .branch displacement ∧
        (target.toNat : Int) = (source.offset.toNat + displacement.toInt) % 2 ^ 32 := by
  unfold branchTarget?
  constructor
  · intro leads
    split at leads
    · next displacement operand =>
      cases leads
      exact ⟨displacement, operand, toNat_add_displacement _ _⟩
    · cases leads
  · rintro ⟨displacement, operand, same⟩
    rw [operand]
    rw [← toNat_add_displacement, Int.natCast_inj, UInt32.toNat_inj] at same
    rw [same]

/-- What an instruction contributes accounts for it. -/
theorem Contributes.isFrom {storage : LocalStorage} {source : Instruction} {next : UInt32}
    {contribution : Contribution} (contributes : Contributes storage source next contribution) :
    contribution.IsFrom source := by
  -- a contribution without a branch is from an instruction without a target
  have straightOn {records : List Deferred} (straight : source.branchTarget? = none)
      (none : ∀ offset operation target, .branch offset operation target ∉ records) :
      ∀ offset operation target, .branch offset operation target ∈ records ↔
        offset = source.offset ∧ operation = source.operation ∧
          ∃ displacement, source.operand = .branch displacement ∧
            (target.toNat : Int) = (source.offset.toNat + displacement.toInt) % 2 ^ 32 := by
    intro offset operation target
    rw [← Instruction.branchTarget?_eq_some_iff, straight]
    simp [none]
  cases contributes with
  | @branch target leads =>
    refine ⟨.inr ⟨rfl, _, rfl, rfl, rfl⟩, fun offset operation other => ?_⟩
    rw [← Instruction.branchTarget?_eq_some_iff, leads]
    simp [Contribution.records, eq_comm]
  | unmapped straight =>
    refine ⟨.inr ⟨rfl, _, rfl, rfl, rfl⟩, straightOn straight ?_⟩
    simp [Contribution.records]
  | placeless straight filled =>
    exact ⟨.inl ⟨filled, rfl⟩, straightOn straight fun _ _ _ => List.not_mem_nil⟩
  | load straight | store straight | increment straight =>
    exact ⟨.inl ⟨List.cons_ne_nil _ _, rfl⟩, straightOn straight fun _ _ _ => List.not_mem_nil⟩

/-! ## Operands -/

/-- The operand that lowering reads from the instruction is there, and it is a number of 16 bits
where it is read as one. -/
def Bytecode.Instruction.KeepsOperand (source : Instruction) : Prop :=
  match source.operation with
  | .bytePush | .shortPush | .newArray => ∃ value, source.value? = some value
  | .load _ | .store _ | .loadConst | .loadConstWide | .loadConst2Wide | .field _ | .invoke _
  | .new | .refNewArray | .checkCast =>
    ∃ value, source.value? = some value ∧ (source.index.toNat : Int) = value.toInt
  | .intInc => ∃ slot constant, source.operand = .twoValue slot constant ∧
      (slot.toUInt32.toUInt16.toNat : Int) = slot.toInt
  | _ => True

/-- An operand of the right shape keeps what is read from it. -/
theorem Bytecode.Instruction.Shaped.keepsOperand {source : Instruction} (shaped : source.Shaped) :
    source.KeepsOperand := by
  obtain ⟨operation, offset, operand, wide⟩ := source
  -- by how the operand is used: as a value, as an index, or as a slot and a value
  cases operation with
  | bytePush | shortPush | newArray =>
    obtain ⟨value, rfl, -⟩ := shaped
    exact ⟨value, rfl⟩
  | load | store | loadConst | loadConstWide | loadConst2Wide | field | new | refNewArray
  | checkCast =>
    obtain ⟨value, rfl, refused | isIndex⟩ := shaped
    · cases refused
    · exact ⟨value, rfl, isIndex.toInt_index rfl⟩
  | invoke invocation =>
    cases invocation with
    | interface =>
      obtain ⟨value, extra, rfl⟩ := shaped
      exact ⟨_, rfl, IsIndex.toInt_index ⟨value, rfl⟩ rfl⟩
    | _ =>
      obtain ⟨value, rfl, refused | isIndex⟩ := shaped
      · cases refused
      · exact ⟨value, rfl, isIndex.toInt_index rfl⟩
  | intInc =>
    obtain ⟨slot, constant, rfl, isIndex⟩ := shaped
    exact ⟨slot, constant, rfl, isIndex.toInt_eq⟩
  | _ => trivial

/-- The instruction has no displacement, or it has no other counterpart than a branch. -/
def Bytecode.Instruction.BranchesOnly (source : Instruction) : Prop :=
  ∀ displacement, source.operand = .branch displacement →
    fixedCounterpart source.operation = none ∧ source.loadAccess? = none ∧
      ∀ next, source.storeAccess? next = none

/-- Operations that ask for a displacement have no counterpart. -/
theorem fixedCounterpart_of_branch {operation : Operation} (shape : operation.shape = .branch) :
    fixedCounterpart operation = none := by
  unfold Operation.shape at shape
  split at shape <;> first | rfl | cases shape

/-- Only operations that branch have a target to jump to. -/
theorem Bytecode.Instruction.Shaped.branchesOnly {source : Instruction} (shaped : source.Shaped) :
    source.BranchesOnly := by
  intro displacement operand
  unfold Shaped at shaped
  rw [operand] at shaped
  -- operands of all other shapes are no displacements
  split at shaped
  · cases shaped
  · obtain ⟨_, same, -⟩ := shaped
    cases same
  · obtain ⟨_, same, -⟩ := shaped
    cases same
  · obtain ⟨_, _, same, -⟩ := shaped
    cases same
  · next shape =>
    refine ⟨fixedCounterpart_of_branch shape, ?_, fun next => ?_⟩
    · unfold loadAccess?
      split
      · next same => cases operand.symm.trans same
      · next same => rw [same] at shape; cases shape
      · next same => cases operand.symm.trans same
      · rfl
    · unfold storeAccess?
      split
      · next same => cases operand.symm.trans same
      · next same => rw [same] at shape; cases shape
      · next same => cases operand.symm.trans same
      · rfl
  · obtain ⟨_, _, same⟩ := shaped
    cases same
  · cases shaped

/-! ## The tags of a body -/

/-- The tags of target instructions and of deferred records account for the offsets of the source:
they are in order, and every offset is a tag of the one or of the other. -/
structure Accounts (offsets tags records : List UInt32) : Prop where
  tagsOrdered : tags.Pairwise (· ≤ ·)
  recordsOrdered : records.Pairwise (· < ·)
  apart : ∀ offset ∈ tags, offset ∉ records
  exhaustive : ∀ offset, offset ∈ offsets ↔ offset ∈ tags ∨ offset ∈ records

section

variable {offset : UInt32} {offsets tags records : List UInt32}

/-- An instruction in front of the others that becomes target instructions. -/
theorem Accounts.emit (accounts : Accounts offsets tags records)
    (first : ∀ later ∈ offsets, offset < later) {count : Nat} (filled : count ≠ 0) :
    Accounts (offset :: offsets) (List.replicate count offset ++ tags) records where
  tagsOrdered := by
    refine List.pairwise_append.2 ⟨?_, accounts.tagsOrdered, ?_⟩
    · exact List.pairwise_replicate.2 (.inr (UInt32.le_refl offset))
    · intro here listed later laterListed
      obtain rfl := List.eq_of_mem_replicate listed
      exact UInt32.le_of_lt (first later ((accounts.exhaustive later).2 (.inl laterListed)))
  recordsOrdered := accounts.recordsOrdered
  apart := by
    intro here listed recorded
    rcases List.mem_append.1 listed with listed | listed
    · obtain rfl := List.eq_of_mem_replicate listed
      exact UInt32.lt_irrefl _ (first _ ((accounts.exhaustive _).2 (.inr recorded)))
    · exact accounts.apart here listed recorded
  exhaustive here := by
    rw [List.mem_cons, List.mem_append, List.mem_replicate, accounts.exhaustive, or_assoc]
    simp [filled]

/-- An instruction in front of the others that becomes a deferred record. -/
theorem Accounts.defer (accounts : Accounts offsets tags records)
    (first : ∀ later ∈ offsets, offset < later) :
    Accounts (offset :: offsets) tags (offset :: records) where
  tagsOrdered := accounts.tagsOrdered
  recordsOrdered := .cons
    (fun later listed => first later ((accounts.exhaustive later).2 (.inr listed)))
    accounts.recordsOrdered
  apart := by
    intro here listed recorded
    rcases List.mem_cons.1 recorded with rfl | recorded
    · exact UInt32.lt_irrefl _ (first _ ((accounts.exhaustive _).2 (.inl listed)))
    · exact accounts.apart here listed recorded
  exhaustive here := by
    rw [List.mem_cons, List.mem_cons, accounts.exhaustive, or_left_comm]

end

/-- The target instructions that source instructions contribute, each with the offset it is from. -/
def emittedFrom (sources : List Instruction) (contributions : List Contribution) :
    List (UInt32 × Target.Instruction) :=
  (List.zipWith (fun source contribution => contribution.targets.map (source.offset, ·)) sources
    contributions).flatten

/-- Contributions of instructions at ascending offsets account for these offsets. -/
theorem accounts_of_isFrom {sources : List Instruction} {contributions : List Contribution}
    (ascending : sources.Pairwise (·.offset < ·.offset))
    (parts : List.Forall₂ (fun source contribution => contribution.IsFrom source) sources
      contributions) :
    Accounts (sources.map Instruction.offset) ((emittedFrom sources contributions).map Prod.fst)
      ((contributions.flatMap Contribution.records).map Deferred.offset) := by
  induction parts with
  | nil => exact ⟨.nil, .nil, fun _ listed => absurd listed List.not_mem_nil, by simp [emittedFrom]⟩
  | @cons source contribution sources contributions first others induction =>
    obtain ⟨below, ascending⟩ := List.pairwise_cons.1 ascending
    have accounts := induction ascending
    have smaller : ∀ later ∈ sources.map Instruction.offset, source.offset < later := by
      intro later listed
      obtain ⟨other, member, rfl⟩ := List.mem_map.1 listed
      exact below other member
    rw [emittedFrom, List.zipWith_cons_cons, List.flatten_cons, List.map_append, List.map_cons,
      List.flatMap_cons, List.map_append, List.map_map]
    -- the first instruction is emitted at its offset or deferred there, and all others come later
    rcases first.once with ⟨filled, none⟩ | ⟨none, record, single, here, -⟩
    · have tags : contribution.targets.map (Prod.fst ∘ (source.offset, ·)) =
          List.replicate contribution.targets.length source.offset := List.map_const'
      rw [tags, none]
      exact accounts.emit smaller (by simpa using filled)
    · rw [none, single, List.map_singleton, here]
      exact accounts.defer smaller

/-! ## Bodies -/

/-- The target instructions of contributions that are tagged with the offsets of the
instructions. -/
theorem collectInstructions_eq_emittedFrom {pairs : List (Instruction × UInt32)}
    {parts : List (UInt32 × Contribution)}
    (tagged : List.Forall₂ (fun pair part => part.1 = pair.1.offset) pairs parts) :
    collectInstructions parts = emittedFrom (pairs.map Prod.fst) (parts.map Prod.snd) := by
  rw [collectInstructions_eq]
  induction tagged with
  | nil => rfl
  | cons first others induction =>
    rw [List.flatMap_cons, induction, first]
    rfl

/-- The deferred records are those of the contributions, in their order. -/
theorem collectDeferred_eq (contributions : List (UInt32 × Contribution)) :
    collectDeferred contributions =
      (contributions.map Prod.snd).flatMap Contribution.records := by
  induction contributions with
  | nil => rfl
  | cons part others induction =>
    obtain ⟨offset, contribution⟩ := part
    rw [List.map_cons, List.flatMap_cons, ← induction]
    cases contribution <;> rfl

/-- No instruction is lost, duplicated or moved. For the code of every method of a parsed class that
is lowered, the target instructions and the deferred records are those that the source instructions
contribute, in their order; so the tags account for the offsets of the source. All operands that
lowering reads are there and keep their values, and instructions with displacements are branches
only. -/
theorem lowerBody_contributions {scope : Scope} {bytes : List UInt8} {file : ClassFile}
    {method : Member} {frame : CodeFrame} {nested : List Attribute} {body : Body}
    (parsed : (ClassFile.parse bytes).result = .ok file) (declared : method ∈ file.methods)
    (coded : .code frame nested ∈ method.attributes)
    (lowered : (lowerBody scope file.pool method ⟨frame, nested⟩).result = .ok body) :
    (∃ contributions : List Contribution,
      List.Forall₂ (fun source contribution => contribution.IsFrom source) frame.instructions
        contributions ∧
      body.instructions = emittedFrom frame.instructions contributions ∧
      body.deferred = contributions.flatMap Contribution.records) ∧
    Accounts (frame.instructions.map Instruction.offset) (body.instructions.map Prod.fst)
      (body.deferred.map Deferred.offset) ∧
    ∀ source ∈ frame.instructions, source.KeepsOperand ∧ source.BranchesOnly := by
  have formed := ClassFile.wellFormed_of_parse parsed declared coded
  obtain ⟨_, _, parts, later, -, -, emitted, -, instructions, deferred⟩ := lowerBody_parts lowered
  obtain ⟨-, contribute⟩ := lowerInstructions_spec
    (fun pair listed => formed.shaped pair.1 (mem_of_mem_withNext listed)) emitted
  have sources := map_fst_withNext frame.codeLength frame.instructions
  generalize withNext frame.codeLength frame.instructions = pairs at contribute sources
  -- instructions and contributions come in pairs; offsets and targets are collected from these
  have isFrom : List.Forall₂ (fun source contribution => contribution.IsFrom source)
      frame.instructions (parts.map Prod.snd) := by
    rw [← sources, List.forall₂_map_left_iff, List.forall₂_map_right_iff]
    exact contribute.imp fun pair part here => here.2.isFrom
  have flat : body.instructions = emittedFrom frame.instructions (parts.map Prod.snd) := by
    rw [instructions, ← sources]
    exact collectInstructions_eq_emittedFrom (contribute.imp fun pair part here => here.1)
  have records := deferred.trans (collectDeferred_eq parts)
  refine ⟨⟨_, isFrom, flat, records⟩, ?_, fun source listed => ?_⟩
  · rw [flat, records]
    exact accounts_of_isFrom formed.ascending isFrom
  · have shaped := formed.shaped source listed
    exact ⟨shaped.keepsOperand, shaped.branchesOnly⟩

/-- A class whose only method is static and has descriptor `(I)V`. It tests its argument, increments
it, has an instruction without a counterpart and a jump to an offset in front of its start. -/
def branchingClass : List UInt8 :=
  [0xCA, 0xFE, 0xBA, 0xBE, 0, 0, 0, 52,
    -- the pool: `A` as a text and a class, `f`, `(I)V` and `Code`
    0, 6, 1, 0, 1, 65, 7, 0, 1, 1, 0, 1, 102, 1, 0, 4, 40, 73, 41, 86, 1, 0, 4, 67, 111, 100, 101,
    0, 0x21, 0, 2, 0, 0, 0, 0, 0, 0,
    -- the method and its code
    0, 1, 0, 9, 0, 3, 0, 4, 0, 1, 0, 5, 0, 0, 0, 24, 0, 2, 0, 1, 0, 0, 0, 12,
    0x1A, 0x99, 0, 6, 0x84, 0, 1, 0x5C, 0xA7, 0xFF, 0xF4, 0xB1,
    0, 0, 0, 0, 0, 0]

/-- What the method is lowered to. -/
theorem branchingClass_spec :
    ∃ file ∈ (ClassFile.parse branchingClass).result.toOption,
      ∃ method ∈ file.methods, ∃ code ∈ Attribute.code? method.attributes,
        code.instructions.map Instruction.offset = [0, 1, 4, 7, 8, 11] ∧
        ∃ body ∈ (lowerBody ⟨Catalog.standard, .empty "M"⟩ file.pool method code).result.toOption,
          body.instructions = [(0, .ldarg 0), (4, .ldarg 0), (4, .ldcI4 1), (4, .arith .add),
            (4, .starg 0), (11, .ret)] ∧
          body.deferred = [.branch 1 (.ifZero .eq) 7, .unmapped 7 (.shuffle .dup2),
            .branch 8 .goto 4294967292] := by
  decide +kernel

/-- A test, an instruction without a counterpart and a jump are deferred, and the rest is
emitted. -/
theorem lowerBody_contributions_branching :
    ∃ file method code body,
      (ClassFile.parse branchingClass).result = .ok file ∧ method ∈ file.methods ∧
      Attribute.code? method.attributes = some code ∧
      (lowerBody ⟨Catalog.standard, .empty "M"⟩ file.pool method code).result = .ok body ∧
      body.deferred = [.branch 1 (.ifZero .eq) 7, .unmapped 7 (.shuffle .dup2),
        .branch 8 .goto 4294967292] ∧
      Accounts [0, 1, 4, 7, 8, 11] [0, 4, 4, 4, 4, 11] [1, 7, 8] ∧
      ∀ source ∈ code.instructions, source.KeepsOperand := by
  obtain ⟨file, parsed, method, declared, code, coded, offsets, body, lowered, instructions,
    deferred⟩ := branchingClass_spec
  have parsed := Except.eq_ok_of_mem_toOption parsed
  have lowered := Except.eq_ok_of_mem_toOption lowered
  obtain ⟨-, accounts, operands⟩ := lowerBody_contributions parsed declared
    (Attribute.mem_of_code? coded) lowered
  rw [offsets, instructions, deferred] at accounts
  exact ⟨file, method, code, body, parsed, declared, coded, lowered, deferred, accounts,
    fun source listed => (operands source listed).1⟩

end ClassLowering
