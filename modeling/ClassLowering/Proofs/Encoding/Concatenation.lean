import Mathlib.Data.List.Forall2
import ClassLowering.Proofs.Encoding.Motion

/-! # Code arrays one after the other

A code array can be read in parts. If the first part is a code array of its own, then the whole is
read as the first part followed by the second, whose instructions and failures are told later by the
length of the first (`Instruction.Tiles.readAll_append`, `Instruction.readAll_advance`). Reading
stops at the first instruction that cannot be read (`Instruction.readAll_eq_error_iff`). For an
instruction that is not supported the operations it starts with tell why, and nothing that follows
matters (`Instruction.readAll_eq_unsupported_iff`). -/

namespace ClassLowering

open Bytecode (Instruction Operand Operation)
open Read

/-! ## Later in the buffer -/

/-- The same bytes ahead, `more` bytes later in the buffer. -/
def Cursor.advance (more : Nat) (cursor : Cursor) : Cursor :=
  ⟨cursor.rest, cursor.position + more, cursor.base⟩

/-- The same failure for a code array that stands `more` bytes later in its buffer. -/
def Error.advance (more : Nat) : Error → Error
  | .format (.unexpectedEnd offset needed) => .format (.unexpectedEnd (offset + more) needed)
  | .unsupported (.jumpTable operation offset) =>
    .unsupported (.jumpTable operation (offset + more.toUInt32))
  | .unsupported (.wideRecursion offset) => .unsupported (.wideRecursion (offset + more.toUInt32))
  | cause => cause

/-- The motion to a later place in the buffer. -/
def Motion.advance (more : Nat) : Motion where
  cursor := Cursor.advance more
  failure := Error.advance more
  take_cursor start length := by
    rw [Cursor.take_eq, Cursor.take_eq]
    by_cases enough : length ≤ start.rest.length
    · rw [if_pos enough, if_pos (show length ≤ (start.advance more).rest.length from enough)]
      simp [carryStep, Cursor.advance, Nat.add_right_comm]
    · rw [if_neg enough, if_neg (show ¬length ≤ (start.advance more).rest.length from enough)]
      simp [carryStep, Error.advance, Cursor.advance, Cursor.offset, Nat.add_assoc]

/-- Where the instruction that is not supported starts. -/
def UnsupportedFeature.offset : UnsupportedFeature → UInt32
  | .jumpTable _ offset => offset
  | .wideRecursion offset => offset

/-- Offsets are told exactly as long as they do not wrap around. -/
theorem toNat_add_toUInt32 {offset : UInt32} {more : Nat} (small : offset.toNat + more < 2 ^ 32) :
    (offset + more.toUInt32).toNat = offset.toNat + more := by
  rw [UInt32.toNat_add, Nat.toUInt32_eq, UInt32.toNat_ofNat_of_lt' (show _ < 2 ^ 32 by omega),
    Nat.mod_eq_of_lt small]

/-- What is made of the result does not matter for failures. -/
theorem Read.map_eq_error_iff {α β : Type} {f : α → β} {reader : Read α} {start : Cursor}
    {cause : Error} : (f <$> reader) start = .error cause ↔ reader start = .error cause := by
  rw [← bind_pure_comp, bind_apply]
  cases reader start with
  | error other =>
    constructor <;> intro failed
    · rw [Except.error.inj failed]
    · rw [Except.error.inj failed]
      rfl
  | ok step =>
    constructor <;> intro failed <;> cases failed

namespace Bytecode

/-- The same instruction `more` bytes later in its code array. -/
def Instruction.advance (more : Nat) (instruction : Instruction) : Instruction :=
  { instruction with offset := instruction.offset + more.toUInt32 }

namespace Instruction

/-- An instruction is read later in the buffer as it is here, with a later offset. -/
theorem read_advance (more : Nat) (start : Cursor) :
    read (start.advance more) = (Motion.advance more).carry (advance more) (read start) := by
  have moved : (start.advance more).position.toUInt32 = start.position.toUInt32 + more.toUInt32 :=
    UInt32.ofNat_add start.position more
  have carried : read (start.advance more) = (Motion.advance more).carry
      (fun instruction => { instruction with offset := start.position.toUInt32 + more.toUInt32 })
      (read start) := by
    rw [read_eq_readFrom, read_eq_readFrom, moved]
    exact readFrom_carry (.advance more) (fun _ => rfl) rfl start
  rw [carried]
  cases found : read start with
  | error cause => rfl
  | ok step =>
    obtain ⟨instruction, stop⟩ := step
    rw [Motion.carry_ok, Motion.carry_ok, advance, offset_of_readFrom found]

/-- A code array is read later in its buffer as the same instructions and failures, told later. -/
theorem readAll_advance (more : Nat) (cursor : Cursor) :
    readAll (cursor.advance more) =
      ((readAll cursor).map (List.map (advance more))).mapError (Error.advance more) :=
  readAll_carry (.advance more) (fun _ => rfl) (read_advance more) cursor

/-! ## Reading in parts -/

/-- A code array in front of other bytes is read first. -/
theorem Tiles.readAll_append {position : Nat} {instructions : List Instruction} {bytes : List UInt8}
    (tiles : Tiles position instructions bytes) (rest : List UInt8) (base : Nat) :
    readAll ⟨bytes ++ rest, position, base⟩ =
      (instructions ++ ·) <$> readAll ⟨rest, position + bytes.length, base⟩ := by
  induction instructions generalizing position bytes with
  | nil =>
    have nothing : bytes = [] := tiles
    subst nothing
    change readAll ⟨rest, position, base⟩ = _ <$> readAll ⟨rest, position, base⟩
    cases readAll ⟨rest, position, base⟩ <;> rfl
  | cons first others induction =>
    obtain ⟨filler, back, whole, rfl, offset, encodable, behind⟩ := tiles
    have found : read ⟨first.encodeWith filler ++ back ++ rest, position, base⟩ =
        .ok (first, ⟨back ++ rest, position + (first.encodeWith filler).length, base⟩) := by
      rw [read_eq_readFrom]
      refine (recognizes_readFrom _).reads ⟨offset, encodable, filler, whole, rfl⟩ _ _
        ⟨?_, rfl, rfl⟩
      simp
    rw [readAll_of_read found, induction behind, List.length_append, Nat.add_assoc]
    cases readAll ⟨rest, position + ((first.encodeWith filler).length + back.length), base⟩ <;> rfl

/-- Reading a code array fails where some instructions have been read and the next one cannot be. -/
theorem readAll_eq_error_iff {cursor : Cursor} {cause : Error} :
    readAll cursor = .error cause ↔
      ∃ instructions front back, cursor.rest = front ++ back ∧ back ≠ [] ∧
        Tiles cursor.position instructions front ∧
        read ⟨back, cursor.position + front.length, cursor.base⟩ = .error cause := by
  constructor
  · intro failed
    fun_induction readAll cursor with
    | case1 cursor empty => cases failed
    | case2 cursor ahead other step =>
      cases failed
      have some : cursor.rest ≠ [] := by simpa [Cursor.isEmpty] using ahead
      exact ⟨[], [], cursor.rest, rfl, some, rfl, step⟩
    | case3 cursor ahead first next step induction =>
      -- the failure is behind the first instruction
      have failedBehind : readAll next = .error cause := by
        cases behind : readAll next with
        | error other =>
          rw [behind] at failed
          cases failed
          rfl
        | ok others =>
          rw [behind] at failed
          cases failed
      obtain ⟨others, front, back, rest, some, tiles, fails⟩ := induction failedBehind
      obtain ⟨bytes, ⟨offset, encodable, filler, whole, rfl⟩, passes⟩ :=
        (recognizes_readFrom _ _ _ _).1 ((read_eq_readFrom cursor).symm.trans step)
      rw [passes.position] at tiles fails
      rw [passes.base] at fails
      refine ⟨first :: others, first.encodeWith filler ++ front, back, ?_, some, ?_, ?_⟩
      · rw [passes.rest, rest, List.append_assoc]
      · exact ⟨filler, front, whole, rfl, offset, encodable, tiles⟩
      · rw [List.length_append, ← Nat.add_assoc]
        exact fails
  · rintro ⟨instructions, front, back, rest, some, tiles, failed⟩
    have whole : cursor = ⟨front ++ back, cursor.position, cursor.base⟩ := by rw [← rest]
    rw [whole, tiles.readAll_append back cursor.base, readAll_of_read_error some failed]
    rfl

end Instruction

/-! ## Instructions that are not supported -/

/-- The bytes start with the codes of the operations. -/
def Opens (bytes : List UInt8) (operations : List Operation) : Prop :=
  operations.map Operation.code <+: bytes

instance (bytes : List UInt8) (operations : List Operation) : Decidable (Opens bytes operations) :=
  inferInstanceAs (Decidable (_ <+: _))

/-- The operations with a table are the two switches. -/
theorem Operation.shape_eq_table_iff {operation : Operation} :
    operation.shape = .table ↔ operation = .tableSwitch ∨ operation = .lookupSwitch := by
  constructor
  · intro shape
    unfold Operation.shape at shape
    split at shape <;> simp_all
  · rintro (rfl | rfl) <;> rfl

/-- The bytes start with what is not supported. -/
def Refused (bytes : List UInt8) : UnsupportedFeature → Prop
  | .jumpTable operation _ => (operation = .tableSwitch ∨ operation = .lookupSwitch) ∧
      (Opens bytes [operation] ∨ Opens bytes [.wide, operation])
  | .wideRecursion _ => Opens bytes [.wide, .wide]

/-- What follows does not matter. -/
theorem Refused.append {bytes : List UInt8} {feature : UnsupportedFeature}
    (refused : Refused bytes feature) (rest : List UInt8) : Refused (bytes ++ rest) feature := by
  have longer {operations : List Operation} (opens : Opens bytes operations) :
      Opens (bytes ++ rest) operations := opens.trans (List.prefix_append bytes rest)
  cases feature with
  | jumpTable operation offset =>
    obtain ⟨switch, opens⟩ := refused
    exact ⟨switch, opens.imp longer longer⟩
  | wideRecursion offset => exact longer refused

/-- Something is read before it is refused. -/
theorem Refused.ne_nil {bytes : List UInt8} {feature : UnsupportedFeature}
    (refused : Refused bytes feature) : bytes ≠ [] := by
  rintro rfl
  cases feature with
  | jumpTable operation offset => simp [Refused, Opens] at refused
  | wideRecursion offset => simp [Refused, Opens] at refused

/-- Reading an operand fails because the buffer ends or because it is a table. -/
theorem Operand.read_error {operation : Operation} {offset : UInt32} {wide : Bool} {start : Cursor}
    {cause : Error} (failed : Operand.read operation offset wide start = .error cause) :
    (∃ place needed, cause = .format (.unexpectedEnd place needed)) ∨
      (operation = .tableSwitch ∨ operation = .lookupSwitch) ∧
        cause = .unsupported (.jumpTable operation offset) := by
  by_cases shape : operation.shape = .table
  · rw [Operand.read_of_table offset wide shape] at failed
    exact .inr ⟨Operation.shape_eq_table_iff.1 shape, (Except.error.inj failed).symm⟩
  · exact .inl ((Operand.uniform_read offset wide shape).ends failed)

namespace Instruction

/-- An operation is read from one byte. -/
theorem readOperation_cons (byte : UInt8) (rest : List UInt8) (position base : Nat) :
    readOperation ⟨byte :: rest, position, base⟩ =
      .ok (.ofCode byte, ⟨rest, position + 1, base⟩) := by
  refine (recognizes_readOperation _ _ _).2 ⟨[byte], ?_, rfl, rfl, rfl⟩
  simp [Operation.code_ofCode]

/-- An operation is read from its code. -/
theorem readOperation_code (operation : Operation) (rest : List UInt8) (position base : Nat) :
    readOperation ⟨operation.code :: rest, position, base⟩ =
      .ok (operation, ⟨rest, position + 1, base⟩) := by
  rw [readOperation_cons, Operation.ofCode_code]

section

variable (offset : UInt32) (rest : List UInt8) (position base : Nat)

/-- An operation other than `wide` has its operand behind it. -/
theorem readFrom_plain {operation : Operation} (plain : operation ≠ .wide) :
    readFrom offset ⟨operation.code :: rest, position, base⟩ =
      ((fun operand => ⟨operation, offset, operand, false⟩) <$> Operand.read operation offset false)
        ⟨rest, position + 1, base⟩ := by
  rw [readFrom, bind_apply, readOperation_code, ← bind_pure_comp]
  change (if operation = .wide then _ else _ : Read Instruction) _ = _
  rw [if_neg plain]

/-- Behind a `wide` operation the instruction goes on with another operation. -/
theorem readFrom_wide :
    readFrom offset ⟨Operation.wide.code :: rest, position, base⟩ =
      (do
        let widened ← readOperation
        if widened = .wide then
          fail (.unsupported (.wideRecursion offset))
        else
          return ⟨widened, offset, ← Operand.read widened offset true, true⟩ : Read Instruction)
        ⟨rest, position + 1, base⟩ := by
  rw [readFrom, bind_apply, readOperation_code]
  rfl

/-- A `wide` operation has another one behind it, with its operand. -/
theorem readFrom_widened {operation : Operation} (once : operation ≠ .wide) :
    readFrom offset ⟨Operation.wide.code :: operation.code :: rest, position, base⟩ =
      ((fun operand => ⟨operation, offset, operand, true⟩) <$> Operand.read operation offset true)
        ⟨rest, position + 1 + 1, base⟩ := by
  rw [readFrom_wide, bind_apply, readOperation_code, ← bind_pure_comp]
  change (if operation = .wide then _ else _ : Read Instruction) _ = _
  rw [if_neg once]

/-- Two `wide` operations in a row are not supported. -/
theorem readFrom_wide_wide :
    readFrom offset ⟨Operation.wide.code :: Operation.wide.code :: rest, position, base⟩ =
      .error (.unsupported (.wideRecursion offset)) := by
  rw [readFrom_wide, bind_apply, readOperation_code]
  rfl

end

/-- What is refused is not read, whatever follows. -/
theorem readFrom_of_refused {start : Cursor} {feature : UnsupportedFeature}
    (refused : Refused start.rest feature) :
    readFrom feature.offset start = .error (.unsupported feature) := by
  obtain ⟨bytes, position, base⟩ := start
  cases feature with
  | jumpTable operation offset =>
    obtain ⟨switch, opens⟩ := refused
    have shape : operation.shape = .table := Operation.shape_eq_table_iff.2 switch
    have plain : operation ≠ .wide := by
      rintro rfl
      simp at switch
    rcases opens with ⟨rest, rfl⟩ | ⟨rest, rfl⟩
    · refine (readFrom_plain offset rest position base plain).trans (map_eq_error_iff.2 ?_)
      rw [Operand.read_of_table offset false shape]
      rfl
    · refine (readFrom_widened offset rest position base plain).trans (map_eq_error_iff.2 ?_)
      rw [Operand.read_of_table offset true shape]
      rfl
  | wideRecursion offset =>
    obtain ⟨rest, rfl⟩ := refused
    exact readFrom_wide_wide offset rest position base

/-- Reading an instruction fails because the buffer ends or because it is refused. -/
theorem readFrom_error {offset : UInt32} {start : Cursor} {cause : Error}
    (failed : readFrom offset start = .error cause) :
    (∃ place needed, cause = .format (.unexpectedEnd place needed)) ∨
      ∃ feature, cause = .unsupported feature ∧ feature.offset = offset ∧
        Refused start.rest feature := by
  have written (byte : UInt8) : ∃ operation : Operation, byte = operation.code :=
    ⟨.ofCode byte, (Operation.code_ofCode byte).symm⟩
  -- the first two operations decide: it fails in an operand, or at the end, or at a second `wide`
  obtain ⟨bytes, position, base⟩ := start
  rcases bytes with _ | ⟨byte, rest⟩
  · exact .inl ⟨_, _, (Except.error.inj failed).symm⟩
  obtain ⟨operation, rfl⟩ := written byte
  by_cases plain : operation ≠ .wide
  · rw [readFrom_plain offset rest position base plain, map_eq_error_iff] at failed
    refine (Operand.read_error failed).imp_right fun ⟨switch, same⟩ => ?_
    exact ⟨_, same, rfl, switch, .inl (List.prefix_append [operation.code] rest)⟩
  obtain rfl := not_not.1 plain
  rcases rest with _ | ⟨byte, rest⟩
  · exact .inl ⟨_, _, (Except.error.inj failed).symm⟩
  obtain ⟨operation, rfl⟩ := written byte
  by_cases once : operation ≠ .wide
  · rw [readFrom_widened offset rest position base once, map_eq_error_iff] at failed
    refine (Operand.read_error failed).imp_right fun ⟨switch, same⟩ => ?_
    exact ⟨_, same, rfl, switch,
      .inr (List.prefix_append [Operation.wide.code, operation.code] rest)⟩
  · obtain rfl := not_not.1 once
    rw [readFrom_wide_wide] at failed
    refine .inr ⟨_, (Except.error.inj failed).symm, rfl, ?_⟩
    exact List.prefix_append [Operation.wide.code, Operation.wide.code] rest

/-- A code array has something that is not supported where the bytes in front are a code array and
those behind are refused. -/
theorem readAll_eq_unsupported_iff {cursor : Cursor} {feature : UnsupportedFeature} :
    readAll cursor = .error (.unsupported feature) ↔
      ∃ instructions front back, cursor.rest = front ++ back ∧
        Tiles cursor.position instructions front ∧
        feature.offset = (cursor.position + front.length).toUInt32 ∧ Refused back feature := by
  rw [readAll_eq_error_iff]
  constructor
  · rintro ⟨instructions, front, back, rest, -, tiles, failed⟩
    refine ⟨instructions, front, back, rest, tiles, ?_⟩
    obtain ⟨_, _, same⟩ | ⟨_, same, refused⟩ := readFrom_error failed
    · cases same
    · cases same
      exact refused
  · rintro ⟨instructions, front, back, rest, tiles, place, refused⟩
    refine ⟨instructions, front, back, rest, refused.ne_nil, tiles, ?_⟩
    rw [read_eq_readFrom, ← place]
    exact readFrom_of_refused refused

/-- What is refused in a code array is refused whatever follows. -/
theorem readAll_append_of_unsupported {bytes : List UInt8} {position base : Nat}
    {feature : UnsupportedFeature}
    (failed : readAll ⟨bytes, position, base⟩ = .error (.unsupported feature)) (rest : List UInt8) :
    readAll ⟨bytes ++ rest, position, base⟩ = .error (.unsupported feature) := by
  obtain ⟨instructions, front, back, rfl, tiles, place, refused⟩ :=
    readAll_eq_unsupported_iff.1 failed
  exact readAll_eq_unsupported_iff.2 ⟨instructions, front, back ++ rest,
    List.append_assoc front back rest, tiles, place, refused.append rest⟩

/-- In a code array whose offsets are exact, the offset of what is refused splits the bytes. -/
theorem readAll_eq_unsupported_iff_split {bytes : List UInt8} {base : Nat}
    {feature : UnsupportedFeature} (small : bytes.length < 2 ^ 32) :
    readAll ⟨bytes, 0, base⟩ = .error (.unsupported feature) ↔
      (∃ instructions, readAll ⟨bytes.take feature.offset.toNat, 0, base⟩ = .ok instructions) ∧
        Refused (bytes.drop feature.offset.toNat) feature := by
  rw [readAll_eq_unsupported_iff]
  constructor
  · rintro ⟨instructions, front, back, rfl, tiles, place, refused⟩
    -- the offset of the refused instruction is where the first part ends
    have length : feature.offset.toNat = front.length := by
      rw [List.length_append] at small
      rw [place, Nat.zero_add, Nat.toUInt32_eq,
        UInt32.toNat_ofNat_of_lt' (show _ < 2 ^ 32 by omega)]
    rw [length, List.take_left, List.drop_left]
    exact ⟨⟨instructions, readAll_eq_ok_iff.2 tiles⟩, refused⟩
  · rintro ⟨⟨instructions, found⟩, refused⟩
    have inside : feature.offset.toNat ≤ bytes.length := by
      by_contra outside
      exact refused.ne_nil (List.drop_of_length_le (by omega))
    refine ⟨instructions, bytes.take feature.offset.toNat, bytes.drop feature.offset.toNat,
      (List.take_append_drop _ _).symm, readAll_eq_ok_iff.1 found, ?_, refused⟩
    rw [List.length_take_of_le inside, Nat.zero_add]
    exact UInt32.ofNat_toNat.symm

/-! ## Exact offsets -/

/-- The other instruction is the same one, exactly `more` bytes later. -/
structure Later (more : Nat) (instruction later : Instruction) : Prop where
  operation : later.operation = instruction.operation
  offset : later.offset.toNat = instruction.offset.toNat + more
  operand : later.operand = instruction.operand
  wide : later.wide = instruction.wide

/-- Instructions have offsets inside of the bytes that they are read from. -/
theorem Tiles.offset_lt {position : Nat} {instructions : List Instruction} {bytes : List UInt8}
    (tiles : Tiles position instructions bytes) (small : position + bytes.length < 2 ^ 32) :
    ∀ instruction ∈ instructions, instruction.offset.toNat < position + bytes.length := by
  induction instructions generalizing position bytes with
  | nil => simp
  | cons first others induction =>
    obtain ⟨filler, back, -, rfl, offset, -, behind⟩ := tiles
    have some : 0 < (first.encodeWith filler).length :=
      List.length_pos_iff.2 (encodeWith_ne_nil first filler)
    rw [List.length_append] at small ⊢
    rintro instruction (_ | ⟨_, member⟩)
    · have place : first.offset.toNat = position := by
        rw [offset, Nat.toUInt32_eq, UInt32.toNat_ofNat_of_lt' (show _ < 2 ^ 32 by omega)]
      omega
    · have inside := induction behind (by omega) instruction member
      omega

/-- An instruction that is told later, told exactly as long as offsets do not wrap around. -/
theorem later_advance {more : Nat} {instruction : Instruction}
    (small : instruction.offset.toNat + more < 2 ^ 32) :
    instruction.Later more (instruction.advance more) :=
  ⟨rfl, toNat_add_toUInt32 small, rfl, rfl⟩

end Instruction

end Bytecode

/-- The other failure is the same one, exactly `more` bytes later. -/
inductive Error.Later (more : Nat) : Error → Error → Prop
  | ended (offset needed : Nat) :
    Later more (.format (.unexpectedEnd offset needed))
      (.format (.unexpectedEnd (offset + more) needed))
  | jumpTable (operation : Operation) {offset later : UInt32}
    (exactly : later.toNat = offset.toNat + more) :
    Later more (.unsupported (.jumpTable operation offset))
      (.unsupported (.jumpTable operation later))
  | wideRecursion {offset later : UInt32} (exactly : later.toNat = offset.toNat + more) :
    Later more (.unsupported (.wideRecursion offset)) (.unsupported (.wideRecursion later))

namespace Bytecode.Instruction

/-- The failure of a short code array can be told later. -/
theorem later_of_readAll_error {bytes : List UInt8} {base more : Nat} {cause : Error}
    (failed : readAll ⟨bytes, 0, base⟩ = .error cause) (small : more + bytes.length < 2 ^ 32) :
    cause.Later more (cause.advance more) := by
  obtain ⟨_, front, back, rfl, some, -, stopped⟩ := readAll_eq_error_iff.1 failed
  have inside : front.length + more < 2 ^ 32 := by
    rw [List.length_append] at small
    omega
  obtain ⟨offset, needed, rfl⟩ | ⟨feature, rfl, place, -⟩ := readFrom_error stopped
  · exact .ended offset needed
  · have there : feature.offset.toNat = front.length := by
      have short : 0 + front.length < 2 ^ 32 := by omega
      rw [place, Nat.toUInt32_eq, UInt32.toNat_ofNat_of_lt' short, Nat.zero_add]
    have exactly : (feature.offset + more.toUInt32).toNat = feature.offset.toNat + more := by
      apply toNat_add_toUInt32
      rwa [there]
    cases feature with
    | jumpTable operation offset => exact .jumpTable operation exactly
    | wideRecursion offset => exact .wideRecursion exactly

/-- A code array behind another one is read as if it were on its own, and told later. -/
theorem readAll_behind {front : List UInt8} {base : Nat} {instructions : List Instruction}
    (found : readAll ⟨front, 0, base⟩ = .ok instructions) (back : List UInt8) :
    readAll ⟨front ++ back, 0, base⟩ =
      (instructions ++ ·) <$>
        ((readAll ⟨back, 0, base⟩).map (List.map (advance front.length))).mapError
          (Error.advance front.length) := by
  rw [← readAll_advance]
  exact (readAll_eq_ok_iff.1 found).readAll_append back base

/-- Code arrays are read one after the other. If bytes are a code array, then whatever stands behind
them is read as on its own, with instructions and failures told later by their length. If they are
not because of something that is not supported, then this is told whatever stands behind them. Hence
a switch, or a second `wide` operation, is told at an offset exactly if the bytes before the offset
are a code array and the operations at the offset say so. -/
theorem readAll_concatenates (base : Nat) :
    (∀ (front back : List UInt8) (instructions : List Instruction),
      front.length + back.length < 2 ^ 32 → readAll ⟨front, 0, base⟩ = .ok instructions →
        (∀ others, readAll ⟨back, 0, base⟩ = .ok others → ∃ later,
          readAll ⟨front ++ back, 0, base⟩ = .ok (instructions ++ later) ∧
            List.Forall₂ (Later front.length) others later) ∧
        ∀ cause, readAll ⟨back, 0, base⟩ = .error cause → ∃ later,
          readAll ⟨front ++ back, 0, base⟩ = .error later ∧ cause.Later front.length later) ∧
    (∀ (front : List UInt8) (feature : UnsupportedFeature),
      readAll ⟨front, 0, base⟩ = .error (.unsupported feature) →
        ∀ back, readAll ⟨front ++ back, 0, base⟩ = .error (.unsupported feature)) ∧
    ∀ (bytes : List UInt8) (offset : UInt32), bytes.length < 2 ^ 32 →
      (∀ operation,
        readAll ⟨bytes, 0, base⟩ = .error (.unsupported (.jumpTable operation offset)) ↔
          (∃ instructions, readAll ⟨bytes.take offset.toNat, 0, base⟩ = .ok instructions) ∧
            (operation = .tableSwitch ∨ operation = .lookupSwitch) ∧
            (Opens (bytes.drop offset.toNat) [operation] ∨
              Opens (bytes.drop offset.toNat) [.wide, operation])) ∧
      (readAll ⟨bytes, 0, base⟩ = .error (.unsupported (.wideRecursion offset)) ↔
        (∃ instructions, readAll ⟨bytes.take offset.toNat, 0, base⟩ = .ok instructions) ∧
          Opens (bytes.drop offset.toNat) [.wide, .wide]) := by
  refine ⟨?_, ?_, ?_⟩
  · intro front back instructions small found
    refine ⟨fun others behind => ?_, fun cause behind => ?_⟩
    · refine ⟨others.map (advance front.length), ?_, ?_⟩
      · rw [readAll_behind found, behind]
        rfl
      -- all offsets are below the end of both parts, so moving them does not wrap around
      · have inside := (readAll_eq_ok_iff.1 behind).offset_lt (by simp only; omega)
        rw [List.forall₂_map_right_iff, List.forall₂_same]
        intro instruction member
        have bound := inside instruction member
        apply later_advance
        simp only at bound
        omega
    · refine ⟨cause.advance front.length, ?_, later_of_readAll_error behind small⟩
      rw [readAll_behind found, behind]
      rfl
  · intro front feature failed back
    exact readAll_append_of_unsupported failed back
  · intro bytes offset small
    refine ⟨fun operation => ?_, ?_⟩
    · exact readAll_eq_unsupported_iff_split small
    · exact readAll_eq_unsupported_iff_split small

/-- A widened increment and a constant. -/
def openingCode : List UInt8 := [0xC4, 0x84, 0x01, 0x2C, 0xFF, 0x38, 0x04]

/-- A jump over nothing and a return. -/
def closingCode : List UInt8 := [0xA7, 0x00, 0x03, 0xB1]

/-- Nothing, and then a switch behind a `wide` operation. -/
def switchingCode : List UInt8 := [0x00, 0xC4, 0xAA]

/-- Two parts that are code, and a second part that is not supported. -/
theorem readAll_concatenates_opening :
    (∃ instructions others later,
      readAll ⟨openingCode, 0, 5⟩ = .ok instructions ∧ readAll ⟨closingCode, 0, 5⟩ = .ok others ∧
      readAll ⟨openingCode ++ closingCode, 0, 5⟩ = .ok (instructions ++ later) ∧
      List.Forall₂ (Later 7) others later) ∧
    (∃ later, readAll ⟨openingCode ++ switchingCode, 0, 5⟩ = .error later ∧
      (Error.unsupported (.jumpTable .tableSwitch 1)).Later 7 later) ∧
    readAll ⟨openingCode ++ switchingCode ++ closingCode, 0, 5⟩ =
      .error (.unsupported (.jumpTable .tableSwitch 8)) ∧
    readAll ⟨openingCode ++ [0xC4, 0xC4], 0, 5⟩ = .error (.unsupported (.wideRecursion 7)) := by
  obtain ⟨behind, whatever, told⟩ := readAll_concatenates 5
  have opening : readAll ⟨openingCode, 0, 5⟩ = .ok
      [⟨.intInc, 0, .twoValue 300 (-200), true⟩, ⟨.intConst 2, 6, .simple, false⟩] := by
    decide +kernel
  have closing : readAll ⟨closingCode, 0, 5⟩ = .ok
      [⟨.goto, 0, .branch 3, false⟩, ⟨.returnVoid, 3, .simple, false⟩] := by
    decide +kernel
  have switching : readAll ⟨switchingCode, 0, 5⟩ =
      .error (.unsupported (.jumpTable .tableSwitch 1)) :=
    ((told switchingCode 1 (by decide)).1 .tableSwitch).2
      ⟨⟨[⟨.nop, 0, .simple, false⟩], by decide +kernel⟩, by decide +kernel⟩
  have refused : readAll ⟨openingCode ++ switchingCode, 0, 5⟩ =
      .error (.unsupported (.jumpTable .tableSwitch 8)) := by
    decide +kernel
  refine ⟨?_, ?_, whatever _ _ refused closingCode, ?_⟩
  · obtain ⟨later, whole, shifted⟩ :=
      (behind openingCode closingCode _ (by decide) opening).1 _ closing
    exact ⟨_, _, later, opening, closing, whole, shifted⟩
  · exact (behind openingCode switchingCode _ (by decide) opening).2 _ switching
  · exact (told (openingCode ++ [0xC4, 0xC4]) 7 (by decide)).2.2 ⟨⟨_, opening⟩, by decide +kernel⟩

end Bytecode.Instruction

end ClassLowering
