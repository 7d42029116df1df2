import ClassLowering.ClassFile.Basic
import ClassLowering.Proofs.Outcomes

/-! # Instructions of parsed classes

An instruction that was read has an operand of the shape that its operation asks for, and slots
and indices in it are 16-bit numbers (`Instruction.Shaped`). All instructions of the methods of a
parsed class are of this form (`ClassFile.shaped_of_parse`).

Code is nested deep in a class, so that what reading a code array ensures is carried to the methods
of a parsed class once for all (`ClassFile.frame_of_parse`). -/

namespace ClassLowering

/-! ## What readers ensure -/

namespace Read

variable {α β : Type}

/-- Every value that the reader gives has a property. -/
def Ensures (property : α → Prop) (reader : Read α) : Prop :=
  ∀ start value stop, reader start = .ok (value, stop) → property value

/-- A value ensures what holds of it. -/
theorem ensures_pure {property : α → Prop} {value : α} (holds : property value) :
    Ensures property (pure value : Read α) := by
  intro start result stop same
  cases same
  exact holds

/-- What fails or succeeds without reading leaves the cursor where it is. -/
theorem lift_eq_ok {outcome : Except Error α} {value : α} {start stop : Cursor} :
    (liftM outcome : Read α) start = .ok (value, stop) ↔ outcome = .ok value ∧ start = stop := by
  cases outcome with
  | error failure =>
    constructor
    · intro same
      cases same
    · rintro ⟨same, -⟩
      cases same
  | ok found =>
    change Except.ok (found, start) = _ ↔ _
    rw [Except.ok.injEq, Prod.mk.injEq, Except.ok.injEq]

/-- Only the last reader of a sequence decides about its value. -/
theorem ensures_bind {property : β → Prop} {reader : Read α} {next : α → Read β}
    (last : ∀ value, Ensures property (next value)) : Ensures property (reader >>= next) := by
  intro start result stop same
  obtain ⟨value, middle, -, after⟩ := bind_eq_ok.1 same
  exact last value middle result stop after

/-- A mapped reader succeeds when the reader does. -/
theorem map_eq_ok {f : α → β} {reader : Read α} {start stop : Cursor} {result : β} :
    (f <$> reader) start = .ok (result, stop) ↔
      ∃ value, reader start = .ok (value, stop) ∧ f value = result := by
  rw [← bind_pure_comp, bind_eq_ok]
  constructor
  · rintro ⟨value, middle, before, after⟩
    cases after
    exact ⟨value, before, rfl⟩
  · rintro ⟨value, before, rfl⟩
    exact ⟨value, stop, before, rfl⟩

/-- A mapped reader gives images of what the reader gives. -/
theorem ensures_map {property : β → Prop} {f : α → β} {reader : Read α}
    (holds : ∀ value, property (f value)) : Ensures property (f <$> reader) := by
  intro start result stop same
  obtain ⟨value, -, rfl⟩ := map_eq_ok.1 same
  exact holds value

end Read

namespace Bytecode

open Read

/-! ## Single instructions -/

/-- The number is a slot or an index, that is a number of 16 bits. -/
def IsIndex (value : Int32) : Prop := ∃ index : UInt16, value = index.toUInt32.toInt32

/-- A slot or index is the same number as a 16-bit one. -/
theorem IsIndex.toInt_eq {value : Int32} (isIndex : IsIndex value) :
    (value.toUInt32.toUInt16.toNat : Int) = value.toInt := by
  obtain ⟨index, rfl⟩ := isIndex
  have bound := index.toNat_lt
  rw [← Int32.toInt_toBitVec, UInt32.toBitVec_toInt32, UInt32.toUInt32_toInt32,
    BitVec.toInt_eq_toNat_of_lt, UInt32.toNat_toBitVec, UInt16.toNat_toUInt32,
    UInt16.toUInt16_toUInt32]
  rw [UInt32.toNat_toBitVec, UInt16.toNat_toUInt32]
  omega

/-- An index is kept in 16 bits. -/
theorem IsIndex.toNat_eq {value : Int32} (isIndex : IsIndex value) :
    value.toUInt32.toUInt16.toNat = value.toInt.toNat := by
  rw [← isIndex.toInt_eq, Int.toNat_natCast]

/-- A slot or index is read off an instruction without loss. -/
theorem IsIndex.toInt_index {instruction : Instruction} {value : Int32} (isIndex : IsIndex value)
    (read : instruction.value? = some value) : (instruction.index.toNat : Int) = value.toInt := by
  rw [Instruction.index, read, Option.getD_some, isIndex.toInt_eq]

/-- A slot or index is below 65536. -/
theorem IsIndex.toNat_lt {value : Int32} (isIndex : IsIndex value) :
    value.toInt.toNat < 65536 := by
  rw [← isIndex.toNat_eq]
  exact UInt16.toNat_lt _

/-- The operand has the shape that the operation asks for. -/
def Instruction.Shaped (instruction : Instruction) : Prop :=
  match instruction.operation.shape with
  | .simple => instruction.operand = .simple
  | .oneValue =>
    ∃ value, instruction.operand = .oneValue value ∧
      (instruction.operation = .bytePush ∨ IsIndex value)
  | .wideOneValue =>
    ∃ value, instruction.operand = .oneValue value ∧
      (instruction.operation = .shortPush ∨ IsIndex value)
  | .twoValue => ∃ slot constant, instruction.operand = .twoValue slot constant ∧ IsIndex slot
  | .branch => ∃ displacement, instruction.operand = .branch displacement
  | .valueExtra => ∃ value extra, instruction.operand = .valueExtra value extra
  | .table => False

/-- A byte is a 16-bit number. -/
theorem toInt32_byte (byte : UInt8) :
    byte.toUInt32.toInt32 = byte.toUInt16.toUInt32.toInt32 := by
  rw [UInt8.toUInt32_toUInt16]

/-- The value of an operation is an index, unless it is a byte to push. -/
theorem ensures_readOneValue (operation : Operation) (wide : Bool) :
    Ensures (fun value => operation = .bytePush ∨ IsIndex value)
      (Operand.readOneValue operation wide) := by
  unfold Operand.readOneValue
  split
  · next push => exact ensures_map fun _ => .inl push
  · split
    · exact ensures_map fun value => .inr ⟨value, rfl⟩
    · exact ensures_map fun value => .inr ⟨value.toUInt16, toInt32_byte value⟩

/-- The value of an operation that has two bytes is an index, unless they are to be pushed. -/
theorem ensures_readWideOneValue (operation : Operation) :
    Ensures (fun value => operation = .shortPush ∨ IsIndex value)
      (Operand.readWideOneValue operation) := by
  unfold Operand.readWideOneValue
  split
  · next push => exact ensures_map fun _ => .inl push
  · exact ensures_map fun value => .inr ⟨value, rfl⟩

/-- The slot of an increment is an index. -/
theorem ensures_readTwoValue (wide : Bool) :
    Ensures (fun operand => ∃ slot constant,
      operand = Operand.twoValue slot constant ∧ IsIndex slot) (Operand.readTwoValue wide) := by
  unfold Operand.readTwoValue
  split
  · exact ensures_bind fun slot => ensures_bind fun constant =>
      ensures_pure ⟨_, _, rfl, slot, rfl⟩
  · exact ensures_bind fun slot => ensures_bind fun constant =>
      ensures_pure ⟨_, _, rfl, slot.toUInt16, toInt32_byte slot⟩

/-- The operand that is read for an operation has its shape. -/
theorem shaped_of_read {operation : Operation} {offset : UInt32} {wide : Bool} {operand : Operand}
    {start stop : Cursor} (found : Operand.read operation offset wide start = .ok (operand, stop)) :
    Instruction.Shaped ⟨operation, offset, operand, wide⟩ := by
  unfold Operand.read at found
  unfold Instruction.Shaped
  dsimp only
  -- the shape of the operation decides which operand is read
  cases shape : operation.shape with
  | simple =>
    rw [shape] at found
    cases found
    rfl
  | oneValue =>
    rw [shape] at found
    obtain ⟨value, read, rfl⟩ := map_eq_ok.1 found
    exact ⟨value, rfl, ensures_readOneValue operation wide _ _ _ read⟩
  | wideOneValue =>
    rw [shape] at found
    obtain ⟨value, read, rfl⟩ := map_eq_ok.1 found
    exact ⟨value, rfl, ensures_readWideOneValue operation _ _ _ read⟩
  | twoValue =>
    rw [shape] at found
    exact ensures_readTwoValue wide _ _ _ found
  | branch =>
    rw [shape] at found
    obtain ⟨displacement, -, rfl⟩ := map_eq_ok.1 found
    exact ⟨displacement, rfl⟩
  | valueExtra =>
    rw [shape] at found
    obtain ⟨value, afterValue, -, found⟩ := bind_eq_ok.1 found
    obtain ⟨extra, afterExtra, -, found⟩ := bind_eq_ok.1 found
    obtain ⟨_, afterFiller, -, found⟩ := bind_eq_ok.1 found
    cases found
    exact ⟨value, extra, rfl⟩
  | table =>
    rw [shape] at found
    cases found

/-- Instructions that are read have operands of the right shape. -/
theorem Instruction.ensures_read : Ensures Instruction.Shaped Instruction.read := by
  intro start instruction stop found
  obtain ⟨here, _, same, found⟩ := bind_eq_ok.1 found
  cases same
  obtain ⟨operation, afterOperation, -, found⟩ := bind_eq_ok.1 found
  split at found
  · obtain ⟨widened, afterWidened, -, found⟩ := bind_eq_ok.1 found
    split at found
    · cases found
    · obtain ⟨operand, afterOperand, read, found⟩ := bind_eq_ok.1 found
      cases found
      exact shaped_of_read read
  · obtain ⟨operand, afterOperand, read, found⟩ := bind_eq_ok.1 found
    cases found
    exact shaped_of_read read

/-- All instructions of a code array have operands of the right shape. -/
theorem Instruction.shaped_of_readAll {cursor : Cursor} {instructions : List Instruction}
    (found : readAll cursor = .ok instructions) :
    ∀ instruction ∈ instructions, instruction.Shaped := by
  fun_induction readAll cursor generalizing instructions with
  | case1 =>
    cases found
    intro instruction member
    cases member
  | case2 => cases found
  | case3 cursor _ first next step rest =>
    obtain ⟨others, read, same⟩ := Except.bind_eq_ok.1 found
    cases same
    intro instruction member
    rcases List.mem_cons.1 member with rfl | member
    · exact ensures_read cursor instruction next step
    · exact rest read instruction member

end Bytecode

/-! ## Whole classes -/

namespace LoggedRead

variable {α β : Type}

/-- Every value that the reader gives has a property. -/
def Ensures (property : α → Prop) (reader : LoggedRead α) : Prop :=
  ∀ start value stop, (reader start).result = .ok (value, stop) → property value

/-- A sequence of two readers succeeds when both do, one after the other. -/
theorem bind_eq_ok {reader : LoggedRead α} {next : α → LoggedRead β} {start stop : Cursor}
    {result : β} :
    ((reader >>= next) start).result = .ok (result, stop) ↔
      ∃ value middle, (reader start).result = .ok (value, middle) ∧
        (next value middle).result = .ok (result, stop) := by
  change (reader start >>= fun step => next step.1 step.2).result = _ ↔ _
  rw [Logged.bind_eq_ok]
  constructor
  · rintro ⟨⟨value, middle⟩, before, after⟩
    exact ⟨value, middle, before, after⟩
  · rintro ⟨value, middle, before, after⟩
    exact ⟨(value, middle), before, after⟩

/-- A value ensures what holds of it, with or without a log. -/
theorem ensures_pure {property : α → Prop} {value : α} (holds : property value) :
    Ensures property (pure value : LoggedRead α) := by
  intro start result stop same
  cases same
  exact holds

/-- What the first reader ensures may be used for the second one. -/
theorem Ensures.bind {first : α → Prop} {property : β → Prop} {reader : LoggedRead α}
    {next : α → LoggedRead β} (before : Ensures first reader)
    (after : ∀ value, first value → Ensures property (next value)) :
    Ensures property (reader >>= next) := by
  intro start result stop same
  obtain ⟨value, middle, read, last⟩ := bind_eq_ok.1 same
  exact after value (before start value middle read) middle result stop last

/-- Only the last reader of a sequence decides about its value. -/
theorem ensures_bind {property : β → Prop} {reader : LoggedRead α} {next : α → LoggedRead β}
    (last : ∀ value, Ensures property (next value)) : Ensures property (reader >>= next) := by
  intro start result stop same
  obtain ⟨value, middle, -, after⟩ := bind_eq_ok.1 same
  exact last value middle result stop after

/-- A repeated reader gives a list of what it gives. -/
theorem Ensures.times {property : α → Prop} {reader : LoggedRead α}
    (ensured : Ensures property reader) (count : Nat) :
    Ensures (fun values => ∀ value ∈ values, property value) (times count reader) := by
  induction count with
  | zero => exact ensures_pure fun value member => absurd member List.not_mem_nil
  | succ count rest =>
    refine ensured.bind fun first holds => rest.bind fun others all => ensures_pure ?_
    intro value member
    rcases List.mem_cons.1 member with rfl | member
    · exact holds
    · exact all value member

end LoggedRead

open LoggedRead (Ensures ensures_bind ensures_pure)

namespace Attribute

/-- The frame of a code attribute has a property. -/
def FrameHas (property : CodeFrame → Prop) : Attribute → Prop
  | code frame _ => property frame
  | _ => True

variable {pool : ConstantPool} {property : CodeFrame → Prop}

/-- Attributes other than code have no frame. -/
theorem frameHas_of_readPlain {name : String} {payload : Cursor} {plain : Attribute}
    (found : (readPlain pool name payload).result = .ok plain) : plain.FrameHas property := by
  unfold readPlain at found
  split at found
  · obtain ⟨_, -, found⟩ := Logged.bind_eq_ok.1 found
    cases found
    trivial
  · obtain ⟨_, -, found⟩ := Logged.bind_eq_ok.1 found
    obtain ⟨_, -, found⟩ := Logged.bind_eq_ok.1 found
    cases found
    trivial
  · obtain ⟨_, -, found⟩ := Logged.bind_eq_ok.1 found
    obtain ⟨_, -, found⟩ := Logged.bind_eq_ok.1 found
    cases found
    trivial
  · obtain ⟨_, -, found⟩ := Logged.bind_eq_ok.1 found
    obtain ⟨_, -, found⟩ := Logged.bind_eq_ok.1 found
    cases found
    trivial
  · obtain ⟨_, -, found⟩ := Logged.bind_eq_ok.1 found
    cases found
    trivial

/-- The frame of a code attribute holds what `Instruction.readAll` gives for a code array of its
length. -/
theorem readAll_of_readCodeFrame {start stop : Cursor} {frame : CodeFrame} {count : UInt16}
    (found : readCodeFrame pool start = .ok ((frame, count), stop)) :
    ∃ code base, code.length = frame.codeLength.toNat ∧
      Bytecode.Instruction.readAll ⟨code, 0, base⟩ = .ok frame.instructions := by
  obtain ⟨_, _, -, found⟩ := Read.bind_eq_ok.1 found
  obtain ⟨_, _, -, found⟩ := Read.bind_eq_ok.1 found
  obtain ⟨codeLength, afterLength, -, found⟩ := Read.bind_eq_ok.1 found
  obtain ⟨code, afterCode, split, found⟩ := Read.bind_eq_ok.1 found
  obtain ⟨instructions, _, read, found⟩ := Read.bind_eq_ok.1 found
  obtain ⟨_, _, -, found⟩ := Read.bind_eq_ok.1 found
  obtain ⟨_, _, -, found⟩ := Read.bind_eq_ok.1 found
  obtain ⟨_, _, -, found⟩ := Read.bind_eq_ok.1 found
  cases found
  -- the code array is a buffer of its own, which has the length that was asked for
  obtain ⟨_, _, same, split⟩ := Read.bind_eq_ok.1 split
  cases same
  obtain ⟨bytes, _, taken, split⟩ := Read.bind_eq_ok.1 split
  cases split
  change afterLength.take codeLength.toNat = _ at taken
  rw [Cursor.take_eq] at taken
  split at taken
  · next enough =>
    cases taken
    exact ⟨_, _, List.length_take_of_le enough, (Read.lift_eq_ok.1 read).1⟩
  · cases taken

/-- The frames in a list of attributes have what reading a frame ensures. -/
theorem frameHas_of_readMany
    (ensured : Read.Ensures (fun step => property step.1) (readCodeFrame pool)) {count : Nat}
    {start stop : Cursor} {attributes : List Attribute}
    (found : (readMany pool count start).result = .ok (attributes, stop)) :
    ∀ member ∈ attributes, member.FrameHas property := by
  induction count generalizing start stop attributes with
  | zero =>
    rw [readMany] at found
    cases found
    intro member listed
    cases listed
  | succ count rest =>
    rw [readMany] at found
    split at found
    · cases found
    · next name payload next header =>
      -- Whatever the first attribute is, the others come from the same reader.
      have join : ∀ first : Attribute, first.FrameHas property →
          (readMany pool count next >>= fun step =>
            pure (first :: step.1, step.2)).result = .ok (attributes, stop) →
          ∀ member ∈ attributes, member.FrameHas property := by
        intro first holds step
        obtain ⟨⟨others, last⟩, readOthers, same⟩ := Logged.bind_eq_ok.1 step
        cases same
        intro member listed
        rcases List.mem_cons.1 listed with rfl | listed
        · exact holds
        · exact rest readOthers member listed
      dsimp only at found
      split at found
      · split at found
        · cases found
        · next frame inner nested body =>
          obtain ⟨⟨nestedAttributes, _⟩, -, found⟩ := Logged.bind_eq_ok.1 found
          obtain ⟨first, same, found⟩ := Logged.bind_eq_ok.1 found
          cases same
          exact join (code frame nestedAttributes) (ensured _ _ _ body) found
      · obtain ⟨first, readFirst, found⟩ := Logged.bind_eq_ok.1 found
        exact join first (frameHas_of_readPlain readFirst) found

/-- The code among attributes is that of one of them. -/
theorem mem_of_code? {attributes : List Attribute} {found : MethodCode}
    (same : code? attributes = some found) :
    code found.toCodeFrame found.attributes ∈ attributes := by
  obtain ⟨member, listed, same⟩ := List.exists_of_findSome?_eq_some same
  cases member with
  | code frame nested =>
    cases same
    exact listed
  | _ => cases same

end Attribute

namespace ClassFile

variable {property : CodeFrame → Prop}

/-- The frames among the attributes of a field or method have a property. -/
def MemberHas (property : CodeFrame → Prop) (member : Member) : Prop :=
  ∀ attached ∈ member.attributes, attached.FrameHas property

section

variable {pool : ConstantPool}
  (ensured : Read.Ensures (fun step => property step.1) (Attribute.readCodeFrame pool))

include ensured

/-- The frames of a member have what all frames have. -/
theorem ensures_readMember : Ensures (MemberHas property) (readMember pool) :=
  ensures_bind fun _ => ensures_bind fun _ => ensures_bind fun _ => ensures_bind fun _ =>
    ensures_bind fun _ => (ensures_bind fun _ _ _ _ => Attribute.frameHas_of_readMany ensured :
      Ensures (fun attributes => ∀ member ∈ attributes, member.FrameHas property)
        (Attribute.readList pool)).bind fun _ holds => ensures_pure holds

/-- The frames of all members have what all frames have. -/
theorem ensures_readMembers :
    Ensures (fun members => ∀ member ∈ members, MemberHas property member) (readMembers pool) :=
  ensures_bind fun _ => (ensures_readMember ensured).times _

/-- The frames of all methods of a class have what all frames have. -/
theorem ensures_readBody :
    Ensures (fun file => ∀ method ∈ file.methods, MemberHas property method) (readBody pool) :=
  ensures_bind fun _ => ensures_bind fun _ => ensures_bind fun _ => ensures_bind fun _ =>
    ensures_bind fun _ => ensures_bind fun _ => ensures_bind fun _ =>
      (ensures_readMembers ensured).bind fun _ holds => ensures_bind fun _ => ensures_pure holds

end

/-- Reading a class ensures for the frames of its methods what reading a frame ensures. -/
theorem ensures_read
    (ensured : ∀ pool, Read.Ensures (fun step => property step.1) (Attribute.readCodeFrame pool)) :
    Ensures (fun file => ∀ method ∈ file.methods, MemberHas property method) read := by
  refine ensures_bind fun signature => ?_
  split
  · exact ensures_bind fun _ => ensures_bind fun _ => ensures_bind fun pool =>
      (ensures_readBody (ensured pool)).bind fun _ holds => ensures_bind fun _ => ensures_pure holds
  · intro start file stop found
    cases found

/-- The frames of the methods of a parsed class have what reading a frame ensures. -/
theorem frame_of_parse (property : CodeFrame → Prop)
    (ensured : ∀ pool, Read.Ensures (fun step => property step.1) (Attribute.readCodeFrame pool))
    {bytes : List UInt8} {file : ClassFile} {method : Member} {frame : CodeFrame}
    {nested : List Attribute} (parsed : (parse bytes).result = .ok file)
    (listed : method ∈ file.methods) (coded : .code frame nested ∈ method.attributes) :
    property frame := by
  obtain ⟨⟨_, stop⟩, readFile, same⟩ := Logged.bind_eq_ok.1 parsed
  cases same
  exact ensures_read ensured _ _ _ readFile method listed _ coded

/-- The code of the methods of a parsed class has instructions with operands of the right shape. -/
theorem shaped_of_parse {bytes : List UInt8} {file : ClassFile} {method : Member}
    {code : MethodCode} (parsed : (parse bytes).result = .ok file) (listed : method ∈ file.methods)
    (found : Attribute.code? method.attributes = some code) :
    ∀ instruction ∈ code.instructions, instruction.Shaped := by
  refine frame_of_parse (fun frame => ∀ instruction ∈ frame.instructions, instruction.Shaped)
    (fun pool start step stop read => ?_) parsed listed (Attribute.mem_of_code? found)
  obtain ⟨_, _, -, all⟩ := Attribute.readAll_of_readCodeFrame read
  exact Bytecode.Instruction.shaped_of_readAll all

end ClassFile

end ClassLowering
