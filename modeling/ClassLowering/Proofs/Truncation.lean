import ClassLowering.Proofs.Encoding.Outcomes

/-! # Class files that are cut off

A reader is local if it depends on the bytes it consumes only: it does the same whatever follows
them, and if the buffer ends within them it fails because of that, at the place where the buffer
ends (`Read.Local`). Everything a class file is read with is local, since checks are made on bytes
that have been consumed, and the payload of an attribute is split off before any of it is decoded.
So a class file that was read is determined by a front part of the buffer, and no shorter part is
refused for another reason (`ClassFile.parse_local`). -/

namespace ClassLowering

open Read

variable {α β : Type}

/-- The outcome is a failure of a read that starts in a buffer and passes its end at `place`. -/
def EndsAt (place : Nat) (outcome : Except Error α) : Prop :=
  ∃ offset needed, outcome = .error (.format (.unexpectedEnd offset needed)) ∧
    offset ≤ place ∧ place < offset + needed

/-- A sequence ends too early where its first step does. -/
theorem EndsAt.bind {place : Nat} {outcome : Except Error α} (ends : EndsAt place outcome)
    (next : α → Except Error β) : EndsAt place (outcome >>= next) := by
  obtain ⟨offset, needed, rfl, before, behind⟩ := ends
  exact ⟨offset, needed, rfl, before, behind⟩

/-- What is made of a result is missing where the result is. -/
theorem EndsAt.map {place : Nat} {outcome : Except Error α} (ends : EndsAt place outcome)
    (f : α → β) : EndsAt place (f <$> outcome) := by
  obtain ⟨offset, needed, rfl, before, behind⟩ := ends
  exact ⟨offset, needed, rfl, before, behind⟩

namespace Read

/-- The reader depends on the bytes it consumes only, and notices when they are cut off. -/
def Local (reader : Read α) : Prop :=
  ∀ start value stop, reader start = .ok (value, stop) →
    ∃ bytes, start.Passes bytes stop ∧
      (∀ rest, reader ⟨bytes ++ rest, start.position, start.base⟩ =
        .ok (value, ⟨rest, start.position + bytes.length, start.base⟩)) ∧
      ∀ kept < bytes.length,
        EndsAt (start.offset + kept) (reader ⟨bytes.take kept, start.position, start.base⟩)

/-- What reads nothing is local. -/
theorem local_pure (value : α) : Local (pure value : Read α) := by
  intro start result stop same
  cases same
  exact ⟨[], .refl start, fun rest => rfl, fun kept inside => absurd inside (Nat.not_lt_zero _)⟩

/-- What always fails reads nothing, so it is local. -/
theorem local_fail (error : Error) : Local (fail error : Read α) := by
  intro start result stop same
  cases same

/-- An outcome that is there already is local. -/
theorem local_lift (found : Except Error α) : Local (liftM found : Read α) := by
  cases found with
  | error failure => exact local_fail failure
  | ok value => exact local_pure value

/-- Bytes are local: all of them are needed, and nothing behind them is. -/
theorem local_bytes (length : Nat) : Local (bytes length) := by
  intro start value stop taken
  obtain ⟨rfl, passes⟩ := Cursor.take_eq_ok_iff.1 taken
  refine ⟨value, passes, fun rest => Cursor.take_eq_ok_iff.2 ⟨rfl, rfl, rfl, rfl⟩, ?_⟩
  intro kept inside
  refine ⟨start.offset, value.length, ?_, Nat.le_add_right _ _, Nat.add_lt_add_left inside _⟩
  rw [bytes, Cursor.take_eq, if_neg]
  · rfl
  · simp
    omega

/-- A cut falls into the bytes of the first reader or into those of the second one. -/
theorem Local.bind {reader : Read α} {next : α → Read β} (first : Local reader)
    (second : ∀ value, Local (next value)) : Local (reader >>= next) := by
  intro start result stop same
  obtain ⟨value, middle, before, after⟩ := bind_eq_ok.1 same
  obtain ⟨front, passes, reads, ends⟩ := first start value middle before
  obtain ⟨back, passesMore, readsMore, endsMore⟩ := second value middle result stop after
  rw [passes.position, passes.base] at readsMore endsMore
  refine ⟨front ++ back, passes.trans passesMore, fun rest => ?_, fun kept inside => ?_⟩
  · rw [bind_apply, List.append_assoc, reads, List.length_append, ← Nat.add_assoc]
    exact readsMore rest
  · rw [List.length_append] at inside
    rw [bind_apply]
    by_cases cut : kept < front.length
    · rw [List.take_append_of_le_length (Nat.le_of_lt cut)]
      exact (ends kept cut).bind _
    · have place : middle.offset + (kept - front.length) = start.offset + kept := by
        rw [Cursor.offset, Cursor.offset, passes.position, passes.base]
        omega
      rw [List.take_append, List.take_of_length_le (by omega), reads, ← place]
      exact endsMore (kept - front.length) (by omega)

/-- What is made of the result does not matter for being local. -/
theorem Local.map {reader : Read α} (isLocal : Local reader) (f : α → β) :
    Local (f <$> reader) := by
  rw [← bind_pure_comp]
  exact isLocal.bind fun value => local_pure (f value)

/-- Either of two readers is local if both are. -/
theorem Local.ite {condition : Prop} [Decidable condition] {one other : Read α} (first : Local one)
    (second : Local other) : Local (if condition then one else other) := by
  split
  · exact first
  · exact second

/-- A repeated reader is local if it is once. -/
theorem Local.times {reader : Read α} (isLocal : Local reader) (count : Nat) :
    Local (times count reader) := by
  induction count with
  | zero => exact local_pure _
  | succ count induction =>
    exact isLocal.bind fun _ => induction.bind fun _ => local_pure _

/-- Numbers are local. -/
theorem local_number (width : Nat) : Local (number width) := (local_bytes width).map _

/-- Unsigned bytes are local. -/
theorem local_u8 : Local u8 := (local_number 1).map _

/-- Unsigned 16-bit integers are local. -/
theorem local_u16 : Local u16 := (local_number 2).map _

/-- Unsigned 32-bit integers are local. -/
theorem local_u32 : Local u32 := (local_number 4).map _

/-- Unsigned 64-bit integers are local. -/
theorem local_u64 : Local u64 := (local_number 8).map _

/-- A part of a buffer knows its place, which does not depend on what follows. -/
theorem local_sub (length : Nat) : Local (sub length) := by
  have apply_sub (start : Cursor) :
      sub length start =
        ((fun taken => (⟨taken, 0, start.offset⟩ : Cursor)) <$> bytes length) start :=
    rfl
  intro start part stop found
  rw [apply_sub] at found
  obtain ⟨taken, passes, reads, ends⟩ := (local_bytes length).map _ start part stop found
  exact ⟨taken, passes, fun rest => reads rest, fun kept inside => ends kept inside⟩

end Read

/-! ## Constants -/

namespace RawConstant

/-- A text constant is local, whether or not its bytes are a text. -/
theorem local_readUtf8 (index : Nat) : Local (readUtf8 index) := by
  refine local_u16.bind fun length => (local_bytes _).bind fun bytes => ?_
  split
  · exact local_pure _
  · exact local_fail _

/-- A constant of two indices is local. -/
theorem local_readPair (make : UInt16 → UInt16 → Constant) : Local (readPair make) :=
  local_u16.bind fun _ => local_u16.bind fun _ => local_pure _

/-- A method handle is local. -/
theorem local_readMethodHandle : Local readMethodHandle :=
  local_u8.bind fun _ => local_u16.bind fun _ => local_pure _

/-- A constant is local, whatever its tag. -/
theorem local_read (index : Nat) : Local (read index) := by
  refine local_u8.bind fun tag => ?_
  split
  · exact (local_readUtf8 index).map _
  · exact (local_u32.map _).map _
  · exact local_u32.map _
  · exact (local_u64.map _).map _
  · exact local_u64.map _
  · exact local_u16.map _
  · exact local_u16.map _
  · exact (local_readPair _).map _
  · exact (local_readPair _).map _
  · exact (local_readPair _).map _
  · exact (local_readPair _).map _
  · exact local_readMethodHandle.map _
  · exact local_u16.map _
  · exact (local_readPair _).map _
  · exact (local_readPair _).map _
  · exact local_u16.map _
  · exact local_u16.map _
  · exact local_fail _

/-- The constants of a pool are local. -/
theorem local_readAll (count index : Nat) : Local (readAll count index) := by
  fun_induction readAll count index with
  | case1 index inside wide single =>
    refine (local_read index).bind fun constant => Local.ite ?_ ?_
    · split
      · next fits => exact (wide fits).bind fun _ => local_pure _
      · exact local_fail _
    · exact single.bind fun _ => local_pure _
  | case2 index outside => exact local_pure _

end RawConstant

/-- A pool is local: its strings and references need no more bytes. -/
theorem ConstantPool.local_read : Local ConstantPool.read.outcome := by
  rw [outcome_read]
  exact local_u16.bind fun _ => (RawConstant.local_readAll _ 1).bind fun _ => local_lift _

/-! ## Attributes and classes -/

namespace Attribute

variable (pool : ConstantPool)

/-- The header of an attribute is local, with its payload split off. -/
theorem local_readHeader : Local (readHeader pool) :=
  local_u16.bind fun _ => (local_lift _).bind fun _ => local_u32.bind fun _ =>
    (local_sub _).bind fun _ => local_pure _

/-- However an attribute is decoded, only its header and the length of its payload matter for what
is consumed. -/
theorem local_readMany (count : Nat) : Local (LoggedRead.outcome (readMany pool count)) := by
  induction count with
  | zero =>
    rw [outcome_readMany_zero]
    exact local_pure _
  | succ count induction =>
    rw [outcome_readMany_succ]
    exact (local_readHeader pool).bind fun _ => (local_lift _).bind fun _ =>
      induction.bind fun _ => local_pure _

/-- A list of attributes is local. -/
theorem local_readList : Local (readList pool).outcome := by
  rw [outcome_readList]
  exact local_u16.bind fun _ => local_readMany pool _

end Attribute

namespace ClassFile

variable (pool : ConstantPool)

/-- A member is local. -/
theorem local_readMember : Local (readMember pool).outcome := by
  rw [outcome_readMember]
  exact local_u16.bind fun _ => local_u16.bind fun _ => (local_lift _).bind fun _ =>
    local_u16.bind fun _ => (local_lift _).bind fun _ =>
      (Attribute.local_readList pool).bind fun _ => local_pure _

/-- Members are local. -/
theorem local_readMembers : Local (readMembers pool).outcome := by
  rw [outcome_readMembers]
  exact local_u16.bind fun _ => (local_readMember pool).times _

/-- The name of a class is local. -/
theorem local_readClassName : Local (readClassName pool) :=
  local_u16.bind fun _ => local_lift _

/-- The body of a class is local. -/
theorem local_readBody : Local (readBody pool).outcome := by
  rw [outcome_readBody]
  exact local_u16.bind fun _ => (local_readClassName pool).bind fun _ => local_u16.bind fun _ =>
    (local_lift _).bind fun _ => local_u16.bind fun _ =>
      ((local_readClassName pool).times _).bind fun _ => (local_readMembers pool).bind fun _ =>
        (local_readMembers pool).bind fun _ => (Attribute.local_readList pool).bind fun _ =>
          local_pure _

/-- A class is local. -/
theorem local_read : Local read.outcome := by
  rw [outcome_read]
  refine (local_bytes 4).bind fun signature => Local.ite ?_ (local_fail _)
  exact local_u16.bind fun _ => local_u16.bind fun _ => ConstantPool.local_read.bind fun pool =>
    local_readBody pool

/-- A class that was read from a buffer is read from a front part of it, whatever follows; and from
less than that nothing is read, because the buffer ends too early. -/
theorem parse_local {bytes : List UInt8} {file : ClassFile}
    (parsed : (parse bytes).result = .ok file) :
    ∃ used ≤ bytes.length,
      (∀ rest, (parse (bytes.take used ++ rest)).result = .ok file) ∧
      ∀ kept < used, EndsAt kept (parse (bytes.take kept)).result := by
  simp only [result_parse] at parsed ⊢
  obtain ⟨⟨_, stop⟩, found, rfl⟩ := Except.map_eq_ok.1 parsed
  obtain ⟨front, passes, reads, ends⟩ := local_read _ _ _ found
  have whole : bytes = front ++ stop.rest := passes.rest
  refine ⟨front.length, by simp [whole], fun rest => ?_, fun kept inside => ?_⟩
  · rw [whole, List.take_left]
    exact Except.map_eq_ok.2 ⟨_, reads rest, rfl⟩
  · rw [whole, List.take_append_of_le_length (Nat.le_of_lt inside)]
    have start : (Cursor.ofBytes bytes).offset + kept = kept := Nat.zero_add kept
    have cut := (ends kept inside).map Prod.fst
    rw [start] at cut
    exact cut

/-- A class with a long constant and a method, and two bytes behind it. -/
def paddedClass : List UInt8 :=
  [0xCA, 0xFE, 0xBA, 0xBE, 0, 0, 0, 52,
    -- the pool: `A` as a text and a class, `f`, `()V`, `Code` and 7
    0, 8, 1, 0, 1, 65, 7, 0, 1, 1, 0, 1, 102, 1, 0, 3, 40, 41, 86, 1, 0, 4, 67, 111, 100, 101,
    5, 0, 0, 0, 0, 0, 0, 0, 7,
    0, 0x21, 0, 2, 0, 0, 0, 0, 0, 0,
    -- the method and its code
    0, 1, 0, 9, 0, 3, 0, 4, 0, 1, 0, 5, 0, 0, 0, 13, 0, 0, 0, 0, 0, 0, 0, 1, 0xB1, 0, 0, 0, 0,
    0, 0, 0xAA, 0xBB]

/-- A class with bytes behind it that are not read, and the same class cut off anywhere before. -/
theorem parse_local_padded :
    ∃ file, (parse paddedClass).result = .ok file ∧ file.name = "A" ∧ file.methods.length = 1 ∧
      ∃ used < paddedClass.length,
        (∀ rest, (parse (paddedClass.take used ++ rest)).result = .ok file) ∧
        ∀ kept < used, EndsAt kept (parse (paddedClass.take kept)).result := by
  have evaluated : ∃ file ∈ (parse paddedClass).result.toOption,
      file.name = "A" ∧ file.methods.length = 1 := by
    decide +kernel
  have shorter : (parse (paddedClass.take (paddedClass.length - 1))).result.toOption.isSome := by
    decide +kernel
  obtain ⟨file, parsed, name, methods⟩ := evaluated
  have parsed := Except.eq_ok_of_mem_toOption parsed
  obtain ⟨used, inside, reads, ends⟩ := parse_local parsed
  refine ⟨file, parsed, name, methods, used, Nat.lt_of_le_of_ne inside ?_, reads, ends⟩
  rintro rfl
  obtain ⟨_, _, failed, -⟩ := ends (paddedClass.length - 1) (by decide)
  rw [failed] at shorter
  cases shorter

end ClassFile

end ClassLowering
