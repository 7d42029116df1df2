import ClassLowering.Proofs.Encoding.Attributes
import ClassLowering.Proofs.Encoding.Motion
import ClassLowering.Proofs.Truncation

/-! # Buffers that are parts of other buffers

An attribute is decoded in a buffer that holds its payload only. Two things outside of such a buffer
could show in what is read from it.

The buffer knows where it starts. `Read.Shifts reader` says that this matters for one thing only: a
failure because the buffer ends too early names a place in the outermost buffer.

The bytes that follow the payload are not in the buffer. `Read.Bounded reader` says what would
change if they were: nothing, unless the reader fails because the buffer ends.

Both hold of every decoder that is registered under a name (`Attribute.decoder?`). -/

namespace ClassLowering

open Bytecode (Instruction Operand Operation)
open Read

variable {α β : Type}

/-! ## Where a buffer starts -/

/-- The same failure in a buffer that starts `more` bytes later. -/
def Error.shift (more : Nat) : Error → Error
  | .format (.unexpectedEnd offset needed) => .format (.unexpectedEnd (offset + more) needed)
  | failure => failure

/-- The same place in a buffer that starts `more` bytes later. -/
def Cursor.shift (more : Nat) (cursor : Cursor) : Cursor :=
  ⟨cursor.rest, cursor.position, cursor.base + more⟩

/-- Where the buffer starts later, so is every place in it. -/
theorem Cursor.offset_shift (more : Nat) (cursor : Cursor) :
    (cursor.shift more).offset = cursor.offset + more :=
  Nat.add_right_comm _ _ _

/-- The same outcome of a reader in a buffer that starts `more` bytes later, with a value that may
itself have to be moved. -/
def shiftStep (more : Nat) (move : α → α) :
    Except Error (α × Cursor) → Except Error (α × Cursor)
  | .ok (value, stop) => .ok (move value, stop.shift more)
  | .error failure => .error (failure.shift more)

/-- The motion to a buffer that starts later. -/
def Motion.shift (more : Nat) : Motion where
  cursor := Cursor.shift more
  failure := Error.shift more
  take_cursor start length := by
    rw [Cursor.take_eq, Cursor.take_eq]
    by_cases enough : length ≤ start.rest.length
    · rw [if_pos enough, if_pos (show length ≤ (start.shift more).rest.length from enough)]
      rfl
    · rw [if_neg enough, if_neg (show ¬length ≤ (start.shift more).rest.length from enough),
        Cursor.offset_shift]
      rfl

/-- Carrying an outcome to a buffer that starts later. -/
theorem Motion.carry_shift (more : Nat) (move : α → α) (found : Except Error (α × Cursor)) :
    (Motion.shift more).carry move found = shiftStep more move found := by
  cases found <;> rfl

/-- A failure, if there is one, names no place in a buffer. -/
def Placeless (found : Except Error α) : Prop :=
  ∀ more, found.mapError (Error.shift more) = found

/-- Two outcomes in a row name no place if neither does. -/
theorem Placeless.bind {found : Except Error α} {next : α → Except Error β}
    (placeless : Placeless found) (placelessNext : ∀ value, Placeless (next value)) :
    Placeless (found >>= next) := by
  intro more
  cases found with
  | error failure => exact congrArg Except.error (Except.error.inj (placeless more))
  | ok value => exact placelessNext value more

namespace Read

/-- Two readers one after the other, each of them moved. -/
theorem bind_shift {reader moved : Read α} {next nextMoved : α → Read β} {move : α → α}
    {moveResult : β → β} {more : Nat} {start : Cursor}
    (first : moved (start.shift more) = shiftStep more move (reader start))
    (second : ∀ value middle, reader start = .ok (value, middle) →
      nextMoved (move value) (middle.shift more) = shiftStep more moveResult (next value middle)) :
    (moved >>= nextMoved) (start.shift more) =
      shiftStep more moveResult ((reader >>= next) start) := by
  rw [← Motion.carry_shift] at first ⊢
  refine (Motion.shift more).carry_bind first fun value middle found => ?_
  rw [Motion.carry_shift]
  exact second value middle found

/-- An outcome that is there already may be told for the other buffer before or after it is
lifted. -/
theorem lift_shift {found moved : Except Error α} {more : Nat} (start : Cursor)
    (same : moved = found.mapError (Error.shift more)) :
    (liftM moved : Read α) (start.shift more) =
      shiftStep more id ((liftM found : Read α) start) := by
  subst same
  cases found <;> rfl

/-- A part of a buffer is moved with it. -/
theorem sub_shift (length more : Nat) (start : Cursor) :
    sub length (start.shift more) = shiftStep more (Cursor.shift more) (sub length start) := by
  have apply_sub (start : Cursor) :
      sub length start = (bytes length >>= fun taken => pure ⟨taken, 0, start.offset⟩) start := rfl
  have taken : bytes length (start.shift more) = shiftStep more id (bytes length start) := by
    rw [← Motion.carry_shift]
    exact (Motion.shift more).take_cursor start length
  rw [apply_sub, apply_sub, Cursor.offset_shift]
  exact bind_shift taken fun value middle _ => rfl

/-- It does not matter to the reader where the buffer starts, except for the place that it names
when the buffer ends too early. -/
def Shifts (reader : Read α) : Prop :=
  ∀ more start, reader (start.shift more) = shiftStep more id (reader start)

/-- What is the same everywhere is the same in a buffer that starts later. -/
theorem Uniform.shifts {reader : Read α} (uniform : Uniform reader) : Shifts reader := by
  intro more start
  rw [← Motion.carry_shift]
  exact uniform (.shift more) start

/-- What reads nothing shifts. -/
theorem shifts_pure (value : α) : Shifts (pure value : Read α) := (uniform_pure value).shifts

/-- An outcome that names no place shifts. -/
theorem shifts_lift {found : Except Error α} (placeless : Placeless found) :
    Shifts (liftM found : Read α) :=
  fun more start => lift_shift start (placeless more).symm

/-- Readers in a row shift if each does. -/
theorem Shifts.bind {reader : Read α} {next : α → Read β} (first : Shifts reader)
    (second : ∀ value, Shifts (next value)) : Shifts (reader >>= next) :=
  fun more start => bind_shift (first more start) fun value middle _ => second value more middle

/-- A repeated reader shifts if it does once. -/
theorem Shifts.times {reader : Read α} (shifts : Shifts reader) (count : Nat) :
    Shifts (times count reader) := by
  induction count with
  | zero => exact shifts_pure _
  | succ count induction => exact shifts.bind fun _ => induction.bind fun _ => shifts_pure _

/-- Unsigned 16-bit integers shift. -/
theorem shifts_u16 : Shifts u16 := uniform_u16.shifts

/-- Unsigned 32-bit integers shift. -/
theorem shifts_u32 : Shifts u32 := uniform_u32.shifts

end Read

/-! ### Instructions name places in their own code array -/

namespace Bytecode.Instruction

/-- An instruction has its offset in the code array, so it is read the same wherever the array
starts. -/
theorem shifts_read : Shifts read := by
  intro more start
  have same : (start.shift more).position.toUInt32 = start.position.toUInt32 := rfl
  rw [← Motion.carry_shift, read_eq_readFrom, read_eq_readFrom, same]
  refine (readFrom_carry (.shift more) (fun _ => rfl) rfl start).trans ?_
  cases found : readFrom start.position.toUInt32 start with
  | error failure => rfl
  | ok step =>
    obtain ⟨instruction, stop⟩ := step
    rw [Motion.carry_ok, Motion.carry_ok, ← offset_of_readFrom found, id]

/-- A code array is read the same wherever it starts, up to the places of failures. -/
theorem readAll_shift (more : Nat) (cursor : Cursor) :
    readAll (cursor.shift more) = (readAll cursor).mapError (Error.shift more) := by
  have carried (start : Cursor) :
      read ((Motion.shift more).cursor start) = (Motion.shift more).carry id (read start) := by
    rw [Motion.carry_shift]
    exact shifts_read more start
  refine (readAll_carry (.shift more) (fun _ => rfl) carried cursor).trans ?_
  cases readAll cursor with
  | error failure => rfl
  | ok instructions => exact congrArg Except.ok (List.map_id instructions)

end Bytecode.Instruction

/-! ### The constant pool knows no places in a buffer -/

namespace ConstantPool

variable (pool : ConstantPool) (index : UInt16)

/-- Looking constants up names no place. -/
theorem placeless_required : Placeless (pool.required index) := by
  intro more
  unfold required lookupIndex
  split
  · rfl
  · split <;> rfl

/-- Looking texts up names no place. -/
theorem placeless_utf8 : Placeless (pool.utf8 index) :=
  (pool.placeless_required index).bind fun constant => by cases constant <;> exact fun _ => rfl

/-- Looking class names up names no place. -/
theorem placeless_className : Placeless (pool.className index) := by
  refine (pool.placeless_required index).bind fun constant => ?_
  cases constant with
  | classRef name => exact pool.placeless_utf8 name
  | _ => exact fun _ => rfl

/-- Looking class names up that may be missing names no place. -/
theorem placeless_className? : Placeless (pool.className? index) := by
  unfold className?
  split
  · exact fun _ => rfl
  · rw [← bind_pure_comp]
    exact (pool.placeless_className index).bind fun name => fun _ => rfl

end ConstantPool

/-! ### Attributes -/

namespace Attribute

variable (pool : ConstantPool)

/-- The row of a variable shifts. -/
theorem shifts_readLocalVariable : Shifts (readLocalVariable pool) :=
  shifts_u16.bind fun _ => shifts_u16.bind fun _ => shifts_u16.bind fun _ =>
    (shifts_lift (pool.placeless_utf8 _)).bind fun _ => shifts_u16.bind fun _ =>
      (shifts_lift (pool.placeless_utf8 _)).bind fun _ => shifts_u16.bind fun _ => shifts_pure _

/-- The row of a handler shifts. -/
theorem shifts_readExceptionHandler : Shifts (readExceptionHandler pool) :=
  shifts_u16.bind fun _ => shifts_u16.bind fun _ => shifts_u16.bind fun _ =>
    shifts_u16.bind fun _ => (shifts_lift (pool.placeless_className? _)).bind fun _ => shifts_pure _

/-- The code array is moved with the payload that it is a part of. -/
theorem shifts_readCodeFrame : Shifts (readCodeFrame pool) := by
  refine shifts_u16.bind fun maxStack => shifts_u16.bind fun maxLocals =>
    shifts_u32.bind fun codeLength => ?_
  intro more start
  refine bind_shift (sub_shift _ more start) fun code middle _ =>
    bind_shift (lift_shift middle (Instruction.readAll_shift more code))
      fun instructions stop _ => ?_
  exact (shifts_u16.bind fun handlers => ((shifts_readExceptionHandler pool).times _).bind fun _ =>
    shifts_u16.bind fun _ => shifts_pure _) more stop

/-- A payload is moved with the buffer that it is a part of. -/
theorem readHeader_shift (more : Nat) (start : Cursor) :
    readHeader pool (start.shift more) =
      shiftStep more (Prod.map id (Cursor.shift more)) (readHeader pool start) :=
  bind_shift (shifts_u16 more start) fun index afterIndex _ =>
    bind_shift (lift_shift afterIndex (pool.placeless_utf8 index more).symm) fun _ afterName _ =>
      bind_shift (shifts_u32 more afterName) fun _ afterLength _ =>
        bind_shift (sub_shift _ more afterLength) fun _ _ _ => rfl

/-! ## The decoders -/

/-- Reads an index and makes an attribute of what is there. -/
def readIndexed (look : UInt16 → Except Error α) (make : α → Attribute) : Read Attribute := do
  let index ← u16
  let found ← look index
  return make found

/-- Reads a table of local variables. -/
def readLocalVariableTable : Read Attribute := do
  let count ← u16
  let rows ← times count.toNat (readLocalVariable pool)
  return localVariableTable rows

/-- Reads the code of a method with its attributes. -/
def readCode : Read Attribute := do
  let (frame, inner) ← readCodeFrame pool
  let attributes ← LoggedRead.outcome (readMany pool inner.toNat)
  return code frame attributes

/-- The decoder that is registered under a name. -/
def decoder? (name : String) : Option (Read Attribute) :=
  match name with
  | "Code" => some (readCode pool)
  | "LocalVariableTable" => some (readLocalVariableTable pool)
  | "NestHost" => some (readIndexed pool.className nestHost)
  | "ConstantValue" => some (readIndexed pool.required constantValue)
  | "SourceFile" => some (readIndexed pool.utf8 sourceFile)
  | _ => none

/-- Exactly the names that are known have a decoder. -/
theorem decoder?_eq_none_iff {name : String} :
    decoder? pool name = none ↔ name ∉ StoredAttribute.knownNames := by
  unfold decoder?
  split
  all_goals simp_all [StoredAttribute.knownNames]

/-- An attribute that is one index is decoded by reading the index and looking it up. -/
theorem decode_eq_readIndexed {look : UInt16 → Except Error α} {make : α → Attribute}
    {name : String} (other : name ≠ "Code")
    (plain : ∀ payload, readPlain pool name payload = (do
      let (index, _) ← u16.run payload
      return make (← look index))) (payload : Cursor) :
    decode pool name payload = Prod.fst <$> readIndexed look make payload := by
  rw [decode, if_neg other, plain, Logged.result_bind, readIndexed, bind_apply]
  change (u16 payload >>= fun step => (liftM (look step.1) >>= fun found =>
    pure (make found) : Logged Error Attribute).result) = _
  cases u16 payload with
  | error failure => rfl
  | ok step =>
    change (liftM (look step.1) >>= fun found =>
      pure (make found) : Logged Error Attribute).result =
        Prod.fst <$> ((liftM (look step.1) : Read α) >>= fun found => pure (make found)) step.2
    rw [lift_bind_apply]
    cases look step.1 <;> rfl

/-- A table of variables is decoded by reading its rows. -/
theorem decode_eq_readLocalVariableTable (payload : Cursor) :
    decode pool "LocalVariableTable" payload =
      Prod.fst <$> readLocalVariableTable pool payload := by
  have whole : readLocalVariableTable pool = (do
      let count ← u16
      times count.toNat (readLocalVariable pool)) >>= fun rows => pure (localVariableTable rows) :=
    (bind_assoc _ _ _).symm
  rw [decode, if_neg (by decide), whole, bind_apply]
  change (liftM ((do let count ← u16; times count.toNat (readLocalVariable pool) :
    Read (List LocalVariable)) payload) >>= fun step =>
      pure (localVariableTable step.1) : Logged Error Attribute).result = _
  cases (do let count ← u16; times count.toNat (readLocalVariable pool) :
    Read (List LocalVariable)) payload <;> rfl

/-- Code is decoded by reading its front part and the attributes behind it. -/
theorem decode_eq_readCode (payload : Cursor) :
    decode pool "Code" payload = Prod.fst <$> readCode pool payload := by
  rw [decode, if_pos rfl, readCode, bind_apply]
  cases readCodeFrame pool payload with
  | error failure => rfl
  | ok step =>
    obtain ⟨⟨frame, inner⟩, nested⟩ := step
    change (readMany pool inner.toNat nested).result >>= (fun read => pure (code frame read.1)) =
      Prod.fst <$> (LoggedRead.outcome (readMany pool inner.toNat) >>= fun attributes =>
        pure (code frame attributes)) nested
    rw [bind_apply]
    unfold LoggedRead.outcome
    cases (readMany pool inner.toNat nested).result <;> rfl

/-- An attribute is what the decoder under its name gives for its payload, or the payload. -/
theorem decode_eq (name : String) (payload : Cursor) :
    decode pool name payload =
      match decoder? pool name with
      | some decoder => Prod.fst <$> decoder payload
      | none => .ok (.raw name payload.rest) := by
  by_cases known : name ∈ StoredAttribute.knownNames
  · simp only [StoredAttribute.knownNames, List.mem_cons, List.not_mem_nil, or_false] at known
    obtain rfl | rfl | rfl | rfl | rfl := known
    · exact decode_eq_readCode pool payload
    · exact decode_eq_readLocalVariableTable pool payload
    · exact decode_eq_readIndexed pool (by decide) (fun _ => rfl) payload
    · exact decode_eq_readIndexed pool (by decide) (fun _ => rfl) payload
    · exact decode_eq_readIndexed pool (by decide) (fun _ => rfl) payload
  · rw [(decoder?_eq_none_iff pool).2 known]
    exact StoredAttribute.decode_raw known payload

/-! ### Where the payload starts -/

/-- An attribute that is one index shifts if looking it up names no place. -/
theorem shifts_readIndexed {look : UInt16 → Except Error α}
    (placeless : ∀ index, Placeless (look index)) (make : α → Attribute) :
    Shifts (readIndexed look make) :=
  shifts_u16.bind fun _ => (shifts_lift (placeless _)).bind fun _ => shifts_pure _

/-- A decoder other than that for code is the same wherever the payload starts. -/
theorem shifts_of_decoder? {name : String} {decoder : Read Attribute}
    (registered : decoder? pool name = some decoder) (other : name ≠ "Code") : Shifts decoder := by
  unfold decoder? at registered
  split at registered
  · exact absurd rfl other
  · cases registered
    exact shifts_u16.bind fun _ => ((shifts_readLocalVariable pool).times _).bind fun _ =>
      shifts_pure _
  · cases registered
    exact shifts_readIndexed pool.placeless_className nestHost
  · cases registered
    exact shifts_readIndexed pool.placeless_required constantValue
  · cases registered
    exact shifts_readIndexed pool.placeless_utf8 sourceFile
  · cases registered

/-- The attributes of a code attribute lie in its payload, so that they are fewer bytes. -/
theorem decode_shift_of {more : Nat} {payload : Cursor}
    (nested : ∀ count start, start.rest.length ≤ payload.rest.length →
      LoggedRead.outcome (readMany pool count) (start.shift more) =
        shiftStep more id (LoggedRead.outcome (readMany pool count) start)) (name : String) :
    decode pool name (payload.shift more) =
      (decode pool name payload).mapError (Error.shift more) := by
  rw [decode_eq, decode_eq]
  cases registered : decoder? pool name with
  | none => rfl
  | some decoder =>
    have moved : decoder (payload.shift more) = shiftStep more id (decoder payload) := by
      -- only code has attributes inside, and they take no more bytes than its payload
      by_cases isCode : name = "Code"
      · subst isCode
        cases registered
        refine bind_shift (shifts_readCodeFrame pool more payload)
          fun ⟨frame, inner⟩ start found => ?_
        have := consumes_readCodeFrame pool payload (frame, inner) start found
        exact bind_shift (nested inner.toNat start (by omega)) fun _ _ _ => rfl
      · exact shifts_of_decoder? pool registered isCode more payload
    change Prod.fst <$> decoder (payload.shift more) = (Prod.fst <$> decoder payload).mapError _
    rw [moved]
    cases decoder payload <;> rfl

/-- A list of attributes shifts. -/
theorem shifts_readMany (count : Nat) : Shifts (LoggedRead.outcome (readMany pool count)) := by
  intro more start
  -- a payload and what follows it are both shorter than what is ahead of them
  induction ahead : start.rest.length using Nat.strongRecOn generalizing count start with
  | _ ahead induction =>
    subst ahead
    cases count with
    | zero =>
      rw [outcome_readMany_zero]
      rfl
    | succ count =>
      rw [outcome_readMany_succ]
      refine bind_shift (readHeader_shift pool more start) fun ⟨name, payload⟩ next header => ?_
      obtain ⟨inside, behind⟩ := readHeader_length_lt pool header
      have decoded : decode pool name (payload.shift more) =
          (decode pool name payload).mapError _ :=
        decode_shift_of pool (fun count start _ => induction _ (by omega) count start rfl) name
      refine bind_shift (lift_shift next decoded) fun first middle found => ?_
      obtain ⟨-, rfl⟩ := lift_eq_ok.1 found
      exact bind_shift (induction _ behind count next rfl) fun _ _ _ => rfl

/-- It does not matter where a payload starts, except for the place that a failure names. -/
theorem decode_shift (name : String) (more : Nat) (payload : Cursor) :
    decode pool name (payload.shift more) =
      (decode pool name payload).mapError (Error.shift more) :=
  decode_shift_of pool (fun count start _ => shifts_readMany pool count more start) name

end Attribute

/-! ## What follows a buffer -/

namespace Cursor

/-- The same place in a buffer with more bytes behind. -/
def extend (more : List UInt8) (cursor : Cursor) : Cursor :=
  ⟨cursor.rest ++ more, cursor.position, cursor.base⟩

/-- Where the buffer ends in the outermost buffer. -/
def limit (cursor : Cursor) : Nat := cursor.offset + cursor.rest.length

/-- Passing over bytes moves the cursor by as many. -/
theorem Passes.offset {start stop : Cursor} {bytes : List UInt8}
    (passes : start.Passes bytes stop) :
    stop.offset = start.offset + bytes.length := by
  rw [Cursor.offset, Cursor.offset, passes.position, passes.base, Nat.add_assoc]

/-- Passing over bytes leaves the end of the buffer where it is. -/
theorem Passes.limit {start stop : Cursor} {bytes : List UInt8} (passes : start.Passes bytes stop) :
    stop.limit = start.limit := by
  rw [Cursor.limit, Cursor.limit, passes.offset, passes.rest, List.length_append, Nat.add_assoc]

end Cursor

namespace Read

/-- Bytes behind a buffer make no difference to a reader, unless it fails because the buffer
ends. -/
structure Bounded (reader : Read α) : Prop where
  isLocal : Local reader
  settled : ∀ start failure, reader start = .error failure →
    EndsAt start.limit (reader start) ∨ ∀ more, reader (start.extend more) = .error failure

/-- What a local reader reads, it reads with more bytes behind the buffer, too. -/
theorem Local.extend {reader : Read α} (isLocal : Local reader) {start stop : Cursor} {value : α}
    (found : reader start = .ok (value, stop)) (more : List UInt8) :
    reader (start.extend more) = .ok (value, stop.extend more) := by
  obtain ⟨bytes, passes, reads, -⟩ := isLocal start value stop found
  rw [Cursor.extend, Cursor.extend, passes.rest, passes.position, passes.base, List.append_assoc]
  exact reads (stop.rest ++ more)

/-- A local reader leaves the end of the buffer where it is. -/
theorem Local.limit {reader : Read α} (isLocal : Local reader) {start stop : Cursor} {value : α}
    (found : reader start = .ok (value, stop)) : stop.limit = start.limit := by
  obtain ⟨bytes, passes, -⟩ := isLocal start value stop found
  exact passes.limit

/-- What reads nothing is bounded. -/
theorem bounded_pure (value : α) : Bounded (pure value : Read α) where
  isLocal := local_pure value
  settled start failure failed := by cases failed

/-- An outcome that is there already is bounded. -/
theorem bounded_lift (found : Except Error α) : Bounded (liftM found : Read α) where
  isLocal := local_lift found
  settled start failure failed := by
    cases found with
    | error cause =>
      cases failed
      exact .inr fun more => rfl
    | ok value => cases failed

/-- Bytes are there or the buffer ends. -/
theorem bounded_bytes (length : Nat) : Bounded (bytes length) where
  isLocal := local_bytes length
  settled start failure failed := by
    unfold bytes at failed ⊢
    rw [Cursor.take_eq] at failed ⊢
    by_cases enough : length ≤ start.rest.length
    · rw [if_pos enough] at failed
      cases failed
    · rw [if_neg enough]
      exact .inl ⟨start.offset, length, rfl, Nat.le_add_right _ _, by unfold Cursor.limit; omega⟩

/-- Readers in a row are bounded if each is. -/
theorem Bounded.bind {reader : Read α} {next : α → Read β} (first : Bounded reader)
    (second : ∀ value, Bounded (next value)) : Bounded (reader >>= next) where
  isLocal := first.isLocal.bind fun value => (second value).isLocal
  settled start failure failed := by
    rw [bind_apply] at failed ⊢
    cases found : reader start with
    | error cause =>
      rw [found] at failed
      cases failed
      -- the first reader fails, before the second one has read anything
      refine (first.settled start failure found).imp (fun ends => ?_) fun same more => ?_
      · rw [found] at ends
        exact ends.bind _
      · rw [bind_apply, same more]
        rfl
    | ok step =>
      obtain ⟨value, middle⟩ := step
      rw [found] at failed
      -- the second reader fails, in a buffer that still ends where it did
      refine ((second value).settled middle failure failed).imp (fun ends => ?_) fun same more => ?_
      · rw [first.isLocal.limit found] at ends
        exact ends
      · rw [bind_apply, first.isLocal.extend found more]
        exact same more

/-- What is made of the result does not matter for being bounded. -/
theorem Bounded.map {reader : Read α} (bounded : Bounded reader) (f : α → β) :
    Bounded (f <$> reader) := by
  rw [← bind_pure_comp]
  exact bounded.bind fun value => bounded_pure (f value)

/-- A repeated reader is bounded if it is once. -/
theorem Bounded.times {reader : Read α} (bounded : Bounded reader) (count : Nat) :
    Bounded (times count reader) := by
  induction count with
  | zero => exact bounded_pure _
  | succ count induction => exact bounded.bind fun _ => induction.bind fun _ => bounded_pure _

/-- Unsigned 16-bit integers are bounded. -/
theorem bounded_u16 : Bounded u16 := ((bounded_bytes 2).map _).map _

/-- Unsigned 32-bit integers are bounded. -/
theorem bounded_u32 : Bounded u32 := ((bounded_bytes 4).map _).map _

/-- Splitting bytes off is bounded; what is in them is not asked. -/
theorem bounded_sub (length : Nat) : Bounded (sub length) where
  isLocal := local_sub length
  settled start failure failed :=
    ((bounded_bytes length).map fun taken => (⟨taken, 0, start.offset⟩ : Cursor)).settled
      start failure failed

/-- A reader does the same in a longer buffer, or it fails because the shorter one ends. -/
theorem Bounded.endsAt {reader : Read α} (bounded : Bounded reader) {start : Cursor}
    {more : List UInt8}
    (differs : Prod.fst <$> reader (start.extend more) ≠ Prod.fst <$> reader start) :
    EndsAt start.limit (reader start) := by
  cases found : reader start with
  | ok step =>
    rw [bounded.isLocal.extend found more, found] at differs
    exact absurd rfl differs
  | error failure =>
    rcases bounded.settled start failure found with ends | same
    · rw [found] at ends
      exact ends
    · rw [same more, found] at differs
      exact absurd rfl differs

end Read

namespace Attribute

variable (pool : ConstantPool)

/-- The row of a variable is bounded. -/
theorem bounded_readLocalVariable : Bounded (readLocalVariable pool) :=
  bounded_u16.bind fun _ => bounded_u16.bind fun _ => bounded_u16.bind fun _ =>
    (bounded_lift _).bind fun _ => bounded_u16.bind fun _ => (bounded_lift _).bind fun _ =>
      bounded_u16.bind fun _ => bounded_pure _

/-- The row of a handler is bounded. -/
theorem bounded_readExceptionHandler : Bounded (readExceptionHandler pool) :=
  bounded_u16.bind fun _ => bounded_u16.bind fun _ => bounded_u16.bind fun _ =>
    bounded_u16.bind fun _ => (bounded_lift _).bind fun _ => bounded_pure _

/-- The front part of code is bounded, since its code array is split off before it is read. -/
theorem bounded_readCodeFrame : Bounded (readCodeFrame pool) :=
  bounded_u16.bind fun _ => bounded_u16.bind fun _ => bounded_u32.bind fun _ =>
    (bounded_sub _).bind fun _ => (bounded_lift _).bind fun _ => bounded_u16.bind fun _ =>
      ((bounded_readExceptionHandler pool).times _).bind fun _ => bounded_u16.bind fun _ =>
        bounded_pure _

/-- The header of an attribute is bounded. -/
theorem bounded_readHeader : Bounded (readHeader pool) :=
  bounded_u16.bind fun _ => (bounded_lift _).bind fun _ => bounded_u32.bind fun _ =>
    (bounded_sub _).bind fun _ => bounded_pure _

/-- A list of attributes is bounded, since payloads are split off before they are decoded. -/
theorem bounded_readMany (count : Nat) : Bounded (LoggedRead.outcome (readMany pool count)) := by
  induction count with
  | zero =>
    rw [outcome_readMany_zero]
    exact bounded_pure _
  | succ count induction =>
    rw [outcome_readMany_succ]
    exact (bounded_readHeader pool).bind fun _ => (bounded_lift _).bind fun _ =>
      induction.bind fun _ => bounded_pure _

/-- All decoders are bounded. -/
theorem bounded_of_decoder? {name : String} {decoder : Read Attribute}
    (registered : decoder? pool name = some decoder) : Bounded decoder := by
  have indexed {α : Type} (look : UInt16 → Except Error α) (make : α → Attribute) :
      Bounded (readIndexed look make) :=
    bounded_u16.bind fun _ => (bounded_lift _).bind fun _ => bounded_pure _
  unfold decoder? at registered
  split at registered
  · cases registered
    exact (bounded_readCodeFrame pool).bind fun _ => (bounded_readMany pool _).bind fun _ =>
      bounded_pure _
  · cases registered
    exact bounded_u16.bind fun _ => ((bounded_readLocalVariable pool).times _).bind fun _ =>
      bounded_pure _
  · cases registered
    exact indexed _ _
  · cases registered
    exact indexed _ _
  · cases registered
    exact indexed _ _
  · cases registered

end Attribute

end ClassLowering
