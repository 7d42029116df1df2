import ClassLowering.Proofs.ConstantPool.Kinds

/-! # The pools that are accepted

Stored constants are well formed behind a count (`StoredConstant.WellFormed`) if they have exactly
the indices below it and all their references hold. Whatever is read as a constant is the encoding
of a stored one (`StoredConstant.exists_of_read`), and so, one after the other, are all constants of
a pool (`StoredConstant.recognizes_readAll`). A pool is read where the bytes of well-formed
constants are, and nowhere else (`ConstantPool.read_exact`). -/

namespace ClassLowering

open Read
open RawConstant (plain)

namespace StoredConstant

/-! ## One constant -/

/-- A text constant is read where its length and its text are. -/
theorem recognizes_readUtf8 (index : Nat) :
    Recognizes (fun constant bytes => ∃ text : EncodedText, text.bytes.length < 2 ^ 16 ∧
      .utf8 text.text = constant ∧ bytes = encode16 text.bytes.length.toUInt16 ++ text.bytes)
      (RawConstant.readUtf8 index) := by
  intro start constant stop
  constructor
  · intro read
    obtain ⟨length, middle, readLength, readText⟩ := bind_eq_ok.1 read
    obtain ⟨_, last, readBytes, decoded⟩ := bind_eq_ok.1 readText
    obtain ⟨_, rfl, passesLength⟩ := (recognizes_u16 _ _ _).1 readLength
    obtain ⟨bytes, ⟨whole, rfl⟩, passesBytes⟩ := (recognizes_bytes _ _ _ _).1 readBytes
    -- the length that was read is that of the bytes, so it is the one to write
    have sameLength : bytes.length.toUInt16 = length := by
      rw [whole, Nat.toUInt16_eq, UInt16.ofNat_toNat]
    cases decodes : ModifiedUtf8.decodeString bytes with
    | none =>
      rw [decodes] at decoded
      cases decoded
    | some text =>
      rw [decodes] at decoded
      cases decoded
      refine ⟨_, ⟨⟨bytes, text, decodes⟩, whole ▸ length.toNat_lt, rfl, rfl⟩, ?_⟩
      rw [sameLength]
      exact passesLength.trans passesBytes
  · rintro ⟨_, ⟨text, small, rfl, rfl⟩, passes⟩
    exact reads_readUtf8 index text small start stop passes

/-- A constant of two indices is read where both are. -/
theorem recognizes_readPair (make : UInt16 → UInt16 → Constant) :
    Recognizes (fun constant bytes => ∃ first second, make first second = constant ∧
      bytes = encode16 first ++ encode16 second) (RawConstant.readPair make) := by
  intro start constant stop
  constructor
  · intro read
    obtain ⟨first, middle, readFirst, readSecond⟩ := bind_eq_ok.1 read
    obtain ⟨second, last, readSecond, made⟩ := bind_eq_ok.1 readSecond
    obtain ⟨_, rfl, passesFirst⟩ := (recognizes_u16 _ _ _).1 readFirst
    obtain ⟨_, rfl, passesSecond⟩ := (recognizes_u16 _ _ _).1 readSecond
    cases made
    exact ⟨_, ⟨first, second, rfl, rfl⟩, passesFirst.trans passesSecond⟩
  · rintro ⟨_, ⟨first, second, rfl, rfl⟩, passes⟩
    exact reads_readPair make first second start stop passes

/-- A method handle is read where its kind and its reference are. -/
theorem recognizes_readMethodHandle :
    Recognizes (fun constant bytes => ∃ kind reference, .methodHandle kind reference = constant ∧
      bytes = kind :: encode16 reference) RawConstant.readMethodHandle := by
  intro start constant stop
  constructor
  · intro read
    obtain ⟨kind, middle, readKind, readReference⟩ := bind_eq_ok.1 read
    obtain ⟨reference, last, readReference, made⟩ := bind_eq_ok.1 readReference
    obtain ⟨_, rfl, passesKind⟩ := (recognizes_u8 _ _ _).1 readKind
    obtain ⟨_, rfl, passesReference⟩ := (recognizes_u16 _ _ _).1 readReference
    cases made
    exact ⟨_, ⟨kind, reference, rfl, rfl⟩, passesKind.trans passesReference⟩
  · rintro ⟨_, ⟨kind, reference, rfl, rfl⟩, passes⟩
    exact reads_readMethodHandle kind reference start stop passes

/-- What the reader gives is stored behind the tag. -/
def Stores (tag : Nat) (reader : Read RawConstant) : Prop :=
  ∀ start entry stop, reader start = .ok (entry, stop) →
    ∃ constant : StoredConstant, constant.Fits ∧ constant.raw = entry ∧ constant.tag.toNat = tag ∧
      start.Passes constant.payload stop

variable {α : Type} {tag : Nat}

/-- A reader of values stores the constants that are made of them. -/
theorem Stores.of_map {format : α → List UInt8 → Prop} {reader : Read α} {make : α → RawConstant}
    (recognizes : Recognizes format reader)
    (stored : ∀ value bytes, format value bytes → ∃ constant : StoredConstant, constant.Fits ∧
      constant.raw = make value ∧ constant.tag.toNat = tag ∧ constant.payload = bytes) :
    Stores tag (make <$> reader) := by
  intro start entry stop read
  obtain ⟨value, given, rfl⟩ := map_eq_ok.1 read
  obtain ⟨bytes, written, passes⟩ := (recognizes start value stop).1 given
  obtain ⟨constant, fits, same, tagged, rfl⟩ := stored value bytes written
  exact ⟨constant, fits, same, tagged, passes⟩

/-- A constant that consists of one index. -/
theorem stores_index {make : UInt16 → RawConstant} (store : UInt16 → StoredConstant)
    (stored : ∀ index, (store index).Fits ∧ (store index).raw = make index ∧
      (store index).tag.toNat = tag ∧ (store index).payload = encode16 index) :
    Stores tag (make <$> u16) := by
  refine .of_map recognizes_u16 ?_
  rintro index _ rfl
  exact ⟨store index, stored index⟩

/-- A constant that consists of two indices. -/
theorem stores_pair {make : UInt16 → UInt16 → Constant} (store : UInt16 → UInt16 → StoredConstant)
    (stored : ∀ first second, (store first second).Fits ∧
      (store first second).raw = plain (make first second) ∧ (store first second).tag.toNat = tag ∧
      (store first second).payload = encode16 first ++ encode16 second) :
    Stores tag (plain <$> RawConstant.readPair make) := by
  refine .of_map (recognizes_readPair make) ?_
  rintro _ _ ⟨first, second, rfl, rfl⟩
  exact ⟨store first second, stored first second⟩

/-- What is read for an index is a stored constant. -/
theorem exists_of_read {index : Nat} {start stop : Cursor} {entry : RawConstant}
    (read : RawConstant.read index start = .ok (entry, stop)) :
    ∃ constant : StoredConstant, constant.Fits ∧ constant.raw = entry ∧
      start.Passes constant.encode stop := by
  obtain ⟨tag, middle, readTag, readPayload⟩ := bind_eq_ok.1 read
  obtain ⟨_, rfl, passesTag⟩ := (recognizes_u8 _ _ _).1 readTag
  revert readPayload
  suffices stores : Stores tag.toNat _ from fun readPayload => by
    obtain ⟨constant, fits, same, tagged, passesPayload⟩ := stores _ _ _ readPayload
    cases UInt8.toNat_inj.1 tagged
    exact ⟨constant, fits, same, passesTag.trans passesPayload⟩
  -- one case for each tag, in the order of the reader; the last one refuses all others
  generalize tag.toNat = code
  split
  · refine .of_map (recognizes_readUtf8 index) ?_
    rintro _ _ ⟨text, small, rfl, rfl⟩
    exact ⟨.utf8 text, small, rfl, rfl, rfl⟩
  · refine .of_map (recognizes_u32.map UInt32.toInt32) ?_
    rintro _ _ ⟨number, rfl, rfl⟩
    exact ⟨.integer number.toInt32, trivial, rfl, rfl, rfl⟩
  · refine .of_map recognizes_u32 ?_
    rintro bits _ rfl
    exact ⟨.float bits, trivial, rfl, rfl, rfl⟩
  · refine .of_map (recognizes_u64.map UInt64.toInt64) ?_
    rintro _ _ ⟨number, rfl, rfl⟩
    exact ⟨.long number.toInt64, trivial, rfl, rfl, rfl⟩
  · refine .of_map recognizes_u64 ?_
    rintro bits _ rfl
    exact ⟨.double bits, trivial, rfl, rfl, rfl⟩
  · exact stores_index .classRef fun _ => ⟨trivial, rfl, rfl, rfl⟩
  · exact stores_index .string fun _ => ⟨trivial, rfl, rfl, rfl⟩
  · exact stores_pair .fieldRef fun _ _ => ⟨trivial, rfl, rfl, rfl⟩
  · exact stores_pair .methodRef fun _ _ => ⟨trivial, rfl, rfl, rfl⟩
  · exact stores_pair .interfaceMethodRef fun _ _ => ⟨trivial, rfl, rfl, rfl⟩
  · exact stores_pair .nameAndType fun _ _ => ⟨trivial, rfl, rfl, rfl⟩
  · refine .of_map recognizes_readMethodHandle ?_
    rintro _ _ ⟨kind, reference, rfl, rfl⟩
    exact ⟨.methodHandle kind reference, trivial, rfl, rfl, rfl⟩
  · exact stores_index .methodType fun _ => ⟨trivial, rfl, rfl, rfl⟩
  · exact stores_pair .dynamic fun _ _ => ⟨trivial, rfl, rfl, rfl⟩
  · exact stores_pair .invokeDynamic fun _ _ => ⟨trivial, rfl, rfl, rfl⟩
  · exact stores_index .moduleRef fun _ => ⟨trivial, rfl, rfl, rfl⟩
  · exact stores_index .packageRef fun _ => ⟨trivial, rfl, rfl, rfl⟩
  · exact nofun

/-! ## All constants -/

/-- The constants can be written and have exactly the indices from `index` to below `count`, of
which there may be none. -/
structure Fills (count index : Nat) (constants : List StoredConstant) : Prop where
  texts : ∀ constant ∈ constants, constant.Fits
  size : index + (table constants).length = max count index

instance (count index : Nat) (constants : List StoredConstant) :
    Decidable (Fills count index constants) :=
  decidable_of_iff ((∀ constant ∈ constants, constant.Fits) ∧
      index + (table constants).length = max count index)
    ⟨fun ⟨texts, size⟩ => ⟨texts, size⟩, fun ⟨texts, size⟩ => ⟨texts, size⟩⟩

section

variable {count index : Nat} {constant : StoredConstant} {constants : List StoredConstant}

/-- The entries of a constant come before those of the constants behind it. -/
theorem table_cons : table (constant :: constants) = constant.entries ++ table constants :=
  List.flatMap_cons

/-- A constant in front of others takes the indices that its entries need. -/
theorem Fills.cons (inside : index + constant.entries.length ≤ count) (fits : constant.Fits)
    (fills : Fills count (index + constant.entries.length) constants) :
    Fills count index (constant :: constants) where
  texts := List.forall_mem_cons.2 ⟨fits, fills.texts⟩
  size := by
    have others := fills.size
    rw [table_cons, List.length_append]
    omega

end

/-- Entries that are read for the indices below a count are those of stored constants that fill
these indices. -/
theorem exists_of_readAll {count index : Nat} {start stop : Cursor} {entries : List RawConstant}
    (read : RawConstant.readAll count index start = .ok (entries, stop)) :
    ∃ constants, Fills count index constants ∧ (table constants).map raw = entries ∧
      start.Passes (constants.flatMap encode) stop := by
  fun_induction RawConstant.readAll count index generalizing start entries with
  | case1 index inside inductionWide induction =>
    obtain ⟨entry, middle, readFirst, readOthers⟩ := bind_eq_ok.1 read
    obtain ⟨constant, fits, rfl, passesFirst⟩ := exists_of_read readFirst
    by_cases wide : constant.raw.isWide
    · rw [if_pos wide] at readOthers
      -- a constant with two indices needs the next one, too
      by_cases room : index + 1 < count
      · rw [if_pos room] at readOthers
        obtain ⟨others, last, readOthers, made⟩ := bind_eq_ok.1 readOthers
        cases made
        obtain ⟨constants, fills, rfl, passesOthers⟩ := inductionWide room readOthers
        have twice := entries_of_isWide wide
        refine ⟨constant :: constants, .cons ?_ fits ?_, ?_, passesFirst.trans passesOthers⟩
        · rw [twice]
          exact room
        · rw [twice]
          exact fills
        · rw [table_cons, twice]
          rfl
      · rw [if_neg room] at readOthers
        cases readOthers
    · rw [if_neg wide] at readOthers
      obtain ⟨others, last, readOthers, made⟩ := bind_eq_ok.1 readOthers
      cases made
      obtain ⟨constants, fills, rfl, passesOthers⟩ := induction readOthers
      have once := entries_of_not_isWide wide
      refine ⟨constant :: constants, .cons ?_ fits ?_, ?_, passesFirst.trans passesOthers⟩
      · rw [once]
        exact inside
      · rw [once]
        exact fills
      · rw [table_cons, once]
        rfl
  | case2 index outside =>
    cases read
    refine ⟨[], ⟨nofun, ?_⟩, rfl, .refl _⟩
    show index + 0 = max count index
    omega

/-- The entries for the indices from `index` to below `count` are read where stored constants are
that fill these indices. -/
theorem recognizes_readAll (count index : Nat) :
    Recognizes (fun entries bytes => ∃ constants, Fills count index constants ∧
      (table constants).map raw = entries ∧ bytes = constants.flatMap encode)
      (RawConstant.readAll count index) := by
  intro start entries stop
  constructor
  · intro read
    obtain ⟨constants, fills, same, passes⟩ := exists_of_readAll read
    exact ⟨_, ⟨constants, fills, same, rfl⟩, passes⟩
  · rintro ⟨_, ⟨constants, fills, rfl, rfl⟩, passes⟩
    have read := reads_readAll fills.texts index start stop passes
    rw [fills.size] at read
    by_cases inside : index ≤ count
    · rw [Nat.max_eq_left inside] at read
      exact read
    · -- below a count that is too small there are no indices
      rw [Nat.max_eq_right (by omega), RawConstant.readAll, if_neg (by omega)] at read
      rw [RawConstant.readAll, if_neg (by omega)]
      exact read

/-! ## Pools -/

/-- The bytes of constants behind a count. -/
def encodeBehind (count : UInt16) (constants : List StoredConstant) : List UInt8 :=
  encode16 count ++ constants.flatMap encode

/-- The constants have exactly the indices below the count, and all references hold. -/
structure WellFormed (count : UInt16) (constants : List StoredConstant) : Prop where
  fills : Fills count.toNat 1 constants
  kinded : RawConstant.WellKinded ((table constants).map raw)

instance (count : UInt16) (constants : List StoredConstant) :
    Decidable (WellFormed count constants) :=
  decidable_of_iff
    (Fills count.toNat 1 constants ∧ RawConstant.WellKinded ((table constants).map raw))
    ⟨fun ⟨fills, kinded⟩ => ⟨fills, kinded⟩, fun ⟨fills, kinded⟩ => ⟨fills, kinded⟩⟩

/-- Well-formed constants stand for a pool. -/
theorem WellFormed.exists_pool {count : UInt16} {constants : List StoredConstant}
    (formed : WellFormed count constants) : ∃ pool, pool? constants = some pool := by
  obtain ⟨pool, made⟩ := ConstantPool.exists_ofRaw_iff.2 formed.kinded
  exact ⟨pool, mapM_resolve_eq_ok_iff.1 (ConstantPool.ofRaw_eq_ok_iff.1 made).2⟩

end StoredConstant

namespace ConstantPool

open StoredConstant (encodeBehind WellFormed pool?)

/-- A pool is read where well-formed constants are that stand for it. -/
theorem recognizes_read :
    Recognizes (fun pool bytes => ∃ count constants, WellFormed count constants ∧
      pool? constants = some pool ∧ bytes = encodeBehind count constants) read.outcome := by
  intro start pool stop
  rw [outcome_read]
  constructor
  · intro read
    obtain ⟨count, middle, readCount, read⟩ := bind_eq_ok.1 read
    obtain ⟨entries, last, readEntries, lifted⟩ := bind_eq_ok.1 read
    obtain ⟨_, rfl, passesCount⟩ := (recognizes_u16 _ _ _).1 readCount
    obtain ⟨constants, fills, rfl, passesEntries⟩ := StoredConstant.exists_of_readAll readEntries
    obtain ⟨made, rfl⟩ := lift_eq_ok.1 lifted
    obtain ⟨kinded, resolved⟩ := ofRaw_eq_ok_iff.1 made
    have meant := StoredConstant.mapM_resolve_eq_ok_iff.1 resolved
    exact ⟨_, ⟨count, constants, ⟨fills, kinded⟩, meant, rfl⟩, passesCount.trans passesEntries⟩
  · rintro ⟨_, ⟨count, constants, formed, meant, rfl⟩, passes⟩
    have resolved := StoredConstant.mapM_resolve_eq_ok_iff.2 meant
    have made := ofRaw_eq_ok_iff.2 ⟨formed.kinded, resolved⟩
    have entries := (StoredConstant.recognizes_readAll count.toNat 1).reads
      ⟨constants, formed.fills, rfl, rfl⟩
    refine ((reads_u16 count).bind (entries.bind (reads_lift made))) start stop ?_
    rw [List.append_nil]
    exact passes

/-- Well-formed constants are read as the pool that they stand for. -/
theorem exists_read {start stop : Cursor} {count : UInt16} {constants : List StoredConstant}
    (formed : WellFormed count constants)
    (passes : start.Passes (encodeBehind count constants) stop) :
    ∃ pool, (read start).result = .ok (pool, stop) ∧ pool? constants = some pool := by
  obtain ⟨pool, meant⟩ := formed.exists_pool
  have read :=
    (recognizes_read start pool stop).2 ⟨_, ⟨count, constants, formed, meant, rfl⟩, passes⟩
  exact ⟨pool, read, meant⟩

/-- A pool is read exactly where the bytes of well-formed constants are, and then the cursor stands
behind these bytes, whatever follows, and the pool is the one that the constants stand for: index 0
is absent, long and double constants stand at both their indices and string constants have their
texts. -/
theorem read_exact (start : Cursor) :
    ((∃ outcome, (read start).result = .ok outcome) ↔
      ∃ count constants stop, WellFormed count constants ∧
        start.Passes (encodeBehind count constants) stop) ∧
    ∀ count constants stop, WellFormed count constants →
      start.Passes (encodeBehind count constants) stop →
      ∃ pool, (read start).result = .ok (pool, stop) ∧ pool? constants = some pool ∧
        pool.get 0 = .ok none := by
  refine ⟨⟨?_, ?_⟩, ?_⟩
  · rintro ⟨⟨pool, stop⟩, read⟩
    obtain ⟨_, ⟨count, constants, formed, -, rfl⟩, passes⟩ :=
      (recognizes_read start pool stop).1 read
    exact ⟨count, constants, stop, formed, passes⟩
  · rintro ⟨count, constants, stop, formed, passes⟩
    obtain ⟨pool, read, -⟩ := exists_read formed passes
    exact ⟨(pool, stop), read⟩
  · intro count constants stop formed passes
    obtain ⟨pool, read, meant⟩ := exists_read formed passes
    exact ⟨pool, read, meant, rfl⟩

/-- Constants with a string before its text, and a reference to the second index of a long one. -/
def linkedConstants : List StoredConstant :=
  [.string 2, .utf8 ⟨[0x72, 0x75, 0x6E], "run", by decide +kernel⟩, .long (-2), .classRef 2,
    .nameAndType 2 2, .methodRef 5 6, .methodHandle 6 4, .invokeDynamic 0 6]

/-- The pool that they stand for. -/
def linkedPool : ConstantPool :=
  ⟨#[.string "run", .utf8 "run", .long (-2), .long (-2), .classRef 2, .nameAndType 2 2,
    .methodRef 5 6, .methodHandle 6 4, .invokeDynamic 0 6]⟩

/-- Eight constants, one of which takes two indices, and two bytes behind them. -/
theorem read_exact_linked :
    WellFormed 10 linkedConstants ∧
      (read (Cursor.ofBytes (encodeBehind 10 linkedConstants ++ [0xCA, 0xFE]))).result =
        .ok (linkedPool, ⟨[0xCA, 0xFE], 42, 0⟩) := by
  have formed : WellFormed 10 linkedConstants := by decide +kernel
  have passes : (Cursor.ofBytes (encodeBehind 10 linkedConstants ++ [0xCA, 0xFE])).Passes
      (encodeBehind 10 linkedConstants) ⟨[0xCA, 0xFE], 42, 0⟩ := ⟨rfl, by decide +kernel, rfl⟩
  obtain ⟨pool, read, meant, -⟩ := (read_exact _).2 10 linkedConstants _ formed passes
  cases meant
  exact ⟨formed, read⟩

end ConstantPool

end ClassLowering
