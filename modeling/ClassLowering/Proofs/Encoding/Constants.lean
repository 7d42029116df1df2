import ClassLowering.Proofs.Encoding.Outcomes

/-! # Writing and reading constant pools

A constant is stored behind a tag, with references to other constants as indices. Stored constants
are written one after the other behind the number of their indices (`StoredConstant.encodePool`); a
long or double constant has two of them. The pool that they stand for (`StoredConstant.pool?`) has
the texts of string constants in place of their indices. Reading the bytes of stored constants gives
the pool that they stand for, if they are accepted at all (`StoredConstant.reads_pool`). -/

namespace ClassLowering

open Read
open RawConstant (plain)

/-- A list has results if each of its elements has one. -/
theorem Except.toOption_mapM {ε α β : Type} (f : α → Except ε β) (items : List α) :
    (items.mapM f).toOption = items.mapM fun item => (f item).toOption := by
  induction items with
  | nil => rfl
  | cons item items induction =>
    rw [List.mapM_cons, List.mapM_cons, ← induction]
    cases f item with
    | error failure => rfl
    | ok value => cases items.mapM f <;> rfl

/-! ## Looking constants up -/

/-- The entry of a table at an index from 1. -/
def entryAt? {α : Type} (entries : List α) (index : UInt16) : Option α :=
  if index = 0 then none else entries[index.toNat - 1]?

/-- Looking an index up gives the entry there, if there is one. -/
theorem toOption_lookupIndex {α : Type} (entries : List α) (index : UInt16) :
    (lookupIndex entries.toArray index).toOption = entryAt? entries index := by
  unfold lookupIndex entryAt?
  split
  · rfl
  · rw [List.getElem?_toArray]
    cases entries[index.toNat - 1]? <;> rfl

/-- Entries may be changed before or after one of them is looked up. -/
theorem entryAt?_map {α β : Type} (f : α → β) (entries : List α) (index : UInt16) :
    entryAt? (entries.map f) index = (entryAt? entries index).map f := by
  unfold entryAt?
  split
  · rfl
  · exact List.getElem?_map

namespace ConstantPool

variable (pool : ConstantPool)

/-- The constant at an index. -/
def constantAt? (index : UInt16) : Option Constant := entryAt? pool.constants.toList index

/-- The text at an index. -/
def textAt? (index : UInt16) : Option String :=
  match pool.constantAt? index with
  | some (.utf8 text) => some text
  | _ => none

/-- The name of the class at an index. -/
def classAt? (index : UInt16) : Option String :=
  match pool.constantAt? index with
  | some (.classRef name) => pool.textAt? name
  | _ => none

/-- The name of the class at an index, if the index is not 0. -/
def optionalClassAt? (index : UInt16) : Option (Option String) :=
  if index = 0 then some none else some <$> pool.classAt? index

variable {pool} {index : UInt16}

/-- A constant that is at an index is found there. -/
theorem required_of_constantAt? {constant : Constant}
    (found : pool.constantAt? index = some constant) :
    pool.required index = .ok constant :=
  Except.eq_ok_of_mem_toOption ((toOption_lookupIndex pool.constants.toList index).trans found)

/-- A text that is at an index is found there. -/
theorem utf8_of_textAt? {text : String} (found : pool.textAt? index = some text) :
    pool.utf8 index = .ok text := by
  unfold textAt? at found
  split at found
  · next given =>
    cases found
    rw [utf8, required_of_constantAt? given]
    rfl
  · cases found

/-- A class name that is at an index is found there. -/
theorem className_of_classAt? {name : String} (found : pool.classAt? index = some name) :
    pool.className index = .ok name := by
  unfold classAt? at found
  split at found
  · next given =>
    rw [className, required_of_constantAt? given]
    exact utf8_of_textAt? found
  · cases found

/-- A class name that is at an index, or none at index 0, is found there. -/
theorem className?_of_optionalClassAt? {name : Option String}
    (found : pool.optionalClassAt? index = some name) : pool.className? index = .ok name := by
  unfold optionalClassAt? at found
  unfold className?
  split at found
  · next absent =>
    cases found
    rw [if_pos absent]
  · next present =>
    obtain ⟨name, given, rfl⟩ := Option.map_eq_some_iff.1 found
    rw [if_neg present, className_of_classAt? given]
    rfl

end ConstantPool

/-! ## Stored constants -/

/-- A text and bytes that stand for it. -/
structure EncodedText where
  bytes : List UInt8
  text : String
  decodes : ModifiedUtf8.decodeString bytes = some text

/-- A constant as a class file stores it; floating-point numbers are kept as their bits. -/
inductive StoredConstant where
  | utf8 (text : EncodedText)
  | integer (value : Int32)
  | float (bits : UInt32)
  | long (value : Int64)
  | double (bits : UInt64)
  | classRef (name : UInt16)
  | string (text : UInt16)
  | fieldRef (owner nameAndType : UInt16)
  | methodRef (owner nameAndType : UInt16)
  | interfaceMethodRef (owner nameAndType : UInt16)
  | nameAndType (name descriptor : UInt16)
  | methodHandle (kind : UInt8) (reference : UInt16)
  | methodType (descriptor : UInt16)
  | dynamic (bootstrap nameAndType : UInt16)
  | invokeDynamic (bootstrap nameAndType : UInt16)
  | moduleRef (name : UInt16)
  | packageRef (name : UInt16)

namespace StoredConstant

/-- The byte that says which kind of constant follows. -/
def tag : StoredConstant → UInt8
  | utf8 _ => 1
  | integer _ => 3
  | float _ => 4
  | long _ => 5
  | double _ => 6
  | classRef _ => 7
  | string _ => 8
  | fieldRef _ _ => 9
  | methodRef _ _ => 10
  | interfaceMethodRef _ _ => 11
  | nameAndType _ _ => 12
  | methodHandle _ _ => 15
  | methodType _ => 16
  | dynamic _ _ => 17
  | invokeDynamic _ _ => 18
  | moduleRef _ => 19
  | packageRef _ => 20

/-- The bytes behind the tag. -/
def payload : StoredConstant → List UInt8
  | utf8 text => encode16 text.bytes.length.toUInt16 ++ text.bytes
  | integer value => encode32 value.toUInt32
  | float bits => encode32 bits
  | long value => encode64 value.toUInt64
  | double bits => encode64 bits
  | classRef index | string index | methodType index | moduleRef index | packageRef index =>
    encode16 index
  | fieldRef first second | methodRef first second | interfaceMethodRef first second
  | nameAndType first second | dynamic first second | invokeDynamic first second =>
    encode16 first ++ encode16 second
  | methodHandle kind reference => kind :: encode16 reference

/-- The bytes of a constant. -/
def encode (constant : StoredConstant) : List UInt8 := constant.tag :: constant.payload

/-- The length of a text can be written. -/
def Fits : StoredConstant → Prop
  | utf8 text => text.bytes.length < 2 ^ 16
  | _ => True

instance : (constant : StoredConstant) → Decidable constant.Fits
  | utf8 text => inferInstanceAs (Decidable (text.bytes.length < 2 ^ 16))
  | integer _ | float _ | long _ | double _ | classRef _ | string _ | fieldRef _ _ | methodRef _ _
  | interfaceMethodRef _ _ | nameAndType _ _ | methodHandle _ _ | methodType _ | dynamic _ _
  | invokeDynamic _ _ | moduleRef _ | packageRef _ => inferInstanceAs (Decidable True)

/-- The entries of a constant, one for each of its indices. -/
def entries (constant : StoredConstant) : List StoredConstant :=
  match constant with
  | long _ | double _ => [constant, constant]
  | _ => [constant]

/-- The entries for the indices from 1 on. -/
def table (constants : List StoredConstant) : List StoredConstant := constants.flatMap entries

/-- The bytes of a pool. -/
def encodePool (constants : List StoredConstant) : List UInt8 :=
  encode16 ((table constants).length + 1).toUInt16 ++ constants.flatMap encode

/-- The constant that a stored one stands for among the entries of a table. -/
def denote? (stored : List StoredConstant) : StoredConstant → Option Constant
  | utf8 text => some (.utf8 text.text)
  | integer value => some (.integer value)
  | float bits => some (.float bits)
  | long value => some (.long value)
  | double bits => some (.double bits)
  | classRef name => some (.classRef name)
  | string index =>
    match entryAt? stored index with
    | some (utf8 text) => some (.string text.text)
    | _ => none
  | fieldRef owner pair => some (.fieldRef owner pair)
  | methodRef owner pair => some (.methodRef owner pair)
  | interfaceMethodRef owner pair => some (.interfaceMethodRef owner pair)
  | nameAndType name descriptor => some (.nameAndType name descriptor)
  | methodHandle kind reference => some (.methodHandle kind reference)
  | methodType descriptor => some (.methodType descriptor)
  | dynamic bootstrap pair => some (.dynamic bootstrap pair)
  | invokeDynamic bootstrap pair => some (.invokeDynamic bootstrap pair)
  | moduleRef name => some (.moduleRef name)
  | packageRef name => some (.packageRef name)

/-- The pool that stored constants stand for. -/
def pool? (constants : List StoredConstant) : Option ConstantPool :=
  (fun entries => ⟨entries.toArray⟩) <$> (table constants).mapM (denote? (table constants))

/-! ## Reading them -/

/-- What is read for a constant, before string constants are resolved. -/
def raw : StoredConstant → RawConstant
  | utf8 text => plain (.utf8 text.text)
  | integer value => plain (.integer value)
  | float bits => plain (.float bits)
  | long value => plain (.long value)
  | double bits => plain (.double bits)
  | classRef name => plain (.classRef name)
  | string index => .stringRef index
  | fieldRef owner pair => plain (.fieldRef owner pair)
  | methodRef owner pair => plain (.methodRef owner pair)
  | interfaceMethodRef owner pair => plain (.interfaceMethodRef owner pair)
  | nameAndType name descriptor => plain (.nameAndType name descriptor)
  | methodHandle kind reference => plain (.methodHandle kind reference)
  | methodType descriptor => plain (.methodType descriptor)
  | dynamic bootstrap pair => plain (.dynamic bootstrap pair)
  | invokeDynamic bootstrap pair => plain (.invokeDynamic bootstrap pair)
  | moduleRef name => plain (.moduleRef name)
  | packageRef name => plain (.packageRef name)

/-- A text constant is read from its length and its bytes. -/
theorem reads_readUtf8 (index : Nat) (text : EncodedText) (small : text.bytes.length < 2 ^ 16) :
    Reads (RawConstant.readUtf8 index) (encode16 text.bytes.length.toUInt16 ++ text.bytes)
      (.utf8 text.text) := by
  refine (reads_u16 _).bind ?_
  rw [Nat.toUInt16_eq, UInt16.toNat_ofNat_of_lt' small]
  refine ((reads_bytes text.bytes).bind ?_).congr (List.append_nil _).symm
  rw [text.decodes]
  exact reads_pure _

/-- A constant of two indices is read from the bytes of both. -/
theorem reads_readPair (make : UInt16 → UInt16 → Constant) (first second : UInt16) :
    Reads (RawConstant.readPair make) (encode16 first ++ encode16 second) (make first second) := by
  refine (reads_u16 first).bind ?_
  exact (reads_u16 second).bind_pure (make first)

/-- A method handle is read from the bytes of its kind and its reference. -/
theorem reads_readMethodHandle (kind : UInt8) (reference : UInt16) :
    Reads RawConstant.readMethodHandle (kind :: encode16 reference)
      (.methodHandle kind reference) := by
  change Reads _ ([kind] ++ encode16 reference) _
  exact (reads_u8 kind).bind ((reads_u16 reference).bind_pure (Constant.methodHandle kind))

/-- A constant is read from its bytes. -/
theorem reads_read (index : Nat) {constant : StoredConstant} (fits : constant.Fits) :
    Reads (RawConstant.read index) constant.encode constant.raw := by
  change Reads _ ([constant.tag] ++ constant.payload) _
  refine (reads_u8 constant.tag).bind ?_
  -- the tag decides how the bytes behind it are read
  cases constant with
  | utf8 text => exact (reads_readUtf8 index text fits).map plain
  | integer value => exact (reads_i32 value).map fun value => plain (.integer value)
  | float bits => exact (reads_u32 bits).map fun bits => plain (.float bits)
  | long value => exact (reads_i64 value).map fun value => plain (.long value)
  | double bits => exact (reads_u64 bits).map fun bits => plain (.double bits)
  | classRef name => exact (reads_u16 name).map fun name => plain (.classRef name)
  | string index => exact (reads_u16 index).map RawConstant.stringRef
  | fieldRef owner pair => exact (reads_readPair .fieldRef owner pair).map plain
  | methodRef owner pair => exact (reads_readPair .methodRef owner pair).map plain
  | interfaceMethodRef owner pair =>
    exact (reads_readPair .interfaceMethodRef owner pair).map plain
  | nameAndType name descriptor =>
    exact (reads_readPair .nameAndType name descriptor).map plain
  | methodHandle kind reference =>
    exact (reads_readMethodHandle kind reference).map plain
  | methodType descriptor =>
    exact (reads_u16 descriptor).map fun descriptor => plain (.methodType descriptor)
  | dynamic bootstrap pair => exact (reads_readPair .dynamic bootstrap pair).map plain
  | invokeDynamic bootstrap pair =>
    exact (reads_readPair .invokeDynamic bootstrap pair).map plain
  | moduleRef name => exact (reads_u16 name).map fun name => plain (.moduleRef name)
  | packageRef name => exact (reads_u16 name).map fun name => plain (.packageRef name)

/-- A constant that takes two indices stands at both. -/
theorem entries_of_isWide {constant : StoredConstant} (wide : constant.raw.isWide = true) :
    constant.entries = [constant, constant] := by
  cases constant with
  | long value | double bits => rfl
  | _ => cases wide

/-- Any other constant stands at one index. -/
theorem entries_of_not_isWide {constant : StoredConstant} (narrow : ¬constant.raw.isWide = true) :
    constant.entries = [constant] := by
  cases constant with
  | long value | double bits => exact absurd rfl narrow
  | _ => rfl

/-- The constants of a pool are read from their bytes; those with two indices stand at both. -/
theorem reads_readAll {constants : List StoredConstant}
    (fits : ∀ constant ∈ constants, constant.Fits) (index : Nat) :
    Reads (RawConstant.readAll (index + (table constants).length) index)
      (constants.flatMap encode) ((table constants).map raw) := by
  induction constants generalizing index with
  | nil =>
    rw [RawConstant.readAll, if_neg (by simp [table])]
    exact reads_pure []
  | cons constant constants induction =>
    obtain ⟨first, others⟩ := List.forall_mem_cons.1 fits
    have split : table (constant :: constants) = constant.entries ++ table constants := rfl
    rw [split, List.flatMap_cons]
    -- the reader counts indices, and a wide constant takes two of them
    by_cases wide : constant.raw.isWide
    · have twice := entries_of_isWide wide
      have count : index + (constant.entries ++ table constants).length =
          index + 2 + (table constants).length := by
        rw [twice]
        simp
        omega
      rw [count, twice, RawConstant.readAll, if_pos (by omega)]
      refine (reads_read index first).bind ?_
      rw [if_pos wide, if_pos (by omega)]
      exact (induction others (index + 2)).bind_pure fun rest =>
        constant.raw :: constant.raw :: rest
    · have once := entries_of_not_isWide wide
      have count : index + (constant.entries ++ table constants).length =
          index + 1 + (table constants).length := by
        rw [once]
        simp
        omega
      rw [count, once, RawConstant.readAll, if_pos (by omega)]
      refine (reads_read index first).bind ?_
      rw [if_neg wide]
      exact (induction others (index + 1)).bind_pure fun rest => constant.raw :: rest

/-! ## Resolving them -/

/-- The constants are accepted as a pool. -/
def Accepted (constants : List StoredConstant) : Prop :=
  ∃ outcome, (ConstantPool.read (Cursor.ofBytes (encodePool constants))).result = .ok outcome

/-- The lengths of texts and the number of indices can be written. -/
structure PoolFits (constants : List StoredConstant) : Prop where
  texts : ∀ constant ∈ constants, constant.Fits
  size : (table constants).length + 1 < 2 ^ 16

instance (constants : List StoredConstant) : Decidable (PoolFits constants) :=
  decidable_of_iff ((∀ constant ∈ constants, constant.Fits) ∧ (table constants).length + 1 < 2 ^ 16)
    ⟨fun ⟨texts, size⟩ => ⟨texts, size⟩, fun ⟨texts, size⟩ => ⟨texts, size⟩⟩

/-- Reading the bytes of constants leaves their references to be resolved. -/
theorem reads_raw {constants : List StoredConstant} (fits : PoolFits constants) :
    Reads (do let count ← u16; RawConstant.readAll count.toNat 1) (encodePool constants)
      ((table constants).map raw) := by
  refine (reads_u16 _).bind ?_
  rw [Nat.toUInt16_eq, UInt16.toNat_ofNat_of_lt' fits.size, Nat.add_comm]
  exact reads_readAll fits.texts 1

/-- A constant is resolved to the one that it stands for. -/
theorem toOption_resolve (stored : List StoredConstant) (constant : StoredConstant) :
    (RawConstant.resolve (stored.map raw).toArray constant.raw).toOption =
      denote? stored constant := by
  cases constant with
  | string index =>
    have found := toOption_lookupIndex (stored.map raw) index
    rw [entryAt?_map] at found
    rw [raw, RawConstant.resolve, denote?]
    cases given : entryAt? stored index with
    | none =>
      rw [given] at found
      cases looked : lookupIndex (stored.map raw).toArray index with
      | error failure => rfl
      | ok entry =>
        rw [looked] at found
        cases found
    | some entry =>
      rw [given] at found
      rw [Except.eq_ok_of_mem_toOption found]
      cases entry <;> rfl
  | _ => rfl

/-- A table is resolved to the constants of the pool that it stands for. -/
theorem mapM_resolve_eq_ok_iff {constants : List StoredConstant} {pool : ConstantPool} :
    ((table constants).map raw).mapM (RawConstant.resolve ((table constants).map raw).toArray) =
      .ok pool.constants.toList ↔ pool? constants = some pool := by
  have meant := Except.toOption_mapM
    (fun constant => RawConstant.resolve ((table constants).map raw).toArray (raw constant))
    (table constants)
  simp only [toOption_resolve] at meant
  rw [List.mapM_map, pool?, ← meant]
  constructor
  · intro resolved
    exact Option.map_eq_some_iff.2 ⟨pool.constants.toList, congrArg Except.toOption resolved, rfl⟩
  · intro given
    obtain ⟨entries, found, rfl⟩ := Option.map_eq_some_iff.1 given
    exact Except.eq_ok_of_mem_toOption found

/-- Constants that are accepted stand for a pool, and that pool is read from their bytes. -/
theorem exists_pool {constants : List StoredConstant} (fits : PoolFits constants)
    (accepted : Accepted constants) :
    ∃ pool, pool? constants = some pool ∧
      Reads ConstantPool.read.outcome (encodePool constants) pool := by
  obtain ⟨⟨pool, stop⟩, read⟩ := accepted
  change ConstantPool.read.outcome (Cursor.ofBytes (encodePool constants)) = _ at read
  have resolved : ConstantPool.ofRaw ((table constants).map raw) = .ok pool := by
    rw [ConstantPool.outcome_read, ← bind_assoc, bind_apply, Cursor.ofBytes,
      (reads_raw fits).run] at read
    exact (lift_eq_ok.1 read).1
  refine ⟨pool, ?_, ?_⟩
  · -- the checks behind the resolution change nothing
    obtain ⟨entries, found, resolved⟩ := Except.bind_eq_ok.1 resolved
    obtain ⟨_, -, resolved⟩ := Except.bind_eq_ok.1 resolved
    cases resolved
    exact mapM_resolve_eq_ok_iff.1 found
  · rw [ConstantPool.outcome_read, ← bind_assoc]
    exact ((reads_raw fits).bind (reads_lift resolved)).congr (List.append_nil _).symm

end StoredConstant

end ClassLowering
