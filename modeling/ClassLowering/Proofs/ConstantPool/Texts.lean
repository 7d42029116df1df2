import ClassLowering.Proofs.ConstantPool.Accessors
import ClassLowering.Proofs.ModifiedUtf8

/-! # Texts in a pool

A text can stand wherever a pool has some text: only its length matters to the pool, and its kind to
the references (`StoredConstant.WellFormed.replaceText`). It is then found in the pool as
`ModifiedUtf8.mergeText` says, both by its index and in the string constants that refer to it
(`ConstantPool.read_text`). Conversely, a text that is found in a pool could be written into a text
constant (`ConstantPool.length_encode_le_of_read`). -/

namespace ClassLowering

open ModifiedUtf8 (Survives mergeText mergeText_eq_iff)

/-- A text as class files write it, with what is read for it. -/
def ModifiedUtf8.stored (text : String) : EncodedText :=
  ⟨encode text, mergeText text, decodeString_encode text⟩

/-- Which text it is does not matter to the references of a table. -/
theorem RawConstant.WellKinded.replaceText {before after : List RawConstant} {old text : String}
    (kinded : WellKinded (before ++ plain (.utf8 old) :: after)) :
    WellKinded (before ++ plain (.utf8 text) :: after) := by
  have kinds : (before ++ plain (.utf8 text) :: after).map kind? =
      (before ++ plain (.utf8 old) :: after).map kind? := by
    rw [List.map_append, List.map_append]
    rfl
  unfold WellKinded at kinded ⊢
  rw [kinds]
  rw [List.forall_mem_append, List.forall_mem_cons] at kinded ⊢
  exact ⟨kinded.1, fun _ listed => absurd listed List.not_mem_nil, kinded.2.2⟩

namespace StoredConstant

/-- The entries of constants come in their order. -/
theorem table_append (first second : List StoredConstant) :
    table (first ++ second) = table first ++ table second :=
  List.flatMap_append

/-- Only constants that are there have entries. -/
theorem mem_of_mem_table {constant : StoredConstant} {constants : List StoredConstant}
    (listed : constant ∈ table constants) : constant ∈ constants := by
  obtain ⟨source, sourceListed, entry⟩ := List.mem_flatMap.1 listed
  have same : constant = source := by
    unfold entries at entry
    split at entry <;> simpa using entry
  exact same ▸ sourceListed

variable {count : UInt16} {before after : List StoredConstant} {old text : EncodedText}

/-- A text constant has one entry. -/
theorem table_text :
    table (before ++ .utf8 text :: after) = table before ++ .utf8 text :: table after :=
  table_append before (.utf8 text :: after)

/-- The text stands behind the entries of the constants before it. -/
theorem entryAt?_text {index : UInt16} (place : index.toNat = (table before).length + 1) :
    entryAt? (table (before ++ .utf8 text :: after)) index = some (.utf8 text) := by
  have positive : index ≠ 0 := by
    rintro rfl
    cases place
  rw [entryAt?, if_neg positive, place, Nat.add_sub_cancel, table_text,
    List.getElem?_append_right (Nat.le_refl _), Nat.sub_self, List.getElem?_cons_zero]

/-- Other entries than the text stay when it is replaced. -/
theorem entryAt?_string_replaceText {place target : UInt16}
    (found : entryAt? (table (before ++ .utf8 old :: after)) place = some (.string target)) :
    entryAt? (table (before ++ .utf8 text :: after)) place = some (.string target) := by
  unfold entryAt? at found ⊢
  by_cases absent : place = 0
  · rw [if_pos absent] at found
    cases found
  rw [if_neg absent, table_text] at found ⊢
  by_cases ahead : place.toNat - 1 < (table before).length
  · rwa [List.getElem?_append_left ahead] at found ⊢
  · rw [List.getElem?_append_right (Nat.not_lt.1 ahead)] at found ⊢
    cases position : place.toNat - 1 - (table before).length with
    | zero =>
      rw [position] at found
      cases found
    | succ position' =>
      rw [position] at found
      exact found

/-- A text can be replaced by any other one whose length can be written. -/
theorem WellFormed.replaceText (formed : WellFormed count (before ++ .utf8 old :: after))
    (short : text.bytes.length < 2 ^ 16) : WellFormed count (before ++ .utf8 text :: after) := by
  obtain ⟨⟨texts, size⟩, kinded⟩ := formed
  refine ⟨⟨?_, ?_⟩, ?_⟩
  · simp only [List.forall_mem_append, List.forall_mem_cons] at texts ⊢
    exact ⟨texts.1, short, texts.2.2⟩
  · rw [table_text] at size ⊢
    simpa using size
  · rw [table_text, List.map_append, List.map_cons] at kinded ⊢
    exact kinded.replaceText

end StoredConstant

namespace ConstantPool

open StoredConstant (table encodeBehind WellFormed pool?)

variable {pool : ConstantPool} {index : UInt16} {constants : List StoredConstant}

/-- A stored text is found at its index. -/
theorem utf8_of_stored {text : EncodedText} (meant : pool? constants = some pool)
    (found : entryAt? (table constants) index = some (.utf8 text)) :
    pool.utf8 index = .ok text.text := by
  have resolved := Except.entryAt?_mapM (StoredConstant.mapM_resolve_eq_ok_iff.2 meant) index
  rw [entryAt?_map, found] at resolved
  obtain ⟨constant, given, gives⟩ := Option.map_eq_some_iff.1 resolved.symm
  cases gives
  apply utf8_of_textAt?
  rw [textAt?, constantAt?, given]

/-- A text that is found is stored at its index. -/
theorem exists_stored_of_utf8 {text : String} (meant : pool? constants = some pool)
    (found : pool.utf8 index = .ok text) :
    ∃ stored : EncodedText, entryAt? (table constants) index = some (.utf8 stored) ∧
      stored.text = text := by
  have given : pool.constantAt? index = some (.utf8 text) := by
    obtain ⟨constant, given, gives⟩ := Except.bind_eq_ok.1 found
    cases constant with
    | utf8 text =>
      cases gives
      exact required_eq_ok_iff.1 given
    | _ => cases gives
  have resolved := Except.entryAt?_mapM (StoredConstant.mapM_resolve_eq_ok_iff.2 meant) index
  rw [constantAt?] at given
  rw [given, entryAt?_map, Option.map_map] at resolved
  obtain ⟨entry, stored, gives⟩ := Option.map_eq_some_iff.1 resolved
  cases entry with
  | utf8 entry =>
    cases gives
    exact ⟨entry, stored, rfl⟩
  | string target =>
    -- a string constant has a text, too, but is resolved to a string
    obtain ⟨_, -, same⟩ := RawConstant.resolve_stringRef_eq_ok.1 gives
    cases same
  | _ => cases gives

/-- The texts of a pool that was read fit into text constants when they are written again. -/
theorem length_encode_le_of_read {start stop : Cursor} {text : String}
    (given : (read start).result = .ok (pool, stop)) (found : pool.utf8 index = .ok text) :
    (ModifiedUtf8.encode text).length ≤ 65535 := by
  obtain ⟨_, ⟨count, constants, formed, meant, -⟩, -⟩ := (recognizes_read start pool stop).1 given
  obtain ⟨stored, entry, rfl⟩ := exists_stored_of_utf8 meant found
  have short : stored.bytes.length < 2 ^ 16 :=
    formed.fills.texts _ (StoredConstant.mem_of_mem_table (mem_of_entryAt? entry))
  have written := ModifiedUtf8.length_encode_le stored.decodes
  omega

/-- A text that is written where a pool has some other text is accepted there, and it is found as
`mergeText` says: by its index, and in every string constant that refers to it. So it is found
unchanged exactly if all its characters survive, and different texts with this property stay
different. -/
theorem read_text {start stop : Cursor} {count : UInt16} {before after : List StoredConstant}
    {old : EncodedText} {text : String} (formed : WellFormed count (before ++ .utf8 old :: after))
    (short : (ModifiedUtf8.encode text).length ≤ 65535)
    (passes : start.Passes (encode16 count ++ before.flatMap StoredConstant.encode ++
      (1 :: (encode16 (ModifiedUtf8.encode text).length.toUInt16 ++ ModifiedUtf8.encode text)) ++
        after.flatMap StoredConstant.encode) stop) :
    (∃ pool index, (read start).result = .ok (pool, stop) ∧
      index.toNat = (table before).length + 1 ∧ pool.utf8 index = .ok (mergeText text) ∧
      (pool.utf8 index = .ok text ↔ ∀ letter ∈ text.toList, Survives letter) ∧
      ∀ place, entryAt? (table (before ++ .utf8 old :: after)) place = some (.string index) →
        pool.get place = .ok (some (.string (mergeText text)))) ∧
    ∀ other : String, (∀ letter ∈ text.toList, Survives letter) →
      (∀ letter ∈ other.toList, Survives letter) → mergeText text = mergeText other →
        text = other := by
  have replaced : WellFormed count (before ++ .utf8 (ModifiedUtf8.stored text) :: after) :=
    formed.replaceText (Nat.lt_succ_of_le short)
  have bytes : encodeBehind count (before ++ .utf8 (ModifiedUtf8.stored text) :: after) =
      encode16 count ++ before.flatMap StoredConstant.encode ++
        (1 :: (encode16 (ModifiedUtf8.encode text).length.toUInt16 ++ ModifiedUtf8.encode text)) ++
          after.flatMap StoredConstant.encode := by
    rw [encodeBehind, List.flatMap_append, List.flatMap_cons, List.append_assoc, List.append_assoc]
    rfl
  obtain ⟨pool, read, meant⟩ := exists_read replaced (bytes ▸ passes)
  -- the index of the text is below the count
  have room : (table before).length + 1 < 2 ^ 16 := by
    have size := replaced.fills.size
    have bound := count.toNat_lt
    rw [StoredConstant.table_text, List.length_append, List.length_cons] at size
    omega
  have place : ((table before).length + 1).toUInt16.toNat = (table before).length + 1 :=
    UInt16.toNat_ofNat_of_lt' room
  have found : pool.utf8 ((table before).length + 1).toUInt16 = .ok (mergeText text) :=
    utf8_of_stored meant (StoredConstant.entryAt?_text place)
  refine ⟨⟨pool, _, read, place, found, ?_, ?_⟩, ?_⟩
  · rw [found, Except.ok.injEq, mergeText_eq_iff]
  · intro string refers
    obtain ⟨content, given, same⟩ :=
      get_of_string meant (StoredConstant.entryAt?_string_replaceText refers)
    rw [found] at same
    cases same
    exact given
  · intro other survives otherSurvives same
    rwa [mergeText_eq_iff.2 survives, mergeText_eq_iff.2 otherSurvives] at same

/-- A text of four characters, with two, two, three and six bytes. -/
def mixedText : String :=
  String.ofList [Char.ofNat 0, Char.ofNat 0xE9, Char.ofNat 0x20AC, Char.ofNat 0x1F600]

/-- The text, between a string constant and a class that refer to it. -/
def mixedBytes : List UInt8 :=
  [0, 4, 8, 0, 2, 1, 0, 13, 0xC0, 0x80, 0xC3, 0xA9, 0xE2, 0x82, 0xAC, 0xED, 0xA0, 0xBD, 0xED, 0xB8,
    0x80, 7, 0, 2]

/-- A text with characters of every length, and a string constant for it. -/
theorem read_text_mixed :
    ∃ pool, (read (Cursor.ofBytes mixedBytes)).result = .ok (pool, ⟨[], 24, 0⟩) ∧
      pool.utf8 2 = .ok mixedText ∧ pool.get 1 = .ok (some (.string mixedText)) := by
  have formed : WellFormed 4 ([.string 2] ++
      .utf8 ⟨[0x72, 0x75, 0x6E], "run", by decide +kernel⟩ :: [.classRef 2]) := by
    decide +kernel
  have survives : ∀ letter ∈ mixedText.toList, Survives letter := by
    rw [mixedText, String.toList_ofList]
    simp only [List.forall_mem_cons]
    exact ⟨by decide, by decide, by decide, by decide,
      fun _ listed => absurd listed List.not_mem_nil⟩
  have short : (ModifiedUtf8.encode mixedText).length ≤ 65535 := by decide +kernel
  have passes : (Cursor.ofBytes mixedBytes).Passes _ ⟨[], 24, 0⟩ :=
    ⟨(List.append_nil mixedBytes).symm, by decide +kernel, rfl⟩
  obtain ⟨⟨pool, index, found, place, -, same, strings⟩, -⟩ := read_text formed short passes
  obtain rfl : index = 2 := UInt16.toNat_inj.1 place
  refine ⟨pool, found, same.2 survives, ?_⟩
  rw [strings 1 rfl, mergeText_eq_iff.2 survives]

/-- A character of plane 2, as a text. -/
def evenPlane : String := String.ofList [Char.ofNat 0x20000]

/-- The character at the same place of plane 1, as a text. -/
def oddPlane : String := String.ofList [Char.ofNat 0x10000]

/-- The two texts are written differently and become the same constant. -/
theorem not_found_evenPlane :
    ModifiedUtf8.encode evenPlane = [0xED, 0xA1, 0x80, 0xED, 0xB0, 0x80] ∧
    ModifiedUtf8.encode oddPlane = [0xED, 0xA0, 0x80, 0xED, 0xB0, 0x80] ∧
    evenPlane ≠ oddPlane ∧
    ∃ outcome ∈ (read (Cursor.ofBytes ([0, 3, 1, 0, 6] ++ ModifiedUtf8.encode evenPlane ++
        [1, 0, 6] ++ ModifiedUtf8.encode oddPlane))).result.toOption,
      outcome.1.utf8 1 = .ok oddPlane ∧ outcome.1.utf8 2 = .ok oddPlane := by
  decide +kernel

end ConstantPool

end ClassLowering
