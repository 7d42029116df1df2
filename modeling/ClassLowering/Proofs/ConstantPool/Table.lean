import ClassLowering.Proofs.ConstantPool.Kinds

/-! # The table behind a pool

A pool is kept in a table that is filled and then changed in place. Its first entry is absent, and a
string constant is an index there until the pass over all entries has come to it and put its text in
its place. Then all references are checked.

`PoolTable` is this table, with the accessors as they see it: an entry may be absent at any index,
and every accessor may meet a string constant without its text. The passes give the table of the
pool that `ConstantPool.ofRaw` gives and fail where it fails (`PoolTable.build_eq`). Entries that
are changed hold no texts before and after the change, so it does not matter how far the pass has
come (`PoolTable.utf8_congr`). -/

namespace ClassLowering

open RawConstant (plain stringRef)

/-- The entries of a pool, from index 0 on. -/
structure PoolTable where
  entries : List (Option RawConstant)

namespace PoolTable

/-! ## Accessors -/

/-- The number of entries, in 16 bits. -/
def size (table : PoolTable) : UInt16 := table.entries.length.toUInt16

/-- The entry at an index, which may be absent. -/
def get (table : PoolTable) (index : UInt16) : Except Error (Option RawConstant) :=
  match table.entries[index.toNat]? with
  | some entry => .ok entry
  | none => .error (.format (.badIndex index table.size.toNat))

/-- The constant at an index where there has to be one. -/
def required (table : PoolTable) (index : UInt16) : Except Error RawConstant :=
  if index = 0 then
    .error (.format .absentConstant)
  else do
    match ← table.get index with
    | some constant => return constant
    | none => ConstantPool.refuse index .constant

/-- The text at an index. -/
def utf8 (table : PoolTable) (index : UInt16) : Except Error String := do
  match ← table.required index with
  | plain (.utf8 text) => return text
  | _ => ConstantPool.refuse index .utf8

/-- The name of the class at an index. -/
def className (table : PoolTable) (index : UInt16) : Except Error String := do
  match ← table.required index with
  | plain (.classRef name) => table.utf8 name
  | _ => ConstantPool.refuse index .classReference

/-- The name of the class at an index; no class at index 0. -/
def className? (table : PoolTable) (index : UInt16) : Except Error (Option String) :=
  if index = 0 then .ok none else some <$> table.className index

/-- The name and the descriptor at an index. -/
def nameAndType (table : PoolTable) (index : UInt16) : Except Error (String × String) := do
  match ← table.required index with
  | plain (.nameAndType name descriptor) => return (← table.utf8 name, ← table.utf8 descriptor)
  | _ => ConstantPool.refuse index .nameAndType

/-- The member that the constant at an index refers to. -/
def member (table : PoolTable) (index : UInt16) : Except Error MemberReference := do
  match ← table.required index with
  | plain (.fieldRef owner pair) | plain (.methodRef owner pair)
  | plain (.interfaceMethodRef owner pair) =>
    let (name, descriptor) ← table.nameAndType pair
    return ⟨← table.className owner, name, descriptor⟩
  | _ => ConstantPool.refuse index .member

/-! ## Passes -/

/-- Puts the text of a string constant in its place, if there is one at the index. -/
def resolveAt (table : PoolTable) (index : Nat) : Except Error PoolTable :=
  match table.entries[index]? with
  | some (some (stringRef target)) => do
    let text ← table.utf8 target
    return ⟨table.entries.set index (some (plain (.string text)))⟩
  | _ => .ok table

/-- Puts texts in the places of string constants, index by index. -/
def resolveStrings (table : PoolTable) : Except Error PoolTable :=
  (List.range' 1 (table.entries.length - 1)).foldlM resolveAt table

/-- Checks the references of one constant. -/
def check (table : PoolTable) : RawConstant → Except Error Unit
  | plain (.classRef name) | plain (.methodType name) | plain (.moduleRef name)
  | plain (.packageRef name) => discard (table.utf8 name)
  | plain (.nameAndType name descriptor) => do
    discard (table.utf8 name)
    discard (table.utf8 descriptor)
  | plain (.fieldRef owner pair) | plain (.methodRef owner pair)
  | plain (.interfaceMethodRef owner pair) => do
    discard (table.className owner)
    discard (table.nameAndType pair)
  | plain (.methodHandle _ reference) => discard (table.required reference)
  | plain (.dynamic _ pair) | plain (.invokeDynamic _ pair) => discard (table.nameAndType pair)
  | _ => pure ()

/-- Checks the references of all entries that are not absent. -/
def validate (table : PoolTable) : Except Error Unit :=
  (table.entries.filterMap id).forM table.check

/-- The table of constants as they stand in the file, behind the absent one. -/
def ofRaw (raw : List RawConstant) : PoolTable := ⟨none :: raw.map some⟩

/-- Fills the table and makes both passes over it. -/
def build (raw : List RawConstant) : Except Error PoolTable := do
  let table ← (ofRaw raw).resolveStrings
  table.validate
  return table

/-- The table of a pool. -/
def ofPool (pool : ConstantPool) : PoolTable := ofRaw (pool.constants.toList.map plain)

/-! ## Tables without absent entries -/

section

variable {raw : List RawConstant} (few : raw.length < 65535)

include few

/-- The size of a table is not cut off to 16 bits if there are not more indices. -/
theorem toNat_size_ofRaw : (ofRaw raw).size.toNat = raw.length + 1 := by
  rw [size, ofRaw, List.length_cons, List.length_map, Nat.toUInt16_eq]
  exact UInt16.toNat_ofNat_of_lt' (show raw.length + 1 < 65536 by omega)

/-- A table is looked up from index 1 on. -/
theorem get_ofRaw (index : UInt16) :
    (ofRaw raw).get index =
      if index = 0 then .ok none else some <$> lookupIndex raw.toArray index := by
  unfold get lookupIndex
  rw [toNat_size_ofRaw few]
  by_cases absent : index = 0
  · rw [if_pos absent, absent]
    rfl
  · rw [if_neg absent, if_neg absent]
    obtain ⟨place, behind⟩ := Nat.exists_eq_succ_of_ne_zero fun zero =>
      absent (UInt16.toNat_inj.1 zero)
    rw [behind, ofRaw, List.getElem?_cons_succ, List.getElem?_map, Nat.succ_sub_one,
      List.getElem?_toArray, List.size_toArray]
    cases raw[place]? <;> rfl

/-- No entry that has to be there is absent. -/
theorem required_ofRaw (index : UInt16) :
    (ofRaw raw).required index = lookupIndex raw.toArray index := by
  rw [required, get_ofRaw few]
  by_cases absent : index = 0
  · rw [if_pos absent, lookupIndex, if_pos absent]
  · rw [if_neg absent, if_neg absent]
    cases lookupIndex raw.toArray index <;> rfl

end

/-! ## The table of a pool -/

section

variable {pool : ConstantPool} (small : pool.size < 65536) (index : UInt16)

include small

omit index in
/-- There are enough indices for the constants of a pool. -/
theorem length_constants_lt : (pool.constants.toList.map plain).length < 65535 := by
  rw [ConstantPool.size] at small
  rw [List.length_map, Array.length_toList]
  omega

omit small in
/-- Looking constants up in the table is looking them up in the pool. -/
theorem lookupIndex_plain :
    lookupIndex (pool.constants.toList.map plain).toArray index =
      plain <$> pool.required index := by
  rw [ConstantPool.required, lookupIndex, lookupIndex]
  split
  · rfl
  · rw [List.getElem?_toArray, List.getElem?_map, Array.getElem?_toList, List.size_toArray,
      List.length_map, Array.length_toList]
    cases pool.constants[index.toNat - 1]? <;> rfl

/-- The entries of a pool's table are its constants, behind the absent one. -/
theorem get_ofPool : (ofPool pool).get index = Option.map plain <$> pool.get index := by
  rw [ofPool, get_ofRaw (length_constants_lt small), lookupIndex_plain, ConstantPool.get]
  split
  · rfl
  · rw [ConstantPool.required]
    cases lookupIndex pool.constants index <;> rfl

/-- A constant that has to be in the table is one of the pool. -/
theorem required_ofPool : (ofPool pool).required index = plain <$> pool.required index := by
  rw [ofPool, required_ofRaw (length_constants_lt small), lookupIndex_plain]

/-- The table and the pool agree about texts. -/
theorem utf8_ofPool : (ofPool pool).utf8 index = pool.utf8 index := by
  rw [utf8, ConstantPool.utf8, required_ofPool small]
  cases pool.required index with
  | error failure => rfl
  | ok constant => cases constant <;> rfl

/-- The table and the pool agree about names of classes. -/
theorem className_ofPool : (ofPool pool).className index = pool.className index := by
  rw [className, ConstantPool.className, required_ofPool small]
  cases pool.required index with
  | error failure => rfl
  | ok constant =>
    cases constant with
    | classRef name => exact utf8_ofPool small name
    | _ => rfl

/-- The table and the pool agree about names with types. -/
theorem nameAndType_ofPool : (ofPool pool).nameAndType index = pool.nameAndType index := by
  rw [nameAndType, ConstantPool.nameAndType, required_ofPool small]
  simp only [utf8_ofPool small]
  cases pool.required index with
  | error failure => rfl
  | ok constant => cases constant <;> rfl

/-- The table and the pool agree about members. -/
theorem member_ofPool : (ofPool pool).member index = pool.member index := by
  rw [member, ConstantPool.member, required_ofPool small]
  simp only [className_ofPool small, nameAndType_ofPool small]
  cases pool.required index with
  | error failure => rfl
  | ok constant => cases constant <;> rfl

/-- The table and the pool agree about classes that may be missing. -/
theorem className?_ofPool : (ofPool pool).className? index = pool.className? index := by
  rw [className?, ConstantPool.className?, className_ofPool small]

omit index in
/-- The table and the pool check the same references of a constant. -/
theorem check_ofPool (constant : Constant) :
    (ofPool pool).check (plain constant) = pool.check constant := by
  cases constant with
  | methodHandle kind reference =>
    rw [check, ConstantPool.check, required_ofPool small]
    cases pool.required reference <;> rfl
  | _ =>
    simp only [check, ConstantPool.check, utf8_ofPool small, className_ofPool small,
      nameAndType_ofPool small]

omit index in
/-- The check of the table is that of the pool's constants, one by one. -/
theorem validate_ofPool : (ofPool pool).validate = pool.constants.toList.forM pool.check := by
  have present : (ofPool pool).entries.filterMap id = pool.constants.toList.map plain := by
    simp [ofPool, ofRaw, List.filterMap_map]
  rw [validate, present, List.forM_eq_forM, List.forM_map]
  simp only [check_ofPool small]
  rfl

end

/-! ## The pass over string constants -/

/-- The text of a text constant. -/
def text? : RawConstant → Option String
  | plain (.utf8 text) => some text
  | _ => none

/-- A constant that is put in another one's place is a text exactly if that one is. -/
theorem text?_of_resolve {table : Array RawConstant} {entry : RawConstant} {constant : Constant}
    (resolved : entry.resolve table = .ok constant) : text? (plain constant) = text? entry := by
  cases entry with
  | plain constant =>
    cases resolved
    rfl
  | stringRef target =>
    obtain ⟨text, -, rfl⟩ := RawConstant.resolve_stringRef_eq_ok.1 resolved
    rfl

/-- Resolving constants changes no text and makes none. -/
theorem map_text?_of_mapM {table : Array RawConstant} {done : List RawConstant}
    {front : List Constant} (resolved : done.mapM (RawConstant.resolve table) = .ok front) :
    (front.map plain).map text? = done.map text? := by
  have pairs := Except.mapM_eq_ok.1 resolved
  clear resolved
  induction done generalizing front with
  | nil =>
    cases front with
    | nil => rfl
    | cons constant front => cases pairs
  | cons entry done rest =>
    cases front with
    | nil => cases pairs
    | cons constant front =>
      obtain ⟨first, others⟩ := List.cons.inj pairs
      exact congrArg₂ List.cons (text?_of_resolve first) (rest others)

/-- Asking for a text asks a constant for its text. -/
theorem utf8_ofRaw {raw : List RawConstant} (few : raw.length < 65535) (index : UInt16) :
    (ofRaw raw).utf8 index =
      lookupIndex raw.toArray index >>= fun entry =>
        match text? entry with
        | some text => .ok text
        | none => ConstantPool.refuse index .utf8 := by
  rw [utf8, required_ofRaw few]
  cases lookupIndex raw.toArray index with
  | error failure => rfl
  | ok entry =>
    cases entry with
    | stringRef => rfl
    | plain constant => cases constant <;> rfl

/-- Texts are the same in tables that have the same texts, whatever else they have. -/
theorem utf8_congr {raw other : List RawConstant} (few : raw.length < 65535)
    (same : other.map text? = raw.map text?) (index : UInt16) :
    (ofRaw other).utf8 index = (ofRaw raw).utf8 index := by
  have length : other.length = raw.length := by
    simpa using congrArg List.length same
  have texts : other[index.toNat - 1]?.map text? = raw[index.toNat - 1]?.map text? := by
    rw [← List.getElem?_map, same, List.getElem?_map]
  rw [utf8_ofRaw few, utf8_ofRaw (length ▸ few), lookupIndex, lookupIndex, List.getElem?_toArray,
    List.getElem?_toArray, List.size_toArray, List.size_toArray, length]
  split
  · rfl
  -- at an index that is not 0 both tables end, or have entries with the same text
  · cases there : raw[index.toNat - 1]? with
    | none =>
      rw [there] at texts
      rw [Option.map_eq_none_iff.1 texts]
    | some entry =>
      rw [there] at texts
      obtain ⟨_, here, text⟩ := Option.map_eq_some_iff.1 texts
      rw [here]
      change (match text? _ with | some text => _ | none => _) = _
      rw [text]
      rfl

/-- A string constant is resolved with the text that the table has for it. -/
theorem resolve_stringRef {raw : List RawConstant} (few : raw.length < 65535) (target : UInt16) :
    RawConstant.resolve raw.toArray (stringRef target) =
      Constant.string <$> (ofRaw raw).utf8 target := by
  rw [RawConstant.resolve, utf8_ofRaw few]
  cases lookupIndex raw.toArray target with
  | error failure => rfl
  | ok entry =>
    cases entry with
    | stringRef => rfl
    | plain constant => cases constant <;> rfl

/-- The entry behind a front part of the table. -/
theorem getElem?_entries (front : List RawConstant) (entry : RawConstant)
    (rest : List RawConstant) :
    (ofRaw (front ++ entry :: rest)).entries[front.length + 1]? = some (some entry) := by
  simp [ofRaw]

/-- Changing the entry behind a front part of the table changes nothing else. -/
theorem set_entries (front : List RawConstant) (entry other : RawConstant)
    (rest : List RawConstant) :
    (ofRaw (front ++ entry :: rest)).entries.set (front.length + 1) (some other) =
      (ofRaw (front ++ other :: rest)).entries := by
  simp [ofRaw]

/-- One step of the pass: what is put in an entry's place is what the entry is resolved to in the
table that the pass has started from. -/
theorem resolveAt_eq {done rest : List RawConstant} {front : List Constant} {entry : RawConstant}
    (few : (done ++ entry :: rest).length < 65535)
    (resolved : done.mapM (RawConstant.resolve (done ++ entry :: rest).toArray) = .ok front) :
    (ofRaw (front.map plain ++ entry :: rest)).resolveAt (done.length + 1) =
      (fun constant => ofRaw (front.map plain ++ plain constant :: rest)) <$>
        entry.resolve (done ++ entry :: rest).toArray := by
  have length : (front.map plain).length = done.length := by
    rw [List.length_map, Except.length_mapM resolved]
  rw [resolveAt, ← length, getElem?_entries]
  cases entry with
  | plain constant => rfl
  | stringRef target =>
    -- the front is resolved already, but it has the texts that it had before
    have texts : (front.map plain ++ stringRef target :: rest).map text? =
        (done ++ stringRef target :: rest).map text? := by
      rw [List.map_append, List.map_append, map_text?_of_mapM resolved]
    dsimp only
    rw [utf8_congr few texts, resolve_stringRef few]
    cases (ofRaw (done ++ stringRef target :: rest)).utf8 target with
    | error failure => rfl
    | ok text => exact congrArg (Except.ok ∘ PoolTable.mk) (set_entries ..)

/-- The whole pass, from where a front part of the table is resolved. -/
theorem foldlM_resolveAt {done rest : List RawConstant} {front : List Constant}
    (few : (done ++ rest).length < 65535)
    (resolved : done.mapM (RawConstant.resolve (done ++ rest).toArray) = .ok front) :
    (List.range' (done.length + 1) rest.length).foldlM resolveAt (ofRaw (front.map plain ++ rest)) =
      (fun behind => ofRaw ((front ++ behind).map plain)) <$>
        rest.mapM (RawConstant.resolve (done ++ rest).toArray) := by
  induction rest generalizing done front with
  | nil =>
    rw [List.append_nil, List.mapM_nil]
    change _ = Except.ok (ofRaw _)
    rw [List.append_nil]
    rfl
  | cons entry rest next =>
    rw [List.length_cons, List.range'_succ, List.foldlM_cons, resolveAt_eq few resolved,
      List.mapM_cons]
    cases one : entry.resolve (done ++ entry :: rest).toArray with
    | error failure => rfl
    | ok constant =>
      -- the entry is resolved, so the front is longer by one constant and the rest is shorter
      have longer : (done ++ [entry]).mapM (RawConstant.resolve (done ++ entry :: rest).toArray) =
          .ok (front ++ [constant]) := by
        rw [List.mapM_append, resolved, List.mapM_cons, one]
        rfl
      have whole : done ++ entry :: rest = (done ++ [entry]) ++ rest := List.append_cons ..
      rw [whole] at few longer ⊢
      have step := next few longer
      rw [List.map_append, List.append_assoc, List.length_append] at step
      change (List.range' _ _).foldlM resolveAt
        (ofRaw (front.map plain ++ plain constant :: rest)) = _
      refine step.trans ?_
      cases rest.mapM (RawConstant.resolve (done ++ [entry] ++ rest).toArray) with
      | error failure => rfl
      | ok behind =>
        exact congrArg (fun all => Except.ok (ofRaw (all.map plain))) (List.append_cons ..).symm

/-- The pass over string constants resolves every entry in the table that it starts from. -/
theorem resolveStrings_ofRaw {raw : List RawConstant} (few : raw.length < 65535) :
    (ofRaw raw).resolveStrings =
      (fun constants => ofRaw (constants.map plain)) <$>
        raw.mapM (RawConstant.resolve raw.toArray) := by
  have length : (ofRaw raw).entries.length - 1 = raw.length := by
    rw [ofRaw, List.length_cons, List.length_map, Nat.add_sub_cancel]
  rw [resolveStrings, length]
  exact @foldlM_resolveAt [] raw [] few rfl

/-- Both passes give the table of the pool, and fail where there is none. -/
theorem build_eq {raw : List RawConstant} (few : raw.length < 65535) :
    build raw = ofPool <$> ConstantPool.ofRaw raw := by
  rw [build, resolveStrings_ofRaw few, ConstantPool.ofRaw]
  cases resolved : raw.mapM (RawConstant.resolve raw.toArray) with
  | error failure => rfl
  | ok constants =>
    have small : (⟨constants.toArray⟩ : ConstantPool).size < 65536 := by
      have length := Except.length_mapM resolved
      rw [ConstantPool.size, List.size_toArray]
      omega
    change (ofPool ⟨constants.toArray⟩).validate >>= (fun _ => _) = _
    rw [validate_ofPool small]
    change (constants.forM _ >>= fun _ => _) = ofPool <$> (constants.forM _ >>= fun _ => _)
    cases constants.forM (ConstantPool.check ⟨constants.toArray⟩) <;> rfl

end PoolTable

end ClassLowering
