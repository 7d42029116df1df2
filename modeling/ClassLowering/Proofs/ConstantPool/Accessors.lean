import ClassLowering.Proofs.ConstantPool.Acceptance
import ClassLowering.Proofs.ConstantPool.Table

/-! # Asking a pool that was read

The accessors of a pool follow references from constant to constant, but in a pool that was read
they can only fail because of the index that they are given (`ConstantPool.Answers`): it is 0, it is
not below the size of the pool, or the constant there is of another kind than the accessor asks for.
This rests on one fact about pools that were read, that all their references hold. -/

namespace ClassLowering

open StoredConstant (encodeBehind pool? table WellFormed)

/-- Results are at the indices of the elements that they are for. -/
theorem Except.entryAt?_mapM {ε α β : Type} {f : α → Except ε β} {items : List α} {results : List β}
    (found : items.mapM f = .ok results) (index : UInt16) :
    (entryAt? items index).map f = (entryAt? results index).map .ok := by
  rw [← entryAt?_map, mapM_eq_ok.1 found, entryAt?_map]

namespace ConstantPool

variable {pool : ConstantPool} {index : UInt16} {kind : ExpectedConstant} {α : Type}

/-! ## What is at an index -/

/-- Index 0, and no other, is that of the absent constant. -/
theorem get_eq_none_iff : pool.get index = .ok none ↔ index = 0 := by
  unfold get
  by_cases absent : index = 0
  · rw [if_pos absent]
    exact ⟨fun _ => absent, fun _ => rfl⟩
  · rw [if_neg absent]
    constructor
    · intro same
      obtain ⟨_, -, same⟩ := Except.map_eq_ok.1 same
      cases same
    · intro same
      exact absurd same absent

/-- A constant is at an index if it is there where there has to be one. -/
theorem get_eq_some_iff {constant : Constant} :
    pool.get index = .ok (some constant) ↔ pool.required index = .ok constant := by
  unfold get required
  by_cases absent : index = 0
  · rw [if_pos absent, lookupIndex, if_pos absent]
    constructor <;> simp
  · rw [if_neg absent, Except.map_eq_ok]
    constructor
    · rintro ⟨_, found, same⟩
      cases same
      exact found
    · intro found
      exact ⟨constant, found, rfl⟩

/-- An index is 0, or past the end of the pool, or there is a constant. -/
theorem required_cases (pool : ConstantPool) (index : UInt16) :
    index = 0 ∧ pool.required index = .error (.format .absentConstant) ∨
      index ≠ 0 ∧ pool.size ≤ index.toNat ∧
        pool.required index = .error (.format (.badIndex index pool.size)) ∨
      index ≠ 0 ∧ index.toNat < pool.size ∧ ∃ constant, pool.required index = .ok constant := by
  unfold required lookupIndex size
  by_cases absent : index = 0
  · exact .inl ⟨absent, if_pos absent⟩
  · have positive : index.toNat ≠ 0 := fun zero => absent (UInt16.toNat_inj.1 zero)
    rw [if_neg absent]
    cases found : pool.constants[index.toNat - 1]? with
    | none =>
      have outside := Array.getElem?_eq_none_iff.1 found
      exact .inr (.inl ⟨absent, by omega, rfl⟩)
    | some constant =>
      obtain ⟨inside, -⟩ := Array.getElem?_eq_some_iff.1 found
      exact .inr (.inr ⟨absent, by omega, constant, rfl⟩)

/-! ## Outcomes that depend on one index -/

/-- The outcome of asking for a constant of some kind at an index is a failure because of that very
index, or there is such a constant and it is a success. -/
structure Answers (pool : ConstantPool) (kind : ExpectedConstant) (index : UInt16)
    (outcome : Except Error α) : Prop where
  absent : outcome = .error (.format .absentConstant) ↔ index = 0
  outside : outcome = .error (.format (.badIndex index pool.size)) ↔ pool.size ≤ index.toNat
  wrong : outcome = .error (.format (.wrongConstant index kind)) ↔
    ∃ constant, pool.get index = .ok (some constant) ∧ constant.kind? ≠ some kind
  found : (∃ value, outcome = .ok value) ↔
    ∃ constant, pool.get index = .ok (some constant) ∧ constant.kind? = some kind
  only : ∀ failure, outcome = .error failure →
    failure ∈ [.format .absentConstant, .format (.badIndex index pool.size),
      .format (.wrongConstant index kind)]

/-- What asks for a kind fails because of its index only, if it succeeds wherever there is a
constant of that kind. -/
theorem AsksFor.answers {outcome : Except Error α} (asks : pool.AsksFor kind index outcome)
    (succeeds : pool.HasKind kind index → ∃ value, outcome = .ok value) :
    pool.Answers kind index outcome := by
  obtain ⟨next, asked, refuses⟩ := asks
  -- the index alone decides unless there is a constant, and then its kind decides
  obtain ⟨rfl, given⟩ | ⟨present, outside, given⟩ | ⟨present, inside, constant, given⟩ :=
    required_cases pool index
  · have fails : outcome = .error (.format .absentConstant) := by
      rw [asked, given]
      rfl
    have size : pool.size ≠ 0 := Nat.succ_ne_zero _
    constructor
    all_goals simp [fails, given, get_eq_some_iff, size]
  · have fails : outcome = .error (.format (.badIndex index pool.size)) := by
      rw [asked, given]
      rfl
    constructor
    all_goals simp [fails, given, get_eq_some_iff, present, outside]
  · by_cases same : constant.kind? = some kind
    · obtain ⟨value, gives⟩ := succeeds ⟨constant, required_eq_ok_iff.1 given, same⟩
      constructor
      all_goals simp [gives, given, get_eq_some_iff, present, inside, same]
    · have fails : outcome = .error (.format (.wrongConstant index kind)) := by
        rw [asked, given]
        exact refuses constant same
      constructor
      all_goals simp [fails, given, get_eq_some_iff, present, inside, same]

/-! ## Pools that were read -/

section

variable {count : UInt16} {constants : List StoredConstant}

/-- The pool has the declared number of indices, and at least that of the absent constant. -/
theorem size_of_pool? (formed : WellFormed count constants) (meant : pool? constants = some pool) :
    pool.size = max 1 count.toNat := by
  have resolved := StoredConstant.mapM_resolve_eq_ok_iff.2 meant
  have size := formed.fills.size
  have length : pool.constants.size = (table constants).length := by
    simpa using Except.length_mapM resolved
  rw [ConstantPool.size, length]
  omega

/-- A string constant has the text that is at the index which it was stored with. -/
theorem get_of_string {target : UInt16} (meant : pool? constants = some pool)
    (stored : entryAt? (table constants) index = some (.string target)) :
    ∃ text, pool.get index = .ok (some (.string text)) ∧ pool.utf8 target = .ok text := by
  have resolved := StoredConstant.mapM_resolve_eq_ok_iff.2 meant
  have entry : entryAt? ((table constants).map StoredConstant.raw) index =
      some (.stringRef target) := by
    rw [entryAt?_map, stored]
    rfl
  -- the entry at the index is resolved from the entry at the target, which is resolved to itself
  have atIndex := Except.entryAt?_mapM resolved index
  rw [entry] at atIndex
  obtain ⟨constant, given, gives⟩ := Option.map_eq_some_iff.1 atIndex.symm
  obtain ⟨text, entryTarget, rfl⟩ := RawConstant.resolve_stringRef_eq_ok.1 gives.symm
  have atTarget := Except.entryAt?_mapM resolved target
  rw [entryTarget] at atTarget
  obtain ⟨constant, givenTarget, givesTarget⟩ := Option.map_eq_some_iff.1 atTarget.symm
  cases givesTarget
  refine ⟨text, get_eq_some_iff.2 (required_of_constantAt? given), utf8_of_textAt? ?_⟩
  rw [textAt?, constantAt?, givenTarget]

/-- Where there has to be some constant, none is of the wrong kind. -/
theorem required_ne_wrongConstant {place : UInt16} :
    pool.required index ≠ .error (.format (.wrongConstant place kind)) := by
  obtain ⟨-, given⟩ | ⟨-, -, given⟩ | ⟨-, -, _, given⟩ := required_cases pool index
  all_goals
    rw [given]
    nofun

end

end ConstantPool

/-! ## The table behind a pool that was read -/

/-- The table is complete: it has the size of a pool, no entry is absent but the first, no string
constant is without its text, and whatever is asked for, the table answers as the pool does. -/
structure PoolTable.Serves (table : PoolTable) (pool : ConstantPool) : Prop where
  length : table.entries.length = pool.size
  size : table.size.toNat = pool.size
  absent : ∀ index, table.get index = .ok none ↔ index = 0
  present : ∀ index place kind,
    table.required index ≠ .error (.format (.wrongConstant place kind))
  resolved : ∀ target, some (.stringRef target) ∉ table.entries
  get : ∀ index, table.get index = Option.map .plain <$> pool.get index
  required : ∀ index, table.required index = .plain <$> pool.required index
  utf8 : ∀ index, table.utf8 index = pool.utf8 index
  className : ∀ index, table.className index = pool.className index
  className? : ∀ index, table.className? index = pool.className? index
  nameAndType : ∀ index, table.nameAndType index = pool.nameAndType index
  member : ∀ index, table.member index = pool.member index

/-- The table of a pool is complete if there are enough indices for it. -/
theorem PoolTable.serves_ofPool {pool : ConstantPool} (small : pool.size < 65536) :
    (ofPool pool).Serves pool where
  length := by
    simp [ofPool, ofRaw, ConstantPool.size]
  size := by
    rw [ofPool, toNat_size_ofRaw (length_constants_lt small), List.length_map, Array.length_toList,
      ConstantPool.size]
  absent index := by
    rw [get_ofPool small, ← @ConstantPool.get_eq_none_iff pool]
    cases pool.get index with
    | error failure => constructor <;> simp
    | ok entry => cases entry <;> simp
  present index place kind := by
    rw [required_ofPool small]
    obtain ⟨-, given⟩ | ⟨-, -, given⟩ | ⟨-, -, _, given⟩ := pool.required_cases index
    all_goals
      rw [given]
      simp
  resolved target := by
    simp [ofPool, ofRaw]
  get := get_ofPool small
  required := required_ofPool small
  utf8 := utf8_ofPool small
  className := className_ofPool small
  className? := className?_ofPool small
  nameAndType := nameAndType_ofPool small
  member := member_ofPool small

namespace ConstantPool

variable {pool : ConstantPool}

/-- The two passes over the constants of a well-formed pool give its table. -/
theorem build_of_pool? {count : UInt16} {constants : List StoredConstant}
    (formed : WellFormed count constants) (meant : pool? constants = some pool) :
    PoolTable.build ((table constants).map StoredConstant.raw) = .ok (PoolTable.ofPool pool) := by
  have few : ((table constants).map StoredConstant.raw).length < 65535 := by
    have filled := formed.fills.size
    have bound := count.toNat_lt
    rw [List.length_map]
    omega
  rw [PoolTable.build_eq few,
    ofRaw_eq_ok_iff.2 ⟨formed.kinded, StoredConstant.mapM_resolve_eq_ok_iff.2 meant⟩]
  rfl

/-- In a pool that was read, of the declared size, only index 0 is absent and every string constant
has the text that it refers to; and asking for a text, a class, a name with its type or a member
fails only because of the index that is asked at. So it is for the table that is filled with the
constants and changed in place by the pass over string constants. -/
theorem answers_of_read {start stop : Cursor} (given : (read start).result = .ok (pool, stop)) :
    (∃ count constants, WellFormed count constants ∧
      start.Passes (encodeBehind count constants) stop ∧
      pool.size = max 1 count.toNat ∧ pool.size < 2 ^ 16 ∧
      (∀ index target, entryAt? (table constants) index = some (.string target) →
        ∃ text, pool.get index = .ok (some (.string text)) ∧ pool.utf8 target = .ok text) ∧
      ∃ stored, PoolTable.build ((table constants).map StoredConstant.raw) = .ok stored ∧
        stored.Serves pool) ∧
    (∀ index, pool.get index = .ok none ↔ index = 0) ∧
    ∀ index,
      pool.Answers .utf8 index (pool.utf8 index) ∧
      pool.Answers .classReference index (pool.className index) ∧
      pool.Answers .nameAndType index (pool.nameAndType index) ∧
      pool.Answers .member index (pool.member index) ∧
      ∀ place kind, pool.required index ≠ .error (.format (.wrongConstant place kind)) := by
  obtain ⟨_, ⟨count, constants, formed, meant, rfl⟩, passes⟩ :=
    (recognizes_read start pool stop).1 given
  have size := size_of_pool? formed meant
  have small : pool.size < 2 ^ 16 := by
    have bound := count.toNat_lt
    omega
  have kinded : pool.WellKinded :=
    (RawConstant.wellKinded_iff (StoredConstant.mapM_resolve_eq_ok_iff.2 meant)).1 formed.kinded
  refine ⟨⟨count, constants, formed, passes, size, small, fun index target => get_of_string meant,
    _, build_of_pool? formed meant, PoolTable.serves_ofPool small⟩, fun index => get_eq_none_iff,
    fun index => ⟨?_, ?_, ?_, ?_, ?_⟩⟩
  · exact asksFor_utf8.answers exists_utf8
  · exact asksFor_className.answers (exists_className kinded)
  · exact asksFor_nameAndType.answers (exists_nameAndType kinded)
  · exact asksFor_member.answers (exists_member kinded)
  · exact fun place kind => required_ne_wrongConstant

/-- A member whose name, type and class are there, and a class that is none. -/
theorem answers_of_read_linked :
    (read (Cursor.ofBytes (encodeBehind 10 linkedConstants))).result =
      .ok (linkedPool, ⟨[], 42, 0⟩) ∧
      linkedPool.Answers .member 7 (linkedPool.member 7) ∧
      linkedPool.member 7 = .ok ⟨"run", "run", "run"⟩ ∧
      linkedPool.Answers .classReference 4 (linkedPool.className 4) ∧
      linkedPool.className 4 = .error (.format (.wrongConstant 4 .classReference)) := by
  have formed : WellFormed 10 linkedConstants := by decide +kernel
  have passes : (Cursor.ofBytes (encodeBehind 10 linkedConstants)).Passes
      (encodeBehind 10 linkedConstants) ⟨[], 42, 0⟩ := ⟨rfl, by decide +kernel, rfl⟩
  obtain ⟨pool, read, meant⟩ := exists_read formed passes
  obtain rfl : linkedPool = pool := Option.some.inj meant
  obtain ⟨-, -, answers⟩ := answers_of_read read
  exact ⟨read, (answers 7).2.2.2.1, rfl, (answers 4).2.1, rfl⟩

end ConstantPool

end ClassLowering
