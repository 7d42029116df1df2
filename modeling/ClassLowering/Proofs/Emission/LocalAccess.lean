import ClassLowering.Proofs.ArgumentLayout
import ClassLowering.Proofs.Emission.Steps
import ClassLowering.Proofs.Storage.Answers

/-! # Accesses to parameters and variables

Every instruction of a body that loads or stores comes from an instruction of the source that
accesses a slot, and the slot decides where the value is kept (`Access.KeptIn`): a parameter that
the method has, or a variable that the body declares and whose type holds values of the kind that
the instruction is for (`lowerBody_accesses`). -/

namespace ClassLowering

open Bytecode (Instruction)
open Target (Body Local)

namespace LocalStorage

/-- The place where a value is kept is right for an access in a method with the table and the
arguments. -/
structure Access.KeptIn (scope : Scope) (rows : List LocalVariable) (hasThis : Bool)
    (parameters : List FieldType) (locals : List Local) (access : Access) (place : Place) :
    Prop where
  /-- A parameter is one that the method has, and the one at the slot. -/
  parameter : ∀ index, place = .parameter index →
    index.toNat < receiverWidth hasThis + parameters.length ∧
      (argumentSlots parameters hasThis)[access.slot]? = some (some index)
  /-- A variable is declared with a type for the kind of values. It is that of the only row that
  covers the access and has its type, or no row covers the access and it is labelled with the
  slot. -/
  localVariable : ∀ index, place = .localVariable index →
    argumentWidth hasThis parameters ≤ access.slot ∧
      ∃ declared, locals[index.toNat]? = some declared ∧
        declared.sig.kind? = some access.kind ∧
        ((∃ row type, access.rowsIn rows = [row] ∧
            FieldType.ofDescriptor? row.descriptor = some type ∧
            scope.fieldSig type = .ok declared.sig) ∨
          access.rowsIn rows = [] ∧ declared.slot.toNat = access.slot ∧ declared.name = none)

/-- Parameters are counted from `start` on. -/
theorem lt_of_mem_parameterSlots {start : Nat} {parameters : List FieldType} {index : UInt16}
    (listed : some index ∈ parameterSlots start parameters) :
    index.toNat < start + parameters.length := by
  induction parameters generalizing start with
  | nil => cases listed
  | cons type parameters induction =>
    rw [List.length_cons]
    rw [parameterSlots, List.cons_append, List.mem_cons, List.mem_append] at listed
    rcases listed with same | upper | later
    · injection same with same
      have small : start.toUInt16.toNat ≤ start := by
        rw [Nat.toUInt16_eq, UInt16.toNat_ofNat']
        exact Nat.mod_le _ _
      rw [same]
      omega
    · split at upper
      · cases List.mem_singleton.1 upper
      · cases upper
    · have bound := induction later
      omega

/-- The argument slots name parameters that the method has. -/
theorem lt_of_mem_argumentSlots {parameters : List FieldType} {hasThis : Bool} {index : UInt16}
    (listed : some index ∈ argumentSlots parameters hasThis) :
    index.toNat < receiverWidth hasThis + parameters.length := by
  cases hasThis with
  | false => exact lt_of_mem_parameterSlots listed
  | true =>
    rcases List.mem_cons.1 listed with same | listed
    · cases same
      exact Nat.lt_of_lt_of_le Nat.zero_lt_one (Nat.le_add_right 1 _)
    · exact lt_of_mem_parameterSlots listed

/-- What a storage answers is right for the access. -/
theorem WellBound.keptIn {scope : Scope} {storage : LocalStorage} {rows : List LocalVariable}
    {parameters : List FieldType} {hasThis : Bool} {access : Access} {place : Place}
    (well : storage.WellBound scope)
    (binds : BindsTable rows (argumentSlots parameters hasThis) storage)
    (small : access.slot < 65536) (settles : storage.Settles access (.ok place)) :
    access.KeptIn scope rows hasThis parameters storage.locals place := by
  have wide (outside : storage.arguments[access.slot]? = none) :
      argumentWidth hasThis parameters ≤ access.slot :=
    argumentSlots_length parameters hasThis ▸ binds.outside_iff.1 outside
  -- an argument, the one row that covers the access, or a synthetic variable where none does
  cases settles with
  | @parameter index argument =>
    rw [binds.sameArguments] at argument
    refine ⟨?_, fun _ same => by cases same⟩
    rintro _ ⟨⟩
    exact ⟨lt_of_mem_argumentSlots (List.mem_of_getElem? argument), argument⟩
  | @row bound outside covered =>
    have only : access.rowsIn rows = [bound.row] := by
      rw [← well.map_covering binds outside, covered, List.map_singleton]
    obtain ⟨listed, -, kinds, -⟩ := well.mem_covering.1 (covered ▸ List.mem_singleton_self bound)
    obtain ⟨type, typed, -, declared, found, -, lowered⟩ := well.rows bound listed
    rw [typed, Option.map_some] at kinds
    refine ⟨fun _ same => (by cases same), ?_⟩
    rintro _ ⟨⟩
    exact ⟨wide outside, declared, found, (Scope.kind?_of_fieldSig lowered).trans kinds,
      .inl ⟨bound.row, type, only, typed, lowered⟩⟩
  | synthetic outside uncovered listed slot kind =>
    have none := (well.rowsIn_eq_nil_iff binds outside).2 uncovered
    refine ⟨fun _ same => (by cases same), ?_⟩
    rintro _ ⟨⟩
    refine ⟨wide outside, _, well.synthetic _ listed, ?_, .inr ⟨none, ?_, rfl⟩⟩
    · rw [kind?_kindSig well.object, kind]
    · dsimp only
      rw [slot, Nat.toUInt16_eq, UInt16.toNat_ofNat_of_lt' small]

end LocalStorage

/-! ## Bodies -/

/-- Every target instruction of a contribution that accesses a place does so for an access of the
source instruction. -/
theorem Contributes.exists_access {storage : LocalStorage} {instruction : Instruction}
    {next : UInt32} {contribution : Contribution}
    (contributes : Contributes storage instruction next contribution) :
    ∀ target ∈ contribution.targets, ∀ place,
      (target.loadedPlace? = some place → ∃ access, instruction.loadAccess? = some access ∧
        storage.Settles access (.ok place)) ∧
      (target.storedPlace? = some place → ∃ access, instruction.storeAccess? next = some access ∧
        storage.Settles access (.ok place)) := by
  cases contributes with
  | branch | unmapped => exact fun _ listed => absurd listed List.not_mem_nil
  | placeless _ _ placeless =>
    intro target listed place
    obtain ⟨noLoad, noStore⟩ := placeless target listed
    rw [noLoad, noStore]
    exact ⟨nofun, nofun⟩
  | load _ reads settles =>
    intro target listed place
    obtain rfl := List.mem_singleton.1 listed
    simp only [Place.loadedPlace?_load, Place.storedPlace?_load]
    exact ⟨fun same => by cases same; exact ⟨_, reads, settles⟩, nofun⟩
  | store _ writes settles =>
    intro target listed place
    obtain rfl := List.mem_singleton.1 listed
    simp only [Place.loadedPlace?_store, Place.storedPlace?_store]
    exact ⟨nofun, fun same => by cases same; exact ⟨_, writes, settles⟩⟩
  | @increment constant loadAccess storeAccess loaded stored _ reads loads writes stores =>
    intro target listed place
    simp only [Contribution.targets, List.mem_cons, List.not_mem_nil, or_false] at listed
    -- a load, a constant, a sum and a store; only the first and the last have a place
    rcases listed with rfl | rfl | rfl | rfl
    · simp only [Place.loadedPlace?_load, Place.storedPlace?_load]
      exact ⟨fun same => by cases same; exact ⟨_, reads, loads⟩, nofun⟩
    · exact ⟨nofun, nofun⟩
    · exact ⟨nofun, nofun⟩
    · simp only [Place.loadedPlace?_store, Place.storedPlace?_store]
      exact ⟨nofun, fun same => by cases same; exact ⟨_, writes, stores⟩⟩

/-- Every element on the right of a pointwise relation has one on the left. -/
theorem exists_of_forall₂ {α β : Type} {relation : α → β → Prop} {left : List α} {right : List β}
    (related : List.Forall₂ relation left right) {value : β} (listed : value ∈ right) :
    ∃ source ∈ left, relation source value := by
  obtain ⟨place, inside, rfl⟩ := List.mem_iff_getElem.1 listed
  have bound : place < left.length := related.length_eq ▸ inside
  exact ⟨left[place], List.getElem_mem bound, related.get bound inside⟩

/-- Accesses to parameters and variables are in bounds and have the right types. Every
instruction of the body of a method of a parsed class comes from the one source instruction at
its offset; if it loads or stores, then so does the source instruction, and the slot of the
access decides about the place: a parameter that the method has, or a variable that the body
declares for the kind of values. -/
theorem lowerBody_accesses {scope : Scope} {bytes : List UInt8} {file : ClassFile} {method : Member}
    {frame : CodeFrame} {nested : List Attribute} {body : Body}
    (parsed : (ClassFile.parse bytes).result = .ok file) (declared : method ∈ file.methods)
    (coded : .code frame nested ∈ method.attributes)
    (lowered : (lowerBody scope file.pool method ⟨frame, nested⟩).result = .ok body)
    (few : body.locals.length ≤ 65536) :
    ∃ type, MethodType.ofDescriptor? method.descriptor = some type ∧
      ∀ entry ∈ body.instructions, ∃ source next,
        (source, next) ∈ withNext frame.codeLength frame.instructions ∧
        source.offset = entry.1 ∧
        (∀ other ∈ frame.instructions, other.offset = entry.1 → other = source) ∧
        ∀ place,
          (entry.2.loadedPlace? = some place → ∃ access, source.loadAccess? = some access ∧
            access.KeptIn scope (Attribute.localVariables nested) (!method.flags.isStatic)
              type.parameters body.locals place) ∧
          (entry.2.storedPlace? = some place → ∃ access, source.storeAccess? next = some access ∧
            access.KeptIn scope (Attribute.localVariables nested) (!method.flags.isStatic)
              type.parameters body.locals place) := by
  have formed := ClassFile.wellFormed_of_parse parsed declared coded
  obtain ⟨type, storage, contributions, later, typed, tabled, emitted, locals, instructions, -⟩ :=
    lowerBody_parts lowered
  obtain ⟨leads, contribute⟩ := lowerInstructions_spec
    (fun pair listed => formed.shaped pair.1 (mem_of_mem_withNext listed)) emitted
  -- the storage that is left in the end is well bound and binds the table of the method
  obtain ⟨sameArguments, bound, well⟩ := LocalStorage.ofTable_spec tabled
  rw [locals] at few
  have lastWell : later.WellBound scope :=
    leads.wellBound (well (Nat.le_trans leads.toExtends.locals.length_le few)) few
  have binds := LocalStorage.BindsTable.extend ⟨sameArguments, bound⟩ leads.toExtends
  rw [instructions, locals]
  refine ⟨type, typed, fun entry listed => ?_⟩
  obtain ⟨part, given, offset, target⟩ := mem_collectInstructions.1 listed
  obtain ⟨⟨source, next⟩, pair, same, contributes⟩ := exists_of_forall₂ contribute given
  have here : source.offset = entry.1 := same.symm.trans offset
  refine ⟨source, next, pair, here, fun other otherListed otherHere => ?_, fun place => ?_⟩
  · exact formed.eq_of_offset otherListed (mem_of_mem_withNext pair) (otherHere.trans here.symm)
  · obtain ⟨loads, stores⟩ := contributes.exists_access entry.2 target place
    have shaped := formed.shaped source (mem_of_mem_withNext pair)
    constructor
    · intro loaded
      obtain ⟨access, reads, settles⟩ := loads loaded
      exact ⟨access, reads, lastWell.keptIn binds (shaped.slot_lt next (.inl reads)) settles⟩
    · intro stored
      obtain ⟨access, writes, settles⟩ := stores stored
      exact ⟨access, writes, lastWell.keptIn binds (shaped.slot_lt next (.inr writes)) settles⟩

/-- A class whose only method is static and has descriptor `(J)I`. It stores its argument into slot
2, a float into slot 3 and then an integer into slot 2, which it increments and returns. The table
of its variables has a long and then an integer in slot 2, and none in slot 3. -/
def reusingClass : List UInt8 :=
  [0xCA, 0xFE, 0xBA, 0xBE, 0, 0, 0, 52,
    -- the pool: `A` as a text and a class, `f`, `(J)I`, `Code`, `LocalVariableTable`, `J` and `I`
    0, 9, 1, 0, 1, 65, 7, 0, 1, 1, 0, 1, 102, 1, 0, 4, 40, 74, 41, 73, 1, 0, 4, 67, 111, 100, 101,
    1, 0, 18, 76, 111, 99, 97, 108, 86, 97, 114, 105, 97, 98, 108, 101, 84, 97, 98, 108, 101,
    1, 0, 1, 74, 1, 0, 1, 73,
    0, 0x21, 0, 2, 0, 0, 0, 0, 0, 0,
    -- the method and its code
    0, 1, 0, 9, 0, 3, 0, 4, 0, 1, 0, 5, 0, 0, 0, 51, 0, 2, 0, 4, 0, 0, 0, 11,
    0x1E, 0x41, 0x0B, 0x46, 0x04, 0x3D, 0x84, 2, 5, 0x1C, 0xAC,
    0, 0, 0, 1, 0, 6, 0, 0, 0, 22, 0, 2, 0, 2, 0, 4, 0, 3, 0, 7, 0, 2, 0, 6, 0, 5, 0, 3, 0, 8, 0, 2,
    0, 0]

/-- The body of the method has a variable for each row, and one more. -/
theorem reusingClass_spec :
    ∃ file ∈ (ClassFile.parse reusingClass).result.toOption,
      ∃ method ∈ file.methods, ∃ code ∈ Attribute.code? method.attributes,
        ⟨.intInc, 6, .twoValue 2 5, false⟩ ∈ code.instructions ∧
        ∃ body ∈ (lowerBody ⟨Catalog.standard, .empty "M"⟩ file.pool method code).result.toOption,
          body.locals = [⟨2, some "f", .i64⟩, ⟨3, some "f", .i32⟩, ⟨3, none, .f32⟩] ∧
          body.instructions =
            [(0, .ldarg 0), (1, .stloc 0), (2, .ldcR4 0), (3, .stloc 2), (4, .ldcI4 1),
              (5, .stloc 1), (6, .ldloc 1), (6, .ldcI4 5), (6, .arith .add), (6, .stloc 1),
              (9, .ldloc 1), (10, .ret)] := by
  decide +kernel

/-- An integer is stored into the second variable of a slot that held a long. -/
theorem lowerBody_accesses_reusing :
    ∃ file method code body,
      (ClassFile.parse reusingClass).result = .ok file ∧ method ∈ file.methods ∧
      Attribute.code? method.attributes = some code ∧
      (lowerBody ⟨Catalog.standard, .empty "M"⟩ file.pool method code).result = .ok body ∧
      body.locals.length = 3 ∧ (6, .stloc 1) ∈ body.instructions ∧
      ∃ declared, body.locals[1]? = some declared ∧ declared.sig.kind? = some .int := by
  obtain ⟨file, parsed, method, declared, code, coded, listed, body, lowered, locals,
    instructions⟩ := reusingClass_spec
  have parsed := Except.eq_ok_of_mem_toOption parsed
  have lowered := Except.eq_ok_of_mem_toOption lowered
  have size : body.locals.length = 3 := by rw [locals]; rfl
  have emitted : (6, .stloc 1) ∈ body.instructions := by rw [instructions]; decide
  refine ⟨file, method, code, body, parsed, declared, coded, lowered, size, emitted, ?_⟩
  obtain ⟨type, -, accesses⟩ := lowerBody_accesses parsed declared (Attribute.mem_of_code? coded)
    lowered (by omega)
  obtain ⟨source, next, -, -, only, places⟩ := accesses _ emitted
  obtain rfl := only _ listed rfl
  obtain ⟨access, writes, kept⟩ := (places (.localVariable 1)).2 rfl
  cases writes
  obtain ⟨-, stored, found, kind, -⟩ := kept.localVariable 1 rfl
  exact ⟨stored, found, kind⟩

end ClassLowering
