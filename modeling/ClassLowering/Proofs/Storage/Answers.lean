import Mathlib.Data.List.Forall2
import ClassLowering.Proofs.Storage.Variables

/-! # Answers of a storage

A storage is asked for the places of slots one access after the other, and some answers make new
variables. Still all answers of a run can be told from the table of variables and the argument slots
(`answerAll_unaliased`): which accesses are arguments, which ones fail because rows overlap, and
which ones get the same variable (`Access.SharesVariable`).

All answers of a run are settled in the storage that is left in the end (`answerAll_spec`), so the
comparison of two of them is one about a single storage (`WellBound.place_eq_iff`). -/

namespace ClassLowering

open Bytecode (ValueKind)

namespace LocalStorage

/-! ## What a table says about accesses -/

/-- The row is for the slot of the access, holds its kind of values and is alive at its offset. -/
def Access.CoveredBy (access : Access) (row : LocalVariable) : Prop :=
  row.index.toNat = access.slot ∧
    (FieldType.ofDescriptor? row.descriptor).map FieldType.kind = some access.kind ∧
    row.start.toNat ≤ access.offset.toNat ∧
    access.offset.toNat < row.start.toNat + row.length.toNat

instance (access : Access) (row : LocalVariable) : Decidable (access.CoveredBy row) :=
  inferInstanceAs (Decidable (_ ∧ _))

/-- The rows of a table that cover an access. -/
def Access.rowsIn (rows : List LocalVariable) (access : Access) : List LocalVariable :=
  rows.filter fun row => access.CoveredBy row

/-- The rows of an access are those that cover it. -/
@[simp] theorem Access.mem_rowsIn {rows : List LocalVariable} {access : Access}
    {row : LocalVariable} :
    row ∈ access.rowsIn rows ↔ row ∈ rows ∧ access.CoveredBy row := by
  simp [rowsIn]

/-- The accesses get the same variable, if they get one each. -/
inductive Access.SharesVariable (rows : List LocalVariable) (first second : Access) : Prop where
  /-- No row covers them, and they are to one slot with one kind of values. -/
  | uncovered (one : first.rowsIn rows = []) (other : second.rowsIn rows = [])
      (slots : first.slot = second.slot) (kinds : first.kind = second.kind)
  /-- One row covers both of them. -/
  | row {row : LocalVariable} (listed : row ∈ rows) (one : first.CoveredBy row)
      (other : second.CoveredBy row)
  /-- They are covered by rows of one slot that both have the type of its first row. -/
  | firstType {row otherRow head : LocalVariable} (listed : row ∈ rows)
      (otherListed : otherRow ∈ rows) (one : first.CoveredBy row)
      (other : second.CoveredBy otherRow) (slots : row.index = otherRow.index)
      (known : rows.find? (·.index = row.index) = some head)
      (same : row.descriptor = head.descriptor) (otherSame : otherRow.descriptor = head.descriptor)

/-- An access that a row covers and one that no row covers do not share a variable. -/
theorem Access.SharesVariable.isEmpty_iff {rows : List LocalVariable} {first second : Access}
    (shares : first.SharesVariable rows second) :
    first.rowsIn rows = [] ↔ second.rowsIn rows = [] := by
  have filled {access : Access} {row : LocalVariable} (listed : row ∈ rows)
      (covered : access.CoveredBy row) : access.rowsIn rows ≠ [] :=
    List.ne_nil_of_mem (Access.mem_rowsIn.2 ⟨listed, covered⟩)
  cases shares with
  | uncovered one other => exact ⟨fun _ => other, fun _ => one⟩
  | row listed one other =>
    exact ⟨fun none => absurd none (filled listed one),
      fun none => absurd none (filled listed other)⟩
  | firstType listed otherListed one other =>
    exact ⟨fun none => absurd none (filled listed one),
      fun none => absurd none (filled otherListed other)⟩

/-! ## Storages for a table -/

/-- The storage binds the rows of a table that are not for arguments. -/
structure BindsTable (rows : List LocalVariable) (arguments : List (Option UInt16))
    (storage : LocalStorage) : Prop where
  sameArguments : storage.arguments = arguments
  bound : storage.rows.map BoundRow.row = rows.filter (arguments.length ≤ ·.index.toNat)

variable {scope : Scope} {storage later : LocalStorage} {rows : List LocalVariable}
  {arguments : List (Option UInt16)} {access : Access}

/-- A table that is bound stays bound when variables are added. -/
theorem BindsTable.extend (binds : BindsTable rows arguments storage)
    (more : storage.Extends later) : BindsTable rows arguments later :=
  ⟨more.arguments.trans binds.sameArguments, by rw [more.rows, binds.bound]⟩

/-- The storage knows no argument for the slots behind the arguments. -/
theorem BindsTable.outside_iff (binds : BindsTable rows arguments storage) :
    storage.arguments[access.slot]? = none ↔ arguments.length ≤ access.slot := by
  rw [binds.sameArguments, List.getElem?_eq_none_iff]

/-- A bound row that covers an access is one that the storage finds for it. -/
theorem WellBound.mem_covering (well : storage.WellBound scope) {bound : BoundRow} :
    bound ∈ storage.covering access.slot access.offset access.kind ↔
      bound ∈ storage.rows ∧ access.CoveredBy bound.row := by
  rw [covering, List.mem_filter]
  refine and_congr_right fun listed => ?_
  obtain ⟨type, typed, kind, -⟩ := well.rows bound listed
  simp only [Access.CoveredBy, LocalVariable.inRange, typed, kind, Option.map_some,
    Option.some.injEq, Bool.and_eq_true, decide_eq_true_eq, and_assoc]

/-- Behind the arguments, the rows that the storage finds for an access are those of the table. -/
theorem WellBound.map_covering (well : storage.WellBound scope)
    (binds : BindsTable rows arguments storage)
    (outside : storage.arguments[access.slot]? = none) :
    (storage.covering access.slot access.offset access.kind).map BoundRow.row =
      access.rowsIn rows := by
  have inner : storage.covering access.slot access.offset access.kind =
      storage.rows.filter fun bound => access.CoveredBy bound.row := by
    refine List.filter_congr fun bound listed => ?_
    have same : bound ∈ storage.covering access.slot access.offset access.kind ↔
        bound ∈ storage.rows ∧ access.CoveredBy bound.row := well.mem_covering
    rw [covering, List.mem_filter] at same
    rw [Bool.eq_iff_iff, decide_eq_true_eq]
    exact ⟨fun found => (same.1 ⟨listed, found⟩).2, fun covered => (same.2 ⟨listed, covered⟩).2⟩
  calc (storage.covering access.slot access.offset access.kind).map BoundRow.row
      = (storage.rows.map BoundRow.row).filter fun row => access.CoveredBy row := by
        rw [inner, List.filter_map]
        rfl
    _ = rows.filter fun row =>
          decide (access.CoveredBy row) && decide (arguments.length ≤ row.index.toNat) := by
        rw [binds.bound, List.filter_filter]
    _ = access.rowsIn rows := by
        refine List.filter_congr fun row _ => ?_
        -- a row that covers the access is for its slot, which is no argument
        by_cases covered : access.CoveredBy row
        · have behind : arguments.length ≤ row.index.toNat := by
            rw [covered.1]
            exact binds.outside_iff.1 outside
          simp [covered, behind]
        · simp [covered]

/-- Behind the arguments, the storage finds no row for an access if no row of the table covers
it. -/
theorem WellBound.rowsIn_eq_nil_iff (well : storage.WellBound scope)
    (binds : BindsTable rows arguments storage)
    (outside : storage.arguments[access.slot]? = none) :
    access.rowsIn rows = [] ↔ storage.covering access.slot access.offset access.kind = [] := by
  rw [← well.map_covering binds outside, List.map_eq_nil_iff]

/-- Behind the arguments, the first row that is bound for a slot is the first one of the table. -/
theorem BindsTable.map_head? (binds : BindsTable rows arguments storage) {index : UInt16}
    (outside : arguments.length ≤ index.toNat) :
    (storage.head? index).map BoundRow.row = rows.find? (·.index = index) := by
  have front : (storage.head? index).map BoundRow.row =
      (storage.rows.map BoundRow.row).find? (·.index = index) := by
    rw [List.find?_map]
    rfl
  rw [front, binds.bound, List.find?_filter]
  congr 1
  funext row
  by_cases same : row.index = index
  · simp [same, outside]
  · simp [same]

/-- A row has the first type of its slot if it has the type of the slot's first row in the table. -/
theorem BindsTable.hasFirstType_iff (binds : BindsTable rows arguments storage) {bound : BoundRow}
    (outside : arguments.length ≤ bound.row.index.toNat) :
    storage.HasFirstType bound ↔ ∃ head, rows.find? (·.index = bound.row.index) = some head ∧
      bound.row.descriptor = head.descriptor := by
  rw [← binds.map_head? outside]
  constructor
  · rintro ⟨head, known, same⟩
    exact ⟨head.row, by rw [known, Option.map_some], same.symm⟩
  · rintro ⟨_, known, same⟩
    obtain ⟨head, found, rfl⟩ := Option.map_eq_some_iff.1 known
    exact ⟨head, found, same.symm⟩

/-! ## Two accesses -/

section

variable {first second : Access} {index other : UInt16}

/-- Rows that cover two accesses share a variable if the accesses do. -/
theorem WellBound.shares_iff (well : storage.WellBound scope)
    (binds : BindsTable rows arguments storage) {one two : BoundRow}
    (outside : storage.arguments[first.slot]? = none)
    (otherOutside : storage.arguments[second.slot]? = none)
    (covered : storage.covering first.slot first.offset first.kind = [one])
    (otherCovered : storage.covering second.slot second.offset second.kind = [two]) :
    storage.Shares one two ↔ first.SharesVariable rows second := by
  obtain ⟨oneBound, oneCovers⟩ := well.mem_covering.1 (covered ▸ List.mem_singleton_self one)
  obtain ⟨twoBound, twoCovers⟩ := well.mem_covering.1 (otherCovered ▸ List.mem_singleton_self two)
  have rowsOne := well.map_covering binds outside
  have rowsTwo := well.map_covering binds otherOutside
  rw [covered, List.map_singleton] at rowsOne
  rw [otherCovered, List.map_singleton] at rowsTwo
  -- each access is covered by one row of the table only
  have onlyOne {row : LocalVariable} (listed : row ∈ rows) (covers : first.CoveredBy row) :
      row = one.row := by
    simpa [← rowsOne] using Access.mem_rowsIn.2 ⟨listed, covers⟩
  have onlyTwo {row : LocalVariable} (listed : row ∈ rows) (covers : second.CoveredBy row) :
      row = two.row := by
    simpa [← rowsTwo] using Access.mem_rowsIn.2 ⟨listed, covers⟩
  have listedOne : one.row ∈ rows :=
    (Access.mem_rowsIn.1 (rowsOne ▸ List.mem_singleton_self one.row)).1
  have listedTwo : two.row ∈ rows :=
    (Access.mem_rowsIn.1 (rowsTwo ▸ List.mem_singleton_self two.row)).1
  have behindOne : arguments.length ≤ one.row.index.toNat := by
    rw [oneCovers.1]
    exact binds.outside_iff.1 outside
  have behindTwo : arguments.length ≤ two.row.index.toNat := by
    rw [twoCovers.1]
    exact binds.outside_iff.1 otherOutside
  constructor
  · rintro (rfl | ⟨slots, oneFirst, twoFirst⟩)
    · exact .row listedOne oneCovers twoCovers
    · obtain ⟨head, known, same⟩ := (binds.hasFirstType_iff behindOne).1 oneFirst
      obtain ⟨_, otherKnown, otherSame⟩ := (binds.hasFirstType_iff behindTwo).1 twoFirst
      rw [← slots, known] at otherKnown
      cases otherKnown
      exact .firstType listedOne listedTwo oneCovers twoCovers slots known same otherSame
  · intro shares
    cases shares with
    | uncovered none =>
      rw [none] at rowsOne
      cases rowsOne
    | row listed covers otherCovers =>
      -- the second bound row covers the first access too, and only one row does
      have sameRow : two.row = one.row :=
        (onlyTwo listed otherCovers).symm.trans (onlyOne listed covers)
      have member := well.mem_covering.2 ⟨twoBound, sameRow ▸ oneCovers⟩
      rw [covered, List.mem_singleton] at member
      exact .inl member.symm
    | firstType listed otherListed covers otherCovers slots known same otherSame =>
      cases onlyOne listed covers
      cases onlyTwo otherListed otherCovers
      refine .inr ⟨slots, (binds.hasFirstType_iff behindOne).2 ⟨_, known, same⟩, ?_⟩
      exact (binds.hasFirstType_iff behindTwo).2 ⟨_, slots ▸ known, otherSame⟩

/-- A row and accesses that no row covers have different variables. -/
theorem WellBound.row_ne_synthetic (well : storage.WellBound scope) {bound : BoundRow}
    {known : SyntheticLocal} (listed : bound ∈ storage.rows) (made : known ∈ storage.synthetic) :
    bound.place ≠ known.place := by
  intro same
  obtain ⟨_, -, -, declared, found, named, -⟩ := well.rows bound listed
  rw [same, well.synthetic known made] at found
  cases found
  cases named

/-- Variables for accesses that no row covers belong to one slot and one kind of values. -/
theorem WellBound.synthetic_eq_iff (well : storage.WellBound scope) {one two : SyntheticLocal}
    (listed : one ∈ storage.synthetic) (otherListed : two ∈ storage.synthetic) :
    one.place = two.place ↔ one.slot = two.slot ∧ one.kind = two.kind := by
  constructor
  · intro same
    rw [List.inj_on_of_nodup_map well.places listed otherListed same]
    exact ⟨rfl, rfl⟩
  · rintro ⟨slots, kinds⟩
    rw [List.inj_on_of_nodup_map well.keys listed otherListed (Prod.ext slots kinds)]

/-- Two accesses have the same variable exactly if they share it by the table. -/
theorem WellBound.place_eq_iff (well : storage.WellBound scope)
    (binds : BindsTable rows arguments storage)
    (settled : storage.Settles first (.ok (.localVariable index)))
    (otherSettled : storage.Settles second (.ok (.localVariable other))) :
    index = other ↔ first.SharesVariable rows second := by
  have listed {access : Access} {bound : BoundRow}
      (covered : storage.covering access.slot access.offset access.kind = [bound]) :
      bound ∈ storage.rows :=
    (well.mem_covering.1 (covered ▸ List.mem_singleton_self bound)).1
  cases settled with
  | row outside covered =>
    -- a row of the table covers the first access, so that it shares no variable without a row
    have filled : ¬ first.rowsIn rows = [] := by
      rw [well.rowsIn_eq_nil_iff binds outside, covered]
      exact List.cons_ne_nil _ _
    cases otherSettled with
    | row otherOutside otherCovered =>
      rw [well.shared _ (listed covered) _ (listed otherCovered)]
      exact well.shares_iff binds outside otherOutside covered otherCovered
    | synthetic otherOutside uncovered made =>
      have otherNone := (well.rowsIn_eq_nil_iff binds otherOutside).2 uncovered
      exact ⟨fun same => absurd same (well.row_ne_synthetic (listed covered) made),
        fun shares => absurd (shares.isEmpty_iff.2 otherNone) filled⟩
  | synthetic outside uncovered made slot kind =>
    have none := (well.rowsIn_eq_nil_iff binds outside).2 uncovered
    cases otherSettled with
    | row otherOutside covered =>
      refine ⟨fun same => absurd same.symm (well.row_ne_synthetic (listed covered) made),
        fun shares => ?_⟩
      have otherNone := (well.rowsIn_eq_nil_iff binds otherOutside).1 (shares.isEmpty_iff.1 none)
      cases covered.symm.trans otherNone
    | synthetic otherOutside otherUncovered otherMade otherSlot otherKind =>
      have otherNone := (well.rowsIn_eq_nil_iff binds otherOutside).2 otherUncovered
      rw [well.synthetic_eq_iff made otherMade, slot, kind, otherSlot, otherKind]
      constructor
      · rintro ⟨slots, kinds⟩
        exact .uncovered none otherNone slots kinds
      · intro shares
        cases shares with
        | uncovered _ _ slots kinds => exact ⟨slots, kinds⟩
        | row listed covers | firstType listed _ covers =>
          have member := Access.mem_rowsIn.2 ⟨listed, covers⟩
          rw [none] at member
          cases member

end

/-! ## Runs of accesses -/

/-- Answers an access; one that fails leaves the storage as it is. -/
def answer (storage : LocalStorage) (access : Access) : Except Error Place × LocalStorage :=
  match (storage.lookup access.slot access.offset access.kind).result with
  | .ok (place, later) => (.ok place, later)
  | .error failure => (.error failure, storage)

/-- Answers accesses one after the other. -/
def answerAll (storage : LocalStorage) :
    List Access → List (Except Error Place) × LocalStorage
  | [] => ([], storage)
  | access :: accesses =>
    let (first, middle) := storage.answer access
    let (others, later) := middle.answerAll accesses
    (first :: others, later)

/-- An answer is the one that the storage gives from then on. -/
theorem answer_spec (storage : LocalStorage) (access : Access) :
    storage.LeadsTo (storage.answer access).2 ∧
      (storage.answer access).2.Settles access (storage.answer access).1 := by
  unfold answer
  split
  · next place later found => exact settles_of_lookup found
  · next failure found => exact ⟨.refl, settles_of_lookup_error found⟩

/-- All answers of a run are those that the last storage gives. -/
theorem answerAll_spec (storage : LocalStorage) (accesses : List Access) :
    storage.LeadsTo (storage.answerAll accesses).2 ∧
      List.Forall₂ (storage.answerAll accesses).2.Settles accesses
        (storage.answerAll accesses).1 := by
  induction accesses generalizing storage with
  | nil => exact ⟨.refl, .nil⟩
  | cons access accesses induction =>
    obtain ⟨first, settles⟩ := storage.answer_spec access
    obtain ⟨leads, others⟩ := induction (storage.answer access).2
    exact ⟨first.trans leads, .cons (settles.extend leads.toExtends) others⟩

/-- The answer to an access is an argument, a variable or a failure as the argument slots and the
table say. -/
structure Access.AnsweredBy (rows : List LocalVariable) (arguments : List (Option UInt16))
    (access : Access) (answer : Except Error Place) : Prop where
  /-- The slot of an argument is answered from the argument slots alone. -/
  argument : ∀ parameter, arguments[access.slot]? = some parameter → answer =
    match parameter with
    | some index => .ok (.parameter index)
    | none => .error (.consistency (.splitArgument access.slot))
  /-- Behind the arguments, an access fails exactly if several rows cover it. -/
  failure : arguments.length ≤ access.slot → ∀ failure, answer = .error failure ↔
    2 ≤ (access.rowsIn rows).length ∧ failure = .consistency
      (.overlappingLocals access.slot access.offset (access.rowsIn rows).length)
  /-- Behind the arguments, an access that does not fail is answered by a variable. -/
  localVariable : arguments.length ≤ access.slot → ∀ place, answer = .ok place →
    ∃ index, place = .localVariable index

/-- What a storage answers is what its table says. -/
theorem WellBound.answeredBy (well : storage.WellBound scope)
    (binds : BindsTable rows arguments storage) {answer : Except Error Place}
    (settles : storage.Settles access answer) : access.AnsweredBy rows arguments answer where
  argument parameter given := by
    rw [← binds.sameArguments] at given
    -- an answer that was settled in one way excludes the others
    cases settles with
    | parameter argument | split argument =>
      cases argument.symm.trans given
      rfl
    | row outside | synthetic outside | overlap outside => cases outside.symm.trans given
  failure outside failure := by
    have none := binds.outside_iff.2 outside
    rw [← well.map_covering binds none, List.length_map]
    cases settles with
    | parameter argument | split argument => cases none.symm.trans argument
    | row _ covered => simp [covered]
    | synthetic _ uncovered => simp [uncovered]
    | overlap _ several => simp [several, eq_comm]
  localVariable outside place same := by
    have none := binds.outside_iff.2 outside
    cases settles with
    | parameter argument => cases none.symm.trans argument
    | split | overlap => cases same
    | row | synthetic =>
      cases same
      exact ⟨_, rfl⟩

/-- The answers to accesses in a row never alias, as long as at most 65536 variables are declared.
Arguments are answered from the argument slots alone and other accesses fail only if several rows
cover them; two accesses get the same variable exactly if they share it by the table, so that an
access that is repeated gets the same answer, and rows of different slots or types never have the
same variable. -/
theorem answerAll_unaliased (built : (ofTable scope rows arguments).result = .ok storage)
    (accesses : List Access) (few : (storage.answerAll accesses).2.locals.length ≤ 65536) :
    let answers := (storage.answerAll accesses).1
    List.Forall₂ (Access.AnsweredBy rows arguments) accesses answers ∧
    (∀ (i j : Nat) (first second : Access) (index other : UInt16), accesses[i]? = some first →
      accesses[j]? = some second → answers[i]? = some (.ok (.localVariable index)) →
      answers[j]? = some (.ok (.localVariable other)) →
        (index = other ↔ first.SharesVariable rows second)) ∧
    (∀ i j : Nat, accesses[i]? = accesses[j]? → answers[i]? = answers[j]?) ∧
    storage.rows.map BoundRow.row = rows.filter (arguments.length ≤ ·.index.toNat) ∧
    ∀ first ∈ storage.rows, ∀ second ∈ storage.rows, first.place = second.place →
      first.row.index = second.row.index ∧ first.row.descriptor = second.row.descriptor := by
  intro answers
  obtain ⟨leads, settled⟩ := storage.answerAll_spec accesses
  obtain ⟨sameArguments, bound, well⟩ := ofTable_spec built
  have well := well (Nat.le_trans leads.toExtends.locals.length_le few)
  have lastWell := leads.wellBound well few
  have binds := BindsTable.extend ⟨sameArguments, bound⟩ leads.toExtends
  -- an answer and its access stand at the same place of the run
  have settledAt {place : Nat} {access : Access} (listed : accesses[place]? = some access) :
      ∃ answer, answers[place]? = some answer ∧
        (storage.answerAll accesses).2.Settles access answer := by
    obtain ⟨inside, rfl⟩ := List.getElem?_eq_some_iff.1 listed
    have answered : place < answers.length := settled.length_eq ▸ inside
    exact ⟨answers[place], List.getElem?_eq_getElem answered, settled.get inside answered⟩
  refine ⟨settled.imp fun _ _ settles => lastWell.answeredBy binds settles, ?_, ?_, bound, ?_⟩
  · intro i j first second index other listed otherListed answered otherAnswered
    obtain ⟨_, same, settles⟩ := settledAt listed
    obtain ⟨_, otherSame, otherSettles⟩ := settledAt otherListed
    cases answered.symm.trans same
    cases otherAnswered.symm.trans otherSame
    exact lastWell.place_eq_iff binds settles otherSettles
  · intro i j same
    cases listed : accesses[i]? with
    | none =>
      rw [listed, eq_comm] at same
      rw [List.getElem?_eq_none_iff, settled.length_eq] at listed same
      rw [List.getElem?_eq_none listed, List.getElem?_eq_none same]
    | some access =>
      obtain ⟨_, answered, settles⟩ := settledAt listed
      obtain ⟨_, otherAnswered, otherSettles⟩ := settledAt (same.symm.trans listed)
      rw [answered, otherAnswered, settles.unique lastWell.keys otherSettles]
  · intro first listed second otherListed same
    exact ((well.shared first listed second otherListed).1 same).eq

/-- Slot 3 holds integers, a long, integers again and another long; two rows for slot 4 overlap. -/
def changingTable : List LocalVariable :=
  [⟨0, 50, "this", "LA;", 0⟩, ⟨0, 10, "i", "I", 3⟩, ⟨10, 10, "l", "J", 3⟩, ⟨20, 10, "j", "I", 3⟩,
    ⟨30, 10, "m", "J", 3⟩, ⟨0, 10, "b", "Z", 4⟩, ⟨5, 10, "c", "C", 4⟩]

/-- Accesses to the object and the long that are the arguments, to rows, and past all rows. -/
def changingAccesses : List Access :=
  [⟨0, 4, .ref⟩, ⟨2, 4, .int⟩, ⟨3, 4, .int⟩, ⟨3, 15, .long⟩, ⟨3, 60, .int⟩, ⟨3, 25, .int⟩,
    ⟨3, 35, .long⟩, ⟨3, 2, .long⟩, ⟨4, 7, .int⟩, ⟨4, 12, .int⟩, ⟨3, 70, .int⟩]

/-- The answers to `changingAccesses`. -/
def changingAnswers : List (Except Error Place) :=
  [.ok (.parameter 0), .error (.consistency (.splitArgument 2)), .ok (.localVariable 0),
    .ok (.localVariable 1), .ok (.localVariable 5), .ok (.localVariable 0), .ok (.localVariable 2),
    .ok (.localVariable 6), .error (.consistency (.overlappingLocals 4 7 2)),
    .ok (.localVariable 4), .ok (.localVariable 5)]

/-- Accesses of two longs in one slot are told apart, and those of integers are not. -/
theorem answerAll_unaliased_changing :
    ∃ storage,
      (ofTable ⟨Catalog.standard, .empty "M"⟩ changingTable [some 0, some 1, none]).result =
        .ok storage ∧
      (storage.answerAll changingAccesses).1 = changingAnswers ∧
      (storage.answerAll changingAccesses).2.locals.length ≤ 65536 ∧
      -- the two longs of slot 3 are apart, and its integers are not
      ¬ Access.SharesVariable changingTable ⟨3, 15, .long⟩ ⟨3, 35, .long⟩ ∧
      Access.SharesVariable changingTable ⟨3, 4, .int⟩ ⟨3, 25, .int⟩ ∧
      Access.AnsweredBy changingTable [some 0, some 1, none] ⟨0, 4, .ref⟩ (.ok (.parameter 0)) := by
  have evaluated : ∃ storage ∈ (ofTable ⟨Catalog.standard, .empty "M"⟩ changingTable
        [some 0, some 1, none]).result.toOption,
      (storage.answerAll changingAccesses).1 = changingAnswers ∧
        (storage.answerAll changingAccesses).2.locals.length ≤ 65536 := by
    decide +kernel
  obtain ⟨storage, built, answers, few⟩ := evaluated
  have built := Except.eq_ok_of_mem_toOption built
  obtain ⟨each, places, -⟩ := answerAll_unaliased built changingAccesses few
  rw [answers] at each places
  refine ⟨storage, built, answers, few, ?_, ?_, ?_⟩
  · intro shares
    cases (places 3 6 _ _ 1 2 rfl rfl rfl rfl).2 shares
  · exact (places 2 5 _ _ 0 0 rfl rfl rfl rfl).1 rfl
  · cases each with
    | cons first => exact first

end LocalStorage

end ClassLowering
