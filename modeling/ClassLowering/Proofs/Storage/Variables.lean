import ClassLowering.Proofs.SyntheticStorage

/-! # The variables of a storage

A storage declares a variable in two ways: for a row of the table, when the row is the first one of
its slot or has another type than the first one, and for accesses that no row covers. What adding a
row can do is said once (`AddsRow`), and so is what looking a slot up can do (`LeadsTo`).

Every storage that is built from a table is well bound (`ofTable_spec`), and stays so when
slots are looked up (`LeadsTo.wellBound`): a row has a variable of its type, two rows share one only
if both have the first type of their slot, and a variable for accesses that no row covers belongs to
one slot and one kind of values. This needs that the numbers of variables fit into 16 bits. -/

namespace ClassLowering

open Bytecode (ValueKind)
open Target (Local TypeSig)

/-- The kind of the values that a variable of the type holds. -/
def Target.TypeSig.kind? : TypeSig → Option ValueKind
  | bool | char | i8 | i16 | i32 => some .int
  | i64 => some .long
  | f32 => some .float
  | f64 => some .double
  | object _ | array _ => some .ref
  | void | nativeString => none

/-- Lowering a type keeps the kind of its values. -/
theorem Scope.kind?_of_fieldSig {scope : Scope} {type : FieldType} {sig : TypeSig}
    (found : scope.fieldSig type = .ok sig) : sig.kind? = some type.kind := by
  cases type with
  | object name | array element =>
    obtain ⟨inner, -, rfl⟩ := Except.map_eq_ok.1 found
    rfl
  | _ =>
    cases found
    rfl

namespace LocalStorage

variable {scope : Scope} {storage later : LocalStorage} {fresh next : UInt16} {row : LocalVariable}

/-- The variables for kinds of values hold values of these kinds. -/
theorem kind?_kindSig {object : TypeSig} (isRef : object.kind? = some .ref) (kind : ValueKind) :
    (kindSig object kind).kind? = some kind := by
  cases kind with
  | ref => exact isRef
  | _ => rfl

/-! ## Adding rows -/

/-- The first row that is bound for a slot. -/
def head? (storage : LocalStorage) (index : UInt16) : Option BoundRow :=
  storage.rows.find? fun bound => bound.row.index = index

/-- What adding a row to a storage gives, together with the next fresh label. -/
inductive AddsRow (scope : Scope) (storage : LocalStorage) (fresh : UInt16) (row : LocalVariable) :
    LocalStorage → UInt16 → Prop where
  /-- A row for an argument adds nothing. -/
  | argument (inside : row.index.toNat < storage.arguments.length) :
      AddsRow scope storage fresh row storage fresh
  /-- The first row of a slot gets a variable with the number of the slot as its label. -/
  | first {type : FieldType} {sig : TypeSig}
      (outside : storage.arguments.length ≤ row.index.toNat)
      (typed : FieldType.ofDescriptor? row.descriptor = some type)
      (lowered : scope.fieldSig type = .ok sig) (new : storage.head? row.index = none) :
      AddsRow scope storage fresh row
        (storage.declareRow row.index row type.kind sig) fresh
  /-- A row with the type of the first row of its slot shares its variable. -/
  | share {type : FieldType} {head : BoundRow}
      (outside : storage.arguments.length ≤ row.index.toNat)
      (typed : FieldType.ofDescriptor? row.descriptor = some type)
      (known : storage.head? row.index = some head)
      (same : head.row.descriptor = row.descriptor) :
      AddsRow scope storage fresh row (storage.shareRow head row type.kind) fresh
  /-- A row with another type gets a variable of its own with a fresh label. -/
  | change {type : FieldType} {sig : TypeSig} {head : BoundRow}
      (outside : storage.arguments.length ≤ row.index.toNat)
      (typed : FieldType.ofDescriptor? row.descriptor = some type)
      (lowered : scope.fieldSig type = .ok sig)
      (known : storage.head? row.index = some head)
      (differs : head.row.descriptor ≠ row.descriptor) :
      AddsRow scope storage fresh row (storage.declareRow fresh row type.kind sig) (fresh + 1)

/-- Adding a row does one of the four things. -/
theorem addsRow_of_addRow (added : (addRow scope storage fresh row).result = .ok (later, next)) :
    AddsRow scope storage fresh row later next := by
  unfold addRow at added
  -- a row of an argument, the first row of a slot, one of the same type, or one of another type
  split at added
  · next inside =>
    cases added
    exact .argument inside
  · next outside =>
    have outside := Nat.le_of_not_lt outside
    obtain ⟨type, typed, added⟩ := Logged.bind_eq_ok.1 added
    have typed := FieldType.ofDescriptor_eq_ok.1 typed
    split at added
    · next new =>
      obtain ⟨sig, lowered, added⟩ := Logged.bind_eq_ok.1 added
      cases added
      exact .first outside typed lowered new
    · next head known =>
      split at added
      · next same =>
        cases added
        exact .share outside typed known same
      · next differs =>
        obtain ⟨_, -, added⟩ := Logged.bind_eq_ok.1 added
        obtain ⟨sig, lowered, added⟩ := Logged.bind_eq_ok.1 added
        cases added
        exact .change outside typed lowered known differs

/-- The first row of a slot is bound, for that slot. -/
theorem mem_of_head? {index : UInt16} {head : BoundRow} (known : storage.head? index = some head) :
    head ∈ storage.rows ∧ head.row.index = index := by
  have same := List.find?_some known
  exact ⟨List.mem_of_find?_eq_some known, by simpa using same⟩

/-- A slot with a bound row has a first one. -/
theorem exists_head? {bound : BoundRow} (listed : bound ∈ storage.rows) :
    ∃ head, storage.head? bound.row.index = some head := by
  refine Option.isSome_iff_exists.1 (List.find?_isSome.2 ⟨bound, listed, ?_⟩)
  simp

/-- One more row keeps the first row of a slot that has one. -/
theorem head?_append {new : BoundRow} (more : later.rows = storage.rows ++ [new]) {index : UInt16}
    {head : BoundRow} (known : storage.head? index = some head) :
    later.head? index = some head := by
  rw [head?, more, List.find?_append]
  rw [head?] at known
  rw [known, Option.some_or]

/-! ## Rows that share a variable -/

/-- The row has the type that its slot has first. -/
def HasFirstType (storage : LocalStorage) (bound : BoundRow) : Prop :=
  ∃ head, storage.head? bound.row.index = some head ∧ head.row.descriptor = bound.row.descriptor

/-- The rows are the same one, or rows of one slot that both have its first type. -/
def Shares (storage : LocalStorage) (first second : BoundRow) : Prop :=
  first = second ∨ first.row.index = second.row.index ∧ storage.HasFirstType first ∧
    storage.HasFirstType second

/-- Rows that share a variable do so in either order. -/
theorem Shares.symm {first second : BoundRow} (shares : storage.Shares first second) :
    storage.Shares second first := by
  rcases shares with rfl | ⟨slots, one, other⟩
  · exact .inl rfl
  · exact .inr ⟨slots.symm, other, one⟩

/-- Rows that share a variable are for one slot and have one type. -/
theorem Shares.eq {first second : BoundRow} (shares : storage.Shares first second) :
    first.row.index = second.row.index ∧ first.row.descriptor = second.row.descriptor := by
  rcases shares with rfl | ⟨slots, ⟨head, known, one⟩, other, otherKnown, two⟩
  · exact ⟨rfl, rfl⟩
  · rw [slots, otherKnown] at known
    cases known
    exact ⟨slots, one.symm.trans two⟩

/-- One more row changes nothing about the types of the rows that are bound. -/
theorem hasFirstType_append {new bound : BoundRow} (more : later.rows = storage.rows ++ [new])
    (listed : bound ∈ storage.rows) : later.HasFirstType bound ↔ storage.HasFirstType bound := by
  obtain ⟨head, known⟩ := exists_head? listed
  unfold HasFirstType
  rw [known, head?_append more known]

/-- Rows have the same variable exactly if they share it. -/
def Shared (storage : LocalStorage) : Prop :=
  ∀ first ∈ storage.rows, ∀ second ∈ storage.rows,
    first.place = second.place ↔ storage.Shares first second

/-- One more row shares a variable with the right ones if it does so with each row before it. -/
theorem Shared.append {new : BoundRow} (shared : storage.Shared)
    (more : later.rows = storage.rows ++ [new])
    (fits : ∀ old ∈ storage.rows, old.place = new.place ↔ later.Shares old new) :
    later.Shared := by
  intro first firstListed second secondListed
  rw [more, List.mem_append, List.mem_singleton] at firstListed secondListed
  rcases firstListed with firstListed | rfl
  · rcases secondListed with secondListed | rfl
    · rw [shared first firstListed second secondListed, Shares, Shares,
        hasFirstType_append more firstListed, hasFirstType_append more secondListed]
    · exact fits first firstListed
  · rcases secondListed with secondListed | rfl
    · have fits := fits second secondListed
      exact ⟨fun same => (fits.1 same.symm).symm, fun shares => (fits.2 shares.symm).symm⟩
    · exact ⟨fun _ => .inl rfl, fun _ => rfl⟩

/-! ## Well-bound storages -/

/-- The row is bound to a variable with its name and its type. -/
def BindsRow (scope : Scope) (storage : LocalStorage) (bound : BoundRow) : Prop :=
  ∃ type, FieldType.ofDescriptor? bound.row.descriptor = some type ∧ bound.kind = type.kind ∧
    ∃ declared, storage.locals[bound.place.toNat]? = some declared ∧ declared.name.isSome ∧
      scope.fieldSig type = .ok declared.sig

/-- The variables of a storage are told apart by what they are for. -/
structure WellBound (scope : Scope) (storage : LocalStorage) : Prop where
  rows : ∀ bound ∈ storage.rows, storage.BindsRow scope bound
  shared : storage.Shared
  /-- A variable for accesses that no row covers is labelled with their slot and has no name. -/
  synthetic : ∀ known ∈ storage.synthetic, storage.locals[known.place.toNat]? =
    some ⟨known.slot.toUInt16, none, kindSig storage.object known.kind⟩
  /-- No slot has two such variables for one kind of values. -/
  keys : (storage.synthetic.map fun known => (known.slot, known.kind)).Nodup
  /-- Different slots and kinds of values have different ones. -/
  places : (storage.synthetic.map SyntheticLocal.place).Nodup
  object : storage.object.kind? = some .ref

/-- The next variable gets its own number while numbers fit into 16 bits. -/
theorem toNat_nextIndex (few : storage.locals.length < 65536) :
    storage.nextIndex.toNat = storage.locals.length := by
  rw [nextIndex, Nat.toUInt16_eq, UInt16.toNat_ofNat', Nat.mod_eq_of_lt few]

/-- A row is bound to a variable that is declared. -/
theorem BindsRow.place_lt {bound : BoundRow} (binds : storage.BindsRow scope bound) :
    bound.place.toNat < storage.locals.length := by
  obtain ⟨_, -, -, _, found, -⟩ := binds
  exact (List.getElem?_eq_some_iff.1 found).1

/-- A variable that is declared stays when there are more. -/
theorem getElem?_of_prefix {before after : List Local} (grows : before <+: after) {index : Nat}
    {declared : Local} (found : before[index]? = some declared) :
    after[index]? = some declared := by
  obtain ⟨more, rfl⟩ := grows
  rw [List.getElem?_append_left (List.getElem?_eq_some_iff.1 found).1, found]

/-- A row that is bound stays bound when variables are added. -/
theorem BindsRow.grow {bound : BoundRow} (binds : storage.BindsRow scope bound)
    (grows : storage.locals <+: later.locals) : later.BindsRow scope bound := by
  obtain ⟨type, typed, kind, declared, found, named, lowered⟩ := binds
  exact ⟨type, typed, kind, declared, getElem?_of_prefix grows found, named, lowered⟩

/-- A storage stays well bound when a row is added that is bound and shares its variable with the
right rows. -/
theorem WellBound.append {new : BoundRow} (well : storage.WellBound scope)
    (more : later.rows = storage.rows ++ [new]) (grows : storage.locals <+: later.locals)
    (synthetic : later.synthetic = storage.synthetic) (object : later.object = storage.object)
    (binds : later.BindsRow scope new)
    (fits : ∀ old ∈ storage.rows, old.place = new.place ↔ later.Shares old new) :
    later.WellBound scope where
  rows bound listed := by
    rw [more, List.mem_append, List.mem_singleton] at listed
    rcases listed with listed | rfl
    · exact (well.rows bound listed).grow grows
    · exact binds
  shared := well.shared.append more fits
  synthetic known listed := by
    rw [synthetic] at listed
    rw [object]
    exact getElem?_of_prefix grows (well.synthetic known listed)
  keys := by
    rw [synthetic]
    exact well.keys
  places := by
    rw [synthetic]
    exact well.places
  object := by
    rw [object]
    exact well.object

/-- A row that gets a variable of its own shares it with no other row. -/
theorem WellBound.declareRow {type : FieldType} {sig : TypeSig} {label : UInt16}
    (well : storage.WellBound scope)
    (typed : FieldType.ofDescriptor? row.descriptor = some type)
    (lowered : scope.fieldSig type = .ok sig) (few : storage.locals.length < 65536)
    (other : ∀ head, storage.head? row.index = some head → head.row.descriptor ≠ row.descriptor) :
    (storage.declareRow label row type.kind sig).WellBound scope := by
  have number := toNat_nextIndex few
  refine well.append rfl (List.prefix_append _ _) rfl rfl ?_ ?_
  · refine ⟨type, typed, rfl, ⟨label, some row.name, sig⟩, ?_, rfl, lowered⟩
    dsimp only [LocalStorage.declareRow]
    rw [number, List.getElem?_concat_length]
  · intro old listed
    -- the new number is past those of all rows before it
    have bound := (well.rows old listed).place_lt
    have differs : old.place ≠ storage.nextIndex := by
      rintro same
      rw [same, number] at bound
      exact Nat.lt_irrefl _ bound
    refine ⟨fun same => absurd same differs, fun shares => ?_⟩
    rcases shares with rfl | ⟨slots, -, head, known, same⟩
    · exact absurd rfl differs
    · -- the slot has a first row, and it is still the first one
      obtain ⟨first, firstKnown⟩ := exists_head? listed
      rw [show old.row.index = row.index from slots] at firstKnown
      have still : (storage.declareRow label row type.kind sig).head? row.index = some first :=
        head?_append rfl firstKnown
      cases known.symm.trans still
      exact absurd same (other _ firstKnown)

/-- A row that shares the variable of the first row of its slot shares it with the rows that do so
already. -/
theorem WellBound.shareRow {type : FieldType} {head : BoundRow} (well : storage.WellBound scope)
    (typed : FieldType.ofDescriptor? row.descriptor = some type)
    (known : storage.head? row.index = some head)
    (same : head.row.descriptor = row.descriptor) :
    (storage.shareRow head row type.kind).WellBound scope := by
  obtain ⟨headListed, headSlot⟩ := mem_of_head? known
  have headFirst : storage.HasFirstType head := ⟨head, by rw [headSlot, known], rfl⟩
  refine well.append rfl List.prefix_rfl rfl rfl ?_ ?_
  · obtain ⟨_, headTyped, -, declared, found, named, lowered⟩ := well.rows head headListed
    rw [same] at headTyped
    cases typed.symm.trans headTyped
    exact ⟨type, typed, rfl, declared, found, named, lowered⟩
  -- the new row has the place of the head, so it shares with exactly the rows that the head does
  · intro old listed
    have more : (storage.shareRow head row type.kind).rows =
        storage.rows ++ [⟨row, type.kind, head.place⟩] := rfl
    have newFirst : (storage.shareRow head row type.kind).HasFirstType
        ⟨row, type.kind, head.place⟩ := ⟨head, head?_append more known, same⟩
    constructor
    · intro places
      rcases (well.shared old listed head headListed).1 places with rfl | ⟨slots, first, -⟩
      · exact .inr ⟨headSlot, (hasFirstType_append more listed).2 headFirst, newFirst⟩
      · exact .inr ⟨slots.trans headSlot, (hasFirstType_append more listed).2 first, newFirst⟩
    · intro shares
      rcases shares with rfl | ⟨slots, first, -⟩
      · rfl
      · refine (well.shared old listed head headListed).2 (.inr ⟨slots.trans headSlot.symm, ?_, ?_⟩)
        · exact (hasFirstType_append more listed).1 first
        · exact headFirst

/-- Adding a row only adds variables. -/
theorem AddsRow.locals_prefix (adds : AddsRow scope storage fresh row later next) :
    storage.locals <+: later.locals := by
  cases adds with
  | argument | share => exact List.prefix_rfl
  | first | change => exact List.prefix_append _ _

/-- Declaring a row adds one variable. -/
theorem length_declareRow (storage : LocalStorage) (label : UInt16) (row : LocalVariable)
    (kind : ValueKind) (sig : TypeSig) :
    (storage.declareRow label row kind sig).locals.length = storage.locals.length + 1 :=
  List.length_append

/-- Adding a row keeps a storage well bound. -/
theorem AddsRow.wellBound (adds : AddsRow scope storage fresh row later next)
    (well : storage.WellBound scope) (few : later.locals.length ≤ 65536) :
    later.WellBound scope := by
  cases adds with
  | argument inside => exact well
  | first outside typed lowered new =>
    rw [length_declareRow] at few
    refine well.declareRow typed lowered few fun head known => ?_
    cases new.symm.trans known
  | share outside typed known same => exact well.shareRow typed known same
  | change outside typed lowered known differs =>
    rw [length_declareRow] at few
    refine well.declareRow typed lowered few fun head listed => ?_
    cases known.symm.trans listed
    exact differs

/-! ## Tables -/

/-- Rows that are bound behind some others are the rows of the table that are not for arguments. -/
theorem AddsRow.rows_eq (adds : AddsRow scope storage fresh row later next) :
    later.arguments = storage.arguments ∧
      later.rows.map BoundRow.row = storage.rows.map BoundRow.row ++
        [row].filter (storage.arguments.length ≤ ·.index.toNat) := by
  have last (outside : storage.arguments.length ≤ row.index.toNat) (kind : ValueKind)
      (place : UInt16) : (storage.rows ++ [BoundRow.mk row kind place]).map BoundRow.row =
        storage.rows.map BoundRow.row ++
          [row].filter (storage.arguments.length ≤ ·.index.toNat) := by
    simp [outside]
  cases adds with
  | argument inside => simp [Nat.not_le.2 inside]
  | first outside | share outside | change outside => exact ⟨rfl, last outside _ _⟩

/-- What the rows of a table lead to. -/
theorem addRows_spec {rows : List LocalVariable}
    (added : (addRows scope storage fresh rows).result = .ok later) :
    storage.locals <+: later.locals ∧ later.arguments = storage.arguments ∧
      later.rows.map BoundRow.row = storage.rows.map BoundRow.row ++
        rows.filter (storage.arguments.length ≤ ·.index.toNat) ∧
      (storage.WellBound scope → later.locals.length ≤ 65536 → later.WellBound scope) := by
  induction rows generalizing storage fresh with
  | nil =>
    cases added
    exact ⟨List.prefix_rfl, rfl, (List.append_nil _).symm, fun well _ => well⟩
  | cons row rows induction =>
    obtain ⟨⟨middle, label⟩, first, others⟩ := Logged.bind_eq_ok.1 added
    have adds := addsRow_of_addRow first
    obtain ⟨sameArguments, bound⟩ := adds.rows_eq
    obtain ⟨grows, arguments, listed, keeps⟩ := induction others
    refine ⟨adds.locals_prefix.trans grows, arguments.trans sameArguments, ?_, ?_⟩
    · rw [listed, bound, sameArguments, List.append_assoc, ← List.filter_append,
        List.singleton_append]
    · intro well few
      exact keeps (adds.wellBound well (Nat.le_trans grows.length_le few)) few

/-- The storage for a table binds the rows that are not for arguments and has no variables for
accesses that no row covers. -/
theorem ofTable_spec {rows : List LocalVariable} {arguments : List (Option UInt16)}
    (built : (ofTable scope rows arguments).result = .ok storage) :
    storage.arguments = arguments ∧
      storage.rows.map BoundRow.row = rows.filter (arguments.length ≤ ·.index.toNat) ∧
      (storage.locals.length ≤ 65536 → storage.WellBound scope) := by
  obtain ⟨object, found, built⟩ := Logged.bind_eq_ok.1 built
  obtain ⟨_, -, rfl⟩ := Except.map_eq_ok.1 found
  obtain ⟨-, same, listed, keeps⟩ := addRows_spec built
  refine ⟨same, listed, keeps ⟨?_, ?_, ?_, List.nodup_nil, List.nodup_nil, rfl⟩⟩
  · exact fun _ listed => absurd listed List.not_mem_nil
  · exact fun _ listed => absurd listed List.not_mem_nil
  · exact fun _ listed => absurd listed List.not_mem_nil

/-! ## Looking slots up -/

/-- A use of a slot for a kind of values at an offset. -/
structure Access where
  slot : Nat
  offset : UInt32
  kind : ValueKind
  deriving DecidableEq, Repr

/-- A storage with one more variable, for accesses to a slot that no row covers. -/
def makeVariable (storage : LocalStorage) (slot : Nat) (kind : ValueKind) : LocalStorage :=
  { storage with
    synthetic := storage.synthetic ++ [⟨slot, kind, storage.nextIndex⟩]
    locals := storage.locals ++ [⟨slot.toUInt16, none, kindSig storage.object kind⟩] }

/-- Looking slots up leads from one storage to another, which may have more variables. -/
inductive LeadsTo (storage : LocalStorage) : LocalStorage → Prop where
  | refl : LeadsTo storage storage
  | make {middle : LocalStorage} {slot : Nat} {kind : ValueKind} (before : LeadsTo storage middle)
      (new : ∀ known ∈ middle.synthetic, ¬(known.slot = slot ∧ known.kind = kind)) :
      LeadsTo storage (middle.makeVariable slot kind)

/-- The later storage differs from the earlier one in that it may have more variables for accesses
that no row covers. -/
structure Extends (storage later : LocalStorage) : Prop extends Grows storage later where
  rows : later.rows = storage.rows
  object : later.object = storage.object
  locals : storage.locals <+: later.locals

/-- Asking and then asking more is asking. -/
theorem LeadsTo.trans {middle : LocalStorage} (first : storage.LeadsTo middle)
    (second : middle.LeadsTo later) : storage.LeadsTo later := by
  induction second with
  | refl => exact first
  | make before new induction => exact .make induction new

/-- Asking only adds variables. -/
theorem LeadsTo.toExtends (leads : storage.LeadsTo later) : storage.Extends later := by
  induction leads with
  | refl => exact ⟨.refl storage, rfl, rfl, List.prefix_rfl⟩
  | make before new induction =>
    exact ⟨induction.toGrows.trans ⟨rfl, List.prefix_append _ _⟩, induction.rows, induction.object,
      induction.locals.trans (List.prefix_append _ _)⟩

/-- Making a variable keeps a storage well bound. -/
theorem WellBound.makeVariable {slot : Nat} {kind : ValueKind} (well : storage.WellBound scope)
    (new : ∀ known ∈ storage.synthetic, ¬(known.slot = slot ∧ known.kind = kind))
    (few : storage.locals.length < 65536) : (storage.makeVariable slot kind).WellBound scope where
  rows bound listed := (well.rows bound listed).grow (List.prefix_append _ _)
  shared := well.shared
  synthetic known listed := by
    rcases List.mem_append.1 listed with listed | single
    · exact getElem?_of_prefix (List.prefix_append _ _) (well.synthetic known listed)
    · rw [List.mem_singleton.1 single]
      dsimp only [LocalStorage.makeVariable]
      rw [toNat_nextIndex few, List.getElem?_concat_length]
  keys := by
    dsimp only [LocalStorage.makeVariable]
    rw [List.map_append, List.map_singleton]
    refine List.nodup_append.2 ⟨well.keys, List.nodup_singleton _, ?_⟩
    rintro key listed other single rfl
    obtain ⟨known, member, same⟩ := List.mem_map.1 listed
    rw [List.mem_singleton.1 single, Prod.mk.injEq] at same
    exact new known member same
  places := by
    dsimp only [LocalStorage.makeVariable]
    rw [List.map_append, List.map_singleton]
    refine List.nodup_append.2 ⟨well.places, List.nodup_singleton _, ?_⟩
    rintro place listed _ single rfl
    -- the new number is past those of all variables
    obtain ⟨known, member, same⟩ := List.mem_map.1 listed
    have bound := (List.getElem?_eq_some_iff.1 (well.synthetic known member)).1
    rw [same, List.mem_singleton.1 single, toNat_nextIndex few] at bound
    exact Nat.lt_irrefl _ bound
  object := well.object

/-- Looking slots up keeps a storage well bound. -/
theorem LeadsTo.wellBound (leads : storage.LeadsTo later) (well : storage.WellBound scope)
    (few : later.locals.length ≤ 65536) : later.WellBound scope := by
  induction leads with
  | refl => exact well
  | make before new induction =>
    dsimp only [LocalStorage.makeVariable] at few
    rw [List.length_append, List.length_singleton] at few
    exact (induction (by omega)).makeVariable new (by omega)

/-- How a storage answers an access. -/
inductive Settles (storage : LocalStorage) (access : Access) : Except Error Place → Prop where
  /-- The slot is that of a parameter. -/
  | parameter {index : UInt16} (argument : storage.arguments[access.slot]? = some (some index)) :
      Settles storage access (.ok (.parameter index))
  /-- The slot is the upper half of a parameter. -/
  | split (argument : storage.arguments[access.slot]? = some none) :
      Settles storage access (.error (.consistency (.splitArgument access.slot)))
  /-- One row covers the access. -/
  | row {bound : BoundRow} (outside : storage.arguments[access.slot]? = none)
      (covered : storage.covering access.slot access.offset access.kind = [bound]) :
      Settles storage access (.ok (.localVariable bound.place))
  /-- No row covers the access. -/
  | synthetic {known : SyntheticLocal} (outside : storage.arguments[access.slot]? = none)
      (uncovered : storage.covering access.slot access.offset access.kind = [])
      (listed : known ∈ storage.synthetic) (slot : known.slot = access.slot)
      (kind : known.kind = access.kind) :
      Settles storage access (.ok (.localVariable known.place))
  /-- Several rows cover the access. -/
  | overlap (outside : storage.arguments[access.slot]? = none)
      (several : 2 ≤ (storage.covering access.slot access.offset access.kind).length) :
      Settles storage access (.error (.consistency (.overlappingLocals access.slot access.offset
        (storage.covering access.slot access.offset access.kind).length)))

/-- Rows and arguments stay, so that an answer stays. -/
theorem Settles.extend {access : Access} {answer : Except Error Place}
    (settles : storage.Settles access answer) (more : storage.Extends later) :
    later.Settles access answer := by
  have arguments := more.arguments
  have covering : later.covering access.slot access.offset access.kind =
      storage.covering access.slot access.offset access.kind := by
    unfold LocalStorage.covering
    rw [more.rows]
  cases settles with
  | parameter argument => exact .parameter (by rw [arguments, argument])
  | split argument => exact .split (by rw [arguments, argument])
  | row outside covered => exact .row (by rw [arguments, outside]) (by rw [covering, covered])
  | synthetic outside uncovered listed slot kind =>
    exact .synthetic (by rw [arguments, outside]) (by rw [covering, uncovered])
      (more.synthetic.subset listed) slot kind
  | overlap outside several =>
    rw [← covering] at several ⊢
    exact .overlap (by rw [arguments, outside]) several

/-- An access has one answer. -/
theorem Settles.unique {access : Access} {first second : Except Error Place}
    (keys : (storage.synthetic.map fun known => (known.slot, known.kind)).Nodup)
    (one : storage.Settles access first) (other : storage.Settles access second) :
    first = second := by
  cases one with
  | synthetic outside uncovered listed slot kind =>
    cases other with
    | synthetic _ _ otherListed otherSlot otherKind =>
      -- the slot has one variable for the kind of values
      have same := List.inj_on_of_nodup_map keys listed otherListed
        (by rw [slot, kind, otherSlot, otherKind])
      rw [same]
    | _ => simp_all
  | _ => cases other <;> simp_all

/-- Looking a slot up succeeds with the place that the storage then gives for it. -/
theorem settles_of_lookup {access : Access} {place : Place}
    (found : (storage.lookup access.slot access.offset access.kind).result = .ok (place, later)) :
    storage.LeadsTo later ∧ later.Settles access (.ok place) := by
  unfold lookup at found
  split at found
  · next index argument =>
    cases found
    exact ⟨.refl, .parameter argument⟩
  · cases found
  -- behind the arguments the slot has a synthetic variable, or that of the one row that covers it
  · next outside =>
    split at found
    · next uncovered =>
      obtain ⟨⟨index, last⟩, found, same⟩ := Logged.bind_eq_ok.1 found
      cases same
      unfold lookupSynthetic at found
      split at found
      · next known listed =>
        cases found
        have same := List.find?_some listed
        rw [Bool.and_eq_true, decide_eq_true_eq, decide_eq_true_eq] at same
        exact ⟨.refl, .synthetic outside uncovered (List.mem_of_find?_eq_some listed) same.1 same.2⟩
      · next missing =>
        obtain ⟨_, -, found⟩ := Logged.bind_eq_ok.1 found
        cases found
        -- a synthetic variable is only made if there is none for the slot and the kind
        have new : ∀ known ∈ storage.synthetic,
            ¬(known.slot = access.slot ∧ known.kind = access.kind) := by
          rintro known member ⟨slot, kind⟩
          have differs := List.find?_eq_none.1 missing known member
          simp [slot, kind] at differs
        refine ⟨.make .refl new, ?_⟩
        exact @Settles.synthetic _ access ⟨access.slot, access.kind, storage.nextIndex⟩ outside
          uncovered (List.mem_append_right _ (List.mem_singleton_self _)) rfl rfl
    · next bound covered =>
      cases found
      exact ⟨.refl, .row outside covered⟩
    · cases found

/-- Looking a slot up fails in the way that the storage fails for it. -/
theorem settles_of_lookup_error {access : Access} {failure : Error}
    (found : (storage.lookup access.slot access.offset access.kind).result = .error failure) :
    storage.Settles access (.error failure) := by
  unfold lookup at found
  split at found
  · cases found
  · next argument =>
    cases found
    exact .split argument
  · next outside =>
    split at found
    · -- an access that no row covers never fails
      unfold lookupSynthetic at found
      split at found <;> cases found
    · cases found
    · next filled single =>
      cases found
      refine .overlap outside ?_
      generalize storage.covering access.slot access.offset access.kind = rows at filled single
      match rows with
      | [] => exact absurd rfl filled
      | [bound] => exact absurd rfl (single bound)
      | first :: second :: rest => simp

end LocalStorage

end ClassLowering
