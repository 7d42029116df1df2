import ClassLowering.Proofs.Encoding.Constants

/-! # References between constants

A constant may refer to others, each by an index and with the kind that the constant there has to
have (`Constant.references`). A table of constants becomes a pool exactly if all its references hold
(`ConstantPool.exists_ofRaw_iff`), and then what is asked for at an index of the right kind is
there, however many references have to be followed (`ConstantPool.exists_member`). -/

namespace ClassLowering

open RawConstant (plain)

/-! ## Kinds and references -/

/-- The kind of a constant, if it is a kind that is asked for. -/
def Constant.kind? : Constant → Option ExpectedConstant
  | utf8 _ => some .utf8
  | classRef _ => some .classReference
  | nameAndType _ _ => some .nameAndType
  | fieldRef _ _ | methodRef _ _ | interfaceMethodRef _ _ => some .member
  | _ => none

/-- A reference from one constant to another. -/
structure Reference where
  index : UInt16
  /-- The kind of the constant at the index; any constant will do if there is none. -/
  kind : Option ExpectedConstant
  deriving DecidableEq, Repr

/-- The references of a constant. -/
def Constant.references : Constant → List Reference
  | classRef index | methodType index | moduleRef index | packageRef index => [⟨index, some .utf8⟩]
  | nameAndType name descriptor => [⟨name, some .utf8⟩, ⟨descriptor, some .utf8⟩]
  | fieldRef owner pair | methodRef owner pair | interfaceMethodRef owner pair =>
    [⟨owner, some .classReference⟩, ⟨pair, some .nameAndType⟩]
  | methodHandle _ index => [⟨index, none⟩]
  | dynamic _ pair | invokeDynamic _ pair => [⟨pair, some .nameAndType⟩]
  | _ => []

/-- A reference holds among constants of some kinds if its index is that of one of them, of the
right kind; there is none at index 0. -/
def Reference.Holds (kinds : List (Option ExpectedConstant)) (reference : Reference) : Prop :=
  ∃ found ∈ entryAt? kinds reference.index, ∀ kind ∈ reference.kind, found = some kind

instance (kinds : List (Option ExpectedConstant)) (reference : Reference) :
    Decidable (reference.Holds kinds) :=
  inferInstanceAs (Decidable (∃ found ∈ entryAt? kinds reference.index,
    ∀ kind ∈ reference.kind, found = some kind))

namespace RawConstant

/-- The kind of a constant as it stands in the file. -/
def kind? : RawConstant → Option ExpectedConstant
  | plain constant => constant.kind?
  | stringRef _ => none

/-- The references of a constant as it stands in the file, where a string constant refers to its
text. -/
def references : RawConstant → List Reference
  | plain constant => constant.references
  | stringRef index => [⟨index, some .utf8⟩]

/-- All references of a table hold in it. -/
def WellKinded (table : List RawConstant) : Prop :=
  ∀ entry ∈ table, ∀ reference ∈ entry.references, reference.Holds (table.map kind?)

instance (table : List RawConstant) : Decidable (WellKinded table) :=
  inferInstanceAs (Decidable (∀ entry ∈ table, ∀ reference ∈ entry.references,
    reference.Holds (table.map kind?)))

end RawConstant

/-- All references of a pool hold in it. -/
def ConstantPool.WellKinded (pool : ConstantPool) : Prop :=
  ∀ constant ∈ pool.constants.toList, ∀ reference ∈ constant.references,
    reference.Holds (pool.constants.toList.map Constant.kind?)

/-- An entry at an index is one of the entries. -/
theorem mem_of_entryAt? {α : Type} {entries : List α} {index : UInt16} {entry : α}
    (found : entryAt? entries index = some entry) : entry ∈ entries := by
  unfold entryAt? at found
  split at found
  · cases found
  · exact List.mem_of_getElem? found

/-! ## Asking for a kind -/

namespace ConstantPool

variable {pool : ConstantPool} {index : UInt16} {kind : ExpectedConstant} {α : Type}

/-- A constant is required where the pool has it. -/
theorem required_eq_ok_iff {constant : Constant} :
    pool.required index = .ok constant ↔ pool.constantAt? index = some constant := by
  have same := toOption_lookupIndex pool.constants.toList index
  constructor
  · intro found
    rw [constantAt?, ← same]
    exact congrArg Except.toOption found
  · exact required_of_constantAt?

/-- There is a constant of a kind at an index. -/
def HasKind (pool : ConstantPool) (kind : ExpectedConstant) (index : UInt16) : Prop :=
  ∃ constant, pool.constantAt? index = some constant ∧ constant.kind? = some kind

/-- A reference to a constant of some kind holds if there is a constant of that kind. -/
theorem holds_iff_hasKind :
    Reference.Holds (pool.constants.toList.map Constant.kind?) ⟨index, some kind⟩ ↔
      pool.HasKind kind index := by
  unfold Reference.Holds HasKind constantAt?
  rw [entryAt?_map]
  simp

/-- A reference to a constant of any kind holds if there is a constant. -/
theorem holds_iff_exists :
    Reference.Holds (pool.constants.toList.map Constant.kind?) ⟨index, none⟩ ↔
      ∃ constant, pool.required index = .ok constant := by
  simp only [required_eq_ok_iff]
  unfold Reference.Holds constantAt?
  rw [entryAt?_map]
  simp

/-- An outcome depends on the constant at an index, and other kinds than the given one are
refused. -/
def AsksFor (pool : ConstantPool) (kind : ExpectedConstant) (index : UInt16)
    (outcome : Except Error α) : Prop :=
  ∃ next, outcome = pool.required index >>= next ∧
    ∀ constant, constant.kind? ≠ some kind → next constant = refuse index kind

/-- A text is asked for by its kind. -/
theorem asksFor_utf8 : pool.AsksFor .utf8 index (pool.utf8 index) := by
  refine ⟨_, rfl, fun constant other => ?_⟩
  cases constant with
  | utf8 text => exact absurd rfl other
  | _ => rfl

/-- The name of a class is asked for by the kind of class references. -/
theorem asksFor_className : pool.AsksFor .classReference index (pool.className index) := by
  refine ⟨_, rfl, fun constant other => ?_⟩
  cases constant with
  | classRef target => exact absurd rfl other
  | _ => rfl

/-- A name with its type is asked for by its kind. -/
theorem asksFor_nameAndType : pool.AsksFor .nameAndType index (pool.nameAndType index) := by
  refine ⟨_, rfl, fun constant other => ?_⟩
  cases constant with
  | nameAndType name descriptor => exact absurd rfl other
  | _ => rfl

/-- A member is asked for by the kind that all references to members share. -/
theorem asksFor_member : pool.AsksFor .member index (pool.member index) := by
  refine ⟨_, rfl, fun constant other => ?_⟩
  cases constant with
  | fieldRef owner pair | methodRef owner pair | interfaceMethodRef owner pair =>
    exact absurd rfl other
  | _ => rfl

/-- What asks for a kind succeeds at constants of that kind only. -/
theorem AsksFor.hasKind {outcome : Except Error α} {value : α}
    (asks : pool.AsksFor kind index outcome) (found : outcome = .ok value) :
    pool.HasKind kind index := by
  obtain ⟨next, rfl, refuses⟩ := asks
  obtain ⟨constant, given, gives⟩ := Except.bind_eq_ok.1 found
  refine ⟨constant, required_eq_ok_iff.1 given, ?_⟩
  by_contra other
  rw [refuses constant other] at gives
  cases gives

/-- What succeeds at constants of its kind succeeds where there is one. -/
theorem exists_of_hasKind {next : Constant → Except Error α}
    (succeeds : ∀ constant, pool.constantAt? index = some constant → constant.kind? = some kind →
      ∃ value, next constant = .ok value)
    (has : pool.HasKind kind index) : ∃ value, pool.required index >>= next = .ok value := by
  obtain ⟨constant, given, same⟩ := has
  obtain ⟨value, gives⟩ := succeeds constant given same
  exact ⟨value, Except.bind_eq_ok.2 ⟨constant, required_eq_ok_iff.2 given, gives⟩⟩

/-- There is a text where a text constant is. -/
theorem exists_utf8 (has : pool.HasKind .utf8 index) : ∃ text, pool.utf8 index = .ok text := by
  refine exists_of_hasKind (fun constant _ same => ?_) has
  cases constant with
  | utf8 text => exact ⟨text, rfl⟩
  | _ => cases same

/-! ## Following references -/

section

variable (kinded : pool.WellKinded)

include kinded

/-- A constant of a pool refers to constants of the right kinds. -/
theorem WellKinded.hasKind {constant : Constant} (given : pool.constantAt? index = some constant)
    {target : UInt16} (refers : ⟨target, some kind⟩ ∈ constant.references) :
    pool.HasKind kind target :=
  holds_iff_hasKind.1 (kinded constant (mem_of_entryAt? given) _ refers)

/-- There is a name where a class reference is, since the reference holds. -/
theorem exists_className (has : pool.HasKind .classReference index) :
    ∃ name, pool.className index = .ok name := by
  refine exists_of_hasKind (fun constant given same => ?_) has
  cases constant with
  | classRef target => exact exists_utf8 (kinded.hasKind given (List.mem_singleton_self _))
  | _ => cases same

/-- There are a name and a type where their pair is, since both references hold. -/
theorem exists_nameAndType (has : pool.HasKind .nameAndType index) :
    ∃ pair, pool.nameAndType index = .ok pair := by
  refine exists_of_hasKind (fun constant given same => ?_) has
  cases constant with
  | nameAndType name descriptor =>
    obtain ⟨first, named⟩ := exists_utf8 (kinded.hasKind given (.head _))
    obtain ⟨second, described⟩ := exists_utf8 (kinded.hasKind given (.tail _ (.head _)))
    refine ⟨(first, second), ?_⟩
    dsimp only
    rw [named, described]
    rfl
  | _ => cases same

/-- There is a member where a reference to one is, since its class and its pair are there. -/
theorem exists_member (has : pool.HasKind .member index) :
    ∃ reference, pool.member index = .ok reference := by
  refine exists_of_hasKind (fun constant given same => ?_) has
  cases constant with
  | fieldRef owner pair | methodRef owner pair | interfaceMethodRef owner pair =>
    -- the class and the pair lead to texts, by references that hold again
    obtain ⟨name, named⟩ := exists_className kinded (kinded.hasKind given (.head _))
    obtain ⟨⟨first, second⟩, paired⟩ :=
      exists_nameAndType kinded (kinded.hasKind given (.tail _ (.head _)))
    refine ⟨⟨name, first, second⟩, ?_⟩
    dsimp only
    rw [paired]
    change (pool.className owner >>= fun name => pure (⟨name, first, second⟩ : MemberReference)) = _
    rw [named]
    rfl
  | _ => cases same

end

/-! ## Checking references -/

/-- What is not needed only has to succeed. -/
theorem discard_eq_ok {outcome : Except Error α} :
    discard outcome = .ok () ↔ ∃ value, outcome = .ok value := by
  cases outcome with
  | error failure => exact ⟨nofun, nofun⟩
  | ok value => exact ⟨fun _ => ⟨value, rfl⟩, fun _ => rfl⟩

/-- A check of two references succeeds if both of them hold. -/
theorem discard_bind_eq_ok {outcome : Except Error α} {next : Except Error Unit} :
    (discard outcome >>= fun _ => next) = .ok () ↔
      (∃ value, outcome = .ok value) ∧ next = .ok () := by
  rw [Except.bind_eq_ok, ← discard_eq_ok]
  exact ⟨fun ⟨_, first, second⟩ => ⟨first, second⟩, fun ⟨first, second⟩ => ⟨(), first, second⟩⟩

/-- The references of a constant that passes its check hold. -/
theorem holds_of_check {constant : Constant} (checked : pool.check constant = .ok ()) :
    ∀ reference ∈ constant.references,
      reference.Holds (pool.constants.toList.map Constant.kind?) := by
  cases constant with
  | classRef target | methodType target | moduleRef target | packageRef target =>
    obtain ⟨_, found⟩ := discard_eq_ok.1 checked
    exact List.forall_mem_singleton.2 (holds_iff_hasKind.2 (asksFor_utf8.hasKind found))
  | nameAndType name descriptor =>
    obtain ⟨⟨_, named⟩, described⟩ := discard_bind_eq_ok.1 checked
    obtain ⟨_, described⟩ := discard_eq_ok.1 described
    exact List.forall_mem_cons.2 ⟨holds_iff_hasKind.2 (asksFor_utf8.hasKind named),
      List.forall_mem_singleton.2 (holds_iff_hasKind.2 (asksFor_utf8.hasKind described))⟩
  | fieldRef owner pair | methodRef owner pair | interfaceMethodRef owner pair =>
    obtain ⟨⟨_, named⟩, paired⟩ := discard_bind_eq_ok.1 checked
    obtain ⟨_, paired⟩ := discard_eq_ok.1 paired
    exact List.forall_mem_cons.2 ⟨holds_iff_hasKind.2 (asksFor_className.hasKind named),
      List.forall_mem_singleton.2 (holds_iff_hasKind.2 (asksFor_nameAndType.hasKind paired))⟩
  | methodHandle kind target =>
    -- any constant will do, also the second entry of a wide one
    exact List.forall_mem_singleton.2 (holds_iff_exists.2 (discard_eq_ok.1 checked))
  | dynamic bootstrap pair | invokeDynamic bootstrap pair =>
    obtain ⟨_, paired⟩ := discard_eq_ok.1 checked
    exact List.forall_mem_singleton.2 (holds_iff_hasKind.2 (asksFor_nameAndType.hasKind paired))
  | _ => nofun

/-- The constants of a pool pass their checks if all references hold. -/
theorem WellKinded.check (kinded : pool.WellKinded) {constant : Constant}
    (given : constant ∈ pool.constants.toList) : pool.check constant = .ok () := by
  have holds := kinded constant given
  -- the references of a constant are those that its check looks up, in the same order
  cases constant with
  | classRef target | methodType target | moduleRef target | packageRef target =>
    have named := List.forall_mem_singleton.1 holds
    exact discard_eq_ok.2 (exists_utf8 (holds_iff_hasKind.1 named))
  | nameAndType name descriptor =>
    obtain ⟨named, described⟩ := List.forall_mem_cons.1 holds
    have described := List.forall_mem_singleton.1 described
    exact discard_bind_eq_ok.2 ⟨exists_utf8 (holds_iff_hasKind.1 named),
      discard_eq_ok.2 (exists_utf8 (holds_iff_hasKind.1 described))⟩
  | fieldRef owner pair | methodRef owner pair | interfaceMethodRef owner pair =>
    obtain ⟨named, paired⟩ := List.forall_mem_cons.1 holds
    have paired := List.forall_mem_singleton.1 paired
    exact discard_bind_eq_ok.2 ⟨exists_className kinded (holds_iff_hasKind.1 named),
      discard_eq_ok.2 (exists_nameAndType kinded (holds_iff_hasKind.1 paired))⟩
  | methodHandle kind target =>
    have found := List.forall_mem_singleton.1 holds
    exact discard_eq_ok.2 (holds_iff_exists.1 found)
  | dynamic bootstrap pair | invokeDynamic bootstrap pair =>
    have paired := List.forall_mem_singleton.1 holds
    exact discard_eq_ok.2 (exists_nameAndType kinded (holds_iff_hasKind.1 paired))
  | _ => rfl

end ConstantPool

/-! ## Resolving strings -/

namespace RawConstant

variable {table : List RawConstant} {entry : RawConstant} {index : UInt16} {constant : Constant}

/-- The text of a string constant is that of the text constant it refers to. -/
theorem resolve_stringRef_eq_ok :
    (stringRef index).resolve table.toArray = .ok constant ↔
      ∃ text, entryAt? table index = some (plain (.utf8 text)) ∧ constant = .string text := by
  rw [← toOption_lookupIndex, resolve, Except.bind_eq_ok]
  constructor
  · rintro ⟨found, looked, gives⟩
    split at gives
    · next text =>
      cases gives
      exact ⟨text, congrArg Except.toOption looked, rfl⟩
    · cases gives
  · rintro ⟨text, found, rfl⟩
    exact ⟨plain (.utf8 text), Except.eq_ok_of_mem_toOption found, rfl⟩

/-- A string constant is resolved exactly if its reference holds. -/
theorem exists_resolve_stringRef_iff :
    (∃ constant, (stringRef index).resolve table.toArray = .ok constant) ↔
      Reference.Holds (table.map kind?) ⟨index, some .utf8⟩ := by
  simp only [resolve_stringRef_eq_ok]
  unfold Reference.Holds
  rw [entryAt?_map]
  constructor
  · rintro ⟨_, text, found, -⟩
    rw [found]
    exact ⟨some .utf8, rfl, fun kind same => same⟩
  · rintro ⟨_, given, same⟩
    obtain ⟨target, found, rfl⟩ := Option.map_eq_some_iff.1 given
    have texts : target.kind? = some .utf8 := same _ rfl
    cases target with
    | stringRef other => cases texts
    | plain constant =>
      cases constant with
      | utf8 text => exact ⟨.string text, text, found, rfl⟩
      | _ => cases texts

/-- Resolving a constant keeps its kind. -/
theorem kind?_of_resolve (resolved : entry.resolve table.toArray = .ok constant) :
    constant.kind? = entry.kind? := by
  cases entry with
  | plain constant =>
    cases resolved
    rfl
  | stringRef index =>
    obtain ⟨text, -, rfl⟩ := resolve_stringRef_eq_ok.1 resolved
    rfl

/-- Resolving a constant takes away references that hold only. -/
theorem holds_references_iff (resolved : entry.resolve table.toArray = .ok constant) :
    (∀ reference ∈ entry.references, reference.Holds (table.map kind?)) ↔
      ∀ reference ∈ constant.references, reference.Holds (table.map kind?) := by
  cases entry with
  | plain constant =>
    cases resolved
    exact Iff.rfl
  | stringRef index =>
    have holds := exists_resolve_stringRef_iff.1 ⟨constant, resolved⟩
    obtain ⟨text, -, rfl⟩ := resolve_stringRef_eq_ok.1 resolved
    exact ⟨fun _ => nofun, fun _ => List.forall_mem_singleton.2 holds⟩

/-- A table is resolved if its references hold. -/
theorem WellKinded.exists_resolve (kinded : WellKinded table) :
    ∃ constants, table.mapM (resolve table.toArray) = .ok constants := by
  refine Except.exists_mapM_iff.2 fun entry listed => ?_
  cases entry with
  | plain constant => exact ⟨constant, rfl⟩
  | stringRef index =>
    exact exists_resolve_stringRef_iff.2 (kinded _ listed _ (List.mem_singleton_self _))

/-- The references of a table hold if those of the constants that it is resolved to hold. -/
theorem wellKinded_iff {constants : List Constant}
    (resolved : table.mapM (resolve table.toArray) = .ok constants) :
    WellKinded table ↔ ConstantPool.WellKinded ⟨constants.toArray⟩ := by
  have kinds : constants.map Constant.kind? = table.map kind? :=
    Except.map_of_mapM resolved fun entry constant => kind?_of_resolve
  unfold WellKinded ConstantPool.WellKinded
  rw [List.toList_toArray, kinds]
  constructor
  · intro kinded constant given
    obtain ⟨entry, listed, own⟩ := Except.exists_of_mem_mapM resolved given
    exact (holds_references_iff own).1 (kinded entry listed)
  · intro kinded entry listed
    obtain ⟨constant, given, own⟩ := Except.exists_mem_of_mapM resolved listed
    exact (holds_references_iff own).2 (kinded constant given)

end RawConstant

namespace ConstantPool

variable {raw : List RawConstant} {pool : ConstantPool}

/-- A table becomes a pool if all its references hold; the pool has the constants that it is
resolved to. -/
theorem ofRaw_eq_ok_iff :
    ofRaw raw = .ok pool ↔ RawConstant.WellKinded raw ∧
      raw.mapM (RawConstant.resolve raw.toArray) = .ok pool.constants.toList := by
  unfold ofRaw
  rw [Except.bind_eq_ok]
  constructor
  · rintro ⟨constants, resolved, accepted⟩
    obtain ⟨_, checked, same⟩ := Except.bind_eq_ok.1 accepted
    cases same
    exact ⟨(RawConstant.wellKinded_iff resolved).2 fun constant given =>
      holds_of_check (Except.forM_eq_ok.1 checked constant given), resolved⟩
  · rintro ⟨kinded, resolved⟩
    have checked := (RawConstant.wellKinded_iff resolved).1 kinded
    exact ⟨pool.constants.toList, resolved, Except.bind_eq_ok.2
      ⟨(), Except.forM_eq_ok.2 fun constant given => checked.check given, rfl⟩⟩

/-- A pool is made of constants exactly if all their references hold. -/
theorem exists_ofRaw_iff : (∃ pool, ofRaw raw = .ok pool) ↔ RawConstant.WellKinded raw := by
  constructor
  · rintro ⟨pool, made⟩
    exact (ofRaw_eq_ok_iff.1 made).1
  · intro kinded
    obtain ⟨constants, resolved⟩ := kinded.exists_resolve
    exact ⟨⟨constants.toArray⟩, ofRaw_eq_ok_iff.2 ⟨kinded, resolved⟩⟩

end ConstantPool

end ClassLowering
