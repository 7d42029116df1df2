import ClassLowering.Lowering.Body

/-! # Outcomes of computations that fail, log and keep state

What a sequence of computations gives is what its parts give, one after the other. The lemmas here
take a sequence apart: into its steps when it succeeds (`bind_eq_ok`), and into outcomes without
logs (`result_mapM`, `result_foldlM`). A method that is lowered is taken apart once for all
(`lowerBody_parts`). -/

namespace ClassLowering

variable {ε α β : Type}

/-! ## Failing -/

/-- A sequence of two computations succeeds when both do. -/
theorem Except.bind_eq_ok {first : Except ε α} {next : α → Except ε β} {result : β} :
    (first >>= next) = .ok result ↔ ∃ value, first = .ok value ∧ next value = .ok result := by
  cases first with
  | error failure =>
    constructor
    · intro same
      cases same
    · rintro ⟨value, same, -⟩
      cases same
  | ok value =>
    constructor
    · intro same
      exact ⟨value, rfl, same⟩
    · rintro ⟨_, same, after⟩
      cases same
      exact after

/-- A mapped computation succeeds when the computation does. -/
theorem Except.map_eq_ok {first : Except ε α} {f : α → β} {result : β} :
    f <$> first = .ok result ↔ ∃ value, first = .ok value ∧ f value = result := by
  cases first with
  | error failure =>
    constructor
    · intro same
      cases same
    · rintro ⟨value, same, -⟩
      cases same
  | ok value =>
    constructor
    · intro same
      cases same
      exact ⟨value, rfl, rfl⟩
    · rintro ⟨_, same, rfl⟩
      cases same
      rfl

/-- A list of computations succeeds when each of them does. -/
theorem Except.mapM_eq_ok {f : α → Except ε β} {items : List α} {results : List β} :
    items.mapM f = .ok results ↔ items.map f = results.map .ok := by
  induction items generalizing results with
  | nil =>
    rw [List.mapM_nil, List.map_nil, eq_comm (a := []), List.map_eq_nil_iff]
    exact ⟨fun same => by cases same; rfl, fun same => by rw [same]; rfl⟩
  | cons item items rest =>
    rw [List.mapM_cons, bind_eq_ok, List.map_cons, eq_comm (a := _ :: _), List.map_eq_cons_iff]
    constructor
    · rintro ⟨value, first, others⟩
      obtain ⟨values, remaining, others⟩ := bind_eq_ok.1 others
      cases others
      exact ⟨value, values, rfl, first.symm, (rest.1 remaining).symm⟩
    · rintro ⟨value, values, rfl, first, others⟩
      exact ⟨value, first.symm, bind_eq_ok.2 ⟨values, rest.2 others.symm, rfl⟩⟩

/-- A list of computations has results if each of them has one. -/
theorem Except.exists_mapM_iff {f : α → Except ε β} {items : List α} :
    (∃ results, items.mapM f = .ok results) ↔ ∀ item ∈ items, ∃ result, f item = .ok result := by
  induction items with
  | nil => exact ⟨fun _ _ listed => absurd listed List.not_mem_nil, fun _ => ⟨[], rfl⟩⟩
  | cons item items rest =>
    rw [List.forall_mem_cons, ← rest]
    constructor
    · rintro ⟨results, found⟩
      rw [List.mapM_cons] at found
      obtain ⟨result, first, found⟩ := bind_eq_ok.1 found
      obtain ⟨others, remaining, -⟩ := bind_eq_ok.1 found
      exact ⟨⟨result, first⟩, others, remaining⟩
    · rintro ⟨⟨result, first⟩, others, remaining⟩
      refine ⟨result :: others, ?_⟩
      rw [List.mapM_cons]
      exact bind_eq_ok.2 ⟨result, first, bind_eq_ok.2 ⟨others, remaining, rfl⟩⟩

/-- The result at an index is that for the element at the index. -/
theorem Except.getElem?_mapM {f : α → Except ε β} {items : List α} {results : List β}
    (found : items.mapM f = .ok results) (index : Nat) :
    items[index]?.map f = results[index]?.map .ok := by
  rw [← List.getElem?_map, mapM_eq_ok.1 found, List.getElem?_map]

/-- There is one result for each element. -/
theorem Except.length_mapM {f : α → Except ε β} {items : List α} {results : List β}
    (found : items.mapM f = .ok results) : results.length = items.length := by
  simpa using (congrArg List.length (mapM_eq_ok.1 found)).symm

/-- A result for a list is the result for one of its elements. -/
theorem Except.exists_of_mem_mapM {f : α → Except ε β} {items : List α} {results : List β}
    (found : items.mapM f = .ok results) {result : β} (listed : result ∈ results) :
    ∃ item ∈ items, f item = .ok result := by
  have member := List.mem_map_of_mem (f := (Except.ok : β → Except ε β)) listed
  rw [← mapM_eq_ok.1 found] at member
  exact List.mem_map.1 member

/-- The result for an element of a list is among the results for the list. -/
theorem Except.exists_mem_of_mapM {f : α → Except ε β} {items : List α} {results : List β}
    (found : items.mapM f = .ok results) {item : α} (listed : item ∈ items) :
    ∃ result ∈ results, f item = .ok result := by
  have member := List.mem_map_of_mem (f := f) listed
  rw [mapM_eq_ok.1 found] at member
  obtain ⟨result, given, same⟩ := List.mem_map.1 member
  exact ⟨result, given, same.symm⟩

/-- What can be told from the results can be told from the elements if it can for each of them. -/
theorem Except.map_of_mapM {γ : Type} {f : α → Except ε β} {items : List α} {results : List β}
    {view : β → γ} {viewItem : α → γ} (found : items.mapM f = .ok results)
    (same : ∀ item result, f item = .ok result → view result = viewItem item) :
    results.map view = items.map viewItem := by
  induction items generalizing results with
  | nil =>
    cases found
    rfl
  | cons item items induction =>
    rw [List.mapM_cons] at found
    obtain ⟨first, given, found⟩ := bind_eq_ok.1 found
    obtain ⟨others, givenOthers, found⟩ := bind_eq_ok.1 found
    cases found
    rw [List.map_cons, List.map_cons, same item first given, induction givenOthers]

/-- A list of checks succeeds when each of them does. -/
theorem Except.forM_eq_ok {action : α → Except ε PUnit} {items : List α} :
    items.forM action = .ok () ↔ ∀ item ∈ items, action item = .ok () := by
  induction items with
  | nil => exact ⟨fun _ => nofun, fun _ => rfl⟩
  | cons item items induction =>
    change (action item >>= fun _ => items.forM action) = .ok () ↔ _
    rw [bind_eq_ok, List.forall_mem_cons, ← induction]
    exact ⟨fun ⟨_, first, others⟩ => ⟨first, others⟩, fun ⟨first, others⟩ => ⟨(), first, others⟩⟩

/-- A computation that gives a value succeeds with it. -/
theorem Except.eq_ok_of_mem_toOption {outcome : Except ε α} {value : α}
    (given : value ∈ outcome.toOption) : outcome = .ok value := by
  cases outcome <;> cases given
  rfl

/-! ## Logging -/

namespace Logged

/-- Two outcomes with the same log and the same result are equal. -/
@[ext] theorem ext {first second : Logged ε α} (log : first.log = second.log)
    (result : first.result = second.result) : first = second := by
  cases first
  cases second
  cases log
  cases result
  rfl

/-- Mapping the identity changes neither log nor result. -/
theorem id_map (first : Logged ε α) : id <$> first = first := by
  obtain ⟨log, result⟩ := first
  cases result with
  | error failure => rfl
  | ok value => exact Logged.ext (List.append_nil log) rfl

/-- How a sequence of three computations is grouped does not matter. -/
theorem bind_assoc {γ : Type} (first : Logged ε α) (next : α → Logged ε β)
    (last : β → Logged ε γ) :
    first >>= next >>= last = first >>= fun value => next value >>= last := by
  obtain ⟨log, result⟩ := first
  cases result with
  | error failure => rfl
  | ok value =>
    change (⟨log ++ (next value).log, (next value).result⟩ : Logged ε β) >>= last =
      ⟨log ++ (next value >>= last).log, (next value >>= last).result⟩
    generalize next value = middle
    obtain ⟨middleLog, middleResult⟩ := middle
    cases middleResult with
    | error failure => rfl
    | ok middle => exact Logged.ext (List.append_assoc log middleLog (last middle).log) rfl

instance : LawfulMonad (Logged ε) :=
  LawfulMonad.mk' (Logged ε) id_map (fun _ _ => rfl) bind_assoc

/-- A sequence of two logged computations succeeds when both do. -/
theorem bind_eq_ok {first : Logged ε α} {next : α → Logged ε β} {result : β} :
    (first >>= next).result = .ok result ↔
      ∃ value, first.result = .ok value ∧ (next value).result = .ok result := by
  rw [result_bind]
  exact Except.bind_eq_ok

/-- Mapping a logged computation maps its outcome. -/
@[simp] theorem result_map (f : α → β) (first : Logged ε α) :
    (f <$> first).result = f <$> first.result := by
  obtain ⟨log, result⟩ := first
  cases result <;> rfl

/-- A logged computation that is caught gives its own outcome or that of the handler. -/
theorem result_tryCatch (first : Logged ε α) (handler : ε → Logged ε α) :
    (tryCatch first handler).result =
      match first.result with
      | .error failure => (handler failure).result
      | .ok value => .ok value := by
  obtain ⟨log, result⟩ := first
  cases result <;> rfl

/-- Outcomes for a list are those of its elements, in order. -/
theorem result_mapM (f : α → Logged ε β) (items : List α) :
    (items.mapM f).result = items.mapM fun item => (f item).result := by
  induction items with
  | nil => rfl
  | cons item items rest =>
    rw [List.mapM_cons, List.mapM_cons, result_bind]
    simp only [result_bind, rest, result_pure]
    rfl

/-- The outcome of a fold is the fold of the outcomes. -/
theorem result_foldlM (f : β → α → Logged ε β) (start : β) (items : List α) :
    (items.foldlM f start).result =
      items.foldlM (fun state item => (f state item).result) start := by
  induction items generalizing start with
  | nil => rfl
  | cons item items rest =>
    rw [List.foldlM_cons, List.foldlM_cons, result_bind]
    simp only [rest]

end Logged

/-! ## Lowering with a storage -/

/-- The instruction that loads from a place. -/
def Place.load : Place → Target.Instruction
  | parameter index => .ldarg index
  | localVariable index => .ldloc index

/-- The instruction that stores into a place. -/
def Place.store : Place → Target.Instruction
  | parameter index => .starg index
  | localVariable index => .stloc index

namespace Emit

variable {first : Emit α} {next : α → Emit β} {storage stop : LocalStorage} {result : β}

/-- A sequence of two steps succeeds when both do, one after the other. -/
theorem bind_eq_ok :
    ((first >>= next) storage).result = .ok (result, stop) ↔
      ∃ value middle, (first storage).result = .ok (value, middle) ∧
        (next value middle).result = .ok (result, stop) := by
  change (first storage >>= fun step => next step.1 step.2).result = _ ↔ _
  rw [Logged.bind_eq_ok]
  constructor
  · rintro ⟨⟨value, middle⟩, before, after⟩
    exact ⟨value, middle, before, after⟩
  · rintro ⟨value, middle, before, after⟩
    exact ⟨(value, middle), before, after⟩

/-- A mapped step succeeds when the step does. -/
theorem map_eq_ok {f : α → β} :
    ((f <$> first) storage).result = .ok (result, stop) ↔
      ∃ value, (first storage).result = .ok (value, stop) ∧ f value = result := by
  change ((first storage >>= fun step => pure (f step.1, step.2)) : Logged Error _).result = _ ↔ _
  rw [Logged.bind_eq_ok]
  constructor
  · rintro ⟨⟨value, middle⟩, before, after⟩
    cases after
    exact ⟨value, before, rfl⟩
  · rintro ⟨value, before, rfl⟩
    exact ⟨(value, stop), before, rfl⟩

/-- A step without effect leaves the storage alone. -/
theorem pure_eq_ok {value : α} {stored : α} :
    ((pure value : Emit α) storage).result = .ok (stored, stop) ↔
      value = stored ∧ storage = stop := by
  change Except.ok (value, storage) = _ ↔ _
  rw [Except.ok.injEq, Prod.mk.injEq]

/-- What fails or succeeds outside the storage leaves it alone. -/
theorem lift_eq_ok {outcome : Except Error α} {value : α} :
    ((liftM outcome : Emit α) storage).result = .ok (value, stop) ↔
      outcome = .ok value ∧ storage = stop := by
  cases outcome with
  | error failure =>
    constructor
    · intro same
      cases same
    · rintro ⟨same, -⟩
      cases same
  | ok found =>
    change Except.ok (found, storage) = _ ↔ _
    rw [Except.ok.injEq, Prod.mk.injEq, Except.ok.injEq]

/-- Loading a slot is loading from the place that is looked up. -/
theorem load_eq_map (slot : Nat) (offset : UInt32) (kind : Bytecode.ValueKind) :
    load slot offset kind = Place.load <$> place slot offset kind := by
  rw [load, ← bind_pure_comp]
  congr 1
  funext place
  cases place <;> rfl

/-- Storing into a slot is storing into the place that is looked up. -/
theorem store_eq_map (slot : Nat) (offset : UInt32) (kind : Bytecode.ValueKind) :
    store slot offset kind = Place.store <$> place slot offset kind := by
  rw [store, ← bind_pure_comp]
  congr 1
  funext place
  cases place <;> rfl

end Emit

/-! ## Descriptors and bodies -/

/-- The descriptor of a method that is accepted is one that can be read. -/
theorem MethodType.ofDescriptor_eq_ok {descriptor : String} {type : MethodType} :
    ofDescriptor descriptor = .ok type ↔ ofDescriptor? descriptor = some type := by
  unfold ofDescriptor
  cases ofDescriptor? descriptor <;> simp

/-- The descriptor of a field that is accepted is one that can be read. -/
theorem FieldType.ofDescriptor_eq_ok {descriptor : String} {type : FieldType} :
    ofDescriptor descriptor = .ok type ↔ ofDescriptor? descriptor = some type := by
  unfold ofDescriptor
  cases ofDescriptor? descriptor <;> simp

/-- A method that is lowered has a descriptor, a storage for its slots and contributions of its
instructions, which become the target instructions and the deferred records. -/
theorem lowerBody_parts {scope : Scope} {pool : ConstantPool} {method : Member} {code : MethodCode}
    {body : Target.Body} (lowered : (lowerBody scope pool method code).result = .ok body) :
    ∃ type storage contributions later,
      MethodType.ofDescriptor? method.descriptor = some type ∧
      (LocalStorage.ofTable scope (Attribute.localVariables code.attributes)
        (LocalStorage.argumentSlots type.parameters !method.flags.isStatic)).result =
          .ok storage ∧
      (lowerInstructions scope pool (withNext code.codeLength code.instructions) storage).result =
        .ok (contributions, later) ∧
      body.locals = later.locals ∧ body.instructions = collectInstructions contributions ∧
      body.deferred = collectDeferred contributions := by
  obtain ⟨type, typed, lowered⟩ := Logged.bind_eq_ok.1 lowered
  obtain ⟨storage, tabled, lowered⟩ := Logged.bind_eq_ok.1 lowered
  obtain ⟨⟨contributions, later⟩, emitted, lowered⟩ := Logged.bind_eq_ok.1 lowered
  cases lowered
  exact ⟨type, storage, contributions, later, MethodType.ofDescriptor_eq_ok.1 typed, tabled,
    emitted, rfl, rfl, rfl⟩

/-- The parts of a method that is lowered, without its deferred records. -/
theorem lowerBody_spec {scope : Scope} {pool : ConstantPool} {method : Member} {code : MethodCode}
    {body : Target.Body} (lowered : (lowerBody scope pool method code).result = .ok body) :
    ∃ type storage contributions later,
      MethodType.ofDescriptor? method.descriptor = some type ∧
      (LocalStorage.ofTable scope (Attribute.localVariables code.attributes)
        (LocalStorage.argumentSlots type.parameters !method.flags.isStatic)).result =
          .ok storage ∧
      (lowerInstructions scope pool (withNext code.codeLength code.instructions) storage).result =
        .ok (contributions, later) ∧
      body.locals = later.locals ∧ body.instructions = collectInstructions contributions := by
  obtain ⟨type, storage, contributions, later, typed, tabled, emitted, locals, instructions, -⟩ :=
    lowerBody_parts lowered
  exact ⟨type, storage, contributions, later, typed, tabled, emitted, locals, instructions⟩

end ClassLowering
