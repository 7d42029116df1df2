import ClassLowering.Proofs.Encoding.Constants
import ClassLowering.Proofs.Encoding.Instructions

/-! # Writing and reading attributes

An attribute is stored as the index of its name, a length and that many bytes; the code of a method
holds attributes in turn, to any depth. Stored attributes have indices (`StoredAttribute`); what
they stand for has names, texts and constants (`StoredAttribute.denote?`). Reading the bytes of
stored attributes gives the attributes that they stand for (`StoredAttribute.reads_readList`). The
induction is on the tree of attributes, and it must not matter where the bytes of an attribute
start. -/

namespace ClassLowering

open Bytecode (Instruction)
open Read

/-! ## Rows of tables -/

/-- A row of an exception table, with the index of a class. -/
structure StoredHandler where
  start : UInt16
  stop : UInt16
  handler : UInt16
  catchClass : UInt16

namespace StoredHandler

def encode (row : StoredHandler) : List UInt8 :=
  encode16 row.start ++ (encode16 row.stop ++ (encode16 row.handler ++ encode16 row.catchClass))

/-- The row of an exception table that is meant. -/
def denote? (pool : ConstantPool) (row : StoredHandler) : Option ExceptionHandler := do
  let catchClass ← pool.optionalClassAt? row.catchClass
  return ⟨row.start, row.stop, row.handler, catchClass⟩

/-- A handler is read from the bytes that it is stored in. -/
theorem reads_read {pool : ConstantPool} {row : StoredHandler} {meant : ExceptionHandler}
    (denotes : row.denote? pool = some meant) :
    Reads (Attribute.readExceptionHandler pool) row.encode meant := by
  obtain ⟨catchClass, found, denotes⟩ := Option.bind_eq_some_iff.1 denotes
  cases denotes
  refine (reads_u16 row.start).bind ((reads_u16 row.stop).bind ((reads_u16 row.handler).bind ?_))
  refine ((reads_u16 row.catchClass).bind ?_).congr (List.append_nil _).symm
  exact (reads_lift (ConstantPool.className?_of_optionalClassAt? found)).bind_pure _

end StoredHandler

/-- A row of a table of local variables, with the indices of texts. -/
structure StoredVariable where
  start : UInt16
  length : UInt16
  name : UInt16
  descriptor : UInt16
  index : UInt16

namespace StoredVariable

def encode (row : StoredVariable) : List UInt8 :=
  encode16 row.start ++ (encode16 row.length ++ (encode16 row.name ++ (encode16 row.descriptor ++
    encode16 row.index)))

/-- The local variable that is meant. -/
def denote? (pool : ConstantPool) (row : StoredVariable) : Option LocalVariable := do
  let name ← pool.textAt? row.name
  let descriptor ← pool.textAt? row.descriptor
  return ⟨row.start, row.length, name, descriptor, row.index⟩

/-- A variable is read from the bytes that it is stored in. -/
theorem reads_read {pool : ConstantPool} {row : StoredVariable} {meant : LocalVariable}
    (denotes : row.denote? pool = some meant) :
    Reads (Attribute.readLocalVariable pool) row.encode meant := by
  obtain ⟨name, named, denotes⟩ := Option.bind_eq_some_iff.1 denotes
  obtain ⟨descriptor, described, denotes⟩ := Option.bind_eq_some_iff.1 denotes
  cases denotes
  refine (reads_u16 row.start).bind ((reads_u16 row.length).bind ((reads_u16 row.name).bind ?_))
  refine (reads_lift (ConstantPool.utf8_of_textAt? named)).bind ((reads_u16 row.descriptor).bind ?_)
  refine (reads_lift (ConstantPool.utf8_of_textAt? described)).bind ?_
  exact (reads_u16 row.index).bind_pure _

end StoredVariable

/-! ## Trees of attributes -/

/-- An attribute as a class file stores it. -/
inductive StoredAttribute where
  /-- An attribute with a name that is not known. -/
  | raw (name : UInt16) (bytes : List UInt8)
  /-- The code of a method, with attributes of its own. -/
  | code (name maxStack maxLocals : UInt16) (instructions : List Instruction)
      (handlers : List StoredHandler) (attributes : List StoredAttribute)
  /-- The local variables of a code array. -/
  | localVariableTable (name : UInt16) (rows : List StoredVariable)
  /-- The class that hosts the nest that this class is in. -/
  | nestHost (name host : UInt16)
  /-- The initial value of a field. -/
  | constantValue (name constant : UInt16)
  /-- The name of the file that a class was compiled from. -/
  | sourceFile (name file : UInt16)

namespace StoredAttribute

/-- The index of the name of an attribute. -/
def name : StoredAttribute → UInt16
  | raw name _ => name
  | code name _ _ _ _ _ => name
  | localVariableTable name _ => name
  | nestHost name _ => name
  | constantValue name _ => name
  | sourceFile name _ => name

/-- The bytes of the code of a method up to its attributes. -/
def encodeFrame (maxStack maxLocals : UInt16) (instructions : List Instruction)
    (handlers : List StoredHandler) : List UInt8 :=
  encode16 maxStack ++ (encode16 maxLocals ++
    (encode32 (Instruction.encodeAll instructions).length.toUInt32 ++
      (Instruction.encodeAll instructions ++ encodeCounted StoredHandler.encode handlers)))

/-- The bytes of an attribute with the index of its name and a payload. -/
def encodeWith (name : UInt16) (payload : List UInt8) : List UInt8 :=
  encode16 name ++ (encode32 payload.length.toUInt32 ++ payload)

mutual

/-- The bytes behind the name and the length of an attribute. -/
def payload : StoredAttribute → List UInt8
  | raw _ bytes => bytes
  | code _ maxStack maxLocals instructions handlers attributes =>
    encodeFrame maxStack maxLocals instructions handlers ++
      (encode16 attributes.length.toUInt16 ++ encodeAll attributes)
  | localVariableTable _ rows => encodeCounted StoredVariable.encode rows
  | nestHost _ host => encode16 host
  | constantValue _ constant => encode16 constant
  | sourceFile _ file => encode16 file

/-- The bytes of attributes, one after the other. -/
def encodeAll : List StoredAttribute → List UInt8
  | [] => []
  | first :: others => encodeWith first.name first.payload ++ encodeAll others

end

/-- The bytes of a list of attributes behind its length. -/
def encodeList (attributes : List StoredAttribute) : List UInt8 :=
  encode16 attributes.length.toUInt16 ++ encodeAll attributes

mutual

/-- The counts and lengths in an attribute can be written, and instructions are at their offsets. -/
def Fits : StoredAttribute → Prop
  | code _ _ _ instructions handlers attributes =>
    (∀ instruction ∈ instructions, instruction.Encodable) ∧
      Instruction.RunningOffsets 0 instructions ∧ handlers.length < 2 ^ 16 ∧
      attributes.length < 2 ^ 16 ∧ FitAll attributes
  | localVariableTable _ rows => rows.length < 2 ^ 16
  | raw _ _ | nestHost _ _ | constantValue _ _ | sourceFile _ _ => True

/-- The attributes and the lengths of their payloads can be written. -/
def FitAll : List StoredAttribute → Prop
  | [] => True
  | first :: others => first.payload.length < 2 ^ 32 ∧ first.Fits ∧ FitAll others

end

mutual

def decidableFits : (source : StoredAttribute) → Decidable source.Fits
  | code _ _ _ instructions handlers attributes =>
    have := decidableFitAll attributes
    inferInstanceAs (Decidable ((∀ instruction ∈ instructions, instruction.Encodable) ∧
      Instruction.RunningOffsets 0 instructions ∧ handlers.length < 2 ^ 16 ∧
      attributes.length < 2 ^ 16 ∧ FitAll attributes))
  | localVariableTable _ rows => inferInstanceAs (Decidable (rows.length < 2 ^ 16))
  | raw _ _ | nestHost _ _ | constantValue _ _ | sourceFile _ _ => inferInstanceAs (Decidable True)

def decidableFitAll : (sources : List StoredAttribute) → Decidable (FitAll sources)
  | [] => inferInstanceAs (Decidable True)
  | first :: others =>
    have := decidableFits first
    have := decidableFitAll others
    inferInstanceAs (Decidable (first.payload.length < 2 ^ 32 ∧ first.Fits ∧ FitAll others))

end

/-- A list of attributes and its length can be written. -/
def ListFits (attributes : List StoredAttribute) : Prop :=
  attributes.length < 2 ^ 16 ∧ FitAll attributes

instance (attributes : List StoredAttribute) : Decidable (ListFits attributes) :=
  have := decidableFitAll attributes
  inferInstanceAs (Decidable (_ ∧ _))

/-- The names of the attributes that are decoded. -/
def knownNames : List String :=
  ["Code", "LocalVariableTable", "NestHost", "ConstantValue", "SourceFile"]

section

variable (pool : ConstantPool)

/-- An attribute, if its name is at an index. -/
def ifNamed? (name : UInt16) (meant : Attribute) : Option Attribute :=
  if pool.textAt? name = some meant.name then some meant else none

mutual

/-- The attribute that is meant, if all indices are those of constants of the kinds that are
needed. -/
def denote? : StoredAttribute → Option Attribute
  | raw name bytes => do
    let text ← pool.textAt? name
    if text ∈ knownNames then none else some (.raw text bytes)
  | code name maxStack maxLocals instructions handlers attributes => do
    let rows ← handlers.mapM (StoredHandler.denote? pool)
    let nested ← denoteAll? attributes
    let length := (Instruction.encodeAll instructions).length.toUInt32
    ifNamed? pool name (.code ⟨maxStack, maxLocals, length, instructions, rows⟩ nested)
  | localVariableTable name rows => do
    let rows ← rows.mapM (StoredVariable.denote? pool)
    ifNamed? pool name (.localVariableTable rows)
  | nestHost name host => do
    let host ← pool.classAt? host
    ifNamed? pool name (.nestHost host)
  | constantValue name constant => do
    let constant ← pool.constantAt? constant
    ifNamed? pool name (.constantValue constant)
  | sourceFile name file => do
    let file ← pool.textAt? file
    ifNamed? pool name (.sourceFile file)

/-- The attributes that are meant, in their order. -/
def denoteAll? : List StoredAttribute → Option (List Attribute)
  | [] => some []
  | first :: others => do
    let first ← denote? first
    let others ← denoteAll? others
    return first :: others

end

end

/-! ## Reading them -/

variable {pool : ConstantPool}

/-- An attribute that is meant has its name at the index it is stored with. -/
theorem ifNamed?_eq_some {name : UInt16} {meant other : Attribute}
    (given : ifNamed? pool name meant = some other) :
    pool.textAt? name = some meant.name ∧ meant = other := by
  unfold ifNamed? at given
  split at given
  · next named => exact ⟨named, Option.some.inj given⟩
  · cases given

/-- What is done with a payload must not depend on where it starts. -/
theorem reads_readHeader_bind {β : Type} {next : String × Cursor → Read β} {name : UInt16}
    {text : String} {payload back : List UInt8} {result : β}
    (named : pool.textAt? name = some text) (small : payload.length < 2 ^ 32)
    (reads : ∀ base, Reads (next (text, ⟨payload, 0, base⟩)) back result) :
    Reads (Attribute.readHeader pool >>= next) (encodeWith name payload ++ back) result := by
  unfold Attribute.readHeader encodeWith
  simp only [bind_assoc, pure_bind, List.append_assoc]
  refine (reads_u16 name).bind ((reads_lift (ConstantPool.utf8_of_textAt? named)).bind ?_)
  refine (reads_u32 _).bind ?_
  rw [Nat.toUInt32_eq, UInt32.toNat_ofNat_of_lt' small]
  exact reads_sub_bind reads

/-- The code of a method is read from its bytes, and the number of its attributes behind it. -/
theorem reads_readCodeFrame {maxStack maxLocals count : UInt16} {instructions : List Instruction}
    {handlers : List StoredHandler} {rows : List ExceptionHandler}
    (small : (Instruction.encodeAll instructions).length < 2 ^ 32)
    (encodable : ∀ instruction ∈ instructions, instruction.Encodable)
    (offsets : Instruction.RunningOffsets 0 instructions) (few : handlers.length < 2 ^ 16)
    (denotes : handlers.mapM (StoredHandler.denote? pool) = some rows) :
    Reads (Attribute.readCodeFrame pool)
      (encodeFrame maxStack maxLocals instructions handlers ++ encode16 count)
      (⟨maxStack, maxLocals, (Instruction.encodeAll instructions).length.toUInt32,
        instructions, rows⟩, count) := by
  unfold encodeFrame
  simp only [List.append_assoc]
  refine (reads_u16 maxStack).bind ((reads_u16 maxLocals).bind ((reads_u32 _).bind ?_))
  rw [Nat.toUInt32_eq, UInt32.toNat_ofNat_of_lt' small]
  -- the code array is a buffer of its own, in which offsets start at 0
  refine reads_sub_bind fun base => ?_
  have found : Instruction.readAll ⟨Instruction.encodeAll instructions, 0, base⟩ =
      .ok instructions :=
    Instruction.readAll_eq_ok_iff.2 (Instruction.tiles_encodeAll encodable offsets)
  refine (reads_lift found).bind ?_
  have table := reads_counted few denotes fun row _ meant => StoredHandler.reads_read
  rw [← bind_assoc]
  exact table.bind ((reads_u16 count).bind_pure _)

/-- An attribute with a name that is not known keeps its bytes. -/
theorem decode_raw {text : String} (unknown : text ∉ knownNames) (payload : Cursor) :
    Attribute.decode pool text payload = .ok (.raw text payload.rest) := by
  simp only [knownNames, List.mem_cons, List.not_mem_nil, or_false, not_or] at unknown
  obtain ⟨notCode, notTable, notHost, notValue, notFile⟩ := unknown
  rw [Attribute.decode, if_neg notCode]
  unfold Attribute.readPlain
  split
  · contradiction
  · contradiction
  · contradiction
  · contradiction
  · rfl

/-- A table of local variables is decoded row by row. -/
theorem decode_localVariableTable {rows : List StoredVariable} {meant : List LocalVariable}
    (few : rows.length < 2 ^ 16) (denotes : rows.mapM (StoredVariable.denote? pool) = some meant)
    (base : Nat) :
    Attribute.decode pool "LocalVariableTable" ⟨encodeCounted StoredVariable.encode rows, 0, base⟩ =
      .ok (.localVariableTable meant) := by
  have read := (reads_counted few denotes fun row _ meant => StoredVariable.reads_read).run base
  change ((liftM ((do let count ← u16; times count.toNat (Attribute.readLocalVariable pool) :
    Read (List LocalVariable)) ⟨encodeCounted StoredVariable.encode rows, 0, base⟩) :
    Logged Error _) >>= fun step => pure (Attribute.localVariableTable step.1)).result = _
  rw [read]
  rfl

/-- An attribute that is an index is decoded to what is found at the index. -/
theorem decode_index {α : Type} (look : UInt16 → Except Error α) (make : α → Attribute)
    {text : String} (other : text ≠ "Code")
    (plain : ∀ payload, Attribute.readPlain pool text payload = (do
      let (index, _) ← u16.run payload
      return make (← look index))) {index : UInt16} {found : α} (looked : look index = .ok found)
    (base : Nat) :
    Attribute.decode pool text ⟨encode16 index, 0, base⟩ = .ok (make found) := by
  rw [Attribute.decode, if_neg other, plain, StateT.run, (reads_u16 index).run]
  change (liftM (look index) >>= fun found => pure (make found) : Logged Error Attribute).result = _
  rw [looked]
  rfl

/-- The code of a method is decoded if its frame and its attributes are read. -/
theorem decode_code {frame : CodeFrame} {count : UInt16} {front inner : List UInt8}
    {nested : List Attribute} (framed : Reads (Attribute.readCodeFrame pool) front (frame, count))
    (reads : Reads (LoggedRead.outcome (Attribute.readMany pool count.toNat)) inner nested)
    (base : Nat) :
    Attribute.decode pool "Code" ⟨front ++ inner, 0, base⟩ = .ok (.code frame nested) := by
  have first := framed ⟨front ++ inner, 0, base⟩ ⟨inner, front.length, base⟩
    ⟨rfl, (Nat.zero_add _).symm, rfl⟩
  have second := reads ⟨inner, front.length, base⟩ ⟨[], front.length + inner.length, base⟩
    ⟨(List.append_nil inner).symm, rfl, rfl⟩
  rw [Attribute.decode, if_pos rfl, first]
  change (LoggedRead.outcome (Attribute.readMany pool count.toNat) ⟨inner, front.length, base⟩ >>=
    fun step => pure (Attribute.code frame step.1)) = _
  rw [second]
  rfl

mutual

/-- An attribute is decoded from its payload, wherever the payload starts. -/
theorem decode_payload : (source : StoredAttribute) → {meant : Attribute} →
    source.payload.length < 2 ^ 32 → source.Fits → denote? pool source = some meant →
    ∃ text, pool.textAt? source.name = some text ∧
      ∀ base, Attribute.decode pool text ⟨source.payload, 0, base⟩ = .ok meant
  | raw name bytes, meant, _, _, denotes => by
    rw [denote?] at denotes
    obtain ⟨text, named, denotes⟩ := Option.bind_eq_some_iff.1 denotes
    split at denotes
    · cases denotes
    · next unknown =>
      cases denotes
      exact ⟨text, named, fun base => decode_raw unknown _⟩
  | code name maxStack maxLocals instructions handlers attributes, meant, small, fits, denotes => by
    rw [Fits] at fits
    obtain ⟨encodable, offsets, few, fewNested, nestedFit⟩ := fits
    rw [denote?] at denotes
    obtain ⟨rows, meantRows, denotes⟩ := Option.bind_eq_some_iff.1 denotes
    obtain ⟨nested, meantNested, denotes⟩ := Option.bind_eq_some_iff.1 denotes
    obtain ⟨named, rfl⟩ := ifNamed?_eq_some denotes
    -- the code array is a part of the payload, so its length can be written as well
    have short : (Instruction.encodeAll instructions).length < 2 ^ 32 := by
      simp only [payload, encodeFrame, List.length_append] at small
      omega
    have count : attributes.length.toUInt16.toNat = attributes.length := by
      rw [Nat.toUInt16_eq, UInt16.toNat_ofNat_of_lt' fewNested]
    have inner := reads_readMany attributes nestedFit meantNested
    rw [← count] at inner
    refine ⟨_, named, fun base => ?_⟩
    rw [payload, ← List.append_assoc]
    exact decode_code (reads_readCodeFrame short encodable offsets few meantRows) inner base
  | localVariableTable name rows, meant, _, fits, denotes => by
    rw [denote?] at denotes
    obtain ⟨rows, meantRows, denotes⟩ := Option.bind_eq_some_iff.1 denotes
    obtain ⟨named, rfl⟩ := ifNamed?_eq_some denotes
    exact ⟨_, named, decode_localVariableTable fits meantRows⟩
  | nestHost name host, meant, _, _, denotes => by
    rw [denote?] at denotes
    obtain ⟨host, found, denotes⟩ := Option.bind_eq_some_iff.1 denotes
    obtain ⟨named, rfl⟩ := ifNamed?_eq_some denotes
    exact ⟨"NestHost", named, decode_index pool.className .nestHost (by decide) (fun _ => rfl)
      (ConstantPool.className_of_classAt? found)⟩
  | constantValue name constant, meant, _, _, denotes => by
    rw [denote?] at denotes
    obtain ⟨constant, found, denotes⟩ := Option.bind_eq_some_iff.1 denotes
    obtain ⟨named, rfl⟩ := ifNamed?_eq_some denotes
    exact ⟨"ConstantValue", named,
      decode_index pool.required .constantValue (by decide) (fun _ => rfl)
      (ConstantPool.required_of_constantAt? found)⟩
  | sourceFile name file, meant, _, _, denotes => by
    rw [denote?] at denotes
    obtain ⟨file, found, denotes⟩ := Option.bind_eq_some_iff.1 denotes
    obtain ⟨named, rfl⟩ := ifNamed?_eq_some denotes
    exact ⟨"SourceFile", named, decode_index pool.utf8 .sourceFile (by decide) (fun _ => rfl)
      (ConstantPool.utf8_of_textAt? found)⟩

/-- Attributes are read from their bytes, in their order. -/
theorem reads_readMany : (sources : List StoredAttribute) → {meant : List Attribute} →
    FitAll sources → denoteAll? pool sources = some meant →
    Reads (LoggedRead.outcome (Attribute.readMany pool sources.length)) (encodeAll sources) meant
  | [], meant, _, denotes => by
    rw [denoteAll?] at denotes
    cases denotes
    rw [List.length_nil, Attribute.outcome_readMany_zero, encodeAll]
    exact reads_pure []
  | first :: others, meant, fits, denotes => by
    rw [FitAll] at fits
    obtain ⟨small, firstFits, othersFit⟩ := fits
    rw [denoteAll?] at denotes
    obtain ⟨meantFirst, denotesFirst, denotes⟩ := Option.bind_eq_some_iff.1 denotes
    obtain ⟨meantOthers, denotesOthers, denotes⟩ := Option.bind_eq_some_iff.1 denotes
    cases denotes
    obtain ⟨text, named, decoded⟩ := decode_payload first small firstFits denotesFirst
    rw [List.length_cons, Attribute.outcome_readMany_succ, encodeAll]
    refine reads_readHeader_bind named small fun base => ?_
    refine (reads_lift (decoded base)).bind ?_
    exact (reads_readMany others othersFit denotesOthers).bind_pure (meantFirst :: ·)

end

/-- A list of attributes is read from its bytes. -/
theorem reads_readList {sources : List StoredAttribute} {meant : List Attribute}
    (fits : ListFits sources) (denotes : denoteAll? pool sources = some meant) :
    Reads (Attribute.readList pool).outcome (encodeList sources) meant := by
  rw [Attribute.outcome_readList]
  refine (reads_u16 _).bind ?_
  rw [Nat.toUInt16_eq, UInt16.toNat_ofNat_of_lt' fits.1]
  exact reads_readMany sources fits.2 denotes

end StoredAttribute

end ClassLowering
