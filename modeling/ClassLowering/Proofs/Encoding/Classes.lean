import ClassLowering.Proofs.Encoding.Attributes

/-! # Writing and reading class files

A class file stores constants and describes one class by indices into them (`StoredClass`). Reading
the bytes of a stored class, whatever follows them, gives the class with the indices replaced by the
names, texts and constants that they stand for (`ClassFile.parse_encode`). -/

namespace ClassLowering

open Bytecode (Instruction)
open Read

/-! ## Members -/

/-- A field or a method, with the indices of texts. -/
structure StoredMember where
  flags : UInt16
  name : UInt16
  descriptor : UInt16
  attributes : List StoredAttribute

namespace StoredMember

def encode (member : StoredMember) : List UInt8 :=
  encode16 member.flags ++ (encode16 member.name ++ (encode16 member.descriptor ++
    StoredAttribute.encodeList member.attributes))

/-- The member that is meant. -/
def denote? (pool : ConstantPool) (member : StoredMember) : Option Member := do
  let name ← pool.textAt? member.name
  let descriptor ← pool.textAt? member.descriptor
  let attributes ← StoredAttribute.denoteAll? pool member.attributes
  return ⟨⟨member.flags⟩, name, descriptor, attributes⟩

/-- A member is read from the bytes that it is stored in. -/
theorem reads_readMember {pool : ConstantPool} {member : StoredMember} {meant : Member}
    (fits : StoredAttribute.ListFits member.attributes)
    (denotes : member.denote? pool = some meant) :
    Reads (ClassFile.readMember pool).outcome member.encode meant := by
  obtain ⟨name, named, denotes⟩ := Option.bind_eq_some_iff.1 denotes
  obtain ⟨descriptor, described, denotes⟩ := Option.bind_eq_some_iff.1 denotes
  obtain ⟨attributes, meantAttributes, denotes⟩ := Option.bind_eq_some_iff.1 denotes
  cases denotes
  rw [ClassFile.outcome_readMember]
  refine (reads_u16 member.flags).bind ((reads_u16 member.name).bind ?_)
  refine (reads_lift (ConstantPool.utf8_of_textAt? named)).bind
    ((reads_u16 member.descriptor).bind ?_)
  refine (reads_lift (ConstantPool.utf8_of_textAt? described)).bind ?_
  exact (StoredAttribute.reads_readList fits meantAttributes).bind_pure _

/-- A list of members and its length can be written. -/
def ListFits (members : List StoredMember) : Prop :=
  members.length < 2 ^ 16 ∧ ∀ member ∈ members, StoredAttribute.ListFits member.attributes

instance (members : List StoredMember) : Decidable (ListFits members) :=
  inferInstanceAs (Decidable (_ ∧ _))

/-- Members are read from their count and the bytes that they are stored in. -/
theorem reads_readMembers {pool : ConstantPool} {members : List StoredMember} {meant : List Member}
    (fits : ListFits members) (denotes : members.mapM (denote? pool) = some meant) :
    Reads (ClassFile.readMembers pool).outcome (encodeCounted encode members) meant := by
  rw [ClassFile.outcome_readMembers]
  exact reads_counted fits.1 denotes fun member listed _ => reads_readMember (fits.2 member listed)

end StoredMember

/-! ## Classes -/

/-- A class file as it is stored: versions, constants, and a class with the indices of its names. -/
structure StoredClass where
  minorVersion : UInt16
  majorVersion : UInt16
  constants : List StoredConstant
  flags : UInt16
  name : UInt16
  superClass : UInt16
  interfaces : List UInt16
  fields : List StoredMember
  methods : List StoredMember
  attributes : List StoredAttribute

namespace StoredClass

/-- The bytes behind the constants. -/
def encodeBody (source : StoredClass) : List UInt8 :=
  encode16 source.flags ++ (encode16 source.name ++ (encode16 source.superClass ++
    (encodeCounted encode16 source.interfaces ++ (encodeCounted StoredMember.encode source.fields ++
      (encodeCounted StoredMember.encode source.methods ++
        StoredAttribute.encodeList source.attributes)))))

/-- The bytes of a class file. -/
def encode (source : StoredClass) : List UInt8 :=
  [0xCA, 0xFE, 0xBA, 0xBE] ++ (encode16 source.minorVersion ++ (encode16 source.majorVersion ++
    (StoredConstant.encodePool source.constants ++ source.encodeBody)))

/-- Every count and every length can be written. -/
structure Fits (source : StoredClass) : Prop where
  constants : StoredConstant.PoolFits source.constants
  interfaces : source.interfaces.length < 2 ^ 16
  fields : StoredMember.ListFits source.fields
  methods : StoredMember.ListFits source.methods
  attributes : StoredAttribute.ListFits source.attributes

instance (source : StoredClass) : Decidable source.Fits :=
  decidable_of_iff (StoredConstant.PoolFits source.constants ∧ source.interfaces.length < 2 ^ 16 ∧
      StoredMember.ListFits source.fields ∧ StoredMember.ListFits source.methods ∧
      StoredAttribute.ListFits source.attributes)
    ⟨fun ⟨constants, interfaces, fields, methods, attributes⟩ =>
      ⟨constants, interfaces, fields, methods, attributes⟩,
    fun ⟨constants, interfaces, fields, methods, attributes⟩ =>
      ⟨constants, interfaces, fields, methods, attributes⟩⟩

/-- The class that is meant, if all indices are those of constants of the kinds that are needed. -/
def denote? (pool : ConstantPool) (source : StoredClass) : Option ClassFile := do
  let name ← pool.classAt? source.name
  let superClass ← pool.optionalClassAt? source.superClass
  let interfaces ← source.interfaces.mapM pool.classAt?
  let fields ← source.fields.mapM (StoredMember.denote? pool)
  let methods ← source.methods.mapM (StoredMember.denote? pool)
  let attributes ← StoredAttribute.denoteAll? pool source.attributes
  return ⟨name, ⟨source.flags⟩, superClass, interfaces, fields, methods, attributes, pool⟩

/-- The name of a class is read from the index of its constant. -/
theorem reads_readClassName {pool : ConstantPool} {index : UInt16} {name : String}
    (named : pool.classAt? index = some name) :
    Reads (ClassFile.readClassName pool) (encode16 index) name := by
  refine ((reads_u16 index).bind ?_).congr (List.append_nil _).symm
  exact reads_lift (ConstantPool.className_of_classAt? named)

/-- The description of a class is read from its bytes. -/
theorem reads_readBody {pool : ConstantPool} {source : StoredClass} {file : ClassFile}
    (fits : source.Fits) (denotes : source.denote? pool = some file) :
    Reads (ClassFile.readBody pool).outcome source.encodeBody file := by
  obtain ⟨name, named, denotes⟩ := Option.bind_eq_some_iff.1 denotes
  obtain ⟨superClass, above, denotes⟩ := Option.bind_eq_some_iff.1 denotes
  obtain ⟨interfaces, promised, denotes⟩ := Option.bind_eq_some_iff.1 denotes
  obtain ⟨fields, meantFields, denotes⟩ := Option.bind_eq_some_iff.1 denotes
  obtain ⟨methods, meantMethods, denotes⟩ := Option.bind_eq_some_iff.1 denotes
  obtain ⟨attributes, meantAttributes, denotes⟩ := Option.bind_eq_some_iff.1 denotes
  cases denotes
  rw [ClassFile.outcome_readBody]
  refine (reads_u16 source.flags).bind ((reads_readClassName named).bind ?_)
  refine (reads_u16 source.superClass).bind ?_
  refine (reads_lift (ConstantPool.className?_of_optionalClassAt? above)).bind ?_
  rw [← bind_assoc]
  refine (reads_counted fits.interfaces promised fun _ _ _ => reads_readClassName).bind ?_
  refine (StoredMember.reads_readMembers fits.fields meantFields).bind ?_
  refine (StoredMember.reads_readMembers fits.methods meantMethods).bind ?_
  exact (StoredAttribute.reads_readList fits.attributes meantAttributes).bind_pure _

/-- A class file is read from its bytes, if its constants are read as the pool that they stand
for. -/
theorem reads_read {pool : ConstantPool} {source : StoredClass} {file : ClassFile}
    (pooled : Reads ConstantPool.read.outcome (StoredConstant.encodePool source.constants) pool)
    (fits : source.Fits) (denotes : source.denote? pool = some file) :
    Reads ClassFile.read.outcome source.encode file := by
  rw [ClassFile.outcome_read]
  refine (reads_bytes ClassFile.magic).bind ?_
  rw [if_pos rfl]
  refine (reads_u16 source.minorVersion).bind ((reads_u16 source.majorVersion).bind ?_)
  exact pooled.bind (reads_readBody fits denotes)

end StoredClass

/-- Constants that are accepted stand for a pool; and the bytes of a class file with them, whatever
follows, are read as the class with every index replaced by the name, the text or the constant that
it stands for in the pool. -/
theorem ClassFile.parse_encode (source : StoredClass) (fits : source.Fits)
    (accepted : StoredConstant.Accepted source.constants) :
    ∃ pool, StoredConstant.pool? source.constants = some pool ∧
      ∀ file trailing, source.denote? pool = some file →
        (parse (source.encode ++ trailing)).result = .ok file := by
  obtain ⟨pool, meant, pooled⟩ := StoredConstant.exists_pool fits.constants accepted
  refine ⟨pool, meant, fun file trailing denotes => ?_⟩
  have read :=
    StoredClass.reads_read pooled fits denotes (Cursor.ofBytes (source.encode ++ trailing))
    ⟨trailing, source.encode.length, 0⟩ ⟨rfl, (Nat.zero_add _).symm, rfl⟩
  rw [result_parse, read]
  rfl

/-- A text constant whose characters are single bytes. -/
def asciiConstant (text : String)
    (decodes : ModifiedUtf8.decodeString (text.toList.map fun char => char.toNat.toUInt8) =
      some text := by decide +kernel) : StoredConstant :=
  .utf8 ⟨_, text, decodes⟩

/-- Constants with a string before its text and a long one that shifts the indices behind it. -/
def sampleConstants : List StoredConstant :=
  [asciiConstant "A", .classRef 1, .string 6, .long (-2), asciiConstant "text",
    asciiConstant "Code", asciiConstant "LocalVariableTable", asciiConstant "NestHost",
    asciiConstant "ConstantValue",
    asciiConstant "SourceFile", asciiConstant "Other", asciiConstant "run", asciiConstant "()V",
    asciiConstant "I"]

/-- A class file with those constants, where the code of a method has attributes with attributes. -/
def sampleSource : StoredClass where
  minorVersion := 0
  majorVersion := 52
  constants := sampleConstants
  flags := 0x21
  name := 2
  superClass := 0
  interfaces := [2]
  fields := [⟨0x8, 6, 15, [.constantValue 10 5, .constantValue 10 3]⟩]
  methods := [⟨0x9, 13, 14,
    [.code 7 1 1 [⟨.bytePush, 0, .oneValue (-7), false⟩, ⟨.returnVoid, 2, .simple, false⟩]
      [⟨0, 2, 2, 0⟩, ⟨0, 1, 2, 2⟩]
      [.localVariableTable 8 [⟨0, 3, 6, 15, 0⟩], .code 7 0 0 [] [] [.raw 12 [1, 2, 3]]]]⟩]
  attributes := [.sourceFile 11 6, .nestHost 9 2, .raw 12 []]

/-- The class that it stands for. -/
def sampleFile : ClassFile where
  name := "A"
  flags := ⟨0x21⟩
  superClass := none
  interfaces := ["A"]
  fields := [⟨⟨0x8⟩, "text", "I", [.constantValue (.long (-2)), .constantValue (.string "text")]⟩]
  methods := [⟨⟨0x9⟩, "run", "()V",
    [.code ⟨1, 1, 3,
      [⟨.bytePush, 0, .oneValue (-7), false⟩, ⟨.returnVoid, 2, .simple, false⟩],
      [⟨0, 2, 2, none⟩, ⟨0, 1, 2, some "A"⟩]⟩
      [.localVariableTable [⟨0, 3, "text", "I", 0⟩],
        .code ⟨0, 0, 0, [], []⟩ [.raw "Other" [1, 2, 3]]]]⟩]
  attributes := [.sourceFile "text", .nestHost "A", .raw "Other" []]
  pool := ⟨#[.utf8 "A", .classRef 1, .string "text", .long (-2), .long (-2), .utf8 "text",
    .utf8 "Code", .utf8 "LocalVariableTable", .utf8 "NestHost", .utf8 "ConstantValue",
    .utf8 "SourceFile", .utf8 "Other", .utf8 "run", .utf8 "()V", .utf8 "I"]⟩

/-- A class with all kinds of attributes, some of them nested, and two bytes behind it. -/
theorem ClassFile.parse_encode_sample :
    sampleSource.Fits ∧ StoredConstant.Accepted sampleConstants ∧
      (parse (sampleSource.encode ++ [0xCA, 0xFE])).result = .ok sampleFile := by
  have fits : sampleSource.Fits := by decide +kernel
  have accepted : StoredConstant.Accepted sampleConstants := by
    have found : ∃ outcome ∈
        (ConstantPool.read
          (Cursor.ofBytes (StoredConstant.encodePool sampleConstants))).result.toOption,
        outcome.2.rest = [] := by
      decide +kernel
    obtain ⟨outcome, found, -⟩ := found
    exact ⟨outcome, Except.eq_ok_of_mem_toOption found⟩
  obtain ⟨pool, meant, reads⟩ := parse_encode sampleSource fits accepted
  obtain rfl : sampleFile.pool = pool := Option.some.inj meant
  exact ⟨fits, accepted, reads sampleFile [0xCA, 0xFE] rfl⟩

end ClassLowering
