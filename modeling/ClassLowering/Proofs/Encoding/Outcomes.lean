import ClassLowering.Proofs.Encoding.Reading

/-! # What the readers of class files do, without their logs

Each reader of a class file that logs is given as a reader that does not. The attributes of a list
are read one after the other, each from its own payload (`Attribute.outcome_readMany_succ`). -/

namespace ClassLowering

open Read

namespace ConstantPool

/-- A pool is read in three steps, if logs are left out. -/
theorem outcome_read :
    read.outcome = (do
      let count ← u16
      let raw ← RawConstant.readAll count.toNat 1
      liftM (ofRaw raw)) := by
  simp [read]

end ConstantPool

namespace Attribute

variable (pool : ConstantPool)

/-- The attribute with a name and a payload. -/
def decode (name : String) (payload : Cursor) : Except Error Attribute :=
  if name = "Code" then do
    let ((frame, inner), nested) ← readCodeFrame pool payload
    let (attributes, _) ← (readMany pool inner.toNat nested).result
    return code frame attributes
  else
    (readPlain pool name payload).result

/-- No attributes are read from nothing. -/
theorem outcome_readMany_zero : LoggedRead.outcome (readMany pool 0) = pure [] := by
  funext start
  unfold LoggedRead.outcome
  rw [readMany]
  rfl

/-- An attribute is decoded from its own payload, and the others are read behind it. -/
theorem outcome_readMany_succ (count : Nat) :
    LoggedRead.outcome (readMany pool (count + 1)) = (do
      let (name, payload) ← readHeader pool
      let first ← liftM (decode pool name payload)
      let others ← LoggedRead.outcome (readMany pool count)
      return first :: others) := by
  funext start
  rw [bind_apply]
  change (readMany pool (count + 1) start).result = _
  rw [readMany]
  split
  · next failure header =>
    rw [header]
    rfl
  · next name payload next header =>
    rw [header]
    change _ = ((liftM (decode pool name payload) : Read Attribute) >>= fun first =>
      LoggedRead.outcome (readMany pool count) >>= fun others => pure (first :: others)) next
    rw [lift_bind_apply]
    -- the reader has the case of code inside, since it reads nested attributes by itself
    unfold decode
    dsimp only
    split
    · split
      · next failure body =>
        rw [body]
        rfl
      · next frame inner nested body =>
        rw [body]
        simp only [Logged.result_bind, pure_bind]
        change _ = ((readMany pool inner.toNat nested).result >>= fun step =>
          pure (code frame step.1)) >>= _
        rw [bind_assoc]
        rfl
    · simp only [Logged.result_bind]
      rfl

/-- A list of attributes is a count and as many attributes. -/
theorem outcome_readList :
    (readList pool).outcome = (do
      let count ← u16
      LoggedRead.outcome (readMany pool count.toNat)) := by
  simp [readList]

end Attribute

namespace ClassFile

variable (pool : ConstantPool)

/-- A member is read in four steps, if logs are left out. -/
theorem outcome_readMember :
    (readMember pool).outcome = (do
      let flags ← u16
      let name ← pool.utf8 (← u16)
      let descriptor ← pool.utf8 (← u16)
      let attributes ← (Attribute.readList pool).outcome
      return ⟨⟨flags⟩, name, descriptor, attributes⟩) := by
  simp [readMember]

/-- Members are a count and as many of them. -/
theorem outcome_readMembers :
    (readMembers pool).outcome = (do
      let count ← u16
      times count.toNat (readMember pool).outcome) := by
  simp [readMembers]

/-- The body of a class is read part by part, if logs are left out. -/
theorem outcome_readBody :
    (readBody pool).outcome = (do
      let flags ← u16
      let name ← readClassName pool
      let superClass ← pool.className? (← u16)
      let count ← u16
      let interfaces ← times count.toNat (readClassName pool)
      let fields ← (readMembers pool).outcome
      let methods ← (readMembers pool).outcome
      let attributes ← (Attribute.readList pool).outcome
      return ⟨name, ⟨flags⟩, superClass, interfaces, fields, methods, attributes, pool⟩) := by
  simp [readBody]

/-- A class is a signature, two versions, a pool and a body, if logs are left out. -/
theorem outcome_read :
    read.outcome = (do
      let signature ← bytes 4
      if signature = magic then
        let _ ← u16
        let _ ← u16
        let pool ← ConstantPool.read.outcome
        (readBody pool).outcome
      else
        fail (.format (.badMagic signature))) := by
  unfold read
  rw [LoggedRead.outcome_bind]
  refine congrArg (bytes 4 >>= ·) (funext fun signature => ?_)
  split
  · simp
  · rfl

/-- A class file is what is read at the start of a buffer. -/
theorem result_parse (bytes : List UInt8) :
    (parse bytes).result = Prod.fst <$> read.outcome (Cursor.ofBytes bytes) := by
  unfold parse
  rw [Logged.result_bind]
  change read.outcome (Cursor.ofBytes bytes) >>= _ = _
  cases read.outcome (Cursor.ofBytes bytes) <;> rfl

end ClassFile

end ClassLowering
