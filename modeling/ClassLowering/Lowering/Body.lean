import ClassLowering.ClassFile.Basic
import ClassLowering.Lowering.Contribution

/-! # Lowering method bodies

A body collects the contributions of the instructions in order. Branches and exception handlers are
carried along as offsets into the source. -/

namespace ClassLowering

open Target (Body Deferred Region)

/-- Instructions with the offsets behind them; `stop` is the offset behind the last one. -/
def withNext (stop : UInt32) :
    List Bytecode.Instruction → List (Bytecode.Instruction × UInt32)
  | [] => []
  | [last] => [(last, stop)]
  | first :: second :: rest => (first, second.offset) :: withNext stop (second :: rest)

/-- Pairing instructions with the offsets behind them keeps the instructions. -/
theorem map_fst_withNext (stop : UInt32) (code : List Bytecode.Instruction) :
    (withNext stop code).map Prod.fst = code := by
  induction code with
  | nil => rfl
  | cons first rest induction =>
    cases rest with
    | nil => rfl
    | cons second rest => rw [withNext, List.map_cons, induction]

/-- The target instructions of contributions, with the offsets they come from. -/
def collectInstructions (contributions : List (UInt32 × Contribution)) :
    List (UInt32 × Target.Instruction) :=
  contributions.flatMap fun
    | (offset, .instructions list) => list.map (offset, ·)
    | (_, .deferred _) => []

/-- The deferred records of contributions. -/
def collectDeferred (contributions : List (UInt32 × Contribution)) : List Deferred :=
  contributions.filterMap fun
    | (_, .instructions _) => none
    | (_, .deferred record) => some record

/-- The region of an exception handler. -/
def ExceptionHandler.region (handler : ExceptionHandler) : Region :=
  ⟨handler.start.toUInt32, handler.stop.toUInt32, handler.handler.toUInt32, handler.catchClass⟩

/-- Lowers the instructions of a code array. -/
def lowerInstructions (scope : Scope) (pool : ConstantPool) :
    List (Bytecode.Instruction × UInt32) → Emit (List (UInt32 × Contribution))
  | [] => pure []
  | (instruction, next) :: rest => do
    let contribution ← Emit.lower scope pool instruction next
    let others ← lowerInstructions scope pool rest
    return (instruction.offset, contribution) :: others

/-- Lowers the code of a method. -/
def lowerBody (scope : Scope) (pool : ConstantPool) (method : Member) (code : MethodCode) :
    Logged Error Body := do
  let type ← MethodType.ofDescriptor method.descriptor
  let arguments := LocalStorage.argumentSlots type.parameters !method.flags.isStatic
  let storage ← LocalStorage.ofTable scope (Attribute.localVariables code.attributes) arguments
  let (contributions, storage) ←
    lowerInstructions scope pool (withNext code.codeLength code.instructions) storage
  return {
    maxStack := code.maxStack
    locals := storage.locals
    instructions := collectInstructions contributions
    deferred := collectDeferred contributions
    regions := code.exceptionTable.map ExceptionHandler.region }

end ClassLowering
