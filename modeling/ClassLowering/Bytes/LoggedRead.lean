import ClassLowering.Bytes.Cursor
import ClassLowering.Log

/-! # Readers that keep a log -/

namespace ClassLowering

/-- Readers of bytes that log what they do. -/
abbrev LoggedRead : Type → Type := StateT Cursor (Logged Error)

namespace LoggedRead

variable {α : Type}

instance : MonadLift Read LoggedRead where
  monadLift reader := fun cursor => liftM (reader cursor)

/-- Logs one record. -/
def record (level : LogLevel) (message : String) : LoggedRead Unit :=
  liftM (Logged.record level message : Logged Error Unit)

/-- Repeats a reader. -/
def times (count : Nat) (reader : LoggedRead α) : LoggedRead (List α) :=
  match count with
  | 0 => pure []
  | count + 1 => do
    let first ← reader
    let others ← times count reader
    return first :: others

end LoggedRead

end ClassLowering
