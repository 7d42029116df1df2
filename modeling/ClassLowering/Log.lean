/-! # Computations that keep a log

`Logged ε α` is the outcome of a computation that may fail with an `ε`, together with the records
it logged until it ended. The records never influence the outcome: `result` is a monad morphism
to `Except ε` (`Logged.result_bind`), so a statement about outcomes needs no word about logs. -/

namespace ClassLowering

/-- How important a log record is, the most important first. -/
inductive LogLevel where
  | error
  | warn
  | info
  | debug
  | trace
  deriving DecidableEq, Repr

/-- A rank that grows as importance falls. -/
def LogLevel.rank : LogLevel → Nat
  | error => 0
  | warn => 1
  | info => 2
  | debug => 3
  | trace => 4

/-- The level as written in front of a record. -/
def LogLevel.name : LogLevel → String
  | error => "ERROR"
  | warn => "WARN"
  | info => "INFO"
  | debug => "DEBUG"
  | trace => "TRACE"

/-- One line of a log. -/
structure LogRecord where
  level : LogLevel
  message : String
  deriving DecidableEq, Repr

/-- The records of a log that are at least as important as `level`. -/
def LogRecord.upTo (level : LogLevel) (log : List LogRecord) : List LogRecord :=
  log.filter fun record => record.level.rank ≤ level.rank

/-- An outcome with the log records made on the way to it. -/
structure Logged (ε : Type) (α : Type) where
  log : List LogRecord
  result : Except ε α

namespace Logged

variable {ε α β : Type}

instance : Monad (Logged ε) where
  pure value := ⟨[], .ok value⟩
  bind first next :=
    match first.result with
    | .error failure => ⟨first.log, .error failure⟩
    | .ok value =>
      let rest := next value
      ⟨first.log ++ rest.log, rest.result⟩

instance : MonadExceptOf ε (Logged ε) where
  throw failure := ⟨[], .error failure⟩
  tryCatch first handler :=
    match first.result with
    | .error failure =>
      let rest := handler failure
      ⟨first.log ++ rest.log, rest.result⟩
    | .ok _ => first

instance : MonadLift (Except ε) (Logged ε) where
  monadLift result := ⟨[], result⟩

/-- Logs one record. -/
def record (level : LogLevel) (message : String) : Logged ε Unit :=
  ⟨[⟨level, message⟩], .ok ()⟩

/-- Renames failures and keeps the log. -/
def mapError {δ : Type} (rename : ε → δ) (outcome : Logged ε α) : Logged δ α :=
  ⟨outcome.log, outcome.result.mapError rename⟩

/-- A value is the result of its own computation. -/
@[simp] theorem result_pure (value : α) : (pure value : Logged ε α).result = .ok value := rfl

/-- A value logs nothing. -/
@[simp] theorem log_pure (value : α) : (pure value : Logged ε α).log = [] := rfl

/-- A failure is the result of its own computation. -/
@[simp] theorem result_throw (failure : ε) : (throw failure : Logged ε α).result = .error failure :=
  rfl

/-- Logging succeeds. -/
@[simp] theorem result_record (level : LogLevel) (message : String) :
    (record level message : Logged ε Unit).result = .ok () := rfl

/-- An outcome is the result of the computation that it is lifted to. -/
@[simp] theorem result_lift (outcome : Except ε α) :
    (liftM outcome : Logged ε α).result = outcome := rfl

/-- Outcomes compose as if nothing were logged. -/
@[simp] theorem result_bind (first : Logged ε α) (next : α → Logged ε β) :
    (first >>= next).result = first.result >>= fun value => (next value).result := by
  change (match first.result with
    | .error failure => (⟨first.log, .error failure⟩ : Logged ε β)
    | .ok value => ⟨first.log ++ (next value).log, (next value).result⟩).result = _
  cases first.result <;> rfl

end Logged

end ClassLowering
