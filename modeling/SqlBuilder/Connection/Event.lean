import SqlBuilder.Connection.Level
import SqlBuilder.Statement.Basic

/-!
# Events

What a connection reports while it works: that a statement was compiled, the SQL that is logged,
the steps of transactions and what failed. An event is kept as what happened; its level, its
channel and its named fields are read off it.
-/

namespace SqlBuilder

/-- A step of a transaction. -/
inductive TransactionStep where
  | begin
  | commit
  | rollback
  deriving DecidableEq, Repr

/-- The message of a step. -/
def TransactionStep.message : TransactionStep → String
  | .begin => "begin transaction"
  | .commit => "commit transaction"
  | .rollback => "rollback transaction"

/-- What failed in the database. -/
inductive Failure where
  | query
  | statement
  /-- The rollback of an insert that failed itself. -/
  | rollback
  deriving DecidableEq, Repr

/-- The message of a failure. -/
def Failure.message : Failure → String
  | .query => "query failed"
  | .statement => "statement failed"
  | .rollback => "rollback after failed insert failed"

/-- Something that a connection reports. -/
inductive Event where
  /-- A statement was compiled. -/
  | compiled (kind : StatementKind) (dialect : String) (paramCount : Nat)
  /-- A statement is logged. -/
  | logged (level : Level) (kind : StatementKind) (dialect : String) (paramCount : Nat)
      (sql : String)
  | transaction (step : TransactionStep)
  | failed (failure : Failure) (error : Error)
  deriving DecidableEq, Repr

namespace Event

/-- What a field of an event holds. -/
inductive Field where
  | text (s : String)
  | count (n : Nat)
  deriving DecidableEq, Repr

/-- How urgent an event is. -/
def level : Event → Level
  | .compiled .. => .trace
  | .logged level .. => level
  | .transaction _ => .debug
  | .failed .. => .warn

/-- The channel of an event. -/
def target : Event → String
  | .compiled .. => "sqlweave.compile"
  | _ => "sqlweave.sql"

/-- The named fields of an event. -/
def fields : Event → List (String × Field)
  | .compiled kind dialect paramCount =>
    [("kind", .text kind.name), ("dialect", .text dialect), ("param_count", .count paramCount),
      ("message", .text "compiled statement")]
  | .logged _ kind dialect paramCount sql =>
    [("kind", .text kind.name), ("dialect", .text dialect), ("param_count", .count paramCount),
      ("sql", .text sql)]
  | .transaction step => [("message", .text step.message)]
  | .failed failure error =>
    [("error", .text error.message), ("message", .text failure.message)]

end Event

end SqlBuilder
