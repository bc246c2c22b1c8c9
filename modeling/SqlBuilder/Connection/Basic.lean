import SqlBuilder.Compile.Statement
import SqlBuilder.Connection.Logger
import SqlBuilder.Connection.Request

/-!
# Connections

A connection compiles statements for one dialect, reports what it does and knows whether a
transaction is open. What it can be asked to do is an `Operation`, and what that gives is an
`Outcome`; how an operation goes on while the database works is in `SqlBuilder.Connection.Turn`.
-/

namespace SqlBuilder

/-- A connection: what it compiles for and reports, and whether a transaction is open. -/
structure Connection where
  dialect : Dialect
  logger? : Option Logger
  wrapInserts : Bool
  inTransaction : Bool := false

/-- What a write did. -/
inductive Stored where
  | inserted (affected : Nat) (lastId? : Option Value)
  | updated (affected : Nat)
  deriving Repr

/-- What a connection can be asked to do. -/
inductive Operation where
  | fetchAll (s : Select)
  | fetchOne (s : Select)
  | store (w : Write)
  | remove (r : Delete)
  | execute (s : Statement)
  | compile (s : Statement)
  /-- An empty statement of the kind that the name stands for. -/
  | newStatement (name : String)
  | transaction (step : TransactionStep)
  /-- The state of the connection in words. -/
  | describe

/-- What an operation gives when it succeeds. -/
inductive Outcome where
  | rows (rows : List Row)
  | row (row? : Option Row)
  | stored (stored : Stored)
  | affected (count : Nat)
  | compiled (sql : Sql)
  | statement (s : Statement)
  | done
  | description (text : String)

namespace Connection

/-- The connection of an engine, with the usual settings. -/
def ofEngine (engine : Engine) : Connection :=
  ⟨engine.dialect, some {}, true, false⟩

/-- The connection that settings describe. -/
def ofSettings (s : Settings) : Except Error Connection :=
  (Logger.ofSettings s).map fun logger? => ⟨s.engine.dialect, logger?, s.wrapInserts, false⟩

/-- Compile a statement and report it. An error is not reported. -/
def compile (c : Connection) (s : Statement) : Except Error (Sql × List Event) :=
  (s.compile c.dialect).map fun sql =>
    (sql, .compiled s.kind c.dialect.name sql.params.length ::
      c.logger?.toList.map (·.event s.kind c.dialect.name sql))

/-! ### Description -/

/-- A truth value in words. -/
def boolText (b : Bool) : String :=
  if b then "true" else "false"

/-- A value that may be missing, in words. -/
def optionText : Option String → String
  | none => "None"
  | some s => "Some(" ++ s ++ ")"

/-- A logger in words. -/
def loggerText (logger : Logger) : String :=
  "SqlLogger \x7b level: Level(" ++ logger.level.title ++ "), max_sql_length: " ++
    optionText (logger.maxOctets.map Text.natText) ++ " \x7d"

/-- The connection in words. -/
def describe (c : Connection) : String :=
  "Connection \x7b dialect: \"" ++ c.dialect.name ++ "\", logger: " ++
    optionText (c.logger?.map loggerText) ++ ", wrap_inserts: " ++ boolText c.wrapInserts ++
    ", in_transaction: " ++ boolText c.inTransaction ++ ", .. \x7d"

end Connection

end SqlBuilder
