import SqlBuilder.Compile.Sql
import SqlBuilder.Connection.Event
import SqlBuilder.Connection.Settings

/-!
# The log of statements

A logger makes an event of a compiled statement. A long statement is cut behind a character, so
that what is kept has no more octets than the logger allows.
-/

namespace SqlBuilder

/-- What is logged of a statement: the level, and how many octets of its SQL. -/
structure Logger where
  level : Level := .debug
  maxOctets : Option Nat := some 200
  deriving DecidableEq, Repr

namespace Logger

/-- The logger of settings; none if statements are not logged, and then the level of the settings
does not matter. -/
def ofSettings (s : Settings) : Except Error (Option Logger) :=
  if s.logSql then s.level.map fun level => some ⟨level, s.maxLogged⟩ else .ok none

/-- What stands for the part that is cut off. -/
def ellipsis : String := "..."

/-- The SQL as it is logged. -/
def shorten (logger : Logger) (sql : String) : String :=
  match logger.maxOctets with
  | none => sql
  | some n =>
    if sql.utf8ByteSize ≤ n then sql
    else Text.cut sql n ++ ellipsis

/-- The event of a statement. -/
def event (logger : Logger) (kind : StatementKind) (dialect : String) (sql : Sql) : Event :=
  .logged logger.level kind dialect sql.params.length (logger.shorten sql.text)

end Logger

end SqlBuilder
