import SqlBuilder.Error
import SqlBuilder.Identifier
import SqlBuilder.Text.Blank
import SqlBuilder.Value

/-!
# Dialects

What differs from one database to another: the quote character of identifiers, the operators that
are written in a short form, the shape of the LIMIT clause and the form in which booleans are
sent. A `Dialect` is a table of these; an `Engine` is a dialect known by name.
-/

namespace SqlBuilder

/-- The shape of the LIMIT clause. -/
inductive LimitStyle where
  /-- `LIMIT ?, ?`, bound to the count and the skip. -/
  | commaPlaceholders
  /-- `LIMIT count` or `LIMIT count, skip` with the numbers in the text. -/
  | commaInline
  /-- `LIMIT ? OFFSET ?`, bound to the count and the skip. -/
  | limitOffset
  deriving DecidableEq, Repr

/-- The form in which booleans are sent. -/
inductive BoolStyle where
  /-- `1` and `0` -/
  | integer
  /-- `TRUE` and `FALSE` as text -/
  | text
  deriving DecidableEq, Repr

/-- The table of a dialect. -/
structure Dialect where
  name : String
  quote : Char
  operators : List (String × String)
  limit : LimitStyle
  booleans : BoolStyle
  deriving DecidableEq, Repr

namespace Dialect

/-- The operator in SQL: its entry in the table, or the operator as written. -/
def operator (d : Dialect) (written : String) : String :=
  (d.operators.lookup written).getD written

/-- An identifier in this dialect. -/
def identifier (d : Dialect) (s : String) : String :=
  Identifier.quote d.quote s

/-- The form of a boolean that is sent. -/
def boolean (d : Dialect) (b : Bool) : Value :=
  match d.booleans with
  | .integer => .int (if b then 1 else 0)
  | .text => .text (if b then "TRUE" else "FALSE")

/-- The form of a value that is sent: booleans have one of their own. -/
def wire (d : Dialect) : Value → Value
  | .bool b => d.boolean b
  | v => v

@[simp] theorem wire_bool (d : Dialect) (b : Bool) : d.wire (.bool b) = d.boolean b := rfl

@[simp] theorem wire_boolean (d : Dialect) (b : Bool) : d.wire (d.boolean b) = d.boolean b := by
  unfold boolean
  cases d.booleans <;> rfl

/-- The form that is sent is sent as it is. -/
@[simp] theorem wire_wire (d : Dialect) (v : Value) : d.wire (d.wire v) = d.wire v := by
  cases v <;> first | exact d.wire_boolean _ | rfl

end Dialect

/-- What an operator asks of a value and a list: that the list holds it, or that it does not. -/
inductive Membership where
  | inside
  | outside
  deriving DecidableEq, Repr

/-- The membership that an SQL operator tests, in any letter case. -/
def Membership.ofOperator? (operator : String) : Option Membership :=
  if Text.sameLetters operator "IN" then some .inside
  else if Text.sameLetters operator "NOT IN" then some .outside
  else none

/-- Whether an SQL operator takes a list. -/
def takesList (operator : String) : Bool :=
  (Membership.ofOperator? operator).isSome

/-- A dialect known by name. -/
inductive Engine where
  | sql
  | mysql
  | pgsql
  deriving DecidableEq, Repr

namespace Engine

instance : Inhabited Engine := ⟨.sql⟩

/-- The short forms of operators that every engine has. -/
def standardOperators : List (String × String) :=
  [("~", "LIKE"), ("!~", "NOT LIKE"), ("*", "IN"), ("!*", "NOT IN")]

/-- The name an engine goes by. -/
def name : Engine → String
  | .sql => "sql"
  | .mysql => "mysql"
  | .pgsql => "pgsql"

/-- The dialect of an engine. -/
def dialect : Engine → Dialect
  | .sql => ⟨"sql", '\x22', standardOperators, .commaPlaceholders, .integer⟩
  | .mysql => ⟨"mysql", '\x60', standardOperators, .commaInline, .integer⟩
  | .pgsql => ⟨"pgsql", '\x22', standardOperators, .limitOffset, .text⟩

/-- The engine of a name, blanks around it and letter case aside. One of them has three names. -/
def ofName (s : String) : Except Error Engine :=
  let name := Text.lower (Text.trim s)
  if name = "sql" then .ok .sql
  else if name = "mysql" then .ok .mysql
  else if name = "pgsql" ∨ name = "postgres" ∨ name = "postgresql" then .ok .pgsql
  else .error (.unknown (.dialect s))

/-- The engine of exactly its own name. -/
def ofOwnName? (s : String) : Option Engine :=
  [sql, mysql, pgsql].find? (·.name == s)

end Engine

end SqlBuilder
