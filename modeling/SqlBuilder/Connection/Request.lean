import SqlBuilder.Compile.Sql
import SqlBuilder.Error
import SqlBuilder.Tuple

/-!
# Requests to a database

A connection never runs SQL itself. It asks a database for one thing at a time, and each request
has answers of a type of its own (`Request.Answer`), or fails with an error.
-/

namespace SqlBuilder

/-- What a connection asks of a database. -/
inductive Request where
  /-- The rows of a query. -/
  | query (sql : Sql)
  /-- How many rows a statement touched. -/
  | execute (sql : Sql)
  /-- The identifier that the last insert generated, if the database knows one. -/
  | lastId
  | begin
  | commit
  | rollback

namespace Request

/-- What a request is answered with. -/
abbrev Answer : Request → Type
  | .query _ => List Row
  | .execute _ => Nat
  | .lastId => Option Value
  | .begin => Unit
  | .commit => Unit
  | .rollback => Unit

/-- The kinds of request. -/
inductive Kind where
  | query
  | execute
  | lastId
  | begin
  | commit
  | rollback
  deriving DecidableEq, Repr

/-- The name a kind goes by. -/
def Kind.name : Kind → String
  | .query => "query"
  | .execute => "execute"
  | .lastId => "last_insert_id"
  | .begin => "begin"
  | .commit => "commit"
  | .rollback => "rollback"

/-- The kind of a request. -/
def kind : Request → Kind
  | .query _ => .query
  | .execute _ => .execute
  | .lastId => .lastId
  | .begin => .begin
  | .commit => .commit
  | .rollback => .rollback

/-- The statement that a request carries. -/
def sql? : Request → Option Sql
  | .query sql => some sql
  | .execute sql => some sql
  | _ => none

end Request

/-- The answer to a request, or the error it failed with. -/
abbrev Reply (r : Request) : Type :=
  Except Error r.Answer

end SqlBuilder
