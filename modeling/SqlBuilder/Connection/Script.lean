import SqlBuilder.Connection.Request

/-!
# A scripted database

A database whose replies are given beforehand, one list for each kind of request; a request
without a scripted reply succeeds with no rows, one row touched or no identifier. For some kinds
of request the database may let its caller wait, which matters where operations share a
connection. A database that knows no identifiers answers for them without being asked.
-/

namespace SqlBuilder

/-- The replies still to come. -/
structure Script where
  queries : List (Except Error (List Row)) := []
  executes : List (Except Error Nat) := []
  lastIds : List (Except Error (Option Value)) := []
  begins : List (Except Error Unit) := []
  commits : List (Except Error Unit) := []
  rollbacks : List (Except Error Unit) := []
  /-- The kinds of request that let the caller wait. -/
  waits : List Request.Kind := []
  /-- Whether the database knows the identifiers it generates. -/
  knowsIds : Bool := true

namespace Script

/-- The first of a list and the rest of it, or `last` when there is none. -/
def pop {α : Type} (last : α) : List α → α × List α
  | [] => (last, [])
  | x :: xs => (x, xs)

/-- Whether the request reaches the database. -/
def hears (s : Script) (r : Request) : Bool :=
  s.knowsIds || r.kind != .lastId

/-- Whether the caller of a request has to wait. -/
def suspends (s : Script) (r : Request) : Bool :=
  s.hears r && r.kind ∈ s.waits

/-- The reply to a request, and the script after it. -/
def answer (s : Script) : (r : Request) → Reply r × Script
  | .query _ => let (x, queries) := pop (.ok []) s.queries; (x, { s with queries })
  | .execute _ => let (x, executes) := pop (.ok 1) s.executes; (x, { s with executes })
  | .lastId =>
    if s.knowsIds then
      let (x, lastIds) := pop (.ok none) s.lastIds; (x, { s with lastIds })
    else (.ok none, s)
  | .begin => let (x, begins) := pop (.ok ()) s.begins; (x, { s with begins })
  | .commit => let (x, commits) := pop (.ok ()) s.commits; (x, { s with commits })
  | .rollback => let (x, rollbacks) := pop (.ok ()) s.rollbacks; (x, { s with rollbacks })

end Script

end SqlBuilder
