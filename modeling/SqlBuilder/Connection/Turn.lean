import SqlBuilder.Connection.Basic
import SqlBuilder.Statement.Select

/-!
# Operations in turns

An operation runs until it needs the database, and goes on when the reply is there:
`Connection.start` makes the first turn and `Connection.resume` every later one. Between two
turns the operation is a `Pending` value, from which its request can be read, so any number of
operations can share one connection in any order of turns. The only thing they share is whether
a transaction is open.

An insert outside a transaction gets one of its own: it takes the flag before it asks the
database to begin, commits when the identifier is read and rolls back when a step fails. Every
turn brings an operation closer to its end (`rank_lt_of_resume`).
-/

namespace SqlBuilder

/-- An operation that waits for the database. -/
inductive Pending where
  | fetching (sql : Sql) (firstOnly : Bool)
  | running (sql : Sql)
  | updating (sql : Sql)
  /-- The transaction of an insert is to begin. -/
  | opening (sql : Sql)
  | inserting (sql : Sql) (wrapped : Bool)
  | readingId (wrapped : Bool) (affected : Nat)
  /-- The transaction of an insert is to be committed. -/
  | closing (affected : Nat) (lastId? : Option Value)
  /-- The transaction of an insert that failed is to be rolled back. -/
  | undoing (error : Error)
  | stepping (step : TransactionStep)

namespace Pending

/-- What the operation asks the database for. -/
def request : Pending → Request
  | .fetching sql _ => .query sql
  | .running sql => .execute sql
  | .updating sql => .execute sql
  | .opening _ => .begin
  | .inserting sql _ => .execute sql
  | .readingId _ _ => .lastId
  | .closing _ _ => .commit
  | .undoing _ => .rollback
  | .stepping .begin => .begin
  | .stepping .commit => .commit
  | .stepping .rollback => .rollback

/-- How many more requests may follow the one waited for. -/
def rank : Pending → Nat
  | .opening _ => 3
  | .inserting _ _ => 2
  | .readingId _ _ => 1
  | _ => 0

theorem rank_le (p : Pending) : p.rank ≤ 3 := by
  cases p <;> simp [rank]

end Pending

/-- Where an operation stands after a turn. -/
inductive Progress where
  | waiting (pending : Pending)
  | finished (result : Except Error Outcome)

/-- A turn of an operation: the connection after it, what was reported, and where it stands. -/
structure Turn where
  connection : Connection
  events : List Event
  progress : Progress

namespace Connection

/-- End an operation. -/
def finish (c : Connection) (events : List Event) (result : Except Error Outcome) : Turn :=
  ⟨c, events, .finished result⟩

/-- Wait for the database. -/
def await (c : Connection) (events : List Event) (p : Pending) : Turn :=
  ⟨c, events, .waiting p⟩

/-- Compile a statement and go on with its SQL, or end with the error. -/
def withSql (c : Connection) (s : Statement) (next : Sql → List Event → Turn) : Turn :=
  match c.compile s with
  | .ok (sql, events) => next sql events
  | .error e => c.finish [] (.error e)

/-- The first turn of an insert. It takes the transaction flag if it wraps itself. -/
def startInsert (c : Connection) (sql : Sql) (events : List Event) : Turn :=
  if c.wrapInserts && !c.inTransaction then
    { c with inTransaction := true }.await (events ++ [Event.transaction .begin]) (.opening sql)
  else c.await events (.inserting sql false)

/-- The first turn of an operation. -/
def start (c : Connection) : Operation → Turn
  | .fetchAll s => c.withSql (.select s) fun sql events => c.await events (.fetching sql false)
  | .fetchOne s =>
    c.withSql (.select (s.setWindow 1 0)) fun sql events => c.await events (.fetching sql true)
  | .store w =>
    c.withSql (.write w) fun sql events =>
      if w.isUpdate then c.await events (.updating sql) else c.startInsert sql events
  | .remove r => c.withSql (.delete r) fun sql events => c.await events (.running sql)
  | .execute s => c.withSql s fun sql events => c.await events (.running sql)
  | .compile s => c.withSql s fun sql events => c.finish events (.ok (.compiled sql))
  | .newStatement name =>
    c.finish [] ((StatementKind.ofName name).map fun kind => .statement (.empty kind))
  | .transaction step => c.await [.transaction step] (.stepping step)
  | .describe => c.finish [] (.ok (.description c.describe))

/-- The turn after a step of an insert failed: roll back what the insert wrapped. -/
def abandonInsert (c : Connection) (events : List Event) (wrapped : Bool) (e : Error) : Turn :=
  if wrapped then c.await (events ++ [Event.transaction .rollback]) (.undoing e)
  else c.finish events (.error e)

/-- The turn of an operation whose request got a reply. -/
def resume (c : Connection) : (p : Pending) → Reply p.request → Turn
  -- What needs one reply ends with it.
  | .fetching _ _, .error e => c.finish [.failed .query e] (.error e)
  | .fetching _ true, .ok rows => c.finish [] (.ok (.row rows.head?))
  | .fetching _ false, .ok rows => c.finish [] (.ok (.rows rows))
  | .running _, .error e => c.finish [.failed .statement e] (.error e)
  | .running _, .ok n => c.finish [] (.ok (.affected n))
  | .updating _, .error e => c.finish [.failed .statement e] (.error e)
  | .updating _, .ok n => c.finish [] (.ok (.stored (.updated n)))
  -- An insert goes on; the flag it took is given back with its transaction.
  | .opening _, .error e => { c with inTransaction := false }.finish [] (.error e)
  | .opening sql, .ok _ => c.await [] (.inserting sql true)
  | .inserting _ wrapped, .error e => c.abandonInsert [.failed .statement e] wrapped e
  | .inserting _ wrapped, .ok n => c.await [] (.readingId wrapped n)
  | .readingId wrapped _, .error e => c.abandonInsert [] wrapped e
  | .readingId true n, .ok id => c.await [.transaction .commit] (.closing n id)
  | .readingId false n, .ok id => c.finish [] (.ok (.stored (.inserted n id)))
  -- A commit that failed leaves the transaction open, and is not rolled back.
  | .closing _ _, .error e => c.finish [] (.error e)
  | .closing n id, .ok _ =>
    { c with inTransaction := false }.finish [] (.ok (.stored (.inserted n id)))
  | .undoing e, .error e' =>
    { c with inTransaction := false }.finish [.failed .rollback e'] (.error e)
  | .undoing e, .ok _ => { c with inTransaction := false }.finish [] (.error e)
  -- The flag follows a step that succeeded; a rollback ends the transaction in any case.
  | .stepping .begin, .error e => c.finish [] (.error e)
  | .stepping .begin, .ok _ => { c with inTransaction := true }.finish [] (.ok .done)
  | .stepping .commit, .error e => c.finish [] (.error e)
  | .stepping .commit, .ok _ => { c with inTransaction := false }.finish [] (.ok .done)
  | .stepping .rollback, .error e => { c with inTransaction := false }.finish [] (.error e)
  | .stepping .rollback, .ok _ => { c with inTransaction := false }.finish [] (.ok .done)

/-- An insert that is abandoned waits for its rollback at most. -/
theorem rank_of_abandonInsert {c : Connection} {events : List Event} {wrapped : Bool} {e : Error}
    {q : Pending} (h : (c.abandonInsert events wrapped e).progress = .waiting q) :
    q.rank = 0 := by
  cases wrapped with
  | false => simp [abandonInsert, finish] at h
  | true =>
    simp only [abandonInsert, await, if_true, Progress.waiting.injEq] at h
    rw [← h]
    rfl

/-- Every turn brings an operation closer to its end. -/
theorem rank_lt_of_resume {c : Connection} {p q : Pending} {reply : Reply p.request}
    (h : (c.resume p reply).progress = .waiting q) : q.rank < p.rank := by
  revert h
  fun_cases resume c p reply
  case case10 =>
    intro h
    rw [rank_of_abandonInsert h]
    exact Nat.zero_lt_two
  case case12 =>
    intro h
    rw [rank_of_abandonInsert h]
    exact Nat.zero_lt_one
  all_goals simp +contextual [finish, await, Pending.rank, eq_comm]

end Connection

end SqlBuilder
