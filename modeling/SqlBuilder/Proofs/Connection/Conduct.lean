import SqlBuilder.Connection.Tasks
import SqlBuilder.Proofs.Connection.Interleaving

/-!
# One operation from its start to its end

What an operation does can be seen from outside: it reports events, asks the database, and gets
answers. `Connection.conduct` runs an operation to its end and keeps all of it in order. The
surroundings are arbitrary. The database may answer by what has happened so far, and while the
operation waits others may take the transaction flag or give it back.

Main statement: an operation with a statement compiles it once. If that fails, nothing is done; if
it succeeds, the statement is reported before the database is asked for anything, and then handed
over exactly once, as it was compiled (`Connection.conduct_of_statement`).

The first turn is looked at by operation, and every later one only by where it leaves the operation:
behind the request with the statement there is no way back to one (`Connection.of_resume`). Only an
insert with a transaction of its own has a turn between the two, and is dealt with by itself.
-/

namespace SqlBuilder

/-- What can be seen of an operation from outside. -/
inductive Deed where
  | report (event : Event)
  | ask (request : Request)
  | answer (request : Request) (reply : Reply request)

/-- What surrounds an operation. Both may depend on what has been seen of it so far. -/
structure Surroundings where
  /-- What the database replies to a request. -/
  reply : List Deed → (r : Request) → Reply r
  /-- What others make of the transaction flag while the operation waits. -/
  flag : List Deed → Bool → Bool

/-- An operation that was run to its end. -/
structure Conducted where
  deeds : List Deed
  result : Except Error Outcome
  /-- The connection behind the last turn. -/
  connection : Connection

namespace Surroundings

/-- A request and what is replied to it. -/
def exchange (around : Surroundings) (done : List Deed) (r : Request) : List Deed :=
  [.ask r, .answer r (around.reply done r)]

/-- The turn that an operation makes when its request gets a reply. -/
def turn (around : Surroundings) (done : List Deed) (c : Connection) (p : Pending) : Turn :=
  let flag := around.flag (done ++ around.exchange done p.request) c.inTransaction
  { c with inTransaction := flag }.resume p (around.reply done p.request)

/-- Run an operation from where it stands to its end. What has been seen of it before is `done`. -/
def conduct (around : Surroundings) (done : List Deed) (c : Connection) : Progress → Conducted
  | .finished result => ⟨[], result, c⟩
  | .waiting p =>
    let turn := around.turn done c p
    let seen := around.exchange done p.request ++ turn.events.map .report
    let later := around.conduct (done ++ seen) turn.connection turn.progress
    { later with deeds := seen ++ later.deeds }
termination_by progress => progress.polls
decreasing_by exact Nat.lt_succ_of_le (Progress.polls_le fun q => Connection.rank_lt_of_resume)

end Surroundings

/-- Run an operation to its end. -/
def Connection.conduct (c : Connection) (around : Surroundings) (op : Operation) : Conducted :=
  let turn := c.start op
  let seen := turn.events.map .report
  let later := around.conduct seen turn.connection turn.progress
  { later with deeds := seen ++ later.deeds }

/-! ### Deeds that concern a statement -/

/-- Whether the event reports a statement. -/
def Event.ofStatement : Event → Bool
  | .compiled .. | .logged .. => true
  | .transaction _ | .failed .. => false

/-- The report of a statement. -/
def Deed.statementEvent? : Deed → Option Event
  | .report event => if event.ofStatement then some event else none
  | _ => none

/-- The request that hands a statement over. -/
def Deed.statementRequest? : Deed → Option Request
  | .ask r => if r.sql?.isSome then some r else none
  | _ => none

/-- The reports of statements among deeds. -/
def statementEvents (deeds : List Deed) : List Event :=
  deeds.filterMap Deed.statementEvent?

/-- The requests among deeds that hand a statement over. -/
def statementRequests (deeds : List Deed) : List Request :=
  deeds.filterMap Deed.statementRequest?

@[simp] theorem statementEvents_append (deeds more : List Deed) :
    statementEvents (deeds ++ more) = statementEvents deeds ++ statementEvents more :=
  List.filterMap_append

@[simp] theorem statementRequests_append (deeds more : List Deed) :
    statementRequests (deeds ++ more) = statementRequests deeds ++ statementRequests more :=
  List.filterMap_append

/-- To report is not to ask. -/
@[simp] theorem statementRequests_reports (events : List Event) :
    statementRequests (events.map .report) = [] := by
  simp [statementRequests, Deed.statementRequest?]

/-- Among reports of other things no statement is reported. -/
theorem statementEvents_reports {events : List Event} (h : ∀ event ∈ events, !event.ofStatement) :
    statementEvents (events.map .report) = [] := by
  simpa [statementEvents, Deed.statementEvent?] using h

/-- The statement of an operation that runs one. One row is fetched with a window of one row. -/
def Operation.statement? : Operation → Option Statement
  | .fetchAll s => some (.select s)
  | .fetchOne s => some (.select (s.setWindow 1 0))
  | .store w => some (.write w)
  | .remove r => some (.delete r)
  | .execute s => some s
  | .compile _ | .newStatement _ | .transaction _ | .describe => none

/-- The request by which an operation hands its statement over. -/
def Operation.handOver (op : Operation) (sql : Sql) : Request :=
  match op with
  | .fetchAll _ | .fetchOne _ => .query sql
  | _ => .execute sql

/-- What is reported of a statement that was compiled. -/
def Connection.statementReports (c : Connection) (s : Statement) (sql : Sql) : List Event :=
  .compiled s.kind c.dialect.name sql.params.length :: c.logger?.toList.map fun logger =>
    .logged logger.level s.kind c.dialect.name sql.params.length (logger.shorten sql.text)

/-! ### Turns -/

/-- Whether no statement is left to be handed over, by the request or later. -/
def Pending.handedOver : Pending → Bool
  | .readingId .. | .closing .. | .undoing _ | .stepping _ => true
  | .fetching .. | .running _ | .updating _ | .opening _ | .inserting .. => false

/-- Whether an operation has no statement left to hand over. -/
def Progress.handedOver : Progress → Bool
  | .waiting p => p.handedOver
  | .finished _ => true

/-- Where no statement is left to hand over, the request carries none. -/
theorem Pending.sql?_of_handedOver {p : Pending} (h : p.handedOver) : p.request.sql? = none := by
  cases p with
  | stepping step => cases step <;> rfl
  | readingId | closing | undoing => rfl
  | _ => cases h

/-- The request carries the statement as it was compiled. -/
theorem Operation.sql?_handOver (op : Operation) (sql : Sql) :
    (op.handOver sql).sql? = some sql := by
  cases op <;> rfl

namespace Connection

/-- Without SQL there is no next turn. -/
theorem withSql_of_error {c : Connection} {s : Statement} {e : Error}
    (h : s.compile c.dialect = .error e) (next : Sql → List Event → Turn) :
    c.withSql s next = c.finish [] (.error e) := by
  rw [withSql, compile, h]
  rfl

/-- With SQL the next turn has the reports of the statement. -/
theorem withSql_of_ok {c : Connection} {s : Statement} {sql : Sql}
    (h : s.compile c.dialect = .ok sql) (next : Sql → List Event → Turn) :
    c.withSql s next = next sql (c.statementReports s sql) := by
  rw [withSql, compile, h]
  rfl

/-- The first turn of an operation whose statement does not compile. -/
theorem start_of_error {op : Operation} {s : Statement} (hs : op.statement? = some s)
    {c : Connection} {e : Error} (h : s.compile c.dialect = .error e) :
    c.start op = c.finish [] (.error e) := by
  cases op with
  | fetchAll | fetchOne | store | remove | execute =>
    obtain rfl := Option.some.inj hs
    exact withSql_of_error h _
  | compile | newStatement | transaction | describe => cases hs

/-- The first turn of an operation whose statement compiles. It reports the statement and hands it
over, or is that of an insert with a transaction of its own, which begins first. -/
theorem start_of_ok {op : Operation} {s : Statement} (hs : op.statement? = some s)
    {c : Connection} {sql : Sql} (h : s.compile c.dialect = .ok sql) :
    (∃ p, p.request = op.handOver sql ∧ c.start op = c.await (c.statementReports s sql) p) ∨
    (∃ w, op = .store w ∧ w.isUpdate = false ∧ c.wrapInserts = true ∧ c.inTransaction = false) ∧
      c.start op = { c with inTransaction := true }.await
        (c.statementReports s sql ++ [Event.transaction .begin]) (.opening sql) := by
  cases op with
  | fetchAll q | fetchOne q | remove q | execute q =>
    obtain rfl := Option.some.inj hs
    exact .inl ⟨_, rfl, withSql_of_ok h _⟩
  | store w =>
    obtain rfl := Option.some.inj hs
    rw [start, withSql_of_ok h]
    cases hupdate : w.isUpdate with
    | true => exact .inl ⟨.updating sql, rfl, rfl⟩
    | false =>
      rw [if_neg Bool.false_ne_true, startInsert]
      split
      · next hwraps =>
        rw [Bool.and_eq_true, Bool.not_eq_true'] at hwraps
        exact .inr ⟨⟨w, rfl, hupdate, hwraps.1, hwraps.2⟩, rfl⟩
      · exact .inl ⟨.inserting sql false, rfl, rfl⟩
  | compile | newStatement | transaction | describe => cases hs

/-- No later turn reports a statement. -/
theorem not_ofStatement_of_resume (c : Connection) (p : Pending) (reply : Reply p.request) :
    ∀ event ∈ (c.resume p reply).events, !event.ofStatement := by
  fun_cases resume c p reply
  -- A failed step of an insert reports its failure, and then perhaps a rollback.
  case case10 | case12 =>
    unfold abandonInsert
    split <;> simp [finish, await, Event.ofStatement]
  all_goals simp [finish, await, Event.ofStatement]

/-- Every later turn is behind the statement, except where the transaction of an insert has
begun. -/
theorem handedOver_of_resume (c : Connection) (p : Pending) (reply : Reply p.request)
    (h : ∀ sql, p ≠ .opening sql) : (c.resume p reply).progress.handedOver := by
  revert h
  fun_cases resume c p reply
  case case10 | case12 =>
    intro _
    unfold abandonInsert
    split <;> rfl
  case case9 sql _ => exact fun h => absurd rfl (h sql)
  all_goals exact fun _ => rfl

end Connection

/-! ### Runs -/

namespace Surroundings

variable (around : Surroundings) (done : List Deed) (c : Connection)

/-- To ask and to answer is not to report. -/
@[simp] theorem statementEvents_exchange (r : Request) :
    statementEvents (around.exchange done r) = [] :=
  rfl

/-- Of an exchange the request may hand a statement over. -/
theorem statementRequests_exchange (r : Request) :
    statementRequests (around.exchange done r) = if r.sql?.isSome then [r] else [] := by
  cases r <;> rfl

/-- No statement is reported behind the first turn. -/
theorem statementEvents_conduct (progress : Progress) :
    statementEvents (around.conduct done c progress).deeds = [] := by
  -- By induction on the turns that are left: a turn shows an exchange and what it reports.
  fun_induction around.conduct done c progress with
  | case1 => rfl
  | case2 done c p turn seen later ih =>
    have hturn : statementEvents (turn.events.map .report) = [] :=
      statementEvents_reports (Connection.not_ofStatement_of_resume _ p _)
    rw [statementEvents_append, ih, statementEvents_append, hturn, statementEvents_exchange]
    rfl

/-- Behind the request with the statement no other hands one over. -/
theorem statementRequests_conduct_of_handedOver {progress : Progress}
    (h : progress.handedOver) : statementRequests (around.conduct done c progress).deeds = [] := by
  -- The next turn is behind the request with the statement too, which the induction needs.
  fun_induction around.conduct done c progress with
  | case1 => rfl
  | case2 done c p turn seen later ih =>
    have hnext : turn.progress.handedOver := by
      refine Connection.handedOver_of_resume _ p _ fun sql hp => ?_
      rw [hp] at h
      cases h
    rw [statementRequests_append, ih hnext, statementRequests_append, statementRequests_exchange,
      Pending.sql?_of_handedOver h, statementRequests_reports]
    rfl

/-- An operation that asks the database to run its statement does it once. -/
theorem statementRequests_conduct {p : Pending} {sql : Sql} (h : p.request.sql? = some sql) :
    statementRequests (around.conduct done c (.waiting p)).deeds = [p.request] := by
  have hnext : (around.turn done c p).progress.handedOver := by
    refine Connection.handedOver_of_resume _ p _ ?_
    rintro sql rfl
    cases h
  rw [conduct, statementRequests_append, statementRequests_append, statementRequests_exchange, h,
    statementRequests_reports, statementRequests_conduct_of_handedOver _ _ _ hnext]
  rfl

/-- A run whose next turn is the last. -/
theorem conduct_of_finish {p : Pending} {c' : Connection} {events : List Event}
    {result : Except Error Outcome} (h : around.turn done c p = c'.finish events result) :
    around.conduct done c (.waiting p) =
      ⟨around.exchange done p.request ++ events.map .report, result, c'⟩ := by
  rw [conduct, h, Connection.finish, conduct, List.append_nil]

/-- An insert with a transaction of its own runs its statement once when the transaction has begun,
and not at all if it can not begin. -/
theorem statementRequests_conduct_opening (sql : Sql) :
    statementRequests (around.conduct done c (.waiting (.opening sql))).deeds = [.execute sql] ∨
      ∃ e c', around.conduct done c (.waiting (.opening sql)) =
        ⟨[.ask .begin, .answer .begin (.error e)], .error e, c'⟩ := by
  obtain ⟨b, hturn⟩ : ∃ b, around.turn done c (.opening sql) =
      { c with inTransaction := b }.resume (.opening sql) (around.reply done .begin) := ⟨_, rfl⟩
  cases hreply : around.reply done .begin with
  | ok _ =>
    -- The transaction has begun, and the insert goes on to its statement.
    rw [hreply] at hturn
    have hopening : statementRequests (around.exchange done .begin) = [] := rfl
    refine .inl ?_
    rw [conduct, hturn]
    change statementRequests (around.exchange done .begin ++ [] ++
      (around.conduct _ { c with inTransaction := b } (.waiting (.inserting sql true))).deeds) = _
    rw [List.append_nil, statementRequests_append, hopening,
      around.statementRequests_conduct _ _ rfl]
    rfl
  | error e =>
    -- The transaction has not begun, and the insert ends with the next turn.
    rw [hreply] at hturn
    refine .inr ⟨e, { c with inTransaction := false }, ?_⟩
    rw [around.conduct_of_finish done c hturn]
    change Conducted.mk [.ask .begin, .answer .begin (around.reply done .begin)] _ _ = _
    rw [hreply]

end Surroundings

/-- **What was compiled is handed over.** Of an operation with a statement, whatever the state of
the connection, the replies of the database and the doings of others:

* if the statement does not compile, the result is the error of the compiler, nothing is reported,
  the database is asked for nothing, and the connection stays as it is;
* if it compiles, that and, if there is a logger, its text are reported first, both with the number
  of parameters, and nothing else ever reports a statement; and then it is handed over exactly once,
  as it was compiled, unless the transaction of an insert can not begin. -/
theorem Connection.conduct_of_statement {op : Operation} {s : Statement}
    (hs : op.statement? = some s) (c : Connection) (around : Surroundings) :
    (∀ e, s.compile c.dialect = .error e → c.conduct around op = ⟨[], .error e, c⟩) ∧
    ∀ sql, s.compile c.dialect = .ok sql →
      ∃ rest, (c.conduct around op).deeds = (c.statementReports s sql).map .report ++ rest ∧
        statementEvents rest = [] ∧
        (statementRequests rest = [op.handOver sql] ∨
          (∃ w, op = .store w ∧ w.isUpdate = false ∧ c.wrapInserts = true ∧
            c.inTransaction = false) ∧ statementRequests rest = [] ∧
          ∃ e, .answer .begin (.error e) ∈ rest ∧ (c.conduct around op).result = .error e) := by
  refine ⟨fun e he => ?_, fun sql hsql => ?_⟩
  · rw [conduct, start_of_error hs he]
    simp only [finish, Surroundings.conduct]
    rfl
  · rcases start_of_ok hs hsql with ⟨p, hp, hstart⟩ | ⟨hinsert, hstart⟩
    · -- The first turn hands the statement over.
      have hrequest : p.request.sql? = some sql := by
        rw [hp]
        exact op.sql?_handOver sql
      rw [conduct, hstart]
      refine ⟨_, rfl, ?_, .inl ?_⟩
      · exact around.statementEvents_conduct _ _ _
      · rw [← hp]
        exact around.statementRequests_conduct _ _ hrequest
    · -- The first turn asks to begin, and reports that behind the statement.
      rw [conduct, hstart]
      simp only [await, List.map_append, List.append_assoc]
      refine ⟨_, rfl, ?_, ?_⟩
      · rw [statementEvents_append, around.statementEvents_conduct]
        rfl
      · rw [statementRequests_append, statementRequests_reports, List.nil_append]
        rcases around.statementRequests_conduct_opening _ _ sql with hran | ⟨e, c', hrun⟩
        · obtain ⟨w, hop, _⟩ := hinsert
          rw [hop]
          exact .inl hran
        · rw [hrun]
          exact .inr ⟨hinsert, rfl, e, by simp, rfl⟩

/-- A database that replies by the request alone, while others leave the flag as it is. -/
def Surroundings.still (reply : (r : Request) → Reply r) : Surroundings :=
  ⟨fun _ => reply, fun _ inTransaction => inTransaction⟩

/-- Every row of a table. -/
def wholeTable : Select where
  draft := { sources := [⟨"t", none⟩] }

theorem Connection.conduct_of_statement_fetchOne :
    let op : Operation := .fetchOne wholeTable
    let sql : Sql := ⟨"SELECT * FROM \"t\" LIMIT ?, ?", [.int 1, .int 0]⟩
    let run := (ofEngine .sql).conduct (.still (Shared.willing .null)) op
    op.statement? = some (.select (wholeTable.setWindow 1 0)) ∧
      ∃ rest, run.deeds = .report (.compiled .select "sql" 2) ::
          .report (.logged .debug .select "sql" 2 sql.text) :: rest ∧
        statementEvents rest = [] ∧ statementRequests rest = [.query sql] := by
  intro op sql run
  have hs : op.statement? = some (.select (wholeTable.setWindow 1 0)) := rfl
  obtain ⟨-, hcompiled⟩ :=
    conduct_of_statement hs (ofEngine .sql) (.still (Shared.willing .null))
  obtain ⟨rest, hdeeds, hevents, hrequests | ⟨⟨w, hop, _⟩, _⟩⟩ := hcompiled sql rfl
  · exact ⟨hs, rest, hdeeds, hevents, hrequests⟩
  · exact Operation.noConfusion hop

end SqlBuilder
