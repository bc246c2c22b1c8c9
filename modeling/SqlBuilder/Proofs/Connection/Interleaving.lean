import Mathlib.Logic.Function.Basic
import Mathlib.Logic.Relation
import SqlBuilder.Connection.Turn

/-!
# Operations interleaved on one connection

Any number of operations share a connection and a database. An operation makes a turn
(`Connection.start`, `Connection.resume`) and then waits; the database answers in its own time, and
the operation goes on in its own time. So there are three kinds of step, and between any two steps
of one operation the others may make as many as they like. Nothing is assumed of the order of the
steps or of the answers. What reached the database and what it answered is kept in a history.

Main statement: an insert makes fifteen kinds of turn, which `InsertTurn` lists with what each does
to the connection. Every step of interleaved inserts is one of them, or an answer
(`Step.insert_cases`), and inserts remain inserts (`Run.ofInserts`).

What is shared is the connection, and of the connection only the flag changes. That is why
`InsertTurn` compares the connection before and after, and why a statement about all runs needs
an invariant on the flag and on where each of the inserts stands, and no more.
-/

namespace SqlBuilder

/-- Where an operation stands. -/
inductive Stage where
  | ready (operation : Operation)
  /-- The database has the request and has not answered yet. -/
  | asking (pending : Pending)
  /-- The database has answered and the operation has not gone on yet. -/
  | answered (pending : Pending) (reply : Reply pending.request)
  | ended (result : Except Error Outcome)

/-- What happens between the operations and the database. -/
inductive Act (ι : Type) where
  | ask (i : ι) (request : Request)
  | answer (i : ι) (request : Request) (reply : Reply request)

/-- A connection, the operations that share it, and what has reached the database. -/
structure Shared (ι : Type) where
  connection : Connection
  stage : ι → Stage
  /-- What has happened, the first act first. -/
  history : List (Act ι) := []

/-- The stage after a turn. -/
def Progress.stage : Progress → Stage
  | .waiting p => .asking p
  | .finished result => .ended result

/-- The request that a turn ends with, if it does not end the operation. -/
def Progress.asks {ι : Type} (i : ι) : Progress → List (Act ι)
  | .waiting p => [.ask i p.request]
  | .finished _ => []

namespace Shared

variable {ι : Type} [DecidableEq ι]

/-- Before the first turn. -/
def initial (c : Connection) (operations : ι → Operation) : Shared ι :=
  ⟨c, fun i => .ready (operations i), []⟩

/-- After a turn of operation `i`. -/
def take (s : Shared ι) (i : ι) (c : Connection) (progress : Progress) : Shared ι :=
  ⟨c, Function.update s.stage i progress.stage, s.history ++ progress.asks i⟩

/-- After the database answered operation `i`. -/
def hear (s : Shared ι) (i : ι) (p : Pending) (reply : Reply p.request) : Shared ι :=
  { s with
    stage := Function.update s.stage i (.answered p reply)
    history := s.history ++ [.answer i p.request reply] }

/-- What happens next: an operation makes its first turn, the database answers one that waits, or
one that was answered goes on. -/
inductive Step : Shared ι → Shared ι → Prop where
  | start {s : Shared ι} {i : ι} {operation : Operation} (h : s.stage i = .ready operation) :
    Step s (s.take i (s.connection.start operation).connection
      (s.connection.start operation).progress)
  | answer {s : Shared ι} {i : ι} {p : Pending} (h : s.stage i = .asking p)
      (reply : Reply p.request) : Step s (s.hear i p reply)
  | resume {s : Shared ι} {i : ι} {p : Pending} {reply : Reply p.request}
      (h : s.stage i = .answered p reply) :
    Step s (s.take i (s.connection.resume p reply).connection
      (s.connection.resume p reply).progress)

/-- Any number of steps. -/
abbrev Run : Shared ι → Shared ι → Prop :=
  Relation.ReflTransGen Step

/-! ### Steps that can be computed -/

/-- A choice of what happens next: operation `i` makes its turn, or the database, which answers as
the function says, answers it. -/
inductive Choice (ι : Type) where
  | turn (i : ι)
  | answer (i : ι) (database : (r : Request) → Reply r)

/-- What happens by choice. A choice that is none changes nothing. -/
def choose (s : Shared ι) : Choice ι → Shared ι
  | .turn i =>
    match s.stage i with
    | .ready operation =>
      s.take i (s.connection.start operation).connection (s.connection.start operation).progress
    | .answered p reply =>
      s.take i (s.connection.resume p reply).connection (s.connection.resume p reply).progress
    | _ => s
  | .answer i database =>
    match s.stage i with
    | .asking p => s.hear i p (database p.request)
    | _ => s

/-- A choice is a step, or it changes nothing. -/
theorem choose_eq_or_step (s : Shared ι) (choice : Choice ι) :
    s.choose choice = s ∨ Step s (s.choose choice) := by
  -- A choice is a step exactly if the operation is where the choice needs it to be.
  cases choice with
  | turn i =>
    cases h : s.stage i with
    | ready operation =>
      simp only [choose, h]
      exact .inr (.start h)
    | answered p reply =>
      simp only [choose, h]
      exact .inr (.resume h)
    | _ =>
      simp only [choose, h]
      exact .inl trivial
  | answer i database =>
    cases h : s.stage i with
    | asking p =>
      simp only [choose, h]
      exact .inr (.answer h _)
    | _ =>
      simp only [choose, h]
      exact .inl trivial

/-- A choice is a run of one step or of none. -/
theorem run_choose (s : Shared ι) (choice : Choice ι) : Run s (s.choose choice) := by
  rcases choose_eq_or_step s choice with hsame | hstep
  · rw [hsame]
  · exact .single hstep

/-- Every list of choices is a run. -/
theorem run_foldl_choose (s : Shared ι) (choices : List (Choice ι)) :
    Run s (choices.foldl choose s) := by
  induction choices generalizing s with
  | nil => exact .refl
  | cons choice choices ih => exact (run_choose s choice).trans (ih _)

/-- A connection that wraps its inserts and logs nothing. -/
def quiet : Connection :=
  ⟨Engine.sql.dialect, none, true, false⟩

/-- An insert of one row. -/
def oneRow : Write where
  draft := { sources := [⟨"t", none⟩] }
  rows := [Tuple.ofList [("a", .int 1)]]

/-- A database that does whatever it is asked, touches one row and knows an identifier. -/
def willing (id : Value) : (r : Request) → Reply r
  | .query _ => .ok []
  | .execute _ => .ok 1
  | .lastId => .ok (some id)
  | .begin | .commit | .rollback => .ok ()

/-- A database that does nothing it is asked. -/
def broken (r : Request) : Reply r :=
  .error (.execution "broken")

/-! ### Stages of the others -/

@[simp] theorem stage_take_self (s : Shared ι) (i : ι) (c : Connection) (progress : Progress) :
    (s.take i c progress).stage i = progress.stage :=
  Function.update_self ..

theorem stage_take_of_ne (s : Shared ι) {i j : ι} (h : j ≠ i) (c : Connection)
    (progress : Progress) : (s.take i c progress).stage j = s.stage j :=
  Function.update_of_ne h ..

@[simp] theorem stage_hear_self (s : Shared ι) (i : ι) (p : Pending) (reply : Reply p.request) :
    (s.hear i p reply).stage i = .answered p reply :=
  Function.update_self ..

theorem stage_hear_of_ne (s : Shared ι) {i j : ι} (h : j ≠ i) (p : Pending)
    (reply : Reply p.request) : (s.hear i p reply).stage j = s.stage j :=
  Function.update_of_ne h ..

end Shared

/-! ### Turns of an insert -/

/-- Whether the request is one of an insert. -/
def Pending.ofInsert : Pending → Bool
  | .opening _ | .inserting _ _ | .readingId _ _ | .closing _ _ | .undoing _ => true
  | _ => false

/-- Whether an insert can be at the stage. -/
def Stage.ofInsert : Stage → Bool
  | .ready (.store w) => !w.isUpdate
  | .ready _ => false
  | .asking p => p.ofInsert
  | .answered p _ => p.ofInsert
  | .ended _ => true

/-- What the turns of an insert do: the connection and the stage before, the connection and the
progress after. -/
inductive InsertTurn (c : Connection) : Stage → Connection → Progress → Prop where
  /-- The statement does not compile. -/
  | refused (w : Write) (e : Error) :
    InsertTurn c (.ready (.store w)) c (.finished (.error e))
  /-- The insert takes the flag, for a transaction of its own. -/
  | claimed (w : Write) (sql : Sql) (hwrap : c.wrapInserts = true)
      (hfree : c.inTransaction = false) :
    InsertTurn c (.ready (.store w)) { c with inTransaction := true } (.waiting (.opening sql))
  /-- The insert runs in whatever transaction there is. -/
  | joined (w : Write) (sql : Sql) (hbound : c.wrapInserts = true → c.inTransaction = true) :
    InsertTurn c (.ready (.store w)) c (.waiting (.inserting sql false))
  | opened (sql : Sql) :
    InsertTurn c (.answered (.opening sql) (.ok ())) c (.waiting (.inserting sql true))
  | unopened (sql : Sql) (e : Error) :
    InsertTurn c (.answered (.opening sql) (.error e)) { c with inTransaction := false }
      (.finished (.error e))
  | inserted (sql : Sql) (wrapped : Bool) (n : Nat) :
    InsertTurn c (.answered (.inserting sql wrapped) (.ok n)) c (.waiting (.readingId wrapped n))
  | uninserted (sql : Sql) (e : Error) :
    InsertTurn c (.answered (.inserting sql false) (.error e)) c (.finished (.error e))
  | uninsertedOwn (sql : Sql) (e : Error) :
    InsertTurn c (.answered (.inserting sql true) (.error e)) c (.waiting (.undoing e))
  | read (n : Nat) (id : Option Value) :
    InsertTurn c (.answered (.readingId false n) (.ok id)) c
      (.finished (.ok (.stored (.inserted n id))))
  | readOwn (n : Nat) (id : Option Value) :
    InsertTurn c (.answered (.readingId true n) (.ok id)) c (.waiting (.closing n id))
  | unread (n : Nat) (e : Error) :
    InsertTurn c (.answered (.readingId false n) (.error e)) c (.finished (.error e))
  | unreadOwn (n : Nat) (e : Error) :
    InsertTurn c (.answered (.readingId true n) (.error e)) c (.waiting (.undoing e))
  | closed (n : Nat) (id : Option Value) :
    InsertTurn c (.answered (.closing n id) (.ok ())) { c with inTransaction := false }
      (.finished (.ok (.stored (.inserted n id))))
  /-- The commit failed. The flag stays taken. -/
  | unclosed (n : Nat) (id : Option Value) (e : Error) :
    InsertTurn c (.answered (.closing n id) (.error e)) c (.finished (.error e))
  | undone (e : Error) (reply : Reply .rollback) :
    InsertTurn c (.answered (.undoing e) reply) { c with inTransaction := false }
      (.finished (.error e))

/-- The first turn of an insert. -/
theorem InsertTurn.of_start (c : Connection) {w : Write} (hw : w.isUpdate = false) :
    InsertTurn c (.ready (.store w)) (c.start (.store w)).connection
      (c.start (.store w)).progress := by
  cases hsql : c.compile (.write w) with
  | error e =>
    have hstart : c.start (.store w) = c.finish [] (.error e) := by
      simp only [Connection.start, Connection.withSql, hsql]
    rw [hstart]
    exact .refused w e
  | ok compiled =>
    obtain ⟨sql, events⟩ := compiled
    have hstart : c.start (.store w) = c.startInsert sql events := by
      simp only [Connection.start, Connection.withSql, hsql, hw, Bool.false_eq_true, if_false]
    -- It takes the flag if it may and nobody has it, and else runs in what there is.
    rw [hstart, Connection.startInsert]
    by_cases hown : (c.wrapInserts && !c.inTransaction) = true
    · rw [if_pos hown]
      rw [Bool.and_eq_true, Bool.not_eq_true'] at hown
      exact .claimed w sql hown.1 hown.2
    · rw [if_neg hown]
      refine .joined w sql fun hwrap => ?_
      rw [hwrap, Bool.true_and, Bool.not_eq_true', Bool.not_eq_false] at hown
      exact hown

/-- Every later turn of an insert. -/
theorem InsertTurn.of_resume (c : Connection) {p : Pending} (hp : p.ofInsert = true)
    (reply : Reply p.request) :
    InsertTurn c (.answered p reply) (c.resume p reply).connection
      (c.resume p reply).progress := by
  -- By the request that was answered and, where the insert goes on in two ways, by the reply.
  cases p with
  | opening sql =>
    cases reply with
    | ok u => exact .opened sql
    | error e => exact .unopened sql e
  | inserting sql wrapped =>
    cases reply with
    | ok n => exact .inserted sql wrapped n
    | error e =>
      -- Only an insert with a transaction of its own has something to undo.
      cases wrapped with
      | false => exact .uninserted sql e
      | true => exact .uninsertedOwn sql e
  | readingId wrapped n =>
    cases wrapped with
    | false =>
      cases reply with
      | ok id => exact .read n id
      | error e => exact .unread n e
    | true =>
      cases reply with
      | ok id => exact .readOwn n id
      | error e => exact .unreadOwn n e
  | closing n id =>
    cases reply with
    | ok u => exact .closed n id
    | error e => exact .unclosed n id e
  | undoing e =>
    cases reply with
    | ok u => exact .undone e (.ok u)
    | error e' => exact .undone e (.error e')
  | _ => exact Bool.noConfusion hp

/-- After a turn of an insert it is still one. -/
theorem InsertTurn.ofInsert {c c' : Connection} {stage : Stage} {progress : Progress}
    (h : InsertTurn c stage c' progress) : progress.stage.ofInsert = true := by
  cases h <;> rfl

namespace Shared

/-- All the operations are inserts. -/
def OfInserts {ι : Type} (s : Shared ι) : Prop :=
  ∀ i, (s.stage i).ofInsert = true

variable {ι : Type} [DecidableEq ι] {s t : Shared ι}

/-- **Steps of inserts**: the database answers one of them, or one of them makes a turn. -/
theorem Step.insert_cases (h : Step s t) (hs : s.OfInserts) :
    (∃ i p reply, s.stage i = .asking p ∧ p.ofInsert = true ∧ t = s.hear i p reply) ∨
      ∃ i c progress, InsertTurn s.connection (s.stage i) c progress ∧
        t = s.take i c progress := by
  -- That the stage is one of an insert says which operation starts, and which request is answered.
  cases h with
  | @start i operation hi =>
    have hinsert := hs i
    rw [hi] at hinsert
    cases operation with
    | store w =>
      refine .inr ⟨i, _, _, ?_, rfl⟩
      rw [hi]
      exact .of_start _ (Bool.not_eq_true' _ ▸ hinsert)
    | _ => exact Bool.noConfusion hinsert
  | @answer i p hi reply =>
    have hinsert := hs i
    rw [hi] at hinsert
    exact .inl ⟨i, p, reply, hi, hinsert, rfl⟩
  | @resume i p reply hi =>
    have hinsert := hs i
    rw [hi] at hinsert
    refine .inr ⟨i, _, _, ?_, rfl⟩
    rw [hi]
    exact .of_resume _ hinsert reply

/-- What holds of the stage of the one that is answered and of all other stages. -/
theorem forall_stage_hear {P : ι → Stage → Prop} {i : ι} {p : Pending} {reply : Reply p.request}
    (hi : P i (.answered p reply)) (hothers : ∀ j, j ≠ i → P j (s.stage j)) (j : ι) :
    P j ((s.hear i p reply).stage j) :=
  (Function.forall_update_iff s.stage P).mpr ⟨hi, hothers⟩ j

/-- What holds of the stage of the one that made a turn and of all other stages. -/
theorem forall_stage_take {P : ι → Stage → Prop} {i : ι} {c : Connection} {progress : Progress}
    (hi : P i progress.stage) (hothers : ∀ j, j ≠ i → P j (s.stage j)) (j : ι) :
    P j ((s.take i c progress).stage j) :=
  (Function.forall_update_iff s.stage P).mpr ⟨hi, hothers⟩ j

/-- A step makes nothing else of an insert. -/
theorem Step.ofInserts (h : Step s t) (hs : s.OfInserts) : t.OfInserts := by
  rcases h.insert_cases hs with ⟨i, p, reply, -, hp, rfl⟩ | ⟨i, c, progress, hturn, rfl⟩
  · exact forall_stage_hear (P := fun _ stage => stage.ofInsert = true) hp fun j _ => hs j
  · exact forall_stage_take (P := fun _ stage => stage.ofInsert = true) hturn.ofInsert
      fun j _ => hs j

omit [DecidableEq ι] in
/-- Stores that do not update are inserts in the beginning. -/
theorem ofInserts_initial (c : Connection) {w : ι → Write} (hw : ∀ i, (w i).isUpdate = false) :
    (initial c fun i => .store (w i)).OfInserts := by
  intro i
  change (!(w i).isUpdate) = true
  rw [hw i]
  rfl

/-- Inserts remain inserts. -/
theorem Run.ofInserts (h : Run s t) (hs : s.OfInserts) : t.OfInserts := by
  induction h with
  | refl => exact hs
  | tail _ hstep ih => exact hstep.ofInserts ih

/-- What one step of inserts preserves, a run of inserts preserves. -/
theorem Run.induct {P : Shared ι → Prop} (h : Run s t) (hs : s.OfInserts) (hP : P s)
    (hstep : ∀ u v, Step u v → u.OfInserts → P u → P v) : P t := by
  induction h with
  | refl => exact hP
  | tail hrun hlast ih => exact hstep _ _ hlast (Run.ofInserts hrun hs) ih

end Shared

end SqlBuilder
