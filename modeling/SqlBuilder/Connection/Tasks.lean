import SqlBuilder.Connection.Script
import SqlBuilder.Connection.Turn

/-!
# Operations that share a connection

Several operations run as tasks on one connection and one scripted database. A task runs until
the database lets it wait (`Task.poll`); the tasks get their turns one after the other, round
after round. A poll ends a task or brings it closer to its end (`polls_poll`), and no task needs
more than five, so five rounds end them all (`finished_runTasks`).
-/

namespace SqlBuilder

/-- A connection, its database, and what has happened on them. -/
structure World where
  connection : Connection
  script : Script
  /-- The requests that reached the database. -/
  requests : List Request := []
  events : List Event := []

/-- An operation that has not been started, waits for the database, or has ended. -/
inductive Task where
  | ready (operation : Operation)
  | suspended (pending : Pending)
  | finished (result : Except Error Outcome)

namespace World

/-- The world after a turn. -/
def after (w : World) (turn : Turn) : World :=
  { w with connection := turn.connection, events := w.events ++ turn.events }

/-- The world after the database heard a request. -/
def hear (w : World) (r : Request) : World :=
  if w.script.hears r then { w with requests := w.requests ++ [r] } else w

/-- Take the reply that a pending operation waits for: the turn it makes, and the world after
it. -/
def reply (w : World) (p : Pending) : Turn × World :=
  let (reply, script) := w.script.answer p.request
  let turn := w.connection.resume p reply
  (turn, { w with script }.after turn)

/-- A reply brings the operation closer to its end. -/
theorem rank_lt_of_reply {w : World} {p q : Pending}
    (h : (w.reply p).1.progress = .waiting q) : q.rank < p.rank :=
  Connection.rank_lt_of_resume h

/-- Run an operation from where it stands, until the database lets it wait or it ends. -/
def advance (w : World) : Progress → Task × World
  | .finished result => (.finished result, w)
  | .waiting p =>
    let w := w.hear p.request
    if w.script.suspends p.request then (.suspended p, w)
    else
      match h : (w.reply p).1.progress with
      | .finished result => (.finished result, (w.reply p).2)
      | .waiting q =>
        have : q.rank < p.rank := rank_lt_of_reply h
        (w.reply p).2.advance (.waiting q)
termination_by progress =>
  match progress with
  | .finished _ => 0
  | .waiting p => p.rank

end World

namespace Task

/-- Give a task its turn. -/
def poll (w : World) : Task → Task × World
  | .ready operation =>
    let turn := w.connection.start operation
    (w.after turn).advance turn.progress
  | .suspended p =>
    let (turn, w) := w.reply p
    w.advance turn.progress
  | .finished result => (.finished result, w)

/-- How many turns a task can need at most: to start, and for each of four replies. -/
def maxPolls : Nat := 5

/-- How many more turns the task can need. -/
def polls : Task → Nat
  | .ready _ => maxPolls
  | .suspended p => p.rank + 1
  | .finished _ => 0

/-- The result of a task that has ended. -/
def result? : Task → Option (Except Error Outcome)
  | .finished result => some result
  | _ => none

end Task

/-- How many more turns an operation can need that stands where `progress` says. -/
def Progress.polls : Progress → Nat
  | .waiting p => p.rank + 1
  | .finished _ => 0

/-- A task that runs on does not get further from its end. -/
theorem World.polls_advance (w : World) (progress : Progress) :
    (w.advance progress).1.polls ≤ progress.polls := by
  fun_induction World.advance w progress with
  | case1 => simp [Task.polls]
  | case2 => simp [Task.polls, Progress.polls]
  | case3 => simp [Task.polls]
  | case4 _ _ _ _ _ _ _ ih =>
    simp only [Progress.polls] at ih ⊢
    omega

theorem Progress.polls_le {progress : Progress} {n : Nat}
    (h : ∀ q, progress = .waiting q → q.rank < n) : progress.polls ≤ n := by
  cases progress with
  | finished => simp [Progress.polls]
  | waiting q => exact h q rfl

/-- A poll ends a task or brings it closer to its end. -/
theorem Task.polls_poll (w : World) (t : Task) : (t.poll w).1.polls ≤ t.polls - 1 := by
  cases t with
  | ready operation =>
    refine Nat.le_trans (World.polls_advance _ _) (Progress.polls_le fun q _ => ?_)
    have := q.rank_le
    simp only [Task.polls, Task.maxPolls]
    omega
  | suspended p =>
    refine Nat.le_trans (World.polls_advance _ _) (Progress.polls_le fun q hq => ?_)
    exact World.rank_lt_of_reply hq
  | finished => simp [Task.poll, Task.polls]

namespace World

/-- Give every task its turn. -/
def round (w : World) : List Task → List Task × World
  | [] => ([], w)
  | t :: ts =>
    let (t, w) := t.poll w
    let (ts, w) := w.round ts
    (t :: ts, w)

/-- Give every task `n` turns. -/
def rounds (w : World) : Nat → List Task → List Task × World
  | 0, ts => (ts, w)
  | n + 1, ts =>
    let (ts, w) := w.round ts
    w.rounds n ts

/-- Run tasks to their end. -/
def runTasks (w : World) (operations : List Operation) : List Task × World :=
  w.rounds Task.maxPolls (operations.map .ready)

/-- After a round every task needs one poll less. -/
theorem polls_round (w : World) {ts : List Task} {n : Nat} (h : ∀ t ∈ ts, t.polls ≤ n + 1) :
    ∀ t ∈ (w.round ts).1, t.polls ≤ n := by
  induction ts generalizing w with
  | nil => simp [round]
  | cons t ts ih =>
    intro u hu
    simp only [round, List.mem_cons] at hu
    rcases hu with rfl | hu
    · have := Task.polls_poll w t
      have := h t (by simp)
      omega
    · exact ih _ (fun t ht => h t (by simp [ht])) u hu

/-- After as many rounds as the tasks need polls none needs any. -/
theorem polls_rounds (w : World) {ts : List Task} {n : Nat} (h : ∀ t ∈ ts, t.polls ≤ n) :
    ∀ t ∈ (w.rounds n ts).1, t.polls = 0 := by
  induction n generalizing w ts with
  | zero => exact fun t ht => Nat.le_zero.1 (h t ht)
  | succ n ih => exact ih _ (w.polls_round h)

/-- Every task has ended when the tasks have been run. -/
theorem finished_runTasks (w : World) (operations : List Operation) :
    ∀ t ∈ (w.runTasks operations).1, t.result?.isSome := by
  intro t ht
  have start : ∀ t ∈ operations.map Task.ready, t.polls ≤ Task.maxPolls := by
    simp [Task.polls]
  have := w.polls_rounds start t ht
  cases t <;> simp_all [Task.polls, Task.maxPolls, Task.result?]

/-- Run operations as tasks: their results in the order of the operations. -/
def run (w : World) (operations : List Operation) :
    List (Except Error Outcome) × World :=
  let (tasks, w) := w.runTasks operations
  (tasks.filterMap Task.result?, w)

end World

end SqlBuilder
