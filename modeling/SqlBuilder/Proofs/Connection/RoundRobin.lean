import SqlBuilder.Connection.Tasks
import SqlBuilder.Proofs.Connection.Interleaving

/-!
# Rounds of tasks are an interleaving

Tasks on a scripted database get their turns round after round, and a task runs on until the
database lets it wait. That is one of many ways to interleave their operations.

Main statement: whatever the tasks come to is what a run of interleaved operations comes to, with
the same connection and every operation where its task is (`World.exists_run_runTasks`). So what
holds at the end of every run holds when tasks have been run.

A task that waits for the database has made its request and has no answer; that the database has
answered is never seen between two polls. The proof goes from the inside out: a task that runs on
(`World.reaches_advance`), a poll, a round, any number of rounds.
-/

namespace SqlBuilder

open Shared

/-- Where the operation of a task stands. -/
def Task.stage : Task → Stage
  | .ready operation => .ready operation
  | .suspended p => .asking p
  | .finished result => .ended result

/-- Reaching, from `s`, a connection and a stage of operation `i`, the others staying where they
are. -/
def Reaches (s : Shared Nat) (i : Nat) (c : Connection) (stage : Stage) : Prop :=
  ∃ t, Run s t ∧ t.connection = c ∧ t.stage i = stage ∧ ∀ j, j ≠ i → t.stage j = s.stage j

section Reaches

variable {s : Shared Nat} {i : Nat} {c : Connection} {stage : Stage}

theorem Reaches.refl (hc : s.connection = c) (hi : s.stage i = stage) : Reaches s i c stage :=
  ⟨s, .refl, hc, hi, fun _ _ => rfl⟩

/-- A first turn and what follows it. -/
theorem Reaches.start {operation : Operation} (hi : s.stage i = .ready operation)
    (h : ∀ t : Shared Nat, t.connection = (s.connection.start operation).connection →
      t.stage i = (s.connection.start operation).progress.stage → Reaches t i c stage) :
    Reaches s i c stage := by
  obtain ⟨t, hrun, hc, hstage, hothers⟩ := h (s.take i _ _) rfl (stage_take_self ..)
  refine ⟨t, .head (.start hi) hrun, hc, hstage, fun j hj => ?_⟩
  rw [hothers j hj, stage_take_of_ne s hj]

/-- An answer, the turn it makes, and what follows it. -/
theorem Reaches.reply {p : Pending} (hi : s.stage i = .asking p) (reply : Reply p.request)
    (h : ∀ t : Shared Nat, t.connection = (s.connection.resume p reply).connection →
      t.stage i = (s.connection.resume p reply).progress.stage → Reaches t i c stage) :
    Reaches s i c stage := by
  obtain ⟨t, hrun, hc, hstage, hothers⟩ :=
    h ((s.hear i p reply).take i _ _) rfl (stage_take_self ..)
  refine ⟨t, .head (.answer hi reply) (.head (.resume (stage_hear_self ..)) hrun), hc, hstage,
    fun j hj => ?_⟩
  rw [hothers j hj, stage_take_of_ne _ hj, stage_hear_of_ne s hj]

end Reaches

namespace World

/-- A request does not change the connection. -/
theorem connection_hear (w : World) (r : Request) : (w.hear r).connection = w.connection := by
  unfold hear
  split <;> rfl

/-- The turn that a reply makes, and what follows it. -/
theorem reaches_reply {w : World} {p : Pending} {s : Shared Nat} {i : Nat} {c : Connection}
    {stage : Stage} (hc : s.connection = w.connection) (hi : s.stage i = .asking p)
    (h : ∀ t : Shared Nat, t.connection = (w.reply p).2.connection →
      t.stage i = (w.reply p).1.progress.stage → Reaches t i c stage) : Reaches s i c stage := by
  refine .reply hi (w.script.answer p.request).1 fun t ht hstage => h t ?_ ?_
  · rw [ht, hc]
    rfl
  · rw [hstage, hc]
    rfl

/-- A task that runs on goes through steps of its operation. -/
theorem reaches_advance (w : World) (progress : Progress) {s : Shared Nat} {i : Nat}
    (hc : s.connection = w.connection) (hi : s.stage i = progress.stage) :
    Reaches s i (w.advance progress).2.connection (w.advance progress).1.stage := by
  -- By induction on the turns that the task makes before it has to wait or has ended.
  fun_induction advance w progress generalizing s with
  | case1 => exact .refl hc hi
  | case2 w p => exact .refl (hc.trans (w.connection_hear p.request).symm) hi
  | case3 w p _ _ result =>
    rename_i hfinished
    refine reaches_reply (hc.trans (w.connection_hear p.request).symm) hi fun t ht hstage => ?_
    rw [hfinished] at hstage
    exact .refl ht hstage
  | case4 w p _ _ q hwaiting _ =>
    rename_i ih
    refine reaches_reply (hc.trans (w.connection_hear p.request).symm) hi fun t ht hstage => ?_
    rw [hwaiting] at hstage
    exact ih ht hstage

/-- A poll goes through steps of the operation. -/
theorem reaches_poll (w : World) (task : Task) {s : Shared Nat} {i : Nat}
    (hc : s.connection = w.connection) (hi : s.stage i = task.stage) :
    Reaches s i (task.poll w).2.connection (task.poll w).1.stage := by
  cases task with
  | ready operation =>
    refine .start hi fun t ht hstage => ?_
    rw [hc] at ht hstage
    exact reaches_advance _ _ ht hstage
  | suspended p => exact reaches_reply hc hi fun t ht hstage => reaches_advance _ _ ht hstage
  | finished result => exact .refl hc hi

/-- A state in which the operations from `k` on are where the tasks are. -/
structure Mirrors (s : Shared Nat) (k : Nat) (w : World) (tasks : List Task) : Prop where
  connection : s.connection = w.connection
  stage : ∀ j task, tasks[j]? = some task → s.stage (k + j) = task.stage

/-- A round is a run. Operations before the tasks stay where they are. -/
theorem exists_run_round (w : World) (tasks : List Task) {s : Shared Nat} {k : Nat}
    (h : Mirrors s k w tasks) :
    ∃ t, Run s t ∧ Mirrors t k (w.round tasks).2 (w.round tasks).1 ∧
      ∀ j, j < k → t.stage j = s.stage j := by
  induction tasks generalizing s k w with
  | nil => exact ⟨s, .refl, h, fun _ _ => rfl⟩
  | cons task tasks ih =>
    -- The first task makes its poll, and the others find it done; they do not touch it again.
    obtain ⟨u, hu, hc, hfirst, hothers⟩ := reaches_poll w task h.connection (h.stage 0 task rfl)
    have hrest : Mirrors u (k + 1) (task.poll w).2 tasks := by
      refine ⟨hc, fun j other hj => ?_⟩
      rw [hothers (k + 1 + j) (by omega)]
      have hstage := h.stage (j + 1) other hj
      rwa [Nat.add_comm j 1, ← Nat.add_assoc] at hstage
    obtain ⟨t, ht, hmirrors, hbefore⟩ := ih (task.poll w).2 hrest
    refine ⟨t, hu.trans ht, ⟨hmirrors.connection, fun j other hj => ?_⟩, fun j hj => ?_⟩
    · cases j with
      | zero =>
        have hpoll : (task.poll w).1 = other := Option.some.inj hj
        rw [← hpoll, hbefore (k + 0) (by omega)]
        exact hfirst
      | succ j =>
        have hstage := hmirrors.stage j other hj
        rwa [Nat.add_assoc, Nat.add_comm 1 j] at hstage
    · rw [hbefore j (by omega), hothers j (by omega)]

/-- Any number of rounds is a run. -/
theorem exists_run_rounds (w : World) (n : Nat) (tasks : List Task) {s : Shared Nat}
    (h : Mirrors s 0 w tasks) :
    ∃ t, Run s t ∧ Mirrors t 0 (w.rounds n tasks).2 (w.rounds n tasks).1 := by
  induction n generalizing s w tasks with
  | zero => exact ⟨s, .refl, h⟩
  | succ n ih =>
    obtain ⟨u, hu, hround, -⟩ := exists_run_round w tasks h
    obtain ⟨t, ht, hmirrors⟩ := ih (w.round tasks).2 (w.round tasks).1 hround
    exact ⟨t, hu.trans ht, hmirrors⟩

/-- **Running tasks is a run** of their operations: there is an interleaving that ends with the same
connection, and with every operation where its task is. -/
theorem exists_run_runTasks (w : World) (operations : List Operation) (others : Operation) :
    ∃ t, Run (initial w.connection fun i => operations.getD i others) t ∧
      t.connection = (w.runTasks operations).2.connection ∧
      ∀ i task, (w.runTasks operations).1[i]? = some task → t.stage i = task.stage := by
  have hstart : Mirrors (initial w.connection fun i => operations.getD i others) 0 w
      (operations.map .ready) := by
    refine ⟨rfl, fun i task hi => ?_⟩
    rw [List.getElem?_map] at hi
    cases hoperation : operations[i]? with
    | none =>
      rw [hoperation] at hi
      cases hi
    | some operation =>
      rw [hoperation] at hi
      obtain rfl := Option.some.inj hi
      change Stage.ready (operations.getD (0 + i) others) = _
      rw [Nat.zero_add, List.getD_eq_getElem?_getD, hoperation]
      rfl
  obtain ⟨t, ht, hmirrors⟩ := exists_run_rounds w Task.maxPolls (operations.map .ready) hstart
  refine ⟨t, ht, hmirrors.connection, fun i task hi => ?_⟩
  have hstage := hmirrors.stage i task hi
  rwa [Nat.zero_add] at hstage

end World

end SqlBuilder
