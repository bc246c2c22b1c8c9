import SqlBuilder.Proofs.Connection.Ledger

/-!
# Turns of any operation

Inserts are not alone on a connection. Queries, updates and deletes make one request and end with
its reply, some operations end without a request, and explicit steps open and end transactions.
`OperationTurn` lists what a turn of any operation does, the inserts by their `InsertTurn`.

Main statements: every step is an answer or one of these turns (`Step.turn_cases`); a turn of an
operation that holds nothing leaves the connection alone and asks for no transaction, unless it
takes the flag (`OperationTurn.of_not_holds`); and operations that are not explicit steps keep the
order of holds (`Step.orderly_of_stepFree`), just as inserts do.
-/

namespace SqlBuilder

/-- Whether the request begins or ends a transaction. -/
def Request.ofTransaction : Request → Bool
  | .begin | .commit | .rollback => true
  | _ => false

/-- Whether a transaction is open after an answer, if `flag` says whether one was before it. A
rollback ends it even if the database says that it failed. -/
def Request.openAfter (flag : Bool) : (r : Request) → Reply r → Bool
  | .begin, .ok _ => true
  | .commit, .ok _ => false
  | .rollback, _ => false
  | _, _ => flag

/-- Whether the operation is an explicit step of a transaction. -/
def Operation.isStep : Operation → Bool
  | .transaction _ => true
  | _ => false

/-- Whether the request is the only one of its operation, which is no explicit step. -/
def Pending.single : Pending → Bool
  | .fetching _ _ | .running _ | .updating _ => true
  | _ => false

/-- Whether an explicit step is at the stage. -/
def Stage.isStep : Stage → Bool
  | .ready operation => operation.isStep
  | .asking (.stepping _) | .answered (.stepping _) _ => true
  | _ => false

/-- Whether the operation has made its first turn and not its last one. -/
def Stage.underway : Stage → Bool
  | .asking _ | .answered _ _ => true
  | _ => false

/-- An answer does not make an explicit step of an operation. -/
theorem Stage.isStep_answered (p : Pending) (reply : Reply p.request) :
    (Stage.answered p reply).isStep = (Stage.asking p).isStep := by
  cases p <;> rfl

/-- One that has ended holds nothing. -/
theorem Stage.holds_ended (result : Except Error Outcome) :
    (Stage.ended result).hold.holds = false := by
  cases result <;> rfl

namespace Pending

variable {p : Pending}

/-- One with a single request holds nothing while it waits. -/
theorem hold_of_single (h : p.single = true) : p.hold = .free := by
  cases p with
  | fetching | running | updating => rfl
  | _ => exact Bool.noConfusion h

/-- One with a single request holds nothing when it is answered. -/
theorem holdAnswered_of_single (h : p.single = true) (reply : Reply p.request) :
    p.holdAnswered reply = .free := by
  cases p with
  | fetching | running | updating => rfl
  | _ => exact Bool.noConfusion h

/-- An explicit step does not count as a single request. -/
theorem isStep_of_single (h : p.single = true) : (Stage.asking p).isStep = false := by
  cases p with
  | fetching | running | updating => rfl
  | _ => exact Bool.noConfusion h

/-- A single request neither begins nor ends a transaction. -/
theorem ofTransaction_of_single (h : p.single = true) : p.request.ofTransaction = false := by
  cases p with
  | fetching | running | updating => rfl
  | _ => exact Bool.noConfusion h

/-- What waits and is no explicit step is an insert or has a single request. -/
theorem ofInsert_or_single (h : (Stage.asking p).isStep = false) :
    p.ofInsert = true ∨ p.single = true := by
  cases p with
  | fetching | running | updating => exact .inr rfl
  | stepping => exact Bool.noConfusion h
  | _ => exact .inl rfl

/-- The answer to a single request opens and ends no transaction. -/
theorem open?_after_of_single {ι : Type} [DecidableEq ι] (h : p.single = true)
    (reply : Reply p.request) (i : ι) (l : Ledger ι) :
    (l.after (.answer i p.request reply)).open? = l.open? := by
  cases p with
  | fetching | running | updating => cases reply <;> rfl
  | _ => exact Bool.noConfusion h

/-- An answer to an operation that is no explicit step changes its hold and the transaction, but not
the flag. -/
theorem shift_of_isStep {ι : Type} [DecidableEq ι] (h : (Stage.asking p).isStep = false)
    (reply : Reply p.request) (i : ι) (flag : Bool) (l : Ledger ι) :
    Shift i p.hold flag l.open? (p.holdAnswered reply) flag
      (l.after (.answer i p.request reply)).open? := by
  rcases p.ofInsert_or_single h with hinsert | hsingle
  · exact p.shift hinsert reply i flag l
  · rw [hold_of_single hsingle, holdAnswered_of_single hsingle, open?_after_of_single hsingle]
    exact .keep ..

end Pending

/-- One that held nothing and ends. -/
theorem Shift.of_ended {ι : Type} (i : ι) (flag : Bool) (open? : Option ι)
    (result : Except Error Outcome) :
    Shift i .free flag open? (Stage.ended result).hold flag open? := by
  cases result with
  | ok outcome => exact .keep ..
  | error e => exact .fail ..

/-! ### Turns -/

/-- What the turns of an operation do: the connection and the stage before, the connection and the
progress after. -/
inductive OperationTurn (c : Connection) : Stage → Connection → Progress → Prop where
  | ofInsert {stage : Stage} {c' : Connection} {progress : Progress}
      (hturn : InsertTurn c stage c' progress) : OperationTurn c stage c' progress
  /-- The operation needs no database, or does not compile. -/
  | ended (operation : Operation) (hstep : operation.isStep = false)
      (result : Except Error Outcome) : OperationTurn c (.ready operation) c (.finished result)
  | asked (operation : Operation) (hstep : operation.isStep = false) (p : Pending)
      (hsingle : p.single = true) : OperationTurn c (.ready operation) c (.waiting p)
  | told (p : Pending) (hsingle : p.single = true) (reply : Reply p.request)
      (result : Except Error Outcome) : OperationTurn c (.answered p reply) c (.finished result)
  | called (step : TransactionStep) :
    OperationTurn c (.ready (.transaction step)) c (.waiting (.stepping step))
  /-- The flag follows what the database answered. -/
  | stepped (step : TransactionStep) (reply : Reply (Pending.stepping step).request) :
    OperationTurn c (.answered (.stepping step) reply)
      { c with inTransaction := Request.openAfter c.inTransaction _ reply }
      (.finished (reply.map fun _ => .done))

/-- A first turn that compiles a statement ends with the error or goes on with the SQL. -/
theorem OperationTurn.of_withSql (c : Connection) (operation : Operation)
    (hstep : operation.isStep = false) (s : Statement) {next : Sql → List Event → Turn}
    (hnext : ∀ sql events, OperationTurn c (.ready operation) (next sql events).connection
      (next sql events).progress) :
    OperationTurn c (.ready operation) (c.withSql s next).connection
      (c.withSql s next).progress := by
  unfold Connection.withSql
  cases c.compile s with
  | error e => exact .ended operation hstep (.error e)
  | ok compiled => exact hnext compiled.1 compiled.2

/-- The first turn of an operation. -/
theorem OperationTurn.of_start (c : Connection) (operation : Operation) :
    OperationTurn c (.ready operation) (c.start operation).connection
      (c.start operation).progress := by
  -- Four operations ask with the statement they compile, a store does so if it is an update, and
  -- the others ask for nothing or make an explicit step.
  cases operation with
  | fetchAll s | fetchOne s => exact .of_withSql c _ rfl _ fun sql events => .asked _ rfl _ rfl
  | remove r | execute s => exact .of_withSql c _ rfl _ fun sql events => .asked _ rfl _ rfl
  | store w =>
    cases hw : w.isUpdate with
    | false => exact .ofInsert (.of_start c hw)
    | true =>
      refine .of_withSql c _ rfl _ fun sql events => ?_
      rw [hw, if_pos rfl]
      exact .asked _ rfl _ rfl
  | compile s => exact .of_withSql c _ rfl _ fun sql events => .ended _ rfl _
  | newStatement name => exact .ended _ rfl _
  | transaction step => exact .called step
  | describe => exact .ended _ rfl _

/-- Every later turn of an operation. -/
theorem OperationTurn.of_resume (c : Connection) (p : Pending) (reply : Reply p.request) :
    OperationTurn c (.answered p reply) (c.resume p reply).connection
      (c.resume p reply).progress := by
  -- An insert has five requests, every other operation one.
  cases p with
  | fetching sql firstOnly =>
    cases reply with
    | error e => exact .told _ rfl _ _
    | ok rows => cases firstOnly <;> exact .told _ rfl _ _
  | running sql | updating sql => cases reply <;> exact .told _ rfl _ _
  | stepping step => cases step <;> cases reply <;> exact .stepped _ _
  | opening | inserting | readingId | closing | undoing => exact .ofInsert (.of_resume c rfl reply)

namespace OperationTurn

variable {c c' : Connection} {stage : Stage} {progress : Progress}

/-- A turn changes nothing of the connection but the flag. -/
theorem connection_eq (h : OperationTurn c stage c' progress) :
    c' = { c with inTransaction := c'.inTransaction } := by
  cases h with
  | ofInsert hturn => cases hturn <;> rfl
  | _ => rfl

/-- A first turn that ends the operation changes nothing. -/
theorem connection_of_ended {operation : Operation} {result : Except Error Outcome}
    (h : OperationTurn c (.ready operation) c' (.finished result)) : c' = c := by
  cases h with
  | ofInsert hturn =>
    cases hturn
    rfl
  | ended => rfl

/-- A turn of an operation that is no explicit step leaves it one. -/
theorem isStep_stage (h : OperationTurn c stage c' progress) (hstep : stage.isStep = false) :
    progress.stage.isStep = false := by
  cases h with
  | ofInsert hturn => cases hturn <;> rfl
  | asked _ _ p hsingle => exact Pending.isStep_of_single hsingle
  | called | stepped => exact Bool.noConfusion hstep
  | _ => rfl

/-- A turn of an operation that is no explicit step changes its hold and the flag, but no
transaction. -/
theorem shift (h : OperationTurn c stage c' progress) (hstep : stage.isStep = false) {ι : Type}
    (i : ι) (open? : Option ι) :
    Shift i stage.hold c.inTransaction open? progress.stage.hold c'.inTransaction open? := by
  cases h with
  | ofInsert hturn => exact hturn.shift i open?
  | ended operation _ result => exact .of_ended ..
  | asked operation _ p hsingle =>
    rw [Progress.stage, Stage.hold, Pending.hold_of_single hsingle]
    exact .keep ..
  | told p hsingle reply result =>
    rw [Stage.hold, Pending.holdAnswered_of_single hsingle]
    exact .of_ended ..
  | called | stepped => exact Bool.noConfusion hstep

/-- **A turn of one that holds nothing** leaves the connection alone and asks for no transaction,
unless it is a first turn that takes the flag. -/
theorem of_not_holds (h : OperationTurn c stage c' progress) (hstep : stage.isStep = false)
    (hhold : stage.hold.holds = false) :
    (c' = c ∧ progress.stage.hold.holds = false ∧
        ∀ p, progress = .waiting p → p.request.ofTransaction = false) ∨
      ∃ operation sql, stage = .ready operation ∧ c.wrapInserts = true ∧
        c.inTransaction = false ∧ c' = { c with inTransaction := true } ∧
          progress = .waiting (.opening sql) := by
  have hended (result : Except Error Outcome) : (Progress.finished result).stage.hold.holds = false
      ∧ ∀ p, Progress.finished result = .waiting p → p.request.ofTransaction = false :=
    ⟨Stage.holds_ended result, fun _ h => Progress.noConfusion h⟩
  -- Of the turns of an insert only the claim takes the flag. One that runs in another's transaction
  -- asks for none of its own.
  cases h with
  | ofInsert hturn =>
    cases hturn with
    | refused | uninserted | read | unread => exact .inl ⟨rfl, hended _⟩
    | claimed w sql hwrap hfree => exact .inr ⟨_, sql, rfl, hwrap, hfree, rfl, rfl⟩
    | joined w sql => exact .inl ⟨rfl, rfl, fun p hp => Progress.waiting.inj hp ▸ rfl⟩
    | inserted sql wrapped n =>
      cases wrapped with
      | false => exact .inl ⟨rfl, rfl, fun p hp => Progress.waiting.inj hp ▸ rfl⟩
      | true => exact Bool.noConfusion hhold
    | opened | unopened | uninsertedOwn | readOwn | unreadOwn | closed | unclosed | undone =>
      exact Bool.noConfusion hhold
  | ended | told => exact .inl ⟨rfl, hended _⟩
  | asked operation _ p hsingle =>
    refine .inl ⟨rfl, ?_, fun q hq => ?_⟩
    · rw [Progress.stage, Stage.hold, Pending.hold_of_single hsingle]
      rfl
    · rw [← Progress.waiting.inj hq]
      exact Pending.ofTransaction_of_single hsingle
  | called | stepped => exact Bool.noConfusion hstep

/-- Only a first turn asks to begin a transaction, of an explicit step or of an insert that takes
the flag. -/
theorem of_begin {p : Pending} (h : OperationTurn c stage c' (.waiting p))
    (hp : p.request = .begin) :
    ∃ operation, stage = .ready operation ∧
      (operation.isStep = true ∨
        c.wrapInserts = true ∧ c.inTransaction = false ∧ c'.inTransaction = true ∧
          ∃ sql, p = .opening sql) := by
  -- The turns that wait for something else than a begin are excluded by the request.
  cases h with
  | ofInsert hturn =>
    cases hturn with
    | claimed w sql hwrap hfree => exact ⟨_, rfl, .inr ⟨hwrap, hfree, rfl, sql, rfl⟩⟩
    | joined | opened | inserted | uninsertedOwn | readOwn | unreadOwn =>
      exact Request.noConfusion hp
  | asked operation _ p hsingle =>
    have hnot := Pending.ofTransaction_of_single hsingle
    rw [hp] at hnot
    exact Bool.noConfusion hnot
  | called step => exact ⟨_, rfl, .inl rfl⟩

/-- An operation that is no explicit step takes the flag when it asks to begin a transaction. -/
theorem claims_of_begin {p : Pending} (h : OperationTurn c stage c' (.waiting p))
    (hstep : stage.isStep = false) (hp : p.request = .begin) :
    c.inTransaction = false ∧ c'.inTransaction = true ∧ ∃ sql, p = .opening sql := by
  obtain ⟨operation, rfl, hisStep | ⟨-, hfree, hset, hopening⟩⟩ := h.of_begin hp
  · exact Bool.noConfusion (hstep.symm.trans hisStep)
  · exact ⟨hfree, hset, hopening⟩

end OperationTurn

namespace Shared

variable {ι : Type} [DecidableEq ι] {s t : Shared ι}

/-- **Steps of any operations**: the database answers one of them, or one of them makes a turn. -/
theorem Step.turn_cases (h : Step s t) :
    (∃ i p reply, s.stage i = .asking p ∧ t = s.hear i p reply) ∨
      ∃ i c progress, OperationTurn s.connection (s.stage i) c progress ∧
        t = s.take i c progress := by
  -- A first turn and a later one are told apart by the stage, which `OperationTurn` has.
  cases h with
  | @start i operation hi =>
    refine .inr ⟨i, _, _, ?_, rfl⟩
    rw [hi]
    exact .of_start _ operation
  | @answer i p hi reply => exact .inl ⟨i, p, reply, hi, rfl⟩
  | @resume i p reply hi =>
    refine .inr ⟨i, _, _, ?_, rfl⟩
    rw [hi]
    exact .of_resume _ p reply

/-- None of the operations is an explicit step of a transaction. -/
def StepFree {ι : Type} (s : Shared ι) : Prop :=
  ∀ i, (s.stage i).isStep = false

/-- Nothing becomes an explicit step. -/
theorem Step.stepFree (h : Step s t) (hs : s.StepFree) : t.StepFree := by
  rcases h.turn_cases with ⟨i, p, reply, hi, rfl⟩ | ⟨i, c, progress, hturn, rfl⟩
  · refine forall_stage_hear (P := fun _ stage => stage.isStep = false) ?_ fun j _ => hs j
    rw [Stage.isStep_answered, ← hi]
    exact hs i
  · exact forall_stage_take (P := fun _ stage => stage.isStep = false)
      (hturn.isStep_stage (hs i)) fun j _ => hs j

/-- What one step of operations that are no explicit steps preserves, a run of them preserves. -/
theorem Run.induct_stepFree {P : Shared ι → Prop} (h : Run s t) (hs : s.StepFree) (hP : P s)
    (hstep : ∀ u v, Step u v → u.StepFree → P u → P v) : t.StepFree ∧ P t := by
  induction h with
  | refl => exact ⟨hs, hP⟩
  | tail _ hlast ih => exact ⟨hlast.stepFree ih.1, hstep _ _ hlast ih.1 ih.2⟩

/-- A step of operations that are no explicit steps shifts one hold, so it keeps the order. -/
theorem Step.orderly_of_stepFree (h : Step s t) (hs : s.StepFree) (horderly : s.Orderly) :
    t.Orderly := by
  rcases h.turn_cases with ⟨i, p, reply, hi, rfl⟩ | ⟨i, c, progress, hturn, rfl⟩
  · refine SqlBuilder.Orderly.shift horderly (i := i) ?_ fun j hj => ?_
    · rw [hi, stage_hear_self, ledger_hear]
      exact p.shift_of_isStep (hi ▸ hs i) reply i _ s.ledger
    · rw [stage_hear_of_ne s hj]
  · refine SqlBuilder.Orderly.shift horderly (i := i) ?_ fun j hj => ?_
    · rw [stage_take_self, ledger_take]
      exact hturn.shift (hs i) i _
    · rw [stage_take_of_ne s hj]

end Shared

end SqlBuilder
