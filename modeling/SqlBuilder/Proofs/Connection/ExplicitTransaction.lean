import SqlBuilder.Proofs.Connection.History

/-!
# A transaction of one task beside other operations

A task begins a transaction by an explicit step, makes its statements and ends the transaction by
another step, while other operations run on the same connection, inserts among them that wrap
themselves. An explicit begin neither looks at the flag nor takes it before the database has
answered. So it may meet a transaction of an insert that is under way, and an insert may begin
while it waits (`not_forall_undisturbed`).

Main statement, at the end: if the flag is clear as long as the begin is under way, the transaction
belongs to the task. No other operation asks for a transaction before the task has ended its own,
and no transaction is ever begun while another one is open.

The proof uses the order of holds again, with the task as one more holder. While its begin is under
way the task holds a flag that is not set yet (`Shared.taken`), and the condition says that no
insert takes the real one in the meantime.
-/

namespace SqlBuilder

/-- The two explicit steps of a task, and the operations beside them: the other statements of the
task, and what other tasks do. -/
inductive Part (κ : Type) where
  | opening
  | closing
  | beside (i : κ)
  deriving DecidableEq

theorem Part.opening_ne_closing {κ : Type} : (opening : Part κ) ≠ closing :=
  nofun

theorem Part.opening_ne_beside {κ : Type} (i : κ) : opening ≠ beside i :=
  nofun

/-- What the parts do, if the task ends its transaction with `finish`. -/
def Part.operation {κ : Type} (finish : TransactionStep) (others : κ → Operation) :
    Part κ → Operation
  | .opening => .transaction .begin
  | .closing => .transaction finish
  | .beside i => others i

namespace Stage

/-- Whether the operation has made no turn. -/
def isReady : Stage → Bool
  | .ready _ => true
  | _ => false

/-- Whether the operation has ended. -/
def isEnded : Stage → Bool
  | .ended _ => true
  | _ => false

/-- Whether the operation has ended with success. -/
def succeeded : Stage → Bool
  | .ended (.ok _) => true
  | _ => false

/-- Where an explicit step can be. -/
inductive OfStep (step : TransactionStep) : Stage → Prop where
  | ready : OfStep step (.ready (.transaction step))
  | asking : OfStep step (.asking (.stepping step))
  | answered (reply : Reply (Pending.stepping step).request) :
    OfStep step (.answered (.stepping step) reply)
  | ended (result : Except Error Outcome) : OfStep step (.ended result)

/-- Success is one of the ways to end. -/
theorem isEnded_of_succeeded {stage : Stage} (h : stage.succeeded = true) :
    stage.isEnded = true := by
  cases stage with
  | ended => rfl
  | _ => exact Bool.noConfusion h

/-- The hold of a task whose transaction is open, by where its last step stands. -/
def closingHold : Stage → Hold
  | .answered (.stepping .commit) (.ok _) | .answered (.stepping .rollback) _ => .claimed
  | .ended (.ok _) => .free
  | .ended (.error _) => .failed
  | _ => .inside

/-- The hold of a task, by where its first step and its last one stand. -/
def taskHold : Stage → Stage → Hold
  | .asking _, _ | .answered (.stepping .begin) (.error _), _ => .claimed
  | .answered _ _, _ => .inside
  | .ended (.ok _), closing => closing.closingHold
  | _, _ => .free

end Stage

namespace Shared

variable {κ : Type}

/-- The task ends its transaction only when its begin has succeeded. -/
def Entered (s : Shared (Part κ)) : Prop :=
  (s.stage .closing).isReady = true ∨ (s.stage .opening).succeeded = true

/-- The flag is clear while the begin of the task is under way. -/
def Apart (s : Shared (Part κ)) : Prop :=
  (s.stage .opening).underway = true → s.connection.inTransaction = false

/-- What is asked of a run: the task keeps to its order, and its begin is apart from the
transactions of inserts. -/
structure Proper (s : Shared (Part κ)) : Prop where
  entered : s.Entered
  apart : s.Apart

instance : DecidablePred (Entered (κ := κ)) :=
  fun s => inferInstanceAs
    (Decidable ((s.stage .closing).isReady = true ∨ (s.stage .opening).succeeded = true))

instance : DecidablePred (Proper (κ := κ)) :=
  fun s => decidable_of_iff (s.Entered ∧ ((s.stage .opening).underway = true →
    s.connection.inTransaction = false)) ⟨fun h => ⟨h.1, h.2⟩, fun h => ⟨h.1, h.2⟩⟩

/-- Whether the flag is taken, counting the begin that is under way. -/
def taken (s : Shared (Part κ)) : Bool :=
  s.connection.inTransaction || (s.stage .opening).underway

/-- The holds of the task, by its first part, and of the operations beside. -/
def partHold (s : Shared (Part κ)) : Part κ → Hold
  | .opening => (s.stage .opening).taskHold (s.stage .closing)
  | .closing => .free
  | .beside i => (s.stage (.beside i)).hold

/-- Flag, open transaction and holds in order. -/
def InOrder [DecidableEq κ] (s : Shared (Part κ)) : Prop :=
  SqlBuilder.Orderly s.taken s.ledger.open? s.partHold

end Shared

/-! ### Where the parts stand -/

/-- Where a part can be. -/
def Part.At {κ : Type} (finish : TransactionStep) : Part κ → Stage → Prop
  | .opening, stage => stage.OfStep .begin
  | .closing, stage => stage.OfStep finish
  | .beside _, stage => stage.isStep = false

/-- An explicit step asks, and then it ends as it was answered. -/
theorem OperationTurn.of_step {c c' : Connection} {stage : Stage} {progress : Progress}
    {step : TransactionStep} (h : OperationTurn c stage c' progress) (hstage : stage.OfStep step) :
    stage = .ready (.transaction step) ∧ c' = c ∧ progress = .waiting (.stepping step) ∨
      ∃ reply, stage = .answered (.stepping step) reply ∧
        c' = { c with inTransaction := Request.openAfter c.inTransaction _ reply } ∧
          progress = .finished (reply.map fun _ => .done) := by
  -- By where the step stands. Only a first turn and the turn after the answer are turns of it.
  cases hstage with
  | ready =>
    cases h with
    | called => exact .inl ⟨rfl, rfl, rfl⟩
    | ended _ hstep | asked _ hstep => exact Bool.noConfusion hstep
    | ofInsert hturn => cases hturn
  | answered reply =>
    cases h with
    | stepped => exact .inr ⟨reply, rfl, rfl, rfl⟩
    | told _ hsingle => exact Bool.noConfusion hsingle
    | ofInsert hturn => cases hturn
  | asking | ended =>
    cases h with
    | ofInsert hturn => cases hturn

/-- An explicit step waits for its own request. -/
theorem Stage.OfStep.eq_stepping {step : TransactionStep} {p : Pending}
    (h : (Stage.asking p).OfStep step) : p = .stepping step := by
  cases h
  rfl

/-- After its turn an explicit step is still one. -/
theorem OperationTurn.ofStep {c c' : Connection} {stage : Stage} {progress : Progress}
    {step : TransactionStep} (h : OperationTurn c stage c' progress) (hstage : stage.OfStep step) :
    progress.stage.OfStep step := by
  rcases h.of_step hstage with ⟨-, -, rfl⟩ | ⟨reply, -, -, rfl⟩
  · exact .asking
  · exact .ended _

/-- An answer leaves every part with its own operation. -/
theorem Part.At.answered {κ : Type} {finish : TransactionStep} {i : Part κ} {p : Pending}
    (h : i.At finish (.asking p)) (reply : Reply p.request) :
    i.At finish (.answered p reply) := by
  cases i with
  | opening =>
    obtain rfl := Stage.OfStep.eq_stepping h
    exact Stage.OfStep.answered reply
  | closing =>
    obtain rfl := Stage.OfStep.eq_stepping h
    exact Stage.OfStep.answered reply
  | beside i => exact (Stage.isStep_answered p reply).trans h

/-- A turn leaves every part with its own operation. -/
theorem Part.At.turn {κ : Type} {finish : TransactionStep} {i : Part κ} {c c' : Connection}
    {stage : Stage} {progress : Progress} (h : i.At finish stage)
    (hturn : OperationTurn c stage c' progress) : i.At finish progress.stage := by
  cases i with
  | opening | closing => exact hturn.ofStep h
  | beside i => exact hturn.isStep_stage h

/-- While the begin of a task is under way, the task holds the flag. -/
theorem Stage.OfStep.holds_taskHold {opening : Stage} (h : opening.OfStep .begin)
    (hunderway : opening.underway = true) (closing : Stage) :
    (opening.taskHold closing).holds = true := by
  cases h with
  | asking => rfl
  | answered reply => cases reply <;> rfl
  | ready | ended => exact Bool.noConfusion hunderway

/-- One that held nothing, and finds the flag clear before and after, has not touched it. -/
theorem Shift.of_clear {ι : Type} {i : ι} {hold hold' : Hold} {open? open?' : Option ι}
    (h : Shift i hold false open? hold' false open?') (hhold : hold.holds = false) (flag : Bool) :
    Shift i hold flag open? hold' flag open?' := by
  cases h with
  | keep => exact .keep ..
  | fail => exact .fail ..
  | enter | leave | release | abandon => exact Bool.noConfusion hhold

/-- Who holds for a part: the first part of the task also for the last one. -/
def Part.holder {κ : Type} : Part κ → Part κ
  | .closing => .opening
  | part => part

namespace Shared

variable {κ : Type} [DecidableEq κ] {s t : Shared (Part κ)} {finish : TransactionStep}

/-- Every part is at a stage of its own operation. -/
def InPart (finish : TransactionStep) (s : Shared (Part κ)) : Prop :=
  ∀ i : Part κ, i.At finish (s.stage i)

/-- No step mixes the parts up. -/
theorem Step.inPart (h : Step s t) (hs : s.InPart finish) : t.InPart finish := by
  rcases h.turn_cases with ⟨i, p, reply, hi, rfl⟩ | ⟨i, c, progress, hturn, rfl⟩
  · exact forall_stage_hear (P := fun j stage => j.At finish stage)
      (Part.At.answered (hi ▸ hs i) reply) fun j _ => hs j
  · exact forall_stage_take (P := fun j stage => j.At finish stage)
      ((hs i).turn hturn) fun j _ => hs j

omit [DecidableEq κ] in
/-- A step of one part changes the hold of its holder only. -/
theorem partHold_eq_of_ne {i : Part κ} (h : ∀ j, j ≠ i → t.stage j = s.stage j) (j : Part κ)
    (hj : j ≠ i.holder) : t.partHold j = s.partHold j := by
  -- The first part holds for both steps of the task, so it changes with either of them.
  cases j with
  | opening =>
    cases i with
    | opening | closing => exact absurd rfl hj
    | beside i =>
      rw [partHold, partHold, h .opening nofun, h .closing nofun]
  | closing => rfl
  | beside j =>
    refine congrArg Stage.hold (h (.beside j) ?_)
    rintro rfl
    exact hj rfl

omit [DecidableEq κ] in
/-- A task that has asked to end its transaction has begun it. -/
theorem Entered.opening (h : s.Entered) (hclosing : (s.stage .closing).isReady = false) :
    ∃ outcome, s.stage .opening = .ended (.ok outcome) := by
  rcases h with hready | hsucceeded
  · exact Bool.noConfusion (hclosing.symm.trans hready)
  · generalize s.stage .opening = stage at hsucceeded ⊢
    cases stage with
    | ended result =>
      cases result with
      | ok outcome => exact ⟨outcome, rfl⟩
      | error e => exact Bool.noConfusion hsucceeded
    | _ => exact Bool.noConfusion hsucceeded

/-! ### Answers -/

/-- The database does not touch the flag. -/
theorem taken_hear {i : Part κ} {p : Pending} (hi : s.stage i = .asking p)
    (reply : Reply p.request) : (s.hear i p reply).taken = s.taken := by
  have hunderway : ((s.hear i p reply).stage .opening).underway = (s.stage .opening).underway := by
    by_cases hopening : .opening = i
    · subst hopening
      rw [stage_hear_self, hi]
      rfl
    · rw [stage_hear_of_ne s hopening]
  rw [taken, taken, hunderway]
  rfl

/-- An answer to any part shifts the hold of its holder. The last step of the task is answered only
when the task has begun. -/
theorem shift_hear (hs : s.InPart finish) (hproper : s.Proper) (hfinish : finish ≠ .begin)
    {i : Part κ} {p : Pending} (hi : s.stage i = .asking p) (reply : Reply p.request) :
    Shift i.holder (s.partHold i.holder) s.taken s.ledger.open?
      ((s.hear i p reply).partHold i.holder) (s.hear i p reply).taken
        (s.hear i p reply).ledger.open? := by
  have hat := hs i
  rw [hi] at hat
  rw [taken_hear hi, ledger_hear]
  cases i with
  | beside i =>
    change Shift _ (s.stage _).hold _ _ ((s.hear _ _ _).stage _).hold _ _
    rw [hi, stage_hear_self]
    exact p.shift_of_isStep hat reply _ _ s.ledger
  | opening =>
    obtain rfl := Stage.OfStep.eq_stepping hat
    change Shift _ ((s.stage .opening).taskHold _) _ _
      (((s.hear .opening _ _).stage .opening).taskHold _) _ _
    rw [hi, stage_hear_self]
    cases reply with
    | ok u => exact .enter ..
    | error e => exact .keep ..
  | closing =>
    obtain rfl := Stage.OfStep.eq_stepping hat
    -- The task ends its transaction, so it has begun it.
    obtain ⟨outcome, hopening⟩ := hproper.entered.opening (by rw [hi]; rfl)
    change Shift _ ((s.stage .opening).taskHold _) _ _
      (((s.hear .closing _ _).stage .opening).taskHold _) _ _
    rw [stage_hear_of_ne s Part.opening_ne_closing, hopening, hi, stage_hear_self]
    cases finish with
    | begin => exact absurd rfl hfinish
    | commit =>
      cases reply with
      | ok u => exact .leave ..
      | error e => exact .keep ..
    | rollback => exact .leave ..

/-! ### Turns -/

omit [DecidableEq κ] in
/-- Unless the begin of the task is under way, it is the flag that counts. -/
theorem taken_eq (hopening : (s.stage .opening).underway = false) :
    s.taken = s.connection.inTransaction := by
  rw [taken, hopening, Bool.or_false]

omit [DecidableEq κ] in
/-- A begin that is under way counts as the flag. -/
theorem taken_of_underway (hopening : (s.stage .opening).underway = true) : s.taken = true := by
  rw [taken, hopening, Bool.or_true]

/-- The begin takes what counts as the flag when it asks. When it goes on, it leaves that to the
real flag or gives it back. -/
theorem shift_take_opening (hs : s.InPart finish) (hproper : s.Proper) {c : Connection}
    {progress : Progress} (ht : (s.take .opening c progress).Proper)
    (hturn : OperationTurn s.connection (s.stage .opening) c progress) :
    Shift .opening (s.partHold .opening) s.taken s.ledger.open?
      ((s.take .opening c progress).partHold .opening) (s.take .opening c progress).taken
        (s.take .opening c progress).ledger.open? := by
  rw [ledger_take]
  change Shift _ ((s.stage .opening).taskHold (s.stage .closing)) _ _
    (((s.take .opening _ _).stage .opening).taskHold ((s.take .opening _ _).stage .closing)) _ _
  rw [stage_take_self, stage_take_of_ne s Part.opening_ne_closing.symm]
  rcases hturn.of_step (hs .opening) with ⟨hi, rfl, rfl⟩ | ⟨reply, hi, rfl, rfl⟩
  · -- The flag is clear when the task asks to begin, so the task is the only one to hold it.
    have hunderway : ((s.take .opening s.connection
        (.waiting (.stepping .begin))).stage .opening).underway = true := by
      rw [stage_take_self]
      rfl
    have hflag : s.connection.inTransaction = false := ht.apart hunderway
    rw [taken_of_underway hunderway, taken_eq (by rw [hi]; rfl), hflag, hi]
    exact .claim _
  · have hunderway : (s.stage .opening).underway = true := by rw [hi]; rfl
    -- The begin has not ended, so the task has not come to its last step.
    have hready : (s.stage .closing).isReady = true := by
      refine hproper.entered.resolve_right fun hsucceeded => ?_
      rw [hi] at hsucceeded
      exact Bool.noConfusion hsucceeded
    have hflag : s.connection.inTransaction = false := hproper.apart hunderway
    rw [taken_of_underway hunderway, taken_eq (by rw [stage_take_self]; rfl), hi]
    cases reply with
    | ok u =>
      generalize s.stage .closing = closing at hready
      cases closing with
      | ready => exact .keep ..
      | _ => exact Bool.noConfusion hready
    | error e =>
      change Shift _ _ _ _ _ s.connection.inTransaction _
      rw [hflag]
      exact .release _ rfl ..

/-- A turn of the last step gives the flag back when the transaction has ended. -/
theorem shift_take_closing (hs : s.InPart finish) (hfinish : finish ≠ .begin)
    {c : Connection} {progress : Progress} (ht : (s.take .closing c progress).Proper)
    (hturn : OperationTurn s.connection (s.stage .closing) c progress) :
    Shift .opening (s.partHold .opening) s.taken s.ledger.open?
      ((s.take .closing c progress).partHold .opening) (s.take .closing c progress).taken
        (s.take .closing c progress).ledger.open? := by
  have hsame : (s.take .closing c progress).stage .opening = s.stage .opening :=
    stage_take_of_ne s Part.opening_ne_closing c progress
  -- After its turn the part is not ready, so the task has begun.
  obtain ⟨outcome, hopening⟩ : ∃ outcome, s.stage .opening = .ended (.ok outcome) := by
    rw [← hsame]
    refine ht.entered.opening ?_
    rw [stage_take_self]
    cases progress <;> rfl
  rw [ledger_take]
  change Shift _ ((s.stage .opening).taskHold (s.stage .closing)) _ _
    (((s.take .closing _ _).stage .opening).taskHold ((s.take .closing _ _).stage .closing)) _ _
  rw [taken_eq (by rw [hopening]; rfl), taken_eq (by rw [hsame, hopening]; rfl), hsame, hopening,
    stage_take_self]
  change Shift _ _ _ _ _ c.inTransaction _
  -- The begin asks, or it goes on with the answer.
  rcases hturn.of_step (hs .closing) with ⟨hi, rfl, rfl⟩ | ⟨reply, hi, rfl, rfl⟩
  · rw [hi]
    exact .keep ..
  · rw [hi]
    cases finish with
    | begin => exact absurd rfl hfinish
    | commit =>
      cases reply with
      | ok u => exact .release _ rfl ..
      | error e => exact .abandon ..
    | rollback => cases reply <;> exact .release _ rfl ..

/-- One beside a task whose begin is under way holds nothing. -/
theorem InOrder.holds_beside (h : s.InOrder) (hs : s.InPart finish)
    (hunderway : (s.stage .opening).underway = true) (i : κ) :
    (s.stage (.beside i)).hold.holds = false := by
  have htask : (s.partHold .opening).holds = true :=
    Stage.OfStep.holds_taskHold (hs .opening) hunderway _
  exact Orderly.holds_eq_false h htask (Part.opening_ne_beside i).symm

/-- A turn of an operation beside shifts its own hold, whether or not the begin of the task is under
way. -/
theorem shift_take_beside (hs : s.InPart finish) (hproper : s.Proper) (horder : s.InOrder) {i : κ}
    {c : Connection} {progress : Progress} (ht : (s.take (.beside i) c progress).Proper)
    (hturn : OperationTurn s.connection (s.stage (.beside i)) c progress) :
    Shift (.beside i) (s.partHold (.beside i)) s.taken s.ledger.open?
      ((s.take (.beside i) c progress).partHold (.beside i)) (s.take (.beside i) c progress).taken
        (s.take (.beside i) c progress).ledger.open? := by
  have hsame : (s.take (.beside i) c progress).stage .opening = s.stage .opening :=
    stage_take_of_ne s (Part.opening_ne_beside i) c progress
  have hshift := hturn.shift (hs (.beside i)) (Part.beside i) s.ledger.open?
  rw [ledger_take]
  change Shift _ (s.stage _).hold _ _ ((s.take _ _ _).stage _).hold _ _
  rw [stage_take_self]
  cases hunderway : (s.stage .opening).underway with
  | false =>
    rw [taken_eq hunderway, taken_eq (by rw [hsame]; exact hunderway)]
    exact hshift
  | true =>
    -- The flag is clear before and after, and it is the task that holds it.
    have hbefore : s.connection.inTransaction = false := hproper.apart hunderway
    have hbehind : c.inTransaction = false := ht.apart (by rw [hsame]; exact hunderway)
    rw [taken_of_underway hunderway, taken_of_underway (by rw [hsame]; exact hunderway)]
    rw [hbefore, hbehind] at hshift
    exact hshift.of_clear (horder.holds_beside hs hunderway i) true

/-- A step between proper states keeps the order. Both have to be proper, because the begin may be
under way before the turn or after it. -/
theorem Step.inOrder (h : Step s t) (hs : s.InPart finish) (hfinish : finish ≠ .begin)
    (hproper : s.Proper) (ht : t.Proper) (horder : s.InOrder) : t.InOrder := by
  rcases h.turn_cases with ⟨i, p, reply, hi, rfl⟩ | ⟨i, c, progress, hturn, rfl⟩
  · exact Orderly.shift horder (shift_hear hs hproper hfinish hi reply)
      (partHold_eq_of_ne fun j hj => stage_hear_of_ne s hj p reply)
  · refine Orderly.shift horder (i := i.holder) ?_
      (partHold_eq_of_ne fun j hj => stage_take_of_ne s hj c progress)
    cases i with
    | opening => exact shift_take_opening hs hproper ht hturn
    | closing => exact shift_take_closing hs hfinish ht hturn
    | beside i => exact shift_take_beside hs hproper horder ht hturn

/-! ### What the order gives -/

/-- Whoever asks to begin a transaction finds none open. -/
def ClosedAtBegin {ι : Type} [DecidableEq ι] (before : List (Act ι)) (act : Act ι) : Prop :=
  ∀ i, act = .ask i .begin → (Ledger.ofHistory before).open? = none

/-- Whoever begins finds that the flag is not taken. -/
theorem taken_of_begin (hs : s.InPart finish) (hfinish : finish ≠ .begin) {i : Part κ}
    {c : Connection} {p : Pending} (ht : (s.take i c (.waiting p)).Proper)
    (hturn : OperationTurn s.connection (s.stage i) c (.waiting p)) (hp : p.request = .begin) :
    s.taken = false := by
  -- The last step of the task is no begin; the other two have their own reason.
  cases i with
  | opening =>
    rcases hturn.of_step (hs .opening) with ⟨hi, rfl, -⟩ | ⟨_, -, -, hfinished⟩
    · rw [taken_eq (by rw [hi]; rfl)]
      exact ht.apart (by rw [stage_take_self]; rfl)
    · cases hfinished
  | closing =>
    rcases hturn.of_step (hs .closing) with ⟨-, -, hprogress⟩ | ⟨_, -, -, hfinished⟩
    · rw [Progress.waiting.inj hprogress] at hp
      cases finish with
      | begin => exact absurd rfl hfinish
      | commit | rollback => cases hp
    · cases hfinished
  | beside i =>
    obtain ⟨hfree, hset, -⟩ := hturn.claims_of_begin (hs (.beside i)) hp
    -- It takes the flag, so the begin of the task is not under way.
    refine (taken_eq ?_).trans hfree
    rw [← Bool.not_eq_true]
    intro hunderway
    have hclear := ht.apart (by
      rw [stage_take_of_ne s (Part.opening_ne_beside i)]
      exact hunderway)
    exact Bool.noConfusion (hclear.symm.trans hset)

/-- A step that asks to begin finds no transaction open, because what counts as the flag is
clear. -/
theorem Step.closedAtBegin (h : Step s t) (hs : s.InPart finish) (hfinish : finish ≠ .begin)
    (ht : t.Proper) (horder : s.InOrder) (hbegin : AtEach ClosedAtBegin s.history) :
    AtEach ClosedAtBegin t.history := by
  rcases h.turn_cases with ⟨i, p, reply, -, rfl⟩ | ⟨i, c, progress, hturn, rfl⟩
  · exact atEach_concat.mpr ⟨hbegin, fun _ hact => nomatch hact⟩
  · refine atEach_take hbegin fun p hp j hask => ?_
    subst hp
    injection hask with hij hrequest
    have htaken := taken_of_begin hs hfinish ht hturn hrequest
    rw [Option.eq_none_iff_forall_ne_some]
    intro k hk
    exact Bool.noConfusion (htaken.symm.trans (Orderly.flagged_of_open horder k hk))

/-- One that has ended stays where it is. -/
theorem Step.stage_of_isEnded {ι : Type} [DecidableEq ι] {s t : Shared ι} (h : Step s t) {i : ι}
    (hi : (s.stage i).isEnded = true) : t.stage i = s.stage i := by
  rcases h.turn_cases with ⟨j, p, reply, hj, rfl⟩ | ⟨j, c, progress, hturn, rfl⟩
  · refine stage_hear_of_ne s ?_ p reply
    rintro rfl
    rw [hj] at hi
    exact Bool.noConfusion hi
  · refine stage_take_of_ne s ?_ c progress
    rintro rfl
    generalize s.stage i = stage at hi hturn
    cases stage with
    | ended result =>
      cases hturn with
      | ofInsert hturn => cases hturn
    | _ => exact Bool.noConfusion hi

/-- One that has ended stays where it is in every run. -/
theorem Run.stage_of_isEnded {ι : Type} [DecidableEq ι] {s t : Shared ι} (h : Run s t) {i : ι}
    (hi : (s.stage i).isEnded = true) : t.stage i = s.stage i := by
  induction h with
  | refl => rfl
  | tail _ hlast ih => exact (hlast.stage_of_isEnded (ih ▸ hi)).trans ih

omit [DecidableEq κ] in
/-- A task that has begun and not ended its transaction holds the flag. -/
theorem holds_of_succeeded (hs : s.InPart finish)
    (hopening : (s.stage .opening).succeeded = true)
    (hclosing : (s.stage .closing).isEnded = false) : (s.partHold .opening).holds = true := by
  have hat : (s.stage .closing).OfStep finish := hs .closing
  change ((s.stage .opening).taskHold (s.stage .closing)).holds = true
  -- The stages are all that counts: the begin has succeeded, and the last step is anywhere but at
  -- its end.
  generalize s.stage .opening = opening at hopening
  generalize s.stage .closing = closing at hat hclosing
  cases opening with
  | ended result =>
    cases result with
    | error e => exact Bool.noConfusion hopening
    | ok outcome =>
      cases hat with
      | ready | asking => rfl
      | answered reply => cases finish <;> cases reply <;> rfl
      | ended => exact Bool.noConfusion hclosing
  | _ => exact Bool.noConfusion hopening

/-- While the task is in its transaction, the others ask for none. -/
theorem Step.exists_new (h : Step s t) (hs : s.InPart finish) (horder : s.InOrder)
    (hopening : (s.stage .opening).succeeded = true)
    (hclosing : (s.stage .closing).isEnded = false) : ∃ new, t.history = s.history ++ new ∧
      ∀ i r, .ask (.beside i) r ∈ new → r.ofTransaction = false := by
  have htask := holds_of_succeeded hs hopening hclosing
  have hflag : s.connection.inTransaction = true := by
    rw [← taken_eq]
    · exact Orderly.flagged horder .opening htask
    · generalize s.stage .opening = opening at hopening
      cases opening with
      | ended => rfl
      | _ => exact Bool.noConfusion hopening
  -- An answer is no request. A turn of an operation beside takes no flag, because the flag is set.
  rcases h.turn_cases with ⟨j, p, reply, -, rfl⟩ | ⟨j, c, progress, hturn, rfl⟩
  · refine ⟨_, rfl, fun i r hmem => ?_⟩
    cases List.mem_singleton.mp hmem
  · refine ⟨_, rfl, fun i r hmem => ?_⟩
    cases progress with
    | finished result => exact absurd hmem List.not_mem_nil
    | waiting p =>
      cases List.mem_singleton.mp hmem
      have hhold : (s.stage (.beside i)).hold.holds = false :=
        Orderly.holds_eq_false horder htask (Part.opening_ne_beside i).symm
      rcases hturn.of_not_holds (hs (.beside i)) hhold with ⟨-, -, hasks⟩ | ⟨-, -, -, -, hfree, -⟩
      · exact hasks p rfl
      · exact Bool.noConfusion (hfree.symm.trans hflag)

omit [DecidableEq κ] in
/-- Every part begins with its own operation. -/
theorem inPart_initial (c : Connection) {others : κ → Operation}
    (hothers : ∀ i, (others i).isStep = false) :
    (initial c (Part.operation finish others)).InPart finish := by
  intro i
  cases i with
  | opening => exact Stage.OfStep.ready
  | closing => exact Stage.OfStep.ready
  | beside i => exact hothers i

omit [DecidableEq κ] in
/-- The task has asked for nothing in the beginning. -/
theorem proper_initial (c : Connection) (others : κ → Operation) :
    (initial c (Part.operation finish others)).Proper :=
  ⟨.inl rfl, fun h => Bool.noConfusion h⟩

/-- Nobody holds anything in the beginning. -/
theorem inOrder_initial (c : Connection) (others : κ → Operation) :
    (initial c (Part.operation finish others)).InOrder := by
  have hfree (i : Part κ) : (initial c (Part.operation finish others)).partHold i = .free := by
    cases i <;> rfl
  have hholds (i : Part κ) :
      ((initial c (Part.operation finish others)).partHold i).holds = false := by
    rw [hfree]
    rfl
  -- Each clause speaks of somebody who holds, or of a transaction that is open.
  exact {
    alone := fun i _ hi => Bool.noConfusion ((hholds i).symm.trans hi)
    flagged := fun i hi => Bool.noConfusion ((hholds i).symm.trans hi)
    open_of_inside := fun i hi => Hold.noConfusion ((hfree i).symm.trans hi)
    closed_of_claimed := fun i hi => Hold.noConfusion ((hfree i).symm.trans hi)
    flagged_of_open := fun k hk => absurd hk.symm (Option.some_ne_none k)
    hold_of_open := fun k hk => absurd hk.symm (Option.some_ne_none k) }

/-- The invariants of a task and the operations beside. -/
structure Ordered (finish : TransactionStep) (s : Shared (Part κ)) : Prop where
  inPart : s.InPart finish
  inOrder : s.InOrder
  closedAtBegin : AtEach ClosedAtBegin s.history

/-- The invariants are kept by a step between proper states. -/
theorem Step.ordered (h : Step s t) (hfinish : finish ≠ .begin) (hproper : s.Proper)
    (ht : t.Proper) (hs : s.Ordered finish) : t.Ordered finish where
  inPart := h.inPart hs.inPart
  inOrder := h.inOrder hs.inPart hfinish hproper ht hs.inOrder
  closedAtBegin := h.closedAtBegin hs.inPart hfinish ht hs.inOrder hs.closedAtBegin

/-- The invariants hold along every run through proper states. -/
theorem RunIn.ordered (h : RunIn Proper s t) (hfinish : finish ≠ .begin) (hproper : s.Proper)
    (hs : s.Ordered finish) : t.Proper ∧ t.Ordered finish :=
  h.induct hproper hs fun _ _ hstep _ hu hv hQ => hstep.ordered hfinish hu hv hQ

/-- From when its begin has succeeded to when its last step has ended, the others ask for no
transaction. -/
theorem RunIn.exists_new (h : RunIn Proper s t) (hfinish : finish ≠ .begin) (hproper : s.Proper)
    (hs : s.Ordered finish) (hopening : (s.stage .opening).succeeded = true)
    (hclosing : (t.stage .closing).isEnded = false) :
    ∃ new, t.history = s.history ++ new ∧
      ∀ i r, .ask (.beside i) r ∈ new → r.ofTransaction = false := by
  induction h with
  | refl => exact ⟨[], (List.append_nil _).symm, fun _ _ hmem => absurd hmem List.not_mem_nil⟩
  | @tail u v hrun hlast ih =>
    obtain ⟨-, hordered⟩ := RunIn.ordered hrun hfinish hproper hs
    -- What has ended stays so, so the task was in its transaction before the last step.
    have hbegun : (u.stage .opening).succeeded = true := by
      rw [Run.stage_of_isEnded (RunIn.run hrun) (Stage.isEnded_of_succeeded hopening)]
      exact hopening
    have hnotEnded : (u.stage .closing).isEnded = false := by
      rw [← Bool.not_eq_true]
      intro hended
      rw [hlast.1.stage_of_isEnded hended, hended] at hclosing
      exact Bool.noConfusion hclosing
    obtain ⟨before, hbefore, hquiet⟩ := ih hnotEnded
    obtain ⟨last, hhistory, hlastQuiet⟩ :=
      hlast.1.exists_new hordered.inPart hordered.inOrder hbegun hnotEnded
    refine ⟨before ++ last, ?_, fun i r hmem => ?_⟩
    · rw [hhistory, hbefore, List.append_assoc]
    · rcases List.mem_append.mp hmem with hfirst | hsecond
      · exact hquiet i r hfirst
      · exact hlastQuiet i r hsecond

/-- **A task has its transaction to itself.** In every run of a task and any operations beside that
are no explicit steps, on any connection, if the flag is clear while the begin of the task is under
way: whoever asks the database to begin a transaction finds none open; and once the begin of the
task has succeeded, no other operation asks for a transaction before the last step of the task has
ended. -/
theorem RunIn.undisturbed {c : Connection} {others : κ → Operation} (hfinish : finish ≠ .begin)
    (hothers : ∀ i, (others i).isStep = false)
    (h : RunIn Proper (initial c (Part.operation finish others)) s) :
    AtEach ClosedAtBegin s.history ∧
      ((s.stage .opening).succeeded = true → ∀ t, RunIn Proper s t →
        (t.stage .closing).isEnded = false → ∃ new, t.history = s.history ++ new ∧
          ∀ i r, .ask (.beside i) r ∈ new → r.ofTransaction = false) := by
  obtain ⟨hproper, hordered⟩ := h.ordered hfinish (proper_initial c others)
    ⟨inPart_initial c hothers, inOrder_initial c others, atEach_nil _⟩
  exact ⟨hordered.closedAtBegin, fun hopening t ht hclosing =>
    ht.exists_new hfinish hproper hordered hopening hclosing⟩

/-- A task and two inserts. The first insert has its own transaction before the task begins. -/
def settled : Shared (Part Bool) :=
  [.turn (.beside false), .answer (.beside false) (willing .null), .turn (.beside false),
    .answer (.beside false) (willing .null), .turn (.beside false),
    .answer (.beside false) (willing .null), .turn (.beside false),
    .answer (.beside false) (willing .null), .turn (.beside false),
    .turn .opening, .answer .opening (willing .null), .turn .opening].foldl choose
      (initial quiet (Part.operation .commit fun _ => .store oneRow))

/-- The second insert runs in the transaction of the task, which is about to be committed. -/
def hosted : Shared (Part Bool) :=
  [.turn (.beside true), .answer (.beside true) (willing .null), .turn (.beside true),
    .answer (.beside true) (willing .null), .turn (.beside true), .turn .closing].foldl choose
      settled

theorem runIn_settled :
    RunIn Proper (initial quiet (Part.operation .commit fun _ => .store oneRow)) settled :=
  Along.runIn (by decide +kernel)

theorem runIn_hosted : RunIn Proper settled hosted :=
  Along.runIn (by decide +kernel)

theorem RunIn.undisturbed_hosted :
    (∃ before after, settled.history = before ++ .ask .opening .begin :: after ∧
        .answer (.beside false) .begin (.ok ()) ∈ before ∧
        (Ledger.ofHistory before).open? = none) ∧
      (settled.stage .opening).succeeded = true ∧ (hosted.stage .closing).isEnded = false ∧
      .ask (.beside true) .lastId ∈ hosted.history ∧ .ask .closing .commit ∈ hosted.history ∧
      ∃ new, hosted.history = settled.history ++ new ∧
        ∀ i r, .ask (.beside i) r ∈ new → r.ofTransaction = false := by
  obtain ⟨hclosed, hquiet⟩ :=
    RunIn.undisturbed (by decide) (fun _ => rfl) runIn_settled
  have hcut : settled.history =
      settled.history.take 8 ++ .ask .opening .begin :: settled.history.drop 9 := rfl
  refine ⟨⟨_, _, hcut, List.mem_iff_getElem?.mpr ⟨1, rfl⟩, hclosed _ _ _ hcut _ rfl⟩, rfl, rfl,
    List.mem_iff_getElem?.mpr ⟨12, rfl⟩, List.mem_iff_getElem?.mpr ⟨14, rfl⟩, ?_⟩
  exact hquiet rfl hosted runIn_hosted rfl

/-- A task begins while an insert has its own transaction open. -/
def nested : Shared (Part Unit) :=
  [.turn (.beside ()), .answer (.beside ()) (willing .null), .turn .opening,
    .answer .opening (willing .null), .turn .opening].foldl choose
      (initial quiet (Part.operation .commit fun _ => .store oneRow))

/-- The insert goes on and commits. -/
def nestedCommit : Shared (Part Unit) :=
  [.turn (.beside ()), .answer (.beside ()) (willing .null), .turn (.beside ()),
    .answer (.beside ()) (willing .null), .turn (.beside ())].foldl choose nested

theorem runIn_nested :
    RunIn Entered (initial quiet (Part.operation .commit fun _ => .store oneRow)) nested :=
  Along.runIn (by decide +kernel)

theorem runIn_nestedCommit : RunIn Entered nested nestedCommit :=
  Along.runIn (by decide +kernel)

/-- A task that only keeps to its order may be disturbed: an insert asks to commit while the task is
in its transaction, and a transaction is begun while another one is open. -/
theorem not_forall_undisturbed :
    (¬∀ (c : Connection) (w : Write) (s t : Shared (Part Unit)), c.wrapInserts = true →
        c.inTransaction = false → w.isUpdate = false →
          RunIn Entered (initial c (Part.operation .commit fun _ => .store w)) s →
            (s.stage .opening).succeeded = true → RunIn Entered s t →
              (t.stage .closing).isReady = true → ∀ new, t.history = s.history ++ new →
                .ask (.beside ()) .commit ∉ new) ∧
      ¬∀ (c : Connection) (w : Write) (s : Shared (Part Unit)), c.wrapInserts = true →
        c.inTransaction = false → w.isUpdate = false →
          RunIn Entered (initial c (Part.operation .commit fun _ => .store w)) s →
            AtEach ClosedAtBegin s.history := by
  refine ⟨fun hall => ?_, fun hall => ?_⟩
  · exact hall quiet oneRow nested nestedCommit rfl rfl rfl runIn_nested rfl runIn_nestedCommit rfl
      (nestedCommit.history.drop 4) rfl (List.mem_iff_getElem?.mpr ⟨4, rfl⟩)
  · have hclosed := hall quiet oneRow nested rfl rfl rfl runIn_nested (nested.history.take 2) _
      (nested.history.drop 3) rfl .opening rfl
    exact absurd hclosed (Option.some_ne_none (Part.beside ()))

end Shared

end SqlBuilder
