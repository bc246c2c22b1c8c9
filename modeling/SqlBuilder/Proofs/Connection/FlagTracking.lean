import Mathlib.Data.Fintype.Basic
import SqlBuilder.Proofs.Connection.History

/-!
# The flag follows the database

A connection does not ask the database whether a transaction is open. It keeps a flag, which an
insert sets before its begin is answered, and which every operation that ends a transaction is to
clear. When operations run one after the other, the flag is what the answers of the database add up
to (`openAfter`).

Main statement, at the end: whenever no operation is under way, the flag is the fold of the answers
so far, and an insert begins a transaction only when that fold is clear and the connection wraps its
inserts.

While an operation is under way the flag and the fold may differ, and where it stands says how
(`Stage.Agrees`): they differ as long as an insert holds the flag without a transaction, and when an
explicit step has been answered and has not gone on. Every answer and every turn keeps the two in
this relation (`Pending.agrees`, `OperationTurn.agrees`), also those by which an operation ends, and
then they are equal.
-/

namespace SqlBuilder

/-! ### What the answers add up to -/

section OpenAfter

variable {ι : Type}

/-- Whether a transaction is open after an act. -/
def Act.openAfter (opened : Bool) : Act ι → Bool
  | .ask _ _ => opened
  | .answer _ r reply => r.openAfter opened reply

/-- Whether a transaction is open after a history: a begin that succeeded opens it, a commit that
succeeded and any rollback end it. -/
def openAfter (opened : Bool) (history : List (Act ι)) : Bool :=
  history.foldl Act.openAfter opened

theorem openAfter_concat (opened : Bool) (history : List (Act ι)) (act : Act ι) :
    openAfter opened (history ++ [act]) = act.openAfter (openAfter opened history) :=
  List.foldl_append

/-- Asking opens nothing. -/
theorem openAfter_asks (opened : Bool) (history : List (Act ι)) (i : ι) (progress : Progress) :
    openAfter opened (history ++ progress.asks i) = openAfter opened history := by
  cases progress with
  | waiting p => exact openAfter_concat opened history _
  | finished result => exact congrArg (openAfter opened) (List.append_nil history)

end OpenAfter

/-! ### The flag of one operation -/

/-- How the flag and an open transaction go together, by the hold of the one that is under way. -/
def Hold.Agrees (flag opened : Bool) : Hold → Prop
  | .free | .failed => opened = flag
  | .claimed => flag = true ∧ opened = false
  | .inside => flag = true ∧ opened = true

/-- How the flag and an open transaction go together, by where the one stands that is under way. -/
def Stage.Agrees (flag opened : Bool) : Stage → Prop
  | .answered (.stepping _) reply => opened = Request.openAfter flag _ reply
  | stage => stage.hold.Agrees flag opened

section Agrees

variable {flag flag' opened : Bool}

/-- Every shift keeps the flag in relation with the transaction. Where a hold ends the two are
equal: clear after a release, and set after a commit that failed. -/
theorem Shift.agrees {ι : Type} {i : ι} {hold hold' : Hold} {open? open?' : Option ι}
    (h : Shift i hold flag open? hold' flag' open?') (hagrees : hold.Agrees flag open?.isSome) :
    hold'.Agrees flag' open?'.isSome := by
  cases h with
  | keep | fail => exact hagrees
  | claim => exact ⟨rfl, hagrees⟩
  | enter => exact ⟨hagrees.1, rfl⟩
  | leave => exact ⟨hagrees.1, rfl⟩
  | release hold' hfree =>
    cases hold' with
    | free | failed => exact hagrees.2
    | claimed | inside => exact Bool.noConfusion hfree
  | abandon => exact hagrees.2.trans hagrees.1.symm

/-- Only for explicit steps it matters that the flag is still to follow. -/
theorem Stage.agrees_eq {stage : Stage} (h : stage.isStep = false) :
    stage.Agrees flag opened = stage.hold.Agrees flag opened := by
  cases stage with
  | answered p reply =>
    cases p with
    | stepping => exact Bool.noConfusion h
    | _ => rfl
  | _ => rfl

/-- Where nothing is under way, the flag tells whether a transaction is open. -/
theorem Stage.agrees_iff {stage : Stage} (h : stage.underway = false) :
    stage.Agrees flag opened ↔ opened = flag := by
  cases stage with
  | ready operation => exact Iff.rfl
  | ended result => cases result <;> exact Iff.rfl
  | _ => exact Bool.noConfusion h

/-- An answer keeps the flag in relation with the transaction. -/
theorem Pending.agrees {p : Pending} (h : (Stage.asking p).Agrees flag opened)
    (reply : Reply p.request) :
    (Stage.answered p reply).Agrees flag (p.request.openAfter opened reply) := by
  -- The answers that open or end a transaction are those at which the relation changes.
  cases p with
  | opening sql =>
    cases reply with
    | ok u => exact ⟨h.1, rfl⟩
    | error e => exact h
  | closing n id =>
    cases reply with
    | ok u => exact ⟨h.1, rfl⟩
    | error e => exact h
  | undoing e => exact ⟨h.1, rfl⟩
  | stepping step =>
    have heq : opened = flag := h
    rw [heq]
    rfl
  | inserting sql wrapped => cases wrapped <;> cases reply <;> exact h
  | readingId wrapped n => cases wrapped <;> cases reply <;> exact h
  | fetching | running | updating => exact h

/-- A turn keeps the flag in relation with the transaction. -/
theorem OperationTurn.agrees {c c' : Connection} {stage : Stage} {progress : Progress}
    (h : OperationTurn c stage c' progress) (hagrees : stage.Agrees c.inTransaction opened) :
    progress.stage.Agrees c'.inTransaction opened := by
  -- What is no explicit step shifts a hold. The flag of an explicit step follows the answer with
  -- the turn.
  cases hstep : stage.isStep with
  | false =>
    rw [Stage.agrees_eq hstep] at hagrees
    rw [Stage.agrees_eq (h.isStep_stage hstep)]
    -- The order of holds knows who opened the transaction, but it does not matter here.
    obtain ⟨open?, rfl⟩ : ∃ open? : Option Unit, open?.isSome = opened := by
      cases opened with
      | false => exact ⟨none, rfl⟩
      | true => exact ⟨some (), rfl⟩
    exact (h.shift hstep () open?).agrees hagrees
  | true =>
    cases h with
    | ofInsert hturn => cases hturn <;> exact Bool.noConfusion hstep
    | called step => exact hagrees
    | stepped step reply => exact (Stage.agrees_iff rfl).mpr hagrees
    | ended _ hnot | asked _ hnot => exact Bool.noConfusion (hnot.symm.trans hstep)
    | told p hsingle reply =>
      rw [Stage.isStep_answered, Pending.isStep_of_single hsingle] at hstep
      exact Bool.noConfusion hstep

end Agrees

namespace Shared

/-- At most one operation is under way. -/
def OneByOne {ι : Type} (s : Shared ι) : Prop :=
  ∀ i j, (s.stage i).underway = true → (s.stage j).underway = true → i = j

instance {ι : Type} [Fintype ι] [DecidableEq ι] : DecidablePred (OneByOne (ι := ι)) :=
  fun s => inferInstanceAs
    (Decidable (∀ i j, (s.stage i).underway = true → (s.stage j).underway = true → i = j))

variable {ι : Type} [DecidableEq ι] {s t : Shared ι} {opened : Bool}

/-- The flag and the answers so far go together. -/
structure Tracked (opened : Bool) (s : Shared ι) : Prop where
  underway : ∀ i, (s.stage i).underway = true →
    (s.stage i).Agrees s.connection.inTransaction (openAfter opened s.history)
  idle : (∀ i, (s.stage i).underway = false) →
    openAfter opened s.history = s.connection.inTransaction

omit [DecidableEq ι] in
/-- Beside the one that is under way there is none. -/
theorem OneByOne.idle (h : s.OneByOne) {i j : ι} (hi : (s.stage i).underway = true) (hj : j ≠ i) :
    (s.stage j).underway = false := by
  rw [← Bool.not_eq_true]
  exact fun hunderway => hj (h j i hunderway hi)

/-- What is to be shown after a step of `i`, if nothing else is under way. -/
theorem tracked_of_agrees {i : ι} (hothers : ∀ j, j ≠ i → (s.stage j).underway = false)
    (hagrees : (s.stage i).Agrees s.connection.inTransaction (openAfter opened s.history)) :
    s.Tracked opened where
  underway j hj := by
    by_cases hji : j = i
    · rw [hji]
      exact hagrees
    · rw [hothers j hji] at hj
      exact Bool.noConfusion hj
  idle hidle := (Stage.agrees_iff (hidle i)).mp hagrees

/-- An answer to the one that is under way. -/
theorem Tracked.hear (h : s.Tracked opened) (hs : s.OneByOne) {i : ι} {p : Pending}
    (hi : s.stage i = .asking p) (reply : Reply p.request) : (s.hear i p reply).Tracked opened := by
  have hunderway : (s.stage i).underway = true := by rw [hi]; rfl
  refine tracked_of_agrees (i := i) (fun j hj => ?_) ?_
  · rw [stage_hear_of_ne s hj]
    exact hs.idle hunderway hj
  · have hagrees := h.underway i hunderway
    rw [hi] at hagrees
    rw [stage_hear_self]
    change Stage.Agrees _ (openAfter opened (s.history ++ [_])) _
    rw [openAfter_concat]
    exact p.agrees hagrees reply

/-- A turn of `i`, if nothing else is under way. -/
theorem Tracked.take (h : s.Tracked opened) {i : ι} {c : Connection} {progress : Progress}
    (hturn : OperationTurn s.connection (s.stage i) c progress)
    (hothers : ∀ j, j ≠ i → (s.stage j).underway = false) :
    (s.take i c progress).Tracked opened := by
  have hagrees : (s.stage i).Agrees s.connection.inTransaction (openAfter opened s.history) := by
    -- It was under way, or this is its first turn and nothing was.
    cases hi : (s.stage i).underway with
    | true => exact h.underway i hi
    | false =>
      refine (Stage.agrees_iff hi).mpr (h.idle fun j => ?_)
      by_cases hji : j = i
      · rw [hji, hi]
      · exact hothers j hji
  refine tracked_of_agrees (i := i) (fun j hj => ?_) ?_
  · rw [stage_take_of_ne s hj]
    exact hothers j hj
  · rw [stage_take_self]
    change Stage.Agrees _ (openAfter opened (s.history ++ _)) _
    rw [openAfter_asks]
    exact hturn.agrees hagrees

/-- A first turn that ends the operation leaves everything as it is, whoever is under way. -/
theorem Tracked.take_ended (h : s.Tracked opened) {i : ι} {operation : Operation}
    (hi : s.stage i = .ready operation) (result : Except Error Outcome) :
    (s.take i s.connection (.finished result)).Tracked opened := by
  have hunderway (j : ι) : ((s.take i s.connection (.finished result)).stage j).underway =
      (s.stage j).underway := by
    by_cases hji : j = i
    · rw [hji, stage_take_self, hi]
      rfl
    · rw [stage_take_of_ne s hji]
  have hhistory : (s.take i s.connection (.finished result)).history = s.history :=
    List.append_nil s.history
  refine ⟨fun j hj => ?_, fun hidle => ?_⟩
  · rw [hunderway] at hj
    have hji : j ≠ i := by
      rintro rfl
      rw [hi] at hj
      exact Bool.noConfusion hj
    rw [stage_take_of_ne s hji, hhistory]
    exact h.underway j hj
  · rw [hhistory]
    exact h.idle fun j => (hunderway j).symm.trans (hidle j)

/-- A step between states in which at most one operation is under way keeps the flag tracked. -/
theorem Step.tracked (h : Step s t) (hs : s.OneByOne) (ht : t.OneByOne)
    (htracked : s.Tracked opened) : t.Tracked opened := by
  rcases h.turn_cases with ⟨i, p, reply, hi, rfl⟩ | ⟨i, c, progress, hturn, rfl⟩
  · exact htracked.hear hs hi reply
  · by_cases hothers : ∀ j, j ≠ i → (s.stage j).underway = false
    · exact htracked.take hturn hothers
    · -- Beside one that is under way an operation can only begin and end at once.
      obtain ⟨j, hji, hj⟩ : ∃ j, j ≠ i ∧ (s.stage j).underway = true := by
        simpa only [not_forall, Bool.not_eq_false, exists_prop] using hothers
      have hbefore := hs.idle hj hji.symm
      have hbehind : ((s.take i c progress).stage i).underway = false := by
        refine ht.idle (i := j) ?_ hji.symm
        rw [stage_take_of_ne s hji]
        exact hj
      rw [stage_take_self] at hbehind
      cases progress with
      | waiting p => exact Bool.noConfusion hbehind
      | finished result =>
        cases hi : s.stage i with
        | ready operation =>
          rw [hi] at hturn
          obtain rfl := hturn.connection_of_ended
          exact htracked.take_ended hi result
        | asking | answered =>
          rw [hi] at hbefore
          exact Bool.noConfusion hbefore
        | ended =>
          rw [hi] at hturn
          cases hturn with
          | ofInsert hturn => cases hturn

/-- An insert asks to begin a transaction only when the answers before add up to no open one, and
only if the connection wraps its inserts. -/
def ClearAtBegin {ι : Type} (c : Connection) (operations : ι → Operation)
    (before : List (Act ι)) (act : Act ι) : Prop :=
  ∀ i w, act = .ask i .begin → operations i = .store w →
    openAfter c.inTransaction before = false ∧ c.wrapInserts = true

/-- A step that asks to begin for an insert finds the answers adding up to no transaction. -/
theorem Step.clearAtBegin {c : Connection} {operations : ι → Operation} (h : Step s t)
    (hrun : Run (initial c operations) s) (ht : t.OneByOne) (htracked : s.Tracked c.inTransaction)
    (hs : AtEach (ClearAtBegin c operations) s.history) :
    AtEach (ClearAtBegin c operations) t.history := by
  rcases h.turn_cases with ⟨i, p, reply, -, rfl⟩ | ⟨i, d, progress, hturn, rfl⟩
  · exact atEach_concat.mpr ⟨hs, fun _ _ hact => nomatch hact⟩
  · refine atEach_take hs fun p hp j w hask hstore => ?_
    subst hp
    injection hask with hij hrequest
    subst hij
    obtain ⟨operation, hready, hown⟩ := hturn.of_begin hrequest
    rw [hrun.ready_eq hready, hstore] at hown
    rcases hown with hisStep | ⟨hwrap, hfree, -⟩
    · exact Bool.noConfusion hisStep
    · refine ⟨?_, hrun.wrapInserts_eq.symm.trans hwrap⟩
      -- It is under way after the turn, so nobody was before, and it found the flag free.
      rw [← hfree]
      refine htracked.idle fun j => ?_
      by_cases hji : j = i
      · rw [hji, hready]
        rfl
      · rw [← stage_take_of_ne s hji d (.waiting p)]
        refine ht.idle (i := i) ?_ hji
        rw [stage_take_self]
        rfl

omit [DecidableEq ι] in
/-- Without answers the fold is the flag it starts from. -/
theorem tracked_initial (c : Connection) (operations : ι → Operation) :
    (initial c operations).Tracked c.inTransaction :=
  ⟨fun _ h => Bool.noConfusion h, fun _ => rfl⟩

omit [DecidableEq ι] in
/-- Nothing is under way in the beginning. -/
theorem oneByOne_initial (c : Connection) (operations : ι → Operation) :
    (initial c operations).OneByOne :=
  fun _ _ h => Bool.noConfusion h

/-- **The flag tracks the database.** In every run of operations of any kind one after the other, on
any connection: whenever none is under way, the flag is what the answers so far add up to; and
whenever an insert asks to begin a transaction, they add up to no open transaction, and the
connection wraps its inserts. -/
theorem RunIn.flag_eq_openAfter {c : Connection} {operations : ι → Operation}
    (h : RunIn OneByOne (initial c operations) s) :
    ((∀ i, (s.stage i).underway = false) →
        s.connection.inTransaction = openAfter c.inTransaction s.history) ∧
      AtEach (ClearAtBegin c operations) s.history := by
  obtain ⟨-, htracked, hbegin⟩ := h.induct (oneByOne_initial c operations)
    (Q := fun u => u.Tracked c.inTransaction ∧ AtEach (ClearAtBegin c operations) u.history)
    ⟨tracked_initial c operations, atEach_nil _⟩ fun _ _ hstep hrun hu hv hQ =>
      ⟨hstep.tracked hu hv hQ.1, hstep.clearAtBegin hrun hv hQ.1 hQ.2⟩
  exact ⟨fun hidle => (htracked.idle hidle).symm, hbegin⟩

/-- Four operations one after the other: a transaction is begun, an insert runs in it, it is rolled
back, and an insert is to have its own. -/
def session : Fin 4 → Operation
  | 0 => .transaction .begin
  | 1 | 3 => .store oneRow
  | 2 => .transaction .rollback

/-- The database fails to roll back the first transaction, and to commit the second one. -/
def sessionChoices : List (Choice (Fin 4)) :=
  [.turn 0, .answer 0 (willing .null), .turn 0,
    .turn 1, .answer 1 (willing .null), .turn 1, .answer 1 (willing .null), .turn 1,
    .turn 2, .answer 2 broken, .turn 2,
    .turn 3, .answer 3 (willing .null), .turn 3, .answer 3 (willing .null), .turn 3,
    .answer 3 (willing .null), .turn 3, .answer 3 broken, .turn 3]

theorem along_session : Along OneByOne (initial quiet session) sessionChoices := by
  decide +kernel

/-- The end of the four operations. -/
def sessionEnd : Shared (Fin 4) :=
  sessionChoices.foldl choose (initial quiet session)

theorem RunIn.flag_eq_openAfter_session :
    RunIn OneByOne (initial quiet session) sessionEnd ∧
      sessionEnd.connection.inTransaction = openAfter false sessionEnd.history ∧
      sessionEnd.connection.inTransaction = true ∧
      ∃ before after, sessionEnd.history = before ++ .ask 3 .begin :: after ∧
        .answer 0 .begin (.ok ()) ∈ before ∧ openAfter false before = false := by
  have hrun : RunIn OneByOne (initial quiet session) sessionEnd := along_session.runIn
  obtain ⟨hflag, hclear⟩ := RunIn.flag_eq_openAfter hrun
  have hidle : ∀ i, (sessionEnd.stage i).underway = false := by decide +kernel
  have hcut : sessionEnd.history =
      sessionEnd.history.take 8 ++ .ask 3 .begin :: sessionEnd.history.drop 9 := rfl
  exact ⟨hrun, hflag hidle, rfl, _, _, hcut, List.mem_iff_getElem?.mpr ⟨1, rfl⟩,
    (hclear _ _ _ hcut 3 oneRow rfl rfl).1⟩

end Shared

end SqlBuilder
