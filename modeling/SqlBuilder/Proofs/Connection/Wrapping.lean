import SqlBuilder.Proofs.Connection.History

/-!
# One wrapping transaction at a time

An insert outside of a transaction wraps itself in one: it takes the flag, asks the database to
begin, and gives the flag back when its begin has failed, its commit has succeeded or its rollback
is done. It may fail to commit, and then it gives the flag back never.

Main statement, at the end: as long as nobody makes explicit steps, whoever asks the database to
begin finds that all transactions begun before have ended, the flag is set from the request to
begin until the transaction ends, and one that did not take the flag at its first turn never asks
for a transaction.

That the flag is set is read off the order of holds. The link between the history and that order is
`Shared.Begun`: a transaction that was asked for and has not ended is the one that is open at the
database, or the database has not answered the request. Then the flag is set, so an insert that
finds it free knows that no transaction lasts.
-/

namespace SqlBuilder

/-! ### How long a transaction lasts -/

section Lasts

variable {ι : Type}

/-- The act ends a transaction of `i`: its begin failed, its commit succeeded, or its rollback is
done, however it went. -/
def Act.Ends (i : ι) : Act ι → Prop
  | .answer j .begin (.error _) => j = i
  | .answer j .commit (.ok _) => j = i
  | .answer j .rollback _ => j = i
  | _ => False

/-- A transaction that `i` asked to begin has not ended. -/
def Lasts (i : ι) (history : List (Act ι)) : Prop :=
  ∃ before after, history = before ++ .ask i .begin :: after ∧ ∀ act ∈ after, ¬act.Ends i

theorem not_lasts_nil (i : ι) : ¬Lasts i [] := by
  rintro ⟨before, after, hcut, -⟩
  exact List.append_ne_nil_of_right_ne_nil before (List.cons_ne_nil _ after) hcut.symm

/-- What lasts after one more act: a transaction that is being asked for, or one that lasted and is
not ended by the act. -/
theorem lasts_concat {i : ι} {history : List (Act ι)} {act : Act ι} :
    Lasts i (history ++ [act]) ↔ act = .ask i .begin ∨ Lasts i history ∧ ¬act.Ends i := by
  constructor
  · rintro ⟨before, after, hcut, hends⟩
    -- The request is the last act, or it stands before it and the cut ends with it.
    rcases concat_eq_append_cons.mp hcut with ⟨-, hact, -⟩ | ⟨rest, hrest, rfl⟩
    · exact .inl hact
    · refine .inr ⟨⟨before, rest, hrest, fun a ha => ?_⟩, ?_⟩
      · exact hends a (List.mem_append_left _ ha)
      · exact hends act (List.mem_append_right _ (List.mem_singleton_self act))
  · rintro (rfl | ⟨⟨before, after, rfl, hends⟩, hact⟩)
    · exact ⟨history, [], rfl, fun a ha => absurd ha List.not_mem_nil⟩
    · refine ⟨before, after ++ [act], List.append_assoc .., fun a ha => ?_⟩
      rcases List.mem_append.mp ha with hbefore | hlast
      · exact hends a hbefore
      · rw [List.mem_singleton.mp hlast]
        exact hact

end Lasts

/-! ### Bystanders -/

/-- Whether the first turn of an operation takes the flag: it was free and is not any more. -/
def Connection.claims (c : Connection) (operation : Operation) : Bool :=
  !c.inTransaction && (c.start operation).connection.inTransaction

/-- A step that leaves the flag as it is gives the flag to nobody who did not hold it. -/
theorem Shift.not_holds {ι : Type} {i : ι} {hold hold' : Hold} {flag : Bool}
    {open? open?' : Option ι} (h : Shift i hold flag open? hold' flag open?')
    (hhold : hold.holds = false) : hold'.holds = false := by
  cases h with
  | keep => exact hhold
  | fail => rfl
  | release _ hfree => exact hfree
  | enter | leave | abandon => exact Bool.noConfusion hhold

namespace Shared

variable {ι : Type} [DecidableEq ι] {s t : Shared ι}

/-- Operation `i` has made its first turn, holds nothing and has asked for no transaction. -/
structure Bystander (s : Shared ι) (i : ι) : Prop where
  started : ∀ operation, s.stage i ≠ .ready operation
  free : (s.stage i).hold.holds = false
  silent : ∀ r, .ask i r ∈ s.history → r.ofTransaction = false

/-- One that does not take the flag at its first turn is a bystander. -/
theorem bystander_take {i : ι} {operation : Operation} (hstep : operation.isStep = false)
    (hclaims : s.connection.claims operation = false) (hsilent : ∀ r, .ask i r ∉ s.history) :
    (s.take i (s.connection.start operation).connection
      (s.connection.start operation).progress).Bystander i := by
  rcases (OperationTurn.of_start s.connection operation).of_not_holds hstep rfl with
    ⟨-, hhold, hasks⟩ | ⟨-, -, -, -, hfree, hconnection, -⟩
  · refine ⟨fun other hready => ?_, ?_, fun r hr => ?_⟩
    · rw [stage_take_self] at hready
      generalize (s.connection.start operation).progress = progress at hready
      cases progress <;> cases hready
    · rw [stage_take_self]
      exact hhold
    · rcases mem_history_take hr with hbefore | ⟨-, p, hp, rfl⟩
      · exact absurd hbefore (hsilent r)
      · exact hasks p hp
  · rw [Connection.claims, hfree, hconnection] at hclaims
    exact Bool.noConfusion hclaims

/-- A bystander remains one, whoever makes the step. -/
theorem Step.bystander (h : Step s t) (hs : s.StepFree) {i : ι} (hi : s.Bystander i) :
    t.Bystander i := by
  have hstarted : ∀ operation, t.stage i ≠ .ready operation :=
    fun operation hready => hi.started operation (h.ready hready)
  rcases h.turn_cases with ⟨j, p, reply, hj, rfl⟩ | ⟨j, c, progress, hturn, rfl⟩
  · refine ⟨hstarted, ?_, fun r hr => hi.silent r (mem_history_hear hr)⟩
    -- An answer leaves the flag alone, so it gives the flag to nobody.
    refine forall_stage_hear (P := fun k stage => (s.stage k).hold.holds = false →
      stage.hold.holds = false) (fun hhold => ?_) (fun _ _ => id) i hi.free
    rw [hj] at hhold
    exact (p.shift_of_isStep (hj ▸ hs j) reply j false s.ledger).not_holds hhold
  -- Its own turn is one of somebody who holds nothing and is not the first one; a turn of another
  -- leaves its stage and its requests as they are.
  · by_cases hji : i = j
    · subst hji
      rcases hturn.of_not_holds (hs i) hi.free with
        ⟨-, hhold, hasks⟩ | ⟨operation, -, hready, -⟩
      · refine ⟨hstarted, ?_, fun r hr => ?_⟩
        · rw [stage_take_self]
          exact hhold
        · rcases mem_history_take hr with hbefore | ⟨-, p, hp, rfl⟩
          · exact hi.silent r hbefore
          · exact hasks p hp
      · exact absurd hready (hi.started operation)
    · refine ⟨hstarted, ?_, fun r hr => ?_⟩
      · rw [stage_take_of_ne s hji]
        exact hi.free
      · rcases mem_history_take hr with hbefore | ⟨heq, -⟩
        · exact hi.silent r hbefore
        · exact absurd heq hji

/-! ### Transactions that last -/

/-- A transaction that lasts is open at the database, or its begin is not answered. -/
def Begun (s : Shared ι) : Prop :=
  ∀ i, Lasts i s.history →
    s.ledger.open? = some i ∨ ∃ sql, s.stage i = .asking (.opening sql)

/-- While a transaction lasts the flag is set. -/
theorem Begun.flagged (h : s.Begun) (horderly : s.Orderly) {i : ι} (hi : Lasts i s.history) :
    s.connection.inTransaction = true := by
  rcases h i hi with hopen | ⟨sql, hasking⟩
  · exact horderly.flagged_of_open i hopen
  · refine horderly.flagged i ?_
    rw [hasking]
    rfl

/-- The open transaction stays open until it is ended by the one who began it. -/
theorem Orderly.open?_after {s : Shared ι} (horderly : s.Orderly) {i j : ι} {p : Pending}
    (hi : s.stage i = .asking p) (hstep : (Stage.asking p).isStep = false)
    (reply : Reply p.request) (hopen : s.ledger.open? = some j)
    (hends : ¬(Act.answer i p.request reply).Ends j) :
    (s.ledger.after (.answer i p.request reply)).open? = some j := by
  have hinside (hhold : p.hold = .inside) : i = j := by
    have hown : s.ledger.open? = some i := horderly.open_of_inside i (by rw [hi]; exact hhold)
    exact Option.some.inj (hown.symm.trans hopen)
  cases p with
  | opening sql =>
    cases reply with
    | error e => exact hopen
    | ok u =>
      -- One that begins has taken the flag, and then no transaction is open.
      have hclosed : s.ledger.open? = none := horderly.closed_of_claimed i (by rw [hi]; rfl)
      exact absurd (hclosed.symm.trans hopen) (Option.some_ne_none j).symm
  | inserting sql wrapped => cases reply <;> exact hopen
  | readingId wrapped n => exact hopen
  | closing n id =>
    cases reply with
    | error e => exact hopen
    | ok u => exact absurd (hinside rfl) hends
  | undoing e => exact absurd (hinside rfl) hends
  | fetching | running | updating => exact (Pending.open?_after_of_single rfl reply i _).trans hopen
  | stepping => exact Bool.noConfusion hstep

/-- An answer keeps what lasts open, or opens it. -/
theorem Begun.hear (h : s.Begun) (horderly : s.Orderly) {i : ι} {p : Pending}
    (hi : s.stage i = .asking p) (hstep : (Stage.asking p).isStep = false)
    (reply : Reply p.request) : (s.hear i p reply).Begun := by
  intro j hj
  rcases lasts_concat.mp hj with hask | ⟨hlasts, hends⟩
  · cases hask
  · rw [ledger_hear]
    rcases h j hlasts with hopen | ⟨sql, hasking⟩
    · exact .inl (horderly.open?_after hi hstep reply hopen hends)
    · by_cases hji : j = i
      · -- Its own begin is answered: it has failed, or the transaction is open now.
        subst hji
        cases Stage.asking.inj (hi.symm.trans hasking)
        cases reply with
        | ok u => exact .inl rfl
        | error e => exact absurd rfl hends
      · exact .inr ⟨sql, (stage_hear_of_ne s hji p reply).trans hasking⟩

/-- A turn keeps what lasts open. If it asks to begin, its own transaction lasts from now on. -/
theorem Begun.take (h : s.Begun) {i : ι} {c : Connection} {progress : Progress}
    (hstep : (s.stage i).isStep = false)
    (hturn : OperationTurn s.connection (s.stage i) c progress) :
    (s.take i c progress).Begun := by
  intro j hj
  rw [ledger_take]
  -- Whoever makes a turn was not waiting for an answer.
  have hbefore (hlasts : Lasts j s.history) :
      s.ledger.open? = some j ∨ ∃ sql, (s.take i c progress).stage j = .asking (.opening sql) := by
    rcases h j hlasts with hopen | ⟨sql, hasking⟩
    · exact .inl hopen
    · refine .inr ⟨sql, ?_⟩
      rw [stage_take_of_ne s ?_, hasking]
      rintro rfl
      rw [hasking] at hturn
      cases hturn with
      | ofInsert hturn => cases hturn
  cases progress with
  | finished result =>
    change Lasts j (s.history ++ []) at hj
    rw [List.append_nil] at hj
    exact hbefore hj
  | waiting p =>
    rcases lasts_concat.mp hj with hask | ⟨hlasts, -⟩
    · injection hask with hij hrequest
      subst hij
      obtain ⟨-, -, sql, rfl⟩ := hturn.claims_of_begin hstep hrequest
      refine .inr ⟨sql, ?_⟩
      rw [stage_take_self]
      rfl
    · exact hbefore hlasts

/-- What the invariants say together: holds in order, what lasts is open or being begun, and who
asked to begin found that nothing lasts. -/
structure Wrapped (s : Shared ι) : Prop where
  orderly : s.Orderly
  begun : s.Begun
  fresh : AtEach (fun before act => ∀ i, act = .ask i .begin → ∀ j, ¬Lasts j before) s.history

/-- All three invariants together are kept by a step. Each needs the order before it. -/
theorem Step.wrapped (h : Step s t) (hs : s.StepFree) (hwrapped : s.Wrapped) : t.Wrapped := by
  have horderly := h.orderly_of_stepFree hs hwrapped.orderly
  rcases h.turn_cases with ⟨i, p, reply, hi, rfl⟩ | ⟨i, c, progress, hturn, rfl⟩
  · exact ⟨horderly, hwrapped.begun.hear hwrapped.orderly hi (hi ▸ hs i) reply,
      atEach_concat.mpr ⟨hwrapped.fresh, fun _ hact => nomatch hact⟩⟩
  · refine ⟨horderly, hwrapped.begun.take (hs i) hturn, ?_⟩
    refine atEach_take hwrapped.fresh fun p hp j hask k hlasts => ?_
    subst hp
    injection hask with hij hrequest
    -- One that begins found the flag free, but while something lasts the flag is set.
    obtain ⟨hfree, -⟩ := hturn.claims_of_begin (hs i) hrequest
    rw [hwrapped.begun.flagged hwrapped.orderly hlasts] at hfree
    exact Bool.noConfusion hfree

omit [DecidableEq ι] in
/-- Operations that are no explicit steps are none in the beginning. -/
theorem stepFree_initial (c : Connection) {operations : ι → Operation}
    (hoperations : ∀ i, (operations i).isStep = false) : (initial c operations).StepFree :=
  hoperations

/-- The invariants hold before anything has happened. -/
theorem wrapped_initial (c : Connection) (operations : ι → Operation) :
    (initial c operations).Wrapped :=
  ⟨orderly_initial c operations, fun i hi => absurd hi (not_lasts_nil i), atEach_nil _⟩

/-- The invariants hold along every run. -/
theorem Run.wrapped (h : Run s t) (hs : s.StepFree) (hwrapped : s.Wrapped) :
    t.StepFree ∧ t.Wrapped :=
  h.induct_stepFree hs hwrapped fun _ _ hstep hu hP => hstep.wrapped hu hP

/-- **At most one wrapping transaction.** In every run of operations that are no explicit steps, on
any connection: whoever asks the database to begin finds that every transaction asked for before has
ended; the flag is set as long as a transaction lasts; and one that did not take the flag at its
first turn never asks for a transaction. -/
theorem Run.wrapping_exclusive {c : Connection} {operations : ι → Operation}
    (hoperations : ∀ i, (operations i).isStep = false) (h : Run (initial c operations) s) :
    AtEach (fun before act => ∀ i, act = .ask i .begin → ∀ j, ¬Lasts j before) s.history ∧
      (∀ i, Lasts i s.history → s.connection.inTransaction = true) ∧
      ∀ i operation, s.stage i = .ready operation → s.connection.claims operation = false →
        ∀ t, Run (s.take i (s.connection.start operation).connection
          (s.connection.start operation).progress) t →
            ∀ r, .ask i r ∈ t.history → r.ofTransaction = false := by
  obtain ⟨hs, hwrapped⟩ :=
    h.wrapped (stepFree_initial c hoperations) (wrapped_initial c operations)
  refine ⟨hwrapped.fresh, fun i hi => hwrapped.begun.flagged hwrapped.orderly hi, ?_⟩
  intro i operation hi hclaims t ht
  have hstep : operation.isStep = false := by
    have hstage := hs i
    rw [hi] at hstage
    exact hstage
  have hbystander := bystander_take hstep hclaims fun r => Run.not_mem_of_ready h hi r
  have hfree := Step.stepFree (.start hi) hs
  exact (ht.induct_stepFree hfree hbystander fun _ _ hlast hu hP => hlast.bystander hu hP).2.silent

/-- Three inserts on one connection, before the second makes its first turn: the first one has begun
a transaction. -/
def occupied : Shared (Fin 3) :=
  [.turn 0, .answer 0 (willing .null), .turn 0].foldl choose (initial quiet fun _ => .store oneRow)

/-- The second insert runs beside the first, which fails and rolls back, and the database fails to
do even that. Then the third one begins. -/
def relieved : Shared (Fin 3) :=
  [.turn 1, .answer 1 (willing .null), .answer 0 broken, .turn 0, .turn 1, .answer 0 broken,
    .turn 0, .turn 2].foldl choose occupied

theorem run_occupied : Run (initial quiet fun _ => .store oneRow) occupied :=
  run_foldl_choose _ _

theorem run_relieved : Run occupied relieved :=
  run_foldl_choose _ _

theorem Run.wrapping_exclusive_relieved :
    (∃ before, relieved.history = before ++ [.ask 2 .begin] ∧ .ask 0 .begin ∈ before ∧
        ∀ j, ¬Lasts j before) ∧
      Lasts 2 relieved.history ∧ relieved.connection.inTransaction = true ∧
      .ask 1 .lastId ∈ relieved.history ∧
      ∀ r, .ask 1 r ∈ relieved.history → r.ofTransaction = false := by
  obtain ⟨before, hhistory, hbegun⟩ : ∃ before, relieved.history = before ++ [.ask 2 .begin] ∧
      before.head? = some (.ask 0 .begin) := ⟨_, rfl, rfl⟩
  obtain ⟨hfresh, hflag, -⟩ :=
    Run.wrapping_exclusive (fun _ => rfl) (run_occupied.trans run_relieved)
  obtain ⟨-, -, hsilent⟩ := Run.wrapping_exclusive (fun _ => rfl) run_occupied
  have hlasts : Lasts 2 relieved.history :=
    ⟨before, [], hhistory, fun _ hact => absurd hact List.not_mem_nil⟩
  refine ⟨⟨before, hhistory, List.mem_of_head? hbegun, hfresh before _ [] hhistory 2 rfl⟩,
    hlasts, hflag 2 hlasts, ?_, ?_⟩
  · exact List.mem_iff_getElem?.mpr ⟨7, rfl⟩
  · exact hsilent 1 (.store oneRow) rfl rfl relieved (run_foldl_choose _ _)

end Shared

end SqlBuilder
