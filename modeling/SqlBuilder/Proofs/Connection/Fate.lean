import SqlBuilder.Proofs.Connection.Ledger

/-!
# What becomes of an insert that was reported

An insert that ran inside the transaction of another one is reported as soon as its identifier is
read. Its fate is then in the hands of the other one, which may still fail and roll back.

Main statement, at the end: an insert that was reported is durable, unless it ran in the transaction
of another insert. Then it is pending while that transaction is open, and is discarded only by a
rollback of the one that opened the transaction, whose store never succeeds.

The invariant is `Shared.Accounted`: a pending insert belongs to the transaction that is open, and
what has been executed is kept (`Fate.Kept`), that is, if it was discarded then by the opener of its
transaction, which is failing. That the one who rolls back is the opener follows from the order of
holds, because it is inside of its transaction when it asks for the rollback. That a reported
insert is not its own opener follows from that order too: an opener that is not inside any more has
failed.
-/

namespace SqlBuilder

/-! ### What becomes of what was executed -/

/-- Whether the insert of one that waits has been executed. -/
def Pending.executed : Pending → Bool
  | .readingId _ _ | .closing _ _ => true
  | _ => false

/-- Whether the insert of one with a reply has been executed. -/
def Pending.executedAnswered : (p : Pending) → Reply p.request → Bool
  | .inserting _ _, .ok _ => true
  | p, _ => p.executed

/-- Whether the insert has been executed and nothing has failed since. -/
def Stage.executed : Stage → Bool
  | .asking p => p.executed
  | .answered p reply => p.executedAnswered reply
  | .ended (.ok _) => true
  | _ => false

/-- Whether the insert can only end with an error. -/
def Stage.failing : Stage → Bool
  | .asking (.undoing _) | .answered (.undoing _) _ => true
  | .ended (.error _) => true
  | _ => false

/-- A turn executes nothing: only an answer does. -/
theorem InsertTurn.executed {c c' : Connection} {stage : Stage} {progress : Progress}
    (h : InsertTurn c stage c' progress) (hexecuted : progress.stage.executed = true) :
    stage.executed = true := by
  -- The turns that are not named end somewhere that does not count as executed.
  cases h with
  | inserted | read | readOwn | closed => rfl
  | _ => exact Bool.noConfusion hexecuted

/-- There is no way back from a rollback. Its only turn is the last one, with the error. -/
theorem InsertTurn.failing {c c' : Connection} {stage : Stage} {progress : Progress}
    (h : InsertTurn c stage c' progress) (hfailing : stage.failing = true) :
    progress.stage.failing = true := by
  cases h with
  | undone => rfl
  | _ => exact Bool.noConfusion hfailing

/-- Whatever becomes of a rollback, the insert fails. -/
theorem Pending.failing {p : Pending} (hfailing : (Stage.asking p).failing = true)
    (reply : Reply p.request) : (Stage.answered p reply).failing = true := by
  cases p with
  | undoing e => rfl
  | _ => exact Bool.noConfusion hfailing

/-- What may have become of an insert that has been executed: if it was discarded, then by the one
that opened its transaction, and that one fails. -/
def Fate.Kept {ι : Type} (failing : ι → Bool) : Fate ι → Prop
  | .absent => False
  | .pending _ => True
  | .durable => True
  | .discarded opener roller => opener = roller ∧ failing roller = true

section Kept

variable {ι : Type} {failing failing' : ι → Bool} {fate : Fate ι}

/-- The one who discarded goes on failing. -/
theorem Fate.Kept.mono (h : fate.Kept failing)
    (hfailing : ∀ j, failing j = true → failing' j = true) : fate.Kept failing' := by
  cases fate with
  | discarded opener roller => exact ⟨h.1, hfailing roller h.2⟩
  | _ => exact h

/-- A commit discards nothing. -/
theorem Fate.Kept.commit (h : fate.Kept failing) : fate.commit.Kept failing := by
  cases fate with
  | pending opener => exact trivial
  | _ => exact h

/-- A rollback of the one that opened the transaction, who fails. -/
theorem Fate.Kept.rollback (h : fate.Kept failing) {roller : ι}
    (hopener : ∀ k, fate = .pending k → k = roller) (hroller : failing roller = true) :
    (fate.rollback roller).Kept failing := by
  cases fate with
  | pending opener => exact ⟨hopener opener rfl, hroller⟩
  | _ => exact h

/-- What is executed now is pending or durable. -/
theorem Fate.kept_ofOpen (failing : ι → Bool) (open? : Option ι) :
    (Fate.ofOpen open?).Kept failing := by
  cases open? <;> exact trivial

/-- Nothing is pending after a commit. -/
theorem Fate.commit_ne_pending (fate : Fate ι) (k : ι) : fate.commit ≠ .pending k := by
  intro h
  cases fate <;> cases h

/-- Nothing is pending after a rollback. -/
theorem Fate.rollback_ne_pending (fate : Fate ι) (roller k : ι) :
    fate.rollback roller ≠ .pending k := by
  intro h
  cases fate <;> cases h

/-- What is executed now is pending only in the transaction that is open. -/
theorem Fate.eq_some_of_ofOpen {open? : Option ι} {k : ι} (h : Fate.ofOpen open? = .pending k) :
    open? = some k := by
  cases open? with
  | none => cases h
  | some opener => exact congrArg some (Fate.pending.inj h)

end Kept

namespace Shared

variable {ι : Type} [DecidableEq ι] {s t : Shared ι}

/-- Whether an insert can only end with an error. -/
def failing (s : Shared ι) (i : ι) : Bool :=
  (s.stage i).failing

/-- The account agrees with where the inserts stand. -/
structure Accounted (s : Shared ι) : Prop where
  open_of_pending : ∀ i k, s.ledger.fate i = .pending k → s.ledger.open? = some k
  kept : ∀ i, (s.stage i).executed = true → (s.ledger.fate i).Kept s.failing

/-- An answer makes none succeed that fails. -/
theorem failing_hear {i : ι} {p : Pending} (hi : s.stage i = .asking p) (reply : Reply p.request)
    {j : ι} (hj : s.failing j = true) : (s.hear i p reply).failing j = true := by
  refine forall_stage_hear (P := fun j stage => s.failing j = true → stage.failing = true)
    (fun hfailing => ?_) (fun _ _ hfailing => hfailing) j hj
  rw [failing, hi] at hfailing
  exact Pending.failing hfailing reply

/-- A turn makes none succeed that fails. -/
theorem failing_take {i : ι} {c : Connection} {progress : Progress}
    (hturn : InsertTurn s.connection (s.stage i) c progress) {j : ι} (hj : s.failing j = true) :
    (s.take i c progress).failing j = true := by
  exact forall_stage_take (P := fun j stage => s.failing j = true → stage.failing = true)
    (fun hfailing => hturn.failing hfailing) (fun _ _ hfailing => hfailing) j hj

/-- An insert that can only end with an error is no better off after any step. -/
theorem Step.failing (h : Step s t) (hs : s.OfInserts) {j : ι}
    (hj : s.failing j = true) : t.failing j = true := by
  rcases h.insert_cases hs with ⟨i, p, reply, hi, -, rfl⟩ | ⟨i, c, progress, hturn, rfl⟩
  · exact failing_hear hi reply hj
  · exact failing_take hturn hj

/-- The account after an answer agrees with the pending inserts: there are none when a transaction
begins, and none when it has ended. -/
theorem Accounted.open_of_pending_hear (h : s.Accounted) (horderly : s.Orderly) {i : ι}
    {p : Pending} (hi : s.stage i = .asking p) (hp : p.ofInsert = true) (reply : Reply p.request)
    (j k : ι) (hj : (s.ledger.after (.answer i p.request reply)).fate j = .pending k) :
    (s.ledger.after (.answer i p.request reply)).open? = some k := by
  have hsame := h.open_of_pending j k
  cases p with
  | opening sql =>
    -- An insert begins when no transaction is open, and then nothing is pending.
    have hclosed : s.ledger.open? = none := by
      refine horderly.closed_of_claimed i ?_
      rw [hi]
      rfl
    cases reply with
    | ok u => exact absurd (hclosed.symm.trans (hsame hj)) (Option.some_ne_none k).symm
    | error e => exact hsame hj
  | inserting sql wrapped =>
    cases reply with
    | error e => exact hsame hj
    | ok n =>
      -- What is executed now is pending in the transaction that is open, if there is one.
      change Function.update s.ledger.fate i (.ofOpen s.ledger.open?) j = .pending k at hj
      by_cases hji : j = i
      · rw [hji, Function.update_self] at hj
        exact Fate.eq_some_of_ofOpen hj
      · rw [Function.update_of_ne hji] at hj
        exact hsame hj
  | readingId wrapped n => exact hsame hj
  | closing n id =>
    cases reply with
    | ok u => exact absurd hj (Fate.commit_ne_pending _ k)
    | error e => exact hsame hj
  | undoing e => exact absurd hj (Fate.rollback_ne_pending _ i k)
  | _ => exact Bool.noConfusion hp

/-- What has been executed is kept when the database answers. -/
theorem Accounted.kept_hear (h : s.Accounted) (horderly : s.Orderly) {i : ι}
    {p : Pending} (hi : s.stage i = .asking p) (hp : p.ofInsert = true) (reply : Reply p.request)
    (j : ι) (hj : ((s.hear i p reply).stage j).executed = true) :
    ((s.ledger.after (.answer i p.request reply)).fate j).Kept (s.hear i p reply).failing := by
  have hmono {fate : Fate ι} (hfate : fate.Kept s.failing) :
      fate.Kept (s.hear i p reply).failing :=
    hfate.mono fun _ => failing_hear hi reply
  -- An insert that had been executed before is kept until then.
  have hbefore (hexecuted : j = i → p.executed = true) :
      (s.ledger.fate j).Kept (s.hear i p reply).failing := by
    refine hmono (h.kept j ?_)
    by_cases hji : j = i
    · rw [hji, hi]
      exact hexecuted hji
    · rw [stage_hear_of_ne s hji] at hj
      exact hj
  -- The one that is answered has executed what the answer says.
  have hanswered (hji : j = i) : p.executedAnswered reply = true := by
    rw [hji, stage_hear_self] at hj
    exact hj
  cases p with
  | opening sql =>
    have hfate := hbefore fun hji => Bool.noConfusion (hanswered hji)
    cases reply <;> exact hfate
  | inserting sql wrapped =>
    cases reply with
    | error e => exact hbefore fun hji => Bool.noConfusion (hanswered hji)
    | ok n =>
      change (Function.update s.ledger.fate i (.ofOpen s.ledger.open?) j).Kept _
      by_cases hji : j = i
      · rw [hji, Function.update_self]
        exact Fate.kept_ofOpen _ _
      · rw [Function.update_of_ne hji]
        exact hbefore fun h => absurd h hji
  | readingId wrapped n => exact hbefore fun _ => rfl
  | closing n id =>
    cases reply with
    | ok u => exact (hbefore fun _ => rfl).commit
    | error e => exact hbefore fun _ => rfl
  | undoing e =>
    -- The one who rolls back is inside of its transaction, so all that is pending is in that one.
    have hopen : s.ledger.open? = some i := by
      refine horderly.open_of_inside i ?_
      rw [hi]
      rfl
    refine (hbefore fun hji => Bool.noConfusion (hanswered hji)).rollback (fun k hk => ?_) ?_
    · exact Option.some.inj ((h.open_of_pending j k hk).symm.trans hopen)
    · rw [failing, stage_hear_self]
      rfl
  | _ => exact Bool.noConfusion hp

/-- A step of inserts in order keeps the account. The order is needed of the state before it
only. -/
theorem Step.accounted (h : Step s t) (hs : s.OfInserts)
    (horderly : s.Orderly) (haccounted : s.Accounted) : t.Accounted := by
  rcases h.insert_cases hs with ⟨i, p, reply, hi, hp, rfl⟩ | ⟨i, c, progress, hturn, rfl⟩
  · refine ⟨?_, ?_⟩
    · rw [ledger_hear]
      exact haccounted.open_of_pending_hear horderly hi hp reply
    · rw [ledger_hear]
      exact haccounted.kept_hear horderly hi hp reply
  · refine ⟨?_, fun j hj => ?_⟩
    · rw [ledger_take]
      exact haccounted.open_of_pending
    · rw [ledger_take]
      -- A turn does not execute anything, so what is executed now was executed before.
      have hbefore : (s.stage j).executed = true :=
        forall_stage_take (P := fun j stage => stage.executed = true → (s.stage j).executed = true)
          hturn.executed (fun _ _ hexecuted => hexecuted) j hj
      exact (haccounted.kept j hbefore).mono fun _ => failing_take hturn

/-- Nothing is executed and nothing is pending in the beginning. -/
theorem accounted_initial (c : Connection) (operations : ι → Operation) :
    (initial c operations).Accounted where
  open_of_pending i k hk := by cases hk
  kept i hi := Bool.noConfusion hi

/-- The account agrees with where the inserts stand in every run. -/
theorem Run.accounted (h : Run s t) (hs : s.OfInserts)
    (horderly : s.Orderly) (haccounted : s.Accounted) : t.Orderly ∧ t.Accounted :=
  h.induct hs (P := fun u => u.Orderly ∧ u.Accounted) ⟨horderly, haccounted⟩
    fun _ _ hstep hu hP => ⟨hstep.orderly hu hP.1, hstep.accounted hu hP.1 hP.2⟩

/-- An insert that can only end with an error never ends with success. -/
theorem Run.ne_ok_of_failing (h : Run s t) (hs : s.OfInserts) {j : ι}
    (hj : s.failing j = true) (outcome : Outcome) : t.stage j ≠ .ended (.ok outcome) := by
  have hfailing : t.failing j = true :=
    h.induct hs (P := fun u => u.failing j = true) hj fun _ _ hstep hu hP => hstep.failing hu hP
  intro hok
  rw [failing, hok] at hfailing
  exact Bool.noConfusion hfailing

/-- **What was reported is lost only with the transaction it ran in.** In every run of inserts on
any connection, an insert that was reported is durable, unless it ran in the transaction of another
one. Then it is pending as long as that transaction is open, and it is discarded only by the one
that opened the transaction, whose store succeeds neither before nor after. -/
theorem Run.fate_of_reported {c : Connection} {w : ι → Write} (hw : ∀ i, (w i).isUpdate = false)
    (h : Run (initial c fun i => .store (w i)) s) {i : ι} {n : Nat} {id : Option Value}
    (hi : s.stage i = .ended (.ok (.stored (.inserted n id)))) :
    s.ledger.fate i = .durable ∨
      ∃ j, j ≠ i ∧
        (s.ledger.fate i = .pending j ∧ s.ledger.open? = some j ∨
          s.ledger.fate i = .discarded j j ∧
            ∀ t, Run s t → ∀ outcome, t.stage j ≠ .ended (.ok outcome)) := by
  have hs := ofInserts_initial c hw
  obtain ⟨horderly, haccounted⟩ :=
    h.accounted hs (orderly_initial c _) (accounted_initial c _)
  have hkept := haccounted.kept i (by rw [hi]; rfl)
  -- What is reported was executed, so it is not absent; the three other fates are the three cases.
  cases hfate : s.ledger.fate i with
  | durable => exact .inl rfl
  | absent =>
    rw [hfate] at hkept
    exact hkept.elim
  | pending j =>
    have hopen := haccounted.open_of_pending i j hfate
    refine .inr ⟨j, ?_, .inl ⟨rfl, hopen⟩⟩
    -- The one that opened it is inside or has failed, and a reported insert is neither.
    rintro rfl
    rcases horderly.hold_of_open j hopen with hhold | hhold
    · rw [hi] at hhold
      exact Hold.noConfusion hhold
    · rw [hi] at hhold
      exact Hold.noConfusion hhold
  | discarded opener roller =>
    rw [hfate] at hkept
    obtain ⟨rfl, hfailing⟩ := hkept
    refine .inr ⟨opener, ?_, .inr ⟨rfl, fun t ht outcome => ?_⟩⟩
    · rintro rfl
      exact (Run.ne_ok_of_failing .refl (Run.ofInserts h hs) hfailing _) hi
    · exact Run.ne_ok_of_failing ht (Run.ofInserts h hs) hfailing outcome

/-- Two inserts on one connection: the second runs inside the transaction of the first and is
reported, and then the first one fails and rolls back. -/
def overtaken : Shared Bool :=
  [.turn false, .answer false (willing .null), .turn false, .turn true,
    .answer true (willing .null), .turn true, .answer true (willing .null), .turn true,
    .answer false broken, .turn false, .answer false (willing .null)].foldl choose
      (initial quiet fun _ => .store oneRow)

theorem run_overtaken : Run (initial quiet fun _ => .store oneRow) overtaken :=
  run_foldl_choose _ _

theorem Run.fate_of_reported_overtaken :
    overtaken.stage true = .ended (.ok (.stored (.inserted 1 (some .null)))) ∧
      overtaken.ledger.fate true = .discarded false false ∧
      ∀ t, Run overtaken t → ∀ outcome, t.stage false ≠ .ended (.ok outcome) := by
  have hreported : overtaken.stage true = .ended (.ok (.stored (.inserted 1 (some .null)))) := rfl
  have hfate : overtaken.ledger.fate true = .discarded false false := rfl
  refine ⟨hreported, hfate, ?_⟩
  rcases Run.fate_of_reported (fun _ => rfl) run_overtaken hreported with
    hdurable | ⟨j, -, ⟨hpending, -⟩ | ⟨hdiscarded, hfails⟩⟩
  · cases hfate.symm.trans hdurable
  · cases hfate.symm.trans hpending
  · cases hfate.symm.trans hdiscarded
    exact hfails

/-- A rollback that another insert sends may discard one that was reported. -/
theorem not_forall_fate_ne_discarded :
    ¬∀ (c : Connection) (w : Bool → Write) (s : Shared Bool), c.wrapInserts = true →
      c.inTransaction = false → (∀ i, (w i).isUpdate = false) →
        Run (initial c fun i => .store (w i)) s → ∀ i n id,
          s.stage i = .ended (.ok (.stored (.inserted n id))) → ∀ opener roller, roller ≠ i →
            s.ledger.fate i ≠ .discarded opener roller := by
  intro hall
  exact hall quiet (fun _ => oneRow) overtaken rfl rfl (fun _ => rfl) run_overtaken true 1
    (some .null) rfl false false Bool.false_ne_true rfl

end Shared

end SqlBuilder
