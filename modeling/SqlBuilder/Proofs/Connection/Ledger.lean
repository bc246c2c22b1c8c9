import SqlBuilder.Proofs.Connection.Interleaving

/-!
# The transaction that inserts share

A database with one session: between a `begin` and the end of its transaction every insert is
pending, a commit makes the pending ones durable, and a rollback discards them. `Ledger` keeps
account of this along a history. A rollback counts whether or not the database says that it went
well.

Inserts that run side by side on one connection do not each get a transaction. One of them takes
the flag, and whoever inserts while that one's transaction is open does so inside of it.

Main statement: at any time at most one insert holds the flag, and the open transaction is its own
or was left open by one that failed to commit (`Shared.Run.orderly`).

For the flag and the open transaction only the `Hold` of an insert matters, and there are seven
ways to change a hold (`Shift`). Every turn and every answer is one of them (`InsertTurn.shift`,
`Pending.shift`), and all seven keep the order (`Orderly.shift`): an insert that takes the flag
finds it free, so there is no transaction, and one that gives it back has ended its transaction
before. Only a commit that fails leaves the flag taken and the transaction open for good.
-/

namespace SqlBuilder

/-! ### The session of the database -/

/-- What has become of an insert. -/
inductive Fate (ι : Type) where
  /-- It has not been executed. -/
  | absent
  /-- It was executed inside the transaction that `opener` began and that is still open. -/
  | pending (opener : ι)
  | durable
  /-- It was executed inside the transaction of `opener`, which `roller` rolled back. -/
  | discarded (opener roller : ι)

/-- The account of a session. -/
structure Ledger (ι : Type) where
  /-- Who began the open transaction, if there is one. -/
  open? : Option ι
  fate : ι → Fate ι

namespace Fate

variable {ι : Type}

/-- After a commit. -/
def commit : Fate ι → Fate ι
  | .pending _ => .durable
  | fate => fate

/-- After a rollback that `roller` sent. -/
def rollback (roller : ι) : Fate ι → Fate ι
  | .pending opener => .discarded opener roller
  | fate => fate

/-- The fate of what is executed now. -/
def ofOpen : Option ι → Fate ι
  | none => .durable
  | some opener => .pending opener

end Fate

namespace Ledger

variable {ι : Type} [DecidableEq ι]

/-- Before anything has happened. -/
def empty : Ledger ι :=
  ⟨none, fun _ => .absent⟩

/-- The account after an act. -/
def after (l : Ledger ι) : Act ι → Ledger ι
  | .answer i .begin (.ok _) => { l with open? := some i }
  | .answer i (.execute _) (.ok _) =>
    { l with fate := Function.update l.fate i (.ofOpen l.open?) }
  | .answer _ .commit (.ok _) => ⟨none, fun j => (l.fate j).commit⟩
  | .answer i .rollback _ => ⟨none, fun j => (l.fate j).rollback i⟩
  | _ => l

/-- The account of a history. -/
def ofHistory (history : List (Act ι)) : Ledger ι :=
  history.foldl after empty

end Ledger

/-! ### Who holds the flag -/

/-- How an insert is involved with the flag and the open transaction. -/
inductive Hold where
  | free
  /-- It holds the flag, and there is no transaction. -/
  | claimed
  /-- It holds the flag, and its transaction is open. -/
  | inside
  /-- It ended with an error. -/
  | failed
  deriving DecidableEq

/-- Whether the flag is held. -/
def Hold.holds : Hold → Bool
  | .claimed | .inside => true
  | _ => false

/-- The hold of an insert that waits. -/
def Pending.hold : Pending → Hold
  | .opening _ => .claimed
  | .inserting _ true | .readingId true _ | .closing _ _ | .undoing _ => .inside
  | _ => .free

/-- The hold of an insert with a reply. -/
def Pending.holdAnswered : (p : Pending) → Reply p.request → Hold
  | .opening _, .ok _ => .inside
  | .closing _ _, .ok _ => .claimed
  | .undoing _, _ => .claimed
  | p, _ => p.hold

/-- The hold of an insert. -/
def Stage.hold : Stage → Hold
  | .asking p => p.hold
  | .answered p reply => p.holdAnswered reply
  | .ended (.error _) => .failed
  | _ => .free

/-- How a step of insert `i` changes its hold, the flag and the open transaction. -/
inductive Shift {ι : Type} (i : ι) :
    Hold → Bool → Option ι → Hold → Bool → Option ι → Prop where
  | keep (hold : Hold) (flag : Bool) (open? : Option ι) :
    Shift i hold flag open? hold flag open?
  | fail (flag : Bool) (open? : Option ι) : Shift i .free flag open? .failed flag open?
  | claim (open? : Option ι) : Shift i .free false open? .claimed true open?
  | enter (flag : Bool) (open? : Option ι) : Shift i .claimed flag open? .inside flag (some i)
  | leave (flag : Bool) (open? : Option ι) : Shift i .inside flag open? .claimed flag none
  | release (hold : Hold) (hhold : hold.holds = false) (flag : Bool) (open? : Option ι) :
    Shift i .claimed flag open? hold false open?
  /-- The commit failed. The transaction stays open, and the flag taken. -/
  | abandon (flag : Bool) (open? : Option ι) : Shift i .inside flag open? .failed flag open?

/-- The hold that one insert has at a time, in order with the flag and the open transaction. -/
structure Orderly {ι : Type} (flag : Bool) (open? : Option ι) (hold : ι → Hold) : Prop where
  alone : ∀ i j, (hold i).holds = true → (hold j).holds = true → i = j
  flagged : ∀ i, (hold i).holds = true → flag = true
  open_of_inside : ∀ i, hold i = .inside → open? = some i
  closed_of_claimed : ∀ i, hold i = .claimed → open? = none
  flagged_of_open : ∀ k, open? = some k → flag = true
  hold_of_open : ∀ k, open? = some k → hold k = .inside ∨ hold k = .failed

section Shift

variable {ι : Type} {i : ι} {flag flag' : Bool} {open? open?' : Option ι} {hold hold' : ι → Hold}

/-- Beside the one who holds the flag nobody does. -/
theorem Orderly.holds_eq_false (h : Orderly flag open? hold) (hi : (hold i).holds = true) {j : ι}
    (hj : j ≠ i) : (hold j).holds = false := by
  rw [← Bool.not_eq_true]
  exact fun hholds => hj (h.alone j i hholds hi)

/-- Order where there is no transaction and only `i` may hold the flag. -/
theorem Orderly.of_closed (honly : ∀ j, (hold j).holds = true → j = i)
    (hflag : (hold i).holds = true → flag = true) (hinside : hold i ≠ .inside) :
    Orderly flag none hold where
  alone j k hj hk := (honly j hj).trans (honly k hk).symm
  flagged j hj := by
    obtain rfl := honly j hj
    exact hflag hj
  open_of_inside j hj := by
    obtain rfl := honly j (by rw [hj]; rfl)
    exact absurd hj hinside
  closed_of_claimed _ _ := rfl
  flagged_of_open k hk := absurd hk.symm (Option.some_ne_none k)
  hold_of_open k hk := absurd hk.symm (Option.some_ne_none k)

/-- Order where the open transaction is the one of `i`, who is inside or has failed to commit. -/
theorem Orderly.of_open (honly : ∀ j, (hold j).holds = true → j = i)
    (hhold : hold i = .inside ∨ hold i = .failed) : Orderly true (some i) hold where
  alone j k hj hk := (honly j hj).trans (honly k hk).symm
  flagged _ _ := rfl
  open_of_inside j hj := by
    obtain rfl := honly j (by rw [hj]; rfl)
    rfl
  closed_of_claimed j hj := by
    obtain rfl := honly j (by rw [hj]; rfl)
    rw [hj] at hhold
    rcases hhold with hinside | hfailed
    · exact Hold.noConfusion hinside
    · exact Hold.noConfusion hfailed
  flagged_of_open _ _ := rfl
  hold_of_open k hk := by
    obtain rfl := Option.some.inj hk
    exact hhold

/-- Order does not depend on an insert that held nothing and fails. -/
theorem Orderly.fail (h : Orderly flag open? hold) (hi' : hold' i = .failed)
    (hothers : ∀ j, j ≠ i → hold' j = hold j) : Orderly flag open? hold' := by
  -- A hold that is not a failure is the one from before, for `i` too.
  have hsame {j : ι} (hj : hold' j ≠ .failed) : hold' j = hold j :=
    hothers j fun hji => hj (hji ▸ hi')
  have hholds {j : ι} (hj : (hold' j).holds = true) : (hold j).holds = true := by
    have hne : hold' j ≠ .failed := by
      intro hfailed
      rw [hfailed] at hj
      exact Bool.noConfusion hj
    rw [← hsame hne]
    exact hj
  have heq {j : ι} {x : Hold} (hx : x ≠ .failed) (hj : hold' j = x) : hold j = x := by
    rw [← hsame (hj ▸ hx)]
    exact hj
  refine ⟨fun j k hj hk => h.alone j k (hholds hj) (hholds hk),
    fun j hj => h.flagged j (hholds hj), fun j hj => h.open_of_inside j (heq Hold.noConfusion hj),
    fun j hj => h.closed_of_claimed j (heq Hold.noConfusion hj), h.flagged_of_open, ?_⟩
  intro k hk
  by_cases hki : k = i
  · exact .inr (hki ▸ hi')
  · rw [hothers k hki]
    exact h.hold_of_open k hk

/-- Order is kept by every way to change a hold. -/
theorem Orderly.shift (h : Orderly flag open? hold)
    (hshift : Shift i (hold i) flag open? (hold' i) flag' open?')
    (hothers : ∀ j, j ≠ i → hold' j = hold j) : Orderly flag' open?' hold' := by
  -- If nobody else holds the flag before the step, nobody else does after it.
  have honly (hfree : ∀ j, j ≠ i → (hold j).holds = false) (j : ι)
      (hj : (hold' j).holds = true) : j = i := by
    by_contra hne
    rw [hothers j hne, hfree j hne] at hj
    exact Bool.noConfusion hj
  have halone (hi : (hold i).holds = true) : ∀ j, (hold' j).holds = true → j = i :=
    honly fun j hj => h.holds_eq_false hi hj
  generalize hi : hold i = before at hshift
  generalize hi' : hold' i = behind at hshift
  cases hshift with
  | keep =>
    have heq : hold' = hold := by
      funext j
      by_cases hj : j = i
      · rw [hj, hi, hi']
      · exact hothers j hj
    rw [heq]
    exact h
  | fail => exact h.fail hi' hothers
  | claim =>
    -- The flag was free, so nobody held it, and there was no transaction.
    have hclosed : open? = none := by
      rw [Option.eq_none_iff_forall_ne_some]
      exact fun k hk => Bool.noConfusion (h.flagged_of_open k hk)
    have hfree (j : ι) : (hold j).holds = false := by
      rw [← Bool.not_eq_true]
      exact fun hj => Bool.noConfusion (h.flagged j hj)
    rw [hclosed]
    exact .of_closed (honly fun j _ => hfree j) (fun _ => rfl) (by rw [hi']; exact Hold.noConfusion)
  | enter =>
    rw [h.flagged i (by rw [hi]; rfl)]
    exact .of_open (halone (by rw [hi]; rfl)) (.inl hi')
  | leave =>
    -- The transaction has ended, and the flag is still to be given back.
    have hflag := h.flagged i (by rw [hi]; rfl)
    exact .of_closed (halone (by rw [hi]; rfl)) (fun _ => hflag)
      (by rw [hi']; exact Hold.noConfusion)
  | release _ hfree =>
    -- It gives the flag back when it has no transaction, so nobody has one.
    rw [h.closed_of_claimed i hi]
    refine .of_closed (halone (by rw [hi]; rfl)) ?_ ?_
    · rw [hi', hfree]
      exact Bool.noConfusion
    · intro hinside
      rw [← hi', hinside] at hfree
      exact Bool.noConfusion hfree
  | abandon =>
    -- It has failed, but its transaction is still open.
    rw [h.flagged i (by rw [hi]; rfl), h.open_of_inside i hi]
    exact .of_open (halone (by rw [hi]; rfl)) (.inr hi')

end Shift

/-! ### Turns and answers -/

namespace Ledger

variable {ι : Type} [DecidableEq ι]

theorem ofHistory_concat (history : List (Act ι)) (act : Act ι) :
    ofHistory (history ++ [act]) = (ofHistory history).after act :=
  List.foldl_append

/-- Asking changes nothing. -/
theorem ofHistory_asks (history : List (Act ι)) (i : ι) (progress : Progress) :
    ofHistory (history ++ progress.asks i) = ofHistory history := by
  cases progress with
  | waiting p => exact ofHistory_concat history _
  | finished result => exact congrArg ofHistory (List.append_nil history)

end Ledger

/-- A turn changes the hold and the flag, but no transaction. -/
theorem InsertTurn.shift {ι : Type} {c c' : Connection} {stage : Stage} {progress : Progress}
    (h : InsertTurn c stage c' progress) (i : ι) (open? : Option ι) :
    Shift i stage.hold c.inTransaction open? progress.stage.hold c'.inTransaction open? := by
  -- Fifteen turns, five kinds of shift. To enter and to leave are left to the answers.
  cases h with
  | refused | uninserted | unread => exact .fail ..
  | claimed _ _ _ hfree =>
    rw [hfree]
    exact .claim open?
  | joined | opened | uninsertedOwn | readOwn | unreadOwn | read => exact .keep ..
  | inserted _ wrapped => cases wrapped <;> exact .keep ..
  | unopened | closed | undone => exact .release _ rfl ..
  | unclosed => exact .abandon ..

/-- An answer changes the hold and the transaction, but not the flag. -/
theorem Pending.shift {ι : Type} [DecidableEq ι] {p : Pending} (hp : p.ofInsert = true)
    (reply : Reply p.request) (i : ι) (flag : Bool) (l : Ledger ι) :
    Shift i p.hold flag l.open? (p.holdAnswered reply) flag
      (l.after (.answer i p.request reply)).open? := by
  cases p with
  | opening sql =>
    cases reply with
    | ok u => exact .enter ..
    | error e => exact .keep ..
  | inserting sql wrapped => cases reply <;> exact .keep ..
  | readingId wrapped n => exact .keep ..
  | closing n id =>
    cases reply with
    | ok u => exact .leave ..
    | error e => exact .keep ..
  | undoing e => exact .leave ..
  | _ => exact Bool.noConfusion hp

namespace Shared

variable {ι : Type} [DecidableEq ι] {s t : Shared ι}

/-- The account of what the database has answered. -/
def ledger (s : Shared ι) : Ledger ι :=
  .ofHistory s.history

/-- Flag, open transaction and holds in order. -/
def Orderly (s : Shared ι) : Prop :=
  SqlBuilder.Orderly s.connection.inTransaction s.ledger.open? fun i => (s.stage i).hold

/-- A turn changes nothing of the account. -/
@[simp] theorem ledger_take (s : Shared ι) (i : ι) (c : Connection) (progress : Progress) :
    (s.take i c progress).ledger = s.ledger :=
  Ledger.ofHistory_asks s.history i progress

/-- An answer goes into the account. -/
@[simp] theorem ledger_hear (s : Shared ι) (i : ι) (p : Pending) (reply : Reply p.request) :
    (s.hear i p reply).ledger = s.ledger.after (.answer i p.request reply) :=
  Ledger.ofHistory_concat s.history _

/-- A step of inserts is a shift of one hold, so it keeps the order. -/
theorem Step.orderly (h : Step s t) (hs : s.OfInserts)
    (horderly : s.Orderly) : t.Orderly := by
  rcases h.insert_cases hs with ⟨i, p, reply, hi, hp, rfl⟩ | ⟨i, c, progress, hturn, rfl⟩
  · refine SqlBuilder.Orderly.shift horderly (i := i) ?_ fun j hj => ?_
    · rw [hi, stage_hear_self, ledger_hear]
      exact p.shift hp reply i _ s.ledger
    · rw [stage_hear_of_ne s hj]
  · refine SqlBuilder.Orderly.shift horderly (i := i) ?_ fun j hj => ?_
    · rw [stage_take_self, ledger_take]
      exact hturn.shift i _
    · rw [stage_take_of_ne s hj]

/-- Nobody holds the flag in the beginning, whether or not it is set. -/
theorem orderly_initial (c : Connection) (operations : ι → Operation) :
    (initial c operations).Orderly where
  alone _ _ hi := Bool.noConfusion hi
  flagged _ hi := Bool.noConfusion hi
  open_of_inside _ hi := Hold.noConfusion hi
  closed_of_claimed _ hi := Hold.noConfusion hi
  flagged_of_open _ hk := absurd hk.symm (Option.some_ne_none _)
  hold_of_open _ hk := absurd hk.symm (Option.some_ne_none _)

/-- **One transaction at a time**: in every run of inserts at most one of them holds the flag, and
the open transaction belongs to it, or to one that ended with an error. -/
theorem Run.orderly (h : Run s t) (hs : s.OfInserts)
    (horderly : s.Orderly) : t.Orderly :=
  h.induct hs horderly fun _ _ hstep hu hP => hstep.orderly hu hP

end Shared

end SqlBuilder
