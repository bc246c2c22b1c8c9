import Mathlib.Data.List.Basic
import SqlBuilder.Proofs.Connection.AnyTurn

/-!
# Histories of runs

What a statement says of every act of a history it says of the act and of what came before it
(`AtEach`), so that it is proved one act at a time (`atEach_concat`). Of an operation that has made
no turn the history knows nothing (`Run.not_mem_of_ready`). `RunIn` is a run through states that
satisfy a condition, for operations that do not start just at any time.
-/

namespace SqlBuilder

section AtEach

variable {α : Type}

/-- Something holds of every act of a history and of what came before it. -/
def AtEach (P : List α → α → Prop) (history : List α) : Prop :=
  ∀ before act after, history = before ++ act :: after → P before act

/-- Where a history with one more act can be cut: before that act, or where it could be cut. -/
theorem concat_eq_append_cons {history before after : List α} {last act : α} :
    history ++ [last] = before ++ act :: after ↔
      (history = before ∧ last = act ∧ after = []) ∨
        ∃ rest, history = before ++ act :: rest ∧ after = rest ++ [last] := by
  constructor
  · intro h
    -- The last act is the one at the cut, or the last of those behind it.
    rcases List.eq_nil_or_concat' after with rfl | ⟨rest, a, rfl⟩
    · obtain ⟨hbefore, hlast⟩ := List.append_inj' h rfl
      exact .inl ⟨hbefore, List.head_eq_of_cons_eq hlast, rfl⟩
    · rw [← List.cons_append, ← List.append_assoc] at h
      obtain ⟨hbefore, hlast⟩ := List.append_inj' h rfl
      exact .inr ⟨rest, hbefore, by rw [List.head_eq_of_cons_eq hlast]⟩
  · rintro (⟨rfl, rfl, rfl⟩ | ⟨rest, rfl, rfl⟩)
    · rfl
    · rw [List.append_assoc, List.cons_append]

theorem atEach_nil (P : List α → α → Prop) : AtEach P [] :=
  fun _ _ _ h => absurd h (List.append_ne_nil_of_right_ne_nil _ (List.cons_ne_nil _ _)).symm

/-- Of every act is of those before the last one, and of the last one. -/
theorem atEach_concat {P : List α → α → Prop} {history : List α} {last : α} :
    AtEach P (history ++ [last]) ↔ AtEach P history ∧ P history last := by
  constructor
  · intro h
    refine ⟨fun before act after hcut => ?_, h history last [] rfl⟩
    exact h before act (after ++ [last]) (concat_eq_append_cons.mpr (.inr ⟨after, hcut, rfl⟩))
  · rintro ⟨hhistory, hlast⟩ before act after hcut
    rcases concat_eq_append_cons.mp hcut with ⟨rfl, rfl, -⟩ | ⟨rest, hrest, -⟩
    · exact hlast
    · exact hhistory before act rest hrest

end AtEach

namespace Shared

variable {ι : Type} [DecidableEq ι] {s t : Shared ι}

/-- What holds of every act still does after a turn, if it does of the request that is made. -/
theorem atEach_take {P : List (Act ι) → Act ι → Prop} {i : ι} {c : Connection}
    {progress : Progress} (h : AtEach P s.history)
    (hask : ∀ p, progress = .waiting p → P s.history (.ask i p.request)) :
    AtEach P (s.take i c progress).history := by
  cases progress with
  | waiting p => exact atEach_concat.mpr ⟨h, hask p rfl⟩
  | finished result =>
    change AtEach P (s.history ++ [])
    rwa [List.append_nil]

/-- Asking is no news of the others. -/
theorem mem_history_take {i j : ι} {r : Request} {c : Connection} {progress : Progress}
    (h : .ask j r ∈ (s.take i c progress).history) :
    .ask j r ∈ s.history ∨ j = i ∧ ∃ p, progress = .waiting p ∧ p.request = r := by
  cases progress with
  | waiting p =>
    rcases List.mem_append.mp h with hbefore | hlast
    · exact .inl hbefore
    · cases List.mem_singleton.mp hlast
      exact .inr ⟨rfl, p, rfl, rfl⟩
  | finished result =>
    change _ ∈ s.history ++ [] at h
    rw [List.append_nil] at h
    exact .inl h

/-- An answer is no request. -/
theorem mem_history_hear {i j : ι} {r : Request} {p : Pending} {reply : Reply p.request}
    (h : .ask j r ∈ (s.hear i p reply).history) : .ask j r ∈ s.history := by
  rcases List.mem_append.mp h with hbefore | hlast
  · exact hbefore
  · cases List.mem_singleton.mp hlast

/-! ### Operations that have made no turn -/

/-- One that has made no turn after a step had made none before it. -/
theorem Step.ready (h : Step s t) {i : ι} {operation : Operation}
    (hi : t.stage i = .ready operation) : s.stage i = .ready operation := by
  rcases h.turn_cases with ⟨j, p, reply, -, rfl⟩ | ⟨j, c, progress, -, rfl⟩
  · refine forall_stage_hear (P := fun k stage => stage = .ready operation →
      s.stage k = .ready operation) Stage.noConfusion (fun _ _ => id) i hi
  · refine forall_stage_take (P := fun k stage => stage = .ready operation →
      s.stage k = .ready operation) (fun hstage => ?_) (fun _ _ => id) i hi
    cases progress <;> cases hstage

/-- One that has made no turn is where it was in the beginning. -/
theorem Run.ready_eq {c : Connection} {operations : ι → Operation}
    (h : Run (initial c operations) s) {i : ι} {operation : Operation}
    (hi : s.stage i = .ready operation) : operation = operations i := by
  induction h with
  | refl => exact (Stage.ready.inj hi).symm
  | tail _ hlast ih => exact ih (hlast.ready hi)

/-- One that has made no turn has asked for nothing. -/
theorem Run.not_mem_of_ready {c : Connection} {operations : ι → Operation}
    (h : Run (initial c operations) s) {i : ι} {operation : Operation}
    (hi : s.stage i = .ready operation) (r : Request) : .ask i r ∉ s.history := by
  induction h with
  | refl => exact List.not_mem_nil
  | @tail u v _ hlast ih =>
    have hbefore := ih (hlast.ready hi)
    -- Only its own turn would ask for it, and after a turn it is not ready.
    rcases hlast.turn_cases with ⟨j, p, reply, -, rfl⟩ | ⟨j, c, progress, -, rfl⟩
    · exact fun hmem => hbefore (mem_history_hear hmem)
    · intro hmem
      rcases mem_history_take hmem with hold | ⟨rfl, -⟩
      · exact hbefore hold
      · rw [stage_take_self] at hi
        cases progress <;> cases hi

/-- A run changes nothing of the connection but the flag. -/
theorem Run.wrapInserts_eq (h : Run s t) :
    t.connection.wrapInserts = s.connection.wrapInserts := by
  induction h with
  | refl => rfl
  | tail _ hlast ih =>
    rcases hlast.turn_cases with ⟨i, p, reply, -, rfl⟩ | ⟨i, c, progress, hturn, rfl⟩
    · exact ih
    · rw [← ih]
      change c.wrapInserts = _
      exact congrArg (·.wrapInserts) hturn.connection_eq

/-! ### Runs under a condition -/

/-- Any number of steps, each to a state that satisfies the condition. -/
abbrev RunIn (P : Shared ι → Prop) : Shared ι → Shared ι → Prop :=
  Relation.ReflTransGen fun s t => Step s t ∧ P t

theorem RunIn.run {P : Shared ι → Prop} (h : RunIn P s t) : Run s t :=
  Relation.ReflTransGen.mono (fun _ _ => And.left) s t h

/-- What one step between states of the condition preserves, a run through them preserves. -/
theorem RunIn.induct {P Q : Shared ι → Prop} (h : RunIn P s t) (hP : P s) (hQ : Q s)
    (hstep : ∀ u v, Step u v → Run s u → P u → P v → Q u → Q v) : P t ∧ Q t := by
  induction h with
  | refl => exact ⟨hP, hQ⟩
  | @tail u v hrun hlast ih =>
    exact ⟨hlast.2, hstep u v hlast.1 (RunIn.run hrun) ih.1 hlast.2 ih.2⟩

/-- The condition holds of every state that the choices lead to. -/
def Along (P : Shared ι → Prop) (s : Shared ι) : List (Choice ι) → Prop
  | [] => True
  | choice :: choices => P (s.choose choice) ∧ Along P (s.choose choice) choices

instance {P : Shared ι → Prop} [DecidablePred P] (s : Shared ι) (choices : List (Choice ι)) :
    Decidable (Along P s choices) :=
  decidableAlong s choices
where
  /-- State by state. -/
  decidableAlong (s : Shared ι) : (choices : List (Choice ι)) → Decidable (Along P s choices)
    | [] => isTrue trivial
    | choice :: choices =>
      have := decidableAlong (s.choose choice) choices
      inferInstanceAs (Decidable (P (s.choose choice) ∧ Along P (s.choose choice) choices))

/-- Choices along which the condition holds are a run under the condition. -/
theorem Along.runIn {P : Shared ι → Prop} {choices : List (Choice ι)} (h : Along P s choices) :
    RunIn P s (choices.foldl choose s) := by
  induction choices generalizing s with
  | nil => exact .refl
  | cons choice choices ih =>
    refine Relation.ReflTransGen.trans ?_ (ih h.2)
    rcases choose_eq_or_step s choice with hsame | hstep
    · rw [hsame]
    · exact .single ⟨hstep, h.1⟩

end Shared

end SqlBuilder
