import Mathlib.Data.List.Forall2
import SqlBuilder.Proofs.Compile.Chain
import SqlBuilder.Proofs.Statement.Failure
import SqlBuilder.Proofs.Statement.Routing

/-!
# Conditions from the call to the text

A condition that is given to a call on a write or a delete is not lost on the way to the text. If
it cannot be read the call fails, and then the statement does not compile; if no call fails, the
WHERE chain has one condition for each that was given, in the order of the calls
(`forall₂_given_wheres`). The compiled text is told by the rendering of the statement, in which the
chain is written out condition by condition, so one that is missing there is missing in the chain.

Main statements: a write that was given a condition and compiles is an UPDATE with a condition for
each (`Write.compile_of_given`), and a delete that compiles has a condition for each, or was given
none and may remove every row (`Delete.compile_of_given`).
-/

namespace SqlBuilder

/-- A condition as it is given to a call. -/
structure Given where
  raw : String
  binding : Binding
  connective : Connective

namespace Given

/-- What is read is what was given. -/
def Reads (g : Given) (part : Comparison × Binding × Connective) : Prop :=
  Comparison.read g.raw = .ok part.1 ∧ part.2 = (g.binding, g.connective)

end Given

/-- The conditions that are given to a call. -/
def Draft.Step.given : Step → List Given
  | .addCondition raw binding connective => [⟨raw, binding, connective⟩]
  | .addConditions pairs => pairs.map fun pair => ⟨pair.1, pair.2, .and⟩
  | .addSources _ | .openBrackets _ | .closeBrackets _ => []

/-- The conditions that are given to a call. -/
def Write.Step.given : Step → List Given
  | .common step => step.given
  | .addRows _ | .addDocument _ => []

/-- The conditions that are given to a call. -/
def Delete.Step.given : Step → List Given
  | .common step => step.given
  | .allowAll => []

/-! ### From the calls to the conditions -/

theorem Given.forall₂_conditionEffects {raw : String} (binding : Binding) (connective : Connective)
    (h : failureOf (Comparison.read raw) = none) :
    List.Forall₂ Reads [⟨raw, binding, connective⟩]
      ((conditionEffects raw binding connective).filterMap Effect.part?) := by
  obtain ⟨comparison, hread⟩ := failureOf_eq_none.mp h
  rw [conditionEffects, hread]
  exact .cons ⟨hread, rfl⟩ .nil

/-- A call that does not fail adds a condition for each that it is given. -/
theorem Draft.Step.forall₂_given {stray : Misuse} {d : Draft} {step : Step}
    (h : step.failure? stray d = none) :
    List.Forall₂ Given.Reads step.given (step.effects.filterMap Effect.part?) := by
  cases step with
  | addSources | openBrackets | closeBrackets => exact .nil
  | addCondition raw binding connective => exact Given.forall₂_conditionEffects binding connective h
  | addConditions pairs =>
    induction pairs with
    | nil => exact .nil
    | cons pair pairs ih =>
      rw [failure?, List.findSome?_eq_none_iff, List.forall_mem_cons] at h
      rw [effects, List.flatMap_cons, List.filterMap_append]
      exact List.rel_append (Given.forall₂_conditionEffects pair.2 .and h.1)
        (ih (List.findSome?_eq_none_iff.mpr h.2))

section

variable {σ Step : Type} {apply : σ → Step → σ} {failure? : σ → Step → Option Error}
  {given : Step → List Given} {effects : Step → List Effect}

/-- Any number of calls of which none fails, given what one of them adds. -/
theorem forall₂_given_foldl (error? : σ → Option Error)
    (happly : ∀ s step, error? (apply s step) = (error? s).or (failure? s step))
    (hgiven : ∀ s step, failure? s step = none →
      List.Forall₂ Given.Reads (given step) ((effects step).filterMap Effect.part?))
    {s : σ} {steps : List Step} (h : error? (steps.foldl apply s) = none) :
    List.Forall₂ Given.Reads (steps.flatMap given)
      ((steps.flatMap effects).filterMap Effect.part?) := by
  induction steps generalizing s with
  | nil => exact .nil
  | cons step steps ih =>
    have hfirst := hgiven s step (failure?_of_error?_foldl error? happly h)
    rw [List.flatMap_cons, List.flatMap_cons, List.filterMap_append]
    exact List.rel_append hfirst (ih h)

/-- **A statement whose conditions all go to the WHERE chain** has one for each that was given,
unless a call failed. What a kind of statement has to bring along is what one of its calls does: to
the error, to the chain, and to what is given. -/
theorem forall₂_given_wheres (draft : σ → Draft)
    (happly : ∀ s step, (draft (apply s step)).error? = (draft s).error?.or (failure? s step))
    (hgiven : ∀ s step, failure? s step = none →
      List.Forall₂ Given.Reads (given step) ((effects step).filterMap Effect.part?))
    (heffects : ∀ step, joinCount (effects step) = 0) {s : σ} {steps : List Step}
    (hfollows : (draft (steps.foldl apply s)).Follows (steps.flatMap effects))
    (h : (draft (steps.foldl apply s)).error? = none) :
    List.Forall₂ (fun g c => Given.Reads g c.part) (steps.flatMap given)
      (draft (steps.foldl apply s)).wheres := by
  rw [← List.forall₂_map_right_iff, (hfollows.all (joinCount_flatMap heffects steps)).2]
  exact forall₂_given_foldl (fun s => (draft s).error?) happly hgiven h

end

/-- Unless a call failed, a write has a condition for each that was given. -/
theorem Write.forall₂_given {steps : List Step} (h : (build steps).draft.error? = none) :
    List.Forall₂ (fun g c => Given.Reads g c.part) (steps.flatMap Step.given)
      (build steps).draft.wheres := by
  refine forall₂_given_wheres draft error?_apply (fun w step hnone => ?_) Step.joinCount_effects
    (follows_build steps) h
  cases step with
  | common step => exact step.forall₂_given hnone
  | addRows | addDocument => exact .nil

/-- Unless a call failed, a delete has a condition for each that was given. -/
theorem Delete.forall₂_given {steps : List Step} (h : (build steps).draft.error? = none) :
    List.Forall₂ (fun g c => Given.Reads g c.part) (steps.flatMap Step.given)
      (build steps).draft.wheres := by
  refine forall₂_given_wheres draft error?_apply (fun r step hnone => ?_) Step.joinCount_effects
    (follows_build steps) h
  cases step with
  | common step => exact step.forall₂_given hnone
  | allowAll => exact .nil

/-! ### From the conditions to the text -/

theorem Error.holds_of_require {holds : Bool} {e : Error} {u : Unit}
    (h : require holds e = .ok u) : holds = true := by
  cases holds with
  | true => rfl
  | false => cases h

section

variable {d : Dialect}

/-- A clause with a chain that has a condition in it. -/
theorem clauseItems_chainItems (keyword : Item) {conditions : List Condition}
    (h : conditions ≠ []) :
    clauseItems keyword (chainItems d conditions) = keyword :: chainItems d conditions := by
  obtain ⟨c, rest, rfl⟩ := List.exists_cons_of_ne_nil h
  rw [chainItems_cons]
  rfl

/-- **A write that was given a condition** and compiles is an UPDATE of one row, and behind WHERE
stand all conditions of its chain, of which there is one for each that was given. -/
theorem Write.compile_of_given {steps : List Step} {out : Sql}
    (hgiven : steps.flatMap Step.given ≠ []) (h : (build steps).compile d = .ok out) :
    (build steps).isUpdate = true ∧
      List.Forall₂ (fun g c => Given.Reads g c.part) (steps.flatMap Step.given)
        (build steps).draft.wheres ∧
      ∃ row, (build steps).rows = [row] ∧
        out = Rendering.sql d
          (.word "UPDATE " :: commaItems ((build steps).draft.sources.map Aliased.sourceItems) ++
            .word " SET " :: commaItems (row.entries.map (assignmentItems d)) ++
            .word " WHERE " :: chainItems d (build steps).draft.wheres) := by
  have herror : (build steps).draft.error? = none :=
    (Statement.chains_of_compile (s := .write (build steps)) h).1
  have hconditions := forall₂_given herror
  have hwheres : (build steps).draft.wheres ≠ [] := by
    intro hwheres
    rw [hwheres] at hconditions
    exact hgiven (List.forall₂_nil_right_iff.mp hconditions)
  -- A condition in the chain is what makes it an update.
  have hupdate : (build steps).isUpdate = true := by
    rw [isUpdate, Bool.not_eq_true', List.isEmpty_eq_false_iff]
    exact hwheres
  obtain ⟨row, rest, hrows, hcompile⟩ := exists_first_of_compile h
  rw [if_pos hupdate] at hcompile
  obtain ⟨_, hone, -⟩ := exists_of_bind_eq_ok hcompile
  -- An update has one row, which is the only one that it assigns.
  have hrest : rest = [] := by
    have hlength := decide_eq_true_iff.mp (Error.holds_of_require hone)
    rw [hrows, List.length_cons] at hlength
    exact List.eq_nil_of_length_eq_zero (by omega)
  refine ⟨hupdate, hconditions, row, hrest ▸ hrows, ?_⟩
  rw [eq_sql_rendering h, rendering, if_pos hupdate, clauseItems_chainItems _ hwheres, hrows]
  rfl

/-- **A delete that compiles** has all conditions of its chain behind WHERE, one for each that it
was given; or it was given none and may remove every row. -/
theorem Delete.compile_of_given {steps : List Step} {out : Sql}
    (h : (build steps).compile d = .ok out) :
    List.Forall₂ (fun g c => Given.Reads g c.part) (steps.flatMap Step.given)
        (build steps).draft.wheres ∧
      ((build steps).draft.wheres ≠ [] ∧
          out = Rendering.sql d
            (.word "DELETE FROM " ::
                commaItems ((build steps).draft.sources.map Aliased.sourceItems) ++
              .word " WHERE " :: chainItems d (build steps).draft.wheres) ∨
        steps.flatMap Step.given = [] ∧ (build steps).allRows = true ∧
          out = Rendering.sql d
            (.word "DELETE FROM " ::
              commaItems ((build steps).draft.sources.map Aliased.sourceItems))) := by
  have hconditions := forall₂_given (Statement.chains_of_compile (s := .delete (build steps)) h).1
  refine ⟨hconditions, ?_⟩
  have hout := eq_sql_rendering h
  rw [rendering] at hout
  by_cases hwheres : (build steps).draft.wheres = []
  · -- Without a condition only the permission can have let it pass.
    obtain ⟨_, -, h⟩ := exists_of_bind_eq_ok h
    obtain ⟨_, -, h⟩ := exists_of_bind_eq_ok h
    obtain ⟨_, hall, -⟩ := exists_of_bind_eq_ok h
    have hallRows := Error.holds_of_require hall
    rw [hwheres] at hconditions hallRows hout
    refine .inr ⟨List.forall₂_nil_right_iff.mp hconditions, by simpa using hallRows, ?_⟩
    rw [hout, chainItems, clauseItems, if_pos List.isEmpty_nil, List.append_nil]
  · rw [clauseItems_chainItems _ hwheres] at hout
    exact .inl ⟨hwheres, hout⟩

end

end SqlBuilder
