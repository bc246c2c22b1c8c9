import SqlBuilder.Compile.Statement
import SqlBuilder.Proofs.Statement.Effect
import SqlBuilder.Proofs.Statement.Focus

/-!
# Calls that fail

A call fails when it is given a text that cannot be read, when it closes a bracket that nothing
stands in front of, when it speaks of a join before there is one, or when it adds rows to an update
that has one. `failure?` is the error of a call on a statement, if the call fails there.

Main statement, at the end: the error of a statement is that of the first call that failed, later
calls do not change it, and the statement compiles to it in every dialect; and a call that fails
does nothing but record its error (`Calls.first_failure`). Rows that are too many for an update are
the exception, which are kept.

What a call does to the error of a statement has one form for all of them (`error?_apply`): the
error of the call stands behind the one that was there. Everything about sequences of calls is
derived from that (`error?_foldl`). A call that several conditions are given to is as many calls,
each of which fails or not.
-/

namespace SqlBuilder

/-- The error that a computation ends with, if it fails. -/
def failureOf {α : Type} : Except Error α → Option Error
  | .ok _ => none
  | .error e => some e

theorem failureOf_eq_some {α : Type} {x : Except Error α} {e : Error} :
    failureOf x = some e ↔ x = .error e := by
  cases x with
  | ok a => exact ⟨nofun, nofun⟩
  | error e' => exact ⟨fun h => congrArg _ (Option.some.inj h), fun h => congrArg failureOf h⟩

theorem failureOf_eq_none {α : Type} {x : Except Error α} :
    failureOf x = none ↔ ∃ a, x = .ok a := by
  cases x with
  | ok a => exact iff_of_true rfl ⟨a, rfl⟩
  | error e => exact iff_of_false nofun nofun

/-! ### When a call fails -/

/-- The error of a call on a draft. A close on a chain without conditions is the given misuse. -/
def Draft.Step.failure? (stray : Misuse) (d : Draft) : Step → Option Error
  | .addSources names => failureOf (names.read .source)
  | .addCondition raw _ _ => failureOf (Comparison.read raw)
  | .addConditions pairs => pairs.findSome? fun pair => failureOf (Comparison.read pair.1)
  | .openBrackets _ => none
  | .closeBrackets _ => if d.wheres.isEmpty then some (.structural stray) else none

/-- Whether the step is one call. -/
def Draft.Step.isSingle : Step → Bool
  | .addConditions _ => false
  | _ => true

/-- The step call by call. Several conditions are as many calls. -/
def Draft.Step.singles : Step → List Step
  | .addConditions pairs => pairs.map fun pair => .addCondition pair.1 pair.2 .and
  | step => [step]

/-- The error of a call on a select. -/
def Select.Step.failure? (s : Select) : Step → Option Error
  | .common step => step.failure? s.strayClose s.focus
  | .addFields names => failureOf (names.read .field)
  | .addJoin raw _ => failureOf (Aliased.read .source raw)
  | .addOn raw _ _ =>
    if s.inJoin then failureOf (Comparison.read raw) else some (.structural (.onBeforeJoin raw))
  | .setDistinct _ | .setWindow _ _ | .setPage _ _ | .sortBy _ _ | .groupBy _ => none

/-- Whether the step is one call. -/
def Select.Step.isSingle : Step → Bool
  | .common step => step.isSingle
  | _ => true

/-- The step call by call. -/
def Select.Step.singles : Step → List Step
  | .common step => step.singles.map .common
  | step => [step]

namespace Write

/-- The error of an update that is given so many rows that it has several. -/
def crowding? (w : Write) (rows : List Tuple) : Option Error :=
  if w.isUpdate ∧ 1 < (w.rows ++ rows).length then
    some (.unsupported (.updateRows (w.rows ++ rows).length))
  else none

/-- The rows that a call brings, unless it brings none. -/
def Step.rows : Step → List Tuple
  | .common _ => []
  | .addRows rows => rows
  | .addDocument document => (Tuple.allOfJson document).toOption.getD []

/-- The error of a call on a write. -/
def Step.failure? (w : Write) : Step → Option Error
  | .common step => step.failure? .closeBeforeWhere w.draft
  | .addRows rows => w.crowding? rows
  | .addDocument document => (failureOf (Tuple.allOfJson document)).or
      (w.crowding? (Step.addDocument document).rows)

/-- Whether the step is one call. -/
def Step.isSingle : Step → Bool
  | .common step => step.isSingle
  | _ => true

/-- The step call by call. -/
def Step.singles : Step → List Step
  | .common step => step.singles.map .common
  | step => [step]

end Write

/-- The error of a call on a delete. -/
def Delete.Step.failure? (r : Delete) : Step → Option Error
  | .common step => step.failure? .closeBeforeWhere r.draft
  | .allowAll => none

/-- Whether the step is one call. -/
def Delete.Step.isSingle : Step → Bool
  | .common step => step.isSingle
  | .allowAll => true

/-- The step call by call. -/
def Delete.Step.singles : Step → List Step
  | .common step => step.singles.map .common
  | .allowAll => [.allowAll]

/-! ### Calls on a draft -/

namespace Draft

variable {d : Draft} {step : Step}

/-- A call that fails does nothing but record its error. -/
theorem apply_of_failure (hsingle : step.isSingle = true) {e : Error}
    (h : step.failure? .closeBeforeWhere d = some e) : d.apply step = d.record e := by
  cases step with
  | addSources names =>
    change d.addSources names = d.record e
    rw [addSources, failureOf_eq_some.mp h]
  | addCondition raw binding connective =>
    change d.addCondition raw binding connective = d.record e
    rw [addCondition, condition, failureOf_eq_some.mp h]
    rfl
  | addConditions pairs => cases hsingle
  | openBrackets n => cases h
  | closeBrackets n =>
    change d.closeBrackets n = d.record e
    -- It fails, so the chain is empty and nothing can be closed.
    unfold closeBrackets
    cases hwheres : d.wheres with
    | nil =>
      rw [Step.failure?, hwheres] at h
      cases h
      rfl
    | cons c cs =>
      rw [Step.failure?, hwheres] at h
      cases h

/-- A condition fails if its text cannot be read. -/
theorem error?_addCondition (raw : String) (binding : Binding) (connective : Connective) :
    (d.addCondition raw binding connective).error? =
      d.error?.or (failureOf (Comparison.read raw)) := by
  unfold addCondition condition
  cases Comparison.read raw with
  | ok comparison => exact (Option.or_none ..).symm
  | error e => rfl

/-- What a call does to the error of a draft. -/
theorem error?_apply (d : Draft) (step : Step) :
    (d.apply step).error? = d.error?.or (step.failure? .closeBeforeWhere d) := by
  cases step with
  | addSources names =>
    change (d.addSources names).error? = d.error?.or (failureOf (names.read .source))
    unfold addSources
    cases names.read .source with
    | ok sources => exact (Option.or_none ..).symm
    | error e => rfl
  | addCondition raw binding connective => exact error?_addCondition raw binding connective
  -- By induction on the conditions: the error of the first that fails stands before those of the
  -- others.
  | addConditions pairs =>
    induction pairs generalizing d with
    | nil => exact (Option.or_none ..).symm
    | cons pair pairs ih =>
      obtain ⟨raw, binding⟩ := pair
      have hrest := ih (d.addCondition raw binding .and)
      rw [error?_addCondition, Option.or_assoc] at hrest
      refine hrest.trans (congrArg d.error?.or ?_)
      rw [Step.failure?, Step.failure?, List.findSome?_cons]
      dsimp only
      cases failureOf (Comparison.read raw) <;> rfl
  | openBrackets n => exact (Option.or_none ..).symm
  -- Whether it is stray depends on whether there is a last condition.
  | closeBrackets n =>
    rcases List.eq_nil_or_concat' d.wheres with hwheres | ⟨cs, c, hwheres⟩
    · change (d.closeBrackets n).error? = _
      rw [closeBrackets, Step.failure?, hwheres]
      rfl
    · have hnone : (Step.closeBrackets n).failure? .closeBeforeWhere d = none := by
        rw [Step.failure?, hwheres]
        cases cs <;> rfl
      change (d.closeBrackets n).error? = _
      rw [closeBrackets, hnone, hwheres, closeLast?_concat]
      exact (Option.or_none ..).symm

/-- A draft in which a close finds a condition, or which is not closed, says how it fails whatever
a stray close is. -/
theorem failure?_eq {step : Step} (h : ∀ n, step = .closeBrackets n → d.wheres ≠ [])
    (stray other : Misuse) : step.failure? stray d = step.failure? other d := by
  cases step with
  | closeBrackets n =>
    obtain ⟨c, cs, hwheres⟩ := List.exists_cons_of_ne_nil (h n rfl)
    rw [Step.failure?, Step.failure?, hwheres]
    rfl
  | _ => rfl

end Draft

/-! ### Calls on a select -/

namespace Select

variable {s : Select}

/-- A call that every statement takes does nothing but record its error, if it fails. -/
theorem applyCommon_of_failure {step : Draft.Step} (hsingle : step.isSingle = true) {e : Error}
    (h : step.failure? s.strayClose s.focus = some e) : s.applyCommon step = s.record e := by
  -- Again only a stray close is not a call on the focus.
  rcases s.applyCommon_cases step with ⟨n, rfl, hwheres⟩ | hclose
  · rw [Draft.Step.failure?, hwheres] at h
    obtain rfl := Option.some.inj h
    exact closeBrackets_of_nil hwheres n
  · rw [Draft.failure?_eq hclose _ .closeBeforeWhere] at h
    rw [applyCommon_eq_refocus hclose, Draft.apply_of_failure hsingle h, record_eq_refocus]

/-- What a call that every statement takes does to the error of a select. -/
theorem error?_applyCommon (s : Select) (step : Draft.Step) :
    (s.applyCommon step).draft.error? =
      s.draft.error?.or (step.failure? s.strayClose s.focus) := by
  -- A stray close is worded by the select, and every other call by the focus.
  rcases s.applyCommon_cases step with ⟨n, rfl, hwheres⟩ | hclose
  · rw [Draft.Step.failure?, hwheres, applyCommon, closeBrackets_of_nil hwheres]
    rfl
  · rw [applyCommon_eq_refocus hclose, error?_refocus, Draft.error?_apply, error?_focus,
      Draft.failure?_eq hclose s.strayClose .closeBeforeWhere]

/-- A call that fails does nothing but record its error. -/
theorem apply_of_failure {step : Step} (hsingle : step.isSingle = true) {e : Error}
    (h : step.failure? s = some e) : s.apply step = s.record e := by
  cases step with
  | common step => exact applyCommon_of_failure hsingle h
  | addFields names =>
    change s.addFields names = s.record e
    rw [addFields, failureOf_eq_some.mp h]
  | addJoin raw kind =>
    change s.addJoin raw kind = s.record e
    rw [addJoin, failureOf_eq_some.mp h]
  | addOn raw binding connective =>
    change s.addOn raw binding connective = s.record e
    rw [Step.failure?] at h
    by_cases hjoin : s.inJoin = true
    · rw [if_pos hjoin] at h
      rw [addOn_of_inJoin hjoin]
      exact applyCommon_of_failure rfl h
    · rw [if_neg hjoin] at h
      rw [addOn_of_not_inJoin hjoin, Option.some.inj h]
  | setDistinct | setWindow | setPage | sortBy | groupBy => cases h

/-- What a call does to the error of a select. -/
theorem error?_apply (s : Select) (step : Step) :
    (s.apply step).draft.error? = s.draft.error?.or (step.failure? s) := by
  cases step with
  | common step => exact s.error?_applyCommon step
  | addFields names =>
    change (s.addFields names).draft.error? = s.draft.error?.or (failureOf (names.read .field))
    unfold addFields
    cases names.read .field with
    | ok fields => exact (Option.or_none ..).symm
    | error e => rfl
  | addJoin raw kind =>
    change (s.addJoin raw kind).draft.error? =
      s.draft.error?.or (failureOf (Aliased.read .source raw))
    unfold addJoin
    cases Aliased.read .source raw with
    | ok source => exact (Option.or_none ..).symm
    | error e => rfl
  | addOn raw binding connective =>
    change (s.addOn raw binding connective).draft.error? = _
    rw [Step.failure?]
    by_cases hjoin : s.inJoin = true
    · rw [if_pos hjoin, addOn_of_inJoin hjoin, error?_applyCommon]
      rfl
    · rw [if_neg hjoin, addOn_of_not_inJoin hjoin]
      rfl
  | setDistinct | setWindow | setPage | sortBy | groupBy => exact (Option.or_none ..).symm

end Select

/-! ### Calls on a write or a delete -/

namespace Write

variable {w : Write}

/-- Rows that are too many for an update are kept, and the error is recorded behind them. -/
theorem addRows_of_crowding {rows : List Tuple} {e : Error} (h : w.crowding? rows = some e) :
    w.addRows rows = record { w with rows := w.rows ++ rows } e := by
  unfold crowding? at h
  split at h
  · next hrows =>
    obtain rfl := Option.some.inj h
    exact if_pos hrows
  · cases h

/-- Rows fail only by being too many for an update. -/
theorem error?_addRows (w : Write) (rows : List Tuple) :
    (w.addRows rows).draft.error? = w.draft.error?.or (w.crowding? rows) := by
  cases h : w.crowding? rows with
  | some e =>
    rw [addRows_of_crowding h]
    rfl
  -- There is no crowd, so the rows are added and nothing is recorded.
  | none =>
    unfold crowding? at h
    split at h
    · cases h
    · next hrows =>
      have hkept : w.addRows rows = { w with rows := w.rows ++ rows } := if_neg hrows
      rw [hkept, Option.or_none]

/-- A call that fails does nothing but record its error, unless it brings rows that are too many
for an update. Those are kept. -/
theorem apply_of_failure {step : Step} (hsingle : step.isSingle = true) {e : Error}
    (h : step.failure? w = some e) :
    w.apply step = w.record e ∨
      ∃ rows, (step = .addRows rows ∨
          ∃ document, step = .addDocument document ∧ Tuple.allOfJson document = .ok rows) ∧
        w.crowding? rows = some e ∧ w.apply step = record { w with rows := w.rows ++ rows } e := by
  cases step with
  | common step =>
    refine .inl ?_
    rw [apply, Draft.apply_of_failure hsingle h]
    rfl
  | addRows rows => exact .inr ⟨rows, .inl rfl, h, addRows_of_crowding h⟩
  | addDocument document =>
    cases hread : Tuple.allOfJson document with
    | error e' =>
      rw [Step.failure?, hread] at h
      obtain rfl := Option.some.inj h
      refine .inl ?_
      rw [apply, addDocument, hread]
    | ok rows =>
      rw [Step.failure?, Step.rows, hread] at h
      refine .inr ⟨rows, .inr ⟨document, rfl, hread⟩, h, ?_⟩
      rw [apply, addDocument, hread]
      exact addRows_of_crowding h

/-- What a call does to the error of a write. -/
theorem error?_apply (w : Write) (step : Step) :
    (w.apply step).draft.error? = w.draft.error?.or (step.failure? w) := by
  cases step with
  | common step => exact w.draft.error?_apply step
  | addRows rows => exact w.error?_addRows rows
  | addDocument document =>
    rw [apply, addDocument, Step.failure?, Step.rows]
    cases Tuple.allOfJson document with
    | ok rows => exact w.error?_addRows rows
    | error e => rfl

end Write

namespace Delete

variable {r : Delete}

/-- A call that fails does nothing but record its error. -/
theorem apply_of_failure {step : Step} (hsingle : step.isSingle = true) {e : Error}
    (h : step.failure? r = some e) : r.apply step = { r with draft := r.draft.record e } := by
  cases step with
  | common step => rw [apply, Draft.apply_of_failure hsingle h]
  | allowAll => cases h

/-- What a call does to the error of a delete. -/
theorem error?_apply (r : Delete) (step : Step) :
    (r.apply step).draft.error? = r.draft.error?.or (step.failure? r) := by
  cases step with
  | common step => exact r.draft.error?_apply step
  | allowAll => exact (Option.or_none ..).symm

end Delete

/-! ### Lists with a bad member -/

/-- Of names of which one cannot be read none is read. -/
theorem Aliased.exists_error_readAll {form : Form} {raws : List String} {raw : String}
    (hraw : raw ∈ raws) {e : Error} (he : read form raw = .error e) :
    ∃ e', readAll form raws = .error e' := by
  induction raws with
  | nil => cases hraw
  | cons first raws ih =>
    rw [readAll]
    cases hfirst : read form first with
    | error e' => exact ⟨e', rfl⟩
    | ok x =>
      -- The bad name is the first one, which was read, or it is behind it.
      rcases List.mem_cons.mp hraw with rfl | hraw
      · cases he.symm.trans hfirst
      · obtain ⟨e', hrest⟩ := ih hraw
        exact ⟨e', by rw [hrest]; rfl⟩

/-- Of rows of which one cannot be read none is read. -/
theorem Tuple.exists_error_ofItems {items : List Json} {item : Json} (hitem : item ∈ items)
    {e : Error} (he : ofJson item = .error e) : ∃ e', ofItems items = .error e' := by
  induction items with
  | nil => cases hitem
  | cons first items ih =>
    rw [ofItems]
    cases hfirst : ofJson first with
    | error e' => exact ⟨e', rfl⟩
    | ok t =>
      rcases List.mem_cons.mp hitem with rfl | hitem
      · cases he.symm.trans hfirst
      · obtain ⟨e', hrest⟩ := ih hitem
        exact ⟨e', by rw [hrest]; rfl⟩

/-! ### Sequences of calls -/

section

variable {σ Step : Type} {apply : σ → Step → σ} {failure? : σ → Step → Option Error}

/-- The errors of the calls that fail, in the order of the calls. -/
def failuresFrom (apply : σ → Step → σ) (failure? : σ → Step → Option Error) :
    σ → List Step → List Error
  | _, [] => []
  | s, step :: steps => (failure? s step).toList ++ failuresFrom apply failure? (apply s step) steps

/-- The error after any number of calls, given what one of them does to it: the one there was, or
that of the first call that fails. -/
theorem error?_foldl (error? : σ → Option Error)
    (happly : ∀ s step, error? (apply s step) = (error? s).or (failure? s step)) (s : σ)
    (steps : List Step) :
    error? (steps.foldl apply s) = (error? s).or (failuresFrom apply failure? s steps).head? := by
  induction steps generalizing s with
  | nil => exact (Option.or_none ..).symm
  | cons step steps ih =>
    rw [List.foldl_cons, ih, happly, Option.or_assoc, failuresFrom]
    -- A call that fails is at the head of the failures, and one that does not is not among them.
    cases failure? s step <;> rfl

/-- If there is no error after some calls, the first of them did not fail. -/
theorem failure?_of_error?_foldl (error? : σ → Option Error)
    (happly : ∀ s step, error? (apply s step) = (error? s).or (failure? s step)) {s : σ}
    {step : Step} {steps : List Step} (h : error? ((step :: steps).foldl apply s) = none) :
    failure? s step = none := by
  -- An error would have stayed, so there was none after the first call either.
  rw [List.foldl_cons, error?_foldl error? happly, Option.or_eq_none_iff, happly,
    Option.or_eq_none_iff] at h
  exact h.1.2

/-- An error stays what it is. -/
theorem error?_foldl_append (error? : σ → Option Error)
    (happly : ∀ s step, error? (apply s step) = (error? s).or (failure? s step)) {s : σ}
    {steps : List Step} {e : Error} (h : error? (steps.foldl apply s) = some e)
    (more : List Step) : error? ((steps ++ more).foldl apply s) = some e := by
  rw [List.foldl_append, error?_foldl error? happly, h]
  rfl

/-- Steps that are other steps one behind the other. -/
theorem foldl_flatMap_singles {singles : Step → List Step}
    (hsingles : ∀ s step, (singles step).foldl apply s = apply s step) (s : σ)
    (steps : List Step) : (steps.flatMap singles).foldl apply s = steps.foldl apply s := by
  rw [List.foldl_flatMap]
  exact congrArg (fun f => steps.foldl f s) (funext fun s => funext fun step => hsingles s step)

end

/-- Several conditions given at once are what they are one by one. -/
theorem Draft.foldl_singles (d : Draft) (step : Step) :
    step.singles.foldl apply d = d.apply step := by
  cases step with
  | addConditions pairs => exact List.foldl_map
  | _ => rfl

theorem Select.foldl_singles (s : Select) (step : Step) :
    step.singles.foldl apply s = s.apply step := by
  cases step with
  | common step =>
    cases step with
    | addConditions pairs =>
      rw [Step.singles, Draft.Step.singles, List.foldl_map, List.foldl_map]
      rfl
    | _ => rfl
  | _ => rfl

theorem Write.foldl_singles (w : Write) (step : Step) :
    step.singles.foldl apply w = w.apply step := by
  cases step with
  | common step =>
    have hdraft (steps : List Draft.Step) (w : Write) : (steps.map .common).foldl apply w =
        { w with draft := steps.foldl Draft.apply w.draft } := by
      induction steps generalizing w with
      | nil => rfl
      | cons step steps ih => exact ih _
    rw [Step.singles, hdraft, Draft.foldl_singles]
    rfl
  | _ => rfl

theorem Delete.foldl_singles (r : Delete) (step : Step) :
    step.singles.foldl apply r = r.apply step := by
  cases step with
  | common step =>
    have hdraft (steps : List Draft.Step) (r : Delete) : (steps.map .common).foldl apply r =
        { r with draft := steps.foldl Draft.apply r.draft } := by
      induction steps generalizing r with
      | nil => rfl
      | cons step steps ih => exact ih _
    rw [Step.singles, hdraft, Draft.foldl_singles]
    rfl
  | allowAll => rfl

namespace Calls

/-- The calls one by one. -/
def singles : Calls → Calls
  | .select steps => .select (steps.flatMap Select.Step.singles)
  | .write steps => .write (steps.flatMap Write.Step.singles)
  | .delete steps => .delete (steps.flatMap Delete.Step.singles)

/-- Calls one by one build what they build together. -/
theorem build_singles (calls : Calls) : calls.singles.build = calls.build := by
  cases calls with
  | select steps =>
    exact congrArg Statement.select (foldl_flatMap_singles Select.foldl_singles .empty steps)
  | write steps =>
    exact congrArg Statement.write (foldl_flatMap_singles Write.foldl_singles {} steps)
  | delete steps =>
    exact congrArg Statement.delete (foldl_flatMap_singles Delete.foldl_singles {} steps)

/-- The errors of the calls that fail, in the order of the calls. -/
def failures : Calls → List Error
  | .select steps => failuresFrom Select.apply (fun s step => step.failure? s) .empty steps
  | .write steps => failuresFrom Write.apply (fun w step => step.failure? w) {} steps
  | .delete steps => failuresFrom Delete.apply (fun r step => step.failure? r) {} steps

/-- Whether the others begin with these calls. -/
def IsPrefix : Calls → Calls → Prop
  | .select steps, .select others => steps <+: others
  | .write steps, .write others => steps <+: others
  | .delete steps, .delete others => steps <+: others
  | _, _ => False

/-- The error of a statement is that of the first call that failed. -/
theorem error?_build (calls : Calls) : calls.build.draft.error? = calls.failures.head? := by
  cases calls with
  | select steps =>
    exact error?_foldl (fun s : Select => s.draft.error?) Select.error?_apply .empty steps
  | write steps =>
    exact error?_foldl (fun w : Write => w.draft.error?) Write.error?_apply {} steps
  | delete steps =>
    exact error?_foldl (fun r : Delete => r.draft.error?) Delete.error?_apply {} steps

/-- The error of a statement stays what it is, whatever is called later. -/
theorem error?_of_isPrefix {calls others : Calls} (h : calls.IsPrefix others) {e : Error}
    (he : calls.build.draft.error? = some e) : others.build.draft.error? = some e := by
  cases calls with
  | select steps =>
    cases others with
    | select more =>
      obtain ⟨rest, rfl⟩ := h
      exact error?_foldl_append (fun s : Select => s.draft.error?) Select.error?_apply he rest
    | write | delete => exact h.elim
  | write steps =>
    cases others with
    | write more =>
      obtain ⟨rest, rfl⟩ := h
      exact error?_foldl_append (fun w : Write => w.draft.error?) Write.error?_apply he rest
    | select | delete => exact h.elim
  | delete steps =>
    cases others with
    | delete more =>
      obtain ⟨rest, rfl⟩ := h
      exact error?_foldl_append (fun r : Delete => r.draft.error?) Delete.error?_apply he rest
    | select | write => exact h.elim

end Calls

/-- A statement with an error compiles to it. -/
theorem Statement.compile_of_error? {s : Statement} {e : Error} (h : s.draft.error? = some e)
    (d : Dialect) : s.compile d = .error e := by
  cases s with
  | select s =>
    change s.draft.error? = some e at h
    change s.compile d = .error e
    rw [Select.compile_eq, h]
    rfl
  | write w =>
    change w.draft.error? = some e at h
    change w.compile d = .error e
    rw [Write.compile, h]
    rfl
  | delete r =>
    change r.draft.error? = some e at h
    change r.compile d = .error e
    rw [Delete.compile, h]
    rfl

/-- **The first error sticks, and calls that fail do nothing else.** The error of a statement is
that of the first call that failed, where several conditions given at once are as many calls; later
calls do not change it, and the statement compiles to it in every dialect. A call that fails leaves
everything but the error as it was; only rows that are too many for an update are kept. In
particular, of names or rows of which one is bad none is added. -/
theorem Calls.first_failure :
    (∀ calls : Calls, calls.singles.build = calls.build ∧
      calls.build.draft.error? = calls.singles.failures.head? ∧
      ∀ e, calls.build.draft.error? = some e →
        (∀ others, calls.IsPrefix others → others.build.draft.error? = some e) ∧
          ∀ d, calls.build.compile d = .error e) ∧
    (∀ (s : Select) (step : Select.Step) (e : Error), step.isSingle = true →
      step.failure? s = some e →
        s.apply step =
          { s with draft := { s.draft with error? := s.draft.error?.or (some e) } }) ∧
    (∀ (w : Write) (step : Write.Step) (e : Error), step.isSingle = true →
      step.failure? w = some e →
        w.apply step = { w with draft := { w.draft with error? := w.draft.error?.or (some e) } } ∨
          ∃ rows, (step = .addRows rows ∨
              ∃ document, step = .addDocument document ∧ Tuple.allOfJson document = .ok rows) ∧
            w.isUpdate = true ∧ 1 < (w.rows ++ rows).length ∧
            e = .unsupported (.updateRows (w.rows ++ rows).length) ∧
            w.apply step =
              { draft := { w.draft with error? := w.draft.error?.or (some e) }
                rows := w.rows ++ rows }) ∧
    (∀ (r : Delete) (step : Delete.Step) (e : Error), step.isSingle = true →
      step.failure? r = some e →
        r.apply step =
          { r with draft := { r.draft with error? := r.draft.error?.or (some e) } }) ∧
    (∀ (raws : List String) (raw : String) (e : Error), raw ∈ raws →
      (Aliased.read .source raw = .error e →
        ∀ d : Draft, (d.apply (.addSources (.texts raws))).sources = d.sources) ∧
      (Aliased.read .field raw = .error e →
        ∀ s : Select, (s.apply (.addFields (.texts raws))).fields = s.fields)) ∧
    ∀ (items : List Json) (item : Json) (e : Error), item ∈ items →
      Tuple.ofJson item = .error e →
        ∀ w : Write, (w.apply (.addDocument (.array items))).rows = w.rows := by
  -- First what holds of sequences of calls, then what one call does to each kind of statement, and
  -- at the end lists with a bad member.
  refine ⟨fun calls => ⟨calls.build_singles, ?_, fun e he => ⟨fun others hothers => ?_, ?_⟩⟩,
    fun s step e hsingle h => Select.apply_of_failure hsingle h, fun w step e hsingle h => ?_,
    fun r step e hsingle h => Delete.apply_of_failure hsingle h,
    fun raws raw e hraw => ⟨fun hread d => ?_, fun hread s => ?_⟩,
    fun items item e hitem hread w => ?_⟩
  -- Call by call, because one of several conditions may fail and the others not.
  · rw [← calls.build_singles]
    exact calls.singles.error?_build
  · exact error?_of_isPrefix hothers he
  · exact Statement.compile_of_error? he
  · rcases Write.apply_of_failure hsingle h with hatomic | ⟨rows, hstep, hcrowding, hkept⟩
    · exact .inl hatomic
    · unfold Write.crowding? at hcrowding
      split at hcrowding
      · next hrows =>
        exact .inr ⟨rows, hstep, hrows.1, hrows.2, (Option.some.inj hcrowding).symm, hkept⟩
      · cases hcrowding
  -- Reading the list fails as a whole, so the call does nothing but record it.
  · obtain ⟨e', he'⟩ := Aliased.exists_error_readAll hraw hread
    have hrecord : d.apply (.addSources (.texts raws)) = d.record e' :=
      Draft.apply_of_failure rfl (failureOf_eq_some.mpr he')
    rw [hrecord, Draft.sources_record]
  · obtain ⟨e', he'⟩ := Aliased.exists_error_readAll hraw hread
    have hrecord : s.apply (.addFields (.texts raws)) = s.record e' :=
      Select.apply_of_failure rfl (failureOf_eq_some.mpr he')
    rw [hrecord]
    rfl
  · obtain ⟨e', he'⟩ := Tuple.exists_error_ofItems hitem hread
    rw [Write.apply, Write.addDocument, Tuple.allOfJson, he']
    rfl

/-- A select with two brackets to open. -/
def opened : Select :=
  .build [.common (.openBrackets 2)]

/-- Calls of which three fail: the second of two conditions, a source and a condition of a join. -/
def looseCalls : Calls :=
  .select [
    .common (.openBrackets 2),
    .common (.addConditions [("a", .value .null), ("b  =", .value .null)]),
    .common (.addSources (.texts ["t", "u as v"])),
    .addOn "c" (.value .null) .and,
    .common (.closeBrackets 2)]

/-- An update of one row. -/
def oneRowUpdate : Write :=
  .build [.common (.addCondition "a" (.value .null) .and), .addRows [.ofList [("b", .null)]]]

theorem Calls.first_failure_loose :
    looseCalls.singles.failures = [.malformed "b  =" .looseSpaces,
        .malformed "u as v" (.tooManyTokens .source), .structural (.onBeforeJoin "c")] ∧
      looseCalls.build.draft.error? = some (.malformed "b  =" .looseSpaces) ∧
      (∀ d, looseCalls.build.compile d = .error (.malformed "b  =" .looseSpaces)) ∧
      (opened.apply (.common (.addCondition "b  =" (.value .null) .and))).draft.pending = 2 ∧
      (oneRowUpdate.apply (.addRows [.empty])).rows.length = 2 ∧
      (oneRowUpdate.apply (.addDocument (.array [.object [], .null]))).rows =
        oneRowUpdate.rows := by
  obtain ⟨hcalls, hselect, hwrite, -, -, hitems⟩ := Calls.first_failure
  have hfailures : looseCalls.singles.failures = [.malformed "b  =" .looseSpaces,
      .malformed "u as v" (.tooManyTokens .source), .structural (.onBeforeJoin "c")] := rfl
  obtain ⟨-, herror, hstays⟩ := hcalls looseCalls
  rw [hfailures] at herror
  refine ⟨hfailures, herror, (hstays _ herror).2, ?_, ?_, ?_⟩
  · rw [hselect opened (.common (.addCondition "b  =" (.value .null) .and))
      (.malformed "b  =" .looseSpaces) rfl rfl]
    rfl
  · rcases hwrite oneRowUpdate (.addRows [.empty]) (.unsupported (.updateRows 2)) rfl rfl with
      hsame | ⟨rows, hstep, -, -, -, hkept⟩
    · exact absurd (congrArg (·.rows.length) hsame) (by decide)
    · rcases hstep with hstep | ⟨document, hstep, -⟩
      · rw [hkept, ← Write.Step.addRows.inj hstep]
        rfl
      · cases hstep
  · exact hitems [.object [], .null] .null _ (List.mem_cons_of_mem _ List.mem_cons_self) rfl _

end SqlBuilder
