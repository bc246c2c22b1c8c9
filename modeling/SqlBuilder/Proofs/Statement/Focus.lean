import Mathlib.Data.List.Basic
import SqlBuilder.Statement.Delete
import SqlBuilder.Statement.Select
import SqlBuilder.Statement.Write

/-!
# The chain being written

Conditions and brackets go to one chain at a time. In a write or a delete it is the WHERE chain; in
a select it is the ON chain of the last join, once there is one. The **focus** of a statement is a
draft whose WHERE chain is the chain being written and which has everything else of the statement's
own draft; `refocus` puts such a draft back in its place and leaves all other chains alone.

Main statement: a call that every statement takes does to the focus what it does to a draft
(`Statement.applyCommon_eq_refocus`), so it is enough to know the calls on drafts. The one exception
is a close on a chain without conditions, which records an error whose wording tells WHERE from ON
(`Statement.closeBrackets_of_nil`).
-/

namespace SqlBuilder

/-! ### Selects -/

namespace Select

/-- The chains of a select itself: the WHERE chain, and the ON chain of each join. -/
def chains (s : Select) : List (List Condition) :=
  s.draft.wheres :: s.joins.map Join.conditions

/-- The chains of a select to which nothing is added any more. -/
def writtenChains (s : Select) : List (List Condition) :=
  s.chains.dropLast

/-- The select as a draft whose WHERE chain is the chain being written. -/
def focus (s : Select) : Draft :=
  match s.joins.getLast? with
  | none => s.draft
  | some j => { s.draft with wheres := j.conditions }

/-- The select whose focus is the given draft. -/
def refocus (s : Select) (d : Draft) : Select :=
  if s.inJoin then
    { s with
      joins := mapLast (fun j => { j with conditions := d.wheres }) s.joins
      draft := { d with wheres := s.draft.wheres } }
  else { s with draft := d }

/-- What is wrong with a close on a chain without conditions. -/
def strayClose (s : Select) : Misuse :=
  if s.inJoin then .closeBeforeOn else .closeBeforeWhere

/-! ### The focus put back -/

section

variable {draft : Draft} {fields : List Aliased} {distinct : Bool} {js : List Join} {j : Join}
  {window? : Option Window} {sorts : List (String × Direction)} {groups : List String}

theorem inJoin_concat :
    inJoin ⟨draft, fields, distinct, js ++ [j], window?, sorts, groups⟩ = true := by
  simp [inJoin]

theorem focus_concat : focus ⟨draft, fields, distinct, js ++ [j], window?, sorts, groups⟩ =
    { draft with wheres := j.conditions } := by
  rw [focus, List.getLast?_concat]

theorem refocus_concat (d : Draft) :
    refocus ⟨draft, fields, distinct, js ++ [j], window?, sorts, groups⟩ d =
      ⟨{ d with wheres := draft.wheres }, fields, distinct,
        js ++ [{ j with conditions := d.wheres }], window?, sorts, groups⟩ := by
  rw [refocus, if_pos inJoin_concat, mapLast_concat]

end

/-- A select has no join, or one of them is the last. -/
theorem joins_cases {p : Select → Prop}
    (alone : ∀ draft fields distinct window? sorts groups,
      p ⟨draft, fields, distinct, [], window?, sorts, groups⟩)
    (joined : ∀ draft fields distinct js j window? sorts groups,
      p ⟨draft, fields, distinct, js ++ [j], window?, sorts, groups⟩) (s : Select) : p s := by
  rcases s with ⟨draft, fields, distinct, joins, window?, sorts, groups⟩
  -- The list of joins is taken apart from its end, because the last one is the one that counts.
  rcases List.eq_nil_or_concat' joins with rfl | ⟨js, j, rfl⟩
  · exact alone ..
  · exact joined ..

/-- What is put back is what is found again. -/
theorem focus_refocus (s : Select) (d : Draft) : (s.refocus d).focus = d := by
  cases s using joins_cases with
  | alone => rfl
  | joined =>
    rw [refocus_concat, focus_concat]
    cases d
    rfl

/-- Of two drafts that are put back, the second one counts. -/
theorem refocus_refocus (s : Select) (d e : Draft) : (s.refocus d).refocus e = s.refocus e := by
  cases s using joins_cases with
  | alone => rfl
  | joined => rw [refocus_concat, refocus_concat, refocus_concat]

/-- The focus put back changes nothing. -/
theorem refocus_focus (s : Select) : s.refocus s.focus = s := by
  cases s using joins_cases with
  | alone => rfl
  | joined draft _ _ _ j =>
    rw [refocus_concat, focus_concat]
    cases draft
    cases j
    rfl

/-- Brackets wait for the next condition wherever it goes, so the focus has those of the
statement. -/
theorem pending_focus (s : Select) : s.focus.pending = s.draft.pending := by
  cases s using joins_cases with
  | alone => rfl
  | joined => rw [focus_concat]

/-- An error belongs to the statement and not to a chain, so the focus has that of the statement. -/
theorem error?_focus (s : Select) : s.focus.error? = s.draft.error? := by
  cases s using joins_cases with
  | alone => rfl
  | joined => rw [focus_concat]

theorem error?_refocus (s : Select) (d : Draft) : (s.refocus d).draft.error? = d.error? := by
  rw [← error?_focus, focus_refocus]

/-- The chain being written is the last one. -/
theorem chains_eq (s : Select) : s.chains = s.writtenChains ++ [s.focus.wheres] := by
  cases s using joins_cases with
  | alone => rfl
  | joined =>
    rw [writtenChains, chains, focus_concat, List.map_append, ← List.cons_append,
      List.map_singleton, List.dropLast_concat]

/-- Writing on the last chain leaves the others alone. -/
theorem writtenChains_refocus (s : Select) (d : Draft) :
    (s.refocus d).writtenChains = s.writtenChains := by
  cases s using joins_cases with
  | alone => rfl
  | joined =>
    rw [refocus_concat, writtenChains, writtenChains, chains, chains, List.map_append,
      List.map_append, ← List.cons_append, ← List.cons_append, List.map_singleton,
      List.map_singleton, List.dropLast_concat, List.dropLast_concat]

/-- A join leaves all chains as they are, and begins one of its own. -/
theorem writtenChains_addJoin (s : Select) (source : Aliased) (kind : JoinKind) :
    writtenChains { s with joins := s.joins ++ [⟨source, kind, []⟩] } = s.chains := by
  rw [writtenChains, chains, chains, List.map_append, ← List.cons_append, List.map_singleton,
    List.dropLast_concat]

/-! ### Calls on the focus -/

theorem record_eq_refocus (s : Select) (e : Error) : s.record e = s.refocus (s.focus.record e) := by
  cases s using joins_cases with
  | alone => rfl
  | joined _ _ _ _ j =>
    rw [refocus_concat, focus_concat]
    cases j
    rfl

/-- Once there is a join, an ON condition is added to the focus. -/
theorem addOn_eq_refocus {s : Select} (h : s.joins ≠ []) (raw : String) (binding : Binding)
    (connective : Connective) :
    s.addOn raw binding connective = s.refocus (s.focus.addCondition raw binding connective) := by
  obtain ⟨first, rest, hjoins⟩ := List.exists_cons_of_ne_nil h
  -- The condition that is added depends on the pending brackets only, which both drafts share.
  have hcondition :
      s.focus.condition raw binding connective = s.draft.condition raw binding connective := by
    rw [Draft.condition, Draft.condition, pending_focus]
  unfold addOn Draft.addCondition
  rw [hcondition, hjoins]
  cases s.draft.condition raw binding connective with
  | error e => exact record_eq_refocus s e
  | ok c =>
    dsimp only
    rw [← hjoins]
    -- Now the select is taken apart at its last join.
    clear hcondition hjoins
    cases s using joins_cases with
    | alone => exact absurd rfl h
    | joined => rw [refocus_concat, focus_concat, mapLast_concat]

/-- A condition goes to the WHERE chain without a join and to the last join with one. Either way it
is added to the focus. -/
theorem addCondition_eq_refocus (s : Select) (raw : String) (binding : Binding)
    (connective : Connective) :
    s.addCondition raw binding connective =
      s.refocus (s.focus.addCondition raw binding connective) := by
  cases s using joins_cases with
  | alone => rfl
  | joined _ _ _ js j =>
    have hne : js ++ [j] ≠ [] := List.append_ne_nil_of_right_ne_nil js (List.cons_ne_nil j [])
    rw [addCondition_eq_addOn hne, addOn_eq_refocus hne]

/-- Several conditions go to the focus one by one. -/
theorem addConditions_eq_refocus (s : Select) (pairs : List (String × Binding)) :
    pairs.foldl (fun s (raw, binding) => s.addCondition raw binding .and) s =
      s.refocus
        (pairs.foldl (fun d (raw, binding) => d.addCondition raw binding .and) s.focus) := by
  induction pairs generalizing s with
  | nil => exact s.refocus_focus.symm
  | cons pair pairs ih =>
    -- Each of the conditions is put back before the next one is added.
    obtain ⟨raw, binding⟩ := pair
    rw [List.foldl_cons, ih, List.foldl_cons]
    dsimp only
    rw [addCondition_eq_refocus, focus_refocus, refocus_refocus]

theorem addSources_eq_refocus (s : Select) (names : Names) :
    s.withDraft (·.addSources names) = s.refocus (s.focus.addSources names) := by
  -- The sources are the statement's own, whichever chain is being written.
  cases s using joins_cases with
  | alone => rfl
  | joined _ _ _ _ j =>
    rw [refocus_concat, focus_concat, withDraft, Draft.addSources, Draft.addSources]
    cases j
    cases names.read .source <;> rfl

theorem openBrackets_eq_refocus (s : Select) (n : Nat) :
    s.withDraft (·.openBrackets n) = s.refocus (s.focus.openBrackets n) := by
  cases s using joins_cases with
  | alone => rfl
  | joined _ _ _ _ j =>
    rw [refocus_concat, focus_concat]
    cases j
    rfl

/-- Brackets are closed in the focus, if there is a condition to close them behind. -/
theorem closeBrackets_eq_refocus {s : Select} (h : s.focus.wheres ≠ []) (n : Nat) :
    s.closeBrackets n = s.refocus (s.focus.closeBrackets n) := by
  cases s using joins_cases with
  | alone => rfl
  | joined draft _ _ _ j =>
    -- There is a last condition, so no error is recorded on either side.
    rw [focus_concat] at h
    obtain ⟨cs, c, hcs⟩ := (List.eq_nil_or_concat' j.conditions).resolve_left h
    rw [refocus_concat, focus_concat, closeBrackets, List.getLast?_concat, Draft.closeBrackets]
    dsimp only
    rw [hcs, closeLast?_concat]
    dsimp only
    rw [mapLast_concat]
    cases draft
    rfl

/-- A stray close is recorded, in the words of the chain that it was meant for. -/
theorem closeBrackets_of_nil {s : Select} (h : s.focus.wheres = []) (n : Nat) :
    s.closeBrackets n = s.record (.structural s.strayClose) := by
  cases s using joins_cases with
  | alone draft =>
    change draft.wheres = [] at h
    rw [record, closeBrackets, withDraft, withDraft]
    dsimp only [List.getLast?_nil]
    rw [Draft.closeBrackets, h]
    rfl
  | joined draft fields distinct js j window? sorts groups =>
    -- The last join has no condition, so no bracket of it can be closed.
    rw [focus_concat] at h
    rw [strayClose, if_pos inJoin_concat, closeBrackets, List.getLast?_concat]
    dsimp only at h ⊢
    rw [h]
    rfl

/-- Whether a close is stray, or the call is one on the focus. -/
theorem applyCommon_cases (s : Select) (step : Draft.Step) :
    (∃ n, step = .closeBrackets n ∧ s.focus.wheres = []) ∨
      (∀ n, step = .closeBrackets n → s.focus.wheres ≠ []) := by
  -- Only a close can be stray, and only where no condition is.
  by_cases hwheres : s.focus.wheres = []
  · cases step with
    | closeBrackets n => exact .inl ⟨n, rfl, hwheres⟩
    | _ => exact .inr fun _ => nofun
  · exact .inr fun _ _ => hwheres

/-- A call does to the focus what it does to a draft. -/
theorem applyCommon_eq_refocus {s : Select} {step : Draft.Step}
    (h : ∀ n, step = .closeBrackets n → s.focus.wheres ≠ []) :
    s.applyCommon step = s.refocus (s.focus.apply step) := by
  cases step with
  | addSources names => exact s.addSources_eq_refocus names
  | addCondition raw binding connective => exact s.addCondition_eq_refocus raw binding connective
  | addConditions pairs => exact s.addConditions_eq_refocus pairs
  | openBrackets n => exact s.openBrackets_eq_refocus n
  | closeBrackets n => exact closeBrackets_eq_refocus (h n rfl) n

/-- Once there is a join, an ON condition is a condition of the chain being written. -/
theorem addOn_of_inJoin {s : Select} (h : s.inJoin = true) (raw : String) (binding : Binding)
    (connective : Connective) :
    s.addOn raw binding connective = s.applyCommon (.addCondition raw binding connective) := by
  change _ = s.addCondition raw binding connective
  rw [addCondition, if_pos h]

/-- Without a join, an ON condition is recorded as an error. -/
theorem addOn_of_not_inJoin {s : Select} (h : ¬s.inJoin = true) (raw : String) (binding : Binding)
    (connective : Connective) :
    s.addOn raw binding connective = s.record (.structural (.onBeforeJoin raw)) := by
  have hjoins : s.joins = [] := by simpa [inJoin] using h
  rw [addOn, hjoins]

end Select

/-! ### Statements -/

namespace Statement

/-- The chains of a statement itself, those of the selects it is bound to left out. -/
def chains : Statement → List (List Condition)
  | .select s => s.chains
  | .write w => [w.draft.wheres]
  | .delete r => [r.draft.wheres]

/-- The chains of a statement to which nothing is added any more. -/
def writtenChains : Statement → List (List Condition)
  | .select s => s.writtenChains
  | .write _ => []
  | .delete _ => []

/-- The statement as a draft whose WHERE chain is the chain being written. -/
def focus : Statement → Draft
  | .select s => s.focus
  | .write w => w.draft
  | .delete r => r.draft

/-- The statement whose focus is the given draft. -/
def refocus : Statement → Draft → Statement
  | .select s, d => .select (s.refocus d)
  | .write w, d => .write { w with draft := d }
  | .delete r, d => .delete { r with draft := d }

/-- The statement after a call that every statement takes. -/
def applyCommon : Statement → Draft.Step → Statement
  | .select s, step => .select (s.applyCommon step)
  | .write w, step => .write (w.apply (.common step))
  | .delete r, step => .delete (r.apply (.common step))

/-- What is wrong with a close on a chain without conditions. -/
def strayClose : Statement → Misuse
  | .select s => s.strayClose
  | .write _ => .closeBeforeWhere
  | .delete _ => .closeBeforeWhere

/-- The statement with an error, unless there is one already. -/
def record (s : Statement) (e : Error) : Statement :=
  s.refocus (s.focus.record e)

@[simp] theorem focus_refocus (s : Statement) (d : Draft) : (s.refocus d).focus = d := by
  cases s with
  | select s => exact s.focus_refocus d
  | write w => rfl
  | delete r => rfl

@[simp] theorem refocus_refocus (s : Statement) (d e : Draft) :
    (s.refocus d).refocus e = s.refocus e := by
  cases s with
  | select s => exact congrArg select (s.refocus_refocus d e)
  | write w => rfl
  | delete r => rfl

@[simp] theorem refocus_focus (s : Statement) : s.refocus s.focus = s := by
  cases s with
  | select s => exact congrArg select s.refocus_focus
  | write w => rfl
  | delete r => rfl

theorem chains_eq (s : Statement) : s.chains = s.writtenChains ++ [s.focus.wheres] := by
  cases s with
  | select s => exact s.chains_eq
  | write w => rfl
  | delete r => rfl

/-- **Calls on the focus**: a call that every statement takes does to the focus what it does to a
draft, and everything else of the statement stays as it is. -/
theorem applyCommon_eq_refocus {s : Statement} {step : Draft.Step}
    (h : ∀ n, step = .closeBrackets n → s.focus.wheres ≠ []) :
    s.applyCommon step = s.refocus (s.focus.apply step) := by
  cases s with
  | select s => exact congrArg select (Select.applyCommon_eq_refocus h)
  | write w => rfl
  | delete r => rfl

/-- A close on a chain without conditions records that it is stray, and does nothing else. -/
theorem closeBrackets_of_nil {s : Statement} (h : s.focus.wheres = []) (n : Nat) :
    s.applyCommon (.closeBrackets n) = s.record (.structural s.strayClose) := by
  have hdraft {d : Draft} (hd : d.wheres = []) :
      d.closeBrackets n = d.record (.structural .closeBeforeWhere) := by
    rw [Draft.closeBrackets, hd]
    rfl
  cases s with
  | select s =>
    exact congrArg select ((Select.closeBrackets_of_nil h n).trans (s.record_eq_refocus _))
  | write w => exact congrArg (fun d => write { w with draft := d }) (hdraft h)
  | delete r => exact congrArg (fun d => delete { r with draft := d }) (hdraft h)

end Statement

end SqlBuilder
