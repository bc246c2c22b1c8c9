import SqlBuilder.Proofs.Statement.Focus

/-!
# The active join as an index

A select whose conditions go to a join can remember which one by its index in the list of joins. A
condition or a close then reads the join at the index and puts it back, an ON condition takes the
last join without looking at the index, and a join that is added becomes the active one. An index
may be out of range, and then there is nothing to read (`Indexed.step?` has no result).

Main statement: the index is always that of the last join, so it is never out of range, and the
select is what it is without an index (`Indexed.build?_eq`).
-/

namespace SqlBuilder

/-- A select and the index of the join that conditions go to, if they go to one. -/
structure Indexed where
  select : Select
  active? : Option Nat

namespace Select

/-- The index of the last join, if there is one. -/
def lastJoin? (s : Select) : Option Nat :=
  if s.inJoin then some (s.joins.length - 1) else none

/-- The source and the kind of every join. -/
def heads (s : Select) : List (Aliased × JoinKind) :=
  s.joins.map fun j => (j.source, j.kind)

end Select

namespace Indexed

/-- Keep an error, unless there is one already. -/
def record (x : Indexed) (e : Error) : Indexed :=
  { x with select := x.select.record e }

/-- Change the conditions of the join at an index; nothing if there is none. -/
def modifyJoin? (x : Indexed) (i : Nat) (f : List Condition → List Condition) : Option Indexed :=
  x.select.joins[i]?.map fun j =>
    { x with
      select :=
        { x.select with joins := x.select.joins.set i { j with conditions := f j.conditions } } }

/-- Add a condition to the active join, or to the WHERE chain if there is none. -/
def addCondition? (x : Indexed) (raw : String) (binding : Binding) (connective : Connective) :
    Option Indexed :=
  match x.active? with
  | none => some { x with select := x.select.withDraft (·.addCondition raw binding connective) }
  | some i =>
    match x.select.draft.condition raw binding connective with
    | .ok c =>
      { x with select := x.select.withDraft ({ · with pending := 0 }) }.modifyJoin? i (· ++ [c])
    | .error e => some (x.record e)

/-- Close `n` brackets behind the last condition of the active join, or of the WHERE chain. -/
def closeBrackets? (x : Indexed) (n : Nat) : Option Indexed :=
  match x.active? with
  | none => some { x with select := x.select.withDraft (·.closeBrackets n) }
  | some i =>
    x.select.joins[i]?.bind fun j =>
      match closeLast? n j.conditions with
      | some conditions => x.modifyJoin? i fun _ => conditions
      | none => some (x.record (.structural .closeBeforeOn))

/-- Join a source and make it the active one. -/
def addJoin (x : Indexed) (raw : String) (kind : JoinKind) : Indexed :=
  match Aliased.read .source raw with
  | .error e => x.record e
  | .ok source =>
    let joins := x.select.joins ++ [⟨source, kind, []⟩]
    ⟨{ x.select with joins }, some (joins.length - 1)⟩

/-- The select and its index after a call, unless the index is out of range. Calls that neither
look for the active join nor make one leave the index alone. -/
def step? (x : Indexed) : Select.Step → Option Indexed
  | .common (.addCondition raw binding connective) => x.addCondition? raw binding connective
  | .common (.addConditions pairs) =>
    pairs.foldlM (fun x (raw, binding) => x.addCondition? raw binding .and) x
  | .common (.closeBrackets n) => x.closeBrackets? n
  | .addJoin raw kind => some (x.addJoin raw kind)
  | step => some { x with select := x.select.apply step }

/-- What a sequence of calls builds, unless the index is ever out of range. -/
def build? (steps : List Select.Step) : Option Indexed :=
  steps.foldlM step? ⟨.empty, none⟩

/-- A select whose index is that of the last join. -/
def ofSelect (s : Select) : Indexed :=
  ⟨s, s.lastJoin?⟩

end Indexed

/-! ### The last join -/

namespace Select

section

variable {draft : Draft} {fields : List Aliased} {distinct : Bool} {js : List Join} {j : Join}
  {window? : Option Window} {sorts : List (String × Direction)} {groups : List String}

theorem lastJoin?_concat :
    lastJoin? ⟨draft, fields, distinct, js ++ [j], window?, sorts, groups⟩ = some js.length := by
  rw [lastJoin?, if_pos inJoin_concat, List.length_append, List.length_singleton,
    Nat.add_sub_cancel]

end

/-- The index of the last join depends on how many there are. -/
theorem lastJoin?_congr {s t : Select} (h : s.heads = t.heads) : s.lastJoin? = t.lastJoin? := by
  have hlength : s.joins.length = t.joins.length := by
    simpa [heads] using congrArg List.length h
  have hempty (s : Select) : s.heads.isEmpty = s.joins.isEmpty := List.isEmpty_map
  rw [lastJoin?, lastJoin?, inJoin, inJoin, ← hempty, ← hempty, h, hlength]

/-- What is written on a chain is no part of what the joins are. -/
theorem heads_refocus (s : Select) (d : Draft) : (s.refocus d).heads = s.heads := by
  cases s using joins_cases with
  | alone => rfl
  | joined =>
    rw [refocus_concat, heads, heads, List.map_append, List.map_append]
    rfl

/-- A call that every statement takes joins nothing. -/
theorem heads_applyCommon (s : Select) (step : Draft.Step) :
    (s.applyCommon step).heads = s.heads := by
  rcases s.applyCommon_cases step with ⟨n, rfl, hwheres⟩ | hclose
  · rw [applyCommon, closeBrackets_of_nil hwheres]
    rfl
  · rw [applyCommon_eq_refocus hclose, heads_refocus]

end Select

namespace Indexed

/-- At the index of the last join there is the last join. -/
theorem modifyJoin?_concat {draft : Draft} {fields : List Aliased} {distinct : Bool}
    {js : List Join} {j : Join} {window? : Option Window} {sorts : List (String × Direction)}
    {groups : List String} (active? : Option Nat) (f : List Condition → List Condition) :
    modifyJoin? ⟨⟨draft, fields, distinct, js ++ [j], window?, sorts, groups⟩, active?⟩
        js.length f =
      some ⟨⟨draft, fields, distinct, js ++ [{ j with conditions := f j.conditions }], window?,
        sorts, groups⟩, active?⟩ := by
  rw [modifyJoin?, List.getElem?_concat_length, Option.map_some,
    List.set_append_right js.length _ (Nat.le_refl _), Nat.sub_self, List.set_cons_zero]

/-- A condition goes to the join at the index, and that is the last one. -/
theorem addCondition?_ofSelect (s : Select) (raw : String) (binding : Binding)
    (connective : Connective) :
    (ofSelect s).addCondition? raw binding connective =
      some (ofSelect (s.addCondition raw binding connective)) := by
  have hlast : (s.addCondition raw binding connective).lastJoin? = s.lastJoin? :=
    Select.lastJoin?_congr (s.heads_applyCommon (.addCondition raw binding connective))
  rw [ofSelect, ofSelect, hlast]
  cases s using Select.joins_cases with
  | alone => rfl
  | joined draft fields distinct js j window? sorts groups =>
    rw [Select.addCondition_eq_refocus, Select.refocus_concat, Select.focus_concat,
      Select.lastJoin?_concat, addCondition?, Draft.addCondition]
    dsimp only
    -- The condition that is added depends on the pending brackets, which both drafts share.
    have hcondition : Draft.condition { draft with wheres := j.conditions } raw binding connective =
      draft.condition raw binding connective := rfl
    rw [hcondition]
    cases draft.condition raw binding connective with
    | ok c => exact modifyJoin?_concat _ _
    -- Neither select changes but for the error.
    | error e =>
      cases j
      rfl

/-- A close looks for the last condition of the join at the index. -/
theorem closeBrackets?_ofSelect (s : Select) (n : Nat) :
    (ofSelect s).closeBrackets? n = some (ofSelect (s.closeBrackets n)) := by
  have hlast : (s.closeBrackets n).lastJoin? = s.lastJoin? :=
    Select.lastJoin?_congr (s.heads_applyCommon (.closeBrackets n))
  rw [ofSelect, ofSelect, hlast]
  cases s using Select.joins_cases with
  | alone => rfl
  | joined draft fields distinct js j window? sorts groups =>
    rw [Select.lastJoin?_concat, closeBrackets?, Select.closeBrackets, List.getLast?_concat]
    dsimp only
    rw [List.getElem?_concat_length, Option.bind_some]
    cases closeLast? n j.conditions with
    | none => rfl
    -- Both write the conditions back to the same join.
    | some conditions =>
      dsimp only
      rw [modifyJoin?_concat, mapLast_concat]

/-- A join that is added becomes the active one, and it is the last one. -/
theorem addJoin_ofSelect (s : Select) (raw : String) (kind : JoinKind) :
    (ofSelect s).addJoin raw kind = ofSelect (s.addJoin raw kind) := by
  rw [addJoin, Select.addJoin]
  cases Aliased.read .source raw with
  | ok source =>
    have hlast : Select.lastJoin? { s with joins := s.joins ++ [⟨source, kind, []⟩] } =
        some ((s.joins ++ [Join.mk source kind []]).length - 1) :=
      if_pos Select.inJoin_concat
    exact congrArg (Indexed.mk _) hlast.symm
  -- If the source cannot be read nothing is joined, and the index stays.
  | error e => rfl

/-- A call does to the index what it does to the joins. -/
theorem step?_ofSelect (s : Select) (step : Select.Step) :
    (ofSelect s).step? step = some (ofSelect (s.apply step)) := by
  cases step with
  | common step =>
    cases step with
    | addCondition raw binding connective => exact addCondition?_ofSelect s raw binding connective
    | addConditions pairs =>
      change pairs.foldlM _ (ofSelect s) = some (ofSelect (pairs.foldl _ s))
      induction pairs generalizing s with
      | nil => rfl
      | cons pair pairs ih =>
        obtain ⟨raw, binding⟩ := pair
        rw [List.foldlM_cons]
        dsimp only
        rw [addCondition?_ofSelect]
        exact ih _
    | closeBrackets n => exact closeBrackets?_ofSelect s n
    | addSources | openBrackets => rfl
  | addJoin raw kind => exact congrArg some (addJoin_ofSelect s raw kind)
  | addOn raw binding connective =>
    -- An ON condition does not look at the index, and it adds no join.
    have hheads : (s.addOn raw binding connective).heads = s.heads := by
      by_cases hjoin : s.inJoin = true
      · rw [Select.addOn_of_inJoin hjoin, Select.heads_applyCommon]
      · rw [Select.addOn_of_not_inJoin hjoin]
        rfl
    rw [ofSelect, ofSelect, Select.apply, Select.lastJoin?_congr hheads]
    rfl
  | addFields names =>
    -- The other calls leave the joins and the index as they are.
    change some (Indexed.mk (s.addFields names) s.lastJoin?) = some (ofSelect (s.addFields names))
    unfold Select.addFields
    cases names.read .field <;> rfl
  | setDistinct | setWindow | setPage | sortBy | groupBy => rfl

/-- **The index is that of the last join**, and what is built is what is built without an index. -/
theorem build?_eq (steps : List Select.Step) :
    build? steps = some (ofSelect (Select.build steps)) := by
  have hsteps (s : Select) :
      steps.foldlM step? (ofSelect s) = some (ofSelect (steps.foldl Select.apply s)) := by
    induction steps generalizing s with
    | nil => rfl
    | cons step steps ih =>
      rw [List.foldlM_cons, step?_ofSelect]
      exact ih _
  exact hsteps .empty

end Indexed

end SqlBuilder
