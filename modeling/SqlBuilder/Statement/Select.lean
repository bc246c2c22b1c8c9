import SqlBuilder.Statement.Draft
import SqlBuilder.Text.Blank

/-!
# Building a select

Besides sources and conditions a select has fields, joins, a window, sorts and groups. Once there
is a join, conditions and closing brackets go to the last one: its chain is the one being
written, and `addCondition` then does what `addOn` does. No index of the current join is kept,
because it is always the last.
-/

namespace SqlBuilder

/-- Fields to group by: one text with commas between them, or a list. -/
inductive Grouping where
  | text (s : String)
  | list (fields : List String)
  deriving DecidableEq, Repr

/-- The fields of a grouping without the blanks around them. A blank stretch between commas is no
field. -/
def Grouping.fields : Grouping → List String
  | .text s =>
    ((s.toList.splitOn ',').map fun cs => String.ofList (Text.trimChars cs)).filter (· ≠ "")
  | .list fields => fields.map Text.trim

/-- Add the fields that are not there yet, from left to right. -/
def addMissing (fields : List Aliased) : List Aliased → List Aliased
  | [] => fields
  | x :: xs => addMissing (if x ∈ fields then fields else fields ++ [x]) xs

/-- Sort by a field: in its place if it is there, else after the others. -/
def setSort (field : String) (direction : Direction) :
    List (String × Direction) → List (String × Direction)
  | [] => [(field, direction)]
  | (f, d) :: sorts =>
    if f = field then (f, direction) :: sorts else (f, d) :: setSort field direction sorts

/-- The list with its last item changed. -/
def mapLast {α : Type} (f : α → α) : List α → List α
  | [] => []
  | [x] => [f x]
  | x :: y :: ys => x :: mapLast f (y :: ys)

@[simp] theorem mapLast_concat {α : Type} (f : α → α) (xs : List α) (x : α) :
    mapLast f (xs ++ [x]) = xs ++ [f x] := by
  induction xs with
  | nil => rfl
  | cons y ys ih =>
    cases ys with
    | nil => rfl
    | cons z zs =>
      simp only [List.cons_append] at ih
      simp [mapLast, ih]

/-- The greatest number of rows that a window skips. -/
def maxSkip : Nat := 18446744073709551615

namespace Select

/-- Change what the select shares with other statements. -/
def withDraft (s : Select) (f : Draft → Draft) : Select :=
  { s with draft := f s.draft }

/-- Keep an error, unless there is one already. -/
def record (s : Select) (e : Error) : Select :=
  s.withDraft (·.record e)

/-- Whether conditions go to a join. -/
def inJoin (s : Select) : Bool :=
  !s.joins.isEmpty

/-! ### Joins and conditions -/

/-- Join a source, or record why its name cannot be read. -/
def addJoin (s : Select) (raw : String) (kind : JoinKind) : Select :=
  match Aliased.read .source raw with
  | .ok source => { s with joins := s.joins ++ [⟨source, kind, []⟩] }
  | .error e => s.record e

/-- Add a condition to the last join, or record why there is none. -/
def addOn (s : Select) (raw : String) (binding : Binding) (connective : Connective) : Select :=
  match s.joins with
  | [] => s.record (.structural (.onBeforeJoin raw))
  | j :: js =>
    match s.draft.condition raw binding connective with
    | .ok c =>
      { s with
        joins := mapLast (fun j => { j with conditions := j.conditions ++ [c] }) (j :: js)
        draft := { s.draft with pending := 0 } }
    | .error e => s.record e

/-- Add a condition to the chain being written. -/
def addCondition (s : Select) (raw : String) (binding : Binding) (connective : Connective) :
    Select :=
  if s.inJoin then s.addOn raw binding connective
  else s.withDraft (·.addCondition raw binding connective)

/-- Close `n` brackets behind the last condition of the chain being written. -/
def closeBrackets (s : Select) (n : Nat) : Select :=
  match s.joins.getLast? with
  | none => s.withDraft (·.closeBrackets n)
  | some j =>
    match closeLast? n j.conditions with
    | some conditions => { s with joins := mapLast (fun j => { j with conditions }) s.joins }
    | none => s.record (.structural .closeBeforeOn)

/-! ### Fields, window, sorts and groups -/

/-- Select the fields that are not selected yet, or record why they cannot be read. -/
def addFields (s : Select) (names : Names) : Select :=
  match names.read .field with
  | .ok fields => { s with fields := addMissing s.fields fields }
  | .error e => s.record e

/-- Take `count` rows after the first `skip`; a count of zero takes all rows. -/
def setWindow (s : Select) (count skip : Nat) : Select :=
  { s with window? := if h : 0 < count then some ⟨count, skip, h⟩ else none }

/-- Take the page of `size` rows with the given number. Pages count from one, and page zero is
the first one too. -/
def setPage (s : Select) (size number : Nat) : Select :=
  s.setWindow size (min (size * (number - 1)) maxSkip)

/-! ### Calls -/

/-- A call that a select takes. -/
inductive Step where
  | common (step : Draft.Step)
  | addFields (names : Names)
  | setDistinct (distinct : Bool)
  | addJoin (raw : String) (kind : JoinKind)
  | addOn (raw : String) (binding : Binding) (connective : Connective)
  | setWindow (count skip : Nat)
  | setPage (size number : Nat)
  | sortBy (field : String) (direction : Direction)
  | groupBy (grouping : Grouping)

/-- The select after a call that every statement takes. -/
def applyCommon (s : Select) : Draft.Step → Select
  | .addCondition raw binding connective => s.addCondition raw binding connective
  | .addConditions pairs =>
    pairs.foldl (fun s (raw, binding) => s.addCondition raw binding .and) s
  | .closeBrackets n => s.closeBrackets n
  | .addSources names => s.withDraft (·.addSources names)
  | .openBrackets n => s.withDraft (·.openBrackets n)

/-- The select after a call. -/
def apply (s : Select) : Step → Select
  | .common step => s.applyCommon step
  | .addFields names => s.addFields names
  | .setDistinct distinct => { s with distinct }
  | .addJoin raw kind => s.addJoin raw kind
  | .addOn raw binding connective => s.addOn raw binding connective
  | .setWindow count skip => s.setWindow count skip
  | .setPage size number => s.setPage size number
  | .sortBy field direction => { s with sorts := setSort field direction s.sorts }
  | .groupBy grouping => { s with groups := s.groups ++ grouping.fields }

/-- The select that a sequence of calls builds. -/
def build (steps : List Step) : Select :=
  steps.foldl apply .empty

/-- Once there is a join, a condition goes where an ON condition goes. -/
theorem addCondition_eq_addOn {s : Select} (h : s.joins ≠ []) (raw : String) (binding : Binding)
    (connective : Connective) :
    s.addCondition raw binding connective = s.addOn raw binding connective := by
  have : s.inJoin = true := by
    cases hj : s.joins with
    | nil => exact absurd hj h
    | cons j js => simp [inJoin, hj]
  simp [addCondition, this]

end Select

end SqlBuilder
