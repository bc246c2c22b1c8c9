import SqlBuilder.Statement.Basic

/-!
# What every statement is built with

Sources, WHERE conditions and brackets. A call that fails leaves everything as it was and is
recorded; only the first error is kept, and calls after it go on building. The calls are data
(`Draft.Step`), so that a statement is what `Draft.apply` makes of a list of them.
-/

namespace SqlBuilder

/-- Names given to a statement: texts to be read, or names already read. -/
inductive Names where
  | texts (raws : List String)
  | given (names : List Aliased)
  deriving DecidableEq, Repr

/-- The names, or the error of the first text that is malformed. -/
def Names.read (form : Form) : Names → Except Error (List Aliased)
  | .texts raws => Aliased.readAll form raws
  | .given names => .ok names

/-- Let `n` more brackets close behind the last condition of a chain; `none` if it is empty. -/
def closeLast? (n : Nat) : List Condition → Option (List Condition)
  | [] => none
  | [c] => some [{ c with closes := c.closes + n }]
  | c :: c' :: cs => (closeLast? n (c' :: cs)).map (c :: ·)

@[simp] theorem closeLast?_concat (n : Nat) (cs : List Condition) (c : Condition) :
    closeLast? n (cs ++ [c]) = some (cs ++ [{ c with closes := c.closes + n }]) := by
  induction cs with
  | nil => rfl
  | cons d ds ih =>
    cases ds with
    | nil => rfl
    | cons e es =>
      simp only [List.cons_append] at ih
      simp [closeLast?, ih]

namespace Draft

/-- Keep an error, unless there is one already. -/
def record (d : Draft) (e : Error) : Draft :=
  { d with error? := d.error?.or (some e) }

/-- Add the sources, or record why their names cannot be read. -/
def addSources (d : Draft) (names : Names) : Draft :=
  match names.read .source with
  | .ok sources => { d with sources := d.sources ++ sources }
  | .error e => d.record e

/-- The condition that a call adds: the pending brackets open before it. -/
def condition (d : Draft) (raw : String) (binding : Binding) (connective : Connective) :
    Except Error Condition := do
  let comparison ← Comparison.read raw
  return ⟨comparison, binding, connective, d.pending, 0⟩

/-- Add a WHERE condition, or record why it cannot be read. -/
def addCondition (d : Draft) (raw : String) (binding : Binding) (connective : Connective) :
    Draft :=
  match d.condition raw binding connective with
  | .ok c => { d with wheres := d.wheres ++ [c], pending := 0 }
  | .error e => d.record e

/-- Open `n` brackets before the next condition. -/
def openBrackets (d : Draft) (n : Nat) : Draft :=
  { d with pending := d.pending + n }

/-- Close `n` brackets behind the last WHERE condition. -/
def closeBrackets (d : Draft) (n : Nat) : Draft :=
  match closeLast? n d.wheres with
  | some wheres => { d with wheres }
  | none => d.record (.structural .closeBeforeWhere)

/-- A call that every statement takes. -/
inductive Step where
  | addSources (names : Names)
  | addCondition (raw : String) (binding : Binding) (connective : Connective)
  /-- Several conditions joined by AND, each a call of its own. -/
  | addConditions (pairs : List (String × Binding))
  | openBrackets (n : Nat)
  | closeBrackets (n : Nat)

/-- The draft after a call. -/
def apply (d : Draft) : Step → Draft
  | .addSources names => d.addSources names
  | .addCondition raw binding connective => d.addCondition raw binding connective
  | .addConditions pairs =>
    pairs.foldl (fun d (raw, binding) => d.addCondition raw binding .and) d
  | .openBrackets n => d.openBrackets n
  | .closeBrackets n => d.closeBrackets n

@[simp] theorem error?_record (d : Draft) (e : Error) :
    (d.record e).error? = d.error?.or (some e) := rfl

@[simp] theorem sources_record (d : Draft) (e : Error) : (d.record e).sources = d.sources := rfl

@[simp] theorem wheres_record (d : Draft) (e : Error) : (d.record e).wheres = d.wheres := rfl

end Draft

end SqlBuilder
