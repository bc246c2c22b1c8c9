import SqlBuilder.Error

/-!
# Expressions

Conditions, fields and sources are given as short texts of tokens with one space between two.
`Form.tokens` cuts a text by that rule; `Comparison.read` takes one to three tokens for a
condition, the operator and the operand having defaults, and `Aliased.read` one or two for a name
with an alias. The operand of a comparison is either a placeholder, with a wildcard before or
after the bound value, or a token that stands in the statement as it is.
-/

namespace SqlBuilder

/-- The tokens of a text: at least one, no more than the form allows, none of them empty. -/
def Form.tokens (form : Form) (raw : String) : Except Error (List String) :=
  let tokens := (raw.toList.splitOn ' ').map String.ofList
  if raw = "" then .error (.malformed raw .empty)
  else if form.maxTokens < tokens.length then .error (.malformed raw (.tooManyTokens form))
  else if "" ∈ tokens then .error (.malformed raw .looseSpaces)
  else .ok tokens

/-! ### Names with an alias -/

/-- The name of a field or a source, and the alias it goes by. -/
structure Aliased where
  name : String
  alias? : Option String := none
  deriving DecidableEq, Repr

namespace Aliased

/-- Read `name` or `name alias`. -/
def read (form : Form) (raw : String) : Except Error Aliased := do
  let tokens ← form.tokens raw
  return ⟨tokens.headD "", tokens[1]?⟩

/-- Read every text of a list, or fail at the first that is malformed. -/
def readAll (form : Form) : List String → Except Error (List Aliased)
  | [] => .ok []
  | raw :: rest => do
    let x ← read form raw
    let xs ← readAll form rest
    return x :: xs

end Aliased

/-! ### Comparisons -/

/-- The right-hand side of a comparison. -/
inductive Operand where
  /-- A placeholder; the wildcards say where the bound value gets a `%`. -/
  | bound (wildcardBefore wildcardAfter : Bool)
  /-- A token of the statement itself. -/
  | literal (token : String)
  deriving DecidableEq, Repr

namespace Operand

/-- The operand that a marker stands for. -/
def ofMarker (marker : String) : Operand :=
  if marker = "?" then .bound false false
  else if marker = "*?" then .bound true false
  else if marker = "?*" then .bound false true
  else if marker = "*?*" then .bound true true
  else .literal marker

/-- The marker without wildcards. -/
def marker : Operand → String
  | .bound _ _ => "?"
  | .literal token => token

/-- Whether a value is bound. -/
def isBound : Operand → Bool
  | .bound _ _ => true
  | .literal _ => false

/-- Whether a bound value gets a wildcard in front. -/
def wildcardBefore : Operand → Bool
  | .bound before _ => before
  | .literal _ => false

/-- Whether a bound value gets a wildcard behind. -/
def wildcardAfter : Operand → Bool
  | .bound _ after => after
  | .literal _ => false

end Operand

/-- A field compared by an operator, as written, with an operand. -/
structure Comparison where
  field : String
  operator : String
  operand : Operand
  deriving DecidableEq, Repr

namespace Comparison

/-- The operator of a condition that has none. -/
def defaultOperator : String := "="

/-- The marker of a condition that has none. -/
def defaultMarker : String := "?"

/-- Read `field`, `field operator` or `field operator marker`. -/
def read (raw : String) : Except Error Comparison := do
  let tokens ← Form.condition.tokens raw
  return {
    field := tokens.headD ""
    operator := tokens[1]?.getD defaultOperator
    operand := .ofMarker (tokens[2]?.getD defaultMarker) }

end Comparison

end SqlBuilder
