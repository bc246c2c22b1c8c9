import SqlBuilder.Expression
import SqlBuilder.Text.Blank
import SqlBuilder.Text.Letters
import SqlBuilder.Tuple

/-!
# Statements

The three kinds of statement as plain data: a `Select` reads rows, a `Write` inserts or updates
them and a `Delete` removes them. What they share is a `Draft`: the sources, the chain of WHERE
conditions, the brackets opened before the next condition, and the first error of a call that
failed. A condition may be bound to another `Select`, so the types are mutually recursive.
-/

namespace SqlBuilder

/-- How a condition is attached to the one before it. -/
inductive Connective where
  | and
  | or
  deriving DecidableEq, Repr

/-- The word of a connective. -/
def Connective.word : Connective → String
  | .and => "AND"
  | .or => "OR"

/-- The kinds of join. -/
inductive JoinKind where
  | inner
  | left
  | cross
  deriving DecidableEq, Repr

namespace JoinKind

/-- The word of a kind. -/
def word : JoinKind → String
  | .inner => "INNER"
  | .left => "LEFT"
  | .cross => "CROSS"

/-- The kind of a name, letter case aside. -/
def ofName (s : String) : Except Error JoinKind :=
  let name := Text.lower s
  if name = "inner" then .ok .inner
  else if name = "left" then .ok .left
  else if name = "cross" then .ok .cross
  else .error (.unsupported (.joinKind name))

end JoinKind

/-- The direction of a sort. -/
inductive Direction where
  | ascending
  | descending
  deriving DecidableEq, Repr

namespace Direction

/-- The word of a direction. -/
def word : Direction → String
  | .ascending => "ASC"
  | .descending => "DESC"

/-- Ascending for `asc` in any letter case, descending for everything else. -/
def ofName (s : String) : Direction :=
  if Text.sameLetters s "asc" then .ascending else .descending

end Direction

/-- The window of a result: how many rows, at least one, and how many are skipped first. -/
structure Window where
  count : Nat
  skip : Nat
  count_pos : 0 < count
  deriving DecidableEq, Repr

mutual

/-- What a condition is bound to. -/
inductive Binding where
  | value (v : Value)
  | list (values : List Value)
  | query (select : Select)

/-- A condition of a chain, with the brackets that open before it and close behind it. -/
structure Condition where
  comparison : Comparison
  binding : Binding
  connective : Connective
  opens : Nat
  closes : Nat

/-- A joined source with its own chain of conditions. -/
structure Join where
  source : Aliased
  kind : JoinKind
  conditions : List Condition

/-- What every statement has. -/
structure Draft where
  sources : List Aliased := []
  wheres : List Condition := []
  /-- Brackets opened before the next condition. -/
  pending : Nat := 0
  /-- The error of the first call that failed. -/
  error? : Option Error := none

/-- A statement that reads rows. -/
structure Select where
  draft : Draft
  /-- The selected fields, none of them twice; empty for all fields. -/
  fields : List Aliased := []
  distinct : Bool := false
  joins : List Join := []
  window? : Option Window := none
  sorts : List (String × Direction) := []
  groups : List String := []

end

/-- The select to which nothing has been added. -/
def Select.empty : Select := { draft := {} }

instance : Inhabited Draft := ⟨{}⟩

instance : Inhabited Select := ⟨.empty⟩

/-- A statement that inserts rows, or updates them if it has conditions. -/
structure Write where
  draft : Draft := {}
  rows : List Tuple := []

/-- Whether the statement updates rows. -/
def Write.isUpdate (w : Write) : Bool :=
  !w.draft.wheres.isEmpty

/-- A statement that removes rows. -/
structure Delete where
  draft : Draft := {}
  /-- Whether the statement may remove every row. -/
  allRows : Bool := false

/-- Whether the binding is NULL. -/
def Binding.isNull : Binding → Bool
  | .value .null => true
  | _ => false

/-- The kinds of statement. -/
inductive StatementKind where
  | select
  | write
  | delete
  deriving DecidableEq, Repr

namespace StatementKind

/-- The name a kind goes by. -/
def name : StatementKind → String
  | .select => "find"
  | .write => "save"
  | .delete => "remove"

/-- The kind of a name, blanks around it and letter case aside. -/
def ofName (s : String) : Except Error StatementKind :=
  match [select, write, delete].find? (·.name == Text.lower (Text.trim s)) with
  | some kind => .ok kind
  | none => .error (.unknown (.statement s))

end StatementKind

/-- A statement of any kind. -/
inductive Statement where
  | select (s : Select)
  | write (w : Write)
  | delete (d : Delete)

namespace Statement

/-- The kind of a statement. -/
def kind : Statement → StatementKind
  | .select _ => .select
  | .write _ => .write
  | .delete _ => .delete

/-- The statement of a kind to which nothing has been added. -/
def empty : StatementKind → Statement
  | .select => .select .empty
  | .write => .write {}
  | .delete => .delete {}

/-- What the statement shares with the other kinds. -/
def draft : Statement → Draft
  | .select s => s.draft
  | .write w => w.draft
  | .delete d => d.draft

end Statement

end SqlBuilder
