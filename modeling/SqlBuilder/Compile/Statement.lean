import SqlBuilder.Compile.Select

/-!
# Compiling writes, deletes and any statement

A write with conditions becomes an UPDATE of one row, a write without any an INSERT of all its
rows, and a delete needs conditions unless it may remove every row. Every row of an INSERT has
the fields of the first one, in any order, and gives its values in the order of the first.
-/

namespace SqlBuilder

/-! ### Writes -/

/-- An assignment of an UPDATE. -/
def assignment (d : Dialect) (entry : String × Value) : Sql :=
  .raw (d.identifier entry.1 ++ " = ") ++ .hole (d.wire entry.2)

/-- An UPDATE of the row `t`. -/
def Write.compileUpdate (d : Dialect) (w : Write) (t : Tuple) : Except Error Sql := do
  Error.require (w.rows.length ≤ 1) (.unsupported (.updateRows w.rows.length))
  let parts ← compileConditions d w.draft.wheres
  return .join " " (
    (.raw ("UPDATE " ++ sourceList d w.draft.sources ++ " SET ") ++
      .join ", " (t.entries.map (assignment d))) :: whereClause parts)

/-- The values of a row in the order of the given fields. -/
def Tuple.values (t : Tuple) (fields : List String) : List Value :=
  fields.map fun f => (t.get? f).getD .null

/-- The groups of values of the rows `ts`, of which the first is row `i` of the statement. -/
def insertGroups (d : Dialect) (first : Tuple) : Nat → List Tuple → Except Error (List Sql)
  | _, [] => .ok []
  | i, t :: ts => do
    Error.require (t.sameFields first) (.structural (.unequalFields i))
    let groups ← insertGroups d first (i + 1) ts
    return (Sql.holes ((t.values first.fields).map d.wire)).parens :: groups

/-- An INSERT of all rows, of which `first` is the first. -/
def Write.compileInsert (d : Dialect) (w : Write) (first : Tuple) : Except Error Sql :=
  match w.draft.sources with
  | [source] => do
    let groups ← insertGroups d first 0 w.rows
    return .raw ("INSERT INTO " ++ source.sourceText d ++ " (" ++
      commas (first.fields.map d.identifier) ++ ") VALUES ") ++ .join ", " groups
  | sources => .error (.structural (.insertSources sources.length))

/-- The first row of a write, which must have a field. -/
def Write.firstRow : List Tuple → Except Error Tuple
  | [] => .error (.structural .writeWithoutData)
  | t :: _ => do
    Error.require (!t.isEmpty) (.structural .writeWithoutData)
    return t

/-- The SQL of a write. -/
def Write.compile (d : Dialect) (w : Write) : Except Error Sql := do
  Error.raise w.draft.error?
  Error.require (!w.draft.sources.isEmpty) (.structural .writeWithoutSource)
  let first ← Write.firstRow w.rows
  if w.isUpdate then w.compileUpdate d first else w.compileInsert d first

/-! ### Deletes -/

/-- The SQL of a delete. -/
def Delete.compile (d : Dialect) (r : Delete) : Except Error Sql := do
  Error.raise r.draft.error?
  Error.require (!r.draft.sources.isEmpty) (.structural .deleteWithoutSource)
  Error.require (r.allRows || !r.draft.wheres.isEmpty) (.structural .deleteEverything)
  let parts ← compileConditions d r.draft.wheres
  return .join " " (.raw ("DELETE FROM " ++ sourceList d r.draft.sources) :: whereClause parts)

/-! ### Any statement -/

/-- The SQL of a statement. -/
def Statement.compile (d : Dialect) : Statement → Except Error Sql
  | .select s => s.compile d
  | .write w => w.compile d
  | .delete r => r.compile d

end SqlBuilder
