import SqlBuilder.Compile.Sql
import SqlBuilder.Dialect
import SqlBuilder.Statement.Basic

/-!
# Compiling conditions and selects

The SQL of a select is put together clause by clause in the order in which the clauses stand in
the text, and the parts that hold placeholders are `Sql` values, so the parameters come in the
order of their placeholders by construction. Conditions and selects are compiled together,
because a condition may be bound to a select. An error that was recorded while a select was built
comes before any other; otherwise the first part from left to right that SQL has no form for
gives the error.
-/

namespace SqlBuilder

/-! ### Names -/

/-- A selected field. -/
def Aliased.fieldText (d : Dialect) (x : Aliased) : String :=
  match x.alias? with
  | some a => d.identifier x.name ++ " AS " ++ d.identifier a
  | none => d.identifier x.name

/-- A source. -/
def Aliased.sourceText (d : Dialect) (x : Aliased) : String :=
  match x.alias? with
  | some a => d.identifier x.name ++ " " ++ d.identifier a
  | none => d.identifier x.name

/-- A list of texts separated by commas. -/
def commas (items : List String) : String :=
  ", ".intercalate items

/-- A list of sources. -/
def sourceList (d : Dialect) (sources : List Aliased) : String :=
  commas (sources.map (·.sourceText d))

/-! ### Bound values -/

/-- The sign that stands for any text in a pattern. -/
def wildcard : String := "%"

/-- The parameter of a bound value: with a wildcard a text, else the form that the dialect
sends. -/
def Operand.param (d : Dialect) (operand : Operand) (v : Value) : Value :=
  if operand.wildcardBefore || operand.wildcardAfter then
    .text ((if operand.wildcardBefore then wildcard else "") ++ v.plain ++
      (if operand.wildcardAfter then wildcard else ""))
  else d.wire v

/-- A count of rows as a parameter; a count beyond the range of integer values is the greatest of
them. -/
def countParam (n : Nat) : Value :=
  .int (min n Value.maxInt)

/-! ### Clauses of a select -/

/-- The words before the sources. -/
def Select.head (d : Dialect) (distinct : Bool) (fields : List Aliased) : String :=
  "SELECT " ++ (if distinct then "DISTINCT " else "") ++
    (if fields.isEmpty then "*" else commas (fields.map (·.fieldText d)))

/-- The sources, if there are any. -/
def Select.fromClause (d : Dialect) (sources : List Aliased) : List Sql :=
  if sources.isEmpty then [] else [.raw ("FROM " ++ sourceList d sources)]

/-- The fields that rows are grouped by, if there are any. -/
def Select.groupClause (d : Dialect) (groups : List String) : List Sql :=
  if groups.isEmpty then [] else [.raw ("GROUP BY " ++ commas (groups.map d.identifier))]

/-- The fields that rows are sorted by, if there are any. -/
def Select.orderClause (d : Dialect) (sorts : List (String × Direction)) : List Sql :=
  if sorts.isEmpty then []
  else
    [.raw ("ORDER BY " ++
      commas (sorts.map fun (field, direction) => d.identifier field ++ " " ++ direction.word))]

/-- The window in the shape of the dialect. -/
def Window.clause (d : Dialect) (w : Window) : Sql :=
  match d.limit with
  | .commaPlaceholders =>
    .raw "LIMIT " ++ .hole (countParam w.count) ++ .raw ", " ++ .hole (countParam w.skip)
  | .commaInline =>
    if w.skip = 0 then .raw ("LIMIT " ++ Text.natText w.count)
    else .raw ("LIMIT " ++ Text.natText w.count ++ ", " ++ Text.natText w.skip)
  | .limitOffset =>
    .raw "LIMIT " ++ .hole (countParam w.count) ++ .raw " OFFSET " ++ .hole (countParam w.skip)

/-- The window, if there is one. -/
def Select.limitClause (d : Dialect) (window? : Option Window) : List Sql :=
  window?.toList.map (·.clause d)

/-! ### Conditions -/

/-- A condition that compares with NULL. -/
def Comparison.nullTest (d : Dialect) (c : Comparison) : Sql :=
  .raw (d.identifier c.field ++ if c.operator = "=" then " IS NULL" else " IS NOT NULL")

/-- The field and the operator, each with a space behind it. -/
def Comparison.lhs (d : Dialect) (c : Comparison) : Sql :=
  .raw (d.identifier c.field ++ " " ++ d.operator c.operator ++ " ")

/-- A comparison with one bound value. -/
def Comparison.withValue (d : Dialect) (c : Comparison) (v : Value) : Sql :=
  if v.isNull then c.nullTest d
  else
    let hole := Sql.hole (c.operand.param d v)
    c.lhs d ++ if takesList (d.operator c.operator) then hole.parens else hole

/-- A comparison with a list. Nothing is inside an empty list and everything is outside of it. -/
def Comparison.withList (d : Dialect) (c : Comparison) (values : List Value) :
    Except Error Sql :=
  match Membership.ofOperator? (d.operator c.operator) with
  | none => .error (.unsupported (.listOperand c.operator))
  | some membership =>
    if values.isEmpty then
      .ok (.raw (match membership with | .inside => "1=0" | .outside => "1=1"))
    else .ok (c.lhs d ++ (Sql.holes (values.map (c.operand.param d))).parens)

/-- The word between a condition and the one before it. -/
def Connective.glue (c : Connective) : Sql :=
  .raw (" " ++ c.word ++ " ")

/-- A part between the brackets that open before it and close behind it. -/
def bracket (opens closes : Nat) (part : Sql) : Sql :=
  .raw (String.ofList (List.replicate opens '(')) ++ part ++
    .raw (String.ofList (List.replicate closes ')'))

/-- Parts attached to the ones before them. -/
def linkSql : List (Connective × Sql) → Sql
  | [] => .raw ""
  | (connective, part) :: parts => connective.glue ++ part ++ linkSql parts

/-- The parts of a chain one behind the other. The first one is attached to nothing. -/
def chainSql : List (Connective × Sql) → Sql
  | [] => .raw ""
  | (_, part) :: parts => part ++ linkSql parts

/-- The WHERE clause, if there are conditions. -/
def whereClause (parts : List (Connective × Sql)) : List Sql :=
  if parts.isEmpty then [] else [.raw "WHERE " ++ chainSql parts]

/-- A join with its conditions, if it has any. -/
def joinClause (d : Dialect) (kind : JoinKind) (source : Aliased)
    (parts : List (Connective × Sql)) : Sql :=
  let head := Sql.raw (kind.word ++ " JOIN " ++ source.sourceText d)
  if parts.isEmpty then head else head ++ .raw " ON " ++ chainSql parts

/-- A cross join takes no conditions. -/
def JoinKind.check (kind : JoinKind) (source : Aliased) (conditions : List Condition) :
    Except Error Unit :=
  Error.require (kind != .cross || conditions.isEmpty)
    (.unsupported (.crossJoinConditions source.name))

/-! ### Selects -/

mutual

/-- The SQL of a select. -/
def Select.compile (d : Dialect) : Select → Except Error Sql
  | ⟨⟨sources, wheres, _, error?⟩, fields, distinct, joins, window?, sorts, groups⟩ => do
    Error.raise error?
    let joinClauses ← compileJoins d joins
    let parts ← compileConditions d wheres
    return .join " " (
      .raw (Select.head d distinct fields) :: Select.fromClause d sources ++ joinClauses ++
        whereClause parts ++ Select.groupClause d groups ++ Select.orderClause d sorts ++
        Select.limitClause d window?)

/-- The SQL of every join, in the order of the joins. -/
def compileJoins (d : Dialect) : List Join → Except Error (List Sql)
  | [] => .ok []
  | ⟨source, kind, conditions⟩ :: joins => do
    kind.check source conditions
    let parts ← compileConditions d conditions
    let clauses ← compileJoins d joins
    return joinClause d kind source parts :: clauses

/-- The SQL of every condition of a chain with its brackets, and how it is attached. -/
def compileConditions (d : Dialect) : List Condition → Except Error (List (Connective × Sql))
  | [] => .ok []
  | ⟨comparison, binding, connective, opens, closes⟩ :: conditions => do
    let part ← compileComparison d comparison binding
    let parts ← compileConditions d conditions
    return (connective, bracket opens closes part) :: parts

/-- A comparison and what it is bound to. With a literal operand nothing is bound. -/
def compileComparison (d : Dialect) (c : Comparison) (binding : Binding) : Except Error Sql :=
  match c.operand, binding with
  | .literal token, _ => .ok (c.lhs d ++ .raw (d.identifier token))
  | .bound _ _, .value v => .ok (c.withValue d v)
  | .bound _ _, .list values => c.withList d values
  | .bound _ _, .query select => do
    let inner ← Select.compile d select
    return c.lhs d ++ inner.parens

end

/-- The compiled select, clause by clause. -/
theorem Select.compile_eq (d : Dialect) (s : Select) :
    s.compile d = (do
      Error.raise s.draft.error?
      let joinClauses ← compileJoins d s.joins
      let parts ← compileConditions d s.draft.wheres
      return .join " " (
        .raw (Select.head d s.distinct s.fields) :: Select.fromClause d s.draft.sources ++
          joinClauses ++ whereClause parts ++ Select.groupClause d s.groups ++
          Select.orderClause d s.sorts ++ Select.limitClause d s.window?)) := by
  rcases s with ⟨⟨⟩⟩
  rfl

/-- A join is compiled before the ones behind it. -/
theorem compileJoins_cons (d : Dialect) (j : Join) (joins : List Join) :
    compileJoins d (j :: joins) = (do
      j.kind.check j.source j.conditions
      let parts ← compileConditions d j.conditions
      let clauses ← compileJoins d joins
      return joinClause d j.kind j.source parts :: clauses) := by
  cases j
  rfl

/-- A condition is compiled before the ones behind it. -/
theorem compileConditions_cons (d : Dialect) (c : Condition) (conditions : List Condition) :
    compileConditions d (c :: conditions) = (do
      let part ← compileComparison d c.comparison c.binding
      let parts ← compileConditions d conditions
      return (c.connective, bracket c.opens c.closes part) :: parts) := by
  cases c
  rfl

end SqlBuilder
