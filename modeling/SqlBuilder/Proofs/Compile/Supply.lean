import SqlBuilder.Proofs.Compile.Acceptance
import SqlBuilder.Proofs.Compile.Mask

/-!
# What a statement supplies for its placeholders

The values of a statement reach its parameters in several ways: from the rows of a write, alone or
in a list from a condition, and from a select inside of one; and a window adds its two numbers where
the dialect binds them. `Statement.supplies` collects all of them by recursion on the statement,
from left to right and without a dialect. Each dialect makes its parameters of this one list
(`Supply.sent`): it sends a value in a form of its own, and a window as two counts or not at all.

Main statements: the parameters of whatever a statement compiles to are its supplies as the dialect
sends them (`Statement.params_of_compile`); and two dialects with the same operators accept the same
statements, refuse the others with the same error, and make their parameters of the same list
(`Statement.alike_of_operators_eq`).

Only the operators decide what is accepted, because a list needs one that takes it. That is why the
half about errors compares the violations of a statement and not the two compilations, and why the
half about parameters looks at one dialect only.
-/

namespace SqlBuilder

/-! ### Supplies -/

/-- The operand of a value that goes to its placeholder without wildcards. -/
def Operand.plain : Operand := .bound false false

/-- Whether an operand makes a pattern of its value. -/
def Operand.isPattern (operand : Operand) : Bool :=
  operand.wildcardBefore || operand.wildcardAfter

/-- The value that an operand is given: the text of the pattern if it makes one, else the value. -/
def Operand.source (operand : Operand) (v : Value) : Value :=
  if operand.isPattern then
    .text ((if operand.wildcardBefore then wildcard else "") ++ v.plain ++
      (if operand.wildcardAfter then wildcard else ""))
  else v

/-- What a statement supplies for its placeholders. -/
inductive Supply where
  /-- A value for a placeholder with the operand. -/
  | value (operand : Operand) (v : Value)
  /-- The numbers of a window. -/
  | window (w : Window)

namespace Supply

/-- The value that is supplied, before any dialect has seen it. -/
def source? : Supply → Option Value
  | .value operand v => some (operand.source v)
  | .window _ => none

/-- The parameters that a dialect makes of a supply: a value in the form that it sends, and the
count and the skip of a window unless they stand in the text. -/
def sent (d : Dialect) : Supply → List Value
  | .value operand v => [d.wire (operand.source v)]
  | .window w =>
    match d.limit with
    | .commaInline => []
    | .commaPlaceholders | .limitOffset => [countParam w.count, countParam w.skip]

end Supply

mutual

/-- What a select supplies: its joins, its conditions, and at the end its window. -/
def Select.supplies : Select → List Supply
  | ⟨⟨_, wheres, _, _⟩, _, _, joins, window?, _, _⟩ =>
    joinSupplies joins ++ conditionSupplies wheres ++ window?.toList.map .window

/-- What joins supply, one behind the other. -/
def joinSupplies : List Join → List Supply
  | [] => []
  | ⟨_, _, conditions⟩ :: joins => conditionSupplies conditions ++ joinSupplies joins

/-- What conditions supply, one behind the other. -/
def conditionSupplies : List Condition → List Supply
  | [] => []
  | ⟨comparison, binding, _, _, _⟩ :: conditions =>
    bindingSupplies comparison.operand binding ++ conditionSupplies conditions

/-- What a binding supplies. With a literal operand there is no placeholder, and for NULL there is
none either. -/
def bindingSupplies (operand : Operand) (binding : Binding) : List Supply :=
  match operand, binding with
  | .literal _, _ => []
  | .bound _ _, .value v => if v.isNull then [] else [.value operand v]
  | .bound _ _, .list values => values.map (.value operand)
  | .bound _ _, .query select => select.supplies

end

/-- What a write supplies: the values of its row and then its conditions, or the values of all rows
in the order of the first one's fields. -/
def Write.supplies (w : Write) : List Supply :=
  let first := w.rows.headD .empty
  if w.isUpdate then
    first.entries.map (fun entry => .value .plain entry.2) ++ conditionSupplies w.draft.wheres
  else w.rows.flatMap fun row => (row.values first.fields).map (.value .plain)

/-- What a statement supplies for its placeholders, from left to right. -/
def Statement.supplies : Statement → List Supply
  | .select s => s.supplies
  | .write w => w.supplies
  | .delete r => conditionSupplies r.draft.wheres

/-! ### Parameters of parts -/

/-- The parameter of a value is what the operand is given, in the form that the dialect sends. -/
theorem Operand.param_eq (d : Dialect) (operand : Operand) (v : Value) :
    operand.param d v = d.wire (operand.source v) := by
  unfold param source isPattern
  split <;> rfl

@[simp] theorem Sql.params_parens (a : Sql) : a.parens.params = a.params := by
  simp [Sql.parens]

@[simp] theorem Sql.params_holes (values : List Value) : (Sql.holes values).params = values := by
  simp [Sql.holes, List.flatMap_map]

@[simp] theorem params_bracket (opens closes : Nat) (part : Sql) :
    (bracket opens closes part).params = part.params := by
  simp [bracket]

@[simp] theorem params_linkSql (parts : List (Connective × Sql)) :
    (linkSql parts).params = parts.flatMap (·.2.params) := by
  induction parts with
  | nil => rfl
  | cons part parts ih => simp [linkSql, Connective.glue, ih]

@[simp] theorem params_chainSql (parts : List (Connective × Sql)) :
    (chainSql parts).params = parts.flatMap (·.2.params) := by
  cases parts <;> simp [chainSql]

@[simp] theorem params_whereClause (parts : List (Connective × Sql)) :
    (whereClause parts).flatMap Sql.params = parts.flatMap (·.2.params) := by
  cases parts <;> simp [whereClause]

@[simp] theorem params_joinClause (d : Dialect) (kind : JoinKind) (source : Aliased)
    (parts : List (Connective × Sql)) :
    (joinClause d kind source parts).params = parts.flatMap (·.2.params) := by
  cases parts <;> simp [joinClause]

section

variable (d : Dialect)

@[simp] theorem params_fromClause (sources : List Aliased) :
    (Select.fromClause d sources).flatMap Sql.params = [] := by
  cases sources <;> simp [Select.fromClause]

@[simp] theorem params_groupClause (groups : List String) :
    (Select.groupClause d groups).flatMap Sql.params = [] := by
  cases groups <;> simp [Select.groupClause]

@[simp] theorem params_orderClause (sorts : List (String × Direction)) :
    (Select.orderClause d sorts).flatMap Sql.params = [] := by
  cases sorts <;> simp [Select.orderClause]

/-- A window binds its two numbers where the dialect does not write them out. -/
theorem params_clause (w : Window) : (w.clause d).params = Supply.sent d (.window w) := by
  unfold Window.clause Supply.sent
  cases d.limit with
  | commaPlaceholders | limitOffset => rfl
  | commaInline =>
    -- The numbers stand in the text, with a skip or without one.
    dsimp only
    split <;> rfl

@[simp] theorem params_limitClause (window? : Option Window) :
    (Select.limitClause d window?).flatMap Sql.params =
      (window?.toList.map Supply.window).flatMap (Supply.sent d) := by
  cases window? <;> simp [Select.limitClause, params_clause]

/-- A value is the one parameter of its comparison; a test for NULL has none. -/
theorem params_withValue {c : Comparison} (v : Value) :
    (c.withValue d v).params =
      (if v.isNull then [] else [Supply.value c.operand v]).flatMap (Supply.sent d) := by
  unfold Comparison.withValue
  -- Behind NULL it does not matter whether the operator takes a list; that only brackets the hole.
  by_cases hnull : v.isNull = true
  · simp [hnull, Comparison.nullTest]
  · by_cases htakes : takesList (d.operator c.operator) = true
    · simp [hnull, htakes, Comparison.lhs, Supply.sent, Operand.param_eq]
    · simp [hnull, htakes, Comparison.lhs, Supply.sent, Operand.param_eq]

/-- The values of a list are the parameters of its comparison. -/
theorem params_of_withList {c : Comparison} {values : List Value} {part : Sql}
    (h : c.withList d values = .ok part) :
    part.params = (values.map (Supply.value c.operand)).flatMap (Supply.sent d) := by
  unfold Comparison.withList at h
  -- An operator that takes no list is refused.
  cases hm : Membership.ofOperator? (d.operator c.operator) with
  | none =>
    rw [hm] at h
    cases h
  | some membership =>
    rw [hm] at h
    -- One parameter for each value, in their order.
    have hsent : values.map (c.operand.param d) =
        (values.map (Supply.value c.operand)).flatMap (Supply.sent d) := by
      rw [List.flatMap_map, ← List.flatMap_singleton' (values.map _), List.flatMap_map]
      simp only [Supply.sent, Operand.param_eq]
    cases values with
    | nil =>
      -- An empty list is written as a constant comparison, which binds nothing.
      obtain rfl := Except.ok.inj h
      rfl
    | cons v vs =>
      obtain rfl := Except.ok.inj h
      rw [← hsent]
      simp [Comparison.lhs]

/-! ### Parameters of selects -/

mutual

/-- The parameters of a select are its supplies, as the dialect sends them. -/
theorem Select.params_of_compile : ∀ (s : Select) {out : Sql},
    s.compile d = .ok out → out.params = s.supplies.flatMap (Supply.sent d)
  | ⟨⟨sources, wheres, _, error?⟩, fields, distinct, joins, window?, sorts, groups⟩, out, h => by
    -- In the order of the compiler: joins, then conditions.
    obtain ⟨_, -, h⟩ := exists_of_bind_eq_ok h
    obtain ⟨clauses, hclauses, h⟩ := exists_of_bind_eq_ok h
    obtain ⟨parts, hparts, h⟩ := exists_of_bind_eq_ok h
    obtain rfl := Except.ok.inj h
    have hjoins := params_of_compileJoins joins hclauses
    have hwheres := params_of_compileConditions wheres hparts
    -- The head, the sources, the groups and the sorts bind nothing.
    simp [Select.supplies, hjoins, hwheres]

/-- The parameters of joins. -/
theorem params_of_compileJoins : ∀ (joins : List Join) {clauses : List Sql},
    compileJoins d joins = .ok clauses →
      clauses.flatMap Sql.params = (joinSupplies joins).flatMap (Supply.sent d)
  | [], _, h => by
    obtain rfl := Except.ok.inj h
    rfl
  | ⟨source, kind, conditions⟩ :: joins, _, h => by
    obtain ⟨_, -, h⟩ := exists_of_bind_eq_ok h
    obtain ⟨parts, hparts, h⟩ := exists_of_bind_eq_ok h
    obtain ⟨clauses, hclauses, h⟩ := exists_of_bind_eq_ok h
    obtain rfl := Except.ok.inj h
    have hown := params_of_compileConditions conditions hparts
    have hjoins := params_of_compileJoins joins hclauses
    simp [joinSupplies, hown, hjoins]

/-- The parameters of the conditions of a chain. -/
theorem params_of_compileConditions : ∀ (conditions : List Condition)
    {parts : List (Connective × Sql)}, compileConditions d conditions = .ok parts →
      parts.flatMap (·.2.params) = (conditionSupplies conditions).flatMap (Supply.sent d)
  | [], _, h => by
    obtain rfl := Except.ok.inj h
    rfl
  | ⟨comparison, binding, connective, opens, closes⟩ :: conditions, _, h => by
    obtain ⟨part, hpart, h⟩ := exists_of_bind_eq_ok h
    obtain ⟨parts, hparts, h⟩ := exists_of_bind_eq_ok h
    obtain rfl := Except.ok.inj h
    have hfirst := params_of_compileComparison comparison binding hpart
    have hrest := params_of_compileConditions conditions hparts
    simp [conditionSupplies, hfirst, hrest]

/-- The parameters of a comparison. -/
theorem params_of_compileComparison (c : Comparison) : ∀ (binding : Binding) {part : Sql},
    compileComparison d c binding = .ok part →
      part.params = (bindingSupplies c.operand binding).flatMap (Supply.sent d)
  | .value v, part, h => by
    rcases c with ⟨field, operator, before | token⟩
    -- A literal or a name in the place of the value binds nothing, whatever it is compared with.
    · obtain rfl := Except.ok.inj h
      exact params_withValue d v
    · obtain rfl := Except.ok.inj h
      rfl
  | .list values, part, h => by
    rcases c with ⟨field, operator, before | token⟩
    · exact params_of_withList d h
    · obtain rfl := Except.ok.inj h
      rfl
  | .query select, part, h => by
    rcases c with ⟨field, operator, before | token⟩
    · obtain ⟨inner, hinner, h⟩ := exists_of_bind_eq_ok h
      obtain rfl := Except.ok.inj h
      have hselect := select.params_of_compile hinner
      simp [Comparison.lhs, bindingSupplies, hselect]
    · obtain rfl := Except.ok.inj h
      rfl

end

/-! ### Parameters of writes, deletes and any statement -/

/-- The assignments of an UPDATE bind the values of the row. -/
theorem params_assignments (entries : List (String × Value)) :
    (entries.map (assignment d)).flatMap Sql.params =
      (entries.map fun entry => Supply.value .plain entry.2).flatMap (Supply.sent d) := by
  rw [List.flatMap_map, List.flatMap_map]
  rfl

/-- The groups of an INSERT bind the values of all rows, row by row. -/
theorem params_of_insertGroups {first : Tuple} {i : Nat} {rows : List Tuple} {groups : List Sql}
    (h : insertGroups d first i rows = .ok groups) :
    groups.flatMap Sql.params =
      (rows.flatMap fun row => (row.values first.fields).map (Supply.value .plain)).flatMap
        (Supply.sent d) := by
  induction rows generalizing i groups with
  | nil =>
    obtain rfl := Except.ok.inj h
    rfl
  | cons row rows ih =>
    -- A row that was checked has a value for each of the first one's fields.
    obtain ⟨_, -, h⟩ := exists_of_bind_eq_ok h
    obtain ⟨rest, hrest, h⟩ := exists_of_bind_eq_ok h
    obtain rfl := Except.ok.inj h
    have hrow : (row.values first.fields).map d.wire =
        ((row.values first.fields).map (Supply.value .plain)).flatMap (Supply.sent d) := by
      rw [List.flatMap_map]
      exact List.map_eq_flatMap
    simp [hrow, ih hrest]

/-- The parameters of a write are its supplies, as the dialect sends them. -/
theorem Write.params_of_compile {w : Write} {out : Sql} (h : w.compile d = .ok out) :
    out.params = w.supplies.flatMap (Supply.sent d) := by
  obtain ⟨first, rest, hrows, h⟩ := Write.exists_first_of_compile h
  rw [supplies, hrows, List.headD_cons]
  by_cases hupdate : w.isUpdate = true
  · rw [if_pos hupdate] at h ⊢
    obtain ⟨_, -, h⟩ := exists_of_bind_eq_ok h
    obtain ⟨parts, hparts, h⟩ := exists_of_bind_eq_ok h
    obtain rfl := Except.ok.inj h
    have hwheres := params_of_compileConditions d w.draft.wheres hparts
    simp [params_assignments, hwheres]
  · rw [if_neg hupdate] at h ⊢
    unfold compileInsert at h
    -- Anything but one source is refused.
    split at h
    · obtain ⟨groups, hgroups, h⟩ := exists_of_bind_eq_ok h
      obtain rfl := Except.ok.inj h
      rw [hrows] at hgroups
      simpa using params_of_insertGroups d hgroups
    · cases h

/-- The parameters of a delete are those of its conditions. -/
theorem Delete.params_of_compile {r : Delete} {out : Sql} (h : r.compile d = .ok out) :
    out.params = (conditionSupplies r.draft.wheres).flatMap (Supply.sent d) := by
  -- The checks before the conditions bind nothing.
  obtain ⟨_, -, h⟩ := exists_of_bind_eq_ok h
  obtain ⟨_, -, h⟩ := exists_of_bind_eq_ok h
  obtain ⟨_, -, h⟩ := exists_of_bind_eq_ok h
  obtain ⟨parts, hparts, h⟩ := exists_of_bind_eq_ok h
  obtain rfl := Except.ok.inj h
  have hwheres := params_of_compileConditions d r.draft.wheres hparts
  simp [hwheres]

/-- The parameters of a statement are its supplies, as the dialect sends them. -/
theorem Statement.params_of_compile {s : Statement} {out : Sql} (h : s.compile d = .ok out) :
    out.params = s.supplies.flatMap (Supply.sent d) := by
  cases s with
  | select s => exact Select.params_of_compile d s h
  | write w => exact Write.params_of_compile d h
  | delete r => exact Delete.params_of_compile d h

end

/-! ### Two dialects -/

section

variable {d e : Dialect}

/-- Where windows stand in the text, the values are all that is sent. -/
theorem Supply.flatMap_sent_of_commaInline (h : d.limit = .commaInline) (supplies : List Supply) :
    supplies.flatMap (sent d) = (supplies.filterMap source?).map d.wire := by
  induction supplies with
  | nil => rfl
  | cons x supplies ih =>
    rw [List.flatMap_cons, ih]
    cases x with
    | value operand v => rfl
    | window w =>
      have hnone : sent d (.window w) = [] := by simp only [sent, h]
      rw [hnone, List.filterMap_cons_none rfl]
      rfl

/-- Of a dialect, what is sent depends on where the numbers of windows and how booleans go. -/
theorem Supply.sent_congr (hlimit : d.limit = e.limit) (hbooleans : d.booleans = e.booleans) :
    sent d = sent e := by
  -- Only truth values are sent in different forms.
  have hwire (v : Value) : d.wire v = e.wire v := by
    cases v with
    | bool b => simp only [Dialect.wire_bool, Dialect.boolean, hbooleans]
    | _ => rfl
  funext x
  cases x with
  | value operand v => exact congrArg (fun v => [v]) (hwire _)
  | window w => simp only [sent, hlimit]

/-- What an operator is written as depends on the translations of the dialect only. -/
theorem Dialect.operator_congr (h : d.operators = e.operators) (written : String) :
    d.operator written = e.operator written := by
  rw [operator, operator, h]

mutual

/-- What is wrong with a select depends on the operators of the dialect only. -/
theorem Select.violations_congr (h : d.operators = e.operators) :
    ∀ s : Select, s.violations d = s.violations e
  | ⟨⟨_, wheres, _, _⟩, _, _, joins, _, _, _⟩ => by
    rw [Select.violations, Select.violations, joinViolations_congr h joins,
      conditionViolations_congr h wheres]

/-- What is wrong with joins. -/
theorem joinViolations_congr (h : d.operators = e.operators) :
    ∀ joins : List Join, joinViolations d joins = joinViolations e joins
  | [] => rfl
  | ⟨_, _, conditions⟩ :: joins => by
    rw [joinViolations, joinViolations, conditionViolations_congr h conditions,
      joinViolations_congr h joins]

/-- What is wrong with the conditions of a chain. -/
theorem conditionViolations_congr (h : d.operators = e.operators) :
    ∀ conditions : List Condition,
      conditionViolations d conditions = conditionViolations e conditions
  | [] => rfl
  | ⟨comparison, binding, _, _, _⟩ :: conditions => by
    rw [conditionViolations, conditionViolations, comparisonViolations_congr h comparison binding,
      conditionViolations_congr h conditions]

/-- What is wrong with a comparison: of all that is checked there only a list asks for the
operator. -/
theorem comparisonViolations_congr (h : d.operators = e.operators) (c : Comparison) :
    ∀ binding : Binding, comparisonViolations d c binding = comparisonViolations e c binding
  | .value v => by
    rcases c with ⟨field, operator, before | token⟩ <;> rfl
  | .list values => by
    rcases c with ⟨field, operator, before | token⟩
    · change Error.violated (takesList (d.operator operator)) _ =
        Error.violated (takesList (e.operator operator)) _
      rw [Dialect.operator_congr h]
    · rfl
  | .query q => by
    rcases c with ⟨field, operator, before | token⟩
    · exact q.violations_congr h
    · rfl

end

/-- What is wrong with a statement depends on the operators of the dialect only. -/
theorem Statement.violations_congr (h : d.operators = e.operators) (s : Statement) :
    s.violations d = s.violations e := by
  cases s with
  | select s => exact s.violations_congr h
  | write w =>
    simp only [violations, Write.violations, conditionViolations_congr h w.draft.wheres]
  | delete r =>
    simp only [violations, Delete.violations, conditionViolations_congr h r.draft.wheres]

/-- Two computations that fail alike are alike, if their results are. -/
theorem Alike.of_failureOf {α β : Type} {R : α → β → Prop} {x : Except Error α}
    {y : Except Error β} (hfail : failureOf x = failureOf y)
    (hok : ∀ a b, x = .ok a → y = .ok b → R a b) : Alike R x y := by
  cases x with
  | ok a =>
    cases y with
    | ok b => exact hok a b rfl rfl
    | error e => cases hfail
  | error e =>
    cases y with
    | ok b => cases hfail
    | error e' => exact Option.some.inj hfail

/-- **Dialects agree on meaning.** In two dialects with the same operators a statement fails with
the same error or compiles, and then the parameters of both are made of its supplies, which are the
same in every dialect: each value in the form that the dialect sends, and, unless the dialect writes
the numbers of windows into the text, the count and the skip of each window at the end of its
select. If windows and booleans go the same way, the parameters are equal. -/
theorem Statement.alike_of_operators_eq (h : d.operators = e.operators) (s : Statement) :
    Alike (fun a b =>
      a.params = s.supplies.flatMap (Supply.sent d) ∧
      b.params = s.supplies.flatMap (Supply.sent e) ∧
      (d.limit = .commaInline → a.params = (s.supplies.filterMap Supply.source?).map d.wire) ∧
      (d.limit = e.limit → d.booleans = e.booleans → a.params = b.params))
      (s.compile d) (s.compile e) := by
  -- Which error it is, and whether there is one, is told by the violations, for which only the
  -- operators count.
  have hfail : failureOf (s.compile d) = failureOf (s.compile e) := by
    rw [s.failureOf_compile d, s.failureOf_compile e, s.violations_congr h]
  refine .of_failureOf hfail fun a b ha hb => ?_
  have hleft := params_of_compile d ha
  have hright := params_of_compile e hb
  refine ⟨hleft, hright, fun hinline => ?_, fun hlimit hbooleans => ?_⟩
  · rw [hleft, Supply.flatMap_sent_of_commaInline hinline]
  · rw [hleft, hright, Supply.sent_congr hlimit hbooleans]

end

/-- A select with a window that binds a truth value, a list, and a select that has a window too. -/
def pagedSelect : Select :=
  let parents : Select :=
    { draft := { sources := [⟨"u", none⟩]
                 wheres := [⟨⟨"name", "~", .bound false true⟩, .value (.text "a"), .and, 0, 0⟩] }
      window? := some ⟨3, 0, Nat.succ_pos 2⟩ }
  { draft := { sources := [⟨"t", none⟩]
               wheres := [⟨⟨"parent", "*", .bound false false⟩, .query parents, .and, 0, 0⟩,
                 ⟨⟨"kind", "*", .bound false false⟩, .list [.int 7, .null], .and, 0, 0⟩] }
    joins := [⟨⟨"v", none⟩, .left,
      [⟨⟨"open", "=", .bound false false⟩, .value (.bool true), .and, 0, 0⟩]⟩]
    window? := some ⟨5, 10, Nat.succ_pos 4⟩ }

theorem Statement.alike_of_operators_eq_pagedSelect :
    ∃ a b, (select pagedSelect).compile Engine.mysql.dialect = .ok a ∧
      (select pagedSelect).compile Engine.pgsql.dialect = .ok b ∧
      a.params = [.int 1, .text "a%", .int 7, .null] ∧
      b.params =
        [.text "TRUE", .text "a%", .int 3, .int 0, .int 7, .null, .int 5, .int 10] := by
  have halike := alike_of_operators_eq (d := Engine.mysql.dialect) (e := Engine.pgsql.dialect) rfl
    (select pagedSelect)
  obtain ⟨a, ha⟩ : ∃ a, (select pagedSelect).compile Engine.mysql.dialect = .ok a := ⟨_, rfl⟩
  obtain ⟨b, hb⟩ : ∃ b, (select pagedSelect).compile Engine.pgsql.dialect = .ok b := ⟨_, rfl⟩
  rw [ha, hb] at halike
  obtain ⟨-, hright, hinline, -⟩ := halike
  exact ⟨a, b, ha, hb, hinline rfl, hright⟩

end SqlBuilder
