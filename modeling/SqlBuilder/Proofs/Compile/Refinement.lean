import SqlBuilder.Compile.Statement
import SqlBuilder.Proofs.Compile.Rendering

/-!
# Compiling writes the rendering out

The compiler puts a statement together clause by clause, joins clauses with blanks and items with
commas, and carries the parameters along with the text. The rendering is one list. That both come
to the same is shown part by part: each way to put `Sql` parts together has a list of items that is
written out to it, and then each clause has.

Main statement: whatever a statement compiles to is its rendering written out
(`Statement.eq_sql_rendering`), the text with `?` for every hole and the parameters the values of
the holes from left to right.

Selects, joins, chains and comparisons refer to each other, so their statements are proved
together, each by the recursion that compiles it. Two things do not match one to one. A clause that
is missing is an empty list of items, but leaves no blank behind in the text, so clauses behind the
first are compared with their blanks (`Sql.behind`). A chain is compiled before it is known whether
it stands alone or is attached to something, so its statement has a part for each
(`compileConditions_eq_items`).
-/

namespace SqlBuilder

/-! ### Clauses behind the first -/

namespace Sql

/-- Parts that all have the separator in front of them. -/
def behind (separator : String) : List Sql → Sql
  | [] => raw ""
  | part :: parts => raw separator ++ part ++ behind separator parts

/-- Joined parts are the first one and the others behind it. -/
theorem join_cons (separator : String) (first : Sql) (parts : List Sql) :
    join separator (first :: parts) = first ++ behind separator parts := by
  induction parts generalizing first with
  | nil => exact (append_raw_empty first).symm
  | cons next parts ih => rw [join, ih, behind, append_assoc, append_assoc]

/-- Parts behind parts. -/
theorem behind_append (separator : String) (parts more : List Sql) :
    behind separator (parts ++ more) = behind separator parts ++ behind separator more := by
  induction parts with
  | nil => exact (raw_empty_append _).symm
  | cons part parts ih => rw [List.cons_append, behind, behind, ih, append_assoc _ _ (behind ..)]

end Sql

/-! ### Writing items out -/

namespace Rendering

@[simp] theorem sql_nil (d : Dialect) : sql d [] = .raw "" := rfl

/-- An item written out. -/
def itemSql (d : Dialect) : Item → Sql
  | .hole v => .hole v
  | x => .raw (x.text d)

/-- Items are written out one by one. -/
theorem sql_cons (d : Dialect) (x : Item) (xs : List Item) :
    sql d (x :: xs) = itemSql d x ++ sql d xs := by
  cases x <;> rfl

/-- Items behind items are written out behind them. -/
theorem sql_append (d : Dialect) (xs ys : List Item) :
    sql d (xs ++ ys) = sql d xs ++ sql d ys := by
  induction xs with
  | nil => simp
  | cons x xs ih => rw [List.cons_append, sql_cons, ih, sql_cons, Sql.append_assoc]

/-- A single item written out. -/
theorem sql_singleton (d : Dialect) (x : Item) : sql d [x] = itemSql d x := by
  rw [sql_cons, sql_nil, Sql.append_raw_empty]

/-- Parts with commas between them are written out as parts joined by commas. -/
theorem sql_commaItems (d : Dialect) (parts : List (List Item)) :
    sql d (commaItems parts) = .join ", " (parts.map (sql d)) := by
  -- Both sides ask whether there is a second part before they set a comma.
  induction parts with
  | nil => rfl
  | cons part parts ih =>
    cases parts with
    | nil => rfl
    | cons next parts =>
      rw [commaItems, sql_append, sql_cons, ih, ← Sql.append_assoc]
      rfl

/-- A part in brackets. -/
theorem sql_parenItems (d : Dialect) (part : List Item) :
    sql d (parenItems part) = (sql d part).parens := by
  rw [parenItems, List.cons_append, sql_cons, sql_append, sql_singleton, ← Sql.append_assoc]
  rfl

/-- A part between the brackets of its condition. -/
theorem sql_bracketItems (d : Dialect) (opens closes : Nat) (part : List Item) :
    sql d (bracketItems opens closes part) = bracket opens closes (sql d part) := by
  rw [bracketItems, List.cons_append, sql_cons, sql_append, sql_singleton, ← Sql.append_assoc]
  rfl

/-- A field of the select list, with its alias behind AS. -/
theorem sql_fieldItems (d : Dialect) (x : Aliased) :
    sql d x.fieldItems = .raw (x.fieldText d) := by
  rcases x with ⟨name, _ | a⟩
  · exact sql_singleton d _
  · rw [Aliased.fieldItems, Aliased.fieldText, sql_cons, sql_cons, sql_singleton, Sql.raw_append,
      Sql.raw_append, Sql.append_assoc]
    rfl

/-- A source, with its alias behind a blank. -/
theorem sql_sourceItems (d : Dialect) (x : Aliased) :
    sql d x.sourceItems = .raw (x.sourceText d) := by
  rcases x with ⟨name, _ | a⟩
  · exact sql_singleton d _
  · rw [Aliased.sourceItems, Aliased.sourceText, sql_cons, sql_cons, sql_singleton, Sql.raw_append,
      Sql.raw_append, Sql.append_assoc]
    rfl

/-- A field that is sorted by, and its direction. -/
theorem sql_sortItems (d : Dialect) (sort : String × Direction) :
    sql d (sortItems sort) = .raw (d.identifier sort.1 ++ " " ++ sort.2.word) := by
  rcases sort with ⟨field, _ | _⟩
  all_goals
    rw [sortItems, sql_cons, sql_singleton, String.append_assoc, Sql.raw_append]
    rfl

/-! ### Lists without holes -/

/-- Texts with commas between them, as one text and as parts. -/
theorem raw_commas (items : List String) :
    Sql.raw (commas items) = .join ", " (items.map .raw) := by
  -- As texts they are the same by how parts are joined, and neither side has parameters.
  refine Sql.eq_of_text_of_params ?_ ?_
  · rw [Sql.text_join, List.map_map]
    change commas items = ", ".intercalate (items.map id)
    rw [List.map_id]
    rfl
  · rw [Sql.params_join, List.flatMap_map]
    exact (List.flatMap_eq_nil_iff.mpr fun _ _ => rfl).symm

variable {α : Type} {d : Dialect} {f : α → List Item} {g : α → String}

/-- Parts without holes and with commas between them. -/
theorem sql_commaItems_map (hfg : ∀ x, sql d (f x) = .raw (g x)) (xs : List α) :
    sql d (commaItems (xs.map f)) = .raw (commas (xs.map g)) := by
  rw [sql_commaItems, raw_commas, List.map_map, List.map_map]
  exact congrArg _ (List.map_congr_left fun x _ => hfg x)

/-! ### Clauses in a row -/

/-- A clause that is there begins with its keyword. -/
theorem sql_clauseItems (d : Dialect) (keyword : Item) {body : List Item} (h : body ≠ []) :
    sql d (clauseItems keyword body) = itemSql d keyword ++ sql d body := by
  cases body with
  | nil => exact absurd rfl h
  | cons x xs => exact sql_cons d keyword (x :: xs)

/-- A list with a part that is not empty is not empty. -/
theorem commaItems_ne_nil {part : List Item} (h : part ≠ []) (parts : List (List Item)) :
    commaItems (part :: parts) ≠ [] := by
  cases parts with
  | nil => exact h
  | cons next parts => exact List.append_ne_nil_of_left_ne_nil h _

/-- A clause with a list of parts, as one of the clauses behind the first. -/
theorem sql_listClause (hfg : ∀ x, sql d (f x) = .raw (g x)) (hf : ∀ x, f x ≠ []) (xs : List α)
    {keyword : Item} {word : String} (hk : itemSql d keyword = .raw (" " ++ word)) :
    sql d (clauseItems keyword (commaItems (xs.map f))) =
      .behind " " (if xs.isEmpty then [] else [.raw (word ++ commas (xs.map g))]) := by
  cases xs with
  -- Without parts the clause is missing on both sides.
  | nil => rfl
  | cons x xs =>
    have hne : commaItems ((x :: xs).map f) ≠ [] := commaItems_ne_nil (hf x) _
    rw [sql_clauseItems d keyword hne, hk, sql_commaItems_map hfg, Sql.raw_append, Sql.append_assoc]
    exact congrArg _ (Sql.append_raw_empty _).symm

/-- A source has a name. -/
theorem sourceItems_ne_nil (x : Aliased) : x.sourceItems ≠ [] := by
  rcases x with ⟨_, _ | _⟩
  all_goals exact List.cons_ne_nil _ _

/-- A sort has a field. -/
theorem sortItems_ne_nil (sort : String × Direction) : sortItems sort ≠ [] := by
  rcases sort with ⟨_, _ | _⟩
  all_goals exact List.cons_ne_nil _ _

/-- The FROM clause. -/
theorem sql_fromClause (sources : List Aliased) :
    sql d (clauseItems (.word " FROM ") (commaItems (sources.map Aliased.sourceItems))) =
      .behind " " (Select.fromClause d sources) :=
  sql_listClause (sql_sourceItems d) sourceItems_ne_nil sources rfl

/-- The GROUP BY clause. -/
theorem sql_groupClause (groups : List String) :
    sql d (clauseItems (.word " GROUP BY ") (commaItems (groups.map fun g => [.name g]))) =
      .behind " " (Select.groupClause d groups) :=
  sql_listClause (fun g => sql_singleton d (.name g)) (fun _ => List.cons_ne_nil _ _) groups rfl

/-- The ORDER BY clause. -/
theorem sql_orderClause (sorts : List (String × Direction)) :
    sql d (clauseItems (.word " ORDER BY ") (commaItems (sorts.map sortItems))) =
      .behind " " (Select.orderClause d sorts) :=
  sql_listClause (sql_sortItems d) sortItems_ne_nil sorts rfl

/-- A window, in the way in which the dialect writes it. -/
theorem sql_windowItems (w : Window) : sql d (windowItems d w) = .raw " " ++ w.clause d := by
  unfold windowItems Window.clause
  cases d.limit with
  | commaPlaceholders => rfl
  | limitOffset => rfl
  | commaInline =>
    -- The numbers stand in the text, and a skip of zero is left out.
    change sql d ([.word " LIMIT ", numberItem w.count] ++ _) =
      .raw " " ++ if w.skip = 0 then Sql.raw ("LIMIT " ++ Text.natText w.count) else _
    have hword : itemSql d (.word " LIMIT ") = .raw " " ++ .raw "LIMIT " := rfl
    have hnumber (n : Nat) : itemSql d (numberItem n) = .raw (Text.natText n) := rfl
    rw [sql_append, sql_cons, sql_singleton, hword, hnumber]
    by_cases h : w.skip = 0
    · rw [if_pos h, if_pos h, sql_nil, Sql.append_raw_empty, Sql.append_assoc]
      rfl
    · rw [if_neg h, if_neg h, sql_cons, sql_singleton, hnumber]
      simp only [Sql.raw_append, Sql.append_assoc]
      rfl

/-- The window of a select, if it has one. -/
theorem sql_limitClause (window? : Option Window) :
    sql d (window?.toList.flatMap (windowItems d)) =
      .behind " " (Select.limitClause d window?) := by
  cases window? with
  | none => rfl
  | some w =>
    change sql d (windowItems d w ++ []) = .raw " " ++ w.clause d ++ .raw ""
    rw [List.append_nil, sql_windowItems, Sql.append_raw_empty]

/-! ### Comparisons -/

/-- The left side of a comparison: the field, the operator, and blanks behind both. -/
theorem sql_leftItems (c : Comparison) : sql d c.leftItems = c.lhs d := by
  rw [Comparison.leftItems, sql_cons, sql_cons, sql_cons, sql_singleton, Comparison.lhs]
  simp only [Sql.raw_append, Sql.append_assoc]
  rfl

/-- A comparison with a value. -/
theorem sql_valueItems (c : Comparison) (v : Value) :
    sql d (c.valueItems d v) = c.withValue d v := by
  have hbound : sql d (c.leftItems ++ if takesList (d.operator c.operator)
      then parenItems [.hole (c.operand.param d v)] else [.hole (c.operand.param d v)]) =
        c.lhs d ++ if takesList (d.operator c.operator)
          then (Sql.hole (c.operand.param d v)).parens else .hole (c.operand.param d v) := by
    rw [sql_append, sql_leftItems]
    split
    · rw [sql_parenItems]
      rfl
    · rfl
  -- NULL is the only value that is not bound.
  cases v with
  | null =>
    change sql d [.name c.field, _] = c.nullTest d
    rw [Comparison.nullTest, sql_cons, sql_singleton, Sql.raw_append]
    by_cases h : c.operator = "="
    · rw [if_pos h, if_pos h]
      rfl
    · rw [if_neg h, if_neg h]
      rfl
  | _ => exact hbound

/-- A list that is accepted is rendered: the operator decides which constant an empty one is. -/
theorem sql_listItems {c : Comparison} {values : List Value} {part : Sql}
    (h : c.withList d values = .ok part) : part = sql d (c.listItems d values) := by
  unfold Comparison.withList at h
  unfold Comparison.listItems
  -- An operator that takes no list is refused, so there is nothing to render.
  cases hm : Membership.ofOperator? (d.operator c.operator) with
  | none =>
    rw [hm] at h
    cases h
  | some membership =>
    rw [hm] at h
    cases values with
    | nil =>
      obtain rfl := Except.ok.inj h
      cases membership <;> rfl
    | cons v vs =>
      obtain rfl := Except.ok.inj h
      -- A hole for each value, with commas between them and brackets around them.
      change _ = sql d (c.leftItems ++ parenItems (commaItems ((v :: vs).map _)))
      rw [sql_append, sql_leftItems, sql_parenItems, sql_commaItems, Sql.holes, List.map_map,
        List.map_map]
      rfl

end Rendering

/-! ### What is compiled is the rendering -/

/-- Taking apart a computation that may fail. -/
theorem exists_of_bind_eq_ok {α β : Type} {x : Except Error α} {k : α → Except Error β} {b : β}
    (h : (x >>= k) = .ok b) : ∃ a, x = .ok a ∧ k a = .ok b := by
  cases x with
  | error e => cases h
  | ok a => exact ⟨a, rfl, h⟩

/-- A chain with a condition has a bracket in front, if only an empty one. -/
theorem chainItems_ne_nil (d : Dialect) (c : Condition) (conditions : List Condition) :
    chainItems d (c :: conditions) ≠ [] := by
  cases c
  exact List.cons_ne_nil _ _

/-- The WHERE clause, given the chain behind it. -/
theorem sql_whereClause {d : Dialect} {conditions : List Condition}
    {parts : List (Connective × Sql)} (hlen : parts.length = conditions.length)
    (hchain : chainSql parts = Rendering.sql d (chainItems d conditions)) :
    Rendering.sql d (clauseItems (.word " WHERE ") (chainItems d conditions)) =
      .behind " " (whereClause parts) := by
  -- As many parts as conditions, so the clause is missing on both sides or on neither.
  cases parts with
  | nil =>
    rw [List.eq_nil_of_length_eq_zero hlen.symm]
    rfl
  | cons part parts =>
    obtain ⟨c, conditions, rfl⟩ := List.exists_cons_of_length_eq_add_one hlen.symm
    rw [Rendering.sql_clauseItems d _ (chainItems_ne_nil d c conditions), ← hchain]
    exact (Sql.append_raw_empty _).symm

/-- A join, given the chain behind ON. -/
theorem sql_onClause {d : Dialect} {kind : JoinKind} {source : Aliased}
    {conditions : List Condition} {parts : List (Connective × Sql)}
    (hlen : parts.length = conditions.length)
    (hchain : chainSql parts = Rendering.sql d (chainItems d conditions)) :
    Rendering.sql d (joinItem kind :: source.sourceItems ++
        clauseItems (.word " ON ") (chainItems d conditions)) =
      .raw " " ++ joinClause d kind source parts := by
  have hword : Rendering.itemSql d (joinItem kind) = .raw " " ++ .raw (kind.word ++ " JOIN ") := by
    cases kind <;> rfl
  rw [List.cons_append, Rendering.sql_cons, Rendering.sql_append, Rendering.sql_sourceItems, hword]
  -- A join without conditions has no ON.
  cases parts with
  | nil =>
    rw [List.eq_nil_of_length_eq_zero hlen.symm]
    simp only [joinClause, Sql.raw_append, Sql.append_assoc]
    exact congrArg _ (congrArg _ (congrArg _ (Sql.append_raw_empty _)))
  | cons part parts =>
    obtain ⟨c, conditions, rfl⟩ := List.exists_cons_of_length_eq_add_one hlen.symm
    rw [Rendering.sql_clauseItems d _ (chainItems_ne_nil d c conditions), ← hchain]
    simp only [joinClause, Sql.raw_append, Sql.append_assoc]
    rfl

/-- The select list, a star if no field is selected. -/
theorem sql_headItems (d : Dialect) (distinct : Bool) (fields : List Aliased) :
    Rendering.sql d (headItems distinct fields) = .raw (Select.head d distinct fields) := by
  have hfields : Rendering.sql d (if fields.isEmpty then [.word "*"]
      else commaItems (fields.map Aliased.fieldItems)) =
        .raw (if fields.isEmpty then "*" else commas (fields.map (·.fieldText d))) := by
    cases fields with
    | nil => rfl
    | cons x xs => exact Rendering.sql_commaItems_map (Rendering.sql_fieldItems d) (x :: xs)
  rw [headItems, List.cons_append, Rendering.sql_cons, Rendering.sql_append, hfields, Select.head,
    Sql.raw_append, Sql.raw_append, Sql.append_assoc]
  cases distinct <;> rfl

/-- A literal operand is a name that stands behind the operator; nothing is bound. -/
theorem eq_sql_literal {d : Dialect} {c : Comparison} {token : String} {part : Sql}
    (h : .ok (c.lhs d ++ .raw (d.identifier token)) = (.ok part : Except Error Sql)) :
    part = Rendering.sql d (c.leftItems ++ [.name token]) := by
  obtain rfl := Except.ok.inj h
  rw [Rendering.sql_append, Rendering.sql_leftItems, Rendering.sql_singleton]
  rfl

mutual

/-- A select that compiles is its rendering written out. -/
theorem Select.eq_sql_rendering (d : Dialect) : ∀ (s : Select) {out : Sql},
    s.compile d = .ok out → out = Rendering.sql d (s.rendering d)
  | ⟨⟨sources, wheres, _, error?⟩, fields, distinct, joins, window?, sorts, groups⟩, out, h => by
    -- The compiler checks for an error, then compiles the joins and then the conditions.
    obtain ⟨_, -, h⟩ := exists_of_bind_eq_ok h
    obtain ⟨joinClauses, hjoins, h⟩ := exists_of_bind_eq_ok h
    obtain ⟨parts, hparts, h⟩ := exists_of_bind_eq_ok h
    obtain ⟨hlen, -, hchain⟩ := compileConditions_eq_items d wheres hparts
    obtain rfl := Except.ok.inj h
    -- Both sides are split at their clauses, and the clauses are matched from left to right.
    rw [Select.rendering]
    simp only [List.cons_append, List.append_assoc, Sql.join_cons, Sql.behind_append,
      Rendering.sql_append]
    rw [sql_headItems, Rendering.sql_fromClause, compileJoins_eq_items d joins hjoins,
      sql_whereClause hlen hchain, Rendering.sql_groupClause, Rendering.sql_orderClause,
      Rendering.sql_limitClause]

/-- Joins that compile are written out one behind the other. -/
theorem compileJoins_eq_items (d : Dialect) : ∀ (joins : List Join) {clauses : List Sql},
    compileJoins d joins = .ok clauses →
      Rendering.sql d (joinsItems d joins) = .behind " " clauses
  | [], _, h => by
    obtain rfl := Except.ok.inj h
    rfl
  | ⟨source, kind, conditions⟩ :: joins, _, h => by
    obtain ⟨_, -, h⟩ := exists_of_bind_eq_ok h
    obtain ⟨parts, hparts, h⟩ := exists_of_bind_eq_ok h
    obtain ⟨clauses, hclauses, h⟩ := exists_of_bind_eq_ok h
    obtain ⟨hlen, -, hchain⟩ := compileConditions_eq_items d conditions hparts
    obtain rfl := Except.ok.inj h
    rw [joinsItems, Rendering.sql_append, sql_onClause hlen hchain,
      compileJoins_eq_items d joins hclauses, Sql.behind]

/-- Conditions that compile are written out, as a chain or attached to one. -/
theorem compileConditions_eq_items (d : Dialect) : ∀ (conditions : List Condition)
    {parts : List (Connective × Sql)}, compileConditions d conditions = .ok parts →
      parts.length = conditions.length ∧
        linkSql parts = Rendering.sql d (linkItems d conditions) ∧
        chainSql parts = Rendering.sql d (chainItems d conditions)
  | [], _, h => by
    obtain rfl := Except.ok.inj h
    exact ⟨rfl, rfl, rfl⟩
  | ⟨comparison, binding, connective, opens, closes⟩ :: conditions, _, h => by
    obtain ⟨part, hpart, h⟩ := exists_of_bind_eq_ok h
    obtain ⟨parts, hparts, h⟩ := exists_of_bind_eq_ok h
    obtain ⟨hlen, hlink, -⟩ := compileConditions_eq_items d conditions hparts
    obtain rfl := Except.ok.inj h
    -- With its glue in front this is the first link, without it the head of a chain.
    have hfirst : bracket opens closes part ++ linkSql parts = Rendering.sql d
        (bracketItems opens closes (comparisonItems d comparison binding) ++
          linkItems d conditions) := by
      rw [Rendering.sql_append, Rendering.sql_bracketItems, hlink,
        compileComparison_eq_items d comparison binding hpart]
    refine ⟨congrArg Nat.succ hlen, ?_, ?_⟩
    · rw [linkItems, List.cons_append, Rendering.sql_cons, ← hfirst, linkSql, Sql.append_assoc]
      cases connective <;> rfl
    · rw [chainItems, ← hfirst]
      rfl

/-- A comparison that compiles is written out. -/
theorem compileComparison_eq_items (d : Dialect) (c : Comparison) : ∀ (binding : Binding)
    {part : Sql}, compileComparison d c binding = .ok part →
      part = Rendering.sql d (comparisonItems d c binding)
  | .value v, part, h => by
    rcases c with ⟨field, operator, before | token⟩
    · obtain rfl := Except.ok.inj h
      exact (Rendering.sql_valueItems _ v).symm
    · exact eq_sql_literal h
  | .list values, part, h => by
    rcases c with ⟨field, operator, before | token⟩
    · exact Rendering.sql_listItems h
    · exact eq_sql_literal h
  | .query select, part, h => by
    rcases c with ⟨field, operator, before | token⟩
    · -- The select is rendered in its place, so its parameters are between those around it.
      obtain ⟨inner, hinner, h⟩ := exists_of_bind_eq_ok h
      obtain rfl := Except.ok.inj h
      rw [Select.eq_sql_rendering d select hinner, ← Rendering.sql_parenItems,
        ← Rendering.sql_leftItems, ← Rendering.sql_append]
      rfl
    · exact eq_sql_literal h

end

/-! ### Writes, deletes and any statement -/

variable {d : Dialect}

/-- The assignments of an UPDATE. -/
theorem sql_assignments (d : Dialect) (entries : List (String × Value)) :
    Rendering.sql d (commaItems (entries.map (assignmentItems d))) =
      .join ", " (entries.map (assignment d)) := by
  rw [Rendering.sql_commaItems, List.map_map]
  refine congrArg _ (List.map_congr_left fun entry _ => ?_)
  change Rendering.sql d [_, _, _] = assignment d entry
  rw [Rendering.sql_cons, Rendering.sql_cons, Rendering.sql_singleton, assignment, Sql.raw_append,
    Sql.append_assoc]
  rfl

/-- A row of an INSERT. -/
theorem sql_rowItems (d : Dialect) (fields : List String) (row : Tuple) :
    Rendering.sql d (rowItems d fields row) =
      (Sql.holes ((row.values fields).map d.wire)).parens := by
  rw [rowItems, Rendering.sql_parenItems, Rendering.sql_commaItems, Sql.holes, Tuple.values,
    List.map_map, List.map_map, List.map_map]
  rfl

/-- The groups of an INSERT are the rows, each in the order of the first one's fields. -/
theorem insertGroups_eq_map {first : Tuple} {i : Nat} {rows : List Tuple} {groups : List Sql}
    (h : insertGroups d first i rows = .ok groups) :
    groups = rows.map fun row => Rendering.sql d (rowItems d first.fields row) := by
  -- The number of the row is only there for the error.
  induction rows generalizing i groups with
  | nil => exact (Except.ok.inj h).symm
  | cons row rows ih =>
    obtain ⟨_, -, h⟩ := exists_of_bind_eq_ok h
    obtain ⟨rest, hrest, h⟩ := exists_of_bind_eq_ok h
    obtain rfl := Except.ok.inj h
    rw [List.map_cons, sql_rowItems, ih hrest]

/-- The sources of a write or a delete. -/
theorem sql_sourceList (d : Dialect) (sources : List Aliased) :
    Rendering.sql d (commaItems (sources.map Aliased.sourceItems)) = .raw (sourceList d sources) :=
  Rendering.sql_commaItems_map (Rendering.sql_sourceItems d) sources

/-- An INSERT has no conditions. -/
theorem Write.wheres_eq_nil {w : Write} (h : ¬w.isUpdate = true) : w.draft.wheres = [] := by
  rw [isUpdate, Bool.not_eq_true', Bool.not_eq_false, List.isEmpty_iff] at h
  exact h

/-- An UPDATE that compiles is its rendering written out. -/
theorem Write.eq_sql_update {w : Write} {first : Tuple} {out : Sql}
    (h : w.compileUpdate d first = .ok out) :
    out = Rendering.sql d (.word "UPDATE " ::
      commaItems (w.draft.sources.map Aliased.sourceItems) ++ .word " SET " ::
      commaItems (first.entries.map (assignmentItems d)) ++
      clauseItems (.word " WHERE ") (chainItems d w.draft.wheres)) := by
  obtain ⟨_, -, h⟩ := exists_of_bind_eq_ok h
  obtain ⟨parts, hparts, h⟩ := exists_of_bind_eq_ok h
  obtain ⟨hlen, -, hchain⟩ := compileConditions_eq_items d w.draft.wheres hparts
  obtain rfl := Except.ok.inj h
  -- UPDATE and SET are one part to the compiler, and WHERE stands behind it.
  rw [Sql.join_cons, Rendering.sql_append, sql_whereClause hlen hchain]
  simp only [List.cons_append, Rendering.sql_cons, Rendering.sql_append, sql_sourceList,
    sql_assignments, Sql.raw_append, Sql.append_assoc]
  rfl

/-- An INSERT that compiles is its rendering written out. -/
theorem Write.eq_sql_insert {w : Write} {first : Tuple} {out : Sql}
    (h : w.compileInsert d first = .ok out) :
    out = Rendering.sql d (.word "INSERT INTO " ::
      commaItems (w.draft.sources.map Aliased.sourceItems) ++ .word " (" ::
      commaItems (first.fields.map fun f => [.name f]) ++ .word ") VALUES " ::
      commaItems (w.rows.map (rowItems d first.fields))) := by
  -- Anything but one source is refused.
  unfold Write.compileInsert at h
  split at h
  · next source hsource =>
    obtain ⟨groups, hgroups, h⟩ := exists_of_bind_eq_ok h
    obtain rfl := Except.ok.inj h
    -- The list of columns has no holes.
    have hfields : Rendering.sql d (commaItems (first.fields.map fun f => [.name f])) =
        .raw (commas (first.fields.map d.identifier)) :=
      Rendering.sql_commaItems_map (fun f => Rendering.sql_singleton d (.name f)) _
    rw [insertGroups_eq_map hgroups, hsource]
    simp only [List.cons_append, Rendering.sql_cons, Rendering.sql_append, hfields,
      List.map_cons, List.map_nil, commaItems, Rendering.sql_sourceItems, Rendering.sql_commaItems,
      List.map_map, Sql.raw_append, Sql.append_assoc]
    rfl
  · cases h

/-- A write that compiles has a first row, and is compiled with it. -/
theorem Write.exists_first_of_compile {w : Write} {out : Sql} (h : w.compile d = .ok out) :
    ∃ first rest, w.rows = first :: rest ∧
      (if w.isUpdate then w.compileUpdate d first else w.compileInsert d first) = .ok out := by
  obtain ⟨_, -, h⟩ := exists_of_bind_eq_ok h
  obtain ⟨_, -, h⟩ := exists_of_bind_eq_ok h
  obtain ⟨first, hfirst, h⟩ := exists_of_bind_eq_ok h
  cases hrows : w.rows with
  | nil =>
    rw [hrows] at hfirst
    cases hfirst
  | cons row rows =>
    rw [hrows] at hfirst
    obtain ⟨_, -, hfirst⟩ := exists_of_bind_eq_ok hfirst
    obtain rfl := Except.ok.inj hfirst
    exact ⟨row, rows, rfl, h⟩

/-- A write that compiles is its rendering written out. -/
theorem Write.eq_sql_rendering {w : Write} {out : Sql} (h : w.compile d = .ok out) :
    out = Rendering.sql d (w.rendering d) := by
  obtain ⟨first, rest, hrows, h⟩ := Write.exists_first_of_compile h
  rw [Write.rendering, hrows]
  by_cases hu : w.isUpdate = true
  · rw [if_pos hu] at h
    rw [if_pos hu]
    exact Write.eq_sql_update h
  · rw [if_neg hu] at h
    have hinsert := Write.eq_sql_insert h
    rw [hrows] at hinsert
    rw [if_neg hu]
    exact hinsert

/-- A delete that compiles is its rendering written out. -/
theorem Delete.eq_sql_rendering {r : Delete} {out : Sql} (h : r.compile d = .ok out) :
    out = Rendering.sql d (r.rendering d) := by
  obtain ⟨_, -, h⟩ := exists_of_bind_eq_ok h
  obtain ⟨_, -, h⟩ := exists_of_bind_eq_ok h
  obtain ⟨_, -, h⟩ := exists_of_bind_eq_ok h
  obtain ⟨parts, hparts, h⟩ := exists_of_bind_eq_ok h
  obtain ⟨hlen, -, hchain⟩ := compileConditions_eq_items d r.draft.wheres hparts
  obtain rfl := Except.ok.inj h
  rw [Delete.rendering, Sql.join_cons, List.cons_append, Rendering.sql_cons, Rendering.sql_append,
    sql_whereClause hlen hchain, sql_sourceList, Sql.raw_append, Sql.append_assoc]
  rfl

/-- **Compiling refines the rendering**: whatever a statement compiles to is its rendering
written out. -/
theorem Statement.eq_sql_rendering {s : Statement} {out : Sql} (h : s.compile d = .ok out) :
    out = Rendering.sql d (s.rendering d) := by
  cases s with
  | select s => exact Select.eq_sql_rendering d s h
  | write w => exact Write.eq_sql_rendering h
  | delete r => exact Delete.eq_sql_rendering h

end SqlBuilder
