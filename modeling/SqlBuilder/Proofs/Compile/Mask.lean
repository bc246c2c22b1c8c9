import Mathlib.Data.List.Forall2
import SqlBuilder.Compile.Statement

/-!
# Values stay out of the text

A statement holds values in many places: in the rows of a write, in the conditions it or a select
inside of it is bound to, and in its window. None of them is looked at when the text is put
together, except that a comparison with NULL has a form of its own and that a list is as long as it
is. To say so, a statement is masked (`Statement.masked`): every value that does not count is
replaced by a fixed one. Two statements with the same mask differ in nothing else.

Main statement, at the end: two statements with the same mask fail with the same error, or compile
to the same text and to as many parameters (`Statement.alike_of_masked_eq`).

The proof compares a statement with its mask, along the recursion that compiles it. Two computations
are compared by how they end (`Alike`), and `Alike.bind` goes through the steps of both at once.
What remains is that each way to put `Sql` parts together depends on the values in a part only
through their number (`Sql.Alike`).
-/

namespace SqlBuilder

/-! ### Masks -/

/-- A value without anything but whether it is NULL. -/
def Value.masked (v : Value) : Value :=
  if v.isNull then .null else .bool true

/-- A window without its numbers, unless they stand in the text. -/
def Window.masked (d : Dialect) (w : Window) : Window :=
  match d.limit with
  | .commaInline => w
  | .commaPlaceholders | .limitOffset => ⟨1, 0, Nat.one_pos⟩

mutual

/-- A select without the values that it binds. -/
def Select.masked (d : Dialect) : Select → Select
  | ⟨⟨sources, wheres, pending, error?⟩, fields, distinct, joins, window?, sorts, groups⟩ =>
    ⟨⟨sources, maskConditions d wheres, pending, error?⟩, fields, distinct, maskJoins d joins,
      window?.map (·.masked d), sorts, groups⟩

/-- Joins without the values that they bind. -/
def maskJoins (d : Dialect) : List Join → List Join
  | [] => []
  | ⟨source, kind, conditions⟩ :: joins =>
    ⟨source, kind, maskConditions d conditions⟩ :: maskJoins d joins

/-- Conditions without the values that they bind. -/
def maskConditions (d : Dialect) : List Condition → List Condition
  | [] => []
  | ⟨comparison, binding, connective, opens, closes⟩ :: conditions =>
    ⟨comparison, maskBinding d comparison.operand binding, connective, opens, closes⟩ ::
      maskConditions d conditions

/-- A binding without its values. With a literal operand nothing of it is left; otherwise its kind
is, and the number of values of a list. -/
def maskBinding (d : Dialect) (operand : Operand) (binding : Binding) : Binding :=
  match operand, binding with
  | .literal _, _ => .value .null
  | .bound _ _, .value v => .value v.masked
  | .bound _ _, .list values => .list (values.map fun _ => .null)
  | .bound _ _, .query select => .query (select.masked d)

end

/-- What statements share, without the values that it binds. -/
def Draft.masked (d : Dialect) (draft : Draft) : Draft :=
  { draft with wheres := maskConditions d draft.wheres }

/-- A row without its values. -/
def Tuple.masked (t : Tuple) : Tuple where
  entries := t.entries.map fun entry => (entry.1, .null)
  nodup_fields := by
    rw [List.map_map]
    exact t.nodup_fields

/-- A statement without the values that it binds. -/
def Statement.masked (d : Dialect) : Statement → Statement
  | .select s => .select (s.masked d)
  | .write w => .write ⟨w.draft.masked d, w.rows.map Tuple.masked⟩
  | .delete r => .delete ⟨r.draft.masked d, r.allRows⟩

/-! ### Computations that end alike -/

/-- Two computations that fail with the same error, or have related results. -/
def Alike {α β : Type} (R : α → β → Prop) : Except Error α → Except Error β → Prop
  | .ok a, .ok b => R a b
  | .error e, .error e' => e = e'
  | _, _ => False

namespace Alike

variable {α β γ δ : Type} {R : α → β → Prop} {S : γ → δ → Prop}

/-- **Two computations in step**: if their first parts end alike, and what follows ends alike from
related results, they end alike. Every step of the compiler below is one use of this. -/
theorem bind {x : Except Error α} {y : Except Error β} {k : α → Except Error γ}
    {l : β → Except Error δ} (h : Alike R x y) (hk : ∀ a b, R a b → Alike S (k a) (l b)) :
    Alike S (x >>= k) (y >>= l) := by
  cases x with
  | ok a =>
    cases y with
    | ok b => exact hk a b h
    | error e => exact False.elim h
  | error e =>
    cases y with
    | ok b => exact False.elim h
    | error e' => exact h

/-- A step that both computations take. -/
theorem bind_same {x : Except Error α} {k : α → Except Error γ} {l : α → Except Error δ}
    (hk : ∀ a, Alike S (k a) (l a)) : Alike S (x >>= k) (x >>= l) := by
  cases x with
  | ok a => exact hk a
  | error e => rfl

/-- The relation of the results is turned around with the computations. -/
theorem symm {x : Except Error α} {y : Except Error β} (h : Alike R x y) :
    Alike (fun b a => R a b) y x := by
  cases x with
  | ok a =>
    cases y with
    | ok b => exact h
    -- One that fails is not like one that does not.
    | error e => exact False.elim h
  | error e =>
    cases y with
    | ok b => exact False.elim h
    | error e' => exact Eq.symm h

/-- Ending alike twice over, where the two relations of results compose. -/
theorem trans {x : Except Error α} {y : Except Error β} {z : Except Error γ} {Q : β → γ → Prop}
    {P : α → γ → Prop} (h : Alike R x y) (h' : Alike Q y z)
    (hP : ∀ a b c, R a b → Q b c → P a c) : Alike P x z := by
  cases x with
  | ok a =>
    cases y with
    | ok b =>
      cases z with
      | ok c => exact hP a b c h h'
      | error e => exact False.elim h'
    | error e => exact False.elim h
  | error e =>
    cases y with
    | ok b => exact False.elim h
    | error e' =>
      cases z with
      | ok c => exact False.elim h'
      | error e'' => exact Eq.trans h h'

end Alike

/-! ### Parts with as many values -/

/-- Two parts with the same text and as many values. -/
structure Sql.Alike (a b : Sql) : Prop where
  text_eq : a.text = b.text
  length_eq : a.params.length = b.params.length

namespace Sql.Alike

variable {a b c a' b' : Sql}

theorem refl (a : Sql) : Alike a a := ⟨rfl, rfl⟩

theorem forall_refl (parts : List Sql) : List.Forall₂ Alike parts parts :=
  List.forall₂_same.mpr fun part _ => refl part

theorem symm (h : Alike a b) : Alike b a := ⟨h.text_eq.symm, h.length_eq.symm⟩

theorem trans (h : Alike a b) (h' : Alike b c) : Alike a c :=
  ⟨h.text_eq.trans h'.text_eq, h.length_eq.trans h'.length_eq⟩

theorem hole (v w : Value) : Alike (.hole v) (.hole w) := ⟨rfl, rfl⟩

theorem append (h : Alike a b) (h' : Alike a' b') : Alike (a ++ a') (b ++ b') where
  text_eq := by rw [text_append, text_append, h.text_eq, h'.text_eq]
  length_eq := by
    rw [params_append, params_append, List.length_append, List.length_append, h.length_eq,
      h'.length_eq]

theorem parens (h : Alike a b) : Alike a.parens b.parens :=
  ((refl _).append h).append (refl _)

/-- Alike part by part is alike as a whole, whatever the separator. -/
theorem join (separator : String) {as bs : List Sql} (h : List.Forall₂ Alike as bs) :
    Alike (.join separator as) (.join separator bs) := by
  induction h with
  | nil => exact refl _
  | cons hfirst hrest ih =>
    -- A separator stands behind a part only if there is another one.
    cases hrest with
    | nil => exact hfirst
    | cons => exact (hfirst.append (refl _)).append ih

/-- Placeholders are told apart by how many there are. -/
theorem holes {values others : List Value} (h : values.length = others.length) :
    Alike (.holes values) (.holes others) := by
  refine join _ ?_
  rw [List.forall₂_map_left_iff, List.forall₂_map_right_iff]
  exact List.forall₂_iff_get.mpr ⟨h, fun _ _ _ => hole _ _⟩

end Sql.Alike

/-- Parts of a chain that are attached in the same way and are alike. -/
def PartAlike (p p' : Connective × Sql) : Prop :=
  p.1 = p'.1 ∧ p.2.Alike p'.2

theorem alike_bracket {a b : Sql} (opens closes : Nat) (h : a.Alike b) :
    (bracket opens closes a).Alike (bracket opens closes b) :=
  ((Sql.Alike.refl _).append h).append (.refl _)

/-- Attached in the same way and alike part by part, whole chains are alike. -/
theorem alike_linkSql {parts others : List (Connective × Sql)}
    (h : List.Forall₂ PartAlike parts others) : (linkSql parts).Alike (linkSql others) := by
  induction h with
  | nil => exact .refl _
  | @cons p p' parts others hpart _ ih =>
    obtain ⟨connective, part⟩ := p
    obtain ⟨rfl, hpart⟩ := hpart
    exact ((Sql.Alike.refl _).append hpart).append ih

theorem alike_chainSql {parts others : List (Connective × Sql)}
    (h : List.Forall₂ PartAlike parts others) : (chainSql parts).Alike (chainSql others) := by
  cases h with
  | nil => exact .refl _
  | cons hpart hparts => exact hpart.2.append (alike_linkSql hparts)

theorem alike_whereClause {parts others : List (Connective × Sql)}
    (h : List.Forall₂ PartAlike parts others) :
    List.Forall₂ Sql.Alike (whereClause parts) (whereClause others) := by
  have hchain := alike_chainSql h
  -- Both clauses are there, or neither of them is.
  cases h with
  | nil => exact .nil
  | cons => exact .cons ((Sql.Alike.refl _).append hchain) .nil

theorem alike_joinClause {parts others : List (Connective × Sql)} (d : Dialect) (kind : JoinKind)
    (source : Aliased) (h : List.Forall₂ PartAlike parts others) :
    (joinClause d kind source parts).Alike (joinClause d kind source others) := by
  have hchain := alike_chainSql h
  cases h with
  | nil => exact .refl _
  | cons => exact (Sql.Alike.refl _).append hchain

/-- A window that is bound has two parameters, whatever its numbers are. -/
theorem alike_window (d : Dialect) (w : Window) : (w.clause d).Alike ((w.masked d).clause d) := by
  unfold Window.clause Window.masked
  cases d.limit with
  | commaPlaceholders => exact ⟨rfl, rfl⟩
  | commaInline => exact .refl _
  | limitOffset => exact ⟨rfl, rfl⟩

/-- The window is the one clause of a select that values are bound in outside of conditions. -/
theorem alike_limitClause (d : Dialect) (window? : Option Window) :
    List.Forall₂ Sql.Alike (Select.limitClause d window?)
      (Select.limitClause d (window?.map (·.masked d))) := by
  cases window? with
  | none => exact .nil
  | some w => exact .cons (alike_window d w) .nil

/-! ### Comparisons -/

theorem Value.isNull_masked (v : Value) : v.masked.isNull = v.isNull := by
  cases v <;> rfl

/-- A comparison with a value asks whether it is NULL, which the mask keeps, and binds it
otherwise. -/
theorem alike_withValue (d : Dialect) (c : Comparison) (v : Value) :
    (c.withValue d v).Alike (c.withValue d v.masked) := by
  unfold Comparison.withValue
  rw [Value.isNull_masked]
  split
  · exact .refl _
  · have hhole := Sql.Alike.hole (c.operand.param d v) (c.operand.param d v.masked)
    refine (Sql.Alike.refl _).append ?_
    -- Whether the placeholder has brackets is up to the operator.
    split
    · exact hhole.parens
    · exact hhole

/-- A comparison with a list asks how long it is, which the mask keeps. -/
theorem alike_withList (d : Dialect) (c : Comparison) (values : List Value) :
    Alike Sql.Alike (c.withList d values) (c.withList d (values.map fun _ => .null)) := by
  unfold Comparison.withList
  cases Membership.ofOperator? (d.operator c.operator) with
  -- The operator takes no list, so neither is taken.
  | none => rfl
  | some membership =>
    dsimp only
    rw [List.isEmpty_map]
    split
    · exact .refl _
    · refine (Sql.Alike.refl _).append (Sql.Alike.parens (Sql.Alike.holes ?_))
      rw [List.length_map, List.length_map, List.length_map]

/-! ### Selects -/

/-- The mask of a chain has as many conditions, so a clause that is there stays there. -/
theorem isEmpty_maskConditions (d : Dialect) (conditions : List Condition) :
    (maskConditions d conditions).isEmpty = conditions.isEmpty := by
  rcases conditions with _ | ⟨⟨⟩, _⟩
  · rfl
  · rfl

theorem JoinKind.check_maskConditions (d : Dialect) (kind : JoinKind) (source : Aliased)
    (conditions : List Condition) :
    kind.check source (maskConditions d conditions) = kind.check source conditions := by
  rw [check, check, isEmpty_maskConditions]

mutual

/-- A select and its mask end alike. -/
theorem Select.alike_masked (d : Dialect) : ∀ s : Select,
    Alike Sql.Alike (s.compile d) ((s.masked d).compile d)
  | ⟨⟨sources, wheres, _, error?⟩, fields, distinct, joins, window?, sorts, groups⟩ => by
    refine .bind_same fun _ => ?_
    refine .bind (alike_compileJoins d joins) fun clauses others hclauses => ?_
    refine .bind (alike_compileConditions d wheres) fun parts others hparts => ?_
    -- Only the joins, the conditions and the window bind values.
    have hselected := List.rel_append (Sql.Alike.forall_refl
      (.raw (Select.head d distinct fields) :: Select.fromClause d sources)) hclauses
    have hgrouped := List.rel_append (List.rel_append hselected (alike_whereClause hparts))
      (Sql.Alike.forall_refl (Select.groupClause d groups))
    have hsorted := List.rel_append hgrouped
      (Sql.Alike.forall_refl (Select.orderClause d sorts))
    exact Sql.Alike.join " " (List.rel_append hsorted (alike_limitClause d window?))

/-- Joins and their masks end alike. -/
theorem alike_compileJoins (d : Dialect) : ∀ joins : List Join,
    Alike (List.Forall₂ Sql.Alike) (compileJoins d joins) (compileJoins d (maskJoins d joins))
  | [] => .nil
  | ⟨source, kind, conditions⟩ :: joins => by
    change Alike _ (kind.check source conditions >>= _)
      (kind.check source (maskConditions d conditions) >>= _)
    -- Whether a cross join has conditions is not a matter of their values.
    rw [JoinKind.check_maskConditions]
    refine .bind_same fun _ => ?_
    refine .bind (alike_compileConditions d conditions) fun parts others hparts => ?_
    refine .bind (alike_compileJoins d joins) fun clauses others hclauses => ?_
    exact .cons (alike_joinClause d kind source hparts) hclauses

/-- Conditions and their masks end alike. -/
theorem alike_compileConditions (d : Dialect) : ∀ conditions : List Condition,
    Alike (List.Forall₂ PartAlike) (compileConditions d conditions)
      (compileConditions d (maskConditions d conditions))
  | [] => .nil
  | ⟨comparison, binding, connective, opens, closes⟩ :: conditions => by
    refine .bind (alike_compileComparison d comparison binding) fun part other hpart => ?_
    refine .bind (alike_compileConditions d conditions) fun parts others hparts => ?_
    exact .cons ⟨rfl, alike_bracket opens closes hpart⟩ hparts

/-- A comparison ends alike whatever values it is bound to. -/
theorem alike_compileComparison (d : Dialect) (c : Comparison) : ∀ binding : Binding,
    Alike Sql.Alike (compileComparison d c binding)
      (compileComparison d c (maskBinding d c.operand binding))
  | .value v => by
    rcases c with ⟨field, operator, before | token⟩
    · exact alike_withValue d _ v
    -- With a literal operand the binding is left aside, and so is its mask.
    · exact Sql.Alike.refl _
  | .list values => by
    rcases c with ⟨field, operator, before | token⟩
    · exact alike_withList d _ values
    · exact Sql.Alike.refl _
  | .query select => by
    rcases c with ⟨field, operator, before | token⟩
    · exact .bind (Select.alike_masked d select) fun inner other hinner =>
        (Sql.Alike.refl _).append hinner.parens
    · exact Sql.Alike.refl _

end

/-! ### Writes, deletes and any statement -/

variable {d : Dialect}

theorem Tuple.fields_masked (t : Tuple) : t.masked.fields = t.fields := by
  rw [fields, fields, masked, List.map_map]
  rfl

/-- A row and its mask have values under the same names. -/
theorem Tuple.isSome_get?_masked (t : Tuple) (field : String) :
    (t.masked.get? field).isSome = (t.get? field).isSome := by
  change ((t.entries.map fun entry => (entry.1, Value.null)).lookup field).isSome =
    (t.entries.lookup field).isSome
  induction t.entries with
  | nil => rfl
  | cons entry entries ih =>
    rw [List.map_cons, List.lookup_cons, List.lookup_cons]
    split
    · rfl
    · exact ih

/-- Rows are compared by their names and by how many they are. -/
theorem Tuple.sameFields_masked (t u : Tuple) : t.masked.sameFields u.masked = t.sameFields u := by
  have hsize (t : Tuple) : t.masked.size = t.size := List.length_map _
  rw [sameFields, sameFields, hsize, hsize, fields_masked]
  simp only [isSome_get?_masked]

theorem alike_assignments (entries : List (String × Value)) :
    List.Forall₂ Sql.Alike (entries.map (assignment d))
      ((entries.map fun entry => (entry.1, Value.null)).map (assignment d)) := by
  rw [List.map_map, List.forall₂_map_left_iff, List.forall₂_map_right_iff]
  exact List.forall₂_same.mpr fun entry _ => (Sql.Alike.refl _).append (.hole _ _)

/-- The groups of an insert: the same rows are refused, and the others have as many values. -/
theorem alike_insertGroups (first : Tuple) (i : Nat) (rows : List Tuple) :
    Alike (List.Forall₂ Sql.Alike) (insertGroups d first i rows)
      (insertGroups d first.masked i (rows.map Tuple.masked)) := by
  induction rows generalizing i with
  | nil => exact .nil
  | cons row rows ih =>
    change Alike _ (Error.require (row.sameFields first) _ >>= _)
      (Error.require (row.masked.sameFields first.masked) _ >>= _)
    rw [Tuple.sameFields_masked]
    refine .bind_same fun _ => ?_
    refine .bind (ih (i + 1)) fun groups others hgroups => ?_
    refine .cons (Sql.Alike.parens (Sql.Alike.holes ?_)) hgroups
    -- A row has a value for each field of the first one, whether it has the field itself or not.
    rw [List.length_map, List.length_map, Tuple.values, Tuple.values, List.length_map,
      List.length_map, Tuple.fields_masked]

theorem Write.alike_compileUpdate (w : Write) (t : Tuple) :
    Alike Sql.Alike (w.compileUpdate d t)
      (compileUpdate d ⟨w.draft.masked d, w.rows.map Tuple.masked⟩ t.masked) := by
  unfold compileUpdate
  dsimp only
  rw [List.length_map]
  refine .bind_same fun _ => ?_
  refine .bind (alike_compileConditions d w.draft.wheres) fun parts others hparts => ?_
  exact Sql.Alike.join " " (.cons ((Sql.Alike.refl _).append (Sql.Alike.join ", "
    (alike_assignments t.entries))) (alike_whereClause hparts))

theorem Write.alike_compileInsert (w : Write) (t : Tuple) :
    Alike Sql.Alike (w.compileInsert d t)
      (compileInsert d ⟨w.draft.masked d, w.rows.map Tuple.masked⟩ t.masked) := by
  -- Anything but one source is refused with the number of sources.
  rcases w with ⟨⟨_ | ⟨source, _ | ⟨next, sources⟩⟩, wheres, pending, error?⟩, rows⟩
  · rfl
  · refine .bind (alike_insertGroups t 0 rows) fun groups others hgroups => ?_
    rw [Tuple.fields_masked]
    exact (Sql.Alike.refl _).append (Sql.Alike.join ", " hgroups)
  · rfl

/-- The first row of the mask is the mask of the first row. -/
theorem Write.alike_firstRow (rows : List Tuple) :
    Alike (fun t u => u = t.masked) (firstRow rows) (firstRow (rows.map Tuple.masked)) := by
  cases rows with
  | nil => rfl
  | cons t rows =>
    have hempty : t.masked.isEmpty = t.isEmpty := List.isEmpty_map
    change Alike _ (Error.require (!t.isEmpty) _ >>= _) (Error.require (!t.masked.isEmpty) _ >>= _)
    rw [hempty]
    exact .bind_same fun _ => rfl

/-- A statement and its mask end alike. -/
theorem Statement.alike_masked (s : Statement) :
    Alike Sql.Alike (s.compile d) ((s.masked d).compile d) := by
  cases s with
  | select s => exact Select.alike_masked d s
  | write w =>
    refine .bind_same fun _ => ?_
    refine .bind_same fun _ => ?_
    refine .bind (Write.alike_firstRow w.rows) fun first other hfirst => ?_
    obtain rfl := hfirst
    -- The mask of an update is an update.
    have hupdate : Write.isUpdate ⟨w.draft.masked d, w.rows.map Tuple.masked⟩ = w.isUpdate :=
      congrArg not (isEmpty_maskConditions d w.draft.wheres)
    rw [hupdate]
    split
    · exact Write.alike_compileUpdate w first
    · exact Write.alike_compileInsert w first
  | delete r =>
    change Alike _ (Error.raise r.draft.error? >>= _) (Error.raise r.draft.error? >>= _)
    refine .bind_same fun _ => ?_
    refine .bind_same fun _ => ?_
    change Alike _ (Error.require (r.allRows || !r.draft.wheres.isEmpty) _ >>= _)
      (Error.require (r.allRows || !(maskConditions d r.draft.wheres).isEmpty) _ >>= _)
    rw [isEmpty_maskConditions]
    refine .bind_same fun _ => ?_
    refine .bind (alike_compileConditions d r.draft.wheres) fun parts others hparts => ?_
    exact Sql.Alike.join " " (.cons (.refl _) (alike_whereClause hparts))

/-- **Values stay out of the text**: two statements that differ only in the values they bind fail
with the same error, or compile to the same text with as many parameters. -/
theorem Statement.alike_of_masked_eq {s t : Statement} (h : s.masked d = t.masked d) :
    Alike Sql.Alike (s.compile d) (t.compile d) := by
  have hs : Alike Sql.Alike (s.compile d) ((s.masked d).compile d) := s.alike_masked
  have ht : Alike Sql.Alike (t.compile d) ((t.masked d).compile d) := t.alike_masked
  -- Both end like the mask that they share.
  rw [h] at hs
  exact hs.trans ht.symm fun _ _ _ hleft hright => hleft.trans hright.symm

/-- A select with values in a pattern, in a list of a select inside of it, and in its window, and
with a binding that its literal operand leaves aside. -/
def filteredSelect (pattern : Value) (ids : List Value) (aside : Binding) (window : Window) :
    Select :=
  let parents : Select :=
    { draft := { sources := [⟨"u", none⟩]
                 wheres := [⟨⟨"id", "*", .bound false false⟩, .list ids, .and, 0, 0⟩] } }
  { draft := { sources := [⟨"t", none⟩]
               wheres := [⟨⟨"name", "~", .bound true true⟩, .value pattern, .and, 1, 0⟩,
                 ⟨⟨"a", "=", .literal "b"⟩, aside, .or, 0, 1⟩,
                 ⟨⟨"parent", "*", .bound false false⟩, .query parents, .and, 0, 0⟩] }
    window? := some window }

theorem Statement.alike_of_masked_eq_filteredSelect :
    let s := select
      (filteredSelect (.text "') --") [.int 1, .null] (.value .null) ⟨5, 0, by decide⟩)
    let t := select
      (filteredSelect (.bool true) [.text "?", .int 2] (.list []) ⟨1, 9, by decide⟩)
    s.masked Engine.pgsql.dialect = t.masked Engine.pgsql.dialect ∧
      ∃ a b, s.compile Engine.pgsql.dialect = .ok a ∧ t.compile Engine.pgsql.dialect = .ok b ∧
        a.text = b.text ∧ a.params.length = b.params.length := by
  intro s t
  have hmasked : s.masked Engine.pgsql.dialect = t.masked Engine.pgsql.dialect := rfl
  have halike := Statement.alike_of_masked_eq hmasked
  obtain ⟨a, ha⟩ : ∃ a, s.compile Engine.pgsql.dialect = .ok a := ⟨_, rfl⟩
  obtain ⟨b, hb⟩ : ∃ b, t.compile Engine.pgsql.dialect = .ok b := ⟨_, rfl⟩
  rw [ha, hb] at halike
  exact ⟨hmasked, a, b, ha, hb, halike.text_eq, halike.length_eq⟩

end SqlBuilder
