import Mathlib.Data.List.Perm.Subperm
import SqlBuilder.Proofs.Compile.Chain
import SqlBuilder.Proofs.Statement.Failure

/-!
# Which statements compile

A statement is **acceptable** if no call on it failed and SQL has a form for all of it: no cross
join has conditions, and no condition, at any depth, binds a list to an operator that takes none; a
write has a source and data, an update one row and an insert one source and rows with the same
fields; a delete has a source, and conditions unless it may remove every row.

Main statement, at the end: a statement compiles if and only if it is acceptable, and otherwise the
error is the first of its **violations**, listed in the order in which the compiler walks
(`Statement.compile_exact`).

The two halves are proved apart. What a computation fails with is the first of a list of errors if
that holds of its parts (`failureOf_bind`), so `violations` follows the compiler call by call and
says nothing about text. And there are no violations if and only if the statement is acceptable,
which is about lists of checks only.
-/

namespace SqlBuilder

/-! ### Acceptable statements -/

mutual

/-- A select that SQL has a form for. -/
inductive Select.Acceptable (d : Dialect) : Select → Prop
  | intro {s : Select} (error : s.draft.error? = none)
      (cross : ∀ j ∈ s.joins, j.kind = .cross → j.conditions = [])
      (chains : ∀ chain ∈ s.chains, ∀ c ∈ chain, Condition.Acceptable d c) :
      Select.Acceptable d s

/-- A condition that SQL has a form for. With a literal operand nothing is bound. -/
inductive Condition.Acceptable (d : Dialect) : Condition → Prop
  | intro {c : Condition}
      (list : ∀ values, c.comparison.operand.isBound = true → c.binding = .list values →
        takesList (d.operator c.comparison.operator) = true)
      (query : ∀ q, c.BoundTo q → Select.Acceptable d q) :
      Condition.Acceptable d c

end

/-- A write that SQL has a form for. -/
structure Write.Acceptable (d : Dialect) (w : Write) (first : Tuple) (rest : List Tuple) :
    Prop where
  error : w.draft.error? = none
  source : w.draft.sources ≠ []
  rows : w.rows = first :: rest
  fields : first.fields ≠ []
  /-- With conditions it is an update. -/
  update : w.draft.wheres ≠ [] → rest = [] ∧ ∀ c ∈ w.draft.wheres, c.Acceptable d
  /-- Without conditions it is an insert. -/
  insert : w.draft.wheres = [] →
    (∃ source, w.draft.sources = [source]) ∧ ∀ t ∈ rest, ∀ f, f ∈ t.fields ↔ f ∈ first.fields

/-- A delete that SQL has a form for. -/
structure Delete.Acceptable (d : Dialect) (r : Delete) : Prop where
  error : r.draft.error? = none
  source : r.draft.sources ≠ []
  conditions : (r.draft.wheres ≠ [] ∧ ∀ c ∈ r.draft.wheres, c.Acceptable d) ∨
    (r.draft.wheres = [] ∧ r.allRows = true)

/-- A statement that SQL has a form for. -/
def Statement.Acceptable (d : Dialect) : Statement → Prop
  | .select s => s.Acceptable d
  | .write w => ∃ first rest, w.Acceptable d first rest
  | .delete r => r.Acceptable d

/-! ### Violations -/

/-- The error of a check that does not hold. -/
def Error.violated (holds : Bool) (e : Error) : List Error :=
  if holds then [] else [e]

mutual

/-- What is wrong with a select: the error in it, and what is wrong with its joins and its
conditions. -/
def Select.violations (d : Dialect) : Select → List Error
  | ⟨⟨_, wheres, _, error?⟩, _, _, joins, _, _, _⟩ =>
    error?.toList ++ (joinViolations d joins ++ conditionViolations d wheres)

/-- What is wrong with joins, one behind the other. -/
def joinViolations (d : Dialect) : List Join → List Error
  | [] => []
  | ⟨source, kind, conditions⟩ :: joins =>
    Error.violated (kind != .cross || conditions.isEmpty)
        (.unsupported (.crossJoinConditions source.name)) ++
      (conditionViolations d conditions ++ joinViolations d joins)

/-- What is wrong with conditions, one behind the other. -/
def conditionViolations (d : Dialect) : List Condition → List Error
  | [] => []
  | ⟨comparison, binding, _, _, _⟩ :: conditions =>
    comparisonViolations d comparison binding ++ conditionViolations d conditions

/-- What is wrong with a comparison: its list, or the select in it. -/
def comparisonViolations (d : Dialect) (c : Comparison) (binding : Binding) : List Error :=
  match c.operand, binding with
  | .literal _, _ => []
  | .bound _ _, .value _ => []
  | .bound _ _, .list _ =>
    Error.violated (takesList (d.operator c.operator)) (.unsupported (.listOperand c.operator))
  | .bound _ _, .query q => q.violations d

end

/-- What is wrong with the rows of an insert, of which the first is row `i`. -/
def rowViolations (first : Tuple) : Nat → List Tuple → List Error
  | _, [] => []
  | i, t :: ts =>
    Error.violated (t.sameFields first) (.structural (.unequalFields i)) ++
      rowViolations first (i + 1) ts

/-- What is wrong with a write. -/
def Write.violations (d : Dialect) (w : Write) : List Error :=
  w.draft.error?.toList ++
    (Error.violated (!w.draft.sources.isEmpty) (.structural .writeWithoutSource) ++
      match w.rows with
      | [] => [.structural .writeWithoutData]
      | first :: _ =>
        Error.violated (!first.isEmpty) (.structural .writeWithoutData) ++
          if w.isUpdate then
            Error.violated (w.rows.length ≤ 1) (.unsupported (.updateRows w.rows.length)) ++
              conditionViolations d w.draft.wheres
          else
            Error.violated (w.draft.sources.length == 1)
                (.structural (.insertSources w.draft.sources.length)) ++
              rowViolations first 0 w.rows)

/-- What is wrong with a delete. -/
def Delete.violations (d : Dialect) (r : Delete) : List Error :=
  r.draft.error?.toList ++
    (Error.violated (!r.draft.sources.isEmpty) (.structural .deleteWithoutSource) ++
      (Error.violated (r.allRows || !r.draft.wheres.isEmpty) (.structural .deleteEverything) ++
        conditionViolations d r.draft.wheres))

/-- What is wrong with a statement, in the order in which the compiler walks. -/
def Statement.violations (d : Dialect) : Statement → List Error
  | .select s => s.violations d
  | .write w => w.violations d
  | .delete r => r.violations d

/-! ### What a computation fails with -/

section

variable {α β : Type} {x : Except Error α} {es others : List Error}

/-- A computation that goes on with a result fails with the first error of its first part, and if
there is none with the first of what follows. The second list may depend on the result only by what
is known of a part that succeeded. -/
theorem failureOf_bind {f : α → Except Error β} (hx : failureOf x = es.head?)
    (hf : ∀ a, x = .ok a → failureOf (f a) = others.head?) :
    failureOf (x >>= f) = (es ++ others).head? := by
  cases x with
  | ok a =>
    -- Nothing failed, so there is no error in the first list.
    have hes : es = [] := List.head?_eq_none_iff.mp hx.symm
    rw [hes]
    exact hf a rfl
  | error e =>
    obtain ⟨rest, rfl⟩ := List.head?_eq_some_iff.mp hx.symm
    rfl

/-- What is done with a result at the end cannot fail. -/
theorem failureOf_bind_pure {f : α → β} (hx : failureOf x = es.head?) :
    failureOf (x >>= fun a => pure (f a)) = es.head? := by
  cases x <;> exact hx

theorem failureOf_raise (error? : Option Error) :
    failureOf (Error.raise error?) = error?.toList.head? := by
  cases error? <;> rfl

theorem failureOf_require (holds : Bool) (e : Error) :
    failureOf (Error.require holds e) = (Error.violated holds e).head? := by
  cases holds <;> rfl

end

/-! ### Compiling stops at the first violation -/

/-- A list can only be refused for its operator; the number of its values does not matter. -/
theorem failureOf_withList (d : Dialect) (c : Comparison) (values : List Value) :
    failureOf (c.withList d values) =
      (Error.violated (takesList (d.operator c.operator))
        (.unsupported (.listOperand c.operator))).head? := by
  unfold Comparison.withList takesList
  cases Membership.ofOperator? (d.operator c.operator) with
  | none => rfl
  | some membership =>
    dsimp only
    -- An empty list has a form of its own, but it is one.
    split <;> rfl

mutual

/-- A select fails with the error in it, or else as its joins or its WHERE chain fail. -/
theorem Select.failureOf_compile (d : Dialect) : ∀ s : Select,
    failureOf (s.compile d) = (s.violations d).head?
  | ⟨⟨_, wheres, _, error?⟩, _, _, joins, _, _, _⟩ =>
    failureOf_bind (failureOf_raise error?) fun _ _ =>
      failureOf_bind (failureOf_compileJoins d joins) fun _ _ =>
        failureOf_bind_pure (failureOf_compileConditions d wheres)

theorem failureOf_compileJoins (d : Dialect) : ∀ joins : List Join,
    failureOf (compileJoins d joins) = (joinViolations d joins).head?
  | [] => rfl
  | ⟨_, _, conditions⟩ :: joins =>
    failureOf_bind (failureOf_require _ _) fun _ _ =>
      failureOf_bind (failureOf_compileConditions d conditions) fun _ _ =>
        failureOf_bind_pure (failureOf_compileJoins d joins)

theorem failureOf_compileConditions (d : Dialect) : ∀ conditions : List Condition,
    failureOf (compileConditions d conditions) = (conditionViolations d conditions).head?
  | [] => rfl
  | ⟨comparison, binding, _, _, _⟩ :: conditions =>
    failureOf_bind (failureOf_compileComparison d comparison binding) fun _ _ =>
      failureOf_bind_pure (failureOf_compileConditions d conditions)

theorem failureOf_compileComparison (d : Dialect) (c : Comparison) : ∀ binding : Binding,
    failureOf (compileComparison d c binding) = (comparisonViolations d c binding).head?
  | .value v => by
    rcases c with ⟨field, operator, before | token⟩ <;> rfl
  | .list values => by
    rcases c with ⟨field, operator, before | token⟩
    · exact failureOf_withList d _ values
    · rfl
  | .query q => by
    rcases c with ⟨field, operator, before | token⟩
    · exact failureOf_bind_pure (q.failureOf_compile d)
    · rfl

end

/-- The rows of an insert are checked one by one, each against the first. -/
theorem failureOf_insertGroups (d : Dialect) (first : Tuple) (i : Nat) (rows : List Tuple) :
    failureOf (insertGroups d first i rows) = (rowViolations first i rows).head? := by
  induction rows generalizing i with
  | nil => rfl
  | cons t ts ih =>
    exact failureOf_bind (failureOf_require _ _) fun _ _ => failureOf_bind_pure (ih (i + 1))

/-- An insert is checked for its one source before its rows are looked at. -/
theorem Write.failureOf_compileInsert (d : Dialect) (w : Write) (first : Tuple) :
    failureOf (w.compileInsert d first) =
      (Error.violated (w.draft.sources.length == 1)
          (.structural (.insertSources w.draft.sources.length)) ++
        rowViolations first 0 w.rows).head? := by
  unfold compileInsert
  -- None, one or several sources; only one of them is taken.
  rcases w.draft.sources with - | ⟨source, - | ⟨next, more⟩⟩
  · rfl
  · exact failureOf_bind_pure (failureOf_insertGroups d first 0 w.rows)
  · rfl

/-- A write is checked as a whole before it is decided whether it is an update. -/
theorem Write.failureOf_compile (d : Dialect) (w : Write) :
    failureOf (w.compile d) = (w.violations d).head? := by
  refine failureOf_bind (failureOf_raise _) fun _ _ =>
    failureOf_bind (failureOf_require _ _) fun _ _ => ?_
  cases hrows : w.rows with
  | nil => rfl
  | cons first rest =>
    -- The first row is what the check gives back, so what follows is about it.
    have hfirst : failureOf (firstRow (first :: rest)) =
        (Error.violated (!first.isEmpty) (.structural .writeWithoutData)).head? :=
      failureOf_bind_pure (failureOf_require _ _)
    refine failureOf_bind hfirst fun t ht => ?_
    obtain ⟨_, -, ht⟩ := exists_of_bind_eq_ok ht
    obtain rfl := Except.ok.inj ht
    rw [← hrows]
    split
    · exact failureOf_bind (failureOf_require _ _) fun _ _ =>
        failureOf_bind_pure (failureOf_compileConditions d w.draft.wheres)
    · exact w.failureOf_compileInsert d first

theorem Delete.failureOf_compile (d : Dialect) (r : Delete) :
    failureOf (r.compile d) = (r.violations d).head? :=
  failureOf_bind (failureOf_raise _) fun _ _ =>
    failureOf_bind (failureOf_require _ _) fun _ _ =>
      failureOf_bind (failureOf_require _ _) fun _ _ =>
        failureOf_bind_pure (failureOf_compileConditions d r.draft.wheres)

theorem Statement.failureOf_compile (d : Dialect) (s : Statement) :
    failureOf (s.compile d) = (s.violations d).head? := by
  cases s with
  | select s => exact s.failureOf_compile d
  | write w => exact w.failureOf_compile d
  | delete r => exact r.failureOf_compile d

/-! ### Acceptable is without violations -/

/-- A check holds if it violates nothing. -/
theorem Error.violated_eq_nil {holds : Bool} {e : Error} :
    violated holds e = [] ↔ holds = true := by
  cases holds with
  | true => exact iff_of_true rfl rfl
  | false => exact iff_of_false nofun nofun

/-- An acceptable select, join by join: what is asked of all chains is asked of each ON chain and of
the WHERE chain. -/
theorem Select.acceptable_iff {d : Dialect} {s : Select} :
    s.Acceptable d ↔ s.draft.error? = none ∧
      (∀ j ∈ s.joins, (j.kind = .cross → j.conditions = []) ∧ ∀ c ∈ j.conditions, c.Acceptable d) ∧
        ∀ c ∈ s.draft.wheres, c.Acceptable d := by
  constructor
  · rintro ⟨herror, hcross, hchains⟩
    obtain ⟨hwheres, hjoins⟩ := List.forall_mem_cons.mp hchains
    exact ⟨herror, fun j hj => ⟨hcross j hj, hjoins _ (List.mem_map_of_mem hj)⟩, hwheres⟩
  · rintro ⟨herror, hjoins, hwheres⟩
    refine .intro herror (fun j hj => (hjoins j hj).1) (List.forall_mem_cons.mpr ⟨hwheres, ?_⟩)
    exact List.forall_mem_map.mpr fun j hj => (hjoins j hj).2

/-- What the compiler asks of a join, and what it means. -/
theorem JoinKind.check_iff {kind : JoinKind} {conditions : List Condition} :
    (kind != .cross || conditions.isEmpty) = true ↔ (kind = .cross → conditions = []) := by
  rw [Bool.or_eq_true, bne_iff_ne, List.isEmpty_iff, ← imp_iff_not_or]

section

variable {d : Dialect} {c : Condition}

/-- With a literal operand there is nothing to refuse. -/
theorem Condition.acceptable_of_literal (h : c.comparison.operand.isBound = false) :
    c.Acceptable d :=
  .intro (fun _ hbound => nomatch hbound.symm.trans h) fun _ hq => nomatch hq.1.symm.trans h

/-- Any operator takes a value. -/
theorem Condition.acceptable_of_value {v : Value} (h : c.binding = .value v) : c.Acceptable d := by
  refine .intro (fun values _ hlist => ?_) fun q hq => ?_
  · cases h.symm.trans hlist
  · cases h.symm.trans hq.2

/-- A list is refused if and only if the operator takes none. -/
theorem Condition.acceptable_list_iff {values : List Value}
    (hbound : c.comparison.operand.isBound = true) (hbinding : c.binding = .list values) :
    c.Acceptable d ↔ takesList (d.operator c.comparison.operator) = true := by
  constructor
  · rintro ⟨hlist, -⟩
    exact hlist values hbound hbinding
  · intro hlist
    refine .intro (fun _ _ _ => hlist) fun q hq => ?_
    cases hbinding.symm.trans hq.2

/-- A condition that is bound to a select is acceptable if the select is. -/
theorem Condition.acceptable_query_iff {q : Select} (hq : c.BoundTo q) :
    c.Acceptable d ↔ q.Acceptable d := by
  constructor
  · rintro ⟨-, hquery⟩
    exact hquery q hq
  · intro hacceptable
    refine .intro (fun values _ h => ?_) fun q' hq' => ?_
    -- It is bound to a select, so to no list, and to no other select.
    · cases hq.2.symm.trans h
    · obtain rfl := Binding.query.inj (hq.2.symm.trans hq'.2)
      exact hacceptable

end

mutual

/-- **A select is without violations if and only if it is acceptable.** By induction on the depth of
the selects inside of it, so this is proved along with the same for joins and conditions. -/
theorem Select.violations_eq_nil (d : Dialect) : ∀ s : Select,
    s.violations d = [] ↔ s.Acceptable d
  | ⟨⟨_, wheres, _, error?⟩, _, _, joins, _, _, _⟩ => by
    rw [Select.violations, List.append_eq_nil_iff, List.append_eq_nil_iff, Option.toList_eq_nil_iff,
      joinViolations_eq_nil d joins, conditionViolations_eq_nil d wheres, Select.acceptable_iff]

theorem joinViolations_eq_nil (d : Dialect) : ∀ joins : List Join,
    joinViolations d joins = [] ↔
      ∀ j ∈ joins, (j.kind = .cross → j.conditions = []) ∧ ∀ c ∈ j.conditions, c.Acceptable d
  | [] => iff_of_true rfl nofun
  | ⟨_, _, conditions⟩ :: joins => by
    rw [joinViolations, List.append_eq_nil_iff, List.append_eq_nil_iff, Error.violated_eq_nil,
      JoinKind.check_iff, conditionViolations_eq_nil d conditions, joinViolations_eq_nil d joins,
      List.forall_mem_cons, and_assoc]

theorem conditionViolations_eq_nil (d : Dialect) : ∀ conditions : List Condition,
    conditionViolations d conditions = [] ↔ ∀ c ∈ conditions, c.Acceptable d
  | [] => iff_of_true rfl nofun
  | ⟨comparison, binding, connective, opens, closes⟩ :: conditions => by
    rw [conditionViolations, List.append_eq_nil_iff, conditionViolations_eq_nil d conditions,
      comparisonViolations_eq_nil d comparison connective opens closes binding,
      List.forall_mem_cons]

theorem comparisonViolations_eq_nil (d : Dialect) (c : Comparison) (connective : Connective)
    (opens closes : Nat) : ∀ binding : Binding,
    comparisonViolations d c binding = [] ↔
      Condition.Acceptable d ⟨c, binding, connective, opens, closes⟩
  | .value v => by
    have hnil : comparisonViolations d c (.value v) = [] := by
      rcases c with ⟨field, operator, before | token⟩ <;> rfl
    exact iff_of_true hnil (Condition.acceptable_of_value rfl)
  | .list values => by
    rcases c with ⟨field, operator, ⟨before, after⟩ | token⟩
    -- What is wrong with a list is what its operator is asked, and a literal is not asked.
    · change Error.violated _ _ = [] ↔ _
      rw [Error.violated_eq_nil, Condition.acceptable_list_iff rfl rfl]
    · exact iff_of_true rfl (Condition.acceptable_of_literal rfl)
  | .query q => by
    rcases c with ⟨field, operator, ⟨before, after⟩ | token⟩
    -- What is wrong with a select is wrong with the condition.
    · change q.violations d = [] ↔ _
      rw [q.violations_eq_nil d, Condition.acceptable_query_iff ⟨rfl, rfl⟩]
    · exact iff_of_true rfl (Condition.acceptable_of_literal rfl)

end

/-! ### Rows with the same fields -/

namespace Tuple

variable {t u : Tuple}

theorem length_fields (t : Tuple) : t.fields.length = t.size :=
  List.length_map _

/-- A field that has a value is a field of the row. -/
theorem isSome_get? {f : String} : (u.get? f).isSome = true ↔ f ∈ u.fields := by
  rw [get?, List.lookup_isSome_iff, fields, List.mem_map]
  constructor
  · rintro ⟨entry, hentry, hname⟩
    exact ⟨entry, hentry, (eq_of_beq hname).symm⟩
  · rintro ⟨entry, hentry, rfl⟩
    exact ⟨entry, hentry, beq_self_eq_true _⟩

/-- As many fields, all of them fields of the other: that is all fields, because none is there
twice. -/
theorem sameFields_iff : t.sameFields u = true ↔ ∀ f, f ∈ t.fields ↔ f ∈ u.fields := by
  have hperm : t.fields.Perm u.fields ↔ ∀ f, f ∈ t.fields ↔ f ∈ u.fields :=
    List.perm_ext_iff_of_nodup t.nodup_fields u.nodup_fields
  rw [sameFields, Bool.and_eq_true, beq_iff_eq, List.all_eq_true, ← length_fields, ← length_fields,
    ← hperm]
  constructor
  · rintro ⟨hsize, hall⟩
    -- Fields of which none is there twice, inside as many others: they are the others.
    have hsubset : t.fields ⊆ u.fields := fun f hf => isSome_get?.mp (hall f hf)
    exact (t.nodup_fields.subperm hsubset).perm_of_length_le (Nat.le_of_eq hsize.symm)
  · intro hperm
    exact ⟨hperm.length_eq, fun f hf => isSome_get?.mpr (hperm.subset hf)⟩

end Tuple

/-- Rows are without violations if all of them have the fields of the first. -/
theorem rowViolations_eq_nil {first : Tuple} {i : Nat} {rows : List Tuple} :
    rowViolations first i rows = [] ↔ ∀ t ∈ rows, ∀ f, f ∈ t.fields ↔ f ∈ first.fields := by
  induction rows generalizing i with
  | nil => exact iff_of_true rfl nofun
  | cons t ts ih =>
    rw [rowViolations, List.append_eq_nil_iff, Error.violated_eq_nil, Tuple.sameFields_iff, ih,
      List.forall_mem_cons]

/-! ### Writes and deletes -/

theorem not_isEmpty_iff {α : Type} {l : List α} : (!l.isEmpty) = true ↔ l ≠ [] := by
  rw [Bool.not_eq_true', List.isEmpty_eq_false_iff]

theorem Tuple.not_isEmpty_iff {t : Tuple} : (!t.isEmpty) = true ↔ t.fields ≠ [] := by
  rw [isEmpty, SqlBuilder.not_isEmpty_iff, fields, ne_eq, ne_eq, List.map_eq_nil_iff]

/-- A write is without violations if it has the form of an update or that of an insert. -/
theorem Write.violations_eq_nil (d : Dialect) (w : Write) :
    w.violations d = [] ↔ ∃ first rest, w.Acceptable d first rest := by
  rw [violations, List.append_eq_nil_iff, List.append_eq_nil_iff, Option.toList_eq_nil_iff,
    Error.violated_eq_nil, not_isEmpty_iff]
  cases hrows : w.rows with
  | nil =>
    -- Without a row it is no write, whatever else it has.
    refine iff_of_false (fun h => List.cons_ne_nil _ _ h.2.2) ?_
    rintro ⟨first, rest, hacceptable⟩
    cases hrows.symm.trans hacceptable.rows
  | cons first rest =>
    dsimp only
    rw [List.append_eq_nil_iff, Error.violated_eq_nil, Tuple.not_isEmpty_iff]
    by_cases hwheres : w.draft.wheres = []
    -- An insert: the first row agrees with itself, so only the others say anything.
    · have hinsert : ¬w.isUpdate = true := fun h => not_isEmpty_iff.mp h hwheres
      rw [if_neg hinsert, List.append_eq_nil_iff, Error.violated_eq_nil, beq_iff_eq,
        List.length_eq_one_iff, rowViolations_eq_nil, List.forall_mem_cons]
      constructor
      · rintro ⟨herror, hsource, hfields, hone, -, hrest⟩
        exact ⟨first, rest, herror, hsource, hrows, hfields, fun h => absurd hwheres h,
          fun _ => ⟨hone, hrest⟩⟩
      · rintro ⟨first', rest', herror, hsource, hrows', hfields, -, hacceptable⟩
        obtain ⟨rfl, rfl⟩ := List.cons.inj (hrows.symm.trans hrows')
        obtain ⟨hone, hrest⟩ := hacceptable hwheres
        exact ⟨herror, hsource, hfields, hone, fun _ => Iff.rfl, hrest⟩
    -- An update: one row at most, and there is one, so there are no others.
    · have hupdate : w.isUpdate = true := not_isEmpty_iff.mpr hwheres
      rw [if_pos hupdate, List.append_eq_nil_iff, Error.violated_eq_nil,
        conditionViolations_eq_nil, decide_eq_true_iff]
      constructor
      · rintro ⟨herror, hsource, hfields, hone, hconditions⟩
        have hrest : rest = [] := List.eq_nil_of_length_eq_zero (by
          rw [List.length_cons] at hone
          omega)
        exact ⟨first, rest, herror, hsource, hrows, hfields, fun _ => ⟨hrest, hconditions⟩,
          fun h => absurd h hwheres⟩
      · rintro ⟨first', rest', herror, hsource, hrows', hfields, hacceptable, -⟩
        obtain ⟨rfl, rfl⟩ := List.cons.inj (hrows.symm.trans hrows')
        obtain ⟨rfl, hconditions⟩ := hacceptable hwheres
        exact ⟨herror, hsource, hfields, Nat.le_refl 1, hconditions⟩

theorem Delete.violations_eq_nil (d : Dialect) (r : Delete) :
    r.violations d = [] ↔ r.Acceptable d := by
  rw [violations, List.append_eq_nil_iff, List.append_eq_nil_iff, List.append_eq_nil_iff,
    Option.toList_eq_nil_iff, Error.violated_eq_nil, not_isEmpty_iff, Error.violated_eq_nil,
    Bool.or_eq_true, not_isEmpty_iff, conditionViolations_eq_nil]
  constructor
  · rintro ⟨herror, hsource, hall, hconditions⟩
    -- Whether it has conditions decides which of the two forms it has; with both it has the first.
    refine ⟨herror, hsource, ?_⟩
    by_cases hwheres : r.draft.wheres = []
    · exact .inr ⟨hwheres, hall.resolve_right fun h => h hwheres⟩
    · exact .inl ⟨hwheres, hconditions⟩
  · rintro ⟨herror, hsource, ⟨hwheres, hconditions⟩ | ⟨hwheres, hall⟩⟩
    · exact ⟨herror, hsource, .inr hwheres, hconditions⟩
    · exact ⟨herror, hsource, .inl hall, hwheres ▸ nofun⟩

theorem Statement.violations_eq_nil (d : Dialect) (s : Statement) :
    s.violations d = [] ↔ s.Acceptable d := by
  cases s with
  | select s => exact s.violations_eq_nil d
  | write w => exact w.violations_eq_nil d
  | delete r => exact r.violations_eq_nil d

/-- **Exactly the acceptable statements compile**, in every dialect, and a statement that does not
compile fails with the first of its violations: the error in it, then the checks of its kind, the
joins before the WHERE chain, from left to right, and what is wrong with a select inside of a
condition in the place of the condition. -/
theorem Statement.compile_exact (d : Dialect) (s : Statement) :
    ((∃ out, s.compile d = .ok out) ↔ s.Acceptable d) ∧
      ∀ e, s.compile d = .error e ↔ (s.violations d).head? = some e := by
  refine ⟨?_, fun e => ?_⟩
  -- Nothing fails, so the first violation is missing, so there is none.
  · calc (∃ out, s.compile d = .ok out)
        ↔ failureOf (s.compile d) = none := failureOf_eq_none.symm
      _ ↔ (s.violations d).head? = none := by rw [s.failureOf_compile d]
      _ ↔ s.violations d = [] := List.head?_eq_none_iff
      _ ↔ s.Acceptable d := s.violations_eq_nil d
  · rw [← failureOf_eq_some, failureOf_compile]

/-- A cross join with a list for an operator that takes none, and behind it a condition bound to a
select with the same mistake. -/
def manyFaults : Select :=
  .build [
    .addJoin "u" .cross,
    .addOn "a" (.list []) .and,
    .addOn "b *" (.query (.build [.common (.addCondition "c <" (.list []) .and)])) .and]

-- The first of them is the error, and the select inside comes in the place of its condition.
example : manyFaults.violations Engine.sql.dialect =
    [.unsupported (.crossJoinConditions "u"), .unsupported (.listOperand "="),
      .unsupported (.listOperand "<")] := by
  rfl

end SqlBuilder
