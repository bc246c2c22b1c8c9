import SqlBuilder.Proofs.Compile.Acceptance
import SqlBuilder.Proofs.Connection.Conduct

/-!
# One row and all rows

To fetch one row puts a window of one row in the place of the select's own, and skips nothing. So it
is not the first of the rows that fetching all of them gives, if the select skips some: it is the
first of those that there are without any window.

To compare the two, the database is taken to have the rows of the select and to show of them what a
window asks for (`Surroundings.Shows`). The select may have any window, and the dialect may write it
in any way.

Main statement: one row is the first of the rows that there are, and the first of all rows that are
fetched is the one behind those that the select skips, so they are the same if it skips none
(`Connection.fetchOne_eq_head?`).
-/

namespace SqlBuilder

/-! ### Windows -/

/-- The rows that are seen through a window, or all of them without one. -/
def seenThrough (rows : List Row) : Option Window → List Row
  | none => rows
  | some w => (rows.drop w.skip).take w.count

/-- The select with another window, or without one. -/
def Select.withWindow (s : Select) (window? : Option Window) : Select :=
  { s with window? }

theorem Select.withWindow_self (s : Select) : s.withWindow s.window? = s := by
  cases s
  rfl

/-- How many rows a select skips. -/
def Select.skip (s : Select) : Nat :=
  (s.window?.map (·.skip)).getD 0

/-- The first row that is seen is the one behind those that are skipped. -/
theorem head?_seenThrough (rows : List Row) (window? : Option Window) :
    (seenThrough rows window?).head? = rows[(window?.map (·.skip)).getD 0]? := by
  cases window? with
  | none => exact List.head?_eq_getElem?
  | some w =>
    have hcount : w.count ≠ 0 := Nat.ne_of_gt w.count_pos
    rw [seenThrough, List.head?_take, if_neg hcount, List.head?_drop]
    rfl

/-- Through a window of one row that skips none, the first row is seen. -/
theorem head?_seenThrough_one (rows : List Row) :
    (seenThrough rows (some ⟨1, 0, Nat.one_pos⟩)).head? = rows.head? := by
  rw [head?_seenThrough, List.head?_eq_getElem?]
  rfl

/-- The database shows rows: it replies to a select with those that its window asks for, whatever
that window is. -/
def Surroundings.Shows (around : Surroundings) (d : Dialect) (s : Select) (rows : List Row) :
    Prop :=
  ∀ window? sql, (s.withWindow window?).compile d = .ok sql →
    ∀ done, around.reply done (.query sql) = .ok (seenThrough rows window?)

/-- A window changes nothing about whether a select compiles. -/
theorem Select.failureOf_compile_withWindow (d : Dialect) (s : Select) (window? : Option Window) :
    failureOf ((s.withWindow window?).compile d) = failureOf (s.compile d) := by
  rw [failureOf_compile, failureOf_compile]
  rcases s with ⟨⟨sources, wheres, pending, error?⟩, fields, distinct, joins, _, sorts, groups⟩
  rfl

/-! ### Fetching -/

/-- A query that is waited for gives what the database replies. -/
theorem Surroundings.result_conduct_fetching (around : Surroundings) (done : List Deed)
    (c : Connection) (sql : Sql) (firstOnly : Bool) :
    (around.conduct done c (.waiting (.fetching sql firstOnly))).result =
      (around.reply done (.query sql)).map fun rows =>
        if firstOnly then .row rows.head? else .rows rows := by
  obtain ⟨b, hturn⟩ : ∃ b, around.turn done c (.fetching sql firstOnly) =
    { c with inTransaction := b }.resume (.fetching sql firstOnly)
      (around.reply done (.query sql)) := ⟨_, rfl⟩
  cases hreply : around.reply done (.query sql) with
  | error e =>
    rw [hreply] at hturn
    rw [around.conduct_of_finish done c hturn]
    rfl
  | ok rows =>
    rw [hreply] at hturn
    cases firstOnly <;> rw [around.conduct_of_finish done c hturn] <;> rfl

namespace Connection

variable (c : Connection) (around : Surroundings) {s : Select}

/-- Fetching all gives whatever rows the database replies. -/
theorem result_fetchAll {sql : Sql} (h : s.compile c.dialect = .ok sql) :
    ∃ done, (c.conduct around (.fetchAll s)).result =
      (around.reply done (.query sql)).map .rows := by
  have hstart : c.start (.fetchAll s) =
      c.await (c.statementReports (.select s) sql) (.fetching sql false) :=
    withSql_of_ok (s := .select s) h _
  rw [conduct, hstart]
  exact ⟨_, around.result_conduct_fetching _ _ _ _⟩

/-- Fetching one gives the first of whatever rows the database replies to the select with the window
of one row. -/
theorem result_fetchOne {sql : Sql} (h : (s.setWindow 1 0).compile c.dialect = .ok sql) :
    ∃ done, (c.conduct around (.fetchOne s)).result =
      (around.reply done (.query sql)).map fun rows => .row rows.head? := by
  have hstart : c.start (.fetchOne s) =
      c.await (c.statementReports (.select (s.setWindow 1 0)) sql) (.fetching sql true) :=
    withSql_of_ok (s := .select (s.setWindow 1 0)) h _
  rw [conduct, hstart]
  exact ⟨_, around.result_conduct_fetching _ _ _ _⟩

/-- An operation whose statement does not compile ends with that error. -/
theorem result_of_error (op : Operation) {t : Statement} (ht : op.statement? = some t) {e : Error}
    (h : t.compile c.dialect = .error e) : (c.conduct around op).result = .error e := by
  rw [conduct, start_of_error ht h]
  simp only [finish, Surroundings.conduct]

section

variable {rows : List Row} {sql : Sql} (hshows : around.Shows c.dialect s rows)
include hshows

/-- All rows that are seen through the window of the select. -/
theorem result_fetchAll_of_shows (h : s.compile c.dialect = .ok sql) :
    (c.conduct around (.fetchAll s)).result = .ok (.rows (seenThrough rows s.window?)) := by
  obtain ⟨done, hresult⟩ := c.result_fetchAll around h
  have hown : (s.withWindow s.window?).compile c.dialect = .ok sql := by
    rw [s.withWindow_self]
    exact h
  rw [hresult, hshows s.window? sql hown]
  rfl

/-- The first row that there is, through whatever window the select has. -/
theorem result_fetchOne_of_shows (h : s.compile c.dialect = .ok sql) :
    (c.conduct around (.fetchOne s)).result = .ok (.row rows.head?) := by
  have hfailure : failureOf ((s.setWindow 1 0).compile c.dialect) =
      failureOf (s.compile c.dialect) := s.failureOf_compile_withWindow c.dialect _
  -- With the window of one row the select compiles too, and the database shows its rows as well.
  obtain ⟨sqlOne, hone⟩ : ∃ sqlOne, (s.setWindow 1 0).compile c.dialect = .ok sqlOne := by
    rw [← failureOf_eq_none, hfailure, failureOf_eq_none]
    exact ⟨sql, h⟩
  obtain ⟨done, hresult⟩ := c.result_fetchOne around hone
  rw [hresult, hshows _ sqlOne hone]
  exact congrArg (Except.ok ∘ Outcome.row) (head?_seenThrough_one rows)

/-- **One row and all rows.** If the select does not compile, both ways to fetch end with the same
error. If it does, and the database shows its rows, then fetching one gives the first of the rows,
and fetching all gives rows of which the first is the one behind those that the select skips; there
are none exactly if it skips them all. So one row is the first of all rows that are fetched, and is
none exactly if no rows are, if the select skips none. -/
theorem fetchOne_eq_head? :
    (∀ e, s.compile c.dialect = .error e →
      (c.conduct around (.fetchAll s)).result = .error e ∧
        (c.conduct around (.fetchOne s)).result = .error e) ∧
    ∀ sql, s.compile c.dialect = .ok sql →
      ∃ found, (c.conduct around (.fetchAll s)).result = .ok (.rows found) ∧
        (c.conduct around (.fetchOne s)).result = .ok (.row rows.head?) ∧
        found.head? = rows[s.skip]? ∧ (found = [] ↔ rows.length ≤ s.skip) ∧
        (s.skip = 0 → rows.head? = found.head? ∧ (rows.head? = none ↔ found = [])) := by
  refine ⟨fun e he => ?_, fun sql hsql => ?_⟩
  · have hone : (s.setWindow 1 0).compile c.dialect = .error e := by
      have hfailure := s.failureOf_compile_withWindow c.dialect (s.setWindow 1 0).window?
      rw [← failureOf_eq_some] at he ⊢
      exact hfailure.trans he
    exact ⟨c.result_of_error around (.fetchAll s) rfl he,
      c.result_of_error around (.fetchOne s) rfl hone⟩
  · have hhead : (seenThrough rows s.window?).head? = rows[s.skip]? :=
      head?_seenThrough rows s.window?
    have hnone : seenThrough rows s.window? = [] ↔ rows.length ≤ s.skip := by
      rw [← List.head?_eq_none_iff, hhead, List.getElem?_eq_none_iff]
    refine ⟨_, c.result_fetchAll_of_shows around hshows hsql,
      c.result_fetchOne_of_shows around hshows hsql, hhead, hnone, fun hskip => ?_⟩
    have hfirst : rows.head? = (seenThrough rows s.window?).head? := by
      rw [hhead, hskip, List.head?_eq_getElem?]
    exact ⟨hfirst, by rw [hfirst, List.head?_eq_none_iff]⟩

end

end Connection

/-! ### A database with a window -/

/-- A database that reads the count and the skip of a window from the last two parameters. -/
def shower (rows : List Row) : (r : Request) → Reply r
  | .query sql =>
    match sql.params with
    | [.int count, .int skip] => .ok ((rows.drop skip.toNat).take count.toNat)
    | _ => .ok rows
  | .execute _ => .ok 0
  | .lastId => .ok none
  | .begin | .commit | .rollback => .ok ()

/-- A number that is cut to the greatest integer value drops or takes the same of a list that is not
longer than that. -/
theorem take_drop_countParam {rows : List Row} (h : (rows.length : Int) ≤ Value.maxInt)
    (count skip : Nat) :
    (rows.drop (min (skip : Int) Value.maxInt).toNat).take (min (count : Int) Value.maxInt).toNat =
      (rows.drop skip).take count := by
  have hdrop : rows.drop (min (skip : Int) Value.maxInt).toNat = rows.drop skip := by
    rw [List.drop_eq_drop_iff]
    omega
  rw [hdrop, List.take_eq_take_iff, List.length_drop]
  omega

/-- It shows the rows of a table, unless there are more than can be counted. -/
theorem shows_shower {rows : List Row} (h : (rows.length : Int) ≤ Value.maxInt) :
    (Surroundings.still (shower rows)).Shows Engine.sql.dialect wholeTable rows := by
  intro window? sql hsql done
  -- The select binds nothing else, so the parameters are those of its window.
  cases window? with
  | none =>
    obtain rfl := Except.ok.inj hsql
    rfl
  | some w =>
    obtain rfl := Except.ok.inj hsql
    exact congrArg Except.ok (take_drop_countParam h w.count w.skip)

/-- Two rows of a table with one column. -/
def twoRows : List Row :=
  [⟨[("a", .int 1)]⟩, ⟨[("a", .int 2)]⟩]

theorem Connection.fetchOne_eq_head?_twoRows :
    let s := wholeTable.setWindow 5 1
    let c := Connection.ofEngine .sql
    let around := Surroundings.still (shower twoRows)
    around.Shows c.dialect s twoRows ∧
      (c.conduct around (.fetchOne s)).result = .ok (.row (some ⟨[("a", .int 1)]⟩)) ∧
      ∃ found, (c.conduct around (.fetchAll s)).result = .ok (.rows found) ∧
        found.head? = some ⟨[("a", .int 2)]⟩ := by
  intro s c around
  have hshows : around.Shows c.dialect s twoRows := shows_shower (by decide)
  obtain ⟨-, hcompiled⟩ := fetchOne_eq_head? c around hshows
  obtain ⟨found, hall, hone, hhead, -, -⟩ := hcompiled _ rfl
  exact ⟨hshows, hone, found, hall, hhead⟩

/-- With a window that skips the first of two rows, it is fetched alone and not among all. -/
theorem Connection.not_fetchOne_eq_head? :
    ¬ ∀ (c : Connection) (around : Surroundings) (s : Select) (rows found : List Row),
      around.Shows c.dialect s rows →
        (c.conduct around (.fetchAll s)).result = .ok (.rows found) →
          (c.conduct around (.fetchOne s)).result = .ok (.row found.head?) := by
  intro hclaim
  let s := wholeTable.setWindow 1 1
  let around := Surroundings.still (shower twoRows)
  have hshows : around.Shows Engine.sql.dialect s twoRows := shows_shower (by decide)
  obtain ⟨sql, hsql⟩ : ∃ sql, s.compile Engine.sql.dialect = .ok sql := ⟨_, rfl⟩
  have hall := result_fetchAll_of_shows (ofEngine .sql) around hshows hsql
  have hone := hclaim (ofEngine .sql) around s twoRows _ hshows hall
  rw [result_fetchOne_of_shows (ofEngine .sql) around hshows hsql] at hone
  have hrow : some (Row.mk [("a", .int 1)]) = some (Row.mk [("a", .int 2)]) :=
    Outcome.row.inj (Except.ok.inj hone)
  simp at hrow

end SqlBuilder
