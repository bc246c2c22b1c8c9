import SqlBuilder.Proofs.Compile.WindowClause
import SqlBuilder.Statement.Select

/-!
# Pages tile the rows

A page is asked for by its size and its number, and compiles to a window: it wants as many rows as
the size and skips those of the pages before it. The numbers of the clause are not always these two.
The product that says how many rows are skipped stops at the greatest skip, and a style that binds
its numbers sends none beyond the greatest integer value, while a style that writes them into the
text sends them as they are. So near the top of the range there are many pages with one and the same
window.

Main statement, at the end: each row below the greatest integer value is in the window of exactly
one page, which is the one that dividing the row by the size gives, whatever the size, the style and
the rest of the select (`Select.onPage_iff`).

What makes it hold is that a number is cut off only where no such row is left. A skip that was cut
off is beyond the row, so all the pages that share it are too far behind; and if the count was, the
first page reaches over all of these rows (`Window.holds_ofPage_iff`).
-/

namespace SqlBuilder

/-! ### The clause in the order of its style -/

/-- The numbers of a clause in the order in which a style puts them: first the count and then the
skip, which is left out by one of the styles if it is zero. -/
def LimitStyle.excerpt? : LimitStyle → List Piece → Option Excerpt
  | .commaPlaceholders, [.number count, .other (.sign ','), .number skip] => some ⟨count, skip⟩
  | .commaInline, [.number count] => some ⟨count, 0⟩
  | .commaInline, [.number count, .other (.sign ','), .number skip] => some ⟨count, skip⟩
  | .limitOffset, [.number count, .other (.word ['O', 'F', 'F', 'S', 'E', 'T']), .number skip] =>
    some ⟨count, skip⟩
  | _, _ => none

/-- What the clause at the end of a text asks for in a style. Nothing in a clause is quoted, so any
quote character will do. -/
def LimitStyle.read (style : LimitStyle) (out : Sql) : Option Excerpt :=
  (out.limitPieces? '\x22').bind style.excerpt?

/-- What the clause of a window asks for in a style. -/
def Window.asked (style : LimitStyle) (w : Window) : Excerpt :=
  match style with
  | .commaInline => w.excerpt
  | .commaPlaceholders | .limitOffset => ⟨boundCount w.count, boundCount w.skip⟩

/-- The clause of a window behind any text is read as what the window asks for. -/
theorem LimitStyle.read_append_clause (d : Dialect) (before : Sql) (w : Window) :
    d.limit.read (before ++ w.clause d) = some (w.asked d.limit) := by
  rw [read, w.limitPieces?_append_clause (.inl rfl)]
  cases d.limit with
  | commaPlaceholders => rfl
  | limitOffset => rfl
  | commaInline =>
    -- With inlined numbers a skip of zero is left out, and read as zero all the same.
    by_cases hskip : w.skip = 0
    · have hpieces : w.pieces .commaInline = [.number w.count] := if_pos hskip
      have hexcerpt : w.excerpt = ⟨w.count, 0⟩ := by
        rw [Window.excerpt, hskip]
        rfl
      change commaInline.excerpt? (w.pieces .commaInline) = some w.excerpt
      rw [hpieces, hexcerpt]
      rfl
    · have hpieces : w.pieces .commaInline =
          [.number w.count, .other (.sign ','), .number w.skip] := if_neg hskip
      change commaInline.excerpt? (w.pieces .commaInline) = some w.excerpt
      rw [hpieces]
      rfl

/-! ### The window of a page -/

/-- The window of a page. -/
def Window.ofPage (size number : Nat) (h : 0 < size) : Window :=
  ⟨size, min (size * (number - 1)) maxSkip, h⟩

/-- A page with rows sets the window of the page. -/
theorem Select.setPage_eq (s : Select) {size : Nat} (h : 0 < size) (number : Nat) :
    s.setPage size number = { s with window? := some (.ofPage size number h) } := by
  rw [setPage, setWindow, dif_pos h]
  rfl

/-- A page without rows takes the window away. -/
theorem Select.setPage_zero (s : Select) (number : Nat) :
    s.setPage 0 number = { s with window? := none } :=
  rfl

/-- Whether an excerpt holds a row. Rows are counted from zero. -/
def Excerpt.Holds (e : Excerpt) (row : Nat) : Prop :=
  e.skip ≤ row ∧ row < e.skip + e.count

/-- The rows of one page are those whose quotient by the size is the number of pages before it. -/
theorem div_eq_iff_mem_page {size : Nat} (h : 0 < size) (row before : Nat) :
    row / size = before ↔ size * before ≤ row ∧ row < size * before + size := by
  rw [Nat.div_eq_iff h, Nat.mul_comm before size]
  omega

/-- **A page holds the rows of its quotient**, as long as the rows are below the greatest integer
value, in whichever style its clause asks for them. -/
theorem Window.holds_ofPage_iff (style : LimitStyle) {size : Nat} (h : 0 < size) (number : Nat)
    {row : Nat} (hrow : row < Value.maxInt) :
    ((ofPage size number h).asked style).Holds row ↔ row / size = number - 1 := by
  rw [div_eq_iff_mem_page h]
  -- What the two limits cut off is beyond the row, so the product may be any number here.
  generalize hskip : size * (number - 1) = skip
  have hmax : Value.maxInt = 9223372036854775807 := rfl
  cases style with
  | commaInline =>
    change ((min (size * (number - 1)) maxSkip : Nat) : Int) ≤ row ∧
      (row : Int) < (min (size * (number - 1)) maxSkip : Nat) + (size : Int) ↔ _
    rw [hskip, maxSkip]
    omega
  | commaPlaceholders | limitOffset =>
    change boundCount (min (size * (number - 1)) maxSkip) ≤ row ∧
      row < boundCount (min (size * (number - 1)) maxSkip) + boundCount size ↔ _
    rw [hskip, boundCount, boundCount, maxSkip]
    omega

/-! ### Pages -/

/-- Whether a row is on a page of a select: the page compiles, and the window that the clause in its
text asks for holds the row. -/
def Select.OnPage (d : Dialect) (s : Select) (size number row : Nat) : Prop :=
  ∃ out e, (s.setPage size number).compile d = .ok out ∧ d.limit.read out = some e ∧ e.Holds row

section

variable {d : Dialect} {s : Select} {whole : Sql}
  (h : ({ s with window? := none } : Select).compile d = .ok whole)

include h

/-- A page compiles if the select does: to the select with a clause behind it. -/
theorem Select.compile_setPage {size : Nat} (hsize : 0 < size) (number : Nat) :
    (s.setPage size number).compile d =
      .ok (whole ++ .raw " " ++ (Window.ofPage size number hsize).clause d) := by
  rw [setPage_eq s hsize, compile_window, h]
  rfl

/-- A row is on the page behind as many pages as the size goes into it. -/
theorem Select.onPage_iff_div_eq {size : Nat} (hsize : 0 < size) (number : Nat) {row : Nat}
    (hrow : row < Value.maxInt) : s.OnPage d size number row ↔ row / size = number - 1 := by
  have hcompile := compile_setPage h hsize number
  have hread := LimitStyle.read_append_clause d (whole ++ .raw " ") (.ofPage size number hsize)
  rw [← Window.holds_ofPage_iff d.limit hsize number hrow]
  constructor
  -- The page compiles to one text, and that is read as one window.
  · rintro ⟨out, e, hout, he, hholds⟩
    obtain rfl := Except.ok.inj (hcompile.symm.trans hout)
    obtain rfl := Option.some.inj (hread.symm.trans he)
    exact hholds
  · intro hholds
    exact ⟨_, _, hcompile, hread, hholds⟩

/-- **Pages tile the rows.** Of a select that compiles, a row below the greatest integer value is on
exactly one page of a size: of the pages whose numbers begin with one and have 64 bits, on the one
behind as many pages as the size goes into the row. A page with the number zero compiles like the
first one; and while every other size puts the clause of a window behind the select, the size zero
puts nothing there. -/
theorem Select.onPage_iff :
    (∀ size row : Nat, 0 < size → row < Value.maxInt → ∀ number,
      (1 ≤ number ∧ number ≤ maxSkip ∧ s.OnPage d size number row) ↔ number = row / size + 1) ∧
    (∀ size, (s.setPage size 0).compile d = (s.setPage size 1).compile d) ∧
    (∀ size number, 0 < size →
      ∃ w : Window, (s.setPage size number).compile d = .ok (whole ++ .raw " " ++ w.clause d)) ∧
    ∀ number, (s.setPage 0 number).compile d = .ok whole := by
  refine ⟨fun size row hsize hrow number => ?_, fun _ => rfl,
    fun size number hsize => ⟨_, compile_setPage h hsize number⟩, fun number => ?_⟩
  · rw [onPage_iff_div_eq h hsize number hrow]
    -- The number of the page fits into 64 bits because the row is below the greatest integer value.
    have hquotient : row / size ≤ row := Nat.div_le_self row size
    have hmax : Value.maxInt = 9223372036854775807 := rfl
    generalize row / size = quotient at hquotient ⊢
    rw [maxSkip]
    omega
  · rw [setPage_zero, h]

end

/-- Pages of a size beyond the integer values. In PostgreSQL, where its count is cut off, the first
page still holds the last of the rows; and in MySQL, where it is not, the second page does not hold
it. -/
theorem Select.onPage_iff_hugePage :
    let s : Select := { draft := { sources := [⟨"t", none⟩] } }
    let size := 18446744073709551615
    let row := 9223372036854775806
    s.OnPage Engine.pgsql.dialect size 1 row ∧ ¬s.OnPage Engine.mysql.dialect size 2 row := by
  intro s size row
  have hquotient : row / size + 1 = 1 := by decide
  obtain ⟨hpgsql, -⟩ := onPage_iff (d := Engine.pgsql.dialect) (s := s) rfl
  obtain ⟨hmysql, -⟩ := onPage_iff (d := Engine.mysql.dialect) (s := s) rfl
  have hfirst := (hpgsql size row (by decide) (by decide) 1).mpr hquotient.symm
  have hsecond := hmysql size row (by decide) (by decide) 2
  refine ⟨hfirst.2.2, fun hpage => ?_⟩
  exact absurd (hsecond.mp ⟨by decide, by decide, hpage⟩) (by decide)

end SqlBuilder
