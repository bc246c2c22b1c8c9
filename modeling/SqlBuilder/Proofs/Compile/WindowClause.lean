import Mathlib.Data.List.Basic
import SqlBuilder.Proofs.Compile.Refinement
import SqlBuilder.Proofs.Text.Lexeme

/-!
# The window that a database reads

A select says how many rows it wants and how many are skipped before them. What a database makes of
that depends on its grammar: PostgreSQL has `LIMIT count OFFSET skip`, and MySQL has `LIMIT count`
and `LIMIT skip, count`, with the two numbers the other way round. `Database.read` is such a
database. It takes the text behind the last word LIMIT, cuts it into lexemes, lets the placeholders
among them stand for the last parameters, and reads the numbers by its grammar.

Main statement, at the end: PostgreSQL reads the window of every select as it was set, and MySQL
reads the two numbers for each other, unless nothing is skipped
(`Database.read_of_compile`). So for MySQL the clause asks for the right rows only if nothing is
skipped or as many rows are skipped as are wanted.

Nothing is supposed about the rest of the statement. Whatever names and conditions put into the
text, the clause is the end of it (`Select.exists_append_clause`), and a reader that looks for the
last LIMIT finds it, because the clause has no second one (`Text.behindLast?_append`).
-/

namespace SqlBuilder

/-! ### The end of a text -/

/-- The text behind the last place where a word stands. -/
def Text.behindLast? (word : List Char) : List Char → Option (List Char)
  | [] => none
  | c :: cs => (behindLast? word cs).or (word.isPrefixOf? (c :: cs))

namespace Text

/-- A word does not stand where its first character does not. -/
theorem behindLast?_eq_none {c : Char} {cs : List Char} (h : c ∉ cs) (word : List Char) :
    behindLast? (c :: word) cs = none := by
  induction cs with
  | nil => rfl
  | cons d ds ih =>
    obtain ⟨hne, hmem⟩ := not_or.mp (mt List.mem_cons.mpr h)
    have hfront : (c :: word).isPrefixOf? (d :: ds) = none := by
      rw [List.isPrefixOf?, if_neg fun heq => hne (beq_iff_eq.mp heq)]
    rw [behindLast?, ih hmem, hfront]
    rfl

/-- **A word is found at its last place**, whatever stands before it, if its first character does
not come again. -/
theorem behindLast?_append {c : Char} {word rest : List Char} (h : c ∉ word ++ rest)
    (before : List Char) :
    behindLast? (c :: word) (before ++ c :: (word ++ rest)) = some rest := by
  induction before with
  | nil =>
    have hfront : (c :: word).isPrefixOf? (c :: (word ++ rest)) = some rest :=
      List.isPrefixOf?_eq_some_iff_append_eq.mpr rfl
    rw [List.nil_append, behindLast?, behindLast?_eq_none h word, hfront]
    rfl
  | cons b before ih =>
    rw [List.cons_append, behindLast?, ih]
    rfl

end Text

/-! ### Databases that read a window -/

/-- A database that an engine is named for. -/
inductive Database where
  | mysql
  | postgresql
  deriving DecidableEq, Repr

/-- The engine that compiles for a database. -/
def Database.engine : Database → Engine
  | .mysql => .mysql
  | .postgresql => .pgsql

/-- How many rows a database is asked for, and how many it leaves out before them. -/
structure Excerpt where
  count : Int
  skip : Int
  deriving DecidableEq, Repr

/-- The excerpt that a window stands for. -/
def Window.excerpt (w : Window) : Excerpt :=
  ⟨w.count, w.skip⟩

/-- What a database finds in a clause: numbers, and what stands between them. -/
inductive Piece where
  | number (n : Int)
  | other (x : Lexeme)
  deriving DecidableEq, Repr

namespace Piece

/-- A value in the place of a placeholder. -/
def ofValue : Value → Piece
  | .int n => .number n
  | _ => .other (.sign '?')

/-- Digits are a number, and a fraction is none that counts rows. -/
def ofDigits (digits : List Char) : Piece :=
  if digits.all Char.isDigit then .number (Text.ofDigits digits) else .other (.number digits)

/-- The pieces of a clause. The placeholders take the values one after another, and blanks only
keep pieces apart. -/
def ofLexemes : List Lexeme → List Value → List Piece
  | [], _ => []
  | .sign ' ' :: xs, values => ofLexemes xs values
  | .sign '?' :: xs, v :: values => ofValue v :: ofLexemes xs values
  | .number digits :: xs, values => ofDigits digits :: ofLexemes xs values
  | x :: xs, values => .other x :: ofLexemes xs values

end Piece

namespace Database

/-- The grammar of the clause behind its first word. -/
def excerpt? : Database → List Piece → Option Excerpt
  | .postgresql, [.number count, .other (.word ['O', 'F', 'F', 'S', 'E', 'T']), .number skip] =>
    some ⟨count, skip⟩
  | .mysql, [.number count] => some ⟨count, 0⟩
  | .mysql, [.number skip, .other (.sign ','), .number count] => some ⟨count, skip⟩
  | _, _ => none

/-- What the database is asked for by the clause at the end of a text. -/
def read (b : Database) (out : Sql) : Option Excerpt := do
  let clause ← Text.behindLast? "LIMIT".toList out.text.toList
  let lexemes := Lexeme.scan b.engine.dialect.quote clause
  let marks := lexemes.count (.sign '?')
  b.excerpt? (Piece.ofLexemes lexemes (out.params.drop (out.params.length - marks)))

end Database

/-- The pieces of the clause at the end of a text, where `q` is the quote character. The
placeholders in the clause take the last parameters. -/
def Sql.limitPieces? (q : Char) (out : Sql) : Option (List Piece) := do
  let clause ← Text.behindLast? "LIMIT".toList out.text.toList
  let lexemes := Lexeme.scan q clause
  let marks := lexemes.count (.sign '?')
  return Piece.ofLexemes lexemes (out.params.drop (out.params.length - marks))

/-- A database reads the pieces of the clause by its grammar. -/
theorem Database.read_eq_bind (b : Database) (out : Sql) :
    b.read out = (out.limitPieces? b.engine.dialect.quote).bind b.excerpt? := by
  rw [read, Sql.limitPieces?]
  cases Text.behindLast? "LIMIT".toList out.text.toList <;> rfl

/-! ### The clause at the end of a select -/

/-- A last part is joined behind the others. -/
theorem Sql.join_concat {parts : List Sql} (h : parts ≠ []) (separator : String) (last : Sql) :
    join separator (parts ++ [last]) = join separator parts ++ raw separator ++ last := by
  obtain ⟨first, rest, rfl⟩ := List.exists_cons_of_ne_nil h
  rw [List.cons_append, join_cons, join_cons, behind_append, behind, behind, append_raw_empty,
    append_assoc, append_assoc]

/-- A window puts its clause behind the select without one, and changes nothing else. -/
theorem Select.compile_window (d : Dialect) (s : Select) (w : Window) :
    ({ s with window? := some w } : Select).compile d =
      (({ s with window? := none } : Select).compile d).map
        fun whole => whole ++ .raw " " ++ w.clause d := by
  rw [compile_eq, compile_eq]
  -- The window is compiled last, so an error before it is the same with a window and without.
  cases Error.raise s.draft.error? with
  | error e => rfl
  | ok done =>
    change Except.bind (compileJoins d s.joins) _ =
      Except.map _ (Except.bind (compileJoins d s.joins) _)
    cases compileJoins d s.joins with
    | error e => rfl
    | ok joinClauses =>
      change Except.bind (compileConditions d s.draft.wheres) _ =
        Except.map _ (Except.bind (compileConditions d s.draft.wheres) _)
      cases compileConditions d s.draft.wheres with
      | error e => rfl
      | ok parts =>
        -- The words in front of the sources are always there, so the clause stands behind a blank.
        have hlast := fun clauses => Sql.join_concat
          (List.cons_ne_nil (Sql.raw (head d s.distinct s.fields)) clauses) " " (w.clause d)
        change Except.ok (Sql.join " " (_ ++ [w.clause d])) =
          Except.ok (Sql.join " " (_ ++ []) ++ .raw " " ++ w.clause d)
        rw [List.append_nil]
        exact congrArg Except.ok (hlast _)

/-- A select that compiles ends with the clause of its window, text and parameters alike. -/
theorem Select.exists_append_clause {d : Dialect} {s : Select} {w : Window} {out : Sql}
    (h : s.compile d = .ok out) (hw : s.window? = some w) :
    ∃ before, out = before ++ w.clause d := by
  have hs : s = { s with window? := some w } := by
    cases s
    cases hw
    rfl
  rw [hs, compile_window] at h
  cases hwhole : ({ s with window? := none } : Select).compile d with
  | error e =>
    rw [hwhole] at h
    cases h
  | ok whole =>
    rw [hwhole] at h
    exact ⟨whole ++ .raw " ", (Except.ok.inj h).symm⟩

/-- The clause is read on its own, whatever stands before it: its placeholders are as many as its
parameters, which are the last ones. -/
theorem Sql.limitPieces?_append {q : Char} (before : Sql) {clause : Sql} {rest : String}
    {lexemes : List Lexeme} (htext : clause.text = "LIMIT" ++ rest) (hrest : 'L' ∉ rest.toList)
    (hscan : Lexeme.scan q rest.toList = lexemes)
    (hmarks : lexemes.count (.sign '?') = clause.params.length) :
    (before ++ clause).limitPieces? q = some (Piece.ofLexemes lexemes clause.params) := by
  have hword : "LIMIT".toList = ['L', 'I', 'M', 'I', 'T'] := by decide
  have hnot : 'L' ∉ ['I', 'M', 'I', 'T'] ++ rest.toList := by
    rw [List.mem_append]
    exact not_or.mpr ⟨by decide, hrest⟩
  have hclause : Text.behindLast? "LIMIT".toList (before ++ clause).text.toList =
      some rest.toList := by
    rw [Sql.text_append, String.toList_append, htext, String.toList_append, hword]
    exact Text.behindLast?_append hnot before.text.toList
  -- The parameters in front are dropped, as many as there are.
  have hbound : (before ++ clause).params.drop ((before ++ clause).params.length -
      clause.params.length) = clause.params := by
    rw [Sql.params_append, List.length_append, Nat.add_sub_cancel, List.drop_left]
  rw [limitPieces?, hclause]
  change some (Piece.ofLexemes (Lexeme.scan q rest.toList) _) = _
  rw [hscan, hmarks, hbound]

/-! ### Numbers in a clause -/

/-- The digits of a number are read as the number. -/
theorem Piece.ofDigits_digits (n : Nat) : ofDigits (Text.digits n) = .number n := by
  have hall : (Text.digits n).all Char.isDigit = true :=
    List.all_eq_true.mpr fun _ => Text.isDigit_of_mem_digits
  rw [ofDigits, if_pos hall, Text.ofDigits_digits]

/-- Digits bring no second LIMIT. -/
theorem Text.notMem_digits (n : Nat) : 'L' ∉ Text.digits n := fun hmem =>
  absurd (Text.isDigit_of_mem_digits hmem) (by decide)

namespace Lexeme

section Clause

variable {q : Char} (hq : q = '\x22' ∨ q = '\x60')

include hq

/-- A blank is a lexeme of its own. -/
theorem scan_blank (cs : List Char) : scan q (' ' :: cs) = .sign ' ' :: scan q cs := by
  rcases hq with rfl | rfl
  all_goals exact scan_of_sign (by decide) (by decide) (by decide) cs

/-- So is a comma. -/
theorem scan_comma (cs : List Char) : scan q (',' :: cs) = .sign ',' :: scan q cs := by
  rcases hq with rfl | rfl
  all_goals exact scan_of_sign (by decide) (by decide) (by decide) cs

/-- So is a placeholder. -/
theorem scan_mark (cs : List Char) : scan q ('?' :: cs) = .sign '?' :: scan q cs := by
  rcases hq with rfl | rfl
  all_goals exact scan_of_sign (by decide) (by decide) (by decide) cs

/-- Digits behind a blank are one lexeme, in front of a comma or at the end. -/
theorem scan_blank_digits (n : Nat) {rest : List Char} (hrest : ∀ c ∈ rest.head?, c = ',') :
    scan q (' ' :: (Text.digits n ++ rest)) =
      .sign ' ' :: .number (Text.digits n) :: scan q rest := by
  -- A number ends where neither a digit nor a point comes.
  have hends : ∀ c ∈ rest.head?, c.isDigit = false ∧ c ≠ '.' := by
    intro c hc
    obtain rfl := hrest c hc
    decide
  have hdigit : q.isDigit = false := by
    rcases hq with rfl | rfl
    all_goals decide
  rw [scan_blank hq, scan_digits_append hdigit (Text.digits_ne_nil n)
    (fun _ => Text.isDigit_of_mem_digits) hends]

/-- Digits behind a blank at the end of the clause. -/
theorem scan_blank_digits_end (n : Nat) :
    scan q (' ' :: Text.digits n) = [.sign ' ', .number (Text.digits n)] := by
  have hnil : ∀ c ∈ ([] : List Char).head?, c = ',' := nofun
  have hscan := scan_blank_digits hq n hnil
  rw [List.append_nil, scan] at hscan
  exact hscan

/-- Two placeholders with a comma between them. -/
theorem scan_marks : scan q " ?, ?".toList =
    [.sign ' ', .sign '?', .sign ',', .sign ' ', .sign '?'] := by
  have hchars : " ?, ?".toList = [' ', '?', ',', ' ', '?'] := by decide
  rw [hchars, scan_blank hq, scan_mark hq, scan_comma hq, scan_blank hq, scan_mark hq, scan]

/-- Two placeholders with the word OFFSET between them. -/
theorem scan_offset : scan q " ? OFFSET ?".toList =
    [.sign ' ', .sign '?', .sign ' ', .word "OFFSET".toList, .sign ' ', .sign '?'] := by
  have hchars : " ? OFFSET ?".toList =
      [' ', '?', ' ', 'O', 'F', 'F', 'S', 'E', 'T', ' ', '?'] := by decide
  have hletter : ¬('O' = q ∨ 'O' = '\x27') := by
    rcases hq with rfl | rfl
    all_goals decide
  have hword : ['F', 'F', 'S', 'E', 'T', ' ', '?'].takeWhile isWordChar =
      ['F', 'F', 'S', 'E', 'T'] := by decide
  have hrest : ['F', 'F', 'S', 'E', 'T', ' ', '?'].dropWhile isWordChar = [' ', '?'] := by decide
  rw [hchars, scan_blank hq, scan_mark hq, scan_blank hq,
    scan_of_isLetter hletter (by decide) (by decide), hword, hrest, scan_blank hq, scan_mark hq,
    scan]
  decide

end Clause

end Lexeme

/-! ### The clause of each style -/

namespace Window

/-- A count of rows that was bound, as a number. -/
def boundCount (n : Nat) : Int :=
  min n Value.maxInt

/-- The pieces of the clause of a window. -/
def pieces (style : LimitStyle) (w : Window) : List Piece :=
  match style with
  | .commaPlaceholders =>
    [.number (boundCount w.count), .other (.sign ','), .number (boundCount w.skip)]
  | .commaInline =>
    if w.skip = 0 then [.number w.count]
    else [.number w.count, .other (.sign ','), .number w.skip]
  | .limitOffset =>
    [.number (boundCount w.count), .other (.word "OFFSET".toList), .number (boundCount w.skip)]

/-- The greatest integer value is out of reach, so the parameter is the number. -/
theorem boundCount_eq {n : Nat} (h : (n : Int) ≤ Value.maxInt) : boundCount n = n :=
  Int.min_eq_left h

section

variable {q : Char} (hq : q = '\x22' ∨ q = '\x60') (before : Sql) (w : Window)

include hq

/-- A clause with the count in its text. -/
theorem limitPieces?_count :
    (before ++ .raw ("LIMIT " ++ Text.natText w.count)).limitPieces? q =
      some [.number w.count] := by
  have htext : "LIMIT " ++ Text.natText w.count = "LIMIT" ++ (" " ++ Text.natText w.count) := by
    rw [← String.append_assoc]
    rfl
  have hrest : (" " ++ Text.natText w.count).toList = ' ' :: Text.digits w.count := by
    rw [String.toList_append, Text.toList_natText]
    rfl
  have hlimit : 'L' ∉ (" " ++ Text.natText w.count).toList := by
    simp [hrest, Text.notMem_digits]
  have hscan := Lexeme.scan_blank_digits_end hq w.count
  rw [← hrest] at hscan
  rw [Sql.limitPieces?_append before htext hlimit hscan rfl]
  change some [Piece.ofDigits (Text.digits w.count)] = _
  rw [Piece.ofDigits_digits]

/-- A clause with the count and the skip in its text. -/
theorem limitPieces?_count_skip :
    (before ++ .raw ("LIMIT " ++ Text.natText w.count ++ ", " ++ Text.natText w.skip)).limitPieces?
        q =
      some [.number w.count, .other (.sign ','), .number w.skip] := by
  let rest := " " ++ Text.natText w.count ++ ", " ++ Text.natText w.skip
  have htext : "LIMIT " ++ Text.natText w.count ++ ", " ++ Text.natText w.skip =
      "LIMIT" ++ rest := by
    rw [← String.append_assoc, ← String.append_assoc, ← String.append_assoc]
    rfl
  have hrest : rest.toList =
      ' ' :: (Text.digits w.count ++ ',' :: ' ' :: Text.digits w.skip) := by
    rw [String.toList_append, String.toList_append, String.toList_append, Text.toList_natText,
      Text.toList_natText, List.append_assoc, List.append_assoc]
    rfl
  -- The words in between have no second LIMIT.
  have hlimit : 'L' ∉ rest.toList := by
    simp [hrest, Text.notMem_digits]
  have hscan : Lexeme.scan q rest.toList =
      [.sign ' ', .number (Text.digits w.count), .sign ',', .sign ' ',
        .number (Text.digits w.skip)] := by
    rw [hrest, Lexeme.scan_blank_digits hq w.count (by simp), Lexeme.scan_comma hq,
      Lexeme.scan_blank_digits_end hq]
  rw [Sql.limitPieces?_append before htext hlimit hscan rfl]
  change some [Piece.ofDigits (Text.digits w.count), .other (.sign ','),
    Piece.ofDigits (Text.digits w.skip)] = _
  rw [Piece.ofDigits_digits, Piece.ofDigits_digits]

/-- **The clause of a window is found at the end of the text**, whatever stands before it, in every
style. -/
theorem limitPieces?_append_clause (d : Dialect) :
    (before ++ w.clause d).limitPieces? q = some (w.pieces d.limit) := by
  unfold clause
  cases d.limit with
  | commaPlaceholders =>
    have htext : (Sql.raw "LIMIT " ++ .hole (countParam w.count) ++ .raw ", " ++
        .hole (countParam w.skip)).text = "LIMIT" ++ " ?, ?" := by
      change "LIMIT " ++ "?" ++ ", " ++ "?" = _
      decide
    exact Sql.limitPieces?_append before htext (by decide) (Lexeme.scan_marks hq) rfl
  | commaInline =>
    -- Where the numbers stand in the text, a skip of zero is left out.
    by_cases hskip : w.skip = 0
    · have hpieces : w.pieces .commaInline = [.number w.count] := if_pos hskip
      rw [hpieces, ← limitPieces?_count hq before w]
      exact congrArg (fun clause => (before ++ clause).limitPieces? q) (if_pos hskip)
    · have hpieces : w.pieces .commaInline =
          [.number w.count, .other (.sign ','), .number w.skip] := if_neg hskip
      rw [hpieces, ← limitPieces?_count_skip hq before w]
      exact congrArg (fun clause => (before ++ clause).limitPieces? q) (if_neg hskip)
  | limitOffset =>
    have htext : (Sql.raw "LIMIT " ++ .hole (countParam w.count) ++ .raw " OFFSET " ++
        .hole (countParam w.skip)).text = "LIMIT" ++ " ? OFFSET ?" := by
      change "LIMIT " ++ "?" ++ " OFFSET " ++ "?" = _
      decide
    exact Sql.limitPieces?_append before htext (by decide) (Lexeme.scan_offset hq) rfl

end

end Window

/-! ### The clause of each engine -/

namespace Database

variable (before : Sql) (w : Window)

/-- PostgreSQL finds the two parameters in the places of the count and the skip. -/
theorem read_postgresql (hcount : (w.count : Int) ≤ Value.maxInt)
    (hskip : (w.skip : Int) ≤ Value.maxInt) :
    postgresql.read (before ++ w.clause Engine.pgsql.dialect) = some w.excerpt := by
  rw [read_eq_bind]
  change ((before ++ w.clause Engine.pgsql.dialect).limitPieces? '\x22').bind _ = _
  rw [Window.limitPieces?_append_clause (.inl rfl)]
  change some (Excerpt.mk (Window.boundCount w.count) (Window.boundCount w.skip)) = _
  rw [Window.boundCount_eq hcount, Window.boundCount_eq hskip]
  rfl

/-- With one number, MySQL skips nothing. -/
theorem read_mysql_of_skip_eq_zero (hskip : w.skip = 0) :
    mysql.read (before ++ w.clause Engine.mysql.dialect) = some w.excerpt := by
  have hpieces : w.pieces .commaInline = [.number w.count] := if_pos hskip
  rw [read_eq_bind]
  change ((before ++ w.clause Engine.mysql.dialect).limitPieces? '\x60').bind _ = _
  rw [Window.limitPieces?_append_clause (.inr rfl)]
  change mysql.excerpt? (w.pieces .commaInline) = _
  rw [hpieces, Window.excerpt, hskip]
  rfl

/-- With two numbers, MySQL takes the first, which is the count, for the skip, and the second, which
is the skip, for the count. -/
theorem read_mysql_of_skip_ne_zero (hskip : w.skip ≠ 0) :
    mysql.read (before ++ w.clause Engine.mysql.dialect) = some ⟨w.skip, w.count⟩ := by
  have hpieces : w.pieces .commaInline =
      [.number w.count, .other (.sign ','), .number w.skip] := if_neg hskip
  rw [read_eq_bind]
  change ((before ++ w.clause Engine.mysql.dialect).limitPieces? '\x60').bind _ = _
  rw [Window.limitPieces?_append_clause (.inr rfl)]
  change mysql.excerpt? (w.pieces .commaInline) = _
  rw [hpieces]
  rfl

end Database

/-- **What a database reads** at the end of a select with a window, whatever else is in the select.
PostgreSQL reads the window as it was set. MySQL reads the two numbers for each other, unless
nothing is skipped; so it reads the window as it was set exactly if nothing is skipped, or as many
rows as are wanted. -/
theorem Database.read_of_compile {b : Database} {s : Select} {w : Window} {out : Sql}
    (h : s.compile b.engine.dialect = .ok out) (hw : s.window? = some w)
    (hcount : (w.count : Int) ≤ Value.maxInt) (hskip : (w.skip : Int) ≤ Value.maxInt) :
    b.read out = some (if b = .mysql ∧ w.skip ≠ 0 then ⟨w.skip, w.count⟩ else w.excerpt) ∧
      (b.read out = some w.excerpt ↔ b = .postgresql ∨ w.skip = 0 ∨ w.skip = w.count) := by
  obtain ⟨before, rfl⟩ := Select.exists_append_clause h hw
  cases b with
  | postgresql =>
    have hread := read_postgresql before w hcount hskip
    exact ⟨hread, iff_of_true hread (.inl rfl)⟩
  | mysql =>
    by_cases hzero : w.skip = 0
    · have hread := read_mysql_of_skip_eq_zero before w hzero
      rw [if_neg fun hboth => hboth.2 hzero]
      exact ⟨hread, iff_of_true hread (.inr (.inl hzero))⟩
    · have hread := read_mysql_of_skip_ne_zero before w hzero
      -- Numbers that are read for each other are the right ones only if they are the same.
      have hswap : (⟨w.skip, w.count⟩ : Excerpt) = w.excerpt ↔ w.skip = w.count := by
        rw [Window.excerpt, Excerpt.mk.injEq]
        omega
      rw [if_pos ⟨rfl, hzero⟩]
      refine ⟨hread, ?_⟩
      change mysql.read (before ++ w.clause Engine.mysql.dialect) = _ ↔ _
      rw [hread, Option.some_inj, hswap]
      exact ⟨fun heq => .inr (.inr heq), fun h => (h.resolve_left nofun).resolve_left hzero⟩

/-- A page of a select whose condition is about a field with the name of the clause. -/
theorem Database.read_of_compile_page :
    let s : Select :=
      { draft := { sources := [⟨"t", none⟩]
                   wheres := [⟨⟨"LIMIT", "~", .bound true false⟩, .value (.text "a"), .and, 0, 0⟩] }
        window? := some ⟨10, 20, Nat.succ_pos 9⟩ }
    (∃ out, s.compile Engine.pgsql.dialect = .ok out ∧ postgresql.read out = some ⟨10, 20⟩) ∧
      ∃ out, s.compile Engine.mysql.dialect = .ok out ∧ mysql.read out = some ⟨20, 10⟩ := by
  intro s
  obtain ⟨out, hout⟩ : ∃ out, s.compile Engine.pgsql.dialect = .ok out := ⟨_, rfl⟩
  obtain ⟨out', hout'⟩ : ∃ out, s.compile Engine.mysql.dialect = .ok out := ⟨_, rfl⟩
  have hpgsql := read_of_compile (b := .postgresql) hout rfl (by decide) (by decide)
  have hmysql := read_of_compile (b := .mysql) hout' rfl (by decide) (by decide)
  exact ⟨⟨out, hout, hpgsql.1⟩, ⟨out', hout', hmysql.1⟩⟩

/-- MySQL does not read every window as it was set: of ten rows behind twenty it is asked for
twenty behind ten. -/
theorem Database.not_read_eq_excerpt :
    ¬ ∀ (b : Database) (s : Select) (w : Window) (out : Sql),
      s.window? = some w → (w.count : Int) ≤ Value.maxInt → (w.skip : Int) ≤ Value.maxInt →
        s.compile b.engine.dialect = .ok out → b.read out = some w.excerpt := by
  intro hall
  let w : Window := ⟨10, 20, Nat.succ_pos 9⟩
  let s : Select := { draft := { sources := [⟨"t", none⟩] }, window? := some w }
  obtain ⟨out, hout⟩ : ∃ out, s.compile mysql.engine.dialect = .ok out := ⟨_, rfl⟩
  have hread := hall .mysql s w out rfl (by decide) (by decide) hout
  obtain ⟨before, rfl⟩ := Select.exists_append_clause hout (w := w) rfl
  change mysql.read (before ++ w.clause Engine.mysql.dialect) = _ at hread
  rw [read_mysql_of_skip_ne_zero before w (by decide)] at hread
  exact absurd (Option.some.inj hread) (by decide)

end SqlBuilder
