import Mathlib.Data.List.TakeWhile
import SqlBuilder.Proofs.Text.Parts
import SqlBuilder.Text.Quoted

/-!
# Cutting a statement into lexemes

What a database makes of a text before it looks at its grammar: a list of lexemes, cut off from
left to right. A quote character or an apostrophe begins a quoted lexeme, which goes on to the
first such character that is not written twice; digits begin a number, perhaps with a point and
more digits; a letter begins a word; and every other character is a lexeme of its own, blanks too.

Main statements: the lexemes one behind the other are the text (`Lexeme.flatMap_chars_scan`), and
text between quote characters with those inside written twice is one lexeme, whatever it holds and
whatever comes behind (`Lexeme.scan_enclose_append`).
-/

namespace SqlBuilder

/-- A lexeme of a statement. -/
inductive Lexeme where
  /-- A keyword, or a name without quote characters. -/
  | word (letters : List Char)
  | number (digits : List Char)
  /-- A quoted name or a string literal; in the body the quote character stands once. -/
  | quoted (quote : Char) (body : List Char)
  /-- A quoted lexeme that the text does not end. -/
  | unclosed (quote : Char) (rest : List Char)
  | sign (c : Char)
  deriving DecidableEq, Repr

namespace Lexeme

/-- The characters of a lexeme in a statement. -/
def chars : Lexeme → List Char
  | .word letters => letters
  | .number digits => digits
  | .quoted r body => r :: (Text.doubled r body ++ [r])
  | .unclosed r rest => r :: rest
  | .sign c => [c]

/-! ### Where a lexeme ends -/

/-- The body of a quoted lexeme, and what comes behind its end; `none` if it has no end. -/
def close? (r : Char) : List Char → Option (List Char × List Char)
  | [] => none
  | [c] => if c = r then some ([], []) else none
  | c :: d :: cs =>
    if c ≠ r then (close? r (d :: cs)).map fun (body, rest) => (c :: body, rest)
    else if d = r then (close? r cs).map fun (body, rest) => (r :: body, rest)
    else some ([], d :: cs)

/-- The number at the front, and what comes behind it. A point belongs to the number only if a
digit follows. -/
def spanNumber (cs : List Char) : List Char × List Char :=
  let whole := cs.takeWhile Char.isDigit
  match cs.dropWhile Char.isDigit with
  | '.' :: d :: ds =>
    if d.isDigit then
      (whole ++ '.' :: d :: ds.takeWhile Char.isDigit, ds.dropWhile Char.isDigit)
    else (whole, '.' :: d :: ds)
  | rest => (whole, rest)

/-- Whether a word may begin with the character. -/
def isLetter (c : Char) : Bool :=
  c.isAlpha || c = '_'

/-- Whether a word may go on with the character. -/
def isWordChar (c : Char) : Bool :=
  c.isAlphanum || c = '_'

/-- What is closed is the body, the character that closes it, and the rest. -/
theorem eq_of_close? {r : Char} {cs body rest : List Char} (h : close? r cs = some (body, rest)) :
    cs = Text.doubled r body ++ r :: rest := by
  -- By the recursion of `close?`: no end, the end, a character of the body, or two that stand for
  -- one.
  induction cs using close?.induct r generalizing body with
  | case1 => cases h
  | case2 =>
    rw [close?, if_pos rfl] at h
    cases h
    rfl
  | case3 c hc =>
    rw [close?, if_neg hc] at h
    cases h
  | case4 c d cs hc ih =>
    rw [close?, if_pos hc] at h
    obtain ⟨⟨body', rest'⟩, hrest, heq⟩ := Option.map_eq_some_iff.mp h
    cases heq
    rw [ih hrest, Text.doubled, if_neg hc]
    rfl
  | case5 c cs hc ih =>
    rw [close?, if_neg hc, if_pos rfl] at h
    obtain ⟨⟨body', rest'⟩, hrest, heq⟩ := Option.map_eq_some_iff.mp h
    cases heq
    rw [ih hrest, Text.doubled, if_pos rfl, Decidable.not_not.mp hc]
    rfl
  | case6 c d cs hc hd =>
    rw [close?, if_neg hc, if_neg hd] at h
    cases h
    rw [Decidable.not_not.mp hc]
    rfl

/-- Something is read: at least the character that closes. -/
theorem length_of_close? {r : Char} {cs body rest : List Char}
    (h : close? r cs = some (body, rest)) : rest.length < cs.length := by
  rw [eq_of_close? h, List.length_append, List.length_cons]
  omega

/-- The number and what comes behind it are the text. -/
theorem append_spanNumber (cs : List Char) : (spanNumber cs).1 ++ (spanNumber cs).2 = cs := by
  have hcs : cs.takeWhile Char.isDigit ++ cs.dropWhile Char.isDigit = cs :=
    List.takeWhile_append_dropWhile
  unfold spanNumber
  dsimp only
  split
  · next d ds hrest =>
    rw [hrest] at hcs
    split
    · rw [List.append_assoc, List.cons_append, List.cons_append, List.takeWhile_append_dropWhile,
        hcs]
    · exact hcs
  · exact hcs

/-- Something is read: at least the first digit. -/
theorem length_spanNumber {c : Char} (hc : c.isDigit = true) (cs : List Char) :
    (spanNumber (c :: cs)).2.length < (c :: cs).length := by
  have hlength := congrArg List.length (append_spanNumber (c :: cs))
  -- The digit at the front is in the number.
  have hpos : 0 < (spanNumber (c :: cs)).1.length := by
    unfold spanNumber
    dsimp only
    split
    · split
      all_goals simp [hc]
    · simp [hc]
  rw [List.length_append] at hlength
  omega

/-! ### The whole text -/

/-- The lexemes of a text, where `q` is the quote character of the dialect. -/
def scan (q : Char) : List Char → List Lexeme
  | [] => []
  | c :: cs =>
    if c = q ∨ c = '\x27' then
      match _ : close? c cs with
      | some (body, rest) => .quoted c body :: scan q rest
      | none => [.unclosed c cs]
    else if _ : c.isDigit then
      .number (spanNumber (c :: cs)).1 :: scan q (spanNumber (c :: cs)).2
    else if isLetter c then
      .word (c :: cs.takeWhile isWordChar) :: scan q (cs.dropWhile isWordChar)
    else .sign c :: scan q cs
termination_by cs => cs.length
decreasing_by
  · next h => exact Nat.lt_succ_of_lt (length_of_close? h)
  · next h => exact length_spanNumber h cs
  · exact Nat.lt_succ_of_le (List.dropWhile_suffix _).length_le
  · exact Nat.lt_succ_self _

/-! ### One lexeme at the front -/

variable {q : Char}

/-- A quoted lexeme goes on to the character that closes it. -/
theorem scan_of_close? {r : Char} {cs body rest : List Char} (hr : r = q ∨ r = '\x27')
    (h : close? r cs = some (body, rest)) :
    scan q (r :: cs) = .quoted r body :: scan q rest := by
  rw [scan, if_pos hr]
  split
  · next heq =>
    cases h.symm.trans heq
    rfl
  · next heq => cases h.symm.trans heq

/-- A number goes on as far as it can. -/
theorem scan_of_isDigit {c : Char} (hc : ¬(c = q ∨ c = '\x27')) (hdigit : c.isDigit = true)
    (cs : List Char) :
    scan q (c :: cs) = .number (spanNumber (c :: cs)).1 :: scan q (spanNumber (c :: cs)).2 := by
  rw [scan, if_neg hc, dif_pos hdigit]

/-- A word goes on as far as it can. -/
theorem scan_of_isLetter {c : Char} (hc : ¬(c = q ∨ c = '\x27')) (hdigit : c.isDigit = false)
    (hletter : isLetter c = true) (cs : List Char) :
    scan q (c :: cs) =
      .word (c :: cs.takeWhile isWordChar) :: scan q (cs.dropWhile isWordChar) := by
  rw [scan, if_neg hc, dif_neg (Bool.eq_false_iff.mp hdigit), if_pos hletter]

/-- Every other character is a lexeme of its own. -/
theorem scan_of_sign {c : Char} (hc : ¬(c = q ∨ c = '\x27')) (hdigit : c.isDigit = false)
    (hletter : isLetter c = false) (cs : List Char) :
    scan q (c :: cs) = .sign c :: scan q cs := by
  rw [scan, if_neg hc, dif_neg (Bool.eq_false_iff.mp hdigit), if_neg (Bool.eq_false_iff.mp hletter)]

/-! ### Main statements -/

/-- **Nothing is lost**: the lexemes one behind the other are the text. -/
theorem flatMap_chars_scan (q : Char) (cs : List Char) : (scan q cs).flatMap chars = cs := by
  -- By the recursion of `scan`: what each lexeme was cut off from is its characters and the rest.
  fun_induction scan q cs with
  | case1 => rfl
  | case2 c cs hq body rest hclose ih =>
    rw [List.flatMap_cons, ih, chars, List.cons_append, List.append_assoc, eq_of_close? hclose]
    rfl
  | case3 c cs hq hclose => exact List.append_nil (c :: cs)
  | case4 c cs hq hdigit ih =>
    rw [List.flatMap_cons, ih]
    exact append_spanNumber (c :: cs)
  | case5 c cs hq hdigit hletter ih =>
    rw [List.flatMap_cons, ih, chars, List.cons_append, List.takeWhile_append_dropWhile]
  | case6 c cs hq hdigit hletter ih =>
    rw [List.flatMap_cons, ih]
    rfl

/-- Digits are one number if neither a digit nor a point follows. -/
theorem spanNumber_append {cs rest : List Char} (hcs : ∀ c ∈ cs, c.isDigit = true)
    (hrest : ∀ c ∈ rest.head?, c.isDigit = false ∧ c ≠ '.') :
    spanNumber (cs ++ rest) = (cs, rest) := by
  have hdigit : ∀ c ∈ rest.head?, c.isDigit = false := fun c hc => (hrest c hc).1
  rw [spanNumber, Text.takeWhile_append hcs hdigit, Text.dropWhile_append hcs hdigit]
  -- The number goes on only behind a point.
  split
  · exact absurd rfl (hrest '.' rfl).2
  · rfl

/-- Digits alone are one number. -/
theorem spanNumber_of_forall {cs : List Char} (h : ∀ c ∈ cs, c.isDigit = true) :
    spanNumber cs = (cs, []) := by
  have hnil : ∀ c ∈ ([] : List Char).head?, c.isDigit = false ∧ c ≠ '.' := nofun
  have hspan := spanNumber_append h hnil
  rw [List.append_nil] at hspan
  exact hspan

/-- Digits with a point and more digits are one number too. -/
theorem spanNumber_append_point {whole fraction : List Char}
    (hwhole : ∀ c ∈ whole, c.isDigit = true) (hne : fraction ≠ [])
    (hfraction : ∀ c ∈ fraction, c.isDigit = true) :
    spanNumber (whole ++ '.' :: fraction) = (whole ++ '.' :: fraction, []) := by
  obtain ⟨d, ds, rfl⟩ := List.exists_cons_of_ne_nil hne
  have hd : d.isDigit = true := hfraction d List.mem_cons_self
  have hds : ∀ c ∈ ds, c.isDigit = true := fun c hc => hfraction c (List.mem_cons_of_mem d hc)
  have hpoint : ∀ c ∈ ('.' :: d :: ds).head?, c.isDigit = false := by
    intro c hc
    obtain rfl := Option.some.inj hc
    decide
  rw [spanNumber, Text.takeWhile_append hwhole hpoint, Text.dropWhile_append hwhole hpoint]
  change (if d.isDigit then (whole ++ '.' :: d :: ds.takeWhile Char.isDigit, _) else _) = _
  rw [if_pos hd, List.takeWhile_eq_self_iff.mpr hds, List.dropWhile_eq_nil_iff.mpr hds]

/-- **Digits are one lexeme**, whatever comes behind, unless that goes on with the number. -/
theorem scan_digits_append {cs rest : List Char} (hquote : q.isDigit = false) (hne : cs ≠ [])
    (hcs : ∀ c ∈ cs, c.isDigit = true)
    (hrest : ∀ c ∈ rest.head?, c.isDigit = false ∧ c ≠ '.') :
    scan q (cs ++ rest) = .number cs :: scan q rest := by
  obtain ⟨d, ds, rfl⟩ := List.exists_cons_of_ne_nil hne
  have hd : d.isDigit = true := hcs d List.mem_cons_self
  have hopens : ¬(d = q ∨ d = '\x27') := by
    rintro (rfl | rfl)
    · exact Bool.noConfusion (hquote.symm.trans hd)
    · exact absurd hd (by decide)
  have hscan := scan_of_isDigit hopens hd (ds ++ rest)
  rw [← List.cons_append, spanNumber_append hcs hrest] at hscan
  exact hscan

/-- A doubled character closes nothing. The first single one does, if it is not followed by
another. -/
theorem close?_doubled (r : Char) (body : List Char) {rest : List Char} (h : rest.head? ≠ some r) :
    close? r (Text.doubled r body ++ r :: rest) = some (body, rest) := by
  induction body with
  | nil =>
    rw [Text.doubled, List.nil_append]
    cases rest with
    | nil => rw [close?, if_pos rfl]
    | cons d ds =>
      have hd : ¬d = r := fun hd => h (congrArg some hd)
      rw [close?, if_neg (Decidable.not_not.mpr rfl), if_neg hd]
  | cons c body ih =>
    rw [Text.doubled]
    by_cases hc : c = r
    · rw [if_pos hc, List.cons_append, List.cons_append, close?,
        if_neg (Decidable.not_not.mpr rfl), if_pos rfl, ih, hc]
      rfl
    · -- Behind the character there is at least the one that closes.
      obtain ⟨d, ds, hds⟩ : ∃ d ds, Text.doubled r body ++ r :: rest = d :: ds :=
        List.exists_cons_of_ne_nil (List.append_ne_nil_of_right_ne_nil _ (List.cons_ne_nil _ _))
      rw [if_neg hc, List.cons_append, hds, close?, if_pos hc, ← hds, ih]
      rfl

/-- **Enclosed text is one lexeme**, whatever it holds, unless the character around it follows. -/
theorem scan_enclose_append {r : Char} (hr : r = q ∨ r = '\x27') (s : String) {rest : List Char}
    (h : rest.head? ≠ some r) :
    scan q ((Text.enclose r s).toList ++ rest) = .quoted r s.toList :: scan q rest := by
  have hchars : (Text.enclose r s).toList ++ rest =
      r :: (Text.doubled r s.toList ++ r :: rest) := by
    rw [Text.toList_enclose, List.cons_append, List.append_assoc]
    rfl
  rw [hchars]
  exact scan_of_close? hr (close?_doubled r s.toList h)

/-- Enclosed text alone is one lexeme. -/
theorem scan_enclose {r : Char} (hr : r = q ∨ r = '\x27') (s : String) :
    scan q (Text.enclose r s).toList = [.quoted r s.toList] := by
  have hnil : ([] : List Char).head? ≠ some r := (Option.some_ne_none r).symm
  have hscan := scan_enclose_append hr s hnil
  rw [List.append_nil, scan] at hscan
  exact hscan

end Lexeme

end SqlBuilder
