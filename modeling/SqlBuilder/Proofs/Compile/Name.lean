import SqlBuilder.Proofs.Compile.FreeMark
import SqlBuilder.Proofs.Text.Lexeme
import SqlBuilder.Proofs.Text.Parts

/-!
# What a name can become in a statement

A name may be any text: it comes from a caller or from the keys of a document, and nothing looks at
it before it is quoted. What a database cuts the quoted name into is one of a few lists of lexemes
(`Identifier.Form`): a reserved token, a decimal number, one string literal, or stars and quoted
segments with points between them. So a name never brings a keyword, an operator, a bracket or a
comma of its own into a statement.

Main statement, at the end: this holds of a name exactly if the name, should it begin and end with
an apostrophe, is a string literal with the apostrophes inside written twice
(`Identifier.LiteralClosed`). A text between apostrophes is not quoted, and its inside is not
looked at, so one that ends its literal early has its remaining characters read as SQL
(`Dialect.not_form_scan_identifier`).
-/

namespace SqlBuilder

/-- Digits, perhaps with a point and more digits. -/
def Identifier.IsDecimal (cs : List Char) : Prop :=
  ∃ whole, isDigits whole = true ∧
    (cs = whole ∨ ∃ fraction, isDigits fraction = true ∧ cs = whole ++ '.' :: fraction)

/-- The lists of lexemes that a name may stand in a statement as, where `q` is the quote character
of the dialect. -/
inductive Identifier.Form (q : Char) : List Lexeme → Prop
  | mark : Form q [.sign '?']
  /-- One of the other reserved tokens, in any letter case. -/
  | reserved (letters : List Char)
      (h : Text.lower (String.ofList letters) ∈ ["true", "false", "null"]) : Form q [.word letters]
  | number (digits : List Char) (h : IsDecimal digits) : Form q [.number digits]
  | negative (digits : List Char) (h : IsDecimal digits) : Form q [.sign '-', .number digits]
  | literal (body : List Char) : Form q [.quoted '\x27' body]
  | path (segments : List Lexeme) (hne : segments ≠ [])
      (h : ∀ x ∈ segments, x = .sign '*' ∨ ∃ body, x = .quoted q body) :
      Form q (segments.intersperse (.sign '.'))

open Lexeme

/-! ### Characters of bare names -/

namespace Identifier

/-- The check for digits does not accept the empty text. -/
theorem ne_nil_of_isDigits {cs : List Char} (h : isDigits cs = true) : cs ≠ [] := by
  rintro rfl
  cases h

/-- A decimal number is read to its end. -/
theorem IsDecimal.spanNumber_eq {cs : List Char} (h : IsDecimal cs) :
    spanNumber cs = (cs, []) := by
  obtain ⟨whole, hwhole, rfl | ⟨fraction, hfraction, rfl⟩⟩ := h
  · exact spanNumber_of_forall fun _ => isDigit_of_isDigits hwhole
  · exact spanNumber_append_point (fun _ => isDigit_of_isDigits hwhole)
      (ne_nil_of_isDigits hfraction) fun _ => isDigit_of_isDigits hfraction

/-- A number begins with a digit. -/
theorem IsDecimal.exists_cons {cs : List Char} (h : IsDecimal cs) :
    ∃ c ds, cs = c :: ds ∧ c.isDigit = true := by
  obtain ⟨whole, hwhole, hcs⟩ := h
  obtain ⟨c, ds, rfl⟩ := List.exists_cons_of_ne_nil (ne_nil_of_isDigits hwhole)
  have hc : c.isDigit = true := isDigit_of_isDigits hwhole List.mem_cons_self
  obtain rfl | ⟨fraction, -, rfl⟩ := hcs
  · exact ⟨c, ds, rfl, hc⟩
  · exact ⟨c, ds ++ '.' :: fraction, rfl, hc⟩

/-- A letter in a text of small letters was a letter before. -/
theorem isAlpha_of_isAlpha_toLower {c : Char} (h : c.toLower.isAlpha = true) :
    c.isAlpha = true := by
  unfold Char.toLower at h
  split at h
  · next hupper => exact Bool.or_eq_true_iff.mpr (.inl (decide_eq_true hupper))
  · exact h

/-- No letter is a digit. -/
theorem isDigit_eq_false_of_isAlpha {c : Char} (h : c.isAlpha = true) : c.isDigit = false := by
  -- The digits stand before both ranges of letters.
  refine Bool.eq_false_iff.mpr fun hdigit => ?_
  have hnine : c.val ≤ '9'.val := of_decide_eq_true (Bool.and_eq_true_iff.mp hdigit).2
  rcases Bool.or_eq_true_iff.mp h with h | h
  · have hupper : c.val ≥ 'A'.val ∧ c.val ≤ 'Z'.val := of_decide_eq_true h
    exact absurd (UInt32.le_trans hupper.1 hnine) (by decide)
  · have hlower : c.val ≥ 'a'.val := of_decide_eq_true (Bool.and_eq_true_iff.mp h).1
    exact absurd (UInt32.le_trans hlower hnine) (by decide)

/-- The reserved words are made of letters. -/
theorem isAlpha_of_mem_reserved {s : String} (h : Text.lower s ∈ ["true", "false", "null"]) :
    s.toList ≠ [] ∧ ∀ c ∈ s.toList, c.isAlpha = true := by
  -- Said of the three words themselves, and by small letters carried over to any spelling.
  have hwords : ["true", "false", "null"].all (fun w =>
      !w.toList.isEmpty && w.toList.all Char.isAlpha) = true := by decide
  have hword := List.all_eq_true.mp hwords _ h
  rw [Text.lower, String.toList_ofList, Bool.and_eq_true, List.all_eq_true, List.isEmpty_map,
    Bool.not_eq_true', List.isEmpty_eq_false_iff] at hword
  exact ⟨hword.1, fun c hc => isAlpha_of_isAlpha_toLower (hword.2 _ (List.mem_map_of_mem hc))⟩

/-- A reserved token is the sign or one of the words. -/
theorem eq_or_mem_of_isReserved {s : String} (h : isReserved s = true) :
    s = "?" ∨ Text.lower s ∈ ["true", "false", "null"] := by
  obtain ⟨token, htoken, hletters⟩ := List.any_eq_true.mp h
  have hlower : reserved.all (fun t => t = "?" || Text.lower t ∈ ["true", "false", "null"]) =
      true := by decide
  have hmem := List.all_eq_true.mp hlower token htoken
  rw [Bool.or_eq_true, decide_eq_true_iff, decide_eq_true_iff] at hmem
  rcases hmem with rfl | hmem
  · exact .inl (eq_mark_of_sameLetters hletters)
  · rw [Text.sameLetters_iff.mp hletters]
    exact .inr hmem

/-- A number is a decimal one, perhaps behind a minus sign. -/
theorem exists_isDecimal_of_isNumber {s : String} (h : isNumber s = true) :
    ∃ digits, IsDecimal digits ∧ (s.toList = digits ∨ s.toList = '-' :: digits) := by
  unfold isNumber at h
  split at h
  · next cs hs => exact ⟨cs, exists_digits_of_isUnsigned h, .inr hs⟩
  · exact ⟨s.toList, exists_digits_of_isUnsigned h, .inl rfl⟩

/-- **The first character** of a token that stands as it is: a letter, a digit, or one of three
signs. -/
theorem exists_cons_of_isBare {s : String} (h : isBare s = true) :
    ∃ c cs, s.toList = c :: cs ∧ (c.isAlphanum = true ∨ c ∈ ['?', '-', '\x27']) := by
  rw [isBare, Bool.or_eq_true, Bool.or_eq_true] at h
  rcases h with (hreserved | hnumber) | hliteral
  · rcases eq_or_mem_of_isReserved hreserved with rfl | hword
    · exact ⟨'?', [], by decide, .inr (by decide)⟩
    · obtain ⟨hne, halpha⟩ := isAlpha_of_mem_reserved hword
      obtain ⟨c, cs, hs⟩ := List.exists_cons_of_ne_nil hne
      have hc : c.isAlpha = true := halpha c (by rw [hs]; exact List.mem_cons_self)
      exact ⟨c, cs, hs, .inl (Bool.or_eq_true_iff.mpr (.inl hc))⟩
  · obtain ⟨digits, hdigits, hs | hs⟩ := exists_isDecimal_of_isNumber hnumber
    · obtain ⟨c, cs, rfl, hc⟩ := hdigits.exists_cons
      exact ⟨c, cs, hs, .inl (Bool.or_eq_true_iff.mpr (.inr hc))⟩
    · exact ⟨'-', digits, hs, .inr (by decide)⟩
  · unfold isLiteral at hliteral
    split at hliteral
    · next cs hs => exact ⟨'\x27', cs, hs, .inr (by decide)⟩
    · cases hliteral

end Identifier

/-! ### The ends of a name -/

namespace Identifier

variable {q : Char}

/-- Every name has a segment, if only an empty one. -/
theorem segments_ne_nil (s : String) : segments s ≠ [] :=
  Text.parts_ne_nil '.' s

/-- The first character and the last are the quote character or a star. -/
def Fenced (q : Char) (cs : List Char) : Prop :=
  (∃ c ∈ cs.head?, c = q ∨ c = '*') ∧ ∃ c ∈ cs.getLast?, c = q ∨ c = '*'

/-- Of two fenced texts the whole is fenced, whatever stands between them. -/
theorem Fenced.append {cs ds : List Char} (h : Fenced q cs) (h' : Fenced q ds)
    (between : List Char) : Fenced q (cs ++ (between ++ ds)) := by
  obtain ⟨⟨first, hfirst, hq⟩, -⟩ := h
  obtain ⟨-, ⟨last, hlast, hq'⟩⟩ := h'
  rw [Option.mem_def] at hfirst hlast
  refine ⟨⟨first, ?_, hq⟩, ⟨last, ?_, hq'⟩⟩
  · rw [List.head?_append, hfirst]
    rfl
  · rw [List.getLast?_append, List.getLast?_append, hlast]
    rfl

/-- A quoted segment is fenced: a star by itself, any other by its quote characters. -/
theorem fenced_quoteSegment (segment : String) : Fenced q (quoteSegment q segment).toList := by
  unfold quoteSegment
  split
  · next hstar =>
    rw [hstar]
    exact ⟨⟨'*', rfl, .inr rfl⟩, ⟨'*', rfl, .inr rfl⟩⟩
  · rw [Text.toList_enclose]
    refine ⟨⟨q, rfl, .inl rfl⟩, ⟨q, ?_, .inl rfl⟩⟩
    rw [← List.cons_append, List.getLast?_concat]
    rfl

/-- The name begins as its first segment does and ends as its last one does. -/
theorem fenced_intercalate {segments : List String} (h : segments ≠ []) :
    Fenced q (".".intercalate (segments.map (quoteSegment q))).toList := by
  induction segments with
  | nil => exact absurd rfl h
  | cons segment segments ih =>
    cases segments with
    | nil => exact fenced_quoteSegment segment
    | cons next segments =>
      rw [List.map_cons, List.map_cons, String.intercalate_cons_cons, String.toList_append,
        String.toList_append, List.append_assoc]
      exact (fenced_quoteSegment segment).append (ih (List.cons_ne_nil _ _)) ['.']

end Identifier

/-! ### Lexemes of a name -/

namespace Identifier

variable {q : Char}

/-- A segment of a name as a lexeme. -/
def segmentLexeme (q : Char) (segment : String) : Lexeme :=
  if segment = "*" then .sign '*' else .quoted q segment.toList

section Scan

variable (hq : q = '\x22' ∨ q = '\x60')

include hq in
/-- Letters and digits do not open a region. -/
theorem not_opens {c : Char} (hc : c.isAlphanum = true ∨ c ∈ ['?', '-', '*', '.']) :
    ¬(c = q ∨ c = '\x27') := by
  rintro (rfl | rfl)
  · rcases hq with rfl | rfl
    all_goals revert hc; decide
  · revert hc
    decide

include hq in
/-- The signs that names are made of are lexemes of their own. -/
theorem scan_sign_of_mem {c : Char} (hc : c ∈ ['?', '-', '*', '.']) (cs : List Char) :
    scan q (c :: cs) = .sign c :: scan q cs := by
  have hsigns : ['?', '-', '*', '.'].all (fun c => !c.isDigit && !isLetter c) = true := by decide
  have hnot := List.all_eq_true.mp hsigns c hc
  rw [Bool.and_eq_true, Bool.not_eq_true', Bool.not_eq_true'] at hnot
  exact scan_of_sign (not_opens hq (.inr hc)) hnot.1 hnot.2 cs

include hq in
/-- A decimal number is one lexeme. -/
theorem scan_of_isDecimal {cs : List Char} (h : IsDecimal cs) : scan q cs = [.number cs] := by
  obtain ⟨c, ds, rfl, hc⟩ := h.exists_cons
  have hopens : ¬(c = q ∨ c = '\x27') := not_opens hq (.inl (Bool.or_eq_true_iff.mpr (.inr hc)))
  rw [scan_of_isDigit hopens hc, h.spanNumber_eq, scan]

include hq in
/-- A reserved word is one lexeme. -/
theorem scan_of_mem_reserved {s : String} (h : Text.lower s ∈ ["true", "false", "null"]) :
    scan q s.toList = [.word s.toList] := by
  obtain ⟨hne, halpha⟩ := isAlpha_of_mem_reserved h
  obtain ⟨c, cs, hs⟩ := List.exists_cons_of_ne_nil hne
  rw [hs] at halpha ⊢
  have hc : c.isAlpha = true := halpha c List.mem_cons_self
  -- No letter ends a word, so it goes to the end of the text.
  have hword : ∀ d ∈ cs, isWordChar d = true := fun d hd =>
    Bool.or_eq_true_iff.mpr (.inl (Bool.or_eq_true_iff.mpr
      (.inl (halpha d (List.mem_cons_of_mem c hd)))))
  have hopens : ¬(c = q ∨ c = '\x27') := not_opens hq (.inl (Bool.or_eq_true_iff.mpr (.inl hc)))
  rw [scan_of_isLetter hopens (isDigit_eq_false_of_isAlpha hc) (Bool.or_eq_true_iff.mpr (.inl hc)),
    List.takeWhile_eq_self_iff.mpr hword, List.dropWhile_eq_nil_iff.mpr hword, scan]

include hq in
/-- A quoted segment is one lexeme, if its closing quote character is not doubled by what comes
behind. -/
theorem scan_quoteSegment_append (segment : String) {rest : List Char} (h : rest.head? ≠ some q) :
    scan q ((quoteSegment q segment).toList ++ rest) = segmentLexeme q segment :: scan q rest := by
  unfold quoteSegment segmentLexeme
  split
  · next hstar =>
    have hchars : segment.toList ++ rest = '*' :: rest := by
      rw [hstar]
      rfl
    rw [hchars]
    exact scan_sign_of_mem hq (by decide) rest
  · exact scan_enclose_append (.inl rfl) segment h

include hq in
/-- Segments with points between them are cut at the points and nowhere else. -/
theorem scan_intercalate (segments : List String) :
    scan q (".".intercalate (segments.map (quoteSegment q))).toList =
      (segments.map (segmentLexeme q)).intersperse (.sign '.') := by
  induction segments with
  | nil => exact scan.eq_1 q
  | cons segment segments ih =>
    cases segments with
    | nil =>
      have hnil : ([] : List Char).head? ≠ some q := (Option.some_ne_none q).symm
      have hscan := scan_quoteSegment_append hq segment hnil
      rw [List.append_nil, scan] at hscan
      rw [List.map_singleton, List.map_singleton, String.intercalate_singleton, hscan]
      rfl
    | cons next segments =>
      have hpoint (rest : List Char) : ('.' :: rest).head? ≠ some q := by
        rw [List.head?_cons]
        rcases hq with rfl | rfl
        all_goals simp
      rw [List.map_cons, List.map_cons, String.intercalate_cons_cons, String.toList_append,
        String.toList_append, List.append_assoc]
      -- The point is no quote character, so the segment in front of it is at its end.
      change scan q ((quoteSegment q segment).toList ++ '.' ::
        (".".intercalate ((next :: segments).map (quoteSegment q))).toList) = _
      rw [scan_quoteSegment_append hq segment (hpoint _), scan_sign_of_mem hq (by decide), ih]
      rfl

end Scan

/-! ### The form of a name -/

section Form

variable (hq : q = '\x22' ∨ q = '\x60')

include hq in
/-- A name is cut into lexemes of one of the forms, if it is a string literal when it claims to be
one. -/
theorem form_scan_quote {s : String} (h : LiteralClosed s) :
    Form q (scan q (quote q s).toList) := by
  unfold quote
  by_cases hbare : isBare s = true
  · rw [if_pos hbare]
    rw [isBare, Bool.or_eq_true, Bool.or_eq_true] at hbare
    rcases hbare with (hreserved | hnumber) | hliteral
    · rcases eq_or_mem_of_isReserved hreserved with rfl | hword
      · have hscan : scan q ['?'] = [.sign '?'] := by
          rw [scan_sign_of_mem hq (by decide), scan]
        change Form q (scan q ['?'])
        rw [hscan]
        exact .mark
      · rw [scan_of_mem_reserved hq hword]
        refine .reserved s.toList ?_
        rw [String.ofList_toList]
        exact hword
    · obtain ⟨digits, hdigits, hs | hs⟩ := exists_isDecimal_of_isNumber hnumber
      · rw [hs, scan_of_isDecimal hq hdigits]
        exact .number digits hdigits
      · rw [hs, scan_sign_of_mem hq (by decide), scan_of_isDecimal hq hdigits]
        exact .negative digits hdigits
    · obtain ⟨body, rfl⟩ := h hliteral
      rw [scan_enclose (.inr rfl)]
      exact .literal body.toList
  · rw [if_neg hbare, scan_intercalate hq]
    refine .path _ ?_ fun x hx => ?_
    · exact mt List.map_eq_nil_iff.mp (segments_ne_nil s)
    · obtain ⟨segment, -, rfl⟩ := List.mem_map.mp hx
      unfold segmentLexeme
      split
      · exact .inl rfl
      · exact .inr ⟨segment.toList, rfl⟩

include hq in
/-- Only a string literal begins with an apostrophe. -/
theorem Form.eq_literal {lexemes : List Lexeme} (h : Form q lexemes) {cs : List Char}
    (hchars : lexemes.flatMap chars = '\x27' :: cs) : ∃ body, lexemes = [.quoted '\x27' body] := by
  cases h with
  | mark => cases hchars
  | reserved letters hword =>
    -- A reserved word begins with a letter.
    obtain ⟨-, halpha⟩ := isAlpha_of_mem_reserved hword
    rw [List.flatMap_singleton, chars] at hchars
    rw [String.toList_ofList, hchars] at halpha
    exact absurd (halpha _ List.mem_cons_self) (by decide)
  | number digits hdigits =>
    obtain ⟨c, ds, rfl, hc⟩ := hdigits.exists_cons
    rw [List.flatMap_singleton, chars] at hchars
    rw [(List.cons.inj hchars).1] at hc
    exact absurd hc (by decide)
  | negative digits hdigits => cases hchars
  | literal body => exact ⟨body, rfl⟩
  | path segments hne hsegments =>
    obtain ⟨x, xs, rfl⟩ := List.exists_cons_of_ne_nil hne
    -- The first segment is at the front.
    obtain ⟨rest, hrest⟩ : ∃ rest, (x :: xs).intersperse (.sign '.') = x :: rest := by
      cases xs with
      | nil => exact ⟨[], rfl⟩
      | cons y ys => exact ⟨_, List.intersperse_cons_cons⟩
    rw [hrest, List.flatMap_cons] at hchars
    rcases hsegments x List.mem_cons_self with rfl | ⟨body, rfl⟩
    · cases hchars
    · have hfirst : q = '\x27' := (List.cons.inj hchars).1
      rcases hq with rfl | rfl
      all_goals exact absurd hfirst (by decide)

include hq in
/-- A name of one of the forms is a string literal if it claims to be one. -/
theorem literalClosed_of_form {s : String} (h : Form q (scan q (quote q s).toList)) :
    LiteralClosed s := by
  intro hliteral
  -- What claims to be a literal is not quoted, so its lexemes are cut from the name itself.
  have hquote : quote q s = s := by
    rw [quote, isBare, hliteral, Bool.or_true, if_pos rfl]
  obtain ⟨cs, hs⟩ : ∃ cs, s.toList = '\x27' :: cs := by
    unfold isLiteral at hliteral
    split at hliteral
    · next cs hs => exact ⟨cs, hs⟩
    · cases hliteral
  rw [hquote] at h
  have hchars := flatMap_chars_scan q s.toList
  obtain ⟨body, hbody⟩ := h.eq_literal hq (hchars.trans hs)
  rw [hbody, List.flatMap_singleton, chars] at hchars
  refine ⟨String.ofList body, String.toList_inj.mp ?_⟩
  rw [Text.toList_enclose, String.toList_ofList]
  exact hchars.symm

end Form

end Identifier

/-! ### Names in the dialects of the engines -/

/-- The engines quote with one of two characters. -/
theorem Engine.quote_eq (e : Engine) : e.dialect.quote = '\x22' ∨ e.dialect.quote = '\x60' := by
  cases e <;> decide

/-- **What a name becomes**: the text of a name is cut into its lexemes without loss, and they are a
reserved token, a number, one string literal, or stars and quoted segments with points between
them, exactly if a name that begins and ends with an apostrophe is a string literal. -/
theorem Dialect.form_scan_identifier (e : Engine) (s : String) :
    (scan e.dialect.quote (e.dialect.identifier s).toList).flatMap chars =
        (e.dialect.identifier s).toList ∧
      (Identifier.Form e.dialect.quote (scan e.dialect.quote (e.dialect.identifier s).toList) ↔
        Identifier.LiteralClosed s) :=
  ⟨flatMap_chars_scan e.dialect.quote _,
    Identifier.literalClosed_of_form e.quote_eq, Identifier.form_scan_quote e.quote_eq⟩

/-- Not every name becomes one of these: a condition may begin and end with an apostrophe. -/
theorem Dialect.not_form_scan_identifier :
    ¬∀ (e : Engine) (s : String),
      Identifier.Form e.dialect.quote (scan e.dialect.quote (e.dialect.identifier s).toList) := by
  intro hall
  obtain ⟨body, hbody⟩ :=
    Identifier.literalClosed_of_form Engine.sql.quote_eq (hall .sql "'x'OR'1'='1'") (by decide)
  have hend : close? '\x27' "x'OR'1'='1'".toList = some (['x'], "OR'1'='1'".toList) := by decide
  -- As one literal it would end where the text ends.
  have htail : "x'OR'1'='1'".toList = Text.doubled '\x27' body.toList ++ ['\x27'] :=
    (List.cons.inj ((congrArg String.toList hbody).trans (Text.toList_enclose '\x27' body))).2
  have hnil : ([] : List Char).head? ≠ some '\x27' := (Option.some_ne_none _).symm
  rw [htail, close?_doubled '\x27' body.toList hnil] at hend
  have hrest : [] = "OR'1'='1'".toList := congrArg Prod.snd (Option.some.inj hend)
  exact absurd hrest (by decide)

end SqlBuilder
