import SqlBuilder.Proofs.Compile.Refinement
import SqlBuilder.Proofs.Text.Region

/-!
# Placeholders outside of quoted text

How many placeholders a database finds in a compiled statement, whatever the names are made of.
A name that is put between quote characters brings none, because the reader does not leave the
quoted region before the end of the segment. Three kinds of name are not quoted: numbers and the
reserved words for truth values and NULL bring no sign either, and a text between apostrophes is a
region of its own as long as the apostrophes inside are written twice. There remain the reserved
token `?`, which is a sign on purpose, and the operators, which are written as they are.

Main statement, at the end: for an engine the placeholders are the parameters, the names that are
`?`, and the signs that operators bring.

A sum over the items proves it (`Rendering.sealed_text`, `Rendering.marks_eq`): every item leaves
the reader outside of all regions, so each is read as if it stood alone.
-/

namespace SqlBuilder

open Region

/-! ### Bare names -/

/-- A text is inert if none of its characters is a sign. -/
theorem isInert_of_forall {s : String} (h : ∀ c ∈ s.toList, c ∉ signs) : isInert s = true := by
  rw [isInert, List.all_eq_true]
  exact fun c hc => decide_eq_true (h c hc)

namespace Identifier

/-- No capital has the sign for its small letter. -/
theorem eq_mark_of_toLower_eq {c : Char} (h : c.toLower = '?') : c = '?' := by
  unfold Char.toLower at h
  split at h
  · next hupper =>
    -- A capital moves up by thirty-two, and the sign is not that far above the first of them.
    have hval : c.val + ('a'.val - 'A'.val) = '?'.val := congrArg Char.val h
    grind
  · exact h

/-- The characters of texts that agree but for the case of letters. -/
theorem map_toLower_eq_of_sameLetters {s t : String} (h : Text.sameLetters s t = true) :
    s.toList.map Char.toLower = t.toList.map Char.toLower := by
  have hlower := congrArg String.toList (Text.sameLetters_iff.mp h)
  rw [Text.lower, Text.lower, String.toList_ofList, String.toList_ofList] at hlower
  exact hlower

/-- Only the sign itself is the sign in any letter case. -/
theorem eq_mark_of_sameLetters {s : String} (h : Text.sameLetters s "?" = true) : s = "?" := by
  have hmark : "?".toList.map Char.toLower = ['?'] := by decide
  have hlower := (map_toLower_eq_of_sameLetters h).trans hmark
  obtain ⟨c, hs, hc⟩ := List.map_eq_singleton_iff.mp hlower
  rw [eq_mark_of_toLower_eq hc] at hs
  refine String.toList_inj.mp (hs.trans ?_)
  decide

/-- Of the reserved tokens only one is a sign. -/
theorem isInert_of_isReserved {s : String} (h : isReserved s = true) (hs : s ≠ "?") :
    isInert s = true := by
  have hsigns : signs.all (fun c => c.toLower == c) = true := by decide
  have hwords : reserved.all (fun token =>
      token == "?" || (token.toList.map Char.toLower).all (· ∉ signs)) = true := by decide
  obtain ⟨token, htoken, hletters⟩ := List.any_eq_true.mp h
  have hne : token ≠ "?" := by
    rintro rfl
    exact hs (eq_mark_of_sameLetters hletters)
  refine isInert_of_forall fun c hc hsign => ?_
  -- A sign is no letter, so it would be in the token as it is in the text.
  have hmem : c.toLower ∈ token.toList.map Char.toLower := by
    rw [← map_toLower_eq_of_sameLetters hletters]
    exact List.mem_map_of_mem hc
  rw [beq_iff_eq.mp (List.all_eq_true.mp hsigns c hsign)] at hmem
  have hword := List.all_eq_true.mp hwords token htoken
  rw [beq_false_of_ne hne, Bool.false_or, List.all_eq_true] at hword
  exact of_decide_eq_true (hword c hmem) hsign

/-- Each character of what the check for digits accepts is one. -/
theorem isDigit_of_isDigits {cs : List Char} (h : isDigits cs = true) {c : Char} (hc : c ∈ cs) :
    c.isDigit = true := by
  rw [isDigits, Bool.and_eq_true, List.all_eq_true] at h
  exact h.2 c hc

/-- A number without its minus sign is digits, perhaps with a point and more digits. -/
theorem exists_digits_of_isUnsigned {cs : List Char} (h : isUnsigned cs = true) :
    ∃ whole, isDigits whole = true ∧
      (cs = whole ∨ ∃ fraction, isDigits fraction = true ∧ cs = whole ++ '.' :: fraction) := by
  rw [isUnsigned, Bool.and_eq_true] at h
  obtain ⟨hwhole, hrest⟩ := h
  have hcs : cs.takeWhile (· ≠ '.') ++ cs.dropWhile (· ≠ '.') = cs :=
    List.takeWhile_append_dropWhile
  refine ⟨cs.takeWhile (· ≠ '.'), hwhole, ?_⟩
  cases hfraction : cs.dropWhile (· ≠ '.') with
  | nil =>
    rw [hfraction, List.append_nil] at hcs
    exact .inl hcs.symm
  | cons point fraction =>
    -- What is left begins with the first point.
    have hpoint := List.head?_dropWhile_not (· ≠ '.') cs
    rw [hfraction] at hpoint
    obtain rfl : point = '.' := Decidable.not_not.mp (of_decide_eq_false hpoint)
    rw [hfraction] at hcs hrest
    exact .inr ⟨fraction, hrest, hcs.symm⟩

/-- A number without its minus sign consists of digits and a point. -/
theorem isDigit_or_eq_of_isUnsigned {cs : List Char} (h : isUnsigned cs = true) {c : Char}
    (hc : c ∈ cs) : c.isDigit = true ∨ c = '.' := by
  obtain ⟨whole, hwhole, rfl | ⟨fraction, hfraction, rfl⟩⟩ := exists_digits_of_isUnsigned h
  · exact .inl (isDigit_of_isDigits hwhole hc)
  · rcases List.mem_append.mp hc with hc | hc
    · exact .inl (isDigit_of_isDigits hwhole hc)
    · rcases List.mem_cons.mp hc with rfl | hc
      · exact .inr rfl
      · exact .inl (isDigit_of_isDigits hfraction hc)

/-- A number has no sign in it. -/
theorem isInert_of_isNumber {s : String} (h : isNumber s = true) : isInert s = true := by
  -- None of the signs is a digit, a point or a minus.
  have hunsigned {cs : List Char} (hcs : isUnsigned cs = true) (c : Char) (hc : c ∈ cs) :
      c ∉ signs := by
    rcases isDigit_or_eq_of_isUnsigned hcs hc with hdigit | rfl
    · exact notMem_signs_of_isDigit hdigit
    · decide
  refine isInert_of_forall ?_
  unfold isNumber at h
  split at h
  · next cs hs =>
    rw [hs]
    intro c hc
    rcases List.mem_cons.mp hc with rfl | hc
    · decide
    · exact hunsigned h c hc
  · exact hunsigned h

end Identifier

/-! ### Every item alone -/

/-- The quote character of an engine is one of the signs, but not the placeholder sign. -/
theorem Engine.quote_mem_signs (e : Engine) :
    e.dialect.quote ∈ signs ∧ e.dialect.quote ≠ '?' := by
  cases e <;> decide

/-- A text between apostrophes with the apostrophes inside written twice, if it claims to be one. -/
def Identifier.LiteralClosed (s : String) : Prop :=
  isLiteral s = true → ∃ body, s = Text.enclose '\x27' body

section Quiet

variable {q : Char} (hsign : q ∈ signs) (hmark : q ≠ '?')

include hsign in
/-- An inert text opens no region and has no placeholder. -/
theorem quiet_of_isInert {s : String} (h : isInert s = true) : Quiet q s.toList := by
  rw [isInert, List.all_eq_true] at h
  refine quiet_of_forall fun c hc => ?_
  have hnotMem : c ∉ signs := of_decide_eq_true (h c hc)
  refine ⟨?_, ?_, ?_⟩
  · rintro rfl
    exact hnotMem hsign
  · rintro rfl
    exact hnotMem (by decide)
  · rintro rfl
    exact hnotMem (by decide)

include hsign hmark in
/-- A name other than the sign is quiet: it is enclosed segment by segment, or inert, or a text
between apostrophes. -/
theorem Identifier.quiet_quote {s : String} (hs : s ≠ "?") (hliteral : LiteralClosed s) :
    Quiet q (quote q s).toList := by
  -- A bare name is one of three kinds; any other is cut into segments.
  unfold quote
  by_cases hbare : isBare s = true
  · rw [if_pos hbare]
    rw [isBare, Bool.or_eq_true, Bool.or_eq_true] at hbare
    rcases hbare with (hreserved | hnumber) | hquoted
    · exact quiet_of_isInert hsign (isInert_of_isReserved hreserved hs)
    · exact quiet_of_isInert hsign (isInert_of_isNumber hnumber)
    · obtain ⟨body, rfl⟩ := hliteral hquoted
      exact quiet_enclose (.inr rfl) (by decide) body
  · rw [if_neg hbare]
    refine Quiet.intercalate (quiet_of_isInert hsign (by decide)) fun part hpart => ?_
    obtain ⟨segment, -, rfl⟩ := List.mem_map.mp hpart
    unfold quoteSegment
    split
    · next hstar =>
      rw [hstar]
      exact quiet_of_isInert hsign (by decide)
    · exact quiet_enclose (.inl rfl) hmark segment

end Quiet

/-- What an item needs in order to leave the reader outside of all regions: a name between
apostrophes has its end where it claims to, and an operator closes the regions that it opens. -/
def Item.Closed (d : Dialect) : Item → Prop
  | .name s => Identifier.LiteralClosed s
  | .operator s => Sealed d.quote (d.operator s).toList
  | _ => True

/-- How many placeholders an item brings. -/
def Item.marks (d : Dialect) : Item → Nat
  | .word _ _ => 0
  | .name s => if s = "?" then 1 else 0
  | .operator s => freeMarks d.quote none (d.operator s).toList
  | .hole _ => 1

/-- A closed item is read on its own: it is sealed, and has as many placeholders as it brings. -/
theorem Item.sealed_text (e : Engine) {x : Item} (hx : x.Closed e.dialect) :
    Sealed e.dialect.quote (x.text e.dialect).toList ∧
      freeMarks e.dialect.quote none (x.text e.dialect).toList = x.marks e.dialect := by
  obtain ⟨hsign, hmark⟩ := e.quote_mem_signs
  -- The sign alone, as it is written for a hole and for the reserved token.
  have hquestion : Sealed e.dialect.quote "?".toList ∧
      freeMarks e.dialect.quote none "?".toList = 1 := by
    cases e <;> decide
  cases x with
  | word s inert =>
    have hquiet := quiet_of_isInert hsign inert
    exact ⟨hquiet.isSealed, hquiet.freeMarks_eq⟩
  | operator s => exact ⟨hx, rfl⟩
  | hole v => exact hquestion
  | name s =>
    change Sealed e.dialect.quote (Identifier.quote e.dialect.quote s).toList ∧
      freeMarks e.dialect.quote none (Identifier.quote e.dialect.quote s).toList =
        if s = "?" then 1 else 0
    by_cases hs : s = "?"
    · have hbare : Identifier.quote e.dialect.quote s = s := by
        rw [Identifier.quote, hs]
        exact if_pos (by decide)
      rw [if_pos hs, hbare, hs]
      exact hquestion
    · have hquiet := Identifier.quiet_quote hsign hmark hs hx
      rw [if_neg hs]
      exact ⟨hquiet.isSealed, hquiet.freeMarks_eq⟩

namespace Rendering

/-- The placeholders that the items bring. -/
def marks (d : Dialect) : List Item → Nat
  | [] => 0
  | x :: items => x.marks d + marks d items

/-- The signs that operators bring. -/
def operatorMarks (d : Dialect) : List String → Nat
  | [] => 0
  | s :: written => freeMarks d.quote none (d.operator s).toList + operatorMarks d written

/-- A rendering of closed items has the placeholders that its items bring. -/
theorem sealed_text (e : Engine) {items : List Item} (h : ∀ x ∈ items, x.Closed e.dialect) :
    Sealed e.dialect.quote (text e.dialect items).toList ∧
      freeMarks e.dialect.quote none (text e.dialect items).toList = marks e.dialect items := by
  induction items with
  | nil => exact ⟨rfl, rfl⟩
  | cons x items ih =>
    obtain ⟨hx, hmarks⟩ := Item.sealed_text e (h x List.mem_cons_self)
    obtain ⟨hitems, hsum⟩ := ih fun y hy => h y (List.mem_cons_of_mem x hy)
    rw [text, String.toList_append, marks]
    refine ⟨hx.append hitems, ?_⟩
    rw [hx.freeMarks_append, hmarks, hsum]

/-- The placeholders that the items bring, kind by kind. -/
theorem marks_eq (d : Dialect) (items : List Item) :
    marks d items =
      (values items).length + (names items).count "?" + operatorMarks d (operators items) := by
  induction items with
  | nil => rfl
  | cons x items ih =>
    -- Every kind of item adds to one of the three numbers, or to none.
    rw [marks, ih]
    cases x with
    | word s inert => exact Nat.zero_add _
    | hole v =>
      change 1 + _ = (values items).length + 1 + (names items).count "?" +
        operatorMarks d (operators items)
      omega
    | operator s =>
      change freeMarks d.quote none (d.operator s).toList + _ = (values items).length +
        (names items).count "?" +
          (freeMarks d.quote none (d.operator s).toList + operatorMarks d (operators items))
      omega
    | name s =>
      have hcount : (names (.name s :: items)).count "?" =
          (names items).count "?" + if s = "?" then 1 else 0 := by
        change (s :: names items).count "?" = _
        rw [List.count_cons]
        by_cases hs : s = "?"
        · rw [if_pos hs, if_pos (beq_iff_eq.mpr hs)]
        · rw [if_neg hs, if_neg fun h => hs (beq_iff_eq.mp h)]
      rw [hcount]
      change (if s = "?" then 1 else 0) + _ =
        (values items).length + _ + operatorMarks d (operators items)
      omega

/-- Operators bring no sign if none of them does. -/
theorem operatorMarks_eq_zero {d : Dialect} {written : List String} :
    operatorMarks d written = 0 ↔
      ∀ s ∈ written, freeMarks d.quote none (d.operator s).toList = 0 := by
  induction written with
  | nil => exact ⟨fun _ _ hs => absurd hs List.not_mem_nil, fun _ => rfl⟩
  | cons s written ih => rw [operatorMarks, Nat.add_eq_zero_iff, ih, List.forall_mem_cons]

/-- A rendering is closed item by item if its names and its operators are. -/
theorem closed_of_names {d : Dialect} {items : List Item}
    (hnames : ∀ s ∈ names items, Identifier.LiteralClosed s)
    (hoperators : ∀ s ∈ operators items, Sealed d.quote (d.operator s).toList) :
    ∀ x ∈ items, x.Closed d := by
  intro x hx
  cases x with
  | name s => exact hnames s (List.mem_filterMap.mpr ⟨.name s, hx, rfl⟩)
  | operator s => exact hoperators s (List.mem_filterMap.mpr ⟨.operator s, hx, rfl⟩)
  | _ => exact trivial

end Rendering

/-! ### Statements -/

/-- **The placeholders of an accepted statement** are the parameters, the names that are the
reserved token `?`, and the signs that operators bring. No other name brings one or takes one away,
so they are the parameters alone exactly if no name is that token and no operator has a sign outside
of quotes. -/
theorem Statement.freeMarks_text {e : Engine} {s : Statement} {out : Sql}
    (h : s.compile e.dialect = .ok out)
    (hnames : ∀ x ∈ Rendering.names (s.rendering e.dialect), Identifier.LiteralClosed x)
    (hoperators : ∀ x ∈ Rendering.operators (s.rendering e.dialect),
      Sealed e.dialect.quote (e.dialect.operator x).toList) :
    freeMarks e.dialect.quote none out.text.toList =
        out.params.length + (Rendering.names (s.rendering e.dialect)).count "?" +
          Rendering.operatorMarks e.dialect (Rendering.operators (s.rendering e.dialect)) ∧
      (freeMarks e.dialect.quote none out.text.toList = out.params.length ↔
        "?" ∉ Rendering.names (s.rendering e.dialect) ∧
          ∀ x ∈ Rendering.operators (s.rendering e.dialect),
            freeMarks e.dialect.quote none (e.dialect.operator x).toList = 0) := by
  obtain rfl := Statement.eq_sql_rendering h
  have hmarks : freeMarks e.dialect.quote none
      (Rendering.text e.dialect (s.rendering e.dialect)).toList = _ :=
    (Rendering.sealed_text e (Rendering.closed_of_names hnames hoperators)).2.trans
      (Rendering.marks_eq e.dialect (s.rendering e.dialect))
  refine ⟨hmarks, ?_⟩
  rw [← Rendering.operatorMarks_eq_zero, ← List.count_eq_zero]
  change freeMarks e.dialect.quote none
    (Rendering.text e.dialect (s.rendering e.dialect)).toList =
      (Rendering.values (s.rendering e.dialect)).length ↔ _
  rw [hmarks]
  omega

/-- Signs in a field and between apostrophes, next to a bound condition. -/
theorem Statement.freeMarks_text_quoted :
    let s : Statement := .select
      { draft :=
          { sources := [⟨"t", none⟩]
            wheres := [⟨⟨"a?\x60?", "=", .literal "'x?'"⟩, .value .null, .and, 0, 0⟩,
              ⟨⟨"b", "~", .bound true false⟩, .value (.text "?"), .or, 0, 0⟩] } }
    ∃ out, s.compile Engine.mysql.dialect = .ok out ∧
      freeMarks Engine.mysql.dialect.quote none out.text.toList = 1 := by
  intro s
  obtain ⟨out, hout⟩ : ∃ out, s.compile Engine.mysql.dialect = .ok out := ⟨_, rfl⟩
  have hliterals : ∀ x ∈ Rendering.names (s.rendering Engine.mysql.dialect),
      Identifier.isLiteral x = true → x = Text.enclose '\x27' "x?" := by decide
  have hoperators : ∀ x ∈ Rendering.operators (s.rendering Engine.mysql.dialect),
      Sealed Engine.mysql.dialect.quote (Engine.mysql.dialect.operator x).toList := by decide
  obtain ⟨hmarks, -⟩ := Statement.freeMarks_text hout
    (fun x hx hliteral => ⟨"x?", hliterals x hx hliteral⟩) hoperators
  have hparams : out.params = [.text "%?"] := by
    rw [Statement.eq_sql_rendering hout]
    rfl
  refine ⟨out, hout, hmarks.trans ?_⟩
  rw [hparams]
  decide

/-- The placeholders are not always the parameters: a field may be the reserved token. -/
theorem Statement.not_freeMarks_eq_length :
    ¬∀ (e : Engine) (s : Statement) (out : Sql), s.compile e.dialect = .ok out →
      freeMarks e.dialect.quote none out.text.toList = out.params.length := by
  intro hall
  have hmarks := hall .sql
    (.select { draft := { sources := [⟨"t", none⟩] }, fields := [⟨"?", none⟩] }) _ rfl
  revert hmarks
  decide

end SqlBuilder
