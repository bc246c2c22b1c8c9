import Mathlib.Data.String.Basic
import SqlBuilder.Proofs.Compile.Name

/-!
# Reading a name back from a statement

Different names stay different in a statement, although some of them are quoted and others are not.
`Identifier.unquote` shows it by reading the name back. It tells the two kinds of text apart by the
first character: only a quoted name begins with a quote character or a star, since a token that is
left as it is begins with something else (`Identifier.exists_cons_of_isBare`). A quoted name is cut
at its points, which is where its segments were joined, because quoting a segment brings no point
in; and each segment loses its outer quote characters and half of the inner ones.

Main statements, at the end: in the dialect of every engine reading undoes quoting, so no two names
become the same text; and a name stands in a statement unchanged exactly if it is a token
(`Identifier.IsToken`) or made of stars with points between them (`Dialect.unquote_identifier`).
That a star is a name that is not quoted, though it is no token, is the reason for the second half
of this: not only tokens are left as they are (`Dialect.not_identifier_eq_iff_isToken`).
-/

namespace SqlBuilder

/-! ### Undoing the quotes around a segment -/

/-- The characters of a list, those that are `q` twice in a row once. -/
def Text.undoubled (q : Char) : List Char → List Char
  | c :: d :: cs => if c = q ∧ d = q then q :: undoubled q cs else c :: undoubled q (d :: cs)
  | cs => cs

/-- The text between the first and the last character, with `q` twice in a row read once. -/
def Text.disclose (q : Char) (s : String) : String :=
  String.ofList (undoubled q (s.toList.drop 1).dropLast)

namespace Text

/-- Another character is read as it is. -/
theorem undoubled_cons_of_ne {q c : Char} (h : c ≠ q) (cs : List Char) :
    undoubled q (c :: cs) = c :: undoubled q cs := by
  cases cs with
  | nil => rfl
  | cons d cs => rw [undoubled, if_neg fun hboth => h hboth.1]

/-- Doubling is undone. -/
@[simp] theorem undoubled_doubled (q : Char) (cs : List Char) :
    undoubled q (doubled q cs) = cs := by
  induction cs with
  | nil => rfl
  | cons c cs ih =>
    rw [doubled]
    split
    · next hc => rw [undoubled, if_pos ⟨rfl, rfl⟩, ih, hc]
    · next hc => rw [undoubled_cons_of_ne hc, ih]

/-- What was put between quote characters is found there. -/
@[simp] theorem disclose_enclose (q : Char) (s : String) : disclose q (enclose q s) = s := by
  rw [disclose, toList_enclose, List.drop_one, List.tail_cons, List.dropLast_concat,
    undoubled_doubled, String.ofList_toList]

/-- Text between quote characters is longer than it was. -/
theorem enclose_ne_self (q : Char) (s : String) : enclose q s ≠ s := by
  intro h
  -- Doubling takes nothing away, and the two quote characters come on top.
  have hdoubled : s.toList.length ≤ (doubled q s.toList).length := by
    induction s.toList with
    | nil => exact Nat.le_refl 0
    | cons c cs ih =>
      rw [doubled]
      split
      all_goals simp only [List.length_cons]; omega
  have hlength := congrArg (fun t => t.toList.length) h
  rw [toList_enclose, List.length_cons, List.length_append, List.length_singleton] at hlength
  omega

end Text

/-! ### Tokens -/

namespace Identifier

/-- A token that is no name: a reserved one in any letter case, a decimal number, perhaps with a
minus sign, or a text of two octets or more that begins and ends with an apostrophe. -/
inductive IsToken (s : String) : Prop
  | reserved (h : Text.lower s ∈ ["?", "true", "false", "null"])
  | number (digits : List Char) (h : IsDecimal digits)
      (hs : s.toList = digits ∨ s.toList = '-' :: digits)
  | literal (hsize : 2 ≤ s.utf8ByteSize) (hfirst : s.toList.head? = some '\x27')
      (hlast : s.toList.getLast? = some '\x27')

/-- A token is reserved if its small letters are. -/
theorem isReserved_iff {s : String} :
    isReserved s = true ↔ Text.lower s ∈ ["?", "true", "false", "null"] := by
  -- The tokens are in small letters, so each is what it is compared as.
  have hlower : reserved.map Text.lower = ["?", "true", "false", "null"] := by decide
  rw [← hlower, isReserved, List.any_eq_true, List.mem_map]
  constructor
  · rintro ⟨token, htoken, h⟩
    exact ⟨token, htoken, (Text.sameLetters_iff.mp h).symm⟩
  · rintro ⟨token, htoken, h⟩
    exact ⟨token, htoken, Text.sameLetters_iff.mpr h.symm⟩

/-- A decimal number is what the check for one accepts. -/
theorem isUnsigned_of_isDecimal {cs : List Char} (h : IsDecimal cs) : isUnsigned cs = true := by
  have hfree {whole : List Char} (hwhole : isDigits whole = true) :
      ∀ c ∈ whole, decide (c ≠ '.') = true := by
    intro c hc
    refine decide_eq_true ?_
    rintro rfl
    exact absurd (isDigit_of_isDigits hwhole hc) (by decide)
  -- The check cuts at the first point, and digits have none.
  obtain ⟨whole, hwhole, rfl | ⟨fraction, hfraction, rfl⟩⟩ := h
  · rw [isUnsigned, List.takeWhile_eq_self_iff.mpr (hfree hwhole),
      List.dropWhile_eq_nil_iff.mpr (hfree hwhole), hwhole]
    rfl
  · have hpoint : ∀ c ∈ ('.' :: fraction).head?, decide (c ≠ '.') = false := by
      intro c hc
      obtain rfl := Option.some.inj hc
      decide
    rw [isUnsigned, Text.takeWhile_append (hfree hwhole) hpoint,
      Text.dropWhile_append (hfree hwhole) hpoint, hwhole]
    exact hfraction

/-- A number is a decimal one, perhaps with a minus sign in front. -/
theorem isNumber_iff {s : String} :
    isNumber s = true ↔
      ∃ digits, IsDecimal digits ∧ (s.toList = digits ∨ s.toList = '-' :: digits) := by
  refine ⟨exists_isDecimal_of_isNumber, ?_⟩
  rintro ⟨digits, hdigits, hs | hs⟩
  · -- Without a minus sign the first character is a digit.
    obtain ⟨c, cs, rfl, hc⟩ := hdigits.exists_cons
    have hminus : ¬c = '-' := by
      rintro rfl
      exact absurd hc (by decide)
    unfold isNumber
    split
    · next ds hds => exact absurd (List.cons.inj (hs.symm.trans hds)).1 hminus
    · rw [hs]
      exact isUnsigned_of_isDecimal hdigits
  · unfold isNumber
    rw [hs]
    exact isUnsigned_of_isDecimal hdigits

/-- A literal begins and ends with an apostrophe, and not with one and the same. -/
theorem isLiteral_iff {s : String} :
    isLiteral s = true ↔ 2 ≤ s.utf8ByteSize ∧ s.toList.head? = some '\x27' ∧
      s.toList.getLast? = some '\x27' := by
  rw [← String.utf8Len_toList]
  unfold isLiteral
  constructor
  · intro h
    split at h
    · next cs hs =>
      rw [hs]
      cases cs with
      | nil => cases h
      | cons c cs =>
        -- There are two characters, and each has an octet.
        have hc := c.utf8Size_pos
        have hquote := Char.utf8Size_pos '\x27'
        refine ⟨?_, rfl, ?_⟩
        · rw [String.utf8Len_cons, String.utf8Len_cons]
          omega
        · rw [List.getLast?_cons_cons]
          exact beq_iff_eq.mp h
    · cases h
  · rintro ⟨hsize, hfirst, hlast⟩
    obtain ⟨cs, hs⟩ := List.head?_eq_some_iff.mp hfirst
    rw [hs] at hsize hlast ⊢
    cases cs with
    | nil => exact absurd hsize (by decide)
    | cons c cs =>
      rw [List.getLast?_cons_cons] at hlast
      exact beq_iff_eq.mpr hlast

/-- **The tokens are what stands as it is** without being looked at further. -/
theorem isBare_iff_isToken {s : String} : isBare s = true ↔ IsToken s := by
  rw [isBare, Bool.or_eq_true, Bool.or_eq_true, isReserved_iff, isNumber_iff, isLiteral_iff]
  constructor
  · rintro ((h | ⟨digits, hdigits, hs⟩) | ⟨hsize, hfirst, hlast⟩)
    · exact .reserved h
    · exact .number digits hdigits hs
    · exact .literal hsize hfirst hlast
  · rintro (h | ⟨digits, hdigits, hs⟩ | ⟨hsize, hfirst, hlast⟩)
    · exact .inl (.inl h)
    · exact .inl (.inr ⟨digits, hdigits, hs⟩)
    · exact .inr ⟨hsize, hfirst, hlast⟩

/-! ### Reading a name -/

/-- One segment of a name, read back. -/
def unquoteSegment (q : Char) (segment : String) : String :=
  if segment = "*" then segment else Text.disclose q segment

/-- The name that a text in a statement stands for, where `q` is the quote character. -/
def unquote (q : Char) (text : String) : String :=
  if text.toList.head? = some q ∨ text.toList.head? = some '*' then
    ".".intercalate ((segments text).map (unquoteSegment q))
  else text

variable {q : Char}

/-- A bare name stands as it is. -/
theorem quote_of_isBare {s : String} (h : isBare s = true) : quote q s = s :=
  if_pos h

/-- Any other stands as its quoted segments with points between them. -/
theorem quote_of_not_isBare {s : String} (h : ¬isBare s = true) :
    quote q s = ".".intercalate ((segments s).map (quoteSegment q)) :=
  if_neg h

section

variable (hq : q = '\x22' ∨ q = '\x60')

include hq

/-- Nothing between quote characters is a star. -/
theorem enclose_ne_star (segment : String) : Text.enclose q segment ≠ "*" := by
  intro h
  have hchars : q :: (Text.doubled q segment.toList ++ [q]) = ['*'] := by
    rw [← Text.toList_enclose, h]
    decide
  obtain rfl : q = '*' := (List.cons.inj hchars).1
  rcases hq with h | h
  all_goals exact absurd h (by decide)

/-- Reading a quoted segment gives the segment. -/
theorem unquoteSegment_quoteSegment (segment : String) :
    unquoteSegment q (quoteSegment q segment) = segment := by
  unfold quoteSegment
  split
  · next hstar => rw [unquoteSegment, if_pos hstar]
  -- A quoted segment is not taken for a star.
  · rw [unquoteSegment, if_neg (enclose_ne_star hq segment), Text.disclose_enclose]

/-- Quoting a segment brings no point in. -/
theorem notMem_quoteSegment {segment : String} (h : '.' ∉ segment.toList) :
    '.' ∉ (quoteSegment q segment).toList := by
  unfold quoteSegment
  split
  · exact h
  · intro hmem
    rcases Text.mem_of_mem_enclose hmem with hpoint | hmem
    · rcases hq with rfl | rfl
      all_goals exact absurd hpoint (by decide)
    · exact h hmem

/-- The segments of a quoted name are the quoted segments of the name. -/
theorem segments_intercalate_quoteSegment (s : String) :
    segments (".".intercalate ((segments s).map (quoteSegment q))) =
      (segments s).map (quoteSegment q) := by
  refine Text.parts_intercalate (mt List.map_eq_nil_iff.mp (segments_ne_nil s)) fun part hpart => ?_
  obtain ⟨segment, hsegment, rfl⟩ := List.mem_map.mp hpart
  exact notMem_quoteSegment hq (Text.notMem_of_mem_parts hsegment)

/-- **Reading undoes quoting.** -/
theorem unquote_quote (s : String) : unquote q (quote q s) = s := by
  by_cases hbare : isBare s = true
  · -- A token begins with neither of the characters that a quoted name begins with.
    obtain ⟨c, cs, hs, hc⟩ := exists_cons_of_isBare hbare
    have hhead : ¬(s.toList.head? = some q ∨ s.toList.head? = some '*') := by
      rw [hs, List.head?_cons, Option.some_inj, Option.some_inj]
      rintro (rfl | rfl)
      · rcases hq with rfl | rfl
        all_goals revert hc; decide
      · revert hc
        decide
    rw [quote_of_isBare hbare, unquote, if_neg hhead]
  · have hhead : (quote q s).toList.head? = some q ∨ (quote q s).toList.head? = some '*' := by
      obtain ⟨⟨c, hc, hopen⟩, -⟩ := fenced_intercalate (q := q) (segments_ne_nil s)
      rw [quote_of_not_isBare hbare, Option.mem_def.mp hc, Option.some_inj, Option.some_inj]
      exact hopen
    -- A quoted name is cut where it was joined, and read segment by segment.
    have hback : (unquoteSegment q ∘ quoteSegment q) = id :=
      funext fun segment => unquoteSegment_quoteSegment hq segment
    rw [unquote, if_pos hhead, quote_of_not_isBare hbare, segments_intercalate_quoteSegment hq,
      List.map_map, hback, List.map_id]
    exact Text.intercalate_parts '.' s

/-- **What stands unchanged**: tokens, and stars with points between them. -/
theorem quote_eq_self_iff (s : String) :
    quote q s = s ↔ IsToken s ∨ ∀ segment ∈ segments s, segment = "*" := by
  rw [← isBare_iff_isToken]
  by_cases hbare : isBare s = true
  · exact iff_of_true (quote_of_isBare hbare) (.inl hbare)
  · rw [quote_of_not_isBare hbare, or_iff_right hbare]
    constructor
    · -- An unchanged name has unchanged segments, and only a star is one.
      intro h
      have hsegments := segments_intercalate_quoteSegment hq s
      rw [h] at hsegments
      intro segment hsegment
      have hself : quoteSegment q segment = segment :=
        List.map_inj_left.mp (hsegments.symm.trans (List.map_id _).symm) segment hsegment
      unfold quoteSegment at hself
      split at hself
      · next hstar => exact hstar
      · exact absurd hself (Text.enclose_ne_self q segment)
    · intro h
      have hself : (segments s).map (quoteSegment q) = (segments s).map id :=
        List.map_inj_left.mpr fun segment hsegment => if_pos (h segment hsegment)
      rw [hself, List.map_id]
      exact Text.intercalate_parts '.' s

end

end Identifier

open Identifier

/-- **Names can be read back**, in the dialect of every engine. A name stands unchanged exactly if
it is a token or made of stars with points between them; if it is no token, it stands as its
segments with points between them, each but a star between quote characters. Reading what stands
there gives the name, so no two names stand for each other. -/
theorem Dialect.unquote_identifier (e : Engine) :
    (∀ s, (e.dialect.identifier s = s ↔ IsToken s ∨ ∀ segment ∈ segments s, segment = "*") ∧
      (¬IsToken s → e.dialect.identifier s =
        ".".intercalate ((segments s).map (quoteSegment e.dialect.quote))) ∧
      unquote e.dialect.quote (e.dialect.identifier s) = s) ∧
    Function.Injective e.dialect.identifier := by
  have hback : Function.LeftInverse (unquote e.dialect.quote) e.dialect.identifier :=
    unquote_quote e.quote_eq
  refine ⟨fun s => ⟨quote_eq_self_iff e.quote_eq s, fun htoken => ?_, hback s⟩, hback.injective⟩
  exact quote_of_not_isBare (mt isBare_iff_isToken.mp htoken)

/-- A name with an empty segment, a star, a segment of quote characters only, and a star between
others. -/
theorem Dialect.unquote_identifier_segments :
    let s := ".*.\x22\x22.a*"
    Engine.sql.dialect.identifier s = "\x22\x22.*.\x22\x22\x22\x22\x22\x22.\x22a*\x22" ∧
      unquote '\x22' "\x22\x22.*.\x22\x22\x22\x22\x22\x22.\x22a*\x22" = s := by
  intro s
  have hname : ¬IsToken s := mt isBare_iff_isToken.mpr (by decide)
  obtain ⟨hall, -⟩ := unquote_identifier .sql
  have hquoted : Engine.sql.dialect.identifier s =
      "\x22\x22.*.\x22\x22\x22\x22\x22\x22.\x22a*\x22" :=
    ((hall s).2.1 hname).trans (by decide)
  refine ⟨hquoted, ?_⟩
  rw [← hquoted]
  exact (hall s).2.2

/-- Not only tokens stand unchanged: a star does, and is none. -/
theorem Dialect.not_identifier_eq_iff_isToken :
    ¬∀ (e : Engine) (s : String), e.dialect.identifier s = s ↔ IsToken s := by
  intro hall
  have hstar : Engine.sql.dialect.identifier "*" = "*" := by decide
  have htoken : ¬IsToken "*" := mt isBare_iff_isToken.mpr (by decide)
  exact htoken ((hall .sql "*").mp hstar)

end SqlBuilder
