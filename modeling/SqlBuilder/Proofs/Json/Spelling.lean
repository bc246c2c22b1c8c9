import Mathlib.Tactic.SplitIfs
import SqlBuilder.Json.Token
import SqlBuilder.Proofs.Text.Parts

/-!
# How strings and integers are written and read

A string between quotes and an integer in base ten are each one token, whatever comes behind. For a
string this is one argument for each character: its escape is read as one piece, which stands for
the character (`Token.exists_piece`). A numeral has no end of its own, so what comes behind must not
go on with it (`Token.Ends`).

The two statements are `Token.scan_escaped` and `Token.scanUnsigned_digits`.
-/

namespace SqlBuilder

namespace Token

/-! ### Strings -/

/-- An escape of one letter. -/
theorem scanString_letter {e c : Char} (hcode : e ≠ 'u') (h : unescape? e = some c)
    (cs : List Char) :
    scanString ('\\' :: e :: cs) = (scanString cs).map (Prod.map (.char c :: ·) id) := by
  rw [scanString, h]
  · cases scanString cs <;> rfl
  · exact fun _ _ _ _ _ heq => absurd heq hcode

/-- An escape of four digits. -/
theorem scanString_code {a b c d : Char} {n : Nat} (h : Text.ofHexDigits? [a, b, c, d] = some n)
    (cs : List Char) :
    scanString ('\\' :: 'u' :: a :: b :: c :: d :: cs) =
      (scanString cs).map (Prod.map (.code n :: ·) id) := by
  rw [scanString, h]
  cases scanString cs <;> rfl

/-- A character that needs no escape. -/
theorem scanString_plain {c : Char} (hquote : c ≠ '\x22') (hescape : c ≠ '\\')
    (hcontrol : ¬ c.toNat < 0x20) (cs : List Char) :
    scanString (c :: cs) = (scanString cs).map (Prod.map (.char c :: ·) id) := by
  rw [scanString, if_neg (not_or.mpr ⟨hescape, hcontrol⟩)]
  · cases scanString cs <;> rfl
  · exact hquote
  · exact fun _ _ _ _ _ heq => absurd heq hescape
  · exact fun _ _ heq => absurd heq hescape

/-- A control character is no half of a pair. -/
theorem joinUnits_code {c : Char} (h : c.toNat < 0x20) (ps : List Piece) :
    joinUnits (.code c.toNat :: ps) = (joinUnits ps).map (c :: ·) := by
  have hhigh : isHigh c.toNat = false := by
    simp only [isHigh, Bool.and_eq_false_iff, decide_eq_false_iff_not]
    omega
  have hlow : isLow c.toNat = false := by
    simp only [isLow, Bool.and_eq_false_iff, decide_eq_false_iff_not]
    omega
  rw [joinUnits.eq_def]
  simp only [hhigh, hlow, Char.ofNat_toNat]
  rfl

/-- **The escape of a character is read as one piece**, which stands for the character. -/
theorem exists_piece (c : Char) :
    ∃ p : Piece,
      (∀ cs, scanString (Json.escape c ++ cs) =
        (scanString cs).map (Prod.map (p :: ·) id)) ∧
      ∀ ps, joinUnits (p :: ps) = (joinUnits ps).map (c :: ·) := by
  unfold Json.escape
  split_ifs with hquote hslash hline htab hreturn hback hfeed hcontrol
  -- Seven characters have a letter, the other control characters a code.
  iterate 7
    · subst c
      exact ⟨.char _, scanString_letter (by decide) rfl, fun _ => rfl⟩
  · have hdigits : Text.ofHexDigits? (Text.hexDigits .lower 4 c.toNat) = some c.toNat :=
      Text.ofHexDigits?_hexDigits .lower (Nat.lt_trans hcontrol (by decide))
    exact ⟨.code c.toNat, scanString_code hdigits, joinUnits_code hcontrol⟩
  · exact ⟨.char c, scanString_plain hquote hslash hcontrol, fun _ => rfl⟩

/-- The escapes of all characters are read as their pieces up to the closing quote, and these stand
for the characters. -/
theorem exists_pieces (cs rest : List Char) :
    ∃ ps, scanString (cs.flatMap Json.escape ++ '\x22' :: rest) = some (ps, rest) ∧
      joinUnits ps = some cs := by
  -- By induction on the characters; the piece of the first one does not depend on what is behind
  -- it.
  induction cs with
  | nil => exact ⟨[], rfl, rfl⟩
  | cons c cs ih =>
    obtain ⟨ps, hscan, hjoin⟩ := ih
    obtain ⟨p, hpiece, hchar⟩ := exists_piece c
    refine ⟨p :: ps, ?_, ?_⟩
    · rw [List.flatMap_cons, List.append_assoc, hpiece, hscan]
      rfl
    · rw [hchar, hjoin]
      rfl

/-- **A string is read as it was written**, whatever it holds. -/
theorem scan_escaped (s : String) (rest : List Char) :
    scan '\x22' (s.toList.flatMap Json.escape ++ '\x22' :: rest) =
      some (.string (some s), rest) := by
  obtain ⟨ps, hscan, hjoin⟩ := exists_pieces s.toList rest
  have htext : (joinUnits ps).map String.ofList = some s := by
    rw [hjoin, Option.map_some, String.ofList_toList]
  change (scanString _).map _ = _
  rw [hscan, ← htext]
  rfl

/-! ### Numerals -/

/-- Whether a text does not go on with a numeral that stands in front of it. -/
def Ends (cs : List Char) : Prop :=
  ∀ c ∈ cs.head?, c.isDigit = false ∧ c ≠ '.' ∧ c ≠ 'e' ∧ c ≠ 'E'

variable {rest : List Char}

/-- Digits are read to their end. -/
theorem scanDigits_append {ds : List Char} (hne : ds ≠ []) (hds : ∀ c ∈ ds, c.isDigit = true)
    (hrest : Ends rest) : scanDigits (ds ++ rest) = some (ds, rest) := by
  have hdigit : ∀ c ∈ rest.head?, c.isDigit = false := fun c hc => (hrest c hc).1
  rw [scanDigits, Text.takeWhile_append hds hdigit, Text.dropWhile_append hds hdigit]
  obtain ⟨d, ds, rfl⟩ := List.exists_cons_of_ne_nil hne
  rfl

/-- The digits of a number are read as its whole part, although a zero may not be followed by
another digit. -/
theorem scanWhole_digits (n : Nat) (hrest : Ends rest) :
    scanWhole (Text.digits n ++ rest) = some (Text.digits n, rest) := by
  rcases Nat.eq_zero_or_pos n with rfl | hpos
  · -- A zero is a whole numeral by itself, and it is what zero is written as.
    have hzero : Text.digits 0 = ['0'] := Nat.toDigits_zero 10
    rw [hzero]
    rfl
  · have hread := scanDigits_append (Text.digits_ne_nil n)
      (fun _ => Text.isDigit_of_mem_digits) hrest
    have hhead := Text.head?_digits_ne hpos
    obtain ⟨d, ds, hds⟩ := List.exists_cons_of_ne_nil (Text.digits_ne_nil n)
    rw [hds] at hread hhead ⊢
    rw [List.cons_append] at hread ⊢
    rw [scanWhole, hread]
    exact fun _ heq => hhead (congrArg some (List.cons.inj heq).1)

/-- **An integer is read as it was written**, with neither a fraction nor an exponent. -/
theorem scanUnsigned_digits (negative : Bool) (n : Nat) (hrest : Ends rest) :
    scanUnsigned negative (Text.digits n ++ rest) =
      some (⟨negative, Text.digits n, none, none⟩, rest) := by
  have hfraction : scanFraction rest = some (none, rest) := by
    cases rest with
    | nil => rfl
    | cons c cs =>
      rw [scanFraction]
      exact fun _ heq => (hrest c rfl).2.1 (List.cons.inj heq).1
  have hexponent : scanExponent rest = some (none, rest) := by
    cases rest with
    | nil => rfl
    | cons c cs => rw [scanExponent, if_neg (not_or.mpr (hrest c rfl).2.2)]
  -- The three parts of a numeral are scanned one after the other, and two of them are not there.
  rw [scanUnsigned, scanWhole_digits n hrest]
  change (scanFraction rest).bind _ = _
  rw [hfraction]
  change (scanExponent rest).bind _ = _
  rw [hexponent]
  rfl

/-- A token that begins with a digit is a numeral. -/
theorem scan_of_isDigit {c : Char} (h : c.isDigit = true) (cs : List Char) :
    scan c cs = (scanUnsigned false (c :: cs)).map fun (n, rest) => (.number n, rest) := by
  unfold scan
  split
  case h_12 => rfl
  -- No other token begins with a digit.
  all_goals exact absurd h (by decide)

/-- A digit is no space. -/
theorem isSpace_of_isDigit {c : Char} (h : c.isDigit = true) : isSpace c = false := by
  rw [Bool.eq_false_iff]
  intro hspace
  simp only [isSpace, Bool.or_eq_true, decide_eq_true_eq] at hspace
  rcases hspace with ((rfl | rfl) | rfl) | rfl
  all_goals exact absurd h (by decide)

end Token

end SqlBuilder
