import SqlBuilder.Json.Numeral

/-!
# Tokens of a JSON document

The text of a document is cut into tokens: brackets, separators, words, numerals and strings.
A string is read in two steps. `scanString` finds its end and undoes the escapes, an escape by
code giving a unit of UTF-16; `joinUnits` then joins the pairs of units that stand for one
character. A string that names half of a pair has no text, but it is a token all the same.
Each scanner returns what follows it, with a lemma that this is shorter than what it was given.
-/

namespace SqlBuilder

/-- A token of a JSON document. The text of a string is `none` if half of a pair stands in it. -/
inductive Token where
  | leftBrace
  | rightBrace
  | leftBracket
  | rightBracket
  | colon
  | comma
  | null
  | bool (b : Bool)
  | number (n : Numeral)
  | string (s : Option String)
  deriving DecidableEq, Repr

namespace Token

/-! ### Strings -/

/-- A character of a string, or a unit of UTF-16 given by its code. -/
inductive Piece where
  | char (c : Char)
  | code (n : Nat)
  deriving DecidableEq, Repr

/-- The character that a one-letter escape stands for. -/
def unescape? : Char → Option Char
  | '\x22' => some '\x22'
  | '\\' => some '\\'
  | '/' => some '/'
  | 'b' => some '\x08'
  | 'f' => some '\x0C'
  | 'n' => some '\n'
  | 'r' => some '\r'
  | 't' => some '\t'
  | _ => none

/-- The units of a string from behind its opening quote, and what follows the closing one. -/
def scanString : List Char → Option (List Piece × List Char)
  | [] => none
  | '\x22' :: cs => some ([], cs)
  | '\\' :: 'u' :: a :: b :: c :: d :: cs => do
    let n ← Text.ofHexDigits? [a, b, c, d]
    let (units, rest) ← scanString cs
    return (.code n :: units, rest)
  | '\\' :: e :: cs => do
    let c ← unescape? e
    let (units, rest) ← scanString cs
    return (.char c :: units, rest)
  | c :: cs =>
    if c = '\\' ∨ c.toNat < 0x20 then none
    else do
      let (units, rest) ← scanString cs
      return (.char c :: units, rest)

/-- Whether a unit is the first half of a pair. -/
def isHigh (n : Nat) : Bool := 0xD800 ≤ n && n ≤ 0xDBFF

/-- Whether a unit is the second half of a pair. -/
def isLow (n : Nat) : Bool := 0xDC00 ≤ n && n ≤ 0xDFFF

/-- The character of a pair of units. -/
def pair (high low : Nat) : Char :=
  Char.ofNat (0x10000 + (high - 0xD800) * 0x400 + (low - 0xDC00))

/-- The text that units stand for; `none` if half of a pair stands alone. -/
def joinUnits : List Piece → Option (List Char)
  | [] => some []
  | .char c :: us => (joinUnits us).map (c :: ·)
  | .code n :: us =>
    if isHigh n then
      match us with
      | .code m :: us => if isLow m then (joinUnits us).map (pair n m :: ·) else none
      | _ => none
    else if isLow n then none
    else (joinUnits us).map (Char.ofNat n :: ·)

/-! ### Numerals -/

/-- One decimal digit or more, and what follows them. -/
def scanDigits (cs : List Char) : Option (List Char × List Char) :=
  match cs.takeWhile Char.isDigit with
  | [] => none
  | d :: ds => some (d :: ds, cs.dropWhile Char.isDigit)

/-- The digits before the point: a zero alone, or digits that begin with no zero. -/
def scanWhole : List Char → Option (List Char × List Char)
  | '0' :: cs => some (['0'], cs)
  | cs => scanDigits cs

/-- The point and the digits behind it, if there is a point. -/
def scanFraction : List Char → Option (Option (List Char) × List Char)
  | '.' :: cs => (scanDigits cs).map fun (digits, rest) => (some digits, rest)
  | cs => some (none, cs)

/-- A sign that may be left out: whether it is a minus, and what follows it. -/
def scanSign : List Char → Bool × List Char
  | '+' :: cs => (false, cs)
  | '-' :: cs => (true, cs)
  | cs => (false, cs)

/-- The digits of an exponent as a number of the given sign. -/
def signed (negative : Bool) (digits : List Char) : Int :=
  if negative then -(Text.ofDigits digits : Int) else Text.ofDigits digits

/-- The exponent, if there is one. -/
def scanExponent : List Char → Option (Option Int × List Char)
  | [] => some (none, [])
  | c :: cs =>
    if c = 'e' ∨ c = 'E' then
      (scanDigits (scanSign cs).2).map fun (digits, rest) =>
        (some (signed (scanSign cs).1 digits), rest)
    else some (none, c :: cs)

/-- A numeral from behind its sign, and what follows it. -/
def scanUnsigned (negative : Bool) (cs : List Char) : Option (Numeral × List Char) := do
  let (whole, cs) ← scanWhole cs
  let (fraction, cs) ← scanFraction cs
  let (exponent, cs) ← scanExponent cs
  return (⟨negative, whole, fraction, exponent⟩, cs)

/-! ### Tokens -/

/-- Blanks between tokens. -/
def isSpace (c : Char) : Bool :=
  c = ' ' || c = '\t' || c = '\n' || c = '\r'

/-- The token that begins with the character `c`, and what follows it. -/
def scan (c : Char) (cs : List Char) : Option (Token × List Char) :=
  match c, cs with
  | '\x7b', cs => some (.leftBrace, cs)
  | '\x7d', cs => some (.rightBrace, cs)
  | '[', cs => some (.leftBracket, cs)
  | ']', cs => some (.rightBracket, cs)
  | ':', cs => some (.colon, cs)
  | ',', cs => some (.comma, cs)
  | 'n', 'u' :: 'l' :: 'l' :: cs => some (.null, cs)
  | 't', 'r' :: 'u' :: 'e' :: cs => some (.bool true, cs)
  | 'f', 'a' :: 'l' :: 's' :: 'e' :: cs => some (.bool false, cs)
  | '\x22', cs =>
    (scanString cs).map fun (units, rest) => (.string ((joinUnits units).map String.ofList), rest)
  | '-', cs => (scanUnsigned true cs).map fun (n, rest) => (.number n, rest)
  | c, cs => (scanUnsigned false (c :: cs)).map fun (n, rest) => (.number n, rest)

/-! ### What follows a token is shorter -/

/-- A string ends with a quote, which is read too. -/
theorem length_scanString {cs rest : List Char} {units : List Piece}
    (h : scanString cs = some (units, rest)) : rest.length < cs.length := by
  -- A code, a letter and a plain character are read before the rest of the string.
  fun_induction scanString cs generalizing units with
  | case1 => simp at h
  | case2 => simp at h; simp [h.2]
  | case3 a b c d cs ih =>
    simp only [Option.bind_eq_bind, Option.bind_eq_some_iff, Prod.exists, Option.pure_def,
      Option.some.injEq, Prod.mk.injEq] at h
    obtain ⟨_, _, us, r, hr, _, rfl⟩ := h
    have := ih hr
    simp only [List.length_cons]
    omega
  | case4 e cs _ ih =>
    simp only [Option.bind_eq_bind, Option.bind_eq_some_iff, Prod.exists, Option.pure_def,
      Option.some.injEq, Prod.mk.injEq] at h
    obtain ⟨_, _, us, r, hr, _, rfl⟩ := h
    have := ih hr
    simp only [List.length_cons]
    omega
  | case5 => simp at h
  | case6 c cs _ _ _ _ ih =>
    simp only [Option.bind_eq_bind, Option.bind_eq_some_iff, Prod.exists, Option.pure_def,
      Option.some.injEq, Prod.mk.injEq] at h
    obtain ⟨us, r, hr, _, rfl⟩ := h
    have := ih hr
    simp only [List.length_cons]
    omega

/-- There is at least one digit. -/
theorem length_scanDigits {cs rest digits : List Char} (h : scanDigits cs = some (digits, rest)) :
    rest.length < cs.length := by
  unfold scanDigits at h
  split at h
  · simp at h
  · next d ds hd =>
    simp only [Option.some.injEq, Prod.mk.injEq] at h
    have := congrArg List.length (List.takeWhile_append_dropWhile (p := Char.isDigit) (l := cs))
    rw [hd, List.length_append] at this
    rw [← h.2]
    simp only [List.length_cons] at this
    omega

theorem length_scanWhole {cs rest digits : List Char} (h : scanWhole cs = some (digits, rest)) :
    rest.length < cs.length := by
  unfold scanWhole at h
  split at h
  · simp only [Option.some.injEq, Prod.mk.injEq] at h
    simp [← h.2]
  · exact length_scanDigits h

/-- A fraction may be missing. -/
theorem length_scanFraction {cs rest : List Char} {fraction : Option (List Char)}
    (h : scanFraction cs = some (fraction, rest)) : rest.length ≤ cs.length := by
  unfold scanFraction at h
  split at h
  · simp only [Option.map_eq_some_iff, Prod.exists, Prod.mk.injEq] at h
    obtain ⟨_, _, hd, _, rfl⟩ := h
    have := length_scanDigits hd
    simp only [List.length_cons]
    omega
  · simp only [Option.some.injEq, Prod.mk.injEq] at h
    simp [h.2]

theorem length_scanSign (cs : List Char) : (scanSign cs).2.length ≤ cs.length := by
  unfold scanSign
  split <;> simp

/-- An exponent may be missing. -/
theorem length_scanExponent {cs rest : List Char} {exponent : Option Int}
    (h : scanExponent cs = some (exponent, rest)) : rest.length ≤ cs.length := by
  cases cs with
  | nil => simp_all [scanExponent]
  | cons c cs =>
    simp only [scanExponent] at h
    split at h
    · simp only [Option.map_eq_some_iff, Prod.exists, Prod.mk.injEq] at h
      obtain ⟨_, _, hd, _, rfl⟩ := h
      have := length_scanDigits hd
      have := length_scanSign cs
      simp only [List.length_cons]
      omega
    · simp only [Option.some.injEq, Prod.mk.injEq] at h
      simp [← h.2]

/-- A numeral has at least its whole part. -/
theorem length_scanUnsigned {negative : Bool} {cs rest : List Char} {n : Numeral}
    (h : scanUnsigned negative cs = some (n, rest)) : rest.length < cs.length := by
  simp only [scanUnsigned, Option.bind_eq_bind, Option.bind_eq_some_iff, Prod.exists,
    Option.pure_def, Option.some.injEq, Prod.mk.injEq] at h
  obtain ⟨_, _, hw, _, _, hf, _, _, he, _, rfl⟩ := h
  have := length_scanWhole hw
  have := length_scanFraction hf
  have := length_scanExponent he
  omega

/-- A token may have no more than its first character. -/
theorem length_scan {c : Char} {cs rest : List Char} {t : Token}
    (h : scan c cs = some (t, rest)) : rest.length ≤ cs.length := by
  unfold scan at h
  split at h
  -- Strings and numerals have their lemmas; any other token is the characters it names.
  case h_10 =>
    simp only [Option.map_eq_some_iff, Prod.exists, Prod.mk.injEq] at h
    obtain ⟨_, _, hs, _, rfl⟩ := h
    exact Nat.le_of_lt (length_scanString hs)
  case h_11 =>
    simp only [Option.map_eq_some_iff, Prod.exists, Prod.mk.injEq] at h
    obtain ⟨_, _, hs, _, rfl⟩ := h
    exact Nat.le_of_lt (length_scanUnsigned hs)
  case h_12 =>
    simp only [Option.map_eq_some_iff, Prod.exists, Prod.mk.injEq] at h
    obtain ⟨_, _, hs, _, rfl⟩ := h
    exact Nat.le_of_lt_succ (length_scanUnsigned hs)
  all_goals
    simp only [Option.some.injEq, Prod.mk.injEq] at h
    simp only [← h.2, List.length_cons]
    omega

/-! ### Whole documents -/

/-- The tokens of a text, the spaces between them left out; `none` if a part of it is no token. -/
def all : List Char → Option (List Token)
  | [] => some []
  | c :: cs =>
    if isSpace c then all cs
    else
      match h : scan c cs with
      | none => none
      | some (t, rest) =>
        have : rest.length ≤ cs.length := length_scan h
        (all rest).map (t :: ·)
termination_by cs => cs.length

end Token

end SqlBuilder
