/-!
# Binary64 numbers

A binary64 number is its 64 bits, so that two not-a-number patterns with different payloads stay
apart and equality is decidable. A finite one is `± m · 2 ^ q` (`Binary64.scaled?`); conversely
`Binary64.ofRatio` gives the nearest number to a quotient of naturals, a tie going to the even
significand and a quotient beyond the range to infinity. Everything is exact arithmetic on `Nat`.
-/

namespace SqlBuilder

/-- A number of the binary64 format, by its bit pattern. -/
structure Binary64 where
  bits : UInt64
  deriving DecidableEq, Repr

/-- `n / d` to the nearest natural, a tie to the even one. -/
def roundQuotient (n d : Nat) : Nat :=
  let m := n / d
  let r := n % d
  if 2 * r > d ∨ (2 * r = d ∧ m % 2 = 1) then m + 1 else m

namespace Binary64

/-- The weight of the sign bit. -/
def signWeight : Nat := Nat.pow 2 63

/-- The weight of the lowest bit of the exponent field. -/
def exponentWeight : Nat := Nat.pow 2 52

/-- The exponent field of infinities and not-a-number patterns. -/
def topExponent : Nat := 2047

/-- Whether the sign bit is set. -/
def isNegative (x : Binary64) : Bool :=
  signWeight ≤ x.bits.toNat

/-- The bits below the sign. -/
def unsignedBits (x : Binary64) : Nat :=
  x.bits.toNat % signWeight

/-- The exponent field. -/
def exponentField (x : Binary64) : Nat :=
  x.unsignedBits / exponentWeight

/-- The fraction field. -/
def fractionField (x : Binary64) : Nat :=
  x.unsignedBits % exponentWeight

/-- Whether the pattern is not a number. -/
def isNaN (x : Binary64) : Bool :=
  x.exponentField = topExponent && x.fractionField ≠ 0

/-- Whether the pattern is one of the two infinities. -/
def isInfinite (x : Binary64) : Bool :=
  x.exponentField = topExponent && x.fractionField = 0

/-- Whether the number is one of the two zeros. -/
def isZero (x : Binary64) : Bool :=
  x.unsignedBits = 0

/-- `(m, q)` with the absolute value `m · 2 ^ q`; `none` for what is not finite. -/
def scaled? (x : Binary64) : Option (Nat × Int) :=
  if x.exponentField = topExponent then none
  else if x.exponentField = 0 then some (x.fractionField, -1074)
  else some (exponentWeight + x.fractionField, (x.exponentField : Int) - 1075)

/-- The number with the given sign and the given bits below it. -/
def ofBits (negative : Bool) (unsigned : Nat) : Binary64 :=
  ⟨UInt64.ofNat ((if negative then signWeight else 0) + unsigned)⟩

/-- The infinity of a sign. -/
def infinity (negative : Bool) : Binary64 :=
  ofBits negative (topExponent * exponentWeight)

/-- `n / d · b ^ e` as a numerator and a denominator. -/
def scaleRatio (b n d : Nat) (e : Int) : Nat × Nat :=
  (n * Nat.pow b e.toNat, d * Nat.pow b (-e).toNat)

/-- The exponent of the last place of the number nearest to `n / d`: the significand gets 53 bits,
or fewer where the exponent would fall below the least one. -/
def lastPlace (n d : Nat) : Int :=
  let guess := max ((Nat.log2 n : Int) - Nat.log2 d - 53) (-1074)
  -- The quotient in units of the guess has 53 bits or 54, or fewer at the bottom of the range.
  let (a, b) := scaleRatio 2 n d (-guess)
  if a / b < 2 * exponentWeight then guess else guess + 1

/-- The number nearest to `± n / d`, a tie to the even significand; infinity beyond the range. -/
def ofRatio (negative : Bool) (n d : Nat) : Binary64 :=
  if n = 0 then ofBits negative 0
  else
    let q := lastPlace n d
    let (a, b) := scaleRatio 2 n d (-q)
    let m := roundQuotient a b
    -- A significand that rounding has carried to 54 bits raises the exponent by this sum too.
    let unsigned :=
      if m < exponentWeight then m
      else (q + 1075).toNat * exponentWeight + (m - exponentWeight)
    if unsigned < topExponent * exponentWeight then ofBits negative unsigned
    else infinity negative

/-- The number nearest to an integer. -/
def ofInt (n : Int) : Binary64 :=
  ofRatio (n < 0) n.natAbs 1

/-- The number with the opposite sign. -/
def neg (x : Binary64) : Binary64 :=
  ofBits (!x.isNegative) x.unsignedBits

/-- The absolute value as a quotient of naturals; zero for what is not finite. -/
def ratio (x : Binary64) : Nat × Nat :=
  match x.scaled? with
  | some (m, q) => scaleRatio 2 m 1 q
  | none => (0, 1)

/-- The product of two finite numbers, rounded once. -/
def mul (x y : Binary64) : Binary64 :=
  ofRatio (x.isNegative ^^ y.isNegative) (x.ratio.1 * y.ratio.1) (x.ratio.2 * y.ratio.2)

/-- The quotient of a finite number by one that is not zero, rounded once. -/
def div (x y : Binary64) : Binary64 :=
  ofRatio (x.isNegative ^^ y.isNegative) (x.ratio.1 * y.ratio.2) (x.ratio.2 * y.ratio.1)

/-- The binary64 number equal to a binary32 pattern. A not-a-number pattern keeps its sign and its
payload in the high bits and becomes quiet. -/
def ofBinary32 (bits : UInt32) : Binary64 :=
  let negative := Nat.pow 2 31 ≤ bits.toNat
  let exponent := bits.toNat % Nat.pow 2 31 / Nat.pow 2 23
  let fraction := bits.toNat % Nat.pow 2 23
  if exponent = 255 then
    if fraction = 0 then infinity negative
    else
      ofBits negative (topExponent * exponentWeight + Nat.pow 2 51 +
        fraction % Nat.pow 2 22 * Nat.pow 2 29)
  else if exponent = 0 then ofRatio negative fraction (Nat.pow 2 149)
  else ofRatio negative ((Nat.pow 2 23 + fraction) * Nat.pow 2 exponent) (Nat.pow 2 150)

end Binary64

end SqlBuilder
