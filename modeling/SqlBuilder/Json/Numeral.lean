import SqlBuilder.Json.Basic

/-!
# Numerals of a JSON document

A numeral is kept as it is written, because what it stands for depends on its form: without a
fraction and an exponent it is an integer where 64 bits can hold it, and everything else is a
binary64 number. The significand of such a number is what fits 64 bits unsigned; it is rounded to
binary64 and then scaled by one multiplication or division by a power of ten, itself rounded. A
number too great for binary64 stands for nothing.
-/

namespace SqlBuilder

/-- A numeral as written: the digits before and after the point, and the power of ten. -/
structure Numeral where
  negative : Bool
  whole : List Char
  fraction : Option (List Char)
  exponent : Option Int
  deriving DecidableEq, Repr

namespace Numeral

/-- The greatest significand. -/
def maxSignificand : Nat := 18446744073709551615

/-- The greatest absolute value of a negative integer. -/
def maxNegative : Nat := 9223372036854775808

/-- Continue the significand `m` with digits while it stays in range; the digits left over. -/
def gather : Nat → List Char → Nat × List Char
  | m, [] => (m, [])
  | m, c :: cs =>
    let next := 10 * m + Text.digitValue c
    if next ≤ maxSignificand then gather next cs else (m, c :: cs)

/-- The greatest power of ten that binary64 holds has this exponent. -/
def maxPower : Nat := 308

/-- The binary64 number nearest to `10 ^ k`. -/
def powerOfTen (k : Nat) : Binary64 :=
  .ofRatio false (Nat.pow 10 k) 1

/-- `x` divided by `10 ^ k`, in steps of at most `10 ^ maxPower`, ended early by zero. -/
def scaleDown (x : Binary64) (k : Nat) : Binary64 :=
  if k ≤ maxPower then x.div (powerOfTen k)
  else if x.isZero then x
  else scaleDown (x.div (powerOfTen maxPower)) (k - maxPower)
termination_by k
decreasing_by simp only [maxPower] at *; omega

/-- `x` multiplied by `10 ^ k`; `none` beyond the range. -/
def scaleUp? (x : Binary64) (k : Nat) : Option Binary64 :=
  if k ≤ maxPower then
    let y := x.mul (powerOfTen k)
    if y.isInfinite then none else some y
  else if x.isZero then some x
  else none

/-- The number `± m · 10 ^ e`. -/
def scaled? (negative : Bool) (m : Nat) (e : Int) : Option Binary64 :=
  let x := Binary64.ofInt m
  let y? := if 0 ≤ e then scaleUp? x e.toNat else some (scaleDown x (-e).toNat)
  y?.map fun y => if negative then y.neg else y

/-- The numeral as a binary64 number. Digits before the point that the significand has no room
for raise the exponent; digits after it are dropped. -/
def float? (n : Numeral) : Option Binary64 :=
  let fraction := n.fraction.getD []
  let whole := gather 0 n.whole
  let all := gather whole.1 fraction
  let places : Int := fraction.length - all.2.length
  scaled? n.negative all.1 (whole.2.length - places + n.exponent.getD 0)

/-- What the numeral stands for. A negative zero is a binary64 number, which has one. -/
def number? (n : Numeral) : Option Json.Number :=
  let whole := gather 0 n.whole
  if n.fraction.isNone ∧ n.exponent.isNone ∧ whole.2 = [] ∧
      (n.negative = false ∨ (0 < whole.1 ∧ whole.1 ≤ maxNegative)) then
    some (.integer (if n.negative then -whole.1 else whole.1))
  else n.float?.map .float

end Numeral

end SqlBuilder
