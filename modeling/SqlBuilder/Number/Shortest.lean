import SqlBuilder.Number.Binary64
import SqlBuilder.Text.Digits

/-!
# The shortest decimal that reads back

Among the decimals that round to a given binary64 number, the ones with the fewest digits, and of
those the nearest to the number. The reals that round to `m · 2 ^ q` form an interval
(`Interval`), ends included exactly when `m` is even. For one digit, two, three and so on, the
two neighbours of the number on the decimal grid of that many digits are tried; the first grid
with a neighbour inside the interval gives the answer. If any point of a grid lies inside, one of
the two neighbours does, so no shorter decimal is passed over.
-/

namespace SqlBuilder

/-- A positive decimal `0.d₁d₂… · 10 ^ (exponent + 1)`: its digits from the first one on, which is
not zero, and the power of ten that the first digit counts. -/
structure Decimal where
  digits : List Char
  exponent : Int
  deriving DecidableEq, Repr

namespace Decimal

/-- How many digits `n` has in base ten. -/
def width (n : Nat) : Nat :=
  (Text.digits n).length

/-- The reals that round to one binary64 number: the number itself and both ends, in quarters of
the unit `2 ^ unit`, and whether the ends round to the number too. -/
structure Interval where
  low : Nat
  value : Nat
  high : Nat
  unit : Int
  closed : Bool
  deriving Repr

/-- The interval of `m · 2 ^ q`. Below a power of two the neighbour is half as far away, except at
the bottom of the range. -/
def Interval.of (m : Nat) (q : Int) : Interval where
  low := if m = Binary64.exponentWeight ∧ q ≠ -1074 then 4 * m - 1 else 4 * m - 2
  value := 4 * m
  high := 4 * m + 2
  unit := q - 2
  closed := m % 2 = 0

/-- The greatest `p` with `10 ^ p` at most `n / d`. -/
def leading (n d : Nat) : Int :=
  if d ≤ n then (width (n / d) : Int) - 1
  else -(width ((d + n - 1) / n - 1) : Int)

/-- Which of two decimals at the same distance is taken. -/
inductive Tie where
  /-- The greater one. -/
  | up
  /-- The one whose last digit is even. -/
  | even
  deriving DecidableEq, Repr

/-- The grid point taken: of the neighbours `a` and `a + 1` of `n / d` those inside, and of two
the nearer. -/
def choose (tie : Tie) (a n d : Nat) : Bool → Bool → Option Nat
  | false, false => none
  | true, false => some a
  | false, true => some (a + 1)
  | true, true =>
    let twice := 2 * (n % d)
    if twice < d then some a
    else if twice > d then some (a + 1)
    else
      match tie with
      | .up => some (a + 1)
      | .even => some (if a % 2 = 0 then a else a + 1)

/-- One unit of an interval, counted on the grid `10 ^ g`, as a quotient. -/
def Interval.scale (i : Interval) (g : Int) : Nat × Nat :=
  let (n, d) := Binary64.scaleRatio 2 1 1 i.unit
  Binary64.scaleRatio 10 n d (-g)

/-- The greatest point of the grid `10 ^ g` that is not above the value of an interval. -/
def Interval.below (i : Interval) (g : Int) : Nat :=
  let (up, d) := i.scale g
  i.value * up / d

/-- The point of the grid `10 ^ g` taken for an interval, if a neighbour of its value is inside. -/
def onGrid (tie : Tie) (i : Interval) (g : Int) : Option Nat :=
  let (up, d) := i.scale g
  let inside (a : Nat) : Bool :=
    if i.closed then i.low * up ≤ a * d && a * d ≤ i.high * up
    else i.low * up < a * d && a * d < i.high * up
  let a := i.below g
  choose tie a (i.value * up) d (inside a) (inside (a + 1))

/-- The decimal `a · 10 ^ g`, without trailing zeros. -/
def ofScaled (a : Nat) (g : Int) : Decimal where
  digits := ((Text.digits a).reverse.dropWhile (· = '0')).reverse
  exponent := g + width a - 1

/-- Try the grids of `n` digits and more, at most `fuel` of them. -/
def search (tie : Tie) (i : Interval) (p : Int) : Nat → Nat → Decimal
  | 0, n => ofScaled (i.below (p + 1 - n)) (p + 1 - n)
  | fuel + 1, n =>
    let g := p + 1 - n
    match onGrid tie i g with
    | some a => ofScaled a g
    | none => search tie i p fuel (n + 1)

/-- The shortest decimal that rounds to `m · 2 ^ q`, for `m` positive. Seventeen digits always
suffice. -/
def shortest (tie : Tie) (m : Nat) (q : Int) : Decimal :=
  let i := Interval.of m q
  let (up, d) := i.scale 0
  search tie i (leading (i.value * up) d) 17 1

end Decimal

end SqlBuilder
