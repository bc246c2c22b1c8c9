import SqlBuilder.Number.Shortest

/-!
# How a binary64 number is written

The digits of a number come from `Decimal.shortest`; a `Layout` says how they are set out: for
which exponents the point stands among the digits, what follows a whole number, what stands for
the values that are not finite, and which way a tie between two shortest decimals goes.
`Layout.plain` never writes an exponent; `Layout.json` does outside a band and marks every whole
number with a fraction.
-/

namespace SqlBuilder

/-- The decisions of one way to write numbers. -/
structure Layout where
  /-- The exponents of the first digit that are written without an exponent. -/
  positional : Int → Bool
  /-- What follows a whole number. -/
  wholeMark : String
  /-- What stands for a pattern that is not a number. -/
  notANumber : String
  /-- What stands for an infinity, by its sign. -/
  infinity : Bool → String
  tie : Decimal.Tie

namespace Layout

/-- Positional at every size, whole numbers without a point. -/
def plain : Layout where
  positional _ := true
  wholeMark := ""
  notANumber := "NaN"
  infinity negative := if negative then "-inf" else "inf"
  tie := .up

/-- Positional from `0.00001` up to sixteen whole digits, a whole number ending in `.0`; a value
that is not finite is `null`. -/
def json : Layout where
  positional e := -5 ≤ e && e ≤ 15
  wholeMark := ".0"
  notANumber := "null"
  infinity _ := "null"
  tie := .even

/-- `n` zeros. -/
def zeros (n : Nat) : List Char :=
  List.replicate n '0'

/-- A decimal with the point among its digits. -/
def setOut (layout : Layout) (x : Decimal) : String :=
  if x.exponent < 0 then
    String.ofList ('0' :: '.' :: (zeros (-x.exponent - 1).toNat ++ x.digits))
  else
    let whole := (x.exponent + 1).toNat
    if x.digits.length ≤ whole then
      String.ofList (x.digits ++ zeros (whole - x.digits.length)) ++ layout.wholeMark
    else
      String.ofList (x.digits.take whole ++ '.' :: x.digits.drop whole)

/-- A decimal as one digit, the rest as a fraction, and a signed exponent. -/
def scientific (x : Decimal) : String :=
  let rest := x.digits.drop 1
  let fraction := if rest.isEmpty then [] else '.' :: rest
  let sign := if x.exponent < 0 then '-' else '+'
  String.ofList
    (x.digits.take 1 ++ fraction ++ 'e' :: sign :: Text.digits x.exponent.natAbs)

/-- The digits of a positive number set out by its size. -/
def magnitude (layout : Layout) (x : Decimal) : String :=
  if layout.positional x.exponent then layout.setOut x else scientific x

/-- The text of a number. A negative zero keeps its sign. -/
def write (layout : Layout) (x : Binary64) : String :=
  match x.scaled? with
  | none => if x.isNaN then layout.notANumber else layout.infinity x.isNegative
  | some (m, q) =>
    let sign := if x.isNegative then "-" else ""
    if m = 0 then sign ++ "0" ++ layout.wholeMark
    else sign ++ layout.magnitude (Decimal.shortest layout.tie m q)

end Layout

end SqlBuilder
