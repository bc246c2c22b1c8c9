/-!
# Hexadecimal digits

Octets and fixed numbers of digits written in base sixteen, and read back. Reading takes both
letter cases; writing chooses one.
-/

namespace SqlBuilder.Text

/-- Which letters stand for the digits from ten on. -/
inductive HexCase where
  | lower
  | upper
  deriving DecidableEq, Repr

/-- The digit of value `n`, for `n` below sixteen. -/
def hexDigit (letters : HexCase) (n : Nat) : Char :=
  match letters with
  | .lower => Nat.digitChar n
  | .upper => (Nat.digitChar n).toUpper

/-- The value of a digit of either letter case. -/
def hexValue? (c : Char) : Option Nat :=
  if '0' ≤ c ∧ c ≤ '9' then some (c.toNat - '0'.toNat)
  else if 'a' ≤ c ∧ c ≤ 'f' then some (c.toNat - 'a'.toNat + 10)
  else if 'A' ≤ c ∧ c ≤ 'F' then some (c.toNat - 'A'.toNat + 10)
  else none

/-- The last `width` digits of `n`, leading zeros kept. -/
def hexDigits (letters : HexCase) : Nat → Nat → List Char
  | 0, _ => []
  | width + 1, n => hexDigits letters width (n / 16) ++ [hexDigit letters (n % 16)]

/-- Two digits for each octet. -/
def hexOctets (letters : HexCase) (octets : List UInt8) : List Char :=
  octets.flatMap fun b => hexDigits letters 2 b.toNat

/-- The number that the digits write; `none` if a character is no digit. -/
def ofHexDigits? (cs : List Char) : Option Nat :=
  cs.foldlM (fun n c => (hexValue? c).map (16 * n + ·)) 0

/-- The octets that pairs of digits write. -/
def ofHexOctets? : List Char → Option (List UInt8)
  | [] => some []
  | [_] => none
  | hi :: lo :: cs => do
    let b ← ofHexDigits? [hi, lo]
    let bs ← ofHexOctets? cs
    return UInt8.ofNat b :: bs

theorem hexValue?_hexDigit (letters : HexCase) :
    ∀ n, n < 16 → hexValue? (hexDigit letters n) = some n := by
  cases letters <;> decide

/-- Reading undoes writing, if there are digits enough. -/
theorem ofHexDigits?_hexDigits (letters : HexCase) {width n : Nat} (h : n < Nat.pow 16 width) :
    ofHexDigits? (hexDigits letters width n) = some n := by
  induction width generalizing n with
  | zero =>
    obtain rfl : n = 0 := Nat.lt_one_iff.mp h
    rfl
  | succ width ih =>
    have hhigh : n / 16 < Nat.pow 16 width := by
      change n < Nat.pow 16 width * 16 at h
      exact Nat.div_lt_of_lt_mul (by omega)
    have hread : (hexDigits letters width (n / 16)).foldlM
        (fun n c => (hexValue? c).map (16 * n + ·)) 0 = some (n / 16) := ih hhigh
    have hlast : hexValue? (hexDigit letters (n % 16)) = some (n % 16) :=
      hexValue?_hexDigit letters _ (Nat.mod_lt _ (by decide))
    have hvalue : 16 * (n / 16) + n % 16 = n := by omega
    rw [hexDigits, ofHexDigits?, List.foldlM_append, hread]
    simp only [Option.bind_eq_bind, Option.bind_some, List.foldlM_cons, List.foldlM_nil, hlast,
      Option.map_some, hvalue, Option.pure_def]

end SqlBuilder.Text
