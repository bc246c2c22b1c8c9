import SqlBuilder.Text.Hex

/-!
# Universally unique identifiers

An identifier is 128 bits. Its text is their 32 hexadecimal digits in lower case, in groups of
eight, four, four, four and twelve.
-/

namespace SqlBuilder

/-- An identifier of 128 bits. -/
structure Uuid where
  bits : BitVec 128
  deriving DecidableEq, Repr

namespace Uuid

/-- The lengths of the groups of digits. -/
def groups : List Nat := [8, 4, 4, 4, 12]

/-- Cut `cs` into pieces of the given lengths. -/
def cut : List Nat → List Char → List (List Char)
  | [], _ => []
  | n :: ns, cs => cs.take n :: cut ns (cs.drop n)

/-- The grouped digits. -/
def text (u : Uuid) : String :=
  String.ofList (['-'].intercalate (cut groups (Text.hexDigits .lower 32 u.bits.toNat)))

/-- The identifier that grouped digits write. -/
def ofText? (s : String) : Option Uuid :=
  let pieces := s.toList.splitOn '-'
  if pieces.map List.length = groups then
    (Text.ofHexDigits? pieces.flatten).map fun n => ⟨BitVec.ofNat 128 n⟩
  else none

end Uuid

end SqlBuilder
