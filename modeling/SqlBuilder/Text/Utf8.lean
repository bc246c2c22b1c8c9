/-!
# Text and its UTF-8 octets

Two rules about the octets of a text.

* `readLossy` reads octets that need not be UTF-8: a maximal run of octets that begins a
  character and cannot be completed gives one replacement character, and reading goes on with
  the octet that did not fit. The reader is a machine (`Owed`) whose state is the bits of the
  character so far and the ranges in which the octets still owed must lie.
* `cut` keeps of a text what a number of octets has room for. The offset where it is cut is searched
  backwards (`lastBoundary`), so that it lies between two characters, which `front` asks for.
-/

namespace SqlBuilder.Text

/-- The replacement character U+FFFD. -/
def replacement : Char := '\uFFFD'

/-- A character part way through: its bits so far, and the range of each octet still owed. -/
structure Owed where
  bits : Nat
  next : Nat × Nat
  later : List (Nat × Nat)
  deriving DecidableEq, Repr

/-- What one octet does between two characters. -/
inductive Lead where
  /-- It is a character by itself. -/
  | whole (c : Char)
  /-- It begins a longer character. -/
  | opens (owed : Owed)
  /-- It begins no character. -/
  | stray
  deriving DecidableEq, Repr

/-- The range of a continuation octet that nothing else restricts. -/
def tail : Nat × Nat := (0x80, 0xBF)

/-- The first octet of a character. The second octet after `E0`, `ED`, `F0` and `F4` has a range
of its own, which keeps out overlong forms, surrogates and code points above U+10FFFF. -/
def lead (b : Nat) : Lead :=
  if b ≤ 0x7F then .whole (Char.ofNat b)
  else if b < 0xC2 then .stray
  else if b ≤ 0xDF then .opens ⟨b - 0xC0, tail, []⟩
  else if b = 0xE0 then .opens ⟨0, (0xA0, 0xBF), [tail]⟩
  else if b = 0xED then .opens ⟨0xD, (0x80, 0x9F), [tail]⟩
  else if b ≤ 0xEF then .opens ⟨b - 0xE0, tail, [tail]⟩
  else if b = 0xF0 then .opens ⟨0, (0x90, 0xBF), [tail, tail]⟩
  else if b ≤ 0xF3 then .opens ⟨b - 0xF0, tail, [tail, tail]⟩
  else if b = 0xF4 then .opens ⟨4, (0x80, 0x8F), [tail, tail]⟩
  else .stray

/-- Read the octets `bs` with the character `owed` part way through. -/
def readFrom : Option Owed → List UInt8 → List Char
  | none, [] => []
  | some _, [] => [replacement]
  | none, b :: bs =>
    match lead b.toNat with
    | .whole c => c :: readFrom none bs
    | .opens owed => readFrom (some owed) bs
    | .stray => replacement :: readFrom none bs
  | some ⟨bits, (lo, hi), later⟩, b :: bs =>
    if lo ≤ b.toNat ∧ b.toNat ≤ hi then
      let bits := 64 * bits + (b.toNat - 0x80)
      match later with
      | [] => Char.ofNat bits :: readFrom none bs
      | next :: later => readFrom (some ⟨bits, next, later⟩) bs
    else
      replacement ::
        match lead b.toNat with
        | .whole c => c :: readFrom none bs
        | .opens owed => readFrom (some owed) bs
        | .stray => replacement :: readFrom none bs

/-- The text of octets that need not be UTF-8, each maximal broken run replaced. -/
def readLossy (octets : List UInt8) : String :=
  String.ofList (readFrom none octets)

/-! ### Cutting a text -/

/-- Whether the offset `n`, in octets, lies between two characters of `s` or at one of its ends. -/
def IsBoundary (s : String) (n : Nat) : Prop :=
  String.Pos.Raw.IsValid s ⟨n⟩

instance (s : String) (n : Nat) : Decidable (IsBoundary s n) :=
  inferInstanceAs (Decidable (String.Pos.Raw.IsValid s ⟨n⟩))

@[simp] theorem isBoundary_zero (s : String) : IsBoundary s 0 :=
  String.Pos.Raw.isValid_zero

/-- Go back from the offset `n`, octet by octet, until one lies between two characters. -/
def lastBoundary (s : String) : Nat → Nat
  | 0 => 0
  | n + 1 => if IsBoundary s (n + 1) then n + 1 else lastBoundary s n

/-- The search ends between two characters, at the latest in front of the first one. -/
theorem isBoundary_lastBoundary (s : String) (n : Nat) : IsBoundary s (lastBoundary s n) := by
  induction n with
  | zero => exact isBoundary_zero s
  | succ n ih =>
    rw [lastBoundary]
    split
    · assumption
    · exact ih

/-- What stands in front of an offset. No character may be cut through. -/
def front (s : String) (n : Nat) (h : IsBoundary s n) : String :=
  s.extract s.startPos (s.pos ⟨n⟩ h)

/-- The text without what goes beyond `n` octets. -/
def cut (s : String) (n : Nat) : String :=
  if s.utf8ByteSize ≤ n then s
  else front s (lastBoundary s n) (isBoundary_lastBoundary s n)

end SqlBuilder.Text
