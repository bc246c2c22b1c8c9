/-!
# Decimal digits

Naturals and integers written in base ten, and naturals read back. A natural is written with no
leading zero, so reading undoes writing (`ofDigits_digits`); reading takes leading zeros too.
-/

namespace SqlBuilder.Text

/-- The digits of `n`; zero has one. -/
def digits (n : Nat) : List Char :=
  Nat.toDigits 10 n

/-- A natural in base ten. -/
def natText (n : Nat) : String :=
  String.ofList (digits n)

/-- An integer in base ten, behind a minus sign if it is negative. -/
def intText (n : Int) : String :=
  if n < 0 then "-" ++ natText n.natAbs else natText n.natAbs

/-- The value of a digit. -/
def digitValue (c : Char) : Nat :=
  c.toNat - '0'.toNat

/-- The number that digits write. -/
def ofDigits (cs : List Char) : Nat :=
  cs.foldl (fun n c => 10 * n + digitValue c) 0

@[simp] theorem toList_natText (n : Nat) : (natText n).toList = digits n := by
  simp [natText]

/-- Reading undoes writing. -/
@[simp] theorem ofDigits_digits (n : Nat) : ofDigits (digits n) = n :=
  Nat.ofDigitChars_toDigits (by decide) (by decide)

theorem isDigit_of_mem_digits {n : Nat} {c : Char} (h : c ∈ digits n) : c.isDigit = true :=
  Nat.isDigit_of_mem_toDigits (by decide) (by decide) h

theorem digits_ne_nil (n : Nat) : digits n ≠ [] :=
  Nat.toDigits_ne_nil

/-- Only zero begins with a zero. -/
theorem head?_digits_ne {n : Nat} (h : 0 < n) : (digits n).head? ≠ some '0' := by
  induction n using Nat.strongRecOn with
  | ind n ih =>
    rcases Nat.lt_or_ge n 10 with hlt | hge
    · have hdigit : ∀ k < 10, 0 < k → some k.digitChar ≠ some '0' := by decide
      rw [digits, Nat.toDigits_of_lt_base hlt]
      exact hdigit n hlt h
    · have hfront := ih (n / 10) (by omega) (by omega)
      obtain ⟨d, ds, hds⟩ := List.exists_cons_of_ne_nil (digits_ne_nil (n / 10))
      rw [hds] at hfront
      rw [digits, Nat.toDigits_of_base_le (by decide) hge, ← digits, hds]
      exact hfront

end SqlBuilder.Text
