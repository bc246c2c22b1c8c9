import Mathlib.Order.Bounds.Basic
import SqlBuilder.Connection.Logger

/-!
# How a logged statement is cut

A statement that is longer than the logger allows is cut where the backward search
(`Text.lastBoundary`) stops. The offsets between two characters are the sizes of the parts that a
text can begin with (`Text.isBoundary_iff`), and so the search is for the longest such part that
fits. It finds the greatest one of these offsets that is small enough
(`Text.isGreatest_lastBoundary`); and since a character has four octets at most, there is one among
the last four (`Text.le_lastBoundary_add_three`).

Main statement, at the end: what fits is logged as it is, and of anything else the longest part that
fits, with the ellipsis behind it (`Logger.shorten_longest`).
-/

namespace SqlBuilder

namespace Text

variable {s : String} {n : Nat}

/-! ### Boundaries -/

/-- The boundaries of a text are the sizes of the parts it can begin with. -/
theorem isBoundary_iff :
    IsBoundary s n ↔ ∃ p behind, s = p ++ behind ∧ p.utf8ByteSize = n := by
  rw [IsBoundary, String.Pos.Raw.isValid_iff_exists_append]
  refine exists_congr fun p => exists_congr fun behind => and_congr_right fun _ => ?_
  rw [String.Pos.Raw.ext_iff, String.byteIdx_rawEndPos]
  exact eq_comm

theorem lastBoundary_le (s : String) (n : Nat) : lastBoundary s n ≤ n := by
  induction n with
  | zero => exact Nat.le_refl 0
  | succ n ih =>
    rw [lastBoundary]
    split
    · exact Nat.le_refl _
    · exact Nat.le_succ_of_le ih

/-- The search passes over no boundary. -/
theorem le_lastBoundary {k : Nat} (hboundary : IsBoundary s k) (hle : k ≤ n) :
    k ≤ lastBoundary s n := by
  induction n with
  | zero => exact hle
  | succ n ih =>
    -- The search goes on only if `n + 1` is no boundary, and then `k` is not `n + 1`.
    rw [lastBoundary]
    split
    · exact hle
    · next hnone =>
      have hne : k ≠ n + 1 := fun heq => hnone (heq ▸ hboundary)
      exact ih (by omega)

/-- **The search finds the greatest boundary** that is not beyond its start. -/
theorem isGreatest_lastBoundary (s : String) (n : Nat) :
    IsGreatest {k | IsBoundary s k ∧ k ≤ n} (lastBoundary s n) :=
  ⟨⟨isBoundary_lastBoundary s n, lastBoundary_le s n⟩, fun _ hk => le_lastBoundary hk.1 hk.2⟩

/-- Behind a boundary before the end there is another one, one character further. -/
theorem IsBoundary.exists_next (h : IsBoundary s n) (hlt : n < s.utf8ByteSize) :
    ∃ k, IsBoundary s k ∧ n < k ∧ k ≤ n + 4 := by
  have hne : s.pos ⟨n⟩ h ≠ s.endPos := by
    intro heq
    have hsize : n = s.utf8ByteSize := congrArg (·.offset.byteIdx) heq
    omega
  refine ⟨((s.pos ⟨n⟩ h).next hne).offset.byteIdx, ((s.pos ⟨n⟩ h).next hne).isValid, ?_⟩
  have hnext : ((s.pos ⟨n⟩ h).next hne).offset.byteIdx =
      n + ((s.pos ⟨n⟩ h).get hne).utf8Size := String.Pos.byteIdx_offset_next _ hne
  -- A character has one to four octets.
  have hpos := ((s.pos ⟨n⟩ h).get hne).utf8Size_pos
  have hfour := ((s.pos ⟨n⟩ h).get hne).utf8Size_le_four
  omega

/-- The search ends after three octets at most. -/
theorem le_lastBoundary_add_three (hlt : n < s.utf8ByteSize) : n ≤ lastBoundary s n + 3 := by
  have hle := lastBoundary_le s n
  obtain ⟨k, hk, hbehind, hnear⟩ :=
    (isBoundary_lastBoundary s n).exists_next (Nat.lt_of_le_of_lt hle hlt)
  -- The next boundary is beyond the start, or the search would have found it.
  have hbeyond : n < k := by
    by_contra hnot
    have := le_lastBoundary hk (Nat.le_of_not_lt hnot)
    omega
  omega

/-! ### What stands in front of a boundary -/

/-- What stands in front of the boundary between two parts is the first part. -/
theorem front_append (p behind : String) (h : IsBoundary (p ++ behind) p.utf8ByteSize) :
    front (p ++ behind) p.utf8ByteSize h = p := by
  rw [front, ← String.toByteArray_inj, String.toByteArray_extract, String.toByteArray_append]
  exact ByteArray.extract_append_eq_left rfl

/-- What stands in front of a boundary begins the text, and ends at the boundary. -/
theorem exists_eq_front_append (h : IsBoundary s n) :
    (∃ behind, s = front s n h ++ behind) ∧ (front s n h).utf8ByteSize = n := by
  obtain ⟨p, behind, rfl, rfl⟩ := isBoundary_iff.mp h
  rw [front_append]
  exact ⟨⟨behind, rfl⟩, rfl⟩

/-- `p` is the longest part that `s` begins with and that has at most `n` octets. As a text of its
own it ends between two characters of `s`. -/
structure LongestFront (s : String) (n : Nat) (p : String) : Prop where
  begins : ∃ behind, s = p ++ behind
  size_le : p.utf8ByteSize ≤ n
  longest : ∀ q behind, s = q ++ behind → q.utf8ByteSize ≤ n → q.utf8ByteSize ≤ p.utf8ByteSize

/-- What stands in front of the boundary that the search finds is the longest part that fits. -/
theorem longestFront_front (s : String) (n : Nat) :
    LongestFront s n (front s (lastBoundary s n) (isBoundary_lastBoundary s n)) := by
  obtain ⟨hbegins, hsize⟩ := exists_eq_front_append (isBoundary_lastBoundary s n)
  refine ⟨hbegins, ?_, fun q behind hq hle => ?_⟩
  · rw [hsize]
    exact lastBoundary_le s n
  · rw [hsize]
    exact le_lastBoundary (isBoundary_iff.mpr ⟨q, behind, hq, rfl⟩) hle

end Text

open Text

/-! ### Logged statements -/

namespace Logger

/-- **A logged statement is cut as late as possible.** What is within the limit is logged as it is.
Of anything else the longest part that it begins with and that is within the limit is logged, with
the ellipsis behind it. This part ends where the backward search stops, which is between two
characters, at the greatest such offset that is within the limit, and at most three octets from
it. -/
theorem shorten_longest (logger : Logger) (sql : String) :
    ((∀ n ∈ logger.maxOctets, sql.utf8ByteSize ≤ n) → logger.shorten sql = sql) ∧
    ∀ n ∈ logger.maxOctets, n < sql.utf8ByteSize →
      ∃ p, logger.shorten sql = p ++ "..." ∧ LongestFront sql n p ∧
        p.utf8ByteSize = lastBoundary sql n ∧
        IsGreatest {k | IsBoundary sql k ∧ k ≤ n} (lastBoundary sql n) ∧
        n ≤ p.utf8ByteSize + 3 := by
  obtain ⟨level, maxOctets⟩ := logger
  refine ⟨fun hfits => ?_, fun n hn hlong => ?_⟩
  · cases maxOctets with
    | none => rfl
    | some n => exact if_pos (hfits n rfl)
  · obtain rfl : maxOctets = some n := hn
    have hbeyond : ¬ sql.utf8ByteSize ≤ n := Nat.not_le.mpr hlong
    have hcut : cut sql n = front sql (lastBoundary sql n) (isBoundary_lastBoundary sql n) :=
      if_neg hbeyond
    have hshort : shorten ⟨level, some n⟩ sql = cut sql n ++ "..." := if_neg hbeyond
    have hsize := (exists_eq_front_append (isBoundary_lastBoundary sql n)).2
    refine ⟨cut sql n, hshort, ?_, ?_, isGreatest_lastBoundary sql n, ?_⟩
    · rw [hcut]
      exact longestFront_front sql n
    · rw [hcut, hsize]
    · rw [hcut, hsize]
      exact le_lastBoundary_add_three hlong

/-- A limit within a character of four octets, of which it leaves three out. -/
theorem shorten_longest_withinCharacter :
    let logger : Logger := { maxOctets := some 4 }
    4 < "a😀b".utf8ByteSize ∧
    ∃ p, logger.shorten "a😀b" = p ++ "..." ∧ LongestFront "a😀b" 4 p ∧
      p.utf8ByteSize = lastBoundary "a😀b" 4 ∧
      IsGreatest {k | IsBoundary "a😀b" k ∧ k ≤ 4} (lastBoundary "a😀b" 4) ∧
      4 ≤ p.utf8ByteSize + 3 :=
  have hlong : 4 < "a😀b".utf8ByteSize := by decide
  ⟨hlong, (shorten_longest { maxOctets := some 4 } "a😀b").2 4 rfl hlong⟩

/-- With no room for the first character only the ellipsis is left. -/
example :
    shorten { maxOctets := some 4 } "a😀b" = "a..." ∧ shorten { maxOctets := some 1 } "é" = "..." ∧
      shorten { maxOctets := some 0 } "a" = "..." := by
  decide

end Logger

end SqlBuilder
