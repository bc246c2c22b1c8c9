import Mathlib.Data.List.DropRight
import SqlBuilder.Text.Blank

/-!
# Blanks around a text

A text is a shorter one with blanks before and behind it (`Text.Padded`) in more than one way, and
trimming finds the shortest of them: what it leaves is padded to the text (`Text.padded_trim`), and
padding a text does not change what trimming leaves of it (`Text.Padded.trim_eq`). Nothing is left
exactly if the text is blank (`Text.trim_eq_empty_iff`).
-/

namespace SqlBuilder.Text

/-- All of the characters are blanks. -/
def AllBlank (cs : List Char) : Prop :=
  ∀ c ∈ cs, isBlank c = true

instance (cs : List Char) : Decidable (AllBlank cs) :=
  decidable_of_iff (cs.all isBlank = true) List.all_eq_true

/-- All characters of a text are blanks. -/
def IsBlankText (s : String) : Prop :=
  AllBlank s.toList

instance (s : String) : Decidable (IsBlankText s) :=
  inferInstanceAs (Decidable (AllBlank s.toList))

/-- The second text is the first one, perhaps with blanks before and behind it. -/
def Padded (inner outer : String) : Prop :=
  ∃ before behind, AllBlank before ∧ AllBlank behind ∧
    outer.toList = before ++ inner.toList ++ behind

theorem trimChars_eq (cs : List Char) : trimChars cs = (cs.dropWhile isBlank).rdropWhile isBlank :=
  rfl

/-- Blanks at the end do not change what is left after those at the end are removed. -/
theorem rdropWhile_append_of_blank (cs : List Char) {behind : List Char} (h : AllBlank behind) :
    (cs ++ behind).rdropWhile isBlank = cs.rdropWhile isBlank := by
  rw [List.rdropWhile, List.reverse_append,
    List.dropWhile_append_of_pos fun c hc => h c (List.mem_reverse.mp hc)]
  rfl

/-- Blanks around a text do not change what trimming leaves. -/
theorem trimChars_append {before behind : List Char} (hbefore : AllBlank before)
    (hbehind : AllBlank behind) (cs : List Char) :
    trimChars (before ++ cs ++ behind) = trimChars cs := by
  rw [trimChars_eq, trimChars_eq, List.append_assoc, List.dropWhile_append_of_pos hbefore,
    List.dropWhile_append]
  split
  · next hcs =>
    -- Between the blanks there are only blanks.
    rw [List.isEmpty_iff.mp hcs, List.dropWhile_eq_nil_iff.mpr hbehind]
  · exact rdropWhile_append_of_blank _ hbehind

/-- Trimming removes blanks, and nothing else. -/
theorem exists_append_trimChars (cs : List Char) :
    ∃ before behind, AllBlank before ∧ AllBlank behind ∧
      cs = before ++ trimChars cs ++ behind := by
  let rest := cs.dropWhile isBlank
  have hrest : trimChars cs ++ (rest.reverse.takeWhile isBlank).reverse = rest := by
    rw [trimChars, ← List.reverse_append, List.takeWhile_append_dropWhile, List.reverse_reverse]
  refine ⟨cs.takeWhile isBlank, (rest.reverse.takeWhile isBlank).reverse, ?_, ?_, ?_⟩
  · exact fun c hc => List.mem_takeWhile_imp hc
  · exact fun c hc => List.mem_takeWhile_imp (List.mem_reverse.mp hc)
  · rw [List.append_assoc, hrest]
    exact List.takeWhile_append_dropWhile.symm

variable {inner outer : String}

/-- What trimming leaves stands between blanks. -/
theorem padded_trim (s : String) : Padded (trim s) s := by
  obtain ⟨before, behind, hbefore, hbehind, hs⟩ := exists_append_trimChars s.toList
  refine ⟨before, behind, hbefore, hbehind, ?_⟩
  rw [trim, String.toList_ofList]
  exact hs

/-- A padded text is trimmed to the same. -/
theorem Padded.trim_eq (h : Padded inner outer) : trim outer = trim inner := by
  obtain ⟨before, behind, hbefore, hbehind, houter⟩ := h
  rw [trim, houter, trimChars_append hbefore hbehind]
  rfl

/-- Blanks around a text do not make it blank, and do not keep it from being blank. -/
theorem Padded.isBlankText_iff (h : Padded inner outer) :
    IsBlankText outer ↔ IsBlankText inner := by
  obtain ⟨before, behind, hbefore, hbehind, houter⟩ := h
  rw [IsBlankText, houter]
  constructor
  · intro hall c hc
    exact hall c (List.mem_append_left behind (List.mem_append_right before hc))
  · intro hall c hc
    rcases List.mem_append.mp hc with hc | hc
    · rcases List.mem_append.mp hc with hc | hc
      · exact hbefore c hc
      · exact hall c hc
    · exact hbehind c hc

/-- A character that is no blank is in the padded text if it is in the text. -/
theorem Padded.mem_iff {c : Char} (h : Padded inner outer) (hc : isBlank c = false) :
    c ∈ outer.toList ↔ c ∈ inner.toList := by
  obtain ⟨before, behind, hbefore, hbehind, houter⟩ := h
  have hnot {cs : List Char} (hcs : AllBlank cs) : c ∉ cs := fun hmem =>
    Bool.false_ne_true (hc.symm.trans (hcs c hmem))
  rw [houter, List.mem_append, List.mem_append, or_iff_left (hnot hbehind),
    or_iff_right (hnot hbefore)]

/-- **Trimming leaves nothing** of a blank text, and only of such. -/
theorem trim_eq_empty_iff (s : String) : trim s = "" ↔ IsBlankText s := by
  constructor
  · intro h
    have hpadded := padded_trim s
    rw [h] at hpadded
    exact hpadded.isBlankText_iff.mpr fun c hc => absurd hc List.not_mem_nil
  · intro h
    rw [trim, trimChars_eq, List.dropWhile_eq_nil_iff.mpr h]
    rfl

end SqlBuilder.Text
