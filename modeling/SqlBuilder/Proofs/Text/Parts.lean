/-!
# Parts of a text between separators

Names are cut at their points and expressions at their spaces, and both are put together again with
the same character between the parts. `Text.parts` is that cut. A text is cut into one list of parts
only: the list is not empty, no part has the separator in it, and joining the parts gives the text
(`Text.parts_eq_iff`). What is read from the left, such as the digits of a number, is a part too: it
ends at the first character that does not belong to it (`Text.takeWhile_append`).
-/

namespace SqlBuilder.Text

/-- The parts of a text between the places where a separator stands. -/
def parts (separator : Char) (s : String) : List String :=
  (s.toList.splitOn separator).map String.ofList

variable {separator : Char}

/-- A text has at least one part, which may be empty. -/
theorem parts_ne_nil (separator : Char) (s : String) : parts separator s ≠ [] := by
  rw [parts, ne_eq, List.map_eq_nil_iff]
  exact List.splitOn_ne_nil separator s.toList

/-- A part of a list that is cut at a character does not have the character in it. -/
theorem notMem_of_mem_splitOn {cs part : List Char} (h : part ∈ cs.splitOn separator) :
    separator ∉ part := by
  induction cs generalizing part with
  | nil =>
    obtain rfl := List.mem_singleton.mp h
    exact List.not_mem_nil
  | cons c cs ih =>
    rw [List.splitOn, List.splitOnP_cons_eq_if_modifyHead] at h
    split at h
    · rcases List.mem_cons.mp h with rfl | h
      · exact List.not_mem_nil
      · exact ih h
    · next hc =>
      -- The character goes to the first part of the rest.
      obtain ⟨first, others, hrest⟩ :=
        List.exists_cons_of_ne_nil (List.splitOnP_ne_nil (· == separator) cs)
      rw [hrest, List.modifyHead_cons] at h
      change cs.splitOn separator = first :: others at hrest
      rw [hrest] at ih
      rcases List.mem_cons.mp h with rfl | h
      · intro hmem
        rcases List.mem_cons.mp hmem with rfl | hmem
        · exact hc (beq_self_eq_true separator)
        · exact ih List.mem_cons_self hmem
      · exact ih (List.mem_cons_of_mem first h)

/-- No part has the separator in it. -/
theorem notMem_of_mem_parts {s part : String} (h : part ∈ parts separator s) :
    separator ∉ part.toList := by
  obtain ⟨cs, hcs, rfl⟩ := List.mem_map.mp h
  rw [String.toList_ofList]
  exact notMem_of_mem_splitOn hcs

/-- Joining the parts of a text gives the text. -/
theorem intercalate_parts (separator : Char) (s : String) :
    (String.ofList [separator]).intercalate (parts separator s) = s := by
  have hchars : (parts separator s).map String.toList = s.toList.splitOn separator := by
    rw [parts, List.map_map]
    exact List.map_id'' (fun cs => String.toList_ofList) _
  apply String.toList_inj.mp
  rw [String.toList_intercalate, String.toList_ofList, hchars, List.intercalate_splitOn]

/-- Cutting a text that was joined gives its parts. -/
theorem parts_intercalate {ps : List String} (hne : ps ≠ [])
    (h : ∀ part ∈ ps, separator ∉ part.toList) :
    parts separator ((String.ofList [separator]).intercalate ps) = ps := by
  have hchars : ∀ cs ∈ ps.map String.toList, separator ∉ cs := by
    intro cs hcs
    obtain ⟨part, hpart, rfl⟩ := List.mem_map.mp hcs
    exact h part hpart
  have hnil : ps.map String.toList ≠ [] := mt List.map_eq_nil_iff.mp hne
  rw [parts, String.toList_intercalate, String.toList_ofList,
    List.splitOn_intercalate separator hchars hnil, List.map_map]
  exact List.map_id'' (fun part => String.ofList_toList) ps

/-- **The parts of a text** are the only list of parts without the separator that joins to it. -/
theorem parts_eq_iff {s : String} {ps : List String} :
    parts separator s = ps ↔
      ps ≠ [] ∧ (∀ part ∈ ps, separator ∉ part.toList) ∧
        (String.ofList [separator]).intercalate ps = s := by
  constructor
  · rintro rfl
    exact ⟨parts_ne_nil separator s, fun _ => notMem_of_mem_parts, intercalate_parts separator s⟩
  · rintro ⟨hne, hfree, rfl⟩
    exact parts_intercalate hne hfree

/-! ### The part in front -/

variable {p : Char → Bool} {front rest : List Char}

/-- What belongs to the front is taken, if the rest does not go on with it. -/
theorem takeWhile_append (hfront : ∀ c ∈ front, p c = true)
    (hrest : ∀ c ∈ rest.head?, p c = false) : (front ++ rest).takeWhile p = front := by
  rw [List.takeWhile_append_of_pos hfront]
  cases rest with
  | nil => exact List.append_nil front
  | cons c cs =>
    rw [List.takeWhile_cons_of_neg (Bool.eq_false_iff.mp (hrest c rfl)), List.append_nil]

/-- The rest is what is left behind the front. -/
theorem dropWhile_append (hfront : ∀ c ∈ front, p c = true)
    (hrest : ∀ c ∈ rest.head?, p c = false) : (front ++ rest).dropWhile p = rest := by
  rw [List.dropWhile_append_of_pos hfront]
  cases rest with
  | nil => rfl
  | cons c cs => exact List.dropWhile_cons_of_neg (Bool.eq_false_iff.mp (hrest c rfl))

end SqlBuilder.Text
