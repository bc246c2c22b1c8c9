/-!
# Text between quote characters

A text is put between two quote characters with every quote character inside written twice.
Both quoted identifiers and string literals have this form; they differ in the character.
-/

namespace SqlBuilder.Text

/-- The characters of `cs`, those equal to `q` written twice. -/
def doubled (q : Char) : List Char → List Char
  | [] => []
  | c :: cs => if c = q then q :: q :: doubled q cs else c :: doubled q cs

/-- The text between two `q`, each `q` inside written twice. -/
def enclose (q : Char) (s : String) : String :=
  String.ofList (q :: (doubled q s.toList ++ [q]))

@[simp] theorem toList_enclose (q : Char) (s : String) :
    (enclose q s).toList = q :: (doubled q s.toList ++ [q]) := by
  simp [enclose]

/-- Doubling brings no other character in. -/
theorem mem_of_mem_doubled {q c : Char} {cs : List Char} (h : c ∈ doubled q cs) : c ∈ cs := by
  induction cs with
  | nil => exact h
  | cons d cs ih =>
    rw [doubled] at h
    split at h
    · next hd =>
      rcases List.mem_cons.mp h with rfl | h
      · exact hd ▸ List.mem_cons_self
      · rcases List.mem_cons.mp h with rfl | h
        · exact hd ▸ List.mem_cons_self
        · exact List.mem_cons_of_mem d (ih h)
    · rcases List.mem_cons.mp h with rfl | h
      · exact List.mem_cons_self
      · exact List.mem_cons_of_mem d (ih h)

theorem mem_of_mem_enclose {q c : Char} {s : String} (h : c ∈ (enclose q s).toList) :
    c = q ∨ c ∈ s.toList := by
  rw [toList_enclose, List.mem_cons, List.mem_append, List.mem_singleton] at h
  rcases h with rfl | h | rfl
  · exact .inl rfl
  · exact .inr (mem_of_mem_doubled h)
  · exact .inl rfl

end SqlBuilder.Text
