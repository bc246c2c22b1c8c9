import Mathlib.Data.List.Infix

/-!
# Balanced brackets

A text is balanced if no prefix of it closes more round brackets than it opens and the whole of it
closes as many as it opens (`Text.Balanced`). The prefixes are read in one go by a counter of open
brackets (`depthAfter`), which stops where a bracket closes that is not open. Two texts that move
the counter in the same way can stand for each other in any larger text (`SameDepth`), and a
balanced text is one that can stand for no text at all (`balanced_iff_sameDepth_nil`).
-/

namespace SqlBuilder.Text

/-- **Balanced brackets**: nowhere is there a closing bracket without an opening one before it, and
no bracket is left open. -/
def Balanced (cs : List Char) : Prop :=
  (∀ before, before <+: cs → before.count ')' ≤ before.count '(') ∧ cs.count ')' = cs.count '('

/-- How many brackets are open behind a character; `none` if it closes one that is not open. -/
def depthBehind (depth : Nat) (c : Char) : Option Nat :=
  if c = '(' then some (depth + 1)
  else if c = ')' then if depth = 0 then none else some (depth - 1)
  else some depth

/-- How many brackets are open behind the characters. -/
def depthAfter (depth : Nat) (cs : List Char) : Option Nat :=
  cs.foldlM depthBehind depth

theorem depthAfter_cons (depth : Nat) (c : Char) (cs : List Char) :
    depthAfter depth (c :: cs) = (depthBehind depth c).bind (depthAfter · cs) :=
  List.foldlM_cons

theorem depthAfter_append (depth : Nat) (cs ds : List Char) :
    depthAfter depth (cs ++ ds) = (depthAfter depth cs).bind (depthAfter · ds) :=
  List.foldlM_append

/-! ### The counter and the prefixes -/

/-- A statement about all prefixes, taken apart at the first character. -/
theorem forall_prefix_cons {p : List Char → Prop} {c : Char} {cs : List Char} :
    (∀ before, before <+: c :: cs → p before) ↔
      p [] ∧ ∀ before, before <+: cs → p (c :: before) := by
  refine ⟨fun h => ⟨h [] List.nil_prefix, fun before hb => h _ (List.prefix_cons_inj c |>.mpr hb)⟩,
    fun ⟨hnil, hcons⟩ before hb => ?_⟩
  rcases List.prefix_cons_iff.mp hb with rfl | ⟨rest, rfl, hrest⟩
  · exact hnil
  · exact hcons rest hrest

/-- The counter ends at `m` exactly if it is never asked to go below zero and the brackets of the
whole text make up the difference. -/
theorem depthAfter_eq_some_iff {n m : Nat} {cs : List Char} :
    depthAfter n cs = some m ↔
      (∀ before, before <+: cs → before.count ')' ≤ n + before.count '(') ∧
        n + cs.count '(' = m + cs.count ')' := by
  induction cs generalizing n with
  | nil =>
    change some n = some m ↔ _
    simp
  | cons c cs ih =>
    rw [depthAfter_cons, forall_prefix_cons]
    by_cases hopen : c = '('
    · -- An opening bracket counts for every prefix that is left.
      subst hopen
      have hstep : depthBehind n '(' = some (n + 1) := rfl
      rw [hstep, Option.bind_some, ih]
      simp [Nat.add_assoc, Nat.add_comm 1]
    · by_cases hclose : c = ')'
      · subst hclose
        cases n with
        | zero =>
          -- Here the counter stops, and the prefix that ends here has one bracket too many.
          have hstep : depthBehind 0 ')' = none := rfl
          rw [hstep, Option.bind_none]
          refine iff_of_false (Option.some_ne_none m).symm fun ⟨⟨_, h⟩, _⟩ => ?_
          exact absurd (h [] List.nil_prefix) (by decide)
        | succ n =>
          have hstep : depthBehind (n + 1) ')' = some n := rfl
          rw [hstep, Option.bind_some, ih]
          have hcount (ds : List Char) : (')' :: ds).count '(' = ds.count '(' :=
            List.count_cons_of_ne (by decide)
          simp only [List.count_cons_self, hcount, List.count_nil, Nat.zero_le, true_and]
          refine and_congr (forall₂_congr fun before _ => ?_) ?_ <;> omega
      · have hstep : depthBehind n c = some n := by
          rw [depthBehind, if_neg hopen, if_neg hclose]
        rw [hstep, Option.bind_some, ih]
        simp only [List.count_cons_of_ne hopen, List.count_cons_of_ne hclose, List.count_nil,
          Nat.zero_le, true_and]

/-- A text is balanced if the counter gets through it and ends where it began. -/
theorem balanced_iff {cs : List Char} : Balanced cs ↔ depthAfter 0 cs = some 0 := by
  rw [depthAfter_eq_some_iff, Balanced]
  simp only [Nat.zero_add]
  exact and_congr_right fun _ => eq_comm

instance (cs : List Char) : Decidable (Balanced cs) :=
  decidable_of_iff _ balanced_iff.symm

/-- A balanced text leaves the counter where it was. -/
theorem Balanced.depthAfter_eq {cs : List Char} (h : Balanced cs) (n : Nat) :
    depthAfter n cs = some n := by
  rw [depthAfter_eq_some_iff]
  refine ⟨fun before hbefore => (h.1 before hbefore).trans (Nat.le_add_left ..), ?_⟩
  rw [h.2]

/-! ### Texts that stand for each other -/

/-- Both texts move the counter in the same way. -/
def SameDepth (cs ds : List Char) : Prop :=
  ∀ n, depthAfter n cs = depthAfter n ds

theorem SameDepth.append {cs cs' ds ds' : List Char} (h : SameDepth cs ds)
    (h' : SameDepth cs' ds') : SameDepth (cs ++ cs') (ds ++ ds') := by
  intro n
  rw [depthAfter_append, depthAfter_append, h n]
  exact congrArg _ (funext h')

/-- A balanced text moves the counter no more than the empty text does, from wherever it starts. -/
theorem balanced_iff_sameDepth_nil {cs : List Char} : Balanced cs ↔ SameDepth cs [] :=
  ⟨fun h n => h.depthAfter_eq n, fun h => balanced_iff.mpr (h 0)⟩

/-- A text that stands for another one is balanced if that is. -/
theorem SameDepth.balanced_iff {cs ds : List Char} (h : SameDepth cs ds) :
    Balanced cs ↔ Balanced ds := by
  rw [Text.balanced_iff, Text.balanced_iff, h 0]

/-! ### Balanced texts -/

theorem balanced_nil : Balanced [] := by decide

theorem Balanced.append {cs ds : List Char} (h : Balanced cs) (h' : Balanced ds) :
    Balanced (cs ++ ds) := by
  rw [balanced_iff_sameDepth_nil] at *
  exact h.append h'

/-- Brackets around a balanced text. -/
theorem Balanced.parens {cs : List Char} (h : Balanced cs) : Balanced ('(' :: (cs ++ [')'])) := by
  rw [balanced_iff_sameDepth_nil] at h
  have hinner : SameDepth (cs ++ [')']) [')'] := h.append fun _ => rfl
  rw [balanced_iff, depthAfter_cons]
  exact hinner 1

/-- Whether none of the characters is a bracket. -/
def isBare (cs : List Char) : Bool :=
  cs.all fun c => c ≠ '(' ∧ c ≠ ')'

/-- The two brackets are the characters that are looked for. -/
theorem isBare_iff {cs : List Char} : isBare cs = true ↔ '(' ∉ cs ∧ ')' ∉ cs := by
  simp only [isBare, List.all_eq_true, decide_eq_true_eq]
  exact ⟨fun h => ⟨fun hc => (h _ hc).1 rfl, fun hc => (h _ hc).2 rfl⟩, fun h c hc =>
    ⟨fun heq => h.1 (heq ▸ hc), fun heq => h.2 (heq ▸ hc)⟩⟩

/-- A text without brackets is balanced. -/
theorem balanced_of_isBare {cs : List Char} (h : isBare cs = true) : Balanced cs := by
  obtain ⟨hopen, hclose⟩ := isBare_iff.mp h
  refine ⟨fun before hbefore => ?_, ?_⟩
  · rw [List.count_eq_zero_of_not_mem fun hmem => hclose (hbefore.subset hmem)]
    exact Nat.zero_le _
  · rw [List.count_eq_zero_of_not_mem hclose, List.count_eq_zero_of_not_mem hopen]

end SqlBuilder.Text
