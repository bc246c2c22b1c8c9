import SqlBuilder.Text.Quoted

/-!
# Reading past quoted regions

A database reads a statement from left to right. A quote character or an apostrophe opens a
region, which the same character closes, and only a placeholder sign outside of every region is a
placeholder (`freeMarks`). A character that is written twice inside of a region closes it and opens
it at once, so the reader does not have to look ahead.

Main statements: text between quote characters, with those inside written twice, is read as one
region that is closed in the end and has no placeholder (`quiet_enclose`), and quiet texts stay
quiet side by side (`Quiet.append`, `Quiet.intercalate`).

The reader has one state, the region it is in. `after` and `freeMarks` follow that state through a
text, and everything about a text made of parts comes from the two `append` lemmas.
-/

namespace SqlBuilder.Region

/-- The region behind a character, where `q` is the quote character of the dialect. Outside of a
region there are two characters that open one, inside there is one that closes it. -/
def next (q : Char) : Option Char → Char → Option Char
  | none, c => if c = q ∨ c = '\x27' then some c else none
  | some r, c => if c = r then none else some r

/-- The region behind a text. -/
def after (q : Char) (region : Option Char) (cs : List Char) : Option Char :=
  cs.foldl (next q) region

/-- How many placeholder signs of a text are outside of every region. -/
def freeMarks (q : Char) : Option Char → List Char → Nat
  | _, [] => 0
  | region, c :: cs =>
    (if region = none ∧ c = '?' then 1 else 0) + freeMarks q (next q region c) cs

/-- A text that leaves no region open. -/
def Sealed (q : Char) (cs : List Char) : Prop :=
  after q none cs = none

/-- A text that leaves no region open and has no placeholder. -/
structure Quiet (q : Char) (cs : List Char) : Prop where
  isSealed : Sealed q cs
  freeMarks_eq : freeMarks q none cs = 0

instance (q : Char) (cs : List Char) : Decidable (Sealed q cs) :=
  inferInstanceAs (Decidable (_ = _))

variable {q : Char} {region : Option Char} {cs ds : List Char}

/-! ### One text behind another -/

theorem after_append (q : Char) (region : Option Char) (cs ds : List Char) :
    after q region (cs ++ ds) = after q (after q region cs) ds :=
  List.foldl_append

/-- The placeholders of two texts, where the first one decides in which region the second one is
read. -/
theorem freeMarks_append (q : Char) (region : Option Char) (cs ds : List Char) :
    freeMarks q region (cs ++ ds) =
      freeMarks q region cs + freeMarks q (after q region cs) ds := by
  -- For every region, because the first character may change it.
  induction cs generalizing region with
  | nil => exact (Nat.zero_add _).symm
  | cons c cs ih =>
    rw [List.cons_append, freeMarks, freeMarks, ih, Nat.add_assoc]
    rfl

theorem Sealed.append (hcs : Sealed q cs) (hds : Sealed q ds) : Sealed q (cs ++ ds) := by
  rw [Sealed, after_append, hcs]
  exact hds

/-- Behind a sealed text the reader starts anew. -/
theorem Sealed.freeMarks_append (h : Sealed q cs) (ds : List Char) :
    freeMarks q none (cs ++ ds) = freeMarks q none cs + freeMarks q none ds := by
  rw [Region.freeMarks_append, h]

theorem quiet_nil (q : Char) : Quiet q [] := ⟨rfl, rfl⟩

theorem Quiet.append (hcs : Quiet q cs) (hds : Quiet q ds) : Quiet q (cs ++ ds) where
  isSealed := hcs.isSealed.append hds.isSealed
  freeMarks_eq := by rw [hcs.isSealed.freeMarks_append, hcs.freeMarks_eq, hds.freeMarks_eq]

/-- Quiet texts are quiet with a quiet separator between them. -/
theorem Quiet.intercalate {separator : String} {parts : List String}
    (hseparator : Quiet q separator.toList) (hparts : ∀ part ∈ parts, Quiet q part.toList) :
    Quiet q (separator.intercalate parts).toList := by
  induction parts with
  | nil => exact quiet_nil q
  | cons part parts ih =>
    have hpart : Quiet q part.toList := hparts part List.mem_cons_self
    -- There is a separator only if another part follows.
    cases parts with
    | nil =>
      rw [String.intercalate_singleton]
      exact hpart
    | cons second parts =>
      rw [String.intercalate_cons_cons, String.toList_append, String.toList_append]
      exact (hpart.append hseparator).append
        (ih fun other hother => hparts other (List.mem_cons_of_mem part hother))

/-! ### Texts that open no region -/

/-- A text without quote characters, apostrophes and placeholder signs is quiet. -/
theorem quiet_of_forall (h : ∀ c ∈ cs, c ≠ q ∧ c ≠ '\x27' ∧ c ≠ '?') : Quiet q cs := by
  induction cs with
  | nil => exact quiet_nil q
  | cons c cs ih =>
    obtain ⟨hquote, hapostrophe, hmark⟩ := h c List.mem_cons_self
    have hrest : Quiet q cs := ih fun d hd => h d (List.mem_cons_of_mem c hd)
    -- The reader stays outside.
    have hnext : next q none c = none := if_neg (not_or.mpr ⟨hquote, hapostrophe⟩)
    refine ⟨?_, ?_⟩
    · change after q (next q none c) cs = none
      rw [hnext]
      exact hrest.isSealed
    · rw [freeMarks, hnext, hrest.freeMarks_eq, if_neg fun hc => hmark hc.2]

/-! ### Text between quote characters -/

/-- Inside of a region, text with the closing character written twice does not leave it. Between
the two the reader is outside, but reads the closing character and no placeholder. -/
theorem after_doubled {r : Char} (hr : r = q ∨ r = '\x27') (cs : List Char) :
    after q (some r) (Text.doubled r cs) = some r := by
  have hleave : next q (some r) r = none := if_pos rfl
  have henter : next q none r = some r := if_pos hr
  induction cs with
  | nil => rfl
  | cons c cs ih =>
    rw [Text.doubled]
    by_cases hc : c = r
    · -- The first of the two leaves the region and the second enters it again.
      rw [if_pos hc]
      change after q (next q (next q (some r) r) r) (Text.doubled r cs) = some r
      rw [hleave, henter]
      exact ih
    · have hstay : next q (some r) c = some r := if_neg hc
      rw [if_neg hc]
      change after q (next q (some r) c) (Text.doubled r cs) = some r
      rw [hstay]
      exact ih

/-- There is no placeholder in a region, and none where the closing character is doubled. -/
theorem freeMarks_doubled {r : Char} (hr : r = q ∨ r = '\x27') (hmark : r ≠ '?')
    (cs : List Char) : freeMarks q (some r) (Text.doubled r cs) = 0 := by
  have hleave : next q (some r) r = none := if_pos rfl
  have henter : next q none r = some r := if_pos hr
  have hinside (c : Char) : (if some r = none ∧ c = '?' then 1 else 0) = 0 :=
    if_neg fun h => Option.some_ne_none r h.1
  induction cs with
  | nil => rfl
  | cons c cs ih =>
    rw [Text.doubled]
    -- Between the two the reader is outside, and reads the closing character, which is no sign.
    by_cases hc : c = r
    · rw [if_pos hc, freeMarks, freeMarks, hleave, henter, ih, hinside,
        if_neg fun h => hmark h.2]
    · have hstay : next q (some r) c = some r := if_neg hc
      rw [if_neg hc, freeMarks, hstay, ih, hinside]

/-- **Enclosed text is quiet**, whatever it holds, if the character around it opens a region. -/
theorem quiet_enclose {r : Char} (hr : r = q ∨ r = '\x27') (hmark : r ≠ '?') (s : String) :
    Quiet q (Text.enclose r s).toList := by
  have hopen : next q none r = some r := if_pos hr
  have hclose : next q (some r) r = none := if_pos rfl
  rw [Text.toList_enclose]
  refine ⟨?_, ?_⟩
  · change after q (next q none r) (Text.doubled r s.toList ++ [r]) = none
    rw [hopen, after_append, after_doubled hr]
    exact hclose
  · rw [freeMarks, hopen, freeMarks_append, after_doubled hr, freeMarks_doubled hr hmark,
      if_neg fun h => hmark h.2]
    change (if some r = none ∧ r = '?' then 1 else 0) + 0 = 0
    rw [if_neg fun h => hmark h.2]

end SqlBuilder.Region
