import SqlBuilder.Proofs.Compile.Refinement

/-!
# Placeholders and their parameters

What a statement compiles to is its rendering written out, so the parameters are the values of the
holes from left to right. This is half of what binding by position needs. The other half is that a
placeholder sign stands in the text for a hole and for nothing else, and it is a matter of the
names and operators: an operator is written as it is, and a name may hold the sign between its
quote characters.

Main statement, at the end: if neither the dialect nor the rendering brings a sign of its own
(`Dialect.Markless`, `Rendering.Markless`), then a sign cuts the text where a hole cuts the
rendering, and the value of that hole is the parameter whose position is the number of signs
before it. It rests on `Rendering.count_mark_text` and `Rendering.exists_hole_of_text_eq`.

The words of the compiler need no assumption, because no item is built of a word that holds a
sign. For a name it is enough that the name and the quote character are free of it: quoting adds
nothing but quote characters and dots (`Identifier.mem_quote`).
-/

namespace SqlBuilder

/-! ### What quoting writes -/

/-- A character of joined parts is one of the separator or of a part. -/
theorem Text.mem_of_mem_intercalate {c : Char} {separator : String} {parts : List String}
    (h : c ∈ (separator.intercalate parts).toList) :
    c ∈ separator.toList ∨ ∃ part ∈ parts, c ∈ part.toList := by
  induction parts with
  | nil => cases h
  | cons part parts ih =>
    cases parts with
    | nil =>
      rw [String.intercalate_singleton] at h
      exact .inr ⟨part, List.mem_cons_self, h⟩
    | cons next parts =>
      -- The character is in the first part, in the separator, or in what comes behind.
      rw [String.intercalate_cons_cons, String.toList_append, String.toList_append,
        List.mem_append, List.mem_append] at h
      rcases h with (h | h) | h
      · exact .inr ⟨part, List.mem_cons_self, h⟩
      · exact .inl h
      · rcases ih h with h | ⟨other, hother, h⟩
        · exact .inl h
        · exact .inr ⟨other, List.mem_cons_of_mem _ hother, h⟩

/-- And the characters of every part are there. -/
theorem Text.mem_intercalate_of_mem {c : Char} {separator part : List Char}
    {parts : List (List Char)} (hpart : part ∈ parts) (hc : c ∈ part) :
    c ∈ separator.intercalate parts := by
  induction parts with
  | nil => cases hpart
  | cons first parts ih =>
    cases parts with
    | nil =>
      obtain rfl := List.mem_singleton.mp hpart
      rw [List.intercalate_singleton]
      exact hc
    | cons next parts =>
      rw [List.intercalate_cons_cons, List.mem_append, List.mem_append]
      rcases List.mem_cons.mp hpart with rfl | hpart
      · exact .inl (.inl hc)
      · exact .inr (ih hpart)

/-- A character of a segment is one of the name. -/
theorem Identifier.mem_of_mem_segments {c : Char} {s segment : String}
    (hsegment : segment ∈ segments s) (hc : c ∈ segment.toList) : c ∈ s.toList := by
  obtain ⟨cs, hcs, rfl⟩ := List.mem_map.mp hsegment
  rw [String.toList_ofList] at hc
  -- With the dots between its segments the name is whole again.
  have hsegments : ['.'].intercalate (s.toList.splitOn '.') = s.toList :=
    List.intercalate_splitOn '.'
  rw [← hsegments]
  exact Text.mem_intercalate_of_mem hcs hc

/-- A quoted name consists of its own characters, quote characters and dots. -/
theorem Identifier.mem_quote {q c : Char} {s : String} (h : c ∈ (quote q s).toList) :
    c = q ∨ c = '.' ∨ c ∈ s.toList := by
  unfold quote at h
  -- A name that passes through is written as it is; any other is quoted segment by segment, but for
  -- the stars.
  split at h
  · exact .inr (.inr h)
  · rcases Text.mem_of_mem_intercalate h with h | ⟨part, hpart, h⟩
    · exact .inr (.inl (List.mem_singleton.mp h))
    · obtain ⟨segment, hsegment, rfl⟩ := List.mem_map.mp hpart
      have hmem : c ∈ segment.toList → c ∈ s.toList := mem_of_mem_segments hsegment
      unfold quoteSegment at h
      split at h
      · exact .inr (.inr (hmem h))
      · exact (Text.mem_of_mem_enclose h).imp id fun h => .inr (hmem h)

/-- An operator is written as it is, or as one of the translations of the dialect. -/
theorem Dialect.operator_eq_or_mem (d : Dialect) (written : String) :
    d.operator written = written ∨ ∃ entry ∈ d.operators, d.operator written = entry.2 := by
  unfold Dialect.operator
  cases hfound : d.operators.lookup written with
  | none => exact .inl rfl
  | some sql =>
    obtain ⟨before, after, hentries, -⟩ := List.lookup_eq_some_iff.mp hfound
    refine .inr ⟨(written, sql), ?_, rfl⟩
    rw [hentries]
    exact List.mem_append_right before List.mem_cons_self

/-! ### Signs of their own -/

/-- A dialect that brings no placeholder sign into a statement: it does not quote with it, and no
operator has a translation with it. -/
def Dialect.Markless (d : Dialect) : Prop :=
  d.quote ≠ '?' ∧ ∀ entry ∈ d.operators, '?' ∉ entry.2.toList

/-- An item that has no placeholder sign in a name or an operator. -/
def Item.Markless : Item → Prop
  | .name s => '?' ∉ s.toList
  | .operator s => '?' ∉ s.toList
  | _ => True

/-- A rendering that has no placeholder sign in any of its names and operators. -/
def Rendering.Markless (items : List Item) : Prop :=
  ∀ x ∈ items, x.Markless

instance (d : Dialect) : Decidable d.Markless :=
  inferInstanceAs (Decidable (_ ∧ _))

instance : DecidablePred Item.Markless
  | .word _ _ => inferInstanceAs (Decidable True)
  | .name s => inferInstanceAs (Decidable ('?' ∉ s.toList))
  | .operator s => inferInstanceAs (Decidable ('?' ∉ s.toList))
  | .hole _ => inferInstanceAs (Decidable True)

instance (items : List Item) : Decidable (Rendering.Markless items) :=
  inferInstanceAs (Decidable (∀ x ∈ items, x.Markless))

/-- A word of the compiler has no sign in it. -/
theorem notMem_of_isInert {c : Char} {s : String} (h : isInert s = true) (hc : c ∈ signs) :
    c ∉ s.toList := by
  rw [isInert, List.all_eq_true] at h
  intro hmem
  exact of_decide_eq_true (h c hmem) hc

/-- The text of a hole is the sign and nothing else. -/
theorem Item.toList_text_hole (d : Dialect) (v : Value) : (text d (.hole v)).toList = ['?'] := by
  change "?".toList = _
  decide

/-- The sign stands in the text of an item only if the item is a hole. -/
theorem Item.exists_hole_of_mem {d : Dialect} {x : Item} (hd : d.Markless) (hx : x.Markless)
    (h : '?' ∈ (x.text d).toList) : ∃ v, x = .hole v := by
  cases x with
  | hole v => exact ⟨v, rfl⟩
  | word s inert => exact absurd h (notMem_of_isInert inert (by decide))
  | name s =>
    rcases Identifier.mem_quote h with h | h | h
    · exact absurd h.symm hd.1
    · exact absurd h (by decide)
    · exact absurd h hx
  | operator s =>
    change '?' ∈ (d.operator s).toList at h
    rcases d.operator_eq_or_mem s with hs | ⟨entry, hentry, hs⟩
    · rw [hs] at h
      exact absurd h hx
    · rw [hs] at h
      exact absurd h (hd.2 entry hentry)

/-! ### A sign for every hole -/

namespace Rendering

variable {d : Dialect} {x : Item} {items others : List Item}

/-- The first item brings no sign of its own. -/
theorem Markless.head (h : Markless (x :: items)) : x.Markless :=
  h x List.mem_cons_self

/-- Neither do those behind it. -/
theorem Markless.tail (h : Markless (x :: items)) : Markless items :=
  fun y hy => h y (List.mem_cons_of_mem x hy)

/-- Nor do those of a part in front. -/
theorem Markless.of_append (h : Markless (items ++ others)) : Markless items :=
  fun y hy => h y (List.mem_append_left others hy)

/-- The text of items is that of the first one and then that of the others. -/
theorem toList_text_cons (d : Dialect) (x : Item) (items : List Item) :
    (text d (x :: items)).toList = (x.text d).toList ++ (text d items).toList :=
  String.toList_append

/-- There are as many signs in the text as there are holes. -/
theorem count_mark_text (hd : d.Markless) (h : Markless items) :
    (text d items).toList.count '?' = (values items).length := by
  induction items with
  | nil => rfl
  | cons x items ih =>
    -- An item with a sign is a hole; any other item adds neither a sign nor a value.
    rw [toList_text_cons, List.count_append, ih h.tail]
    by_cases hmem : '?' ∈ (x.text d).toList
    · obtain ⟨v, rfl⟩ := Item.exists_hole_of_mem hd h.head hmem
      have hvalues : values (.hole v :: items) = v :: values items := rfl
      rw [Item.toList_text_hole, List.count_singleton_self, hvalues, List.length_cons, Nat.add_comm]
    · rw [List.count_eq_zero_of_not_mem hmem, Nat.zero_add]
      cases x with
      | hole v =>
        rw [Item.toList_text_hole] at hmem
        exact absurd List.mem_cons_self hmem
      | _ => rfl

/-- Where a sign cuts the text, a hole cuts the rendering. -/
theorem exists_hole_of_text_eq (hd : d.Markless) (h : Markless items) {before after : List Char}
    (heq : (text d items).toList = before ++ '?' :: after) :
    ∃ left v right, items = left ++ .hole v :: right ∧
      (text d left).toList = before ∧ (text d right).toList = after := by
  induction items generalizing before with
  | nil => exact absurd heq.symm (List.append_ne_nil_of_right_ne_nil _ (List.cons_ne_nil _ _))
  | cons x items ih =>
    -- The sign is behind the text of the first item, or it is in that text.
    have hbehind (rest : List Char) (hbefore : before = (x.text d).toList ++ rest)
        (hrest : (text d items).toList = rest ++ '?' :: after) :
        ∃ left v right, x :: items = left ++ .hole v :: right ∧
          (text d left).toList = before ∧ (text d right).toList = after := by
      obtain ⟨left, v, right, rfl, hleft, hright⟩ := ih h.tail hrest
      refine ⟨x :: left, v, right, rfl, ?_, hright⟩
      rw [toList_text_cons, hleft, hbefore]
    rw [toList_text_cons] at heq
    rcases List.append_eq_append_iff.mp heq with ⟨rest, hbefore, hrest⟩ | ⟨rest, hx, hrest⟩
    · exact hbehind rest hbefore hrest
    · cases rest with
      | nil =>
        -- The cut is at the end of the item.
        refine hbehind [] ?_ hrest.symm
        rw [hx, List.append_nil, List.append_nil]
      | cons c rest =>
        -- The sign is in the item, so the item is a hole and the sign is all there is of it.
        obtain ⟨rfl, rfl⟩ := List.cons.inj hrest
        have hmem : '?' ∈ (x.text d).toList := by
          rw [hx]
          exact List.mem_append_right before List.mem_cons_self
        obtain ⟨v, rfl⟩ := Item.exists_hole_of_mem hd h.head hmem
        rw [Item.toList_text_hole] at hx
        rcases List.append_eq_singleton_iff.mp hx.symm with ⟨rfl, htail⟩ | ⟨-, htail⟩
        · obtain rfl := (List.cons.inj htail).2
          exact ⟨[], v, items, rfl, rfl, rfl⟩
        · exact absurd htail (List.cons_ne_nil _ _)

/-- The value of a hole comes behind as many values as there are holes to the left of it. -/
theorem getElem?_values (left right : List Item) (v : Value) :
    (values (left ++ .hole v :: right))[(values left).length]? = some v := by
  have hvalues : values (left ++ .hole v :: right) = values left ++ v :: values right :=
    List.filterMap_append
  rw [hvalues, List.getElem?_append_right (Nat.le_refl _), Nat.sub_self]
  rfl

end Rendering

/-! ### Statements -/

/-- **The text and the parameters are one rendering**: its text with `?` for every hole, and the
values of its holes from left to right. If neither the dialect nor a name or an operator brings a
sign of its own, then there are as many signs as parameters, and the sign with `n` signs before it
stands for the hole whose value is parameter `n`. -/
theorem Statement.compile_renders {d : Dialect} {s : Statement} {out : Sql}
    (h : s.compile d = .ok out) :
    out.text = Rendering.text d (s.rendering d) ∧
      out.params = Rendering.values (s.rendering d) ∧
      (d.Markless → Rendering.Markless (s.rendering d) →
        out.placeholders = out.params.length ∧
        ∀ before after : List Char, out.text.toList = before ++ '?' :: after →
          ∃ left v right, s.rendering d = left ++ .hole v :: right ∧
            (Rendering.text d left).toList = before ∧ (Rendering.text d right).toList = after ∧
            out.params[before.count '?']? = some v) := by
  obtain rfl := Statement.eq_sql_rendering h
  refine ⟨rfl, rfl, fun hd hitems => ⟨Rendering.count_mark_text hd hitems, ?_⟩⟩
  intro before after heq
  obtain ⟨left, v, right, hsplit, hleft, hright⟩ := Rendering.exists_hole_of_text_eq hd hitems heq
  refine ⟨left, v, right, hsplit, hleft, hright, ?_⟩
  -- Left of the hole there are as many signs as values, so its value is the next one.
  have hcount : before.count '?' = (Rendering.values left).length := by
    rw [← hleft]
    rw [hsplit] at hitems
    exact Rendering.count_mark_text hd hitems.of_append
  change (Rendering.values (s.rendering d))[_]? = some v
  rw [hcount, hsplit]
  exact Rendering.getElem?_values left right v

/-- A select with parameters in a join, in a select of its WHERE clause and in its window. -/
def nestedSelect : Select :=
  let ids : Select :=
    { draft := { sources := [⟨"u", none⟩]
                 wheres := [⟨⟨"b", "=", .bound false false⟩, .value (.int 2), .and, 0, 0⟩] }
      fields := [⟨"id", none⟩] }
  { draft := { sources := [⟨"t", none⟩]
               wheres := [⟨⟨"a", "*", .bound false false⟩, .query ids, .and, 0, 0⟩] }
    joins := [⟨⟨"v", none⟩, .left,
      [⟨⟨"c", "<", .bound false false⟩, .value (.int 1), .and, 0, 0⟩]⟩]
    window? := some ⟨5, 0, by decide⟩ }

theorem Statement.compile_renders_nestedSelect :
    ∃ out, (select nestedSelect).compile Engine.pgsql.dialect = .ok out ∧
      out.params = [.int 1, .int 2, .int 5, .int 0] ∧ out.placeholders = 4 := by
  have hd : Engine.pgsql.dialect.Markless := by decide
  have hitems : Rendering.Markless ((select nestedSelect).rendering Engine.pgsql.dialect) := by
    decide
  -- In the order of the text: the join, the inner select, the window.
  have hvalues : Rendering.values ((select nestedSelect).rendering Engine.pgsql.dialect) =
      [.int 1, .int 2, .int 5, .int 0] := rfl
  obtain ⟨out, hout⟩ : ∃ out, (select nestedSelect).compile Engine.pgsql.dialect = .ok out :=
    ⟨_, rfl⟩
  obtain ⟨-, hparams, hmarks⟩ := Statement.compile_renders hout
  rw [hvalues] at hparams
  refine ⟨out, hout, hparams, ?_⟩
  rw [(hmarks hd hitems).1, hparams]
  rfl

end SqlBuilder
