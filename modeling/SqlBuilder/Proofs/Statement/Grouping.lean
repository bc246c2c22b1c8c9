import Mathlib.Algebra.Order.BigOperators.Group.List
import Mathlib.Algebra.Order.Ring.Nat
import SqlBuilder.Compile.Select
import SqlBuilder.Proofs.Statement.Family
import SqlBuilder.Proofs.Text.Parts
import SqlBuilder.Proofs.Text.Trim

/-!
# Grouping by a text and by a list

What a select is grouped by is given as a text with commas between the names, or as a list of them.
The text is cut at its commas and trimmed, and what is blank is dropped. The list is trimmed only.
So a text gives what the list of its names gives without the blank ones
(`Grouping.fields_text_intercalate`), and a blank field is brought by a list or not at all
(`Grouping.exists_isBlankText_iff`).

A clause tells a list of fields from any other list that it can be made of by leaving fields out,
because each field makes the clause longer (`Select.groupClause_inj_of_sublist`). This is why the
clauses differ whenever the selects do.

Main statement, at the end: anywhere among the calls, a text and the list of its names build the
same select, and a select with the same clause, exactly if no name is blank; and a select is grouped
by a blank field exactly if a list brought one (`Select.build_groupBy_text_eq_list`).
-/

namespace SqlBuilder

open Text

/-! ### The fields of a grouping -/

/-- The fields of a text are its parts between commas, trimmed and without the empty ones. -/
theorem Grouping.fields_text (s : String) :
    (Grouping.text s).fields = ((parts ',' s).map trim).filter (· ≠ "") := by
  have htrim : (trim ∘ String.ofList) = fun cs => String.ofList (trimChars cs) := by
    funext cs
    rw [Function.comp_apply, trim, String.toList_ofList]
  rw [parts, List.map_map, htrim]
  rfl

/-- Trimming takes the blanks off again. -/
theorem map_trim_of_padded {names texts : List String} (h : List.Forall₂ Padded names texts) :
    texts.map trim = names.map trim := by
  induction h with
  | nil => rfl
  | cons hpadded _ ih => rw [List.map_cons, List.map_cons, hpadded.trim_eq, ih]

/-- Blanks around a name bring no comma in. -/
theorem comma_notMem_of_padded {names texts : List String}
    (hnames : ∀ name ∈ names, ',' ∉ name.toList) (h : List.Forall₂ Padded names texts) :
    ∀ text ∈ texts, ',' ∉ text.toList := by
  induction h with
  | nil => exact hnames
  | cons hpadded _ ih =>
    obtain ⟨hname, hnames⟩ := List.forall_mem_cons.mp hnames
    exact List.forall_mem_cons.mpr ⟨mt (hpadded.mem_iff (by decide)).mp hname, ih hnames⟩

/-- **A text gives the names that are not blank**, if it is made of names by putting blanks around
them and commas between them. -/
theorem Grouping.fields_text_intercalate {names texts : List String}
    (hnames : ∀ name ∈ names, ',' ∉ name.toList) (htexts : List.Forall₂ Padded names texts) :
    (Grouping.text (",".intercalate texts)).fields =
      (Grouping.list (names.filter (¬IsBlankText ·))).fields := by
  by_cases hnil : texts = []
  · -- Without a name there is still one part, and it is blank.
    obtain rfl : names = [] := List.length_eq_zero_iff.mp (by rw [htexts.length_eq, hnil]; rfl)
    rw [hnil]
    rfl
  · have hparts : parts ',' (",".intercalate texts) = texts :=
      parts_intercalate hnil (comma_notMem_of_padded hnames htexts)
    have hkeep : ((decide <| · ≠ "") ∘ trim) = fun name => decide ¬IsBlankText name := by
      funext name
      exact decide_eq_decide.mpr (not_congr (trim_eq_empty_iff name))
    rw [Grouping.fields_text, hparts, map_trim_of_padded htexts, List.filter_map, hkeep]
    rfl

/-- **A blank field** comes from a blank name in a list, never from a text. -/
theorem Grouping.exists_isBlankText_iff (grouping : Grouping) :
    (∃ field ∈ grouping.fields, IsBlankText field) ↔
      ∃ names, grouping = .list names ∧ ∃ name ∈ names, IsBlankText name := by
  cases grouping with
  | text s =>
    refine iff_of_false ?_ (by rintro ⟨names, hlist, -⟩; cases hlist)
    rw [Grouping.fields_text]
    rintro ⟨field, hfield, hblank⟩
    obtain ⟨hmem, hne⟩ := List.mem_filter.mp hfield
    obtain ⟨part, -, rfl⟩ := List.mem_map.mp hmem
    -- What is trimmed and blank is empty, so the filter has dropped it.
    have hempty := (trim_eq_empty_iff part).mpr ((padded_trim part).isBlankText_iff.mpr hblank)
    exact of_decide_eq_true hne hempty
  | list names =>
    constructor
    · rintro ⟨field, hfield, hblank⟩
      obtain ⟨name, hname, rfl⟩ := List.mem_map.mp hfield
      exact ⟨names, rfl, name, hname, (padded_trim name).isBlankText_iff.mpr hblank⟩
    · rintro ⟨_, hlist, name, hname, hblank⟩
      obtain rfl := Grouping.list.inj hlist
      exact ⟨trim name, List.mem_map_of_mem hname, (padded_trim name).isBlankText_iff.mp hblank⟩

/-! ### The clause -/

/-- The length of a list with commas between its items. It grows with every item. -/
theorem length_commas {items : List String} (h : items ≠ []) :
    (commas items).length + 2 = (items.map String.length).sum + 2 * items.length := by
  induction items with
  | nil => exact absurd rfl h
  | cons item items ih =>
    cases items with
    | nil =>
      rw [commas, String.intercalate_singleton]
      rfl
    | cons next items =>
      have hrest := ih (List.cons_ne_nil next items)
      have hsep : (", " : String).length = 2 := rfl
      rw [commas, String.intercalate_cons_cons, String.length_append, String.length_append, hsep,
        List.map_cons, List.sum_cons, List.length_cons]
      rw [commas] at hrest
      omega

namespace Select

variable {d : Dialect}

/-- A list of fields and what is left of it have different clauses, if anything was left out. -/
theorem groupClause_inj_of_sublist {xs ys : List String} (h : xs.Sublist ys)
    (hclause : groupClause d xs = groupClause d ys) : xs = ys := by
  unfold groupClause at hclause
  -- Without fields there is no clause. With fields the clause is the text of the commas.
  by_cases hys : ys = []
  · rw [hys] at h ⊢
    exact List.sublist_nil.mp h
  · by_cases hxs : xs = []
    · rw [if_pos (List.isEmpty_iff.mpr hxs), if_neg (mt List.isEmpty_iff.mp hys)] at hclause
      exact absurd hclause.symm (List.cons_ne_nil _ _)
    · rw [if_neg (mt List.isEmpty_iff.mp hxs), if_neg (mt List.isEmpty_iff.mp hys)] at hclause
      have htext : commas (xs.map d.identifier) = commas (ys.map d.identifier) :=
        (String.append_right_inj _).mp (congrArg Sql.text (List.cons.inj hclause).1)
      have hx := length_commas (mt List.map_eq_nil_iff.mp hxs : xs.map d.identifier ≠ [])
      have hy := length_commas (mt List.map_eq_nil_iff.mp hys : ys.map d.identifier ≠ [])
      have hsum : ((xs.map d.identifier).map String.length).sum ≤
          ((ys.map d.identifier).map String.length).sum :=
        ((h.map d.identifier).map String.length).sum_le_sum fun _ _ => Nat.zero_le _
      rw [htext, List.length_map] at hx
      rw [List.length_map] at hy
      -- The fields that were left out would make the second clause longer.
      exact h.eq_of_length_le (by omega)

/-! ### Main statement -/

/-- What calls build of which one groups by a grouping. -/
def groupedBy (before after : List Step) (grouping : Grouping) : Select :=
  build (before ++ .groupBy grouping :: after)

variable {before after : List Step}

/-- The fields of the grouping stand between those of the calls before it and those of the calls
after it. -/
theorem groups_groupedBy (grouping : Grouping) :
    (groupedBy before after grouping).groups =
      before.flatMap Step.groups ++ (grouping.fields ++ after.flatMap Step.groups) := by
  rw [groupedBy, groups_build, List.flatMap_append, List.flatMap_cons]
  rfl

/-- Nothing but the fields of a grouping is looked at. -/
theorem groupedBy_congr {g g' : Grouping} (h : g.fields = g'.fields) :
    groupedBy before after g = groupedBy before after g' := by
  have hcall (s : Select) : s.apply (.groupBy g) = s.apply (.groupBy g') :=
    congrArg (fun fields => { s with groups := s.groups ++ fields }) h
  rw [groupedBy, groupedBy, build, build, List.foldl_append, List.foldl_append, List.foldl_cons,
    List.foldl_cons, hcall]

/-- Leaving names out of a list changes the clause. -/
theorem forall_of_groupClause_eq {names : List String} {keep : String → Bool}
    (h : groupClause d (groupedBy before after (.list (names.filter keep))).groups =
      groupClause d (groupedBy before after (.list names)).groups) :
    ∀ name ∈ names, keep name = true := by
  have hfields : ((names.filter keep).map trim).Sublist (names.map trim) :=
    List.filter_sublist.map trim
  rw [groups_groupedBy, groups_groupedBy] at h
  have hall := groupClause_inj_of_sublist ((hfields.append_right _).append_left _) h
  have hsame : (names.filter keep).map trim = names.map trim :=
    List.append_cancel_right (List.append_cancel_left hall)
  have hlength := congrArg List.length hsame
  rw [List.length_map, List.length_map] at hlength
  exact List.filter_eq_self.mp (List.filter_sublist.eq_of_length hlength)

/-- A blank field is grouped by exactly if a list brought it. -/
theorem exists_isBlankText_groups_iff (steps : List Step) :
    (∃ field ∈ (build steps).groups, IsBlankText field) ↔
      ∃ names, .groupBy (.list names) ∈ steps ∧ ∃ name ∈ names, IsBlankText name := by
  rw [groups_build]
  constructor
  · rintro ⟨field, hfield, hblank⟩
    obtain ⟨step, hstep, hfield⟩ := List.mem_flatMap.mp hfield
    cases step with
    | groupBy grouping =>
      obtain ⟨names, rfl, hnames⟩ := grouping.exists_isBlankText_iff.mp ⟨field, hfield, hblank⟩
      exact ⟨names, hstep, hnames⟩
    | _ => exact absurd hfield List.not_mem_nil
  · rintro ⟨names, hstep, hnames⟩
    obtain ⟨field, hfield, hblank⟩ :=
      (Grouping.list names).exists_isBlankText_iff.mpr ⟨names, rfl, hnames⟩
    exact ⟨field, List.mem_flatMap.mpr ⟨_, hstep, hfield⟩, hblank⟩

/-- **Grouping by a text and by a list.** A blank field is among those that calls make a select
grouped by exactly if one of them gave a list with a blank name. And if names without commas are
given in the next call, as a list, or with blanks around them and commas between them as a text,
then the text does what the list does without the blank names. So the two build the same select
exactly if no name is blank, whatever is called then, and exactly then the clauses are the same in
any dialect. -/
theorem build_groupBy_text_eq_list (steps : List Step) :
    ((∃ field ∈ (build steps).groups, IsBlankText field) ↔
      ∃ names, .groupBy (.list names) ∈ steps ∧ ∃ name ∈ names, IsBlankText name) ∧
    ∀ (after : List Step) (names texts : List String),
      (∀ name ∈ names, ',' ∉ name.toList) → List.Forall₂ Padded names texts →
      let joined := groupedBy steps after (.text (",".intercalate texts))
      let listed := groupedBy steps after (.list names)
      joined = groupedBy steps after (.list (names.filter (¬IsBlankText ·))) ∧
      (joined = listed ↔ ∀ name ∈ names, ¬IsBlankText name) ∧
      ∀ d, groupClause d joined.groups = groupClause d listed.groups ↔
        ∀ name ∈ names, ¬IsBlankText name := by
  refine ⟨exists_isBlankText_groups_iff steps, ?_⟩
  intro after names texts hnames htexts joined listed
  have hjoined : joined = groupedBy steps after (.list (names.filter (¬IsBlankText ·))) :=
    groupedBy_congr (Grouping.fields_text_intercalate hnames htexts)
  have hsame (h : ∀ name ∈ names, ¬IsBlankText name) : joined = listed := by
    rw [hjoined, List.filter_eq_self.mpr fun name hname => decide_eq_true (h name hname)]
  have hclause (d : Dialect) (h : groupClause d joined.groups = groupClause d listed.groups) :
      ∀ name ∈ names, ¬IsBlankText name := by
    rw [hjoined] at h
    exact fun name hname => of_decide_eq_true (forall_of_groupClause_eq h name hname)
  refine ⟨hjoined, ⟨fun h => ?_, hsame⟩, fun d => ⟨hclause d, fun h => ?_⟩⟩
  · exact hclause Engine.sql.dialect (congrArg (groupClause _ ·.groups) h)
  · rw [hsame h]

/-- Names with blanks around them, which a text has more of, and then a blank name among them. -/
theorem build_groupBy_text_eq_list_padded :
    let source := Step.common (.addSources (.texts ["t"]))
    groupedBy [source] [] (.text " a, b\t") = groupedBy [source] [] (.list ["a", " b"]) ∧
      (groupedBy [source] [] (.list ["a", " b"])).groups = ["a", "b"] ∧
      groupedBy [source] [] (.text "a, ") = groupedBy [source] [] (.list ["a"]) ∧
      groupedBy [source] [] (.text "a, ") ≠ groupedBy [source] [] (.list ["a", ""]) := by
  intro source
  obtain ⟨-, hjoined⟩ := build_groupBy_text_eq_list [source]
  have hpadded : List.Forall₂ Padded ["a", " b"] [" a", " b\t"] :=
    .cons ⟨[' '], [], by decide, by decide, rfl⟩
      (.cons ⟨[], ['\t'], by decide, by decide, rfl⟩ .nil)
  have hblank : List.Forall₂ Padded ["a", ""] ["a", " "] :=
    .cons ⟨[], [], by decide, by decide, rfl⟩ (.cons ⟨[' '], [], by decide, by decide, rfl⟩ .nil)
  obtain ⟨-, hsame, -⟩ := hjoined [] _ _ (by decide) hpadded
  obtain ⟨hleft, hother, -⟩ := hjoined [] _ _ (by decide) hblank
  refine ⟨hsame.mpr (by decide), by rw [groups_groupedBy]; decide, hleft, ?_⟩
  exact fun h => absurd (hother.mp h) (by decide)

/-- A text and the list of its names do not always agree, and a blank field can be there: the list
may have a blank name. -/
theorem not_build_groupBy_text_eq_list :
    ¬(∀ names texts : List String, (∀ name ∈ names, ',' ∉ name.toList) →
      List.Forall₂ Padded names texts →
      build [.groupBy (.text (",".intercalate texts))] = build [.groupBy (.list names)]) ∧
    ¬∀ steps, ∀ field ∈ (build steps).groups, ¬IsBlankText field := by
  have hlisted : (build [.groupBy (.list ["a", ""])]).groups = ["a", ""] := rfl
  constructor
  · intro hall
    have hjoined : (build [.groupBy (.text "a,")]).groups = ["a"] := rfl
    have hpadded : List.Forall₂ Padded ["a", ""] ["a", ""] :=
      .cons ⟨[], [], by decide, by decide, rfl⟩ (.cons ⟨[], [], by decide, by decide, rfl⟩ .nil)
    have hsame := congrArg Select.groups (hall _ _ (by decide) hpadded)
    exact absurd (hjoined.symm.trans (hsame.trans hlisted)) (by decide)
  · intro hall
    refine hall [.groupBy (.list ["a", ""])] "" ?_ (by decide)
    rw [hlisted]
    decide

end Select

end SqlBuilder
