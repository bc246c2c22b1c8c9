import SqlBuilder.Proofs.Compile.Chain
import SqlBuilder.Proofs.Compile.Name
import SqlBuilder.Proofs.Compile.Supply

/-!
# Conditions that test membership

An operator that becomes IN or NOT IN wants brackets behind it, with operands or a select inside.
The compiler comes to such a condition on several ways, by what its operand is and by what it is
bound to, and each way has to see to the brackets by itself. `Membership.Form` lists what the
outcome may be: a test for NULL, one of the constants for an empty list, or the field, the operator
and brackets with something inside.

Main statements, each at the end of its part:

* In a statement that compiles, a membership has one of these forms exactly if its operand is a
  placeholder (`Statement.membershipForm_iff_isBound`). A literal operand stands behind the operator
  without brackets, in every dialect: the text of a name may have brackets of its own, but it does
  not begin with one and end with the other (`Dialect.identifier_ne_parens`).
* One value is compiled as the list of it, unless it is NULL (`Condition.value_eq_list_iff`). For
  the value there is a test for NULL then, and a placeholder for the list.
-/

namespace SqlBuilder

open Identifier

variable {d : Dialect} {c : Comparison}

/-! ### The forms of a membership -/

/-- What may stand in the place of a value: a placeholder, or a token of the statement itself. -/
inductive Sql.IsOperand (d : Dialect) : Sql → Prop
  | hole (v : Value) : IsOperand d (.hole v)
  | token (s : String) : IsOperand d (.raw (d.identifier s))

/-- What may stand between the brackets behind the operator: at least one operand, or a select. -/
inductive Membership.Inside (d : Dialect) : Sql → Prop
  | operands {operands : List Sql} (hne : operands ≠ []) (h : ∀ x ∈ operands, x.IsOperand d) :
      Inside d (.join ", " operands)
  | select {q : Select} {inner : Sql} (h : q.compile d = .ok inner) : Inside d inner

/-- The forms of a condition that tests membership. -/
inductive Membership.Form (d : Dialect) (c : Comparison) : Sql → Prop
  | isNull : Form d c (.raw (d.identifier c.field ++ " IS NULL"))
  | isNotNull : Form d c (.raw (d.identifier c.field ++ " IS NOT NULL"))
  | nothing : Form d c (.raw "1=0")
  | everything : Form d c (.raw "1=1")
  | bracketed {inside : Sql} (h : Inside d inside) :
      Form d c
        (.raw (d.identifier c.field ++ " " ++ d.operator c.operator ++ " (") ++ inside ++ .raw ")")

/-! ### A condition with a placeholder -/

/-- With a placeholder, a value is compiled by its own rule. -/
theorem compileComparison_value (hbound : c.operand.isBound = true) (v : Value) :
    compileComparison d c (.value v) = .ok (c.withValue d v) := by
  rcases c with ⟨field, operator, before | token⟩
  · rfl
  · cases hbound

/-- So is a list. -/
theorem compileComparison_list (hbound : c.operand.isBound = true) (values : List Value) :
    compileComparison d c (.list values) = c.withList d values := by
  rcases c with ⟨field, operator, before | token⟩
  · rfl
  · cases hbound

/-- The placeholder of one value has brackets, as an operator that takes a list wants them. -/
theorem Comparison.withValue_of_not_null (hlist : takesList (d.operator c.operator) = true)
    {v : Value} (hv : v.isNull = false) :
    c.withValue d v = c.lhs d ++ (Sql.hole (c.operand.param d v)).parens := by
  rw [withValue, hv, if_neg Bool.false_ne_true]
  dsimp only
  rw [if_pos hlist]

/-- A list that is not empty has its placeholders in brackets. -/
theorem Comparison.withList_cons (hlist : takesList (d.operator c.operator) = true) (v : Value)
    (values : List Value) :
    c.withList d (v :: values) =
      .ok (c.lhs d ++ (Sql.holes ((v :: values).map (c.operand.param d))).parens) := by
  obtain ⟨membership, hmembership⟩ := Option.isSome_iff_exists.mp hlist
  rw [withList, hmembership]
  rfl

namespace Membership

/-- What the compiler puts behind the field and the operator is in brackets. -/
theorem form_lhs_parens {inside : Sql} (h : Inside d inside) :
    Form d c (c.lhs d ++ inside.parens) := by
  have hparts : c.lhs d ++ inside.parens =
      .raw (d.identifier c.field ++ " " ++ d.operator c.operator ++ " (") ++ inside ++
        .raw ")" := by
    have hspace : " (" = " " ++ "(" := by decide
    rw [hspace, ← String.append_assoc, Sql.raw_append, Sql.append_assoc, Sql.append_assoc,
      ← Sql.append_assoc (.raw "(")]
    rfl
  rw [hparts]
  exact .bracketed h

/-- A test for NULL is one of the forms. -/
theorem form_nullTest (d : Dialect) (c : Comparison) : Form d c (c.nullTest d) := by
  unfold Comparison.nullTest
  split
  · exact .isNull
  · exact .isNotNull

/-- A value behind an operator that takes a list has one of the forms. -/
theorem form_withValue (hlist : takesList (d.operator c.operator) = true) (v : Value) :
    Form d c (c.withValue d v) := by
  cases hv : v.isNull with
  | true =>
    rw [Comparison.withValue, if_pos hv]
    exact form_nullTest d c
  | false =>
    rw [Comparison.withValue_of_not_null hlist hv]
    refine form_lhs_parens (.operands (List.cons_ne_nil _ []) fun x hx => ?_)
    obtain rfl := List.mem_singleton.mp hx
    exact .hole _

/-- So has a list: an empty one is a constant, which of the two is told by the operator. -/
theorem form_of_withList (hlist : takesList (d.operator c.operator) = true) {values : List Value}
    {part : Sql} (h : c.withList d values = .ok part) : Form d c part := by
  cases values with
  | nil =>
    obtain ⟨membership, hmembership⟩ := Option.isSome_iff_exists.mp hlist
    rw [Comparison.withList, hmembership] at h
    obtain rfl := Except.ok.inj h
    cases membership with
    | inside => exact .nothing
    | outside => exact .everything
  | cons v values =>
    rw [Comparison.withList_cons hlist] at h
    obtain rfl := Except.ok.inj h
    refine form_lhs_parens (.operands (List.cons_ne_nil _ _) fun x hx => ?_)
    obtain ⟨w, -, rfl⟩ := List.mem_map.mp hx
    exact .hole w

/-- Whatever it is bound to, a condition with a placeholder has one of the forms. -/
theorem form_of_isBound (hlist : takesList (d.operator c.operator) = true)
    (hbound : c.operand.isBound = true) {binding : Binding} {part : Sql}
    (h : compileComparison d c binding = .ok part) : Form d c part := by
  -- Each of the three ways of binding sees to the brackets by itself.
  cases binding with
  | value v =>
    rw [compileComparison_value hbound] at h
    obtain rfl := Except.ok.inj h
    exact form_withValue hlist v
  | list values =>
    rw [compileComparison_list hbound] at h
    exact form_of_withList hlist h
  | query q =>
    rcases c with ⟨field, operator, before | token⟩
    · obtain ⟨inner, hinner, h⟩ := exists_of_bind_eq_ok h
      obtain rfl := Except.ok.inj h
      exact form_lhs_parens (.select hinner)
    · cases hbound

end Membership

/-! ### A name in brackets -/

namespace Identifier

/-- No token that stands as it is begins with a bracket. -/
theorem isBare_eq_false_of_bracket {s : String} {cs : List Char} (hs : s.toList = '(' :: cs) :
    isBare s = false := by
  refine Bool.eq_false_iff.mpr fun hbare => ?_
  obtain ⟨c, ds, hs', hc⟩ := exists_cons_of_isBare hbare
  obtain rfl := (List.cons.inj (hs.symm.trans hs')).1
  revert hc
  decide

/-- **A name is no text in brackets**: an opening bracket in front makes it a quoted name, and the
quote character of that is at its end again. -/
theorem toList_quote_ne_parens (q : Char) (s : String) (inside : List Char) :
    (quote q s).toList ≠ '(' :: (inside ++ [')']) := by
  intro h
  by_cases hbare : isBare s = true
  · rw [quote, if_pos hbare] at h
    rw [isBare_eq_false_of_bracket h] at hbare
    exact Bool.false_ne_true hbare
  · have hfenced := fenced_intercalate (q := q) (segments_ne_nil s)
    rw [quote, if_neg hbare] at h
    rw [h] at hfenced
    obtain ⟨⟨first, hfirst, hopen⟩, ⟨last, hlast, hclose⟩⟩ := hfenced
    rw [← List.cons_append, List.getLast?_concat] at hlast
    obtain rfl := Option.some.inj hfirst
    obtain rfl := Option.some.inj hlast
    -- The quote character can not be both brackets.
    rcases hopen with rfl | hopen
    · revert hclose
      decide
    · exact absurd hopen (by decide)

end Identifier

/-- No dialect writes a name as a text in brackets. -/
theorem Dialect.identifier_ne_parens (d : Dialect) (s inside : String) :
    d.identifier s ≠ "(" ++ inside ++ ")" := by
  intro h
  have hchars := congrArg String.toList h
  rw [String.toList_append, String.toList_append] at hchars
  exact toList_quote_ne_parens d.quote s inside.toList hchars

/-! ### A condition with a literal -/

/-- The letters of an operator that takes a list. -/
theorem map_toLower_of_takesList {operator : String} (h : takesList operator = true) :
    operator.toList.map Char.toLower = ['i', 'n'] ∨
      operator.toList.map Char.toLower = ['n', 'o', 't', ' ', 'i', 'n'] := by
  have hin : "IN".toList.map Char.toLower = ['i', 'n'] := by decide
  have hnot : "NOT IN".toList.map Char.toLower = ['n', 'o', 't', ' ', 'i', 'n'] := by decide
  unfold takesList Membership.ofOperator? at h
  split at h
  · next hletters => exact .inl ((map_toLower_eq_of_sameLetters hletters).trans hin)
  · split at h
    · next hletters => exact .inr ((map_toLower_eq_of_sameLetters hletters).trans hnot)
    · cases h

/-- Neither IN nor NOT IN begins as IS does. -/
theorem operator_append_ne_is {operator : String} (h : takesList operator = true)
    (rest rest' : List Char) : operator.toList ++ rest ≠ 'I' :: 'S' :: rest' := by
  intro heq
  have hlower := congrArg (List.map Char.toLower) heq
  rw [List.map_append, List.map_cons, List.map_cons] at hlower
  rcases map_toLower_of_takesList h with hin | hnot
  · rw [hin] at hlower
    exact absurd (List.cons.inj (List.cons.inj hlower).2).1 (by decide)
  · rw [hnot] at hlower
    exact absurd (List.cons.inj hlower).1 (by decide)

/-- A literal behind the operator gives none of the forms. -/
theorem Membership.not_form_literal (hlist : takesList (d.operator c.operator) = true)
    (token : String) :
    ¬Form d c (.raw (d.identifier c.field ++ " " ++ d.operator c.operator ++ " " ++
      d.identifier token)) := by
  intro hform
  generalize hpart : Sql.raw (d.identifier c.field ++ " " ++ d.operator c.operator ++ " " ++
    d.identifier token) = part at hform
  have hchars : part.text.toList =
      (d.identifier c.field).toList ++ ' ' ::
        ((d.operator c.operator).toList ++ ' ' :: (d.identifier token).toList) := by
    simp [← hpart]
  clear hpart
  -- Behind the field comes the operator, which is neither IS nor IS NOT.
  have htest (rest : List Char) :
      part.text.toList ≠ (d.identifier c.field).toList ++ ' ' :: 'I' :: 'S' :: rest := by
    intro heq
    rw [heq] at hchars
    exact operator_append_ne_is hlist _ _ (List.cons.inj (List.append_cancel_left hchars)).2.symm
  -- The constants have no space.
  have hconstant (hspace : ' ' ∉ part.text.toList) : False := by
    rw [hchars] at hspace
    exact hspace (List.mem_append_right _ List.mem_cons_self)
  cases hform with
  | isNull => exact htest " NULL".toList String.toList_append
  | isNotNull => exact htest " NOT NULL".toList String.toList_append
  | nothing => exact hconstant (by decide)
  | everything => exact hconstant (by decide)
  | @bracketed inside h =>
    -- What is left behind the operator on both sides would be the literal in brackets.
    have hrest : (d.identifier token).toList = ("(" ++ inside.text ++ ")").toList := by
      simpa using hchars.symm
    exact d.identifier_ne_parens token inside.text (String.toList_inj.mp hrest)

/-! ### The memberships of a statement -/

/-- **Exactly the memberships with a placeholder have the form of one**, in a statement that
compiles, wherever they stand in it. One with a literal has the literal right behind the operator,
and what it is bound to does not matter. -/
theorem Statement.membershipForm_iff_isBound {s : Statement} {out : Sql} (h : s.compile d = .ok out)
    {chain : List Condition} (hchain : s.HasChain chain) {c : Condition} (hc : c ∈ chain)
    (hlist : takesList (d.operator c.comparison.operator) = true) :
    ∃ part, compileComparison d c.comparison c.binding = .ok part ∧
      part.text.toList <:+: out.text.toList ∧
      (Membership.Form d c.comparison part ↔ c.comparison.operand.isBound = true) ∧
      ∀ token, c.comparison.operand = .literal token →
        part = .raw (d.identifier c.comparison.field ++ " " ++
          d.operator c.comparison.operator ++ " " ++ d.identifier token) := by
  obtain ⟨parts, hparts⟩ := hchain.compiles h
  obtain ⟨part, hpart⟩ := exists_part_of_compileConditions hparts hc
  -- The part is the rendering of the comparison, which stands in that of the chain, and that in the
  -- statement.
  have hinside : part.text.toList <:+: out.text.toList := by
    rw [compileComparison_eq_items d _ _ hpart, Statement.eq_sql_rendering h]
    exact Rendering.infix_text ((comparisonItems_infix_chainItems d hc).trans hchain.isInfix)
  have hliteral : ∀ token, c.comparison.operand = .literal token →
      part = .raw (d.identifier c.comparison.field ++ " " ++
        d.operator c.comparison.operator ++ " " ++ d.identifier token) := by
    intro token htoken
    rw [compileComparison.eq_def, htoken] at hpart
    exact (Except.ok.inj hpart).symm
  refine ⟨part, hpart, hinside, ⟨fun hform => ?_, fun hbound => ?_⟩, hliteral⟩
  · -- A literal would have to stand in brackets.
    cases hoperand : c.comparison.operand with
    | bound before after => rfl
    | literal token =>
      rw [hliteral token hoperand] at hform
      exact absurd hform (Membership.not_form_literal hlist token)
  · exact Membership.form_of_isBound hlist hbound hpart

/-- Two conditions of one chain, the second with a literal. -/
theorem Statement.membershipForm_iff_isBound_chain :
    let bound : Condition := ⟨⟨"a", "*", .bound false false⟩, .list [.int 1, .int 2], .and, 0, 0⟩
    let literal : Condition := ⟨⟨"b", "NOT IN", .literal "(c)"⟩, .value .null, .or, 0, 0⟩
    let s : Statement :=
      .delete { draft := { sources := [⟨"t", none⟩], wheres := [bound, literal] } }
    (∃ out, s.compile Engine.sql.dialect = .ok out) ∧
      (∃ part, compileComparison Engine.sql.dialect bound.comparison bound.binding = .ok part ∧
        Membership.Form Engine.sql.dialect bound.comparison part) ∧
      ∃ part, compileComparison Engine.sql.dialect literal.comparison literal.binding = .ok part ∧
        ¬Membership.Form Engine.sql.dialect literal.comparison part := by
  intro bound literal s
  obtain ⟨out, hout⟩ : ∃ out, s.compile Engine.sql.dialect = .ok out := ⟨_, rfl⟩
  have hchain : s.HasChain [bound, literal] := .own List.mem_cons_self
  obtain ⟨part, hpart, -, hform, -⟩ :=
    membershipForm_iff_isBound hout hchain List.mem_cons_self (by decide)
  obtain ⟨part', hpart', -, hform', -⟩ :=
    membershipForm_iff_isBound hout hchain (List.mem_cons_of_mem _ List.mem_cons_self) (by decide)
  exact ⟨⟨out, hout⟩, ⟨part, hpart, hform.mpr rfl⟩,
    ⟨part', hpart', fun h => absurd (hform'.mp h) Bool.false_ne_true⟩⟩

/-- Not every membership has one of the forms: a number behind the operator has no brackets. -/
theorem Statement.not_membershipForm :
    ¬∀ (d : Dialect) (s : Statement) (out : Sql) (chain : List Condition) (c : Condition),
      s.compile d = .ok out → s.HasChain chain → c ∈ chain →
        takesList (d.operator c.comparison.operator) = true →
          ∃ part, compileComparison d c.comparison c.binding = .ok part ∧
            Membership.Form d c.comparison part := by
  intro hall
  let c : Condition := ⟨⟨"id", "*", .literal "5"⟩, .value .null, .and, 0, 0⟩
  let s : Statement := .select { draft := { sources := [⟨"t", none⟩], wheres := [c] } }
  obtain ⟨out, hout⟩ : ∃ out, s.compile Engine.sql.dialect = .ok out := ⟨_, rfl⟩
  obtain ⟨part, hpart, hform⟩ := hall Engine.sql.dialect s out [c] c hout
    (.own List.mem_cons_self) List.mem_cons_self (by decide)
  obtain rfl := Except.ok.inj hpart
  exact Membership.not_form_literal (c := c.comparison) (by decide) "5" hform

/-! ### A value and the list of it -/

namespace Condition

variable {c : Condition}

/-- What a condition is bound to matters to the chain only by the part that it becomes. -/
theorem compileConditions_congr {binding other : Binding}
    (h : compileComparison d c.comparison binding = compileComparison d c.comparison other)
    (before after : List Condition) :
    compileConditions d (before ++ { c with binding := binding } :: after) =
      compileConditions d (before ++ { c with binding := other } :: after) := by
  induction before with
  | nil => rw [List.nil_append, List.nil_append, compileConditions_cons, compileConditions_cons, h]
  | cons first before ih =>
    rw [List.cons_append, List.cons_append, compileConditions_cons, compileConditions_cons, ih]

/-- A chain of one condition. -/
theorem compileConditions_singleton {binding : Binding} {part : Sql}
    (h : compileComparison d c.comparison binding = .ok part) :
    compileConditions d [{ c with binding := binding }] =
      .ok [(c.connective, bracket c.opens c.closes part)] := by
  rw [compileConditions_cons, h]
  rfl

section

variable (hbound : c.comparison.operand.isBound = true)
  (hlist : takesList (d.operator c.comparison.operator) = true)

include hbound in
/-- NULL alone is tested for. -/
theorem compileConditions_null :
    compileConditions d [{ c with binding := .value .null }] =
      .ok [(c.connective, bracket c.opens c.closes (c.comparison.nullTest d))] :=
  compileConditions_singleton (compileComparison_value hbound .null)

include hbound hlist in
/-- A list of one value, NULL or not, has a placeholder in brackets. -/
theorem compileConditions_list_singleton (v : Value) :
    compileConditions d [{ c with binding := .list [v] }] =
      .ok [(c.connective, bracket c.opens c.closes
        (c.comparison.lhs d ++ (Sql.hole (c.comparison.operand.param d v)).parens))] :=
  compileConditions_singleton
    ((compileComparison_list hbound [v]).trans (Comparison.withList_cons hlist v []))

include hbound hlist in
/-- The test for NULL has no parameter, and the list has one. -/
theorem compileConditions_null_ne :
    compileConditions d [{ c with binding := .value .null }] ≠
      compileConditions d [{ c with binding := .list [.null] }] := by
  intro heq
  rw [compileConditions_null hbound, compileConditions_list_singleton hbound hlist] at heq
  have hparts := (Prod.mk.inj (List.singleton_inj.mp (Except.ok.inj heq))).2
  have hparams := congrArg Sql.params hparts
  rw [params_bracket, params_bracket] at hparams
  exact absurd hparams (List.cons_ne_nil _ []).symm

end

/-- **A value is compiled as the list of it, unless it is NULL**, in whatever chain the condition
stands. NULL alone becomes a test for it, which has no parameter, and in the list it is bound to a
placeholder like any other value. -/
theorem value_eq_list_iff (hbound : c.comparison.operand.isBound = true)
    (hlist : takesList (d.operator c.comparison.operator) = true) (v : Value) :
    ((∀ before after,
        compileConditions d (before ++ { c with binding := .value v } :: after) =
          compileConditions d (before ++ { c with binding := .list [v] } :: after)) ↔
      v.isNull = false) ∧
    compileConditions d [{ c with binding := .value .null }] =
      .ok [(c.connective, bracket c.opens c.closes (c.comparison.nullTest d))] ∧
    compileConditions d [{ c with binding := .list [.null] }] =
      .ok [(c.connective, bracket c.opens c.closes
        (c.comparison.lhs d ++ (Sql.hole (c.comparison.operand.param d .null)).parens))] := by
  refine ⟨⟨fun hall => ?_, fun hv before after => ?_⟩, compileConditions_null hbound,
    compileConditions_list_singleton hbound hlist .null⟩
  -- A chain of nothing but the condition tells the two apart.
  · cases v with
    | null => exact absurd (hall [] []) (compileConditions_null_ne hbound hlist)
    | _ => rfl
  · refine compileConditions_congr ?_ before after
    rw [compileComparison_value hbound, compileComparison_list hbound,
      Comparison.withValue_of_not_null hlist hv, Comparison.withList_cons hlist]
    rfl

/-- A pattern and NULL, with brackets of their own. -/
theorem value_eq_list_iff_pattern :
    let c : Condition := ⟨⟨"a", "!*", .bound true false⟩, .list [], .or, 1, 2⟩
    compileConditions Engine.mysql.dialect [{ c with binding := .value (.text "x") }] =
        compileConditions Engine.mysql.dialect [{ c with binding := .list [.text "x"] }] ∧
      compileConditions Engine.mysql.dialect [{ c with binding := .value .null }] ≠
        compileConditions Engine.mysql.dialect [{ c with binding := .list [.null] }] := by
  intro c
  have htext :=
    (value_eq_list_iff (d := Engine.mysql.dialect) (c := c) rfl (by decide) (.text "x")).1.mpr rfl
  exact ⟨htext [] [], compileConditions_null_ne rfl (by decide)⟩

/-- NULL is not compiled as the list of it. -/
theorem not_value_eq_list :
    ¬∀ (d : Dialect) (c : Condition) (v : Value), c.comparison.operand.isBound = true →
      takesList (d.operator c.comparison.operator) = true →
        compileConditions d [{ c with binding := .value v }] =
          compileConditions d [{ c with binding := .list [v] }] := by
  intro hall
  let c : Condition := ⟨⟨"a", "*", .bound false false⟩, .value .null, .and, 0, 0⟩
  exact compileConditions_null_ne (d := Engine.sql.dialect) (c := c) rfl (by decide)
    (hall Engine.sql.dialect c .null rfl (by decide))

end Condition

end SqlBuilder
