import SqlBuilder.Proofs.Compile.Refinement
import SqlBuilder.Proofs.Statement.Focus

/-!
# The condition chains of a statement

A statement has chains of conditions of its own, and so has every select that one of its conditions
is bound to, at any depth. `Statement.HasChain` is about all of them at once: a chain is one of the
statement's own, or one of a select that a condition of such a chain is bound to.

What holds of a chain because it is part of the statement: its rendering stands in that of the
statement (`Statement.HasChain.isInfix`), so its text stands in the compiled text, and it compiles
if the statement does (`Statement.HasChain.compiles`). A fact about a chain that rests on the same
fact about the chains of the selects in it is proved by `forall_of_bound`.
-/

namespace SqlBuilder

/-- The condition has a placeholder for a select. With a literal operand there is none, whatever
the condition is bound to. -/
def Condition.BoundTo (c : Condition) (q : Select) : Prop :=
  c.comparison.operand.isBound = true ∧ c.binding = .query q

/-- The chains of a statement and of the selects inside of it. -/
inductive Statement.HasChain (s : Statement) : List Condition → Prop
  | own {chain : List Condition} (h : chain ∈ s.chains) : HasChain s chain
  | inner {outer chain : List Condition} {c : Condition} {q : Select} (houter : HasChain s outer)
      (hc : c ∈ outer) (hq : c.BoundTo q) (h : chain ∈ q.chains) : HasChain s chain

/-! ### Induction on the depth -/

/-- A chain is smaller than the select that has it. -/
theorem Select.sizeOf_lt_of_mem_chains {q : Select} {chain : List Condition}
    (h : chain ∈ q.chains) : sizeOf chain < sizeOf q := by
  rcases q with
    ⟨⟨sources, wheres, pending, error?⟩, fields, distinct, joins, window?, sorts, groups⟩
  rw [Select.mk.sizeOf_spec, Draft.mk.sizeOf_spec]
  rcases List.mem_cons.mp h with rfl | h
  · omega
  · obtain ⟨⟨source, kind, conditions⟩, hj, rfl⟩ := List.mem_map.mp h
    have hsize : sizeOf (Join.mk source kind conditions) < sizeOf joins := List.sizeOf_lt_of_mem hj
    rw [Join.mk.sizeOf_spec] at hsize
    change sizeOf conditions < _
    omega

/-- A select is smaller than the condition that is bound to it. -/
theorem Condition.sizeOf_lt_of_boundTo {c : Condition} {q : Select} (h : c.BoundTo q) :
    sizeOf q < sizeOf c := by
  rcases c with ⟨comparison, binding, connective, opens, closes⟩
  obtain rfl : binding = .query q := h.2
  rw [Condition.mk.sizeOf_spec, Binding.query.sizeOf_spec]
  omega

/-- A property of chains that a chain has if the chains of all selects in it have it. -/
theorem forall_of_bound {p : List Condition → Prop}
    (h : ∀ chain, (∀ c ∈ chain, ∀ q, c.BoundTo q → ∀ inner ∈ q.chains, p inner) → p chain)
    (chain : List Condition) : p chain :=
  h chain fun c hc q hq inner hinner =>
    -- From a chain to one of its conditions, to the select in it, to a chain of that.
    have : sizeOf inner < sizeOf chain :=
      Nat.lt_trans (Select.sizeOf_lt_of_mem_chains hinner)
        (Nat.lt_trans (Condition.sizeOf_lt_of_boundTo hq) (List.sizeOf_lt_of_mem hc))
    forall_of_bound h inner
termination_by sizeOf chain

/-! ### Chains in the rendering -/

section

variable (d : Dialect)

/-- What a clause holds stands in it. -/
theorem infix_clauseItems (keyword : Item) (body : List Item) :
    body <:+: clauseItems keyword body := by
  cases body with
  | nil => exact List.nil_infix
  | cons x xs => exact (List.suffix_cons keyword (x :: xs)).isInfix

/-- A chain that is attached to something is the chain with its glue in front. -/
theorem linkItems_cons (c : Condition) (conditions : List Condition) :
    linkItems d (c :: conditions) = glueItem c.connective :: chainItems d (c :: conditions) := by
  cases c
  rfl

/-- A chain is its first condition between brackets, and the others attached to it. -/
theorem chainItems_cons (c : Condition) (conditions : List Condition) :
    chainItems d (c :: conditions) =
      bracketItems c.opens c.closes (comparisonItems d c.comparison c.binding) ++
        linkItems d conditions := by
  cases c
  rfl

/-- A chain stands in what it is when it is attached. -/
theorem chainItems_infix_linkItems (conditions : List Condition) :
    chainItems d conditions <:+: linkItems d conditions := by
  cases conditions with
  | nil => exact List.nil_infix
  | cons c conditions =>
    rw [linkItems_cons]
    exact (List.suffix_cons _ _).isInfix

/-- A part stands between its brackets. -/
theorem infix_bracketItems (opens closes : Nat) (part : List Item) :
    part <:+: bracketItems opens closes part :=
  List.infix_append [_] part [_]

/-- Every comparison of a chain stands in it. -/
theorem comparisonItems_infix_chainItems {c : Condition} {conditions : List Condition}
    (h : c ∈ conditions) :
    comparisonItems d c.comparison c.binding <:+: chainItems d conditions := by
  induction conditions with
  | nil => cases h
  | cons first conditions ih =>
    rw [chainItems_cons]
    rcases List.mem_cons.mp h with rfl | h
    · exact (infix_bracketItems _ _ _).trans (List.prefix_append _ _).isInfix
    · exact ((ih h).trans (chainItems_infix_linkItems d conditions)).trans
        (List.suffix_append _ _).isInfix

/-- A comparison with a select has the select in brackets. -/
theorem comparisonItems_of_boundTo {c : Condition} {q : Select} (h : c.BoundTo q) :
    comparisonItems d c.comparison c.binding =
      c.comparison.leftItems ++ parenItems (q.rendering d) := by
  rcases c with ⟨⟨field, operator, operand⟩, binding, connective, opens, closes⟩
  obtain ⟨hbound, rfl⟩ : operand.isBound = true ∧ binding = .query q := h
  cases operand with
  | literal token => cases hbound
  | bound before after => rfl

/-- A select stands in the comparison with it. -/
theorem rendering_infix_comparisonItems {c : Condition} {q : Select} (h : c.BoundTo q) :
    q.rendering d <:+: comparisonItems d c.comparison c.binding := by
  rw [comparisonItems_of_boundTo d h]
  exact (List.infix_append [_] (q.rendering d) [_]).trans (List.suffix_append _ _).isInfix

/-- The chain of a join stands in the joins. -/
theorem chainItems_infix_joinsItems {j : Join} {joins : List Join} (h : j ∈ joins) :
    chainItems d j.conditions <:+: joinsItems d joins := by
  induction joins with
  | nil => cases h
  | cons first joins ih =>
    rcases first with ⟨source, kind, conditions⟩
    rw [joinsItems]
    rcases List.mem_cons.mp h with rfl | h
    · exact ((infix_clauseItems _ _).trans (List.suffix_append _ _).isInfix).trans
        (List.prefix_append _ _).isInfix
    · exact (ih h).trans (List.suffix_append _ _).isInfix

/-- The chains of a select stand in it. -/
theorem Select.chainItems_infix_rendering {s : Select} {chain : List Condition}
    (h : chain ∈ s.chains) : chainItems d chain <:+: s.rendering d := by
  rcases s with
    ⟨⟨sources, wheres, pending, error?⟩, fields, distinct, joins, window?, sorts, groups⟩
  rw [Select.rendering]
  -- The clauses behind the joins and the WHERE clause do not matter.
  rcases List.mem_cons.mp h with rfl | h
  · refine List.IsInfix.trans ?_ (List.prefix_append _ _).isInfix
    refine List.IsInfix.trans ?_ (List.prefix_append _ _).isInfix
    refine List.IsInfix.trans ?_ (List.prefix_append _ _).isInfix
    exact (infix_clauseItems _ _).trans (List.suffix_append _ _).isInfix
  · obtain ⟨j, hj, rfl⟩ := List.mem_map.mp h
    refine List.IsInfix.trans ?_ (List.prefix_append _ _).isInfix
    refine List.IsInfix.trans ?_ (List.prefix_append _ _).isInfix
    refine List.IsInfix.trans ?_ (List.prefix_append _ _).isInfix
    refine List.IsInfix.trans ?_ (List.prefix_append _ _).isInfix
    exact (chainItems_infix_joinsItems d hj).trans (List.suffix_append _ _).isInfix

/-- The chains of a statement stand in it. -/
theorem Statement.chainItems_infix_rendering {s : Statement} {chain : List Condition}
    (h : chain ∈ s.chains) : chainItems d chain <:+: s.rendering d := by
  cases s with
  | select s => exact Select.chainItems_infix_rendering d h
  | write w =>
    obtain rfl := List.mem_singleton.mp h
    rw [Statement.rendering, Write.rendering]
    -- An INSERT writes no conditions, but then it has none.
    split
    · exact (infix_clauseItems _ _).trans (List.suffix_append _ _).isInfix
    · next hupdate =>
      rw [Write.wheres_eq_nil hupdate]
      exact List.nil_infix
  | delete r =>
    obtain rfl := List.mem_singleton.mp h
    exact (infix_clauseItems _ _).trans (List.suffix_append _ _).isInfix

variable {d} {s : Statement} {chain : List Condition}

/-- A chain is inside one of the statement's own. -/
theorem Statement.HasChain.exists_own (h : s.HasChain chain) :
    ∃ own ∈ s.chains, chainItems d chain <:+: chainItems d own := by
  induction h with
  | own h => exact ⟨_, h, List.infix_refl _⟩
  | inner _ hc hq h ih =>
    obtain ⟨own, hown, houter⟩ := ih
    -- From the inside: the chain in its select, in the comparison, in the outer chain, in one of
    -- the statement's own.
    have hselect := (Select.chainItems_infix_rendering d h).trans
      (rendering_infix_comparisonItems d hq)
    exact ⟨own, hown, (hselect.trans (comparisonItems_infix_chainItems d hc)).trans houter⟩

/-- **A chain stands in its statement.** -/
theorem Statement.HasChain.isInfix (h : s.HasChain chain) :
    chainItems d chain <:+: s.rendering d := by
  obtain ⟨own, hown, hinside⟩ := h.exists_own (d := d)
  exact hinside.trans (Statement.chainItems_infix_rendering d hown)

end

namespace Rendering

/-- The text of items behind others. -/
theorem toList_text_append (d : Dialect) (items others : List Item) :
    (text d (items ++ others)).toList = (text d items).toList ++ (text d others).toList := by
  have h : text d (items ++ others) = text d items ++ text d others :=
    congrArg Sql.text (sql_append d items others)
  rw [h, String.toList_append]

/-- What stands in a rendering stands in its text. -/
theorem infix_text {d : Dialect} {items others : List Item} (h : items <:+: others) :
    (text d items).toList <:+: (text d others).toList := by
  obtain ⟨before, after, rfl⟩ := h
  rw [toList_text_append, toList_text_append]
  exact List.infix_append ..

end Rendering

/-! ### Chains that compile -/

section

variable {d : Dialect}

/-- Only a statement without an error gets past the first check. -/
theorem eq_none_of_raise {error? : Option Error} {u : Unit} (h : Error.raise error? = .ok u) :
    error? = none := by
  cases error? with
  | none => rfl
  | some e => cases h

/-- Of joins that compile, each chain does. -/
theorem exists_parts_of_compileJoins {joins : List Join} {clauses : List Sql}
    (h : compileJoins d joins = .ok clauses) {j : Join} (hj : j ∈ joins) :
    ∃ parts, compileConditions d j.conditions = .ok parts := by
  induction joins generalizing clauses with
  | nil => cases hj
  | cons first joins ih =>
    rw [compileJoins_cons] at h
    obtain ⟨_, -, h⟩ := exists_of_bind_eq_ok h
    obtain ⟨parts, hparts, h⟩ := exists_of_bind_eq_ok h
    obtain ⟨rest, hrest, -⟩ := exists_of_bind_eq_ok h
    rcases List.mem_cons.mp hj with rfl | hj
    · exact ⟨parts, hparts⟩
    · exact ih hrest hj

/-- A select that compiles has no error in it, and its chains compile. -/
theorem Select.chains_of_compile {s : Select} {out : Sql} (h : s.compile d = .ok out) :
    s.draft.error? = none ∧ ∀ chain ∈ s.chains, ∃ parts, compileConditions d chain = .ok parts := by
  rw [Select.compile_eq] at h
  obtain ⟨_, hraise, h⟩ := exists_of_bind_eq_ok h
  obtain ⟨clauses, hjoins, h⟩ := exists_of_bind_eq_ok h
  obtain ⟨parts, hparts, -⟩ := exists_of_bind_eq_ok h
  refine ⟨eq_none_of_raise hraise, fun chain hchain => ?_⟩
  rcases List.mem_cons.mp hchain with rfl | hchain
  · exact ⟨parts, hparts⟩
  · obtain ⟨j, hj, rfl⟩ := List.mem_map.mp hchain
    exact exists_parts_of_compileJoins hjoins hj

/-- A statement that compiles has no error in it, and its own chains compile. -/
theorem Statement.chains_of_compile {s : Statement} {out : Sql} (h : s.compile d = .ok out) :
    s.draft.error? = none ∧ ∀ chain ∈ s.chains, ∃ parts, compileConditions d chain = .ok parts := by
  cases s with
  | select s => exact Select.chains_of_compile h
  | write w =>
    have hraise := exists_of_bind_eq_ok (show w.compile d = .ok out from h)
    obtain ⟨_, hraise, -⟩ := hraise
    refine ⟨eq_none_of_raise hraise, fun chain hchain => ?_⟩
    obtain rfl := List.mem_singleton.mp hchain
    obtain ⟨first, rest, -, h⟩ := Write.exists_first_of_compile h
    -- An INSERT has an empty chain, which always compiles.
    by_cases hupdate : w.isUpdate = true
    · rw [if_pos hupdate] at h
      obtain ⟨_, -, h⟩ := exists_of_bind_eq_ok h
      obtain ⟨parts, hparts, -⟩ := exists_of_bind_eq_ok h
      exact ⟨parts, hparts⟩
    · rw [Write.wheres_eq_nil hupdate]
      exact ⟨[], rfl⟩
  | delete r =>
    obtain ⟨_, hraise, h⟩ := exists_of_bind_eq_ok h
    obtain ⟨_, -, h⟩ := exists_of_bind_eq_ok h
    obtain ⟨_, -, h⟩ := exists_of_bind_eq_ok h
    obtain ⟨parts, hparts, -⟩ := exists_of_bind_eq_ok h
    refine ⟨eq_none_of_raise hraise, fun chain hchain => ?_⟩
    obtain rfl := List.mem_singleton.mp hchain
    exact ⟨parts, hparts⟩

/-- Every condition of a chain that compiles has its part. -/
theorem exists_part_of_compileConditions {conditions : List Condition}
    {parts : List (Connective × Sql)} (h : compileConditions d conditions = .ok parts)
    {c : Condition} (hc : c ∈ conditions) :
    ∃ part, compileComparison d c.comparison c.binding = .ok part := by
  induction conditions generalizing parts with
  | nil => cases hc
  | cons first conditions ih =>
    rw [compileConditions_cons] at h
    obtain ⟨part, hpart, h⟩ := exists_of_bind_eq_ok h
    obtain ⟨rest, hrest, -⟩ := exists_of_bind_eq_ok h
    rcases List.mem_cons.mp hc with rfl | hc
    · exact ⟨part, hpart⟩
    · exact ih hrest hc

/-- The select that a condition of a chain is bound to compiles if the chain does. -/
theorem Select.exists_of_compileConditions {conditions : List Condition}
    {parts : List (Connective × Sql)} (h : compileConditions d conditions = .ok parts)
    {c : Condition} (hc : c ∈ conditions) {q : Select} (hq : c.BoundTo q) :
    ∃ out, q.compile d = .ok out := by
  obtain ⟨part, hpart⟩ := exists_part_of_compileConditions h hc
  rcases c with ⟨⟨field, operator, operand⟩, binding, connective, opens, closes⟩
  obtain ⟨hbound, rfl⟩ : operand.isBound = true ∧ binding = .query q := hq
  cases operand with
  | literal token => cases hbound
  | bound before after =>
    obtain ⟨out, hout, -⟩ := exists_of_bind_eq_ok hpart
    exact ⟨out, hout⟩

/-- **A chain of a statement that compiles** compiles too. -/
theorem Statement.HasChain.compiles {s : Statement} {chain : List Condition} {out : Sql}
    (hchain : s.HasChain chain) (h : s.compile d = .ok out) :
    ∃ parts, compileConditions d chain = .ok parts := by
  -- From the outside: an inner select compiles because the chain around it does.
  induction hchain with
  | own hchain => exact (Statement.chains_of_compile h).2 _ hchain
  | inner _ hc hq hchain ih =>
    obtain ⟨parts, hparts⟩ := ih
    obtain ⟨inner, hinner⟩ := Select.exists_of_compileConditions hparts hc hq
    exact (Select.chains_of_compile hinner).2 _ hchain

end

end SqlBuilder
