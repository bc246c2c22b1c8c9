import SqlBuilder.Proofs.Compile.Chain

/-!
# AND/OR trees

A chain is flat: each condition says how it is attached to the one before it, how many brackets open
in front of it and how many close behind it. What callers have in mind is a tree of conditions with
AND and OR at its nodes. They walk it from left to right, opening a bracket before every child that
is a node itself and closing it behind that child (`Tree.walk`). A node hands the connective of its
first leaf on to its first child, so brackets and connectives of many levels may come to sit on one
leaf.

Main statement, at the end: the chain that the walk writes compiles to the tree as one would write
it down (`Tree.compile_walk`), with the connective of a node between its children and brackets
around exactly those that are nodes. It is put together of two inductions over the tree. A walk
appends the conditions of the tree to the chain being written (`Tree.foldl_walk`). The conditions of
a tree compile to its parts (`Tree.isStretch_conditions`), where the brackets pending before the
tree stand in front of it, whatever its depth.
-/

namespace SqlBuilder

/-- A condition that is well formed, and what it is bound to. -/
structure Leaf where
  raw : String
  comparison : Comparison
  binding : Binding
  wellFormed : Comparison.read raw = .ok comparison

/-- A tree of conditions: a leaf, or at least two trees with a connective between any two. -/
inductive Tree where
  | leaf (leaf : Leaf)
  | node (connective : Connective) (first second : Tree) (rest : List Tree)

/-- The chain with one more bracket closing behind its last condition. -/
def closing (conditions : List Condition) : List Condition :=
  mapLast (fun c => { c with closes := c.closes + 1 }) conditions

namespace Statement

/-- The statement with conditions added to the chain being written, and with no bracket pending. -/
def extend (s : Statement) (conditions : List Condition) : Statement :=
  s.refocus { s.focus with wheres := s.focus.wheres ++ conditions, pending := 0 }

/-- What is added stands at the end of the chain being written. -/
theorem focus_extend (s : Statement) (conditions : List Condition) :
    (s.extend conditions).focus =
      { s.focus with wheres := s.focus.wheres ++ conditions, pending := 0 } :=
  s.focus_refocus _

/-- Conditions are added to those that were added. -/
theorem extend_extend (s : Statement) (conditions more : List Condition) :
    (s.extend conditions).extend more = s.extend (conditions ++ more) := by
  rw [extend, focus_extend, extend, refocus_refocus, extend, ← List.append_assoc]

/-- Where no bracket is pending, to add no condition changes nothing. -/
theorem extend_nil {s : Statement} (h : s.focus.pending = 0) : s.extend [] = s := by
  have hfocus : { s.focus with wheres := s.focus.wheres ++ [], pending := 0 } = s.focus := by
    rw [List.append_nil, ← h]
    cases s.focus
    rfl
  rw [extend, hfocus, refocus_focus]

end Statement

namespace Tree

/-- Whether the tree stands in brackets as a child of another. -/
def isNode : Tree → Bool
  | .leaf _ => false
  | .node _ _ _ _ => true

/-! ### The walk -/

/-- The calls for a child, given those that walk it. -/
def childCalls (t : Tree) (calls : List Draft.Step) : List Draft.Step :=
  if t.isNode then .openBrackets 1 :: calls ++ [.closeBrackets 1] else calls

mutual

/-- The calls that walk a tree. Its first leaf is attached by `lead`. -/
def walk (lead : Connective) : Tree → List Draft.Step
  | .leaf l => [.addCondition l.raw l.binding lead]
  | .node connective first second rest =>
    first.childCalls (walk lead first) ++ second.childCalls (walk connective second) ++
      walkAll connective rest

/-- The calls that walk trees which are all attached by a connective. -/
def walkAll (connective : Connective) : List Tree → List Draft.Step
  | [] => []
  | t :: ts => t.childCalls (walk connective t) ++ walkAll connective ts

end

/-! ### The tree written down -/

/-- A child, in brackets if it is a node. -/
def childSql (t : Tree) (sql : Sql) : Sql :=
  if t.isNode then sql.parens else sql

mutual

/-- The tree written down, given its leaves. -/
def written (part : Leaf → Sql) : Tree → Sql
  | .leaf l => part l
  | .node connective first second rest =>
    first.childSql (written part first) ++
      (connective.glue ++ second.childSql (written part second)) ++ writtenAll part connective rest

/-- Trees written down, each with a connective in front. -/
def writtenAll (part : Leaf → Sql) (connective : Connective) : List Tree → Sql
  | [] => .raw ""
  | t :: ts => (connective.glue ++ t.childSql (written part t)) ++ writtenAll part connective ts

end

mutual

/-- The leaves from left to right. -/
def leaves : Tree → List Leaf
  | .leaf l => [l]
  | .node _ first second rest => leaves first ++ leaves second ++ leavesAll rest

/-- The leaves of trees from left to right. -/
def leavesAll : List Tree → List Leaf
  | [] => []
  | t :: ts => leaves t ++ leavesAll ts

end

/-! ### The conditions of a tree -/

/-- The conditions of a child behind pending brackets, given those of it as a tree of its own. -/
def childConditions (t : Tree) (conditions : Nat → List Condition) (opens : Nat) :
    List Condition :=
  if t.isNode then closing (conditions (opens + 1)) else conditions opens

mutual

/-- The conditions of a tree behind pending brackets. Its first leaf is attached by `lead`. -/
def conditions (lead : Connective) (opens : Nat) : Tree → List Condition
  | .leaf l => [⟨l.comparison, l.binding, lead, opens, 0⟩]
  | .node connective first second rest =>
    first.childConditions (fun n => conditions lead n first) opens ++
      second.childConditions (fun n => conditions connective n second) 0 ++
      conditionsAll connective rest

/-- The conditions of trees which are all attached by a connective. -/
def conditionsAll (connective : Connective) : List Tree → List Condition
  | [] => []
  | t :: ts =>
    t.childConditions (fun n => conditions connective n t) 0 ++ conditionsAll connective ts

end

/-- A bracket is closed behind conditions, not in place of them. -/
theorem closing_ne_nil {conditions : List Condition} (h : conditions ≠ []) :
    closing conditions ≠ [] := by
  obtain ⟨front, c, rfl⟩ := (List.eq_nil_or_concat' conditions).resolve_left h
  rw [closing, mapLast_concat]
  exact List.append_ne_nil_of_right_ne_nil front (List.cons_ne_nil _ _)

/-- A tree has a condition, its first leaf. -/
theorem conditions_ne_nil (lead : Connective) : ∀ (t : Tree) (opens : Nat),
    t.conditions lead opens ≠ []
  | .leaf l, opens => List.cons_ne_nil _ _
  | .node connective first second rest, opens => by
    -- That is the first leaf of the first child, with its brackets or without.
    have hfirst : first.childConditions (fun n => conditions lead n first) opens ≠ [] := by
      unfold childConditions
      split
      · exact closing_ne_nil (conditions_ne_nil lead first (opens + 1))
      · exact conditions_ne_nil lead first opens
    rw [conditions, List.append_assoc]
    exact List.append_ne_nil_of_left_ne_nil hfirst _

/-! ### A walk appends the conditions of the tree -/

/-- Behind more than nothing a bracket closes at the last condition of what comes last. -/
theorem closeLast?_append {conditions : List Condition} (h : conditions ≠ [])
    (front : List Condition) :
    closeLast? 1 (front ++ conditions) = some (front ++ closing conditions) := by
  obtain ⟨init, c, rfl⟩ := (List.eq_nil_or_concat' conditions).resolve_left h
  rw [← List.append_assoc, closeLast?_concat, closing, mapLast_concat, List.append_assoc]

/-- The call for a leaf appends its condition and takes the pending brackets with it. -/
theorem applyCommon_leaf (l : Leaf) (lead : Connective) (s : Statement) :
    s.applyCommon (.addCondition l.raw l.binding lead) =
      s.extend [⟨l.comparison, l.binding, lead, s.focus.pending, 0⟩] := by
  have hstep : s.applyCommon (.addCondition l.raw l.binding lead) =
      s.refocus (s.focus.addCondition l.raw l.binding lead) :=
    Statement.applyCommon_eq_refocus fun _ => nofun
  rw [hstep, Draft.addCondition, Draft.condition, l.wellFormed]
  rfl

/-- A child, given what the walk of it does. -/
theorem foldl_childCalls {t : Tree} {calls : List Draft.Step} {conditions : Nat → List Condition}
    (hne : ∀ n, conditions n ≠ [])
    (h : ∀ s : Statement,
      calls.foldl Statement.applyCommon s = s.extend (conditions s.focus.pending))
    (s : Statement) : (t.childCalls calls).foldl Statement.applyCommon s =
      s.extend (t.childConditions conditions s.focus.pending) := by
  unfold childCalls childConditions
  cases t with
  | leaf l => exact h s
  | node connective first second rest =>
    change ((.openBrackets 1 :: calls) ++ [Draft.Step.closeBrackets 1]).foldl
      Statement.applyCommon s = s.extend (closing (conditions (s.focus.pending + 1)))
    -- The bracket is pending when the child begins, and closes behind its last condition.
    have hopen : s.applyCommon (.openBrackets 1) =
        s.refocus { s.focus with pending := s.focus.pending + 1 } :=
      Statement.applyCommon_eq_refocus fun _ => nofun
    have hchild : (calls.foldl Statement.applyCommon (s.applyCommon (.openBrackets 1))) =
        s.extend (conditions (s.focus.pending + 1)) := by
      rw [hopen, h, Statement.extend, Statement.focus_refocus, Statement.refocus_refocus]
      rfl
    have hwheres : (s.extend (conditions (s.focus.pending + 1))).focus.wheres =
        s.focus.wheres ++ conditions (s.focus.pending + 1) := by
      rw [Statement.focus_extend]
    rw [List.foldl_append, List.foldl_cons, List.foldl_nil, List.foldl_cons, hchild,
      Statement.applyCommon_eq_refocus, Draft.apply, Draft.closeBrackets, hwheres,
      closeLast?_append (hne _), Statement.extend, Statement.focus_refocus,
      Statement.refocus_refocus]
    · rfl
    · intro _ _
      rw [hwheres]
      exact List.append_ne_nil_of_right_ne_nil _ (hne _)

mutual

/-- **A walk appends the conditions of the tree**, behind the brackets that are pending. -/
theorem foldl_walk : ∀ (t : Tree) (lead : Connective) (s : Statement),
    (t.walk lead).foldl Statement.applyCommon s = s.extend (t.conditions lead s.focus.pending)
  | .leaf l, lead, s => applyCommon_leaf l lead s
  | .node connective first second rest, lead, s => by
    -- Only the first child meets brackets that were pending before; it takes all of them.
    have hpending (cs : List Condition) : (s.extend cs).focus.pending = 0 := by
      rw [Statement.focus_extend]
    rw [walk, List.foldl_append, List.foldl_append,
      foldl_childCalls (conditions_ne_nil lead first) (foldl_walk first lead) s,
      foldl_childCalls (conditions_ne_nil connective second) (foldl_walk second connective),
      hpending, Statement.extend_extend, foldl_walkAll rest connective (hpending _),
      Statement.extend_extend, conditions]

/-- Walks behind each other append the conditions of their trees. -/
theorem foldl_walkAll : ∀ (ts : List Tree) (connective : Connective) {s : Statement},
    s.focus.pending = 0 → (walkAll connective ts).foldl Statement.applyCommon s =
      s.extend (conditionsAll connective ts)
  | [], connective, s, h => (Statement.extend_nil h).symm
  | t :: ts, connective, s, h => by
    have hpending (cs : List Condition) : (s.extend cs).focus.pending = 0 := by
      rw [Statement.focus_extend]
    rw [walkAll, List.foldl_append,
      foldl_childCalls (conditions_ne_nil connective t) (foldl_walk t connective) s, h,
      foldl_walkAll ts connective (hpending _), Statement.extend_extend, conditionsAll]

end

end Tree

/-! ### Conditions behind each other -/

section

variable {d : Dialect}

/-- Conditions behind conditions compile exactly if both do, to the parts of both. -/
theorem compileConditions_append {conditions more : List Condition}
    {parts : List (Connective × Sql)} :
    compileConditions d (conditions ++ more) = .ok parts ↔
      ∃ left right, compileConditions d conditions = .ok left ∧
        compileConditions d more = .ok right ∧ parts = left ++ right := by
  induction conditions generalizing parts with
  | nil =>
    refine ⟨fun h => ⟨[], parts, rfl, h, rfl⟩, ?_⟩
    rintro ⟨left, right, hleft, hright, rfl⟩
    obtain rfl := Except.ok.inj hleft
    exact hright
  | cons c conditions ih =>
    rw [List.cons_append, compileConditions_cons, compileConditions_cons]
    constructor
    · intro h
      obtain ⟨part, hpart, h⟩ := exists_of_bind_eq_ok h
      obtain ⟨rest, hrest, h⟩ := exists_of_bind_eq_ok h
      obtain ⟨left, right, hleft, hright, rfl⟩ := ih.mp hrest
      obtain rfl := Except.ok.inj h
      exact ⟨(c.connective, bracket c.opens c.closes part) :: left, right,
        by rw [hpart, hleft]; rfl, hright, rfl⟩
    · rintro ⟨left, right, hleft, hright, rfl⟩
      obtain ⟨part, hpart, hleft⟩ := exists_of_bind_eq_ok hleft
      obtain ⟨rest, hrest, hleft⟩ := exists_of_bind_eq_ok hleft
      obtain rfl := Except.ok.inj hleft
      rw [hpart, ih.mpr ⟨rest, right, hrest, hright, rfl⟩]
      rfl

/-- Parts that are attached to others are written behind them. -/
theorem linkSql_append (parts more : List (Connective × Sql)) :
    linkSql (parts ++ more) = linkSql parts ++ linkSql more := by
  induction parts with
  | nil => exact (Sql.raw_empty_append _).symm
  | cons part parts ih =>
    rw [List.cons_append, linkSql, linkSql, ih]
    exact (Sql.append_assoc ..).symm

/-- So are parts that are attached to a chain, which is why the chain may not be empty. -/
theorem chainSql_append {parts : List (Connective × Sql)} (h : parts ≠ [])
    (more : List (Connective × Sql)) :
    chainSql (parts ++ more) = chainSql parts ++ linkSql more := by
  cases parts with
  | nil => exact absurd rfl h
  | cons part parts => rw [List.cons_append, chainSql, chainSql, linkSql_append, Sql.append_assoc]

/-- Brackets that are opened one behind the other. -/
def opening (n : Nat) : Sql :=
  .raw (String.ofList (List.replicate n '('))

/-- No bracket. -/
theorem opening_zero : opening 0 = .raw "" := rfl

/-- A bracket that is opened more stands next to the condition. -/
theorem opening_succ (n : Nat) : opening (n + 1) = opening n ++ .raw "(" := by
  rw [opening, List.replicate_succ', String.ofList_append]
  rfl

/-- A bracket that is closed more stands at the end. -/
theorem bracket_closes_succ (opens closes : Nat) (part : Sql) :
    bracket opens (closes + 1) part = bracket opens closes part ++ .raw ")" := by
  rw [bracket, bracket, List.replicate_succ', String.ofList_append, Sql.raw_append,
    ← Sql.append_assoc]

/-- The conditions compile to `sql` if they begin a chain, and to the same with the glue of `lead`
in front if they are attached to one. -/
structure IsStretch (d : Dialect) (lead : Connective) (conditions : List Condition) (sql : Sql) :
    Prop where
  exists_parts : ∃ parts, compileConditions d conditions = .ok parts ∧ parts ≠ [] ∧
    chainSql parts = sql ∧ linkSql parts = lead.glue ++ sql

/-- The conditions compile to `sql` behind others. -/
structure IsLinked (d : Dialect) (conditions : List Condition) (sql : Sql) : Prop where
  exists_parts : ∃ parts, compileConditions d conditions = .ok parts ∧ linkSql parts = sql

/-- A stretch behind others is its text with its glue in front. -/
theorem IsStretch.linked {lead : Connective} {conditions : List Condition} {sql : Sql}
    (h : IsStretch d lead conditions sql) : IsLinked d conditions (lead.glue ++ sql) := by
  obtain ⟨parts, hparts, -, -, hlink⟩ := h
  exact ⟨parts, hparts, hlink⟩

/-- Stretches that are attached stand one behind the other. -/
theorem IsLinked.append {conditions more : List Condition} {sql others : Sql}
    (h : IsLinked d conditions sql) (h' : IsLinked d more others) :
    IsLinked d (conditions ++ more) (sql ++ others) := by
  obtain ⟨parts, hparts, rfl⟩ := h
  obtain ⟨rest, hrest, rfl⟩ := h'
  exact ⟨parts ++ rest, compileConditions_append.mpr ⟨parts, rest, hparts, hrest, rfl⟩,
    linkSql_append parts rest⟩

/-- A stretch with others attached to it is a stretch, and attached as its first condition is. -/
theorem IsStretch.append {lead : Connective} {conditions more : List Condition} {sql others : Sql}
    (h : IsStretch d lead conditions sql) (h' : IsLinked d more others) :
    IsStretch d lead (conditions ++ more) (sql ++ others) := by
  obtain ⟨parts, hparts, hne, hchain, hlink⟩ := h
  obtain ⟨rest, hrest, rfl⟩ := h'
  refine ⟨parts ++ rest, compileConditions_append.mpr ⟨parts, rest, hparts, hrest, rfl⟩,
    List.append_ne_nil_of_left_ne_nil hne rest, ?_, ?_⟩
  · rw [chainSql_append hne, hchain]
  · rw [linkSql_append, hlink, Sql.append_assoc]

/-- A condition that compiles is a stretch. -/
theorem isStretch_singleton {c : Condition} {part : Sql}
    (h : compileComparison d c.comparison c.binding = .ok part) :
    IsStretch d c.connective [c] (bracket c.opens c.closes part) := by
  refine ⟨[(c.connective, bracket c.opens c.closes part)], ?_, List.cons_ne_nil _ _, ?_, ?_⟩
  · rw [compileConditions_cons, h]
    rfl
  · exact Sql.append_raw_empty _
  · exact Sql.append_raw_empty _

/-- A stretch with a bracket closing behind its last condition. -/
theorem IsStretch.closing {lead : Connective} {conditions : List Condition} {sql : Sql}
    (h : IsStretch d lead conditions sql) :
    IsStretch d lead (closing conditions) (sql ++ .raw ")") := by
  obtain ⟨parts, hparts, hne, rfl, hlink⟩ := h
  rcases List.eq_nil_or_concat' conditions with rfl | ⟨front, c, rfl⟩
  · exact absurd (Except.ok.inj hparts).symm hne
  · -- The last part gets the bracket, and it is at the end of the text.
    obtain ⟨left, right, hleft, hright, rfl⟩ := compileConditions_append.mp hparts
    rw [compileConditions_cons] at hright
    obtain ⟨part, hpart, hright⟩ := exists_of_bind_eq_ok hright
    obtain rfl := Except.ok.inj hright
    -- The condition itself compiles as before, with one bracket more behind it.
    let c' : Condition := { c with closes := c.closes + 1 }
    obtain ⟨last, hlast, hlast_ne, hlast_chain, hlast_link⟩ :
        IsStretch d c.connective [c'] (bracket c.opens (c.closes + 1) part) :=
      isStretch_singleton (c := c') hpart
    have hlinked : linkSql last =
        linkSql [(c.connective, bracket c.opens c.closes part)] ++ .raw ")" := by
      rw [hlast_link, bracket_closes_succ, linkSql, linkSql, Sql.append_raw_empty, Sql.append_assoc]
    refine ⟨left ++ last, ?_, List.append_ne_nil_of_right_ne_nil left hlast_ne, ?_, ?_⟩
    · rw [SqlBuilder.closing, mapLast_concat]
      exact compileConditions_append.mpr ⟨left, last, hleft, hlast, rfl⟩
    -- The last condition may be the first one too, and then it has no glue.
    · by_cases hempty : left = []
      · rw [hempty, List.nil_append, List.nil_append, hlast_chain, bracket_closes_succ, chainSql,
          linkSql, Sql.append_raw_empty]
      · rw [chainSql_append hempty, chainSql_append hempty, hlinked, Sql.append_assoc]
    · rw [← Sql.append_assoc, ← hlink, linkSql_append, linkSql_append, hlinked, Sql.append_assoc]

end

/-! ### The conditions of a tree compile to its parts -/

namespace Tree

section

variable {d : Dialect} {part : Leaf → Sql}

/-- A child, given its conditions as a tree of its own. -/
theorem isStretch_childConditions {t : Tree} {lead : Connective}
    {conditions : Nat → List Condition} {sql : Sql}
    (h : ∀ n, IsStretch d lead (conditions n) (opening n ++ sql)) (opens : Nat) :
    IsStretch d lead (t.childConditions conditions opens) (opening opens ++ t.childSql sql) := by
  unfold childConditions childSql
  split
  -- The bracket of a node is the innermost of those that open, and the last that closes.
  · have hclosed := (h (opens + 1)).closing
    rw [opening_succ, Sql.append_assoc, Sql.append_assoc, ← Sql.append_assoc (.raw "(")] at hclosed
    exact hclosed
  · exact h opens

mutual

/-- **The conditions of a tree compile to its parts**, behind the brackets that are pending. -/
theorem isStretch_conditions : ∀ (t : Tree) (lead : Connective) (opens : Nat),
    (∀ l ∈ t.leaves, compileComparison d l.comparison l.binding = .ok (part l)) →
      IsStretch d lead (t.conditions lead opens) (opening opens ++ t.written part)
  | .leaf l, lead, opens, h => by
    have hleaf := isStretch_singleton (c := ⟨l.comparison, l.binding, lead, opens, 0⟩)
      (h l List.mem_cons_self)
    have hbracket : bracket opens 0 (part l) = opening opens ++ part l := Sql.append_raw_empty _
    rw [hbracket] at hleaf
    exact hleaf
  | .node connective first second rest, lead, opens, h => by
    rw [leaves, List.append_assoc, List.forall_mem_append, List.forall_mem_append] at h
    obtain ⟨hfirst, hsecond, hrest⟩ := h
    -- The first child is where the tree begins; the others are attached by the connective of the
    -- node.
    have hf := isStretch_childConditions (t := first)
      (fun n => isStretch_conditions first lead n hfirst) opens
    have hs := isStretch_childConditions (t := second)
      (fun n => isStretch_conditions second connective n hsecond) 0
    have hall := (hf.append hs.linked).append (isLinked_conditionsAll rest connective hrest)
    rw [opening_zero, Sql.raw_empty_append, Sql.append_assoc, Sql.append_assoc] at hall
    rw [conditions, written, Sql.append_assoc]
    exact hall

/-- The conditions of trees that are attached compile to their parts. -/
theorem isLinked_conditionsAll : ∀ (ts : List Tree) (connective : Connective),
    (∀ l ∈ leavesAll ts, compileComparison d l.comparison l.binding = .ok (part l)) →
      IsLinked d (conditionsAll connective ts) (writtenAll part connective ts)
  | [], _, _ => ⟨[], rfl, rfl⟩
  | t :: ts, connective, h => by
    rw [leavesAll, List.forall_mem_append] at h
    have ht := isStretch_childConditions (t := t)
      (fun n => isStretch_conditions t connective n h.1) 0
    rw [opening_zero, Sql.raw_empty_append] at ht
    exact ht.linked.append (isLinked_conditionsAll ts connective h.2)

end

/-- Brackets bind nothing. -/
theorem params_childSql (t : Tree) (sql : Sql) : (t.childSql sql).params = sql.params := by
  unfold childSql
  split
  · exact List.append_nil _
  · rfl

mutual

/-- The parameters of a tree are those of its leaves from left to right. -/
theorem params_written (part : Leaf → Sql) : ∀ t : Tree,
    (t.written part).params = t.leaves.flatMap fun l => (part l).params
  | .leaf l => (List.flatMap_singleton ..).symm
  | .node connective first second rest => by
    rw [written, leaves, List.flatMap_append, List.flatMap_append, Sql.params_append,
      Sql.params_append, Sql.params_append, params_childSql, params_childSql,
      params_written part first, params_written part second, params_writtenAll part connective rest]
    rfl

/-- The parameters of trees are those of their leaves from left to right. -/
theorem params_writtenAll (part : Leaf → Sql) (connective : Connective) : ∀ ts : List Tree,
    (writtenAll part connective ts).params = (leavesAll ts).flatMap fun l => (part l).params
  | [] => rfl
  | t :: ts => by
    rw [writtenAll, leavesAll, List.flatMap_append, Sql.params_append, Sql.params_append,
      params_childSql, params_written part t, params_writtenAll part connective ts]
    rfl

end

/-- **A tree compiles to itself**: the calls that walk a tree, made when the chain being written is
empty and no bracket is pending, leave everything else of the statement alone and write a chain
which compiles to the tree as it is written down, with the parameters of the leaves from left to
right; and it stands so in whatever the statement compiles to. -/
theorem compile_walk {t : Tree}
    (hpart : ∀ l ∈ t.leaves, compileComparison d l.comparison l.binding = .ok (part l))
    (lead : Connective) {s : Statement} (hempty : s.focus.wheres = [])
    (hpending : s.focus.pending = 0) :
    ∃ conditions parts,
      (t.walk lead).foldl Statement.applyCommon s =
          s.refocus { s.focus with wheres := conditions } ∧
        compileConditions d conditions = .ok parts ∧
        chainSql parts = t.written part ∧
        (t.written part).params = t.leaves.flatMap (fun l => (part l).params) ∧
        ∀ out, ((t.walk lead).foldl Statement.applyCommon s).compile d = .ok out →
          (t.written part).text.toList <:+: out.text.toList := by
  obtain ⟨parts, hparts, -, hchain, -⟩ := isStretch_conditions t lead 0 hpart
  rw [opening_zero, Sql.raw_empty_append] at hchain
  have hwalk : (t.walk lead).foldl Statement.applyCommon s =
      s.refocus { s.focus with wheres := t.conditions lead 0 } := by
    rw [foldl_walk, hpending, Statement.extend, hempty, List.nil_append, ← hpending]
  refine ⟨t.conditions lead 0, parts, hwalk, hparts, hchain, params_written part t, ?_⟩
  intro out hout
  rw [hwalk] at hout
  -- The chain being written is one of the statement's own, so it stands in the text.
  have hown : (s.refocus { s.focus with wheres := t.conditions lead 0 }).HasChain
      (t.conditions lead 0) := by
    refine .own ?_
    rw [Statement.chains_eq, Statement.focus_refocus]
    exact List.mem_concat_self
  rw [Statement.eq_sql_rendering hout, ← hchain, (compileConditions_eq_items d _ hparts).2.2]
  exact Rendering.infix_text hown.isInfix

end

/-- The field `field` compared with a number. -/
def numberLeaf (field : String) (n : Int)
    (h : Comparison.read field = .ok ⟨field, "=", .bound false false⟩) : Leaf :=
  ⟨field, ⟨field, "=", .bound false false⟩, .value (.int n), h⟩

/-- A tree that is two levels deep on its left and on its right. -/
def nestedTree : Tree :=
  .node .and
    (.node .or
      (.node .and (.leaf (numberLeaf "a" 1 rfl)) (.leaf (numberLeaf "b" 2 rfl)) [])
      (.leaf (numberLeaf "c" 3 rfl)) [])
    (.node .or (.leaf (numberLeaf "d" 4 rfl))
      (.node .and (.leaf (numberLeaf "e" 5 rfl)) (.leaf (numberLeaf "f" 6 rfl)) []) []) []

/-- A select to which a join was just added. -/
def joinedSelect : Statement :=
  .select (.build [
    .common (.addSources (.texts ["t"])),
    .common (.addCondition "z" (.value (.int 0)) .and),
    .addJoin "u" .left])

theorem compile_walk_nested :
    ∃ conditions parts,
      (nestedTree.walk .or).foldl Statement.applyCommon joinedSelect =
          joinedSelect.refocus { joinedSelect.focus with wheres := conditions } ∧
        compileConditions Engine.sql.dialect conditions = .ok parts ∧
        (chainSql parts).text = "((\"a\" = ? AND \"b\" = ?) OR \"c\" = ?) AND " ++
          "(\"d\" = ? OR (\"e\" = ? AND \"f\" = ?))" ∧
        (chainSql parts).params = [.int 1, .int 2, .int 3, .int 4, .int 5, .int 6] := by
  let part (l : Leaf) : Sql :=
    Rendering.sql Engine.sql.dialect (comparisonItems Engine.sql.dialect l.comparison l.binding)
  have hleaves : nestedTree.leaves = [numberLeaf "a" 1 rfl, numberLeaf "b" 2 rfl,
    numberLeaf "c" 3 rfl, numberLeaf "d" 4 rfl, numberLeaf "e" 5 rfl, numberLeaf "f" 6 rfl] := rfl
  have hpart : ∀ l ∈ nestedTree.leaves,
      compileComparison Engine.sql.dialect l.comparison l.binding = .ok (part l) := by
    intro l hl
    rw [hleaves] at hl
    simp only [List.mem_cons, List.not_mem_nil, or_false] at hl
    rcases hl with rfl | rfl | rfl | rfl | rfl | rfl <;> rfl
  obtain ⟨conditions, parts, hwalk, hparts, hchain, hparams, -⟩ :=
    compile_walk hpart .or (s := joinedSelect) rfl rfl
  refine ⟨conditions, parts, hwalk, hparts, ?_, ?_⟩
  · rw [hchain]
    decide
  · rw [hchain, hparams]
    rfl

end Tree

end SqlBuilder
