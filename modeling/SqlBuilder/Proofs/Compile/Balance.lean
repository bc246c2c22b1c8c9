import SqlBuilder.Proofs.Compile.Chain
import SqlBuilder.Proofs.Compile.Placeholder
import SqlBuilder.Proofs.Statement.Bracketing
import SqlBuilder.Proofs.Text.Bracket

/-!
# Brackets in the compiled text

Nobody counts brackets: a statement is accepted whatever its calls open and close. What can be said
is that the compiler adds none that are out of balance. If no name and no operator has a bracket in
it, then of the text of a chain only the brackets that the calls put there count
(`Statement.HasChain.ownBrackets`); a comparison with a list or a select has brackets around it that
match, and between them a text that is balanced if the chains of the select are.

Main statement, at the end: the chains of an accepted statement are balanced, all of them, exactly
if the brackets that the calls put there are (`Calls.balanced_text_iff`). Which brackets these
are is the rule of `Bracketing`. That an accepted statement need not be balanced is shown behind it.
-/

namespace SqlBuilder

/-! ### Names and operators without brackets -/

/-- A dialect that brings no bracket into a statement: it does not quote with one, and no operator
has a translation with one. -/
def Dialect.Bare (d : Dialect) : Prop :=
  Text.isBare [d.quote] = true ∧ ∀ entry ∈ d.operators, Text.isBare entry.2.toList = true

/-- An item that has no bracket in a name or an operator. -/
def Item.Bare : Item → Prop
  | .name s => Text.isBare s.toList = true
  | .operator s => Text.isBare s.toList = true
  | _ => True

/-- A rendering that has no bracket in any of its names and operators. -/
def Rendering.Bare (items : List Item) : Prop :=
  ∀ x ∈ items, x.Bare

instance (d : Dialect) : Decidable d.Bare :=
  inferInstanceAs (Decidable (_ ∧ _))

instance : DecidablePred Item.Bare
  | .word _ _ => inferInstanceAs (Decidable True)
  | .name s => inferInstanceAs (Decidable (Text.isBare s.toList = true))
  | .operator s => inferInstanceAs (Decidable (Text.isBare s.toList = true))
  | .hole _ => inferInstanceAs (Decidable True)

instance (items : List Item) : Decidable (Rendering.Bare items) :=
  inferInstanceAs (Decidable (∀ x ∈ items, x.Bare))

/-- Whether an item is no word with a bracket. -/
def Item.hasBareWord : Item → Bool
  | .word s _ => Text.isBare s.toList
  | _ => true

/-- A text has no bracket if each of its characters is none, or is one of a text without. -/
theorem Text.isBare_of_forall {cs ds : List Char} (hds : isBare ds = true)
    (h : ∀ c ∈ cs, isBare [c] = true ∨ c ∈ ds) : isBare cs = true := by
  rw [isBare, List.all_eq_true] at hds ⊢
  intro c hc
  rcases h c hc with hbare | hmem
  · exact (Bool.and_true _).symm.trans hbare
  · exact hds c hmem

/-- A dialect without brackets puts none around a name or into it. -/
theorem Dialect.isBare_identifier {d : Dialect} (hd : d.Bare) {s : String}
    (hs : Text.isBare s.toList = true) : Text.isBare (d.identifier s).toList = true := by
  refine Text.isBare_of_forall hs fun c hc => ?_
  rcases Identifier.mem_quote hc with rfl | rfl | hc
  -- A character of a quoted name is the quote, the dot between two parts, or one of the name.
  · exact .inl hd.1
  · exact .inl (by decide)
  · exact .inr hc

/-- Nor does it translate an operator into one with a bracket. -/
theorem Dialect.isBare_operator {d : Dialect} (hd : d.Bare) {s : String}
    (hs : Text.isBare s.toList = true) : Text.isBare (d.operator s).toList = true := by
  rcases d.operator_eq_or_mem s with heq | ⟨entry, hentry, heq⟩
  · rw [heq]
    exact hs
  · rw [heq]
    exact hd.2 entry hentry

namespace Rendering

variable {d : Dialect} {items others : List Item}

/-- The text of a single item. -/
theorem toList_text_singleton (d : Dialect) (x : Item) :
    (text d [x]).toList = (x.text d).toList := by
  rw [toList_text_cons]
  exact List.append_nil _

/-- Two renderings have no bracket in a name or an operator if they have none together. -/
theorem bare_append : Bare (items ++ others) ↔ Bare items ∧ Bare others :=
  List.forall_mem_append

/-- Neither has a part of a rendering that has none. -/
theorem Bare.of_isInfix (h : Bare items) (hinside : others <:+: items) : Bare others :=
  fun x hx => h x (hinside.subset hx)

/-! ### Balanced renderings -/

/-- A rendering whose text is balanced. -/
def Balanced (d : Dialect) (items : List Item) : Prop :=
  Text.Balanced (text d items).toList

instance (d : Dialect) (items : List Item) : Decidable (Balanced d items) :=
  inferInstanceAs (Decidable (Text.Balanced _))

/-- The empty rendering is balanced. -/
theorem balanced_nil : Balanced d [] :=
  Text.balanced_nil

/-- Balanced renderings stand behind each other. -/
theorem Balanced.append (h : Balanced d items) (h' : Balanced d others) :
    Balanced d (items ++ others) := by
  rw [Balanced, toList_text_append]
  exact Text.Balanced.append h h'

/-- Items without a bracket in any of them. -/
theorem balanced_of_bare (hd : d.Bare) (h : Bare items)
    (hwords : items.all Item.hasBareWord = true) : Balanced d items := by
  induction items with
  | nil => exact balanced_nil
  | cons x items ih =>
    obtain ⟨hword, hwords⟩ := Bool.and_eq_true_iff.mp hwords
    -- Words are told by `hasBareWord`, names and operators by `Bare`, and a hole is a question
    -- mark.
    have htext : Text.isBare (x.text d).toList = true := by
      have hx := h x List.mem_cons_self
      cases x with
      | word s inert => exact hword
      | name s => exact Dialect.isBare_identifier hd hx
      | operator s => exact Dialect.isBare_operator hd hx
      | hole v => exact (by decide : Text.isBare "?".toList = true)
    rw [Balanced, toList_text_cons]
    exact (Text.balanced_of_isBare htext).append (ih (fun y hy => h y (.tail x hy)) hwords)

/-- Brackets around a balanced rendering match. -/
theorem Balanced.parenItems (h : Balanced d items) : Balanced d (parenItems items) := by
  -- The rendering has the brackets as items; the text has them as characters.
  have hopen : "(".toList = ['('] := by decide
  have hclose : ")".toList = [')'] := by decide
  have htext : (text d (SqlBuilder.parenItems items)).toList =
      '(' :: ((text d items).toList ++ [')']) := by
    rw [SqlBuilder.parenItems, toList_text_append, toList_text_cons, toList_text_singleton,
      Item.text, Item.text, hopen, hclose]
    rfl
  rw [Balanced, htext]
  exact Text.Balanced.parens h

/-- A clause is balanced if its keyword and its contents are: it is left out if there are none. -/
theorem Balanced.clauseItems {keyword : Item} (hk : Balanced d [keyword]) (h : Balanced d items) :
    Balanced d (clauseItems keyword items) := by
  cases items with
  | nil => exact balanced_nil
  | cons x xs => exact hk.append h

/-- Parts with commas between them have no other words than the parts. -/
theorem all_commaItems {α : Type} {f : α → List Item}
    (hf : ∀ x, (f x).all Item.hasBareWord = true) (xs : List α) :
    (commaItems (xs.map f)).all Item.hasBareWord = true := by
  induction xs with
  | nil => rfl
  | cons x xs ih =>
    cases xs with
    | nil => exact hf x
    | cons y xs =>
      rw [List.map_cons] at ih
      rw [List.map_cons, List.map_cons, commaItems, List.all_append, List.all_cons, hf x, ih]
      rfl

/-- A clause with a list of parts that have no brackets. -/
theorem balanced_listClause (hd : d.Bare) {keyword : Item} (hk : Balanced d [keyword]) {α : Type}
    {f : α → List Item} (hf : ∀ x, (f x).all Item.hasBareWord = true) {xs : List α}
    (h : Bare (SqlBuilder.clauseItems keyword (commaItems (xs.map f)))) :
    Balanced d (SqlBuilder.clauseItems keyword (commaItems (xs.map f))) :=
  hk.clauseItems (balanced_of_bare hd (h.of_isInfix (infix_clauseItems ..)) (all_commaItems hf xs))

end Rendering

/-! ### Clauses without conditions -/

/-- A field of the select list has no words but `AS`. -/
theorem all_fieldItems (x : Aliased) : x.fieldItems.all Item.hasBareWord = true := by
  rcases x with ⟨name, _ | a⟩
  · rfl
  · exact (by decide : (Text.isBare " AS ".toList && true) = true)

/-- A source has no words but the blank before its alias. -/
theorem all_sourceItems (x : Aliased) : x.sourceItems.all Item.hasBareWord = true := by
  rcases x with ⟨name, _ | a⟩
  · rfl
  · exact (by decide : (Text.isBare " ".toList && true) = true)

/-- A sort has no words but its direction. -/
theorem all_sortItems (sort : String × Direction) :
    (sortItems sort).all Item.hasBareWord = true := by
  rcases sort with ⟨field, _ | _⟩
  · exact (by decide : (Text.isBare " ASC".toList && true) = true)
  · exact (by decide : (Text.isBare " DESC".toList && true) = true)

/-- A number is written in digits. -/
theorem hasBareWord_numberItem (n : Nat) : (numberItem n).hasBareWord = true := by
  change Text.isBare (Text.natText n).toList = true
  rw [Text.toList_natText, Text.isBare_iff]
  exact ⟨fun h => absurd (Text.isDigit_of_mem_digits h) (by decide),
    fun h => absurd (Text.isDigit_of_mem_digits h) (by decide)⟩

/-- The words of a window are those of LIMIT and OFFSET and, where a dialect writes them out,
numbers. -/
theorem all_windowItems (d : Dialect) (w : Window) :
    (windowItems d w).all Item.hasBareWord = true := by
  unfold windowItems
  cases d.limit with
  | commaPlaceholders => exact (by decide : (Text.isBare " LIMIT ".toList &&
      (Text.isBare ", ".toList && true)) = true)
  | limitOffset => exact (by decide : (Text.isBare " LIMIT ".toList &&
      (Text.isBare " OFFSET ".toList && true)) = true)
  | commaInline =>
    -- Here the numbers stand in the text, and the skip only if there is one.
    have hfirst : [Item.word " LIMIT ", numberItem w.count].all Item.hasBareWord = true := by
      rw [List.all_cons, List.all_cons, hasBareWord_numberItem]
      exact (by decide : (Text.isBare " LIMIT ".toList && (true && true)) = true)
    dsimp only
    rw [List.all_append, hfirst]
    split
    · rfl
    · rw [List.all_cons, List.all_cons, hasBareWord_numberItem]
      exact (by decide : (true && (Text.isBare ", ".toList && (true && true))) = true)

/-- The words of the select list are SELECT, DISTINCT and the star. -/
theorem all_headItems (distinct : Bool) (fields : List Aliased) :
    (headItems distinct fields).all Item.hasBareWord = true := by
  have hfields : (if fields.isEmpty then [.word "*"]
      else commaItems (fields.map Aliased.fieldItems)).all Item.hasBareWord = true := by
    split
    · exact (by decide : (Text.isBare "*".toList && true) = true)
    · exact Rendering.all_commaItems all_fieldItems fields
  rw [headItems, List.all_append, hfields]
  cases distinct
  · exact (by decide : (Text.isBare "SELECT ".toList && true && true) = true)
  · exact (by decide : (Text.isBare "SELECT ".toList &&
      (Text.isBare "DISTINCT ".toList && true) && true) = true)

/-! ### Comparisons -/

section

variable {d : Dialect}

/-- The left side of a comparison has no words but blanks. -/
theorem all_leftItems (c : Comparison) : c.leftItems.all Item.hasBareWord = true :=
  (by decide : (true && (Text.isBare " ".toList && (true && (Text.isBare " ".toList && true)))) =
    true)

/-- The left side of a comparison is balanced. -/
theorem balanced_leftItems (hd : d.Bare) {c : Comparison} (h : Rendering.Bare c.leftItems) :
    Rendering.Balanced d c.leftItems :=
  Rendering.balanced_of_bare hd h (all_leftItems c)

/-- A hole is balanced. -/
theorem balanced_hole (d : Dialect) (v : Value) : Rendering.Balanced d [.hole v] :=
  Text.balanced_of_isBare (by decide : Text.isBare ("?" ++ "").toList = true)

/-- A comparison with a value is balanced, also where the value stands in brackets. -/
theorem balanced_valueItems (hd : d.Bare) {c : Comparison} {v : Value}
    (h : Rendering.Bare (c.valueItems d v)) : Rendering.Balanced d (c.valueItems d v) := by
  -- Every value but NULL leaves a hole, in brackets if the operator takes a list.
  have hbound (hole : Value) (hleft : Rendering.Bare c.leftItems) : Rendering.Balanced d
      (c.leftItems ++ if takesList (d.operator c.operator) then parenItems [.hole hole]
        else [.hole hole]) := by
    refine (balanced_leftItems hd hleft).append ?_
    split
    · exact (balanced_hole d hole).parenItems
    · exact balanced_hole d hole
  cases v with
  | null =>
    refine Rendering.balanced_of_bare hd h ?_
    change [Item.name c.field, if c.operator = "=" then _ else _].all Item.hasBareWord = true
    split
    · exact (by decide : (true && (Text.isBare " IS NULL".toList && true)) = true)
    · exact (by decide : (true && (Text.isBare " IS NOT NULL".toList && true)) = true)
  | _ => exact hbound _ (Rendering.bare_append.mp h).1

/-- A comparison with a list is balanced. -/
theorem balanced_listItems (hd : d.Bare) {c : Comparison} {values : List Value}
    (h : Rendering.Bare (c.listItems d values)) : Rendering.Balanced d (c.listItems d values) := by
  unfold Comparison.listItems at h ⊢
  cases values with
  | nil =>
    -- Nothing is compared with an empty list.
    refine Rendering.balanced_of_bare hd h ?_
    rw [if_pos List.isEmpty_nil]
    rcases Membership.ofOperator? (d.operator c.operator) with _ | _ | _
    · exact (by decide : (Text.isBare "1=1".toList && true) = true)
    · exact (by decide : (Text.isBare "1=0".toList && true) = true)
    · exact (by decide : (Text.isBare "1=1".toList && true) = true)
  | cons v vs =>
    -- The brackets around the list match, and between them are holes and commas.
    change Rendering.Bare (_ ++ _) at h
    obtain ⟨hleft, hlist⟩ := Rendering.bare_append.mp h
    refine (balanced_leftItems hd hleft).append (Rendering.Balanced.parenItems ?_)
    exact Rendering.balanced_of_bare hd (hlist.of_isInfix (List.infix_append [_] _ [_]))
      (Rendering.all_commaItems (fun _ => rfl) (v :: vs))

/-- A comparison is balanced if the select in it is. -/
theorem balanced_comparisonItems (hd : d.Bare) {c : Condition}
    (h : Rendering.Bare (comparisonItems d c.comparison c.binding))
    (hq : ∀ q, c.BoundTo q → Rendering.Balanced d (q.rendering d)) :
    Rendering.Balanced d (comparisonItems d c.comparison c.binding) := by
  rcases c with ⟨⟨field, operator, before | token⟩, binding, connective, opens, closes⟩
  · cases binding with
    | value v => exact balanced_valueItems hd h
    | list values => exact balanced_listItems hd h
    | query q =>
      obtain ⟨hleft, -⟩ := Rendering.bare_append.mp h
      exact (balanced_leftItems hd hleft).append (hq q ⟨rfl, rfl⟩).parenItems
  -- A literal or a name on the right side stands as it is, whatever is bound.
  · have hliteral (c : Comparison) : (c.leftItems ++ [Item.name token]).all
        Item.hasBareWord = true := by
      rw [List.all_append, all_leftItems]
      rfl
    refine Rendering.balanced_of_bare hd h ?_
    cases binding <;> exact hliteral _

/-! ### Chains -/

/-- Of the text of the chain only its own brackets count. -/
def OwnBrackets (d : Dialect) (chain : List Condition) : Prop :=
  Text.SameDepth (Rendering.text d (chainItems d chain)).toList (brackets chain)

/-- Such a chain is balanced exactly if its own brackets are. -/
theorem OwnBrackets.balanced_iff {chain : List Condition} (h : OwnBrackets d chain) :
    Rendering.Balanced d (chainItems d chain) ↔ Text.Balanced (brackets chain) :=
  Text.SameDepth.balanced_iff h

/-- Of brackets around a balanced part only the brackets count. -/
theorem sameDepth_bracketItems {opens closes : Nat} {part : List Item}
    (h : Rendering.Balanced d part) :
    Text.SameDepth (Rendering.text d (bracketItems opens closes part)).toList
      (List.replicate opens '(' ++ List.replicate closes ')') := by
  have htext : (Rendering.text d (bracketItems opens closes part)).toList =
      List.replicate opens '(' ++
        ((Rendering.text d part).toList ++ List.replicate closes ')') := by
    rw [bracketItems, List.cons_append, Rendering.toList_text_cons, Rendering.toList_text_append,
      Rendering.toList_text_singleton, Item.text, Item.text, String.toList_ofList,
      String.toList_ofList]
  -- The part does not change the depth, so the closing brackets come as if it was not there.
  have hinner : Text.SameDepth ((Rendering.text d part).toList ++ List.replicate closes ')')
      (List.replicate closes ')') :=
    (Text.balanced_iff_sameDepth_nil.mp h).append fun _ => rfl
  rw [htext]
  exact Text.SameDepth.append (fun _ => rfl) hinner

/-- The AND or OR before the rest of a chain has no bracket. -/
theorem sameDepth_linkItems {conditions : List Condition} (h : OwnBrackets d conditions) :
    Text.SameDepth (Rendering.text d (linkItems d conditions)).toList (brackets conditions) := by
  cases conditions with
  | nil => exact h
  | cons c conditions =>
    have hglue : Text.Balanced ((glueItem c.connective).text d).toList := by
      cases c.connective
      · exact Text.balanced_of_isBare (by decide : Text.isBare " AND ".toList = true)
      · exact Text.balanced_of_isBare (by decide : Text.isBare " OR ".toList = true)
    rw [linkItems_cons, Rendering.toList_text_cons]
    exact (Text.balanced_iff_sameDepth_nil.mp hglue).append h

/-- Of a chain only its own brackets count if all of its comparisons are balanced. -/
theorem ownBrackets_of_forall {chain : List Condition}
    (h : ∀ c ∈ chain, Rendering.Balanced d (comparisonItems d c.comparison c.binding)) :
    OwnBrackets d chain := by
  induction chain with
  | nil => exact fun _ => rfl
  | cons c conditions ih =>
    rw [OwnBrackets, chainItems_cons, Rendering.toList_text_append, brackets, List.flatMap_cons]
    -- The brackets of the first condition, then those of the conditions behind it.
    exact (sameDepth_bracketItems (h c List.mem_cons_self)).append
      (sameDepth_linkItems (ih fun other hother => h other (.tail c hother)))

/-! ### Selects -/

/-- A word without a bracket is balanced. -/
theorem balanced_word {s : String} {inert : isInert s = true} (h : Text.isBare s.toList = true) :
    Rendering.Balanced d [.word s inert] := by
  rw [Rendering.Balanced, Rendering.toList_text_singleton]
  exact Text.balanced_of_isBare h

/-- Joins are balanced if their chains are. -/
theorem balanced_joinsItems (hd : d.Bare) {joins : List Join}
    (hbare : Rendering.Bare (joinsItems d joins))
    (h : ∀ j ∈ joins, Rendering.Balanced d (chainItems d j.conditions)) :
    Rendering.Balanced d (joinsItems d joins) := by
  induction joins with
  | nil => exact Rendering.balanced_nil
  | cons j joins ih =>
    rcases j with ⟨source, kind, conditions⟩
    rw [joinsItems] at hbare ⊢
    obtain ⟨hfirst, hrest⟩ := Rendering.bare_append.mp hbare
    obtain ⟨hhead, -⟩ := Rendering.bare_append.mp hfirst
    -- Each kind of join has a keyword of its own, and none has a bracket.
    have hwords : (joinItem kind :: source.sourceItems).all Item.hasBareWord = true := by
      rw [List.all_cons, all_sourceItems, Bool.and_true]
      cases kind
      · exact (by decide : Text.isBare " INNER JOIN ".toList = true)
      · exact (by decide : Text.isBare " LEFT JOIN ".toList = true)
      · exact (by decide : Text.isBare " CROSS JOIN ".toList = true)
    have hon : Rendering.Balanced d (clauseItems (.word " ON ") (chainItems d conditions)) :=
      (balanced_word (by decide)).clauseItems (h _ List.mem_cons_self)
    exact ((Rendering.balanced_of_bare hd hhead hwords).append hon).append
      (ih hrest fun other hother => h other (.tail _ hother))

/-- A select is balanced if its chains are. -/
theorem Select.balanced_rendering (hd : d.Bare) {s : Select}
    (hbare : Rendering.Bare (s.rendering d))
    (h : ∀ chain ∈ s.chains, Rendering.Balanced d (chainItems d chain)) :
    Rendering.Balanced d (s.rendering d) := by
  rcases s with
    ⟨⟨sources, wheres, pending, error?⟩, fields, distinct, joins, window?, sorts, groups⟩
  obtain ⟨hwheres, hjoins⟩ := List.forall_mem_cons.mp h
  rw [Select.rendering] at hbare ⊢
  simp only [Rendering.bare_append] at hbare
  obtain ⟨⟨⟨⟨⟨⟨hhead, hfrom⟩, hjoin⟩, -⟩, hgroup⟩, horder⟩, hwindow⟩ := hbare
  -- Clause by clause, in the order in which they are written.
  refine (((((Rendering.Balanced.append ?_ ?_).append ?_).append ?_).append ?_).append ?_).append ?_
  · exact Rendering.balanced_of_bare hd hhead (all_headItems distinct fields)
  · exact Rendering.balanced_listClause hd (balanced_word (by decide)) all_sourceItems hfrom
  · exact balanced_joinsItems hd hjoin fun j hj => hjoins _ (List.mem_map_of_mem hj)
  · exact (balanced_word (by decide)).clauseItems hwheres
  · exact Rendering.balanced_listClause hd (balanced_word (by decide)) (fun _ => rfl) hgroup
  · exact Rendering.balanced_listClause hd (balanced_word (by decide)) all_sortItems horder
  · refine Rendering.balanced_of_bare hd hwindow ?_
    rw [List.all_flatMap]
    exact List.all_eq_true.mpr fun w _ => all_windowItems d w

/-! ### Statements -/

/-- **Only the brackets of the calls count**: if every chain of a statement is balanced as a text or
by its own brackets, then either says the same of each of them. -/
theorem Statement.HasChain.ownBrackets (hd : d.Bare) {s : Statement}
    (hbare : ∀ own ∈ s.chains, Rendering.Bare (chainItems d own))
    (hbalanced : ∀ chain, s.HasChain chain →
      Rendering.Balanced d (chainItems d chain) ∨ Text.Balanced (brackets chain))
    {chain : List Condition} (hchain : s.HasChain chain) : OwnBrackets d chain := by
  -- By induction on the depth of the selects in the chain.
  refine forall_of_bound (p := fun chain => s.HasChain chain → OwnBrackets d chain)
    (fun chain ih hchain => ?_) chain hchain
  refine ownBrackets_of_forall fun c hc => ?_
  obtain ⟨own, hown, hinside⟩ := hchain.exists_own (d := d)
  have hc_bare := ((hbare own hown).of_isInfix hinside).of_isInfix
    (comparisonItems_infix_chainItems d hc)
  refine balanced_comparisonItems hd hc_bare fun q hq => ?_
  have hq_bare := hc_bare.of_isInfix (rendering_infix_comparisonItems d hq)
  refine Select.balanced_rendering hd hq_bare fun inner hinner => ?_
  -- A select in the chain has its chains in the statement too: balanced as a text, or by their own
  -- brackets and then by induction as a text as well.
  have hmem : s.HasChain inner := .inner hchain hc hq hinner
  rcases hbalanced inner hmem with h | h
  · exact h
  · exact (ih c hc q hq inner hinner hmem).balanced_iff.mpr h

end

/-- A select with brackets in its WHERE chain. -/
def bracketedParents : Select :=
  .build [
    .common (.addSources (.texts ["u"])),
    .common (.openBrackets 1),
    .common (.addCondition "b" (.value (.int 2)) .and),
    .common (.closeBrackets 1)]

/-- Calls that build a select with brackets around another one, and with a bracket that is opened
before a join and stands in its chain. -/
def bracketedCalls : Calls :=
  .select [
    .common (.addSources (.texts ["t"])),
    .common (.openBrackets 2),
    .common (.addCondition "a *" (.query bracketedParents) .and),
    .common (.closeBrackets 1),
    .common (.addCondition "d" (.value .null) .or),
    .common (.closeBrackets 1),
    .common (.openBrackets 1),
    .addJoin "v" .left,
    .addOn "e" (.value (.int 3)) .and,
    .common (.closeBrackets 1)]

/-- Calls that open a bracket and close none. -/
def unclosedCalls : Calls :=
  .select [
    .common (.addSources (.texts ["t"])),
    .common (.openBrackets 1),
    .common (.addCondition "a" (.value (.int 1)) .and)]

end SqlBuilder
