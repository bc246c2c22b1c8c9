import SqlBuilder.Compile.Select

/-!
# The annotated rendering of a statement

A statement read from left to right, as a list of items: every item is plain text or a hole that
carries a value. The plain text is of three origins, which the items keep apart: words that the
compiler brings along, names that the dialect quotes, and operators that the dialect translates.
The rendering is defined by recursion on the statement and knows nothing of errors, of joining
texts or of collecting parameters; a select that a condition is bound to is rendered in its place.

## The words

A word never holds a question mark or a character that opens a quoted region. The constructor
`Item.word` asks for a proof of that (`isInert`), so no statement about the marks of a rendering
has to look at its words again.
-/

namespace SqlBuilder

/-! ### Items -/

/-- The characters that a reader of placeholders stops at: the mark itself, the apostrophe, and
the two quote characters of the engines. -/
def signs : List Char := ['?', '\x27', '\x22', '\x60']

/-- Whether none of the `signs` is in the text. -/
def isInert (s : String) : Bool :=
  s.toList.all (· ∉ signs)

/-- An item of a rendering. -/
inductive Item where
  /-- Text that is the compiler's own. -/
  | word (text : String) (inert : isInert text = true := by decide)
  /-- A name, before it is quoted. -/
  | name (name : String)
  /-- An operator, as it was written. -/
  | operator (written : String)
  | hole (v : Value)

namespace Item

/-- The text of an item in a dialect. -/
def text (d : Dialect) : Item → String
  | .word s _ => s
  | .name s => d.identifier s
  | .operator s => d.operator s
  | .hole _ => "?"

/-- The value of a hole. -/
def value? : Item → Option Value
  | .hole v => some v
  | _ => none

/-- The name that an item quotes. -/
def name? : Item → Option String
  | .name s => some s
  | _ => none

/-- The operator that an item translates. -/
def operator? : Item → Option String
  | .operator s => some s
  | _ => none

end Item

namespace Rendering

/-- The items one behind the other. -/
def text (d : Dialect) : List Item → String
  | [] => ""
  | x :: xs => x.text d ++ text d xs

/-- The values of the holes from left to right. -/
def values (items : List Item) : List Value :=
  items.filterMap Item.value?

/-- The names that are quoted, from left to right. -/
def names (items : List Item) : List String :=
  items.filterMap Item.name?

/-- The operators that are translated, from left to right. -/
def operators (items : List Item) : List String :=
  items.filterMap Item.operator?

/-- The rendering written out: its text and the values of its holes. -/
def sql (d : Dialect) (items : List Item) : Sql :=
  ⟨text d items, values items⟩

end Rendering

/-! ### Lists of items -/

/-- Parts with commas between them. -/
def commaItems : List (List Item) → List Item
  | [] => []
  | [part] => part
  | part :: next :: parts => part ++ .word ", " :: commaItems (next :: parts)

/-- A keyword in front of what it introduces; nothing if that is empty. -/
def clauseItems (keyword : Item) (body : List Item) : List Item :=
  if body.isEmpty then [] else keyword :: body

/-- A part between round brackets. -/
def parenItems (part : List Item) : List Item :=
  .word "(" :: part ++ [.word ")"]

/-- A character that is no sign may be written any number of times. -/
theorem isInert_replicate {c : Char} (hc : c ∉ signs) (n : Nat) :
    isInert (String.ofList (List.replicate n c)) = true := by
  rw [isInert, String.toList_ofList, List.all_eq_true]
  intro a ha
  rw [List.eq_of_mem_replicate ha]
  exact decide_eq_true hc

/-- No digit is a sign. -/
theorem notMem_signs_of_isDigit {c : Char} (hc : c.isDigit = true) : c ∉ signs := by
  have hsigns : signs.all (!·.isDigit) = true := by decide
  intro hmem
  have hnot := List.all_eq_true.mp hsigns c hmem
  rw [hc] at hnot
  exact Bool.noConfusion hnot

/-- A number in digits is inert. -/
theorem isInert_natText (n : Nat) : isInert (Text.natText n) = true := by
  rw [isInert, Text.toList_natText, List.all_eq_true]
  intro c hc
  exact decide_eq_true (notMem_signs_of_isDigit (Text.isDigit_of_mem_digits hc))

/-- A part behind `opens` opening and before `closes` closing brackets. -/
def bracketItems (opens closes : Nat) (part : List Item) : List Item :=
  .word (String.ofList (List.replicate opens '(')) (isInert_replicate (by decide) opens) :: part ++
    [.word (String.ofList (List.replicate closes ')')) (isInert_replicate (by decide) closes)]

/-- A number in digits. -/
def numberItem (n : Nat) : Item :=
  .word (Text.natText n) (isInert_natText n)

/-! ### Clauses -/

/-- A selected field. -/
def Aliased.fieldItems (x : Aliased) : List Item :=
  match x.alias? with
  | some a => [.name x.name, .word " AS ", .name a]
  | none => [.name x.name]

/-- A source. -/
def Aliased.sourceItems (x : Aliased) : List Item :=
  match x.alias? with
  | some a => [.name x.name, .word " ", .name a]
  | none => [.name x.name]

/-- What is selected. -/
def headItems (distinct : Bool) (fields : List Aliased) : List Item :=
  .word "SELECT " :: (if distinct then [.word "DISTINCT "] else []) ++
    if fields.isEmpty then [.word "*"] else commaItems (fields.map Aliased.fieldItems)

/-- A sort with its direction. -/
def sortItems : String × Direction → List Item
  | (field, .ascending) => [.name field, .word " ASC"]
  | (field, .descending) => [.name field, .word " DESC"]

/-- The window in the shape of the dialect. Where it is bound, the count comes first. -/
def windowItems (d : Dialect) (w : Window) : List Item :=
  match d.limit with
  | .commaPlaceholders =>
    [.word " LIMIT ", .hole (countParam w.count), .word ", ", .hole (countParam w.skip)]
  | .commaInline =>
    [.word " LIMIT ", numberItem w.count] ++
      if w.skip = 0 then [] else [.word ", ", numberItem w.skip]
  | .limitOffset =>
    [.word " LIMIT ", .hole (countParam w.count), .word " OFFSET ", .hole (countParam w.skip)]

/-- The word of a connective between two spaces. -/
def glueItem : Connective → Item
  | .and => .word " AND "
  | .or => .word " OR "

/-- The words of a join. -/
def joinItem : JoinKind → Item
  | .inner => .word " INNER JOIN "
  | .left => .word " LEFT JOIN "
  | .cross => .word " CROSS JOIN "

/-- The field and the operator of a comparison, each with a space behind it. -/
def Comparison.leftItems (c : Comparison) : List Item :=
  [.name c.field, .word " ", .operator c.operator, .word " "]

/-- A comparison with NULL binds nothing, and one with any other value has a hole. -/
def Comparison.valueItems (d : Dialect) (c : Comparison) (v : Value) : List Item :=
  match v with
  | .null =>
    [.name c.field, if c.operator = "=" then .word " IS NULL" else .word " IS NOT NULL"]
  | v =>
    let hole := Item.hole (c.operand.param d v)
    c.leftItems ++ if takesList (d.operator c.operator) then parenItems [hole] else [hole]

/-- A comparison with a list has a hole for each value, and is a constant if there is none. -/
def Comparison.listItems (d : Dialect) (c : Comparison) (values : List Value) : List Item :=
  if values.isEmpty then
    -- Nothing is in an empty list, and everything is outside of it.
    match Membership.ofOperator? (d.operator c.operator) with
    | some .inside => [.word "1=0"]
    | _ => [.word "1=1"]
  else c.leftItems ++ parenItems (commaItems (values.map fun v => [.hole (c.operand.param d v)]))

/-! ### Selects -/

mutual

/-- A select, clause by clause. -/
def Select.rendering (d : Dialect) : Select → List Item
  | ⟨⟨sources, wheres, _, _⟩, fields, distinct, joins, window?, sorts, groups⟩ =>
    headItems distinct fields ++
      clauseItems (.word " FROM ") (commaItems (sources.map Aliased.sourceItems)) ++
      joinsItems d joins ++
      clauseItems (.word " WHERE ") (chainItems d wheres) ++
      clauseItems (.word " GROUP BY ") (commaItems (groups.map fun g => [.name g])) ++
      clauseItems (.word " ORDER BY ") (commaItems (sorts.map sortItems)) ++
      window?.toList.flatMap (windowItems d)

/-- The joins in their order, each with its own chain. -/
def joinsItems (d : Dialect) : List Join → List Item
  | [] => []
  | ⟨source, kind, conditions⟩ :: joins =>
    joinItem kind :: source.sourceItems ++
      clauseItems (.word " ON ") (chainItems d conditions) ++ joinsItems d joins

/-- A chain of conditions. The first one is attached to nothing. -/
def chainItems (d : Dialect) : List Condition → List Item
  | [] => []
  | ⟨comparison, binding, _, opens, closes⟩ :: conditions =>
    bracketItems opens closes (comparisonItems d comparison binding) ++ linkItems d conditions

/-- Conditions attached to the ones before them. -/
def linkItems (d : Dialect) : List Condition → List Item
  | [] => []
  | ⟨comparison, binding, connective, opens, closes⟩ :: conditions =>
    glueItem connective :: bracketItems opens closes (comparisonItems d comparison binding) ++
      linkItems d conditions

/-- A comparison and what it is bound to. -/
def comparisonItems (d : Dialect) (c : Comparison) (binding : Binding) : List Item :=
  match c.operand, binding with
  -- A literal stands where the hole would be, and what the condition is bound to does not matter.
  | .literal token, _ => c.leftItems ++ [.name token]
  | .bound _ _, .value v => c.valueItems d v
  | .bound _ _, .list values => c.listItems d values
  | .bound _ _, .query select => c.leftItems ++ parenItems (select.rendering d)

end

/-! ### Statements -/

/-- An assignment of an UPDATE. -/
def assignmentItems (d : Dialect) (entry : String × Value) : List Item :=
  [.name entry.1, .word " = ", .hole (d.wire entry.2)]

/-- The values of a row in the order of the fields. A field that the row lacks is NULL. -/
def rowItems (d : Dialect) (fields : List String) (row : Tuple) : List Item :=
  parenItems (commaItems (fields.map fun f => [.hole (d.wire ((row.get? f).getD .null))]))

/-- A write: the assignments and then the chain, or one group for each row. -/
def Write.rendering (d : Dialect) (w : Write) : List Item :=
  let first := w.rows.headD .empty
  let sources := commaItems (w.draft.sources.map Aliased.sourceItems)
  if w.isUpdate then
    .word "UPDATE " :: sources ++ .word " SET " ::
      commaItems (first.entries.map (assignmentItems d)) ++
      clauseItems (.word " WHERE ") (chainItems d w.draft.wheres)
  else
    .word "INSERT INTO " :: sources ++ .word " (" ::
      commaItems (first.fields.map fun f => [.name f]) ++ .word ") VALUES " ::
      commaItems (w.rows.map (rowItems d first.fields))

/-- A delete. -/
def Delete.rendering (d : Dialect) (r : Delete) : List Item :=
  .word "DELETE FROM " :: commaItems (r.draft.sources.map Aliased.sourceItems) ++
    clauseItems (.word " WHERE ") (chainItems d r.draft.wheres)

/-- A statement from left to right. -/
def Statement.rendering (d : Dialect) : Statement → List Item
  | .select s => s.rendering d
  | .write w => w.rendering d
  | .delete r => r.rendering d

end SqlBuilder
