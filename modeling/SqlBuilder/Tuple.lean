import SqlBuilder.Error
import SqlBuilder.Value

/-!
# Rows of data

Two lists of named values. A `Tuple` is what a statement writes: a map from field names to values
that keeps the order in which the names came first, so each name stands in it once. A `Row` is
what a query returns: its columns stand in the order of the query and may share a name.
-/

namespace SqlBuilder

/-- Give the field `k` the value `v`: in its place if the field is there, else at the end. -/
def setField (k : String) (v : Value) : List (String × Value) → List (String × Value)
  | [] => [(k, v)]
  | (k', v') :: es => if k' = k then (k, v) :: es else (k', v') :: setField k v es

/-- Setting a field adds its name at the end, unless it is there. -/
theorem map_fst_setField (k : String) (v : Value) (es : List (String × Value)) :
    (setField k v es).map Prod.fst =
      if k ∈ es.map Prod.fst then es.map Prod.fst else es.map Prod.fst ++ [k] := by
  induction es with
  | nil => simp [setField]
  | cons e es ih =>
    obtain ⟨k', v'⟩ := e
    by_cases h : k' = k
    · simp [setField, h]
    · have h' : ¬ k = k' := fun hk => h hk.symm
      simp only [setField, h, if_false, List.map_cons, ih, List.mem_cons, h', false_or]
      split <;> rfl

/-- Field names with their values, in the order in which the names came first. -/
structure Tuple where
  entries : List (String × Value)
  nodup_fields : (entries.map Prod.fst).Nodup
  deriving Repr

namespace Tuple

/-- The tuple without fields. -/
def empty : Tuple := ⟨[], by simp⟩

instance : Inhabited Tuple := ⟨empty⟩

/-- The names of the fields. -/
def fields (t : Tuple) : List String :=
  t.entries.map Prod.fst

/-- The number of fields. -/
def size (t : Tuple) : Nat :=
  t.entries.length

/-- Whether there is no field. -/
def isEmpty (t : Tuple) : Bool :=
  t.entries.isEmpty

/-- The value of a field. -/
def get? (t : Tuple) (field : String) : Option Value :=
  t.entries.lookup field

/-- Give a field a value, in the place of its earlier one. -/
def insert (t : Tuple) (field : String) (v : Value) : Tuple where
  entries := setField field v t.entries
  nodup_fields := by
    rw [map_fst_setField]
    split
    · exact t.nodup_fields
    · next h =>
      rw [List.nodup_append]
      refine ⟨t.nodup_fields, by simp, ?_⟩
      intro a ha b hb hab
      rw [List.mem_singleton] at hb
      exact h (hb ▸ hab ▸ ha)

/-- Insert the pairs of a list from left to right. -/
def ofList (pairs : List (String × Value)) : Tuple :=
  pairs.foldl (fun t (k, v) => t.insert k v) empty

/-- Whether the tuples name the same fields, in any order. -/
def sameFields (t u : Tuple) : Bool :=
  t.size == u.size && t.fields.all fun f => (u.get? f).isSome

@[simp] theorem fields_insert (t : Tuple) (k : String) (v : Value) :
    (t.insert k v).fields = if k ∈ t.fields then t.fields else t.fields ++ [k] :=
  map_fst_setField k v t.entries

/-- The members of a JSON object; any other document is refused. -/
def ofJson : Json → Except Error Tuple
  | .object members => .ok (ofList (members.map fun (k, d) => (k, .ofJson d)))
  | document => .error (.malformed document.compact .notAnObject)

/-- The tuples of every item of a list, or the error of the first that is no object. -/
def ofItems : List Json → Except Error (List Tuple)
  | [] => .ok []
  | d :: ds => do
    let t ← ofJson d
    let ts ← ofItems ds
    return t :: ts

/-- The tuples of a document: an array holds several, anything else is one. -/
def allOfJson : Json → Except Error (List Tuple)
  | .array items => ofItems items
  | document => (ofJson document).map fun t => [t]

end Tuple

/-- A row of a result: its columns from left to right. -/
structure Row where
  columns : List (String × Value)
  deriving Repr

namespace Row

/-- The names of the columns. -/
def names (r : Row) : List String :=
  r.columns.map Prod.fst

/-- The number of columns. -/
def size (r : Row) : Nat :=
  r.columns.length

/-- The value of the first column of a name. -/
def get? (r : Row) (name : String) : Option Value :=
  r.columns.lookup name

/-- The value of the column at a place, counted from zero. -/
def at? (r : Row) (i : Nat) : Option Value :=
  (r.columns[i]?).map Prod.snd

end Row

end SqlBuilder
