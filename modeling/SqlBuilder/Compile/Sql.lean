import SqlBuilder.Value

/-!
# SQL text with its parameters

The result of compiling, and of compiling any part of a statement: a text, and the values of the
placeholders in it from left to right. Parts are put together by `++`, which joins the texts and
the values alike, so a value can not end up in another place than its placeholder.
-/

namespace SqlBuilder

/-- A text and the values of its placeholders. -/
structure Sql where
  text : String
  params : List Value
  deriving Repr

namespace Sql

/-- A text without placeholders of its own. -/
def raw (text : String) : Sql := ⟨text, []⟩

/-- A placeholder and its value. -/
def hole (v : Value) : Sql := ⟨"?", [v]⟩

/-- One part behind another. -/
def append (a b : Sql) : Sql := ⟨a.text ++ b.text, a.params ++ b.params⟩

instance : Append Sql := ⟨append⟩

@[simp] theorem text_append (a b : Sql) : (a ++ b).text = a.text ++ b.text := rfl

@[simp] theorem params_append (a b : Sql) : (a ++ b).params = a.params ++ b.params := rfl

@[simp] theorem text_raw (s : String) : (raw s).text = s := rfl

@[simp] theorem params_raw (s : String) : (raw s).params = [] := rfl

@[simp] theorem text_hole (v : Value) : (hole v).text = "?" := rfl

@[simp] theorem params_hole (v : Value) : (hole v).params = [v] := rfl

/-- Parts with a separator between any two. -/
def join (separator : String) : List Sql → Sql
  | [] => raw ""
  | [a] => a
  | a :: b :: parts => a ++ raw separator ++ join separator (b :: parts)

@[simp] theorem text_join (separator : String) (parts : List Sql) :
    (join separator parts).text = separator.intercalate (parts.map text) := by
  induction parts with
  | nil => rfl
  | cons a parts ih =>
    cases parts with
    | nil => simp [join]
    | cons b parts =>
      simp only [join, text_append, text_raw, ih, List.map_cons]
      simp [String.intercalate_cons_cons, String.append_assoc]

@[simp] theorem params_join (separator : String) (parts : List Sql) :
    (join separator parts).params = parts.flatMap params := by
  induction parts with
  | nil => rfl
  | cons a parts ih =>
    cases parts with
    | nil => simp [join]
    | cons b parts => simp [join, ih]

/-- Two parts with the same text and the same values are the same. -/
theorem eq_of_text_of_params {a b : Sql} (ht : a.text = b.text) (hp : a.params = b.params) :
    a = b := by
  cases a
  cases b
  cases ht
  cases hp
  rfl

theorem append_assoc (a b c : Sql) : a ++ b ++ c = a ++ (b ++ c) :=
  eq_of_text_of_params String.append_assoc (List.append_assoc ..)

@[simp] theorem raw_empty_append (a : Sql) : raw "" ++ a = a :=
  eq_of_text_of_params (by simp) (by simp)

@[simp] theorem append_raw_empty (a : Sql) : a ++ raw "" = a :=
  eq_of_text_of_params (by simp) (by simp)

theorem raw_append (s t : String) : raw (s ++ t) = raw s ++ raw t := rfl

/-- Placeholders for values, separated by commas. -/
def holes (values : List Value) : Sql :=
  join ", " (values.map hole)

/-- A part between brackets. -/
def parens (a : Sql) : Sql :=
  raw "(" ++ a ++ raw ")"

/-- How many placeholder signs stand in the text. -/
def placeholders (a : Sql) : Nat :=
  a.text.toList.count '?'

end Sql

end SqlBuilder
