import SqlBuilder.Number.Layout
import SqlBuilder.Text.Hex

/-!
# JSON values and their compact text

A JSON value as a program holds it: an object is a map, kept as its members in rising order of
their names. `Json.compact` writes a value without spaces. In strings the quote, the backslash
and the control characters are escaped and every other character stands for itself; numbers are
set out by `Layout.json`.
-/

namespace SqlBuilder

/-- A number of a JSON value. -/
inductive Json.Number where
  | integer (n : Int)
  | float (x : Binary64)
  deriving DecidableEq, Repr

/-- A JSON value. -/
inductive Json where
  | null
  | bool (b : Bool)
  | number (n : Json.Number)
  | string (s : String)
  | array (items : List Json)
  | object (members : List (String × Json))
  deriving Repr

namespace Json

instance : Inhabited Json := ⟨.null⟩

/-! ### Maps -/

/-- Give the name `k` the value `v`, in a list kept in rising order of names. -/
def insert {α : Type} (k : String) (v : α) : List (String × α) → List (String × α)
  | [] => [(k, v)]
  | (k', v') :: ms =>
    if k = k' then (k, v) :: ms
    else if k < k' then (k, v) :: (k', v') :: ms
    else (k', v') :: insert k v ms

/-- The map that members in writing order stand for: of a repeated name the last value counts. -/
def ofMembers {α : Type} (members : List (String × α)) : List (String × α) :=
  members.foldl (fun map (k, v) => insert k v map) []

/-! ### Compact text -/

/-- A character as it stands inside a string. -/
def escape (c : Char) : List Char :=
  if c = '\x22' then ['\\', '\x22']
  else if c = '\\' then ['\\', '\\']
  else if c = '\n' then ['\\', 'n']
  else if c = '\t' then ['\\', 't']
  else if c = '\r' then ['\\', 'r']
  else if c = '\x08' then ['\\', 'b']
  else if c = '\x0C' then ['\\', 'f']
  else if c.toNat < 0x20 then '\\' :: 'u' :: Text.hexDigits .lower 4 c.toNat
  else [c]

/-- A string between quotes. -/
def quote (s : String) : String :=
  String.ofList ('\x22' :: (s.toList.flatMap escape ++ ['\x22']))

/-- The text of a number. -/
def Number.text : Number → String
  | .integer n => Text.intText n
  | .float x => Layout.json.write x

/-- A list of texts between brackets, separated by commas. -/
def bracketed (left right : Char) (items : List String) : String :=
  String.singleton left ++ ",".intercalate items ++ String.singleton right

mutual

/-- The text of a value, without spaces. -/
def compact : Json → String
  | .null => "null"
  | .bool b => if b then "true" else "false"
  | .number n => n.text
  | .string s => quote s
  | .array items => bracketed '[' ']' (compactItems items)
  | .object members => bracketed '\x7b' '\x7d' (compactMembers members)

/-- The texts of the items of an array. -/
def compactItems : List Json → List String
  | [] => []
  | v :: vs => v.compact :: compactItems vs

/-- The texts of the members of an object. -/
def compactMembers : List (String × Json) → List String
  | [] => []
  | (k, v) :: ms => (quote k ++ ":" ++ v.compact) :: compactMembers ms

end

end Json

end SqlBuilder
