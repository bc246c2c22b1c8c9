import SqlBuilder.Json.Document
import SqlBuilder.Text.Quoted
import SqlBuilder.Text.Utf8
import SqlBuilder.Timestamp
import SqlBuilder.Uuid

/-!
# Values

What a placeholder of a statement can stand for. A value has three texts: `Value.plain` is bare
(it is what a pattern with wildcards is made of), `Value.literal` is an SQL literal, and
`Value.toJson` gives the JSON form, in which the kinds that JSON lacks become arrays and strings.
`Value.ofJson` goes the other way: a scalar becomes the value of its own kind, an array or an
object stays a JSON document.
-/

namespace SqlBuilder

/-- A value bound to a placeholder. -/
inductive Value where
  | null
  | bool (b : Bool)
  | int (n : Int)
  | float (x : Binary64)
  | text (s : String)
  | bytes (octets : List UInt8)
  | timestamp (t : Timestamp)
  | uuid (u : Uuid)
  | json (document : Json)
  deriving Repr

namespace Value

instance : Inhabited Value := ⟨.null⟩

/-- Whether the value is NULL. -/
def isNull : Value → Bool
  | .null => true
  | _ => false

/-- The least integer value. -/
def minInt : Int := -9223372036854775808

/-- The greatest integer value. -/
def maxInt : Int := 9223372036854775807

/-! ### JSON -/

/-- The value of a JSON document. An integer beyond the range of integer values becomes the
nearest float. -/
def ofJson : Json → Value
  | .null => .null
  | .bool b => .bool b
  | .number (.integer n) =>
    if minInt ≤ n ∧ n ≤ maxInt then .int n else .float (.ofInt n)
  | .number (.float x) => .float x
  | .string s => .text s
  | .array items => .json (.array items)
  | .object members => .json (.object members)

/-- The value as a JSON document: octets as an array of numbers, timestamps and identifiers as
strings. -/
def toJson : Value → Json
  | .null => .null
  | .bool b => .bool b
  | .int n => .number (.integer n)
  | .float x => .number (.float x)
  | .text s => .string s
  | .bytes octets => .array (octets.map fun b => .number (.integer b.toNat))
  | .timestamp t => .string (t.text .letter)
  | .uuid u => .string u.text
  | .json document => document

/-! ### Texts -/

/-- The value as bare text; NULL is empty. -/
def plain : Value → String
  | .null => ""
  | .bool b => if b then "true" else "false"
  | .int n => Text.intText n
  | .float x => Layout.plain.write x
  | .text s => s
  | .bytes octets => Text.readLossy octets
  | .timestamp t => t.text .offset
  | .uuid u => u.text
  | .json document => document.compact

/-- A text as a string literal. -/
def quoteLiteral (s : String) : String :=
  Text.enclose '\x27' s

/-- The value as an SQL literal. -/
def literal : Value → String
  | .null => "NULL"
  | .bool b => if b then "TRUE" else "FALSE"
  | .int n => Text.intText n
  | .float x => Layout.plain.write x
  | .text s => quoteLiteral s
  | .bytes octets => "X" ++ quoteLiteral (String.ofList (Text.hexOctets .upper octets))
  | .timestamp t => quoteLiteral (t.text .offset)
  | .uuid u => quoteLiteral u.text
  | .json document => quoteLiteral document.compact

end Value

end SqlBuilder
