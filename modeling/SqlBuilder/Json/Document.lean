import SqlBuilder.Json.Token

/-!
# JSON documents

A document keeps what its text says and a value forgets: numerals as written, the order of the
members of an object and every repetition of a name. `Document.read?` puts the tokens together.
It walks over them once, with the containers that are still open in a list of frames, so that
neither the depth of a document nor its length needs a bound. `Document.toJson?` gives the value.
-/

namespace SqlBuilder

/-- A JSON document. A string has no text if it names half of a pair of UTF-16 units. -/
inductive Document where
  | null
  | bool (b : Bool)
  | number (n : Numeral)
  | string (s : Option String)
  | array (items : List Document)
  | object (members : List (Option String × Document))
  deriving Repr

namespace Document

instance : Inhabited Document := ⟨.null⟩

/-! ### Reading -/

/-- A container that is still open: what stands in it so far, the last part first. -/
inductive Frame where
  | array (items : List Document)
  | object (members : List (Option String × Document)) (name : Option String)
  deriving Repr

/-- What may come next. -/
inductive Expecting where
  /-- A value. -/
  | value
  /-- The first item of an array, or its end. -/
  | item
  /-- The first name of an object, or its end. -/
  | member
  /-- The name after a comma, with the members before it. -/
  | name (members : List (Option String × Document))
  /-- The colon after a name. -/
  | colon (members : List (Option String × Document)) (name : Option String)
  /-- What follows a value. -/
  | after (d : Document)
  deriving Repr

/-- Where reading stands: the open containers, the innermost first, and what may come next. -/
structure Reading where
  frames : List Frame
  expecting : Expecting
  deriving Repr

/-- A token that is a whole value. -/
def ofToken? : Token → Option Document
  | .null => some .null
  | .bool b => some (.bool b)
  | .number n => some (.number n)
  | .string s => some (.string s)
  | _ => none

/-- A token where a value must stand. -/
def begin? (frames : List Frame) : Token → Option Reading
  | .leftBracket => some ⟨frames, .item⟩
  | .leftBrace => some ⟨frames, .member⟩
  | t => (ofToken? t).map fun d => ⟨frames, .after d⟩

/-- A token behind the value `d`. -/
def continue? (d : Document) : List Frame → Token → Option Reading
  | .array items :: frames, .comma => some ⟨.array (d :: items) :: frames, .value⟩
  | .array items :: frames, .rightBracket =>
    some ⟨frames, .after (.array (d :: items).reverse)⟩
  | .object members name :: frames, .comma => some ⟨frames, .name ((name, d) :: members)⟩
  | .object members name :: frames, .rightBrace =>
    some ⟨frames, .after (.object ((name, d) :: members).reverse)⟩
  | _, _ => none

/-- Read one token. -/
def Reading.next? (r : Reading) (t : Token) : Option Reading :=
  match r.expecting, t with
  | .value, t => begin? r.frames t
  | .item, .rightBracket => some ⟨r.frames, .after (.array [])⟩
  | .item, t => begin? (.array [] :: r.frames) t
  | .member, .rightBrace => some ⟨r.frames, .after (.object [])⟩
  | .member, .string s => some ⟨r.frames, .colon [] s⟩
  | .name members, .string s => some ⟨r.frames, .colon members s⟩
  | .colon members name, .colon => some ⟨.object members name :: r.frames, .value⟩
  | .after d, t => continue? d r.frames t
  | _, _ => none

/-- The document read, if nothing is still open. -/
def Reading.result? (r : Reading) : Option Document :=
  match r.frames, r.expecting with
  | [], .after d => some d
  | _, _ => none

/-- The document that tokens make up. -/
def ofTokens? (tokens : List Token) : Option Document := do
  let r ← tokens.foldlM Reading.next? ⟨[], .value⟩
  r.result?

/-- The document of a text. -/
def read? (text : String) : Option Document := do
  ofTokens? (← Token.all text.toList)

/-! ### Values -/

mutual

/-- The value of a document; `none` if a number in it is out of range or a string has no text. -/
def toJson? : Document → Option Json
  | .null => some .null
  | .bool b => some (.bool b)
  | .number n => n.number?.map .number
  | .string s => s.map .string
  | .array items => (itemsToJson? items).map .array
  | .object members => (membersToJson? members).map fun ms => .object (Json.ofMembers ms)

/-- The values of the items of an array. -/
def itemsToJson? : List Document → Option (List Json)
  | [] => some []
  | d :: ds => do
    let v ← d.toJson?
    let vs ← itemsToJson? ds
    return v :: vs

/-- The values of the members of an object, in writing order. -/
def membersToJson? : List (Option String × Document) → Option (List (String × Json))
  | [] => some []
  | (name, d) :: ms => do
    let k ← name
    let v ← d.toJson?
    let rest ← membersToJson? ms
    return (k, v) :: rest

end

end Document

/-- The JSON value that a text writes. -/
def Json.read? (text : String) : Option Json := do
  (← Document.read? text).toJson?

end SqlBuilder
