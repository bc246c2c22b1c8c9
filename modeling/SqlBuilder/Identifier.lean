import SqlBuilder.Text.Letters
import SqlBuilder.Text.Quoted

/-!
# Identifiers in a statement

A name such as `users`, `u.name` or `u.*` is cut at its dots; a star stays bare and every other
segment is put between quote characters. Three kinds of token are no names and stand as they are:
a few reserved words (`isReserved`), decimal numbers (`isNumber`) and texts between apostrophes
(`isLiteral`).
-/

namespace SqlBuilder.Identifier

/-- The tokens that are never quoted, in any letter case. -/
def reserved : List String := ["?", "true", "false", "null"]

/-- Whether the token is reserved. -/
def isReserved (s : String) : Bool :=
  reserved.any (Text.sameLetters s)

/-- Whether there is at least one character and all are decimal digits of ASCII. -/
def isDigits (cs : List Char) : Bool :=
  !cs.isEmpty && cs.all Char.isDigit

/-- Whether the characters are digits, perhaps with a point and more digits. -/
def isUnsigned (cs : List Char) : Bool :=
  isDigits (cs.takeWhile (· ≠ '.')) &&
    match cs.dropWhile (· ≠ '.') with
    | [] => true
    | _ :: fraction => isDigits fraction

/-- Whether the token is a decimal number, perhaps with a minus sign. -/
def isNumber (s : String) : Bool :=
  match s.toList with
  | '-' :: cs => isUnsigned cs
  | cs => isUnsigned cs

/-- Whether the token begins and ends with two different apostrophes. -/
def isLiteral (s : String) : Bool :=
  match s.toList with
  | '\x27' :: cs => cs.getLast? == some '\x27'
  | _ => false

/-- Whether the token stands in a statement as it is. -/
def isBare (s : String) : Bool :=
  isReserved s || isNumber s || isLiteral s

/-- The segments of a name between its dots. -/
def segments (s : String) : List String :=
  (s.toList.splitOn '.').map String.ofList

/-- One segment of a name. -/
def quoteSegment (q : Char) (segment : String) : String :=
  if segment = "*" then segment else Text.enclose q segment

/-- The name as it stands in a statement whose quote character is `q`. -/
def quote (q : Char) (s : String) : String :=
  if isBare s then s else ".".intercalate ((segments s).map (quoteSegment q))

end SqlBuilder.Identifier
