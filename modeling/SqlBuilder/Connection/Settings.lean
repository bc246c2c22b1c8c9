import SqlBuilder.Connection.Level
import SqlBuilder.Dialect

/-!
# Settings of a connection

Settings are read from a JSON document, in which every member may be left out, and written to
one. The document is read as it is written, not by its value: a known member that is repeated is
an error, while a member that is not known is passed over whatever it holds. An array gives the
members in their order without names.
-/

namespace SqlBuilder

/-- The settings of a connection. -/
structure Settings where
  engine : Engine := .sql
  /-- Whether statements are logged. -/
  logSql : Bool := true
  /-- The level of the log, as text. -/
  logLevel : String := "debug"
  /-- How many octets of a statement are logged; all of them if there is no limit. -/
  maxLogged : Option Nat := some 200
  /-- Whether an insert outside a transaction gets one of its own. -/
  wrapInserts : Bool := true
  deriving DecidableEq, Repr

namespace Settings

/-- The level of the log. -/
def level (s : Settings) : Except Error Level :=
  match Level.ofText? s.logLevel with
  | some level => .ok level
  | none => .error (.settings (.unknownLevel s.logLevel))

/-- The settings with another level of the log, which is kept in lower case. -/
def withLevel (s : Settings) (level : Level) : Settings :=
  { s with logLevel := Text.lower level.name }

/-! ### Members -/

/-- The members of a document of settings. -/
inductive Member where
  | dialect
  | logSql
  | logLevel
  | maxLogged
  | wrapInserts
  deriving DecidableEq, Repr

namespace Member

/-- All members in their order. -/
def all : List Member := [dialect, logSql, logLevel, maxLogged, wrapInserts]

/-- The name of a member. -/
def name : Member → String
  | .dialect => "dialect"
  | .logSql => "log_sql"
  | .logLevel => "log_level"
  | .maxLogged => "max_sql_log_length"
  | .wrapInserts => "wrap_inserts_in_transaction"

/-- The member of a name. -/
def ofName? (s : String) : Option Member :=
  all.find? (·.name == s)

end Member

/-- A truth value. -/
def readBool? : Document → Option Bool
  | .bool b => some b
  | _ => none

/-- A text. -/
def readText? : Document → Option String
  | .string s => s
  | _ => none

/-- The greatest limit. -/
def maxLimit : Nat := 18446744073709551615

/-- A limit, or none. -/
def readLimit? : Document → Option (Option Nat)
  | .null => some none
  | .number n =>
    match n.number? with
    | some (.integer (.ofNat k)) => if k ≤ maxLimit then some (some k) else none
    | _ => none
  | _ => none

/-- An engine: its own name, or an object with that name and nothing behind it. -/
def readEngine? : Document → Option Engine
  | .string (some s) => Engine.ofOwnName? s
  | .object [(some s, .null)] => Engine.ofOwnName? s
  | _ => none

/-- Set one member from its part of a document. -/
def set? (s : Settings) (member : Member) (d : Document) : Option Settings :=
  match member with
  | .dialect => (readEngine? d).map fun engine => { s with engine }
  | .logSql => (readBool? d).map fun logSql => { s with logSql }
  | .logLevel => (readText? d).map fun logLevel => { s with logLevel }
  | .maxLogged => (readLimit? d).map fun maxLogged => { s with maxLogged }
  | .wrapInserts => (readBool? d).map fun wrapInserts => { s with wrapInserts }

/-! ### Reading -/

/-- Set the members of an object from left to right; `seen` are the ones already set. -/
def readMembers? (s : Settings) (seen : List Member) :
    List (Option String × Document) → Option Settings
  | [] => some s
  | (name, d) :: ms => do
    match Member.ofName? (← name) with
    | none => readMembers? s seen ms
    | some member =>
      if member ∈ seen then none
      else readMembers? (← s.set? member d) (member :: seen) ms

/-- Set members in their order from the items of an array, which may end early. -/
def readItems? (s : Settings) : List Member → List Document → Option Settings
  | _, [] => some s
  | [], _ :: _ => none
  | member :: members, d :: ds => do readItems? (← s.set? member d) members ds

/-- The settings that a document describes. -/
def ofDocument? : Document → Option Settings
  | .object members => readMembers? {} [] members
  | .array items => readItems? {} Member.all items
  | _ => none

/-- Read settings from the text of a document. -/
def read (text : String) : Except Error Settings :=
  match (Document.read? text).bind ofDocument? with
  | some s => .ok s
  | none => .error (.settings .unreadable)

/-! ### Writing -/

/-- The value of a member as JSON. -/
def value (s : Settings) : Member → Json
  | .dialect => .string s.engine.name
  | .logSql => .bool s.logSql
  | .logLevel => .string s.logLevel
  | .maxLogged =>
    match s.maxLogged with
    | some n => .number (.integer n)
    | none => .null
  | .wrapInserts => .bool s.wrapInserts

/-- The document with the given members. -/
def writeMembers (s : Settings) (members : List Member) : String :=
  Json.compact (.object (members.map fun m => (m.name, s.value m)))

/-- The document with all members in their order. -/
def write (s : Settings) : String :=
  s.writeMembers Member.all

end Settings

end SqlBuilder
