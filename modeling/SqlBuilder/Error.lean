import SqlBuilder.Text.Digits

/-!
# Errors

Everything that can go wrong, as a cause. The wording of each cause is in one place:
`Error.message` puts the class of an error in front of the text of its cause.
-/

namespace SqlBuilder

/-- The forms of expression that are read from text. -/
inductive Form where
  /-- `field operator operand` -/
  | condition
  /-- `name alias`, a selected field -/
  | field
  /-- `name alias`, a table or another source -/
  | source
  deriving DecidableEq, Repr

/-- How many tokens an expression of the form has at most. -/
def Form.maxTokens : Form → Nat
  | .condition => 3
  | .field => 2
  | .source => 2

/-- The rule that an expression with too many tokens breaks. -/
def Form.rule : Form → String
  | .condition => "conditions take at most \"field operator value\""
  | .field =>
    "field expressions may only contain a single space separating the field and alias"
  | .source =>
    "source expressions may only contain a single space separating the source and alias"

/-- Why an expression cannot be read. -/
inductive Malformation where
  | empty
  | tooManyTokens (form : Form)
  /-- A space at either end, or two in a row. -/
  | looseSpaces
  | notAnObject
  /-- A reason in the words of the caller. -/
  | other (reason : String)
  deriving DecidableEq, Repr

/-- The wording of a malformation. -/
def Malformation.text : Malformation → String
  | .empty => "expression is empty"
  | .tooManyTokens form => form.rule
  | .looseSpaces => "tokens must be separated by exactly one space"
  | .notAnObject => "data tuple must be a JSON object"
  | .other reason => reason

/-- A name that nothing is known by. -/
inductive UnknownName where
  | statement (name : String)
  | dialect (name : String)
  deriving DecidableEq, Repr

/-- The wording of an unknown name. -/
def UnknownName.text : UnknownName → String
  | .statement name => name
  | .dialect name => "dialect " ++ name

/-- What SQL has no form for. -/
inductive Unsupported where
  | joinKind (name : String)
  | crossJoinConditions (source : String)
  | updateRows (count : Nat)
  | listOperand (operator : String)
  /-- A text in the words of the caller. -/
  | other (text : String)
  deriving DecidableEq, Repr

/-- The wording of what is not supported. -/
def Unsupported.text : Unsupported → String
  | .joinKind name => "join type \"" ++ name ++ "\""
  | .crossJoinConditions source => "CROSS JOIN " ++ source ++ " cannot have ON conditions"
  | .updateRows count => "UPDATE accepts exactly one data tuple, got " ++ Text.natText count
  | .listOperand operator =>
    "list bound to \"" ++ operator ++ "\" which is not IN / NOT IN"
  | .other text => text

/-- A statement put together in the wrong order, or not completely. -/
inductive Misuse where
  | onBeforeJoin (expression : String)
  | closeBeforeOn
  | closeBeforeWhere
  | writeWithoutSource
  | writeWithoutData
  | insertSources (count : Nat)
  | unequalFields (row : Nat)
  | deleteWithoutSource
  | deleteEverything
  /-- A text in the words of the caller. -/
  | other (text : String)
  deriving DecidableEq, Repr

/-- The wording of a misuse. -/
def Misuse.text : Misuse → String
  | .onBeforeJoin expression => "on(\"" ++ expression ++ "\") called before join()"
  | .closeBeforeOn => "close() called before any on() condition of the current join"
  | .closeBeforeWhere => "close() called before any where() condition"
  | .writeWithoutSource => "save has no source"
  | .writeWithoutData => "save has no data"
  | .insertSources count => "INSERT takes exactly one source, got " ++ Text.natText count
  | .unequalFields row =>
    "data tuple " ++ Text.natText row ++ " does not have the same fields as the first tuple"
  | .deleteWithoutSource => "remove has no source"
  | .deleteEverything =>
    "remove without conditions deletes every row; call allow_all() to permit it"
  | .other text => text

/-- Why settings cannot be used. -/
inductive BadSettings where
  /-- The document does not describe settings. -/
  | unreadable
  | unknownLevel (name : String)
  deriving DecidableEq, Repr

/-- The wording of bad settings. -/
def BadSettings.text : BadSettings → String
  | .unreadable => "the document does not describe settings"
  | .unknownLevel name => "unknown log level \"" ++ name ++ "\""

/-- An error of building, compiling or running a statement. -/
inductive Error where
  | malformed (expression : String) (why : Malformation)
  | unknown (name : UnknownName)
  | unsupported (what : Unsupported)
  | structural (misuse : Misuse)
  /-- The database failed, in its own words. -/
  | execution (text : String)
  | settings (why : BadSettings)
  deriving DecidableEq, Repr

namespace Error

/-- The text shown for an error. -/
def message : Error → String
  | .malformed expression why => "Malformed expression \"" ++ expression ++ "\": " ++ why.text
  | .unknown name => "Unknown dialect operation: " ++ name.text
  | .unsupported what => "Unsupported operation: " ++ what.text
  | .structural misuse => "Structural state error: " ++ misuse.text
  | .execution text => "Execution error: " ++ text
  | .settings why => "Config error: " ++ why.text

/-- Whether an expression could not be read. -/
def isMalformed : Error → Bool
  | .malformed .. => true
  | _ => false

/-- Whether a name is not known. -/
def isUnknown : Error → Bool
  | .unknown _ => true
  | _ => false

/-- Whether SQL has no form for what was asked. -/
def isUnsupported : Error → Bool
  | .unsupported _ => true
  | _ => false

/-- Whether a statement was put together wrongly. -/
def isStructural : Error → Bool
  | .structural _ => true
  | _ => false

/-- Whether the database failed. -/
def isExecution : Error → Bool
  | .execution _ => true
  | _ => false

/-! ### Checks -/

/-- Fail with the error, if there is one. -/
def raise : Option Error → Except Error Unit
  | some e => .error e
  | none => .ok ()

/-- Fail with the error, unless the condition holds. -/
def require (holds : Bool) (e : Error) : Except Error Unit :=
  if holds then .ok () else .error e

end Error

end SqlBuilder
