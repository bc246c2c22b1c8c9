import SqlBuilder.Text.Digits
import SqlBuilder.Text.Letters

/-!
# Log levels

The five levels of events. A level is named by its word in any letter case or by a number from 1,
the most urgent, to 5.
-/

namespace SqlBuilder

/-- How urgent an event is. -/
inductive Level where
  | error
  | warn
  | info
  | debug
  | trace
  deriving DecidableEq, Repr

namespace Level

/-- All levels, the most urgent first. -/
def all : List Level := [error, warn, info, debug, trace]

/-- The word of a level in capitals. -/
def name : Level → String
  | .error => "ERROR"
  | .warn => "WARN"
  | .info => "INFO"
  | .debug => "DEBUG"
  | .trace => "TRACE"

/-- The word of a level with one capital. -/
def title : Level → String
  | .error => "Error"
  | .warn => "Warn"
  | .info => "Info"
  | .debug => "Debug"
  | .trace => "Trace"

/-- The number of decimal digits, perhaps behind a plus sign. -/
def number? (s : String) : Option Nat :=
  let digits := match s.toList with
    | '+' :: cs => cs
    | cs => cs
  if !digits.isEmpty && digits.all Char.isDigit then
    some (Text.ofDigits digits)
  else none

/-- The level that a text names. -/
def ofText? (s : String) : Option Level :=
  match all.find? fun level => Text.sameLetters level.name s with
  | some level => some level
  | none =>
    match number? s with
    | some (n + 1) => all[n]?
    | _ => none

end Level

end SqlBuilder
