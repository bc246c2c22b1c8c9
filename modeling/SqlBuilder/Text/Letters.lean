/-!
# Letter case in ASCII

Names of statements, dialects, joins and log levels are compared without regard to the case of
the ASCII letters; every other character counts as it stands. `Char.toLower` moves exactly the
letters `A` to `Z`, so mapping it over a text is the whole rule.
-/

namespace SqlBuilder.Text

/-- The text with its ASCII letters in lower case. -/
def lower (s : String) : String :=
  String.ofList (s.toList.map Char.toLower)

/-- Whether two texts agree but for the case of ASCII letters. -/
def sameLetters (s t : String) : Bool :=
  lower s == lower t

theorem sameLetters_iff {s t : String} : sameLetters s t = true ↔ lower s = lower t := by
  simp [sameLetters]

end SqlBuilder.Text
