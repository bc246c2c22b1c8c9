import SqlBuilder.Statement.Draft

/-!
# Building a delete

A delete without conditions would remove every row, and is refused unless it says that it may.
-/

namespace SqlBuilder.Delete

/-- A call that a delete takes. -/
inductive Step where
  | common (step : Draft.Step)
  | allowAll

/-- The delete after a call. -/
def apply (d : Delete) : Step → Delete
  | .common step => { d with draft := d.draft.apply step }
  | .allowAll => { d with allRows := true }

/-- The delete that a sequence of calls builds. -/
def build (steps : List Step) : Delete :=
  steps.foldl apply {}

end SqlBuilder.Delete
