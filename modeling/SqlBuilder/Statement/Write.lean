import SqlBuilder.Statement.Draft

/-!
# Building a write

A write is given rows of data. With WHERE conditions it updates, and then takes one row only;
more of them are recorded as an error when they are added, and kept.
-/

namespace SqlBuilder.Write

/-- Keep an error, unless there is one already. -/
def record (w : Write) (e : Error) : Write :=
  { w with draft := w.draft.record e }

/-- Record an update of several rows. -/
def checkRows (w : Write) : Write :=
  if w.isUpdate ∧ 1 < w.rows.length then
    w.record (.unsupported (.updateRows w.rows.length))
  else w

/-- Add rows behind the ones that are there. -/
def addRows (w : Write) (rows : List Tuple) : Write :=
  { w with rows := w.rows ++ rows }.checkRows

/-- Add the rows of a JSON document, or record why it holds none. -/
def addDocument (w : Write) (document : Json) : Write :=
  match Tuple.allOfJson document with
  | .ok rows => w.addRows rows
  | .error e => w.record e

/-- A call that a write takes. -/
inductive Step where
  | common (step : Draft.Step)
  | addRows (rows : List Tuple)
  | addDocument (document : Json)

/-- The write after a call. -/
def apply (w : Write) : Step → Write
  | .common step => { w with draft := w.draft.apply step }
  | .addRows rows => w.addRows rows
  | .addDocument document => w.addDocument document

/-- The write that a sequence of calls builds. -/
def build (steps : List Step) : Write :=
  steps.foldl apply {}

end SqlBuilder.Write
