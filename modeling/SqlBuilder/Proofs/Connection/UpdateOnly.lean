import SqlBuilder.Proofs.Compile.Given
import SqlBuilder.Proofs.Connection.History

/-!
# Writes that were given a condition

A write that was given a condition never inserts: it is an update, or it does not compile, because
the call with the condition failed. Stored on a connection, whatever else runs on it, it makes at
most the one request of an update, asks for no transaction, and reports an update if it succeeds.

Main statement, at the end: conditions are never dropped (`Given.never_dropped`), neither from a
write nor from a delete, which says of the compiled text what `Write.compile_of_given` and
`Delete.compile_of_given` say, and of every run on a connection what `UpdateAt` says of a step.
-/

namespace SqlBuilder

/-- The write is an update whenever it compiles. -/
def Write.OnlyUpdates (w : Write) : Prop :=
  ∀ d out, w.compile d = .ok out → w.isUpdate = true

/-- Where the storing of a write stands that is an update whenever it compiles. -/
inductive UpdateAt (w : Write) (d : Dialect) : Stage → Prop
  | ready : UpdateAt w d (.ready (.store w))
  | asking {sql : Sql} (h : w.compile d = .ok sql) : UpdateAt w d (.asking (.updating sql))
  | answered {sql : Sql} (h : w.compile d = .ok sql) (reply : Reply (.execute sql)) :
    UpdateAt w d (.answered (.updating sql) reply)
  | failed (e : Error) : UpdateAt w d (.ended (.error e))
  | updated (n : Nat) : UpdateAt w d (.ended (.ok (.stored (.updated n))))

namespace UpdateAt

variable {w : Write} {d : Dialect} {p : Pending}

/-- The one request of an update is its statement. -/
theorem request_eq (h : UpdateAt w d (.asking p)) :
    ∃ sql, w.compile d = .ok sql ∧ p.request = .execute sql := by
  cases h with
  | @asking sql hsql => exact ⟨sql, hsql, rfl⟩

/-- The first turn. -/
theorem of_start (hw : w.OnlyUpdates) (c : Connection) :
    UpdateAt w c.dialect (c.start (.store w)).progress.stage := by
  have hcompile : c.compile (.write w) = (w.compile c.dialect).map fun sql =>
    (sql, .compiled .write c.dialect.name sql.params.length ::
      c.logger?.toList.map (·.event .write c.dialect.name sql)) := rfl
  rw [Connection.start, Connection.withSql, hcompile]
  cases hsql : w.compile c.dialect with
  | error e => exact .failed e
  | ok sql =>
    -- It compiles, so it is an update and does not get to the turn of an insert.
    have hupdate : w.isUpdate = true := hw c.dialect sql hsql
    change UpdateAt w c.dialect (Turn.progress (if w.isUpdate then _ else _)).stage
    rw [if_pos hupdate]
    exact .asking hsql

/-- The answer to its request. -/
theorem of_answer (h : UpdateAt w d (.asking p)) (reply : Reply p.request) :
    UpdateAt w d (.answered p reply) := by
  cases h with
  | asking hsql => exact .answered hsql reply

/-- The last turn. -/
theorem of_resume {reply : Reply p.request} (h : UpdateAt w d (.answered p reply))
    (c : Connection) : UpdateAt w d (c.resume p reply).progress.stage := by
  cases h with
  | answered hsql reply =>
    cases reply with
    | ok n => exact .updated n
    | error e => exact .failed e

end UpdateAt

namespace Shared

variable {ι : Type} [DecidableEq ι] {s t : Shared ι} {i : ι} {w : Write} {d : Dialect}

/-- Operation `i` stores the write, which has made no request but its statement. -/
structure Updating (s : Shared ι) (i : ι) (w : Write) (d : Dialect) : Prop where
  dialect : s.connection.dialect = d
  stage : UpdateAt w d (s.stage i)
  asked : ∀ r, .ask i r ∈ s.history → ∃ sql, w.compile d = .ok sql ∧ r = .execute sql

/-- A turn of the operation itself. -/
theorem Updating.take_self (h : s.Updating i w d) {c : Connection} {progress : Progress}
    (hdialect : c.dialect = d) (hstage : UpdateAt w d progress.stage) :
    (s.take i c progress).Updating i w d := by
  refine ⟨hdialect, ?_, fun r hr => ?_⟩
  · rw [stage_take_self]
    exact hstage
  · rcases mem_history_take hr with hold | ⟨-, p, rfl, rfl⟩
    · exact h.asked r hold
    · exact hstage.request_eq

/-- A turn of another one. -/
theorem Updating.take_of_ne (h : s.Updating i w d) {j : ι} (hj : i ≠ j) {c : Connection}
    {progress : Progress} (hdialect : c.dialect = d) : (s.take j c progress).Updating i w d := by
  refine ⟨hdialect, ?_, fun r hr => ?_⟩
  · rw [stage_take_of_ne s hj]
    exact h.stage
  · rcases mem_history_take hr with hold | ⟨hij, -⟩
    · exact h.asked r hold
    · exact absurd hij hj

/-- **A step** of the operation or of another one, or an answer to one of them. -/
theorem Step.updating (h : Step s t) (hw : w.OnlyUpdates) (hs : s.Updating i w d) :
    t.Updating i w d := by
  cases h with
  | @start j operation hj =>
    have hdialect : (s.connection.start operation).connection.dialect = d := by
      rw [(OperationTurn.of_start s.connection operation).connection_eq]
      exact hs.dialect
    by_cases hij : i = j
    · subst hij
      -- It has made no turn, so what it is about to do is to store the write.
      have hready : UpdateAt w d (.ready operation) := hj ▸ hs.stage
      cases hready
      refine hs.take_self hdialect ?_
      rw [← hs.dialect]
      exact .of_start hw s.connection
    · exact hs.take_of_ne hij hdialect
  | @answer j p hj reply =>
    refine ⟨hs.dialect, ?_, fun r hr => hs.asked r (mem_history_hear hr)⟩
    by_cases hij : i = j
    · subst hij
      have hasking : UpdateAt w d (.asking p) := hj ▸ hs.stage
      rw [stage_hear_self]
      exact hasking.of_answer reply
    · rw [stage_hear_of_ne s hij]
      exact hs.stage
  | @resume j p reply hj =>
    have hdialect : (s.connection.resume p reply).connection.dialect = d := by
      rw [(OperationTurn.of_resume s.connection p reply).connection_eq]
      exact hs.dialect
    by_cases hij : i = j
    · subst hij
      have hanswered : UpdateAt w d (.answered p reply) := hj ▸ hs.stage
      exact hs.take_self hdialect (hanswered.of_resume s.connection)
    · exact hs.take_of_ne hij hdialect

theorem Run.updating {c : Connection} {operations : ι → Operation}
    (h : Run (initial c operations) s) (hw : w.OnlyUpdates) (hi : operations i = .store w) :
    s.Updating i w c.dialect := by
  induction h with
  | refl =>
    refine ⟨rfl, ?_, fun r hr => nomatch hr⟩
    change UpdateAt w c.dialect (.ready (operations i))
    rw [hi]
    exact .ready
  | tail _ hlast ih => exact hlast.updating hw ih

end Shared

/-- A write that was given a condition is an update whenever it compiles. -/
theorem Write.onlyUpdates_of_given {steps : List Step} (h : steps.flatMap Step.given ≠ []) :
    (build steps).OnlyUpdates :=
  fun _ _ hcompile => (compile_of_given h hcompile).1

/-- A delete may remove every row only if it was told so. -/
theorem Delete.allowAll_mem_of_allRows {steps : List Step} (h : (build steps).allRows = true) :
    .allowAll ∈ steps := by
  have hsteps (r : Delete) (hr : (steps.foldl apply r).allRows = true) :
      r.allRows = true ∨ .allowAll ∈ steps := by
    clear h
    induction steps generalizing r with
    | nil => exact .inl hr
    | cons step steps ih =>
      cases step with
      | allowAll => exact .inr List.mem_cons_self
      | common step => exact (ih _ hr).imp_right (List.mem_cons_of_mem _)
  exact (hsteps {} h).resolve_left Bool.false_ne_true

/-- **Conditions are never dropped.** A write that was given at least one condition and compiles is
an UPDATE of one row, and no INSERT. Its WHERE chain has one condition for each that was given, with
what it was bound to and how it was attached, and all of them stand behind WHERE in the text, with
the values that they bind among the parameters. However often and wherever it is stored, it asks the
database for nothing but its statement, so for no begin, commit or rollback, and what it reports is
an update. The same holds of the conditions of a delete that compiles; it has no WHERE only if it
was given none and may remove every row. -/
theorem Given.never_dropped :
    (∀ steps : List Write.Step, steps.flatMap Write.Step.given ≠ [] →
      (∀ (d : Dialect) (out : Sql), (Write.build steps).compile d = .ok out →
        List.Forall₂ (fun g c => Given.Reads g c.part) (steps.flatMap Write.Step.given)
            (Write.build steps).draft.wheres ∧
          (∃ row, (Write.build steps).rows = [row] ∧
            out = Rendering.sql d
              (.word "UPDATE " ::
                  commaItems ((Write.build steps).draft.sources.map Aliased.sourceItems) ++
                .word " SET " :: commaItems (row.entries.map (assignmentItems d)) ++
                .word " WHERE " :: chainItems d (Write.build steps).draft.wheres)) ∧
          ¬"INSERT".toList <+: out.text.toList) ∧
        ∀ (ι : Type) [DecidableEq ι] (c : Connection) (operations : ι → Operation) (i : ι)
          (s : Shared ι), operations i = .store (Write.build steps) →
            Shared.Run (Shared.initial c operations) s →
              (∀ r, .ask i r ∈ s.history →
                ∃ sql, (Write.build steps).compile c.dialect = .ok sql ∧ r = .execute sql) ∧
                ∀ outcome, s.stage i = .ended (.ok outcome) →
                  ∃ n, outcome = .stored (.updated n)) ∧
    ∀ (steps : List Delete.Step) (d : Dialect) (out : Sql),
      (Delete.build steps).compile d = .ok out →
      List.Forall₂ (fun g c => Given.Reads g c.part) (steps.flatMap Delete.Step.given)
          (Delete.build steps).draft.wheres ∧
        ((Delete.build steps).draft.wheres ≠ [] ∧
            out = Rendering.sql d
              (.word "DELETE FROM " ::
                  commaItems ((Delete.build steps).draft.sources.map Aliased.sourceItems) ++
                .word " WHERE " :: chainItems d (Delete.build steps).draft.wheres) ∨
          steps.flatMap Delete.Step.given = [] ∧ .allowAll ∈ steps ∧
            out = Rendering.sql d
              (.word "DELETE FROM " ::
                commaItems ((Delete.build steps).draft.sources.map Aliased.sourceItems))) := by
  refine ⟨fun steps hgiven => ⟨fun d out h => ?_, fun ι _ c operations i s hi hrun => ?_⟩,
    fun steps d out h => ?_⟩
  · obtain ⟨-, hconditions, row, hrows, hout⟩ := Write.compile_of_given hgiven h
    refine ⟨hconditions, ⟨row, hrows, hout⟩, ?_⟩
    -- The first word is another one.
    rw [hout]
    simp [Rendering.sql, Rendering.text, Item.text, String.toList_append]
  · have hupdating := hrun.updating (Write.onlyUpdates_of_given hgiven) hi
    refine ⟨hupdating.asked, fun outcome hended => ?_⟩
    have hupdated : UpdateAt (Write.build steps) c.dialect (.ended (.ok outcome)) :=
      hended ▸ hupdating.stage
    cases hupdated with
    | updated n => exact ⟨n, rfl⟩
  · obtain ⟨hconditions, hchain | ⟨hnone, hall, hout⟩⟩ := Delete.compile_of_given h
    · exact ⟨hconditions, .inl hchain⟩
    · exact ⟨hconditions, .inr ⟨hnone, Delete.allowAll_mem_of_allRows hall, hout⟩⟩

/-- An update that is given its conditions before and behind its row. -/
def updateSteps : List Write.Step := [
  .common (.addSources (.texts ["t"])),
  .common (.openBrackets 1),
  .common (.addConditions [("a", .value (.int 1)), ("b ~ ?*", .value (.text "x"))]),
  .addRows [.ofList [("c", .int 2)]],
  .common (.addCondition "d" (.value .null) .or),
  .common (.closeBrackets 1)]

/-- A delete with a condition. -/
def deleteSteps : List Delete.Step := [
  .common (.addSources (.texts ["t"])),
  .allowAll,
  .common (.addCondition "a" (.value (.int 1)) .and)]

theorem Given.never_dropped_three :
    (∃ out, (Write.build updateSteps).compile Engine.sql.dialect = .ok out ∧
      (Write.build updateSteps).draft.wheres.length = 3 ∧
      out.text =
        "UPDATE \"t\" SET \"c\" = ? WHERE (\"a\" = ? AND \"b\" LIKE ? OR \"d\" IS NULL)" ∧
      out.params = [.int 2, .int 1, .text "x%"]) ∧
    (∃ (s : Shared Unit) (outcome : Outcome) (n : Nat),
      Shared.Run (Shared.initial Shared.quiet fun _ => .store (Write.build updateSteps)) s ∧
        s.stage () = .ended (.ok outcome) ∧ outcome = .stored (.updated n) ∧
          .ask () .begin ∉ s.history) ∧
    ∃ out, (Delete.build deleteSteps).compile Engine.sql.dialect = .ok out ∧
      (Delete.build deleteSteps).draft.wheres.length = 1 ∧
      out.text = "DELETE FROM \"t\" WHERE \"a\" = ?" ∧ out.params = [.int 1] := by
  obtain ⟨hwrite, hdelete⟩ := Given.never_dropped
  obtain ⟨hcompiled, hstored⟩ := hwrite updateSteps (List.cons_ne_nil _ _)
  refine ⟨?_, ?_, ?_⟩
  · obtain ⟨hconditions, ⟨row, hrow, hout⟩, -⟩ := hcompiled Engine.sql.dialect _ rfl
    obtain rfl : Tuple.ofList [("c", .int 2)] = row := (List.cons.inj hrow).1
    refine ⟨_, rfl, hconditions.length_eq.symm, ?_, ?_⟩
    · rw [hout]
      decide
    · rw [hout]
      rfl
  · have hrun := Shared.run_foldl_choose
      (Shared.initial Shared.quiet fun _ => .store (Write.build updateSteps))
      [.turn (), .answer () (Shared.willing .null), .turn ()]
    obtain ⟨hasked, hended⟩ := hstored Unit Shared.quiet _ () _ rfl hrun
    obtain ⟨n, hn⟩ := hended _ rfl
    refine ⟨_, _, n, hrun, rfl, hn, fun hbegin => ?_⟩
    obtain ⟨sql, -, hsql⟩ := hasked .begin hbegin
    cases hsql
  · obtain ⟨hconditions, ⟨-, hout⟩ | ⟨hnone, -⟩⟩ := hdelete deleteSteps Engine.sql.dialect _ rfl
    · refine ⟨_, rfl, hconditions.length_eq.symm, ?_, ?_⟩
      · rw [hout]
        decide
      · rw [hout]
        rfl
    · cases hnone

end SqlBuilder
