import SqlBuilder.Proofs.Connection.Interleaving

/-!
# An insert alone on its connection

An insert that wraps itself in a transaction and is not disturbed makes at most four requests. It
has its transaction committed or rolled back, unless the commit is what fails.

Main statement, at the end: if no commit fails, the insert leaves the flag clear; when it succeeds,
its requests were begin, execute, the identifier and commit, and all of them succeeded; when it
fails after it began, its last request was a rollback, and the error it returns is that of the first
request that failed, whatever became of the rollback. A commit that fails is not followed by a
rollback, and leaves the flag set (`not_forall_rollback_of_error`).

Alone on the connection, the insert knows its history from where it stands: `Exchanged` lists, for
each request that it waits for, the requests before and their answers.
-/

namespace SqlBuilder

/-- A request and what the database answered. -/
abbrev Exchange : Type :=
  (r : Request) × Reply r

/-- The error of a request that failed. -/
def Exchange.error? : Exchange → Option Error
  | ⟨_, .error e⟩ => some e
  | ⟨_, .ok _⟩ => none

/-- The history of exchanges one after the other. -/
def exchanges (xs : List Exchange) : List (Act Unit) :=
  xs.flatMap fun x => [.ask () x.1, .answer () x.1 x.2]

/-- One more exchange is one more request and its answer. -/
theorem exchanges_concat (xs : List Exchange) (r : Request) (reply : Reply r) :
    exchanges (xs ++ [⟨r, reply⟩]) = exchanges xs ++ [.ask () r] ++ [.answer () r reply] := by
  rw [exchanges, List.flatMap_append, List.append_assoc]
  rfl

/-- The last answer is in the history. -/
theorem mem_exchanges_concat (xs : List Exchange) (r : Request) (reply : Reply r) :
    .answer () r reply ∈ exchanges (xs ++ [⟨r, reply⟩]) := by
  rw [exchanges_concat]
  exact List.mem_append_right _ (List.mem_singleton_self _)

/-- An answer in the history is that of an exchange. -/
theorem mem_of_answer_mem_exchanges {xs : List Exchange} {r : Request} {reply : Reply r}
    (h : .answer () r reply ∈ exchanges xs) : ⟨r, reply⟩ ∈ xs := by
  obtain ⟨x, hx, hmem⟩ := List.mem_flatMap.mp h
  rcases List.mem_cons.mp hmem with hask | hanswer
  · cases hask
  · cases List.mem_singleton.mp hanswer
    exact hx

/-- What an insert that wraps itself has exchanged with the database, by the request that it waits
for. -/
inductive Exchanged (sql : Sql) : List Exchange → Pending → Prop where
  | opening : Exchanged sql [] (.opening sql)
  | inserting : Exchanged sql [⟨.begin, .ok ()⟩] (.inserting sql true)
  | readingId (n : Nat) :
    Exchanged sql [⟨.begin, .ok ()⟩, ⟨.execute sql, .ok n⟩] (.readingId true n)
  | closing (n : Nat) (id : Option Value) :
    Exchanged sql [⟨.begin, .ok ()⟩, ⟨.execute sql, .ok n⟩, ⟨.lastId, .ok id⟩] (.closing n id)
  | undoingInsert (e : Error) :
    Exchanged sql [⟨.begin, .ok ()⟩, ⟨.execute sql, .error e⟩] (.undoing e)
  | undoingRead (n : Nat) (e : Error) :
    Exchanged sql [⟨.begin, .ok ()⟩, ⟨.execute sql, .ok n⟩, ⟨.lastId, .error e⟩] (.undoing e)

/-- An insert that goes on with another request leaves the connection alone. -/
theorem Exchanged.next {sql : Sql} {xs : List Exchange} {p q : Pending} (h : Exchanged sql xs p)
    (c : Connection) (reply : Reply p.request) (hq : (c.resume p reply).progress = .waiting q) :
    Exchanged sql (xs ++ [⟨p.request, reply⟩]) q ∧ (c.resume p reply).connection = c := by
  -- Case by case of what has been exchanged: the reply decides between the next request, a rollback
  -- and the end, and only the first two are a request.
  cases h with
  | opening =>
    cases reply with
    | ok u =>
      cases hq
      exact ⟨.inserting, rfl⟩
    | error e => cases hq
  | inserting =>
    cases reply with
    | ok n =>
      cases hq
      exact ⟨.readingId n, rfl⟩
    | error e =>
      cases hq
      exact ⟨.undoingInsert e, rfl⟩
  | readingId n =>
    cases reply with
    | ok id =>
      cases hq
      exact ⟨.closing n id, rfl⟩
    | error e =>
      cases hq
      exact ⟨.undoingRead n e, rfl⟩
  | closing n id => cases reply <;> cases hq
  | undoingInsert e => cases reply <;> cases hq
  | undoingRead n e => cases reply <;> cases hq

/-- One that rolls back returns the first error there was. -/
theorem Exchanged.findSome?_error? {sql : Sql} {xs : List Exchange} {e : Error}
    (h : Exchanged sql xs (.undoing e)) : xs.findSome? Exchange.error? = some e := by
  cases h <;> rfl

/-- The exchanges of an insert and its result go together: it succeeds when its four requests did,
and when it fails after it began, it has rolled back and returns the first error. -/
structure AllOrNothing (sql : Sql) (xs : List Exchange) (result : Except Error Outcome) : Prop where
  of_ok : ∀ outcome, result = .ok outcome → ∃ n id, outcome = .stored (.inserted n id) ∧
    xs = [⟨.begin, .ok ()⟩, ⟨.execute sql, .ok n⟩, ⟨.lastId, .ok id⟩, ⟨.commit, .ok ()⟩]
  of_error : ∀ e, result = .error e → ⟨.begin, .ok ()⟩ ∈ xs →
    (∃ reply, xs.getLast? = some ⟨.rollback, reply⟩) ∧ xs.findSome? Exchange.error? = some e

/-- A rollback ends it with the error that there was before, whatever the database answers. -/
theorem Exchanged.allOrNothing_undoing {sql : Sql} {xs : List Exchange} {e : Error}
    (h : Exchanged sql xs (.undoing e)) (reply : Reply .rollback) :
    AllOrNothing sql (xs ++ [⟨.rollback, reply⟩]) (.error e) where
  of_ok _ hok := nomatch hok
  of_error e' he' _ := by
    refine ⟨⟨reply, List.getLast?_concat⟩, ?_⟩
    rw [List.findSome?_append, h.findSome?_error?, Option.some_or]
    exact congrArg some (Except.error.inj he')

/-- An insert that ends leaves the flag clear and is all or nothing, unless its commit failed. -/
theorem Exchanged.allOrNothing {sql : Sql} {xs : List Exchange} {p : Pending}
    (h : Exchanged sql xs p) (c : Connection) (reply : Reply p.request)
    {result : Except Error Outcome} (hresult : (c.resume p reply).progress = .finished result)
    (hcommit : ∀ e, .answer () .commit (.error e) ∉ exchanges (xs ++ [⟨p.request, reply⟩])) :
    (c.resume p reply).connection.inTransaction = false ∧
      AllOrNothing sql (xs ++ [⟨p.request, reply⟩]) result := by
  -- By the last request. Only a begin that failed, a commit and a rollback end the insert.
  cases p with
  | opening =>
    cases h
    cases reply with
    | ok u => cases hresult
    | error e =>
      cases hresult
      refine ⟨rfl, ⟨fun _ hok => ?_, fun _ _ hbegin => ?_⟩⟩
      · cases hok
      · cases List.mem_singleton.mp hbegin
  | closing n id =>
    cases h
    cases reply with
    | ok u =>
      cases hresult
      refine ⟨rfl, ⟨fun _ hok => ⟨n, id, (Except.ok.inj hok).symm, rfl⟩, fun _ he => ?_⟩⟩
      cases he
    | error e => exact absurd (mem_exchanges_concat _ .commit (.error e)) (hcommit e)
  | undoing e => cases reply <;> cases hresult <;> exact ⟨rfl, h.allOrNothing_undoing _⟩
  | inserting | readingId =>
    -- These are followed by another request.
    cases h
    cases reply <;> cases hresult
  | _ => cases h

namespace Connection

/-- A connection that an insert has taken the flag of. -/
def taken (c : Connection) : Connection :=
  { c with inTransaction := true }

/-- An insert that wraps itself takes the flag and asks to begin. -/
theorem start_store_of_wraps {c : Connection} {w : Write} {sql : Sql}
    (hwrap : c.wrapInserts = true) (hclear : c.inTransaction = false) (hinsert : w.isUpdate = false)
    (hsql : (Statement.write w).compile c.dialect = .ok sql) :
    (c.start (.store w)).connection = c.taken ∧
      (c.start (.store w)).progress = .waiting (.opening sql) := by
  have hcompile : ∃ events, c.compile (.write w) = .ok (sql, events) := by
    rw [Connection.compile, hsql]
    exact ⟨_, rfl⟩
  obtain ⟨events, hcompile⟩ := hcompile
  have hstart : c.start (.store w) = c.startInsert sql events := by
    simp only [Connection.start, Connection.withSql, hcompile, hinsert, Bool.false_eq_true,
      if_false]
  have hown : (c.wrapInserts && !c.inTransaction) = true := by rw [hwrap, hclear]; rfl
  rw [hstart, startInsert, if_pos hown]
  exact ⟨rfl, rfl⟩

end Connection

namespace Shared

/-- Where an insert alone stands: the connection, the stage and the history. -/
inductive Sole (c : Connection) (w : Write) (sql : Sql) :
    Connection → Stage → List (Act Unit) → Prop where
  | ready : Sole c w sql c (.ready (.store w)) []
  | asking {xs : List Exchange} {p : Pending} (h : Exchanged sql xs p) :
    Sole c w sql c.taken (.asking p) (exchanges xs ++ [.ask () p.request])
  | answered {xs : List Exchange} {p : Pending} (h : Exchanged sql xs p)
      (reply : Reply p.request) :
    Sole c w sql c.taken (.answered p reply) (exchanges (xs ++ [⟨p.request, reply⟩]))
  | ended {xs : List Exchange} {p : Pending} (h : Exchanged sql xs p) (reply : Reply p.request)
      {result : Except Error Outcome}
      (hresult : (c.taken.resume p reply).progress = .finished result) :
    Sole c w sql (c.taken.resume p reply).connection (.ended result)
      (exchanges (xs ++ [⟨p.request, reply⟩]))

variable {c d : Connection} {w : Write} {sql : Sql} {history : List (Act Unit)} {s t : Shared Unit}

/-- Before its first turn an insert has exchanged nothing. -/
theorem Sole.of_ready {operation : Operation} (h : Sole c w sql d (.ready operation) history) :
    operation = .store w ∧ d = c ∧ history = [] := by
  cases h
  exact ⟨rfl, rfl, rfl⟩

/-- Behind the exchanges of one that waits there is its request. -/
theorem Sole.of_asking {p : Pending} (h : Sole c w sql d (.asking p) history) :
    ∃ xs, Exchanged sql xs p ∧ d = c.taken ∧ history = exchanges xs ++ [.ask () p.request] := by
  cases h with
  | asking hexchanged => exact ⟨_, hexchanged, rfl, rfl⟩

/-- The last exchange of one that was answered is that of its request. -/
theorem Sole.of_answered {p : Pending} {reply : Reply p.request}
    (h : Sole c w sql d (.answered p reply) history) :
    ∃ xs, Exchanged sql xs p ∧ d = c.taken ∧ history = exchanges (xs ++ [⟨p.request, reply⟩]) := by
  cases h with
  | answered hexchanged => exact ⟨_, hexchanged, rfl, rfl⟩

/-- One that has ended did so with its last exchange. -/
theorem Sole.of_ended {result : Except Error Outcome} (h : Sole c w sql d (.ended result) history) :
    ∃ xs p reply, Exchanged sql xs p ∧ (c.taken.resume p reply).progress = .finished result ∧
      d = (c.taken.resume p reply).connection ∧
        history = exchanges (xs ++ [⟨p.request, reply⟩]) := by
  cases h with
  | ended hexchanged reply hresult => exact ⟨_, _, reply, hexchanged, hresult, rfl, rfl⟩

/-- A step of an insert alone leads from one of its places to the next. -/
theorem Step.sole (hstart : (c.start (.store w)).connection = c.taken ∧
      (c.start (.store w)).progress = .waiting (.opening sql)) (h : Step s t)
    (hs : Sole c w sql s.connection (s.stage ()) s.history) :
    Sole c w sql t.connection (t.stage ()) t.history := by
  cases h with
  | @start i operation hi =>
    rw [hi] at hs
    obtain ⟨rfl, hc, hhistory⟩ := hs.of_ready
    obtain ⟨hconnection, hprogress⟩ := hstart
    rw [stage_take_self, Shared.take, hc, hconnection, hprogress, hhistory]
    exact .asking .opening
  | @answer i p hi reply =>
    rw [hi] at hs
    obtain ⟨xs, hexchanged, hc, hhistory⟩ := hs.of_asking
    rw [stage_hear_self, Shared.hear, hc, hhistory, ← exchanges_concat]
    exact .answered hexchanged reply
  | @resume i p reply hi =>
    rw [hi] at hs
    obtain ⟨xs, hexchanged, hc, hhistory⟩ := hs.of_answered
    rw [stage_take_self, Shared.take, hc, hhistory]
    cases hprogress : (c.taken.resume p reply).progress with
    | waiting q =>
      obtain ⟨hnext, hconnection⟩ := hexchanged.next c.taken reply hprogress
      rw [hconnection]
      exact .asking hnext
    | finished result =>
      rw [Progress.asks, List.append_nil]
      exact .ended hexchanged reply hprogress

/-- In every run an insert alone is at one of its places. -/
theorem Run.sole (hstart : (c.start (.store w)).connection = c.taken ∧
      (c.start (.store w)).progress = .waiting (.opening sql))
    (h : Run (initial c fun _ : Unit => .store w) s) :
    Sole c w sql s.connection (s.stage ()) s.history := by
  induction h with
  | refl => exact .ready
  | tail _ hlast ih => exact hlast.sole hstart ih

/-- **All or nothing.** In every run of an insert alone, on a connection that wraps it and whose
flag is clear, with any answers of which none is a commit that failed: once the insert has ended,
the flag is clear; if it succeeded, it began, executed, read the identifier and committed, with
success; if it failed after it began, its last request was a rollback, and the error is that of the
first request that failed. -/
theorem Run.all_or_nothing (hwrap : c.wrapInserts = true) (hclear : c.inTransaction = false)
    (hinsert : w.isUpdate = false) (hsql : (Statement.write w).compile c.dialect = .ok sql)
    (h : Run (initial c fun _ : Unit => .store w) s) {result : Except Error Outcome}
    (hended : s.stage () = .ended result)
    (hcommit : ∀ e, .answer () .commit (.error e) ∉ s.history) :
    ∃ xs, s.history = exchanges xs ∧ s.connection.inTransaction = false ∧
      (∀ outcome, result = .ok outcome → ∃ n id, outcome = .stored (.inserted n id) ∧
        xs = [⟨.begin, .ok ()⟩, ⟨.execute sql, .ok n⟩, ⟨.lastId, .ok id⟩, ⟨.commit, .ok ()⟩]) ∧
      ∀ e, result = .error e → ⟨.begin, .ok ()⟩ ∈ xs →
        (∃ reply, xs.getLast? = some ⟨.rollback, reply⟩) ∧
          xs.findSome? Exchange.error? = some e := by
  have hsole := Run.sole (Connection.start_store_of_wraps hwrap hclear hinsert hsql) h
  rw [hended] at hsole
  -- Its place tells the whole history, and with it the connection.
  obtain ⟨xs, p, reply, hexchanged, hresult, hconnection, hhistory⟩ := hsole.of_ended
  rw [hhistory] at hcommit
  obtain ⟨hflag, hall⟩ := hexchanged.allOrNothing _ reply hresult hcommit
  rw [← hconnection] at hflag
  exact ⟨_, hhistory, hflag, hall.of_ok, hall.of_error⟩

/-- An insert that is told no identifier, and whose rollback fails too. -/
def forsaken : Shared Unit :=
  [.turn (), .answer () (willing .null), .turn (), .answer () (willing .null), .turn (),
    .answer () fun _ => .error (.execution "no identifier"), .turn (), .answer () broken,
    .turn ()].foldl choose (initial quiet fun _ => .store oneRow)

theorem run_forsaken : Run (initial quiet fun _ => .store oneRow) forsaken :=
  run_foldl_choose _ _

theorem Run.all_or_nothing_forsaken :
    forsaken.stage () = .ended (.error (.execution "no identifier")) ∧
      forsaken.connection.inTransaction = false ∧
      ∃ xs, forsaken.history = exchanges xs ∧ (∃ reply, xs.getLast? = some ⟨.rollback, reply⟩) ∧
        xs.findSome? Exchange.error? = some (.execution "no identifier") := by
  have hended : forsaken.stage () = .ended (.error (.execution "no identifier")) := rfl
  obtain ⟨sql, hsql⟩ : ∃ sql, (Statement.write oneRow).compile quiet.dialect = .ok sql := ⟨_, rfl⟩
  obtain ⟨sql', hhistory⟩ : ∃ sql', forsaken.history =
      [.ask () .begin, .answer () .begin (.ok ()), .ask () (.execute sql'),
        .answer () (.execute sql') (.ok 1), .ask () .lastId,
        .answer () .lastId (.error (.execution "no identifier")), .ask () .rollback,
        .answer () .rollback (.error (.execution "broken"))] := ⟨_, rfl⟩
  have hcommit : ∀ e, .answer () .commit (.error e) ∉ forsaken.history := by
    intro e hmem
    rw [hhistory] at hmem
    simp only [List.mem_cons, reduceCtorEq, Act.answer.injEq, false_and, and_false, or_self,
      List.not_mem_nil] at hmem
  obtain ⟨xs, hxs, hflag, -, herror⟩ :=
    Run.all_or_nothing rfl rfl rfl hsql run_forsaken hended hcommit
  have hbegin : ⟨.begin, .ok ()⟩ ∈ xs := by
    refine mem_of_answer_mem_exchanges ?_
    rw [← hxs, hhistory]
    exact List.mem_cons_of_mem _ List.mem_cons_self
  exact ⟨hended, hflag, xs, hxs, herror _ rfl hbegin⟩

/-- An insert that fails to commit. -/
def uncommitted : Shared Unit :=
  [.turn (), .answer () (willing .null), .turn (), .answer () (willing .null), .turn (),
    .answer () (willing .null), .turn (), .answer () broken, .turn ()].foldl choose
      (initial quiet fun _ => .store oneRow)

/-- An insert that fails after it began may leave the flag set, and not be rolled back. -/
theorem not_forall_rollback_of_error :
    ¬∀ (c : Connection) (w : Write) (sql : Sql) (s : Shared Unit) (e : Error),
      c.wrapInserts = true → c.inTransaction = false → w.isUpdate = false →
        (Statement.write w).compile c.dialect = .ok sql →
          Run (initial c fun _ : Unit => .store w) s → s.stage () = .ended (.error e) →
            .answer () .begin (.ok ()) ∈ s.history →
              s.connection.inTransaction = false ∨
                ∃ reply, s.history.getLast? = some (.answer () .rollback reply) := by
  intro hall
  obtain ⟨sql, hsql⟩ : ∃ sql, (Statement.write oneRow).compile quiet.dialect = .ok sql := ⟨_, rfl⟩
  have hlast : uncommitted.history.getLast? =
      some (.answer () .commit (.error (.execution "broken"))) := rfl
  rcases hall quiet oneRow sql uncommitted (.execution "broken") rfl rfl rfl hsql
    (run_foldl_choose _ _) rfl (List.mem_iff_getElem?.mpr ⟨1, rfl⟩) with hflag | ⟨reply, hreply⟩
  · exact Bool.noConfusion (hflag.symm.trans (rfl : uncommitted.connection.inTransaction = true))
  · cases hlast.symm.trans hreply

end Shared

end SqlBuilder
