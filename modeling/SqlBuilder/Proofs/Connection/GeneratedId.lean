import Mathlib.Data.List.Basic
import SqlBuilder.Proofs.Connection.Interleaving

/-!
# Whose identifier an insert reads

A session of a database gives every insert an identifier of its own and tells the last one that it
gave. An insert learns its identifier by a second request, and between the two requests of one
insert the others may make theirs, because the flag keeps no insert from running that did not take
it. So the identifier that is read need not be the one that was generated for the reader.

Main statement, at the end: an insert that was reported with an identifier reads the one that was
generated for the last insert the database executed before it was asked, and this is its own exactly
if that last insert is its own.

The stores in the order of their inserts (`inserters`) number the identifiers. No store executes
twice, so a place in that list belongs to one store, and an insert that was reported is in it
before it asked for the identifier. This is an invariant of the store alone
(`Shared.Recorded`): it relates where the store stands to the history and needs nothing about the
other stores.
-/

namespace SqlBuilder

/-! ### Identifiers of a history -/

namespace Act

variable {ι : Type}

/-- Who executed an insert by the act, if somebody did. -/
def inserter? : Act ι → Option ι
  | .answer i (.execute _) (.ok _) => some i
  | _ => none

/-- An answer is an insert of the one who is answered. -/
theorem eq_of_inserter? {i j : ι} {r : Request} {reply : Reply r}
    (h : (answer i r reply).inserter? = some j) : i = j := by
  cases r with
  | execute sql =>
    cases reply with
    | ok n => exact Option.some.inj h
    | error e => cases h
  | _ => cases h

end Act

section History

variable {ι : Type}

/-- Who has inserted, in the order of the inserts. -/
def inserters (history : List (Act ι)) : List ι :=
  history.filterMap Act.inserter?

/-- What the database generated for the insert of `i`, if the insert with the number `k` is given
`ids k`. -/
def generated [DecidableEq ι] (ids : Nat → Value) (history : List (Act ι)) (i : ι) : Value :=
  ids ((inserters history).idxOf i)

/-- The database tells no identifier but the one that it generated last. -/
def Honest (ids : Nat → Value) (history : List (Act ι)) : Prop :=
  ∀ before i v after, history = before ++ .answer i .lastId (.ok (some v)) :: after →
    ∃ k, (inserters before).length = k + 1 ∧ v = ids k

theorem inserters_append (before after : List (Act ι)) :
    inserters (before ++ after) = inserters before ++ inserters after :=
  List.filterMap_append

/-- One more act adds its inserter, if it has one. -/
theorem inserters_concat (history : List (Act ι)) (act : Act ι) :
    inserters (history ++ [act]) = inserters history ++ act.inserter?.toList := by
  rw [inserters_append]
  unfold inserters
  cases h : act.inserter? with
  | none => rw [List.filterMap_cons_none h, List.filterMap_nil, Option.toList_none]
  | some i => rw [List.filterMap_cons_some h, List.filterMap_nil, Option.toList_some]

/-- Asking inserts nothing. -/
theorem inserters_asks (history : List (Act ι)) (i : ι) (progress : Progress) :
    inserters (history ++ progress.asks i) = inserters history := by
  cases progress with
  | waiting p => exact (inserters_concat history _).trans (List.append_nil _)
  | finished result => exact congrArg inserters (List.append_nil history)

end History

/-! ### How far a store has come -/

/-- What a store has done of the two requests of its insert. -/
inductive Headway where
  | none
  | executed
  /-- It has been told the identifier. -/
  | told (id : Option Value)
  /-- It fails, or has failed. -/
  | lost

/-- The headway of a store that waits. -/
def Pending.headway : Pending → Headway
  | .opening _ | .inserting _ _ => .none
  | .readingId _ _ => .executed
  | .closing _ id => .told id
  | _ => .lost

/-- The headway of a store with a reply. -/
def Pending.headwayAnswered : (p : Pending) → Reply p.request → Headway
  | .inserting _ _, .ok _ => .executed
  | .readingId _ _, .ok id => .told id
  | .inserting _ _, .error _ => .lost
  | .readingId _ _, .error _ => .lost
  | p, _ => p.headway

/-- The headway of a store. -/
def Stage.headway : Stage → Headway
  | .ready _ => .none
  | .asking p => p.headway
  | .answered p reply => p.headwayAnswered reply
  | .ended (.ok (.stored (.inserted _ id))) => .told id
  | .ended _ => .lost

/-- A turn makes no headway. It only shows whether the insert is lost. -/
theorem InsertTurn.headway {c c' : Connection} {stage : Stage} {progress : Progress}
    (h : InsertTurn c stage c' progress) :
    progress.stage.headway = stage.headway ∨ progress.stage.headway = .lost := by
  cases h with
  | claimed | joined | opened | inserted | read | readOwn | closed => exact .inl rfl
  | refused | unopened | uninserted | uninsertedOwn | unread | unreadOwn | unclosed | undone =>
    exact .inr rfl

/-- What the history tells of a store that has come so far. -/
def Headway.Recorded {ι : Type} (history : List (Act ι)) (i : ι) : Headway → Prop
  | .none => i ∉ inserters history
  | .executed => i ∈ inserters history
  | .told id => ∃ before after, history = before ++ .answer i .lastId (.ok id) :: after ∧
      i ∈ inserters before
  | .lost => True

section Recorded

variable {ι : Type} {history : List (Act ι)} {i : ι} {headway : Headway}

/-- What the history tells of a store is not changed by acts that are no insert of it. -/
theorem Headway.Recorded.concat (h : headway.Recorded history i) {act : Act ι}
    (hact : act.inserter? ≠ some i) : headway.Recorded (history ++ [act]) i := by
  cases headway with
  | none =>
    change i ∉ inserters (history ++ [act])
    rw [inserters_concat, List.mem_append, not_or]
    exact ⟨h, fun hmem => hact (Option.mem_toList.mp hmem)⟩
  | executed =>
    change i ∈ inserters (history ++ [act])
    rw [inserters_concat]
    exact List.mem_append_left _ h
  | told id =>
    obtain ⟨before, after, rfl, hmem⟩ := h
    exact ⟨before, after ++ [act], List.append_assoc .., hmem⟩
  | lost => exact trivial

/-- Asking tells nothing of how far a store has come. -/
theorem Headway.Recorded.asks (h : headway.Recorded history i) (j : ι) (progress : Progress) :
    headway.Recorded (history ++ progress.asks j) i := by
  cases progress with
  | waiting p => exact h.concat (Option.some_ne_none i).symm
  | finished result =>
    rw [Progress.asks, List.append_nil]
    exact h

/-- The history of the store that is answered tells what the answer says. -/
theorem Pending.recorded_answered {p : Pending} (hp : p.ofInsert = true)
    (h : p.headway.Recorded history i) (reply : Reply p.request) :
    (p.headwayAnswered reply).Recorded (history ++ [.answer i p.request reply]) i := by
  have hsame (hact : (Act.answer i p.request reply).inserter? = .none) :
      p.headway.Recorded (history ++ [.answer i p.request reply]) i :=
    h.concat (by rw [hact]; exact (Option.some_ne_none i).symm)
  -- Only the insert and the identifier change the headway. The other answers insert nothing.
  cases p with
  | opening sql => exact hsame rfl
  | inserting sql wrapped =>
    cases reply with
    | error e => exact trivial
    | ok n =>
      change i ∈ inserters _
      rw [inserters_concat]
      exact List.mem_append_right _ (List.mem_singleton_self i)
  | readingId wrapped n =>
    cases reply with
    | error e => exact trivial
    | ok id => exact ⟨history, [], rfl, h⟩
  | closing n id => exact hsame rfl
  | undoing e => exact trivial
  | _ => exact Bool.noConfusion hp

end Recorded

namespace Shared

variable {ι : Type} [DecidableEq ι] {s t : Shared ι}

/-- The history tells how far every store has come, and no store has inserted twice. -/
structure Recorded (s : Shared ι) : Prop where
  headway : ∀ i, (s.stage i).headway.Recorded s.history i
  nodup : (inserters s.history).Nodup

omit [DecidableEq ι] in
/-- Nobody has inserted in the beginning. -/
theorem recorded_initial (c : Connection) (operations : ι → Operation) :
    (initial c operations).Recorded :=
  ⟨fun _ => List.not_mem_nil, List.nodup_nil⟩

/-- A store inserts when it has not inserted before. -/
theorem Recorded.nodup_hear (h : s.Recorded) {i : ι} {p : Pending} (hi : s.stage i = .asking p)
    (hp : p.ofInsert = true) (reply : Reply p.request) :
    (inserters (s.hear i p reply).history).Nodup := by
  change (inserters (s.history ++ [.answer i p.request reply])).Nodup
  rw [inserters_concat]
  have hnone (hact : (Act.answer i p.request reply).inserter? = none) :
      (inserters s.history ++ (Act.answer i p.request reply).inserter?.toList).Nodup := by
    rw [hact, Option.toList_none, List.append_nil]
    exact h.nodup
  cases p with
  | inserting sql wrapped =>
    cases reply with
    | error e => exact hnone rfl
    | ok n =>
      -- It would not ask to insert if it had inserted.
      have hnotMem : i ∉ inserters s.history := by
        have hheadway := h.headway i
        rw [hi] at hheadway
        exact hheadway
      refine List.nodup_append.mpr ⟨h.nodup, List.pairwise_singleton _ i, fun j hj k hk hjk => ?_⟩
      rw [hjk, List.mem_singleton.mp hk] at hj
      exact hnotMem hj
  | opening sql => exact hnone rfl
  | readingId wrapped n => exact hnone rfl
  | closing n id => exact hnone rfl
  | undoing e => exact hnone rfl
  | _ => exact Bool.noConfusion hp

/-- A step of stores keeps the record: an answer is recorded, and a turn adds nothing. -/
theorem Step.recorded (h : Step s t) (hs : s.OfInserts)
    (hrecorded : s.Recorded) : t.Recorded := by
  rcases h.insert_cases hs with ⟨i, p, reply, hi, hp, rfl⟩ | ⟨i, c, progress, hturn, rfl⟩
  · refine ⟨forall_stage_hear (P := fun j stage => stage.headway.Recorded _ j) ?_ ?_,
      hrecorded.nodup_hear hi hp reply⟩
    · have hheadway := hrecorded.headway i
      rw [hi] at hheadway
      exact Pending.recorded_answered hp hheadway reply
    · intro j hji
      exact (hrecorded.headway j).concat fun hact => hji (Act.eq_of_inserter? hact).symm
  · refine ⟨forall_stage_take (P := fun j stage => stage.headway.Recorded _ j) ?_ ?_, ?_⟩
    · rcases hturn.headway with hsame | hlost
      · rw [hsame]
        exact (hrecorded.headway i).asks i progress
      · rw [hlost]
        exact trivial
    · exact fun j _ => (hrecorded.headway j).asks i progress
    · change (inserters (s.history ++ progress.asks i)).Nodup
      rw [inserters_asks]
      exact hrecorded.nodup

/-- The record is right in every run. -/
theorem Run.recorded (h : Run s t) (hs : s.OfInserts)
    (hrecorded : s.Recorded) : t.Recorded :=
  h.induct hs hrecorded fun _ _ hstep hu hP => hstep.recorded hu hP

end Shared

/-! ### The identifier that is read -/

/-- Where nobody inserts twice, the number of an insert is how many there were before it. -/
theorem idxOf_last {ι : Type} [DecidableEq ι] {others rest : List ι} {last : ι}
    (h : (others ++ [last] ++ rest).Nodup) :
    (others ++ [last] ++ rest).idxOf last = others.length := by
  have hnotMem : last ∉ others := by
    intro hmem
    have hothers := (List.nodup_append.mp (List.nodup_append.mp h).1).2.2
    exact hothers last hmem last (List.mem_singleton_self last) rfl
  rw [List.idxOf_append_of_mem (List.mem_append_right others (List.mem_singleton_self last)),
    List.idxOf_append_of_notMem hnotMem, List.idxOf_cons_self, Nat.add_zero]

/-- What an honest database tells was generated for the last one who had inserted. -/
theorem Honest.exists_last {ι : Type} [DecidableEq ι] {ids : Nat → Value}
    {before after : List (Act ι)} {i : ι} {v : Value}
    (h : Honest ids (before ++ .answer i .lastId (.ok (some v)) :: after))
    (hnodup : (inserters (before ++ .answer i .lastId (.ok (some v)) :: after)).Nodup) :
    ∃ last, (inserters before).getLast? = some last ∧
      v = generated ids (before ++ .answer i .lastId (.ok (some v)) :: after) last := by
  obtain ⟨k, hlength, hv⟩ := h before i v after rfl
  -- The database tells an identifier only when somebody has inserted.
  rcases List.eq_nil_or_concat' (inserters before) with hnil | ⟨others, last, hothers⟩
  · rw [hnil] at hlength
    exact absurd hlength.symm (Nat.succ_ne_zero k)
  · refine ⟨last, ?_, ?_⟩
    · rw [hothers]
      exact List.getLast?_concat
    · rw [inserters_append, hothers] at hnodup
      rw [hothers, List.length_append, List.length_singleton] at hlength
      rw [generated, inserters_append, hothers, idxOf_last hnodup, Nat.succ.inj hlength]
      exact hv

namespace Shared

variable {ι : Type} [DecidableEq ι] {s : Shared ι}

/-- **An insert reads the identifier of the last insert before it asked.** In every run of inserts
on any connection, with a database that gives every insert a new identifier and tells the last one
it gave, an insert that was reported with an identifier has asked for it at a point of the history
before which it had inserted; the identifier is the one generated for the last insert before that
point, and is its own exactly if that insert is its own. -/
theorem Run.lastId_of_reported {c : Connection} {w : ι → Write}
    (hw : ∀ i, (w i).isUpdate = false) (h : Run (initial c fun i => .store (w i)) s)
    {ids : Nat → Value} (hids : Function.Injective ids) (hhonest : Honest ids s.history) {i : ι}
    {n : Nat} {v : Value} (hi : s.stage i = .ended (.ok (.stored (.inserted n (some v))))) :
    ∃ before after last, s.history = before ++ .answer i .lastId (.ok (some v)) :: after ∧
      i ∈ inserters before ∧ (inserters before).getLast? = some last ∧
      v = generated ids s.history last ∧ (v = generated ids s.history i ↔ last = i) := by
  have hrecorded := h.recorded (ofInserts_initial c hw) (recorded_initial c _)
  have htold := hrecorded.headway i
  rw [hi] at htold
  -- What was reported is what was told, and the record has the place.
  obtain ⟨before, after, hhistory, hmem⟩ := htold
  have hnodup := hrecorded.nodup
  rw [hhistory] at hhonest hnodup
  obtain ⟨last, hlast, hv⟩ := hhonest.exists_last hnodup
  refine ⟨before, after, last, hhistory, hmem, hlast, ?_, ?_⟩
  · rw [hhistory]
    exact hv
  · rw [hhistory]
    have hlastMem : last ∈ inserters (before ++ .answer i .lastId (.ok (some v)) :: after) := by
      rw [inserters_append]
      exact List.mem_append_left _ (List.mem_of_getLast? hlast)
    -- Identifiers are fresh, so the same identifier has the same number and the same inserter.
    refine ⟨fun hown => ?_, fun heq => heq ▸ hv⟩
    exact (List.idxOf_inj hlastMem).mp (hids (hv.symm.trans hown))

/-- Two inserts on one connection: the second is executed between the two requests of the first. -/
def crossed : Shared Bool :=
  [.turn false, .answer false (willing .null), .turn false, .answer false (willing .null),
    .turn true, .answer true (willing .null), .turn false, .answer false (willing (.int 1)),
    .turn false, .answer false (willing .null), .turn false].foldl choose
      (initial quiet fun _ => .store oneRow)

theorem run_crossed : Run (initial quiet fun _ => .store oneRow) crossed :=
  run_foldl_choose _ _

/-- The database counts the inserts from zero. -/
theorem honest_crossed : Honest (fun k => .int k) crossed.history := by
  obtain ⟨sql, hhistory⟩ : ∃ sql, crossed.history =
      [.ask false .begin, .answer false .begin (.ok ()),
        .ask false (.execute sql), .answer false (.execute sql) (.ok 1),
        .ask true (.execute sql), .answer true (.execute sql) (.ok 1),
        .ask false .lastId, .answer false .lastId (.ok (some (.int 1))),
        .ask false .commit, .answer false .commit (.ok ())] := ⟨_, rfl⟩
  intro before i v after h
  rw [hhistory] at h
  -- Only one act of the history tells an identifier, so there is only one place to cut it.
  simp only [List.cons_eq_append_iff, List.cons.injEq, reduceCtorEq, false_and, and_false,
    Act.answer.injEq, heq_eq_eq, Except.ok.injEq, Option.some.injEq, true_and, List.nil_eq,
    List.append_eq_nil_iff, exists_const, or_self, or_false, ↓existsAndEq, false_or] at h
  obtain ⟨rfl, ⟨-, rfl⟩, -⟩ := h
  exact ⟨1, rfl, rfl⟩

/-- Integers are identifiers of which no two are the same. -/
theorem injective_int : Function.Injective fun k : Nat => Value.int k :=
  fun _ _ h => Int.ofNat.inj (Value.int.inj h)

theorem Run.lastId_of_reported_crossed :
    crossed.stage false = .ended (.ok (.stored (.inserted 1 (some (.int 1))))) ∧
      ∃ before after last,
        crossed.history = before ++ .answer false .lastId (.ok (some (.int 1))) :: after ∧
          false ∈ inserters before ∧ (inserters before).getLast? = some last ∧ last ≠ false := by
  have hreported : crossed.stage false = .ended (.ok (.stored (.inserted 1 (some (.int 1))))) := rfl
  obtain ⟨before, after, last, hhistory, hmem, hlast, -, hown⟩ :=
    Run.lastId_of_reported (fun _ => rfl) run_crossed injective_int honest_crossed hreported
  refine ⟨hreported, before, after, last, hhistory, hmem, hlast, fun heq => ?_⟩
  have hzero : Value.int 1 = Value.int 0 := hown.mpr heq
  cases hzero

/-- An insert may read an identifier that was not generated for it. -/
theorem not_forall_lastId_eq_generated :
    ¬∀ (c : Connection) (w : Bool → Write) (s : Shared Bool) (ids : Nat → Value),
      (∀ i, (w i).isUpdate = false) → Run (initial c fun i => .store (w i)) s →
        Function.Injective ids → Honest ids s.history → ∀ i n v,
          s.stage i = .ended (.ok (.stored (.inserted n (some v)))) →
            v = generated ids s.history i := by
  intro hall
  have hzero : Value.int 1 = Value.int 0 :=
    hall quiet (fun _ => oneRow) crossed (fun k => .int k) (fun _ => rfl) run_crossed
      injective_int honest_crossed false 1 (.int 1) rfl
  cases hzero

end Shared

end SqlBuilder
