import SqlBuilder.Proofs.Statement.Failure
import SqlBuilder.Proofs.Statement.Routing

/-!
# Where the calls put their brackets

A bracket is opened before the next condition, whichever chain that goes to, and closed behind the
last condition of the chain being written; a join moves on to a chain of its own. `Bracketing` is
this rule and nothing else: the opening and closing brackets of every chain in the order of the
calls, without the conditions between them. A call is a few `Move`s of it.

Main statement: unless a call failed, the chains that a sequence of calls builds have the brackets
that its moves write (`Calls.bracketing_build`). It is read off the effects of the calls, which say
where every condition and every bracket goes (`Calls.chains_build`). An effect is one move
(`Effect.move`), so two facts are needed. Effects write the brackets that their moves write
(`Tidy.build_move`); the one condition is that no close is stray, because the effects leave a
stray close out of account and the rule does not. And of calls that do not fail the moves are those
of the effects, and no close among them is stray (`Calls.mirrors`).
-/

namespace SqlBuilder

/-- The brackets of a chain from left to right, with everything between them left out. -/
def brackets (conditions : List Condition) : List Char :=
  conditions.flatMap fun c => List.replicate c.opens '(' ++ List.replicate c.closes ')'

theorem brackets_append (conditions more : List Condition) :
    brackets (conditions ++ more) = brackets conditions ++ brackets more :=
  List.flatMap_append

theorem brackets_singleton (c : Condition) :
    brackets [c] = List.replicate c.opens '(' ++ List.replicate c.closes ')' :=
  List.flatMap_singleton ..

/-- Brackets that close behind the last condition are the last ones of the chain. -/
theorem brackets_mapLast {conditions : List Condition} (h : conditions ≠ []) (n : Nat) :
    brackets (mapLast (fun c => { c with closes := c.closes + n }) conditions) =
      brackets conditions ++ List.replicate n ')' := by
  obtain ⟨front, c, rfl⟩ := (List.eq_nil_or_concat' conditions).resolve_left h
  rw [mapLast_concat, brackets_append, brackets_append, brackets_singleton, brackets_singleton,
    List.replicate_add, List.append_assoc, List.append_assoc]

/-! ### The rule -/

/-- What a call does to the brackets. -/
inductive Move where
  | opens (n : Nat)
  | condition
  | closes (n : Nat)
  | join
  deriving DecidableEq, Repr

/-- The brackets of the chains. -/
structure Bracketing where
  /-- The brackets of the chains to which nothing is added any more. -/
  written : List (List Char) := []
  /-- The brackets of the chain being written. -/
  current : List Char := []
  /-- How many brackets open before the next condition. -/
  pending : Nat := 0
  deriving DecidableEq, Repr

namespace Bracketing

/-- The brackets after a move. -/
def apply (b : Bracketing) : Move → Bracketing
  | .opens n => { b with pending := b.pending + n }
  | .condition => { b with current := b.current ++ List.replicate b.pending '(', pending := 0 }
  | .closes n => { b with current := b.current ++ List.replicate n ')' }
  | .join => { b with written := b.written ++ [b.current], current := [] }

/-- The brackets of every chain. -/
def chains (b : Bracketing) : List (List Char) :=
  b.written ++ [b.current]

/-- The brackets that moves write. -/
def build (moves : List Move) : Bracketing :=
  moves.foldl apply {}

end Bracketing

/-- What a call does to the brackets. Several conditions are a move each. -/
def Draft.Step.moves : Step → List Move
  | .addSources _ => []
  | .addCondition _ _ _ => [.condition]
  | .addConditions pairs => pairs.map fun _ => .condition
  | .openBrackets n => [.opens n]
  | .closeBrackets n => [.closes n]

/-- What a call does to the brackets. -/
def Select.Step.moves : Step → List Move
  | .common step => step.moves
  | .addJoin _ _ => [.join]
  | .addOn _ _ _ => [.condition]
  | _ => []

/-- What a call does to the brackets. -/
def Write.Step.moves : Step → List Move
  | .common step => step.moves
  | _ => []

/-- What a call does to the brackets. -/
def Delete.Step.moves : Step → List Move
  | .common step => step.moves
  | .allowAll => []

/-- What the calls do to the brackets. -/
def Calls.moves : Calls → List Move
  | .select steps => steps.flatMap Select.Step.moves
  | .write steps => steps.flatMap Write.Step.moves
  | .delete steps => steps.flatMap Delete.Step.moves

/-! ### The brackets of effects -/

/-- What an effect does to the brackets. -/
def Effect.move : Effect → Move
  | .part _ _ _ => .condition
  | .opens n => .opens n
  | .closes n => .closes n
  | .join _ _ => .join

/-- Effects of which no close is stray: where brackets are closed, the chain being written has a
condition to close them behind. -/
inductive Tidy : List Effect → Prop
  | nil : Tidy []
  | concat {es : List Effect} {e : Effect} (h : Tidy es)
      (he : ∀ n, e = .closes n → chainOf es (joinCount es) ≠ []) : Tidy (es ++ [e])

/-- The brackets of the chains that effects add to. -/
def Bracketing.ofEffects (es : List Effect) : Bracketing where
  written := (List.range (joinCount es)).map fun k => brackets (chainOf es k)
  current := brackets (chainOf es (joinCount es))
  pending := pendingAfter es

section

variable {es : List Effect} {e : Effect}

/-- The chains before the last one have the same brackets with one effect more. -/
theorem map_brackets_concat (es : List Effect) (e : Effect) :
    ((List.range (joinCount es)).map fun k => brackets (chainOf (es ++ [e]) k)) =
      (List.range (joinCount es)).map fun k => brackets (chainOf es k) :=
  List.map_congr_left fun _ hk =>
    congrArg brackets (chainOf_concat_of_lt (List.mem_range.mp hk) e)

/-- **One effect more is one move more**, unless it is a stray close. -/
theorem Bracketing.ofEffects_concat
    (he : ∀ n, e = .closes n → chainOf es (joinCount es) ≠ []) :
    ofEffects (es ++ [e]) = (ofEffects es).apply e.move := by
  have hwritten := map_brackets_concat es e
  cases e with
  | part comparison binding connective =>
    -- The pending brackets open before the new condition, and are not pending any more.
    rw [ofEffects, joinCount_concat_of_not_join rfl, hwritten, chainOf_part, brackets_append,
      brackets_singleton, List.replicate_zero, List.append_nil, pendingAfter_concat]
    rfl
  | opens n =>
    rw [ofEffects, joinCount_concat_of_not_join rfl, hwritten, chainOf_opens, pendingAfter_concat]
    rfl
  | closes n =>
    rw [ofEffects, joinCount_concat_of_not_join rfl, hwritten, chainOf_closes,
      brackets_mapLast (he n rfl), pendingAfter_concat]
    rfl
  | join source kind =>
    -- What was the chain being written is one of the others now, and the new one is empty.
    have hcount : joinCount (es ++ [.join source kind]) = joinCount es + 1 := joinCount_concat ..
    rw [ofEffects, hcount, List.range_succ, List.map_append, hwritten, List.map_singleton,
      chainOf_join, chainOf_join, chainOf_of_joinCount_lt (Nat.lt_succ_self _),
      pendingAfter_concat]
    rfl

/-- The moves of tidy effects write the brackets of their chains. -/
theorem Tidy.build_move (h : Tidy es) :
    Bracketing.build (es.map Effect.move) = Bracketing.ofEffects es := by
  induction h with
  | nil => rfl
  | concat _ he ih =>
    rw [List.map_append, List.map_singleton, Bracketing.build, List.foldl_concat,
      Bracketing.ofEffects_concat he, ← ih]
    rfl

end

/-! ### The moves of calls -/

/-- Moves that are those of effects behind others, and no close among them is stray unless one was
before. -/
structure Mirrors (before : List Effect) (moves : List Move) (es : List Effect) : Prop where
  moves_eq : moves = es.map Effect.move
  tidy : Tidy before → Tidy (before ++ es)

namespace Mirrors

variable {before : List Effect}

theorem nil : Mirrors before [] [] :=
  ⟨rfl, fun h => (List.append_nil before).symm ▸ h⟩

/-- An effect that closes nothing. -/
theorem single {e : Effect} (he : ∀ n, e ≠ .closes n) : Mirrors before [e.move] [e] :=
  ⟨rfl, fun h => h.concat fun n heq => absurd heq (he n)⟩

theorem append {moves more : List Move} {es others : List Effect} (h : Mirrors before moves es)
    (hmore : Mirrors (before ++ es) more others) :
    Mirrors before (moves ++ more) (es ++ others) := by
  refine ⟨?_, fun hbefore => ?_⟩
  · rw [h.moves_eq, hmore.moves_eq, List.map_append]
  · rw [← List.append_assoc]
    exact hmore.tidy (h.tidy hbefore)

/-- A condition that can be read. -/
theorem condition {raw : String} (h : failureOf (Comparison.read raw) = none) (binding : Binding)
    (connective : Connective) :
    Mirrors before [.condition] (conditionEffects raw binding connective) := by
  obtain ⟨comparison, hread⟩ := failureOf_eq_none.mp h
  rw [conditionEffects, hread]
  exact single (e := .part comparison binding connective) fun _ heq => by cases heq

/-- Any number of calls of which none fails, given what one of them does where the effects before it
are known. -/
theorem foldl {σ Step : Type} {apply : σ → Step → σ} {failure? : σ → Step → Option Error}
    {moves : Step → List Move} {effects : List Effect → Step → List Effect}
    {Known : σ → List Effect → Prop} (error? : σ → Option Error)
    (hknown : ∀ {s es}, Known s es → ∀ step, Known (apply s step) (es ++ effects es step))
    (happly : ∀ s step, error? (apply s step) = (error? s).or (failure? s step))
    (hstep : ∀ {s es step}, Known s es → failure? s step = none →
      Mirrors es (moves step) (effects es step))
    {s : σ} {es : List Effect} (hs : Known s es) {steps : List Step}
    (h : error? (steps.foldl apply s) = none) :
    ∃ more, steps.foldl (fun es step => es ++ effects es step) es = es ++ more ∧
      Mirrors es (steps.flatMap moves) more := by
  induction steps generalizing s es with
  | nil => exact ⟨[], (List.append_nil es).symm, nil⟩
  | cons step steps ih =>
    have hfirst := hstep hs (failure?_of_error?_foldl error? happly h)
    obtain ⟨more, hmore, hrest⟩ := ih (hknown hs step) h
    refine ⟨effects es step ++ more, ?_, ?_⟩
    · rw [List.foldl_cons, hmore, List.append_assoc]
    · rw [List.flatMap_cons]
      exact hfirst.append hrest

end Mirrors

/-- **A call on a draft** that does not fail has the moves of its effects. -/
theorem Draft.Step.mirrors {stray : Misuse} {d : Draft} {es : List Effect} {step : Step}
    (hd : d.Follows es) (h : step.failure? stray d = none) :
    Mirrors es step.moves step.effects := by
  cases step with
  | addSources names => exact .nil
  | addCondition raw binding connective => exact .condition h binding connective
  | addConditions pairs =>
    -- A call that does not fail can read all conditions, so each of them has its move.
    clear hd
    induction pairs generalizing es with
    | nil => exact .nil
    | cons pair pairs ih =>
      rw [failure?, List.findSome?_eq_none_iff, List.forall_mem_cons] at h
      exact (Mirrors.condition h.1 pair.2 .and).append (ih (List.findSome?_eq_none_iff.mpr h.2))
  | openBrackets n => exact .single (e := .opens n) fun _ heq => by cases heq
  | closeBrackets n =>
    -- It does not fail, so there is a condition in the draft, and the effects tell which.
    have hwheres : chainOf es (joinCount es) ≠ [] := by
      rw [← hd.wheres]
      intro hnil
      rw [failure?, hnil] at h
      cases h
    exact ⟨rfl, fun hes => hes.concat fun _ _ => hwheres⟩

theorem Select.Step.mirrors {s : Select} {es : List Effect} {step : Step} (hs : s.Routed es)
    (h : step.failure? s = none) : Mirrors es step.moves (step.effects es) := by
  cases step with
  | common step => exact Draft.Step.mirrors hs.focus h
  | addJoin raw kind =>
    obtain ⟨source, hread⟩ := failureOf_eq_none.mp h
    rw [effects, hread]
    exact .single (e := .join source kind) fun _ heq => by cases heq
  | addOn raw binding connective =>
    -- Without a join it would have failed.
    rw [effects, ← hs.inJoin]
    by_cases hjoin : s.inJoin = true
    · rw [failure?, if_pos hjoin] at h
      rw [if_pos hjoin]
      exact .condition h binding connective
    · rw [failure?, if_neg hjoin] at h
      cases h
  | addFields | setDistinct | setWindow | setPage | sortBy | groupBy => exact .nil

theorem Write.Step.mirrors {w : Write} {es : List Effect} {step : Step} (hw : w.draft.Follows es)
    (h : step.failure? w = none) : Mirrors es step.moves step.effects := by
  cases step with
  | common step => exact Draft.Step.mirrors hw h
  | addRows | addDocument => exact .nil

theorem Delete.Step.mirrors {r : Delete} {es : List Effect} {step : Step}
    (hr : r.draft.Follows es) (h : step.failure? r = none) :
    Mirrors es step.moves step.effects := by
  cases step with
  | common step => exact Draft.Step.mirrors hr h
  | allowAll => exact .nil

namespace Calls

/-- Unless a call failed, the moves are those of the effects, and no close is stray. -/
theorem mirrors {calls : Calls} (h : calls.build.draft.error? = none) :
    Mirrors [] calls.moves calls.effects := by
  have hempty : Draft.Follows {} [] := ⟨rfl, rfl⟩
  cases calls with
  | select steps =>
    obtain ⟨es, hes, hmirrors⟩ := Mirrors.foldl (fun s : Select => s.draft.error?)
      Select.Routed.apply Select.error?_apply Select.Step.mirrors .empty h
    rw [effects, Select.effects, hes]
    exact hmirrors
  | write steps =>
    obtain ⟨es, hes, hmirrors⟩ := Mirrors.foldl (fun w : Write => w.draft.error?)
      Write.follows_apply Write.error?_apply Write.Step.mirrors hempty h (s := {})
    rw [effects, List.flatMap_eq_foldl, hes]
    exact hmirrors
  | delete steps =>
    obtain ⟨es, hes, hmirrors⟩ := Mirrors.foldl (fun r : Delete => r.draft.error?)
      Delete.follows_apply Delete.error?_apply Delete.Step.mirrors hempty h (s := {})
    rw [effects, List.flatMap_eq_foldl, hes]
    exact hmirrors

/-- **The brackets are where the calls put them**: unless a call failed, the chains of the statement
have the brackets that the moves of the calls write, chain by chain. -/
theorem bracketing_build {calls : Calls} (h : calls.build.draft.error? = none) :
    calls.build.chains.map brackets = (Bracketing.build calls.moves).chains := by
  obtain ⟨hmoves, htidy⟩ := mirrors h
  have hbuild : Bracketing.build (calls.effects.map Effect.move) = .ofEffects calls.effects :=
    (htidy .nil).build_move
  rw [hmoves, hbuild, chains_build, List.range_succ, List.map_append,
    List.map_append, List.map_map]
  rfl

end Calls

end SqlBuilder
