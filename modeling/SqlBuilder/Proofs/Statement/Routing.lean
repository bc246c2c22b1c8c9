import SqlBuilder.Proofs.Statement.ActiveJoin
import SqlBuilder.Proofs.Statement.Effect

/-!
# Where the calls put their conditions

The chains that a sequence of calls builds are those of its effects (`chainOf`), in which every
condition and every bracket has its place by where it stands among the calls.

Main statement, at the end: this holds of all calls on all statements, and with it what follows from
it alone: conditions go to the last join once there is one, the WHERE chain of a select does not
change any more then, and a write or a delete keeps all conditions in the WHERE chain
(`Calls.routing`).

It is an invariant of the calls. `Draft.Follows` says it of the chain being written and of the
pending brackets, and `Select.Routed` says it of a whole select; each call adds its effects at the
end (`Draft.Follows.apply`, `Select.Routed.apply`).
-/

namespace SqlBuilder

/-! ### Calls on a draft -/

/-- A list that closes behind its last condition is the list with that condition changed. -/
theorem closeLast?_eq_some {n : Nat} {conditions closed : List Condition}
    (h : closeLast? n conditions = some closed) :
    closed = mapLast (fun c => { c with closes := c.closes + n }) conditions := by
  rcases List.eq_nil_or_concat' conditions with rfl | ⟨cs, c, rfl⟩
  · cases h
  · rw [closeLast?_concat] at h
    rw [mapLast_concat]
    exact (Option.some.inj h).symm

/-- Only an empty chain has no condition to close behind. -/
theorem eq_nil_of_closeLast? {n : Nat} {conditions : List Condition}
    (h : closeLast? n conditions = none) : conditions = [] := by
  rcases List.eq_nil_or_concat' conditions with rfl | ⟨cs, c, rfl⟩
  · rfl
  · rw [closeLast?_concat] at h
    cases h

namespace Draft

/-- The WHERE chain of the draft is the last chain of the effects. -/
structure Follows (d : Draft) (es : List Effect) : Prop where
  wheres : d.wheres = chainOf es (joinCount es)
  pending : d.pending = pendingAfter es

namespace Follows

variable {d : Draft} {es : List Effect}

/-- An error is not part of the chains. -/
theorem record (h : d.Follows es) (e : Error) : (d.record e).Follows es :=
  ⟨h.wheres, h.pending⟩

/-- A condition that can be read goes to the end of the chain being written. -/
theorem addCondition (h : d.Follows es) (raw : String) (binding : Binding)
    (connective : Connective) :
    (d.addCondition raw binding connective).Follows
      (es ++ conditionEffects raw binding connective) := by
  unfold Draft.addCondition condition conditionEffects
  cases Comparison.read raw with
  -- What cannot be read has no effects, and leaves the chain alone.
  | error e =>
    rw [List.append_nil]
    exact h.record e
  | ok comparison =>
    have hcount : joinCount (es ++ [.part comparison binding connective]) = joinCount es :=
      joinCount_concat_of_not_join rfl es
    refine ⟨?_, (pendingAfter_concat es (.part comparison binding connective)).symm⟩
    rw [hcount, chainOf_part, ← h.wheres, ← h.pending]
    rfl

/-- Brackets close behind the last condition, in the draft and in the effects. -/
theorem closeBrackets (h : d.Follows es) (n : Nat) :
    (d.closeBrackets n).Follows (es ++ [.closes n]) := by
  have hcount : joinCount (es ++ [.closes n]) = joinCount es := joinCount_concat_of_not_join rfl es
  have hpending : d.pending = pendingAfter (es ++ [.closes n]) :=
    h.pending.trans (pendingAfter_concat es (.closes n)).symm
  unfold Draft.closeBrackets
  cases hclose : closeLast? n d.wheres with
  | some closed =>
    refine ⟨?_, hpending⟩
    rw [hcount, chainOf_closes, ← h.wheres]
    exact closeLast?_eq_some hclose
  | none =>
    -- There is no condition to close behind, in the draft and in the effects.
    have hwheres : d.wheres = [] := eq_nil_of_closeLast? hclose
    refine ⟨?_, hpending⟩
    rw [hcount, chainOf_closes, ← h.wheres, wheres_record, hwheres]
    rfl

/-- **A call on a draft** has its effects behind those of the calls before. -/
theorem apply (h : d.Follows es) (step : Step) : (d.apply step).Follows (es ++ step.effects) := by
  cases step with
  | addSources names =>
    rw [Step.effects, List.append_nil]
    change (d.addSources names).Follows es
    unfold addSources
    cases names.read .source with
    | ok sources => exact ⟨h.wheres, h.pending⟩
    | error e => exact h.record e
  | addCondition raw binding connective => exact h.addCondition raw binding connective
  | addConditions pairs =>
    -- Several conditions are added one by one, each behind the effects of those before.
    induction pairs generalizing d es with
    | nil =>
      rw [Step.effects, List.flatMap_nil, List.append_nil]
      exact h
    | cons pair pairs ih =>
      have hrest := ih (h.addCondition pair.1 pair.2 .and)
      rw [List.append_assoc] at hrest
      exact hrest
  | openBrackets n =>
    -- Opened brackets wait, so the chain stays and their number grows.
    have hcount : joinCount (es ++ [.opens n]) = joinCount es := joinCount_concat_of_not_join rfl es
    refine ⟨?_, ?_⟩
    · rw [Step.effects, hcount, chainOf_opens]
      exact h.wheres
    · rw [Step.effects, pendingAfter_concat, ← h.pending]
      rfl
  | closeBrackets n => exact h.closeBrackets n

end Follows

/-- A call that every statement takes joins nothing. -/
theorem Step.isJoin_of_mem_effects {step : Step} {e : Effect} (he : e ∈ step.effects) :
    e.isJoin = false := by
  have hcondition {raw : String} {binding : Binding} {connective : Connective}
      (he : e ∈ conditionEffects raw binding connective) : e.isJoin = false := by
    unfold conditionEffects at he
    split at he
    · obtain rfl := List.mem_singleton.mp he
      rfl
    · cases he
  cases step with
  | addSources names => cases he
  | addCondition raw binding connective => exact hcondition he
  | addConditions pairs =>
    obtain ⟨pair, -, he⟩ := List.mem_flatMap.mp he
    exact hcondition he
  | openBrackets n | closeBrackets n =>
    obtain rfl := List.mem_singleton.mp he
    rfl

theorem Step.joinCount_effects (step : Step) : joinCount step.effects = 0 :=
  List.countP_eq_zero.mpr fun _ he h => Bool.false_ne_true ((isJoin_of_mem_effects he).symm.trans h)

theorem Step.filterMap_join?_effects (step : Step) : step.effects.filterMap Effect.join? = [] := by
  rw [List.filterMap_eq_nil_iff]
  intro e he
  have hjoin := isJoin_of_mem_effects he
  rw [Effect.isJoin] at hjoin
  simpa using hjoin

end Draft

/-! ### Calls on a select -/

namespace Select

/-- The chains and the joins of a select are those of the effects. -/
structure Routed (s : Select) (es : List Effect) : Prop where
  heads : s.heads = es.filterMap Effect.join?
  written : s.writtenChains = (List.range (joinCount es)).map (chainOf es)
  focus : s.focus.Follows es

namespace Routed

variable {s : Select} {es : List Effect}

/-- A select to which nothing was added has no effects. -/
theorem empty : Routed .empty [] :=
  ⟨rfl, rfl, ⟨rfl, rfl⟩⟩

/-- All chains, the one being written included. -/
theorem chains (h : s.Routed es) :
    s.chains = (List.range (joinCount es + 1)).map (chainOf es) := by
  rw [chains_eq, h.written, h.focus.wheres, List.range_succ, List.map_append, List.map_singleton]

/-- Whether conditions go to a join can be read off the effects. -/
theorem inJoin (h : s.Routed es) : s.inJoin = es.any Effect.isJoin := by
  have hempty : s.heads.isEmpty = s.joins.isEmpty := List.isEmpty_map
  rw [Select.inJoin, ← hempty, h.heads, Bool.eq_iff_iff]
  simp [Effect.isJoin, List.filterMap_eq_nil_iff, Option.isSome_iff_ne_none]

/-- An error is no part of the chains. -/
theorem record (h : s.Routed es) (e : Error) : (s.record e).Routed es := by
  refine ⟨h.heads, h.written, ?_⟩
  rw [record_eq_refocus, focus_refocus]
  exact h.focus.record e

/-- A call that every statement takes writes on the last chain only. -/
theorem applyCommon (h : s.Routed es) (step : Draft.Step) :
    (s.applyCommon step).Routed (es ++ step.effects) := by
  refine ⟨?_, ?_, ?_⟩
  -- No join comes to those that are there.
  · rw [heads_applyCommon, List.filterMap_append, step.filterMap_join?_effects, List.append_nil]
    exact h.heads
  · have hsame : (s.applyCommon step).writtenChains = s.writtenChains := by
      rcases s.applyCommon_cases step with ⟨n, rfl, hwheres⟩ | hclose
      · rw [Select.applyCommon, closeBrackets_of_nil hwheres]
        rfl
      · rw [applyCommon_eq_refocus hclose, writtenChains_refocus]
    -- The effects join nothing, so the chains before the last are the same ones.
    rw [hsame, h.written, joinCount_append, step.joinCount_effects, Nat.add_zero]
    exact List.map_congr_left fun k hk =>
      (chainOf_append_of_lt (List.mem_range.mp hk) step.effects).symm
  · have hfocus := h.focus.apply step
    -- A stray close is an error on both sides, and everything else a call on the focus.
    rcases s.applyCommon_cases step with ⟨n, rfl, hwheres⟩ | hclose
    · -- The draft says it in other words, but neither adds anything.
      have hdraft : s.focus.apply (.closeBrackets n) =
          s.focus.record (.structural .closeBeforeWhere) := by
        rw [Draft.apply, Draft.closeBrackets, hwheres]
        rfl
      rw [hdraft] at hfocus
      rw [Select.applyCommon, closeBrackets_of_nil hwheres, record_eq_refocus, focus_refocus]
      exact ⟨hfocus.wheres, hfocus.pending⟩
    · rw [applyCommon_eq_refocus hclose, focus_refocus]
      exact hfocus

/-- A join closes the list of the chains that are written and begins an empty one. -/
theorem addJoin (h : s.Routed es) (source : Aliased) (kind : JoinKind) :
    Routed { s with joins := s.joins ++ [⟨source, kind, []⟩] } (es ++ [.join source kind]) := by
  have hcount : joinCount (es ++ [.join source kind]) = joinCount es + 1 := joinCount_concat ..
  refine ⟨?_, ?_, ?_⟩
  -- What was the chain being written is written now, and the new one is empty.
  · rw [Select.heads, List.map_append, List.filterMap_append]
    exact congrArg (· ++ [(source, kind)]) h.heads
  · rw [writtenChains_addJoin, h.chains, hcount]
    exact List.map_congr_left fun k _ => (chainOf_join source kind).symm
  · rw [focus_concat]
    refine ⟨?_, ?_⟩
    · rw [hcount, chainOf_join, chainOf_of_joinCount_lt (Nat.lt_succ_self _)]
    -- Brackets that were opened before the join wait for a condition behind it.
    · rw [pendingAfter_concat, ← h.focus.pending, pending_focus]
      rfl

/-- **A call on a select** has its effects behind those of the calls before. -/
theorem apply (h : s.Routed es) (step : Step) : (s.apply step).Routed (es ++ step.effects es) := by
  cases step with
  | common step => exact h.applyCommon step
  | addJoin raw kind =>
    rw [Step.effects]
    change (s.addJoin raw kind).Routed _
    unfold Select.addJoin
    cases Aliased.read .source raw with
    | ok source => exact h.addJoin source kind
    | error e =>
      rw [List.append_nil]
      exact h.record e
  | addOn raw binding connective =>
    change (s.addOn raw binding connective).Routed _
    -- Whether there is a join can be read off the effects before.
    rw [Step.effects, ← h.inJoin]
    by_cases hjoin : s.inJoin = true
    · rw [if_pos hjoin, addOn_of_inJoin hjoin]
      exact h.applyCommon (.addCondition raw binding connective)
    · rw [if_neg hjoin, addOn_of_not_inJoin hjoin, List.append_nil]
      exact h.record _
  | addFields names =>
    rw [Step.effects, List.append_nil]
    change (s.addFields names).Routed es
    unfold addFields
    cases names.read .field with
    | ok fields => exact ⟨h.heads, h.written, h.focus⟩
    | error e => exact h.record e
  | setDistinct | setWindow | setPage | sortBy | groupBy =>
    -- The other calls have no effects.
    rw [Step.effects, List.append_nil]
    exact ⟨h.heads, h.written, h.focus⟩

/-- Any number of calls, by induction with the select and the effects before it general. -/
theorem foldl (h : s.Routed es) (steps : List Step) :
    (steps.foldl Select.apply s).Routed
      (steps.foldl (fun before step => before ++ step.effects before) es) := by
  induction steps generalizing s es with
  | nil => exact h
  | cons step steps ih => exact ih (h.apply step)

/-- The WHERE chain and the ON chains of a select that calls build. -/
theorem build (steps : List Step) : (Select.build steps).Routed (effects steps) :=
  empty.foldl steps

end Routed

end Select

/-- The effects of more calls stand behind those of the calls before. -/
theorem Select.prefix_effects (steps more : List Step) :
    effects steps <+: effects (steps ++ more) := by
  have hmore (es : List Effect) :
      es <+: more.foldl (fun before step => before ++ step.effects before) es := by
    induction more generalizing es with
    | nil => exact List.prefix_refl es
    | cons step more ih => exact (List.prefix_append ..).trans (ih _)
  rw [effects, effects, List.foldl_append]
  exact hmore _

/-! ### Calls on a write or a delete -/

section

variable {σ Step : Type} {apply : σ → Step → σ} {effects : Step → List Effect}

/-- Any number of calls on a statement with one chain, given what one of them does. -/
theorem Draft.Follows.foldl (draft : σ → Draft)
    (happly : ∀ {s es}, (draft s).Follows es →
      ∀ step, (draft (apply s step)).Follows (es ++ effects step))
    {s : σ} {es : List Effect} (h : (draft s).Follows es) (steps : List Step) :
    (draft (steps.foldl apply s)).Follows (es ++ steps.flatMap effects) := by
  induction steps generalizing s es with
  | nil =>
    rw [List.flatMap_nil, List.append_nil]
    exact h
  | cons step steps ih =>
    rw [List.flatMap_cons, ← List.append_assoc]
    exact ih (happly h step)

/-- Calls of which none joins anything join nothing together. -/
theorem joinCount_flatMap (heffects : ∀ step, joinCount (effects step) = 0) (steps : List Step) :
    joinCount (steps.flatMap effects) = 0 := by
  induction steps with
  | nil => rfl
  | cons step steps ih => rw [List.flatMap_cons, joinCount_append, heffects, ih]

end

theorem Write.Step.joinCount_effects (step : Step) : joinCount step.effects = 0 := by
  cases step with
  | common step => exact step.joinCount_effects
  | addRows | addDocument => rfl

theorem Delete.Step.joinCount_effects (step : Step) : joinCount step.effects = 0 := by
  cases step with
  | common step => exact step.joinCount_effects
  | allowAll => rfl

theorem Write.follows_addRows {w : Write} {es : List Effect} (h : w.draft.Follows es)
    (rows : List Tuple) : (w.addRows rows).draft.Follows es := by
  unfold addRows checkRows
  split
  · exact h.record _
  · exact h

/-- A call on a write adds its effects. Rows are no part of the chain. -/
theorem Write.follows_apply {w : Write} {es : List Effect} (h : w.draft.Follows es) (step : Step) :
    (w.apply step).draft.Follows (es ++ step.effects) := by
  cases step with
  | common step => exact h.apply step
  | addRows rows =>
    rw [Step.effects, List.append_nil]
    exact follows_addRows h rows
  | addDocument document =>
    rw [Step.effects, List.append_nil]
    change (w.addDocument document).draft.Follows es
    unfold addDocument
    cases Tuple.allOfJson document with
    | ok rows => exact follows_addRows h rows
    | error e => exact h.record e

/-- A call on a delete adds its effects. That it may remove every row is no part of the chain. -/
theorem Delete.follows_apply {r : Delete} {es : List Effect} (h : r.draft.Follows es)
    (step : Step) : (r.apply step).draft.Follows (es ++ step.effects) := by
  cases step with
  | common step => exact h.apply step
  | allowAll =>
    rw [Step.effects, List.append_nil]
    exact h

/-- The WHERE chain of a write is that of its calls. -/
theorem Write.follows_build (steps : List Step) :
    (build steps).draft.Follows (steps.flatMap Step.effects) := by
  have hempty : Draft.Follows {} [] := ⟨rfl, rfl⟩
  exact hempty.foldl Write.draft follows_apply (s := {}) steps

/-- The WHERE chain of a delete is that of its calls. -/
theorem Delete.follows_build (steps : List Step) :
    (build steps).draft.Follows (steps.flatMap Step.effects) := by
  have hempty : Draft.Follows {} [] := ⟨rfl, rfl⟩
  exact hempty.foldl Delete.draft follows_apply (s := {}) steps

/-- Without joins the WHERE chain has all conditions. -/
theorem Draft.Follows.all {d : Draft} {es : List Effect} (h : d.Follows es)
    (hes : joinCount es = 0) :
    d.wheres = chainOf es 0 ∧ d.wheres.map Condition.part = es.filterMap Effect.part? := by
  have hwheres : d.wheres = chainOf es 0 := by rw [h.wheres, hes]
  exact ⟨hwheres, hwheres ▸ map_part_conditionsFrom rfl hes⟩

/-! ### Sequences of calls -/

/-- The chains of a select are those of its calls. -/
theorem Select.chains_build (steps : List Step) :
    (build steps).draft.wheres = chainOf (effects steps) 0 ∧
      (build steps).joins.map Join.conditions =
        (List.range (build steps).joins.length).map fun k => chainOf (effects steps) (k + 1) := by
  have hrouted := Routed.build steps
  have hlength : (build steps).joins.length = joinCount (effects steps) := by
    have hheads := congrArg List.length hrouted.heads
    rw [heads, List.length_map, List.length_filterMap_eq_countP] at hheads
    exact hheads
  -- The first of all chains is the WHERE chain, and the others are those of the joins.
  have hchains := hrouted.chains
  rw [List.range_succ_eq_map, List.map_cons, List.map_map] at hchains
  obtain ⟨hwheres, hjoins⟩ := List.cons.inj hchains
  rw [hlength]
  exact ⟨hwheres, hjoins⟩

/-- The chains of any statement are those of its calls. -/
theorem Calls.chains_build (calls : Calls) :
    calls.build.chains =
      (List.range (joinCount calls.effects + 1)).map (chainOf calls.effects) := by
  cases calls with
  | select steps => exact (Select.Routed.build steps).chains
  | write steps =>
    -- Without joins there is the WHERE chain only.
    have hcount := joinCount_flatMap Write.Step.joinCount_effects steps
    change [(Write.build steps).draft.wheres] = _
    rw [effects, hcount, ((Write.follows_build steps).all hcount).1]
    rfl
  | delete steps =>
    have hcount := joinCount_flatMap Delete.Step.joinCount_effects steps
    change [(Delete.build steps).draft.wheres] = _
    rw [effects, hcount, ((Delete.follows_build steps).all hcount).1]
    rfl

/-- Once there is a join, the WHERE chain stays what it is. -/
theorem Select.wheres_build_append {steps : List Step} (h : (build steps).joins ≠ [])
    (more : List Step) : (build (steps ++ more)).draft.wheres = (build steps).draft.wheres := by
  obtain ⟨others, hothers⟩ := prefix_effects steps more
  -- There is a join among the effects, so the first chain is not the last one.
  have hjoin : 0 < joinCount (effects steps) := by
    have hinJoin := (Routed.build steps).inJoin
    rw [inJoin, List.isEmpty_eq_false_iff.mpr h] at hinJoin
    exact List.countP_pos_iff.mpr (List.any_eq_true.mp hinJoin.symm)
  calc (build (steps ++ more)).draft.wheres
      = chainOf (effects (steps ++ more)) 0 := (chains_build _).1
    _ = chainOf (effects steps ++ others) 0 := by rw [hothers]
    _ = chainOf (effects steps) 0 := chainOf_append_of_lt hjoin others
    _ = (build steps).draft.wheres := (chains_build steps).1.symm

/-- **Conditions and brackets go where the calls send them.** The WHERE chain of a select has the
conditions that were given before the first join, and the ON chain of a join those that were given
behind it and before the next; before a condition open the brackets that were opened since the
condition before it, in whichever chain, and behind it close those that were closed while it was the
last one of the chain being written. So the join that conditions go to is the last one, and an index
of it is never out of range; with a join, an ordinary condition and an ON condition are the same,
and the WHERE chain does not change any more. In a write or a delete all conditions go to the WHERE
chain, and stay there. -/
theorem Calls.routing :
    (∀ steps : List Select.Step,
      (Select.build steps).draft.wheres = chainOf (Select.effects steps) 0 ∧
      (Select.build steps).joins.map Join.conditions =
        ((List.range (Select.build steps).joins.length).map fun k =>
          chainOf (Select.effects steps) (k + 1)) ∧
      (Select.build steps).heads = (Select.effects steps).filterMap Effect.join? ∧
      (Select.build steps).draft.pending = pendingAfter (Select.effects steps) ∧
      Indexed.build? steps = some ⟨Select.build steps, (Select.build steps).lastJoin?⟩) ∧
    (∀ (s : Select) (raw : String) (binding : Binding) (connective : Connective), s.joins ≠ [] →
      s.apply (.common (.addCondition raw binding connective)) =
        s.apply (.addOn raw binding connective)) ∧
    (∀ steps more : List Select.Step, (Select.build steps).joins ≠ [] →
      (Select.build (steps ++ more)).draft.wheres = (Select.build steps).draft.wheres) ∧
    (∀ steps : List Write.Step,
      (Write.build steps).draft.wheres = chainOf (steps.flatMap Write.Step.effects) 0 ∧
      (Write.build steps).draft.wheres.map Condition.part =
        (steps.flatMap Write.Step.effects).filterMap Effect.part? ∧
      ∀ more, (Write.build steps).draft.wheres.map Condition.part <+:
        (Write.build (steps ++ more)).draft.wheres.map Condition.part) ∧
    ∀ steps : List Delete.Step,
      (Delete.build steps).draft.wheres = chainOf (steps.flatMap Delete.Step.effects) 0 ∧
      (Delete.build steps).draft.wheres.map Condition.part =
        (steps.flatMap Delete.Step.effects).filterMap Effect.part? ∧
      ∀ more, (Delete.build steps).draft.wheres.map Condition.part <+:
        (Delete.build (steps ++ more)).draft.wheres.map Condition.part := by
  have hwrite (steps : List Write.Step) :=
    (Write.follows_build steps).all (joinCount_flatMap Write.Step.joinCount_effects steps)
  have hdelete (steps : List Delete.Step) :=
    (Delete.follows_build steps).all (joinCount_flatMap Delete.Step.joinCount_effects steps)
  refine ⟨fun steps => ?_, fun s raw binding connective hjoins => ?_, fun steps more hjoins => ?_,
    fun steps => ⟨(hwrite steps).1, (hwrite steps).2, fun more => ?_⟩,
    fun steps => ⟨(hdelete steps).1, (hdelete steps).2, fun more => ?_⟩⟩
  · have hrouted := Select.Routed.build steps
    obtain ⟨hwheres, hjoins⟩ := Select.chains_build steps
    exact ⟨hwheres, hjoins, hrouted.heads,
      (Select.build steps).pending_focus.symm.trans hrouted.focus.pending, Indexed.build?_eq steps⟩
  · exact Select.addCondition_eq_addOn hjoins raw binding connective
  · exact Select.wheres_build_append hjoins more
  -- More calls add conditions behind those that are there.
  · rw [(hwrite _).2, (hwrite _).2, List.flatMap_append, List.filterMap_append]
    exact List.prefix_append ..
  · rw [(hdelete _).2, (hdelete _).2, List.flatMap_append, List.filterMap_append]
    exact List.prefix_append ..

/-- A select with two joins. Brackets are opened before the first condition and closed behind an ON
condition, and opened before a join for a condition behind it; the condition before the first join
is closed at once, and an ON condition that cannot be read adds nothing. -/
def routedSteps : List Select.Step := [
  .addOn "a" (.value .null) .and,
  .common (.openBrackets 1),
  .common (.addCondition "a" (.value .null) .and),
  .common (.closeBrackets 1),
  .common (.openBrackets 2),
  .addJoin "u" .inner,
  .common (.closeBrackets 3),
  .addOn "b  =" (.value .null) .and,
  .addOn "b" (.value .null) .or,
  .common (.addCondition "c" (.value .null) .and),
  .common (.closeBrackets 2),
  .addJoin "v" .left]

theorem Calls.routing_two_joins :
    ((Select.build routedSteps).draft.wheres.map fun c => (c.comparison.field, c.opens, c.closes)) =
        [("a", 1, 1)] ∧
      ((Select.build routedSteps).joins.map fun j =>
          j.conditions.map fun c => (c.comparison.field, c.opens, c.closes)) =
        [[("b", 2, 0), ("c", 0, 2)], []] ∧
      (Select.build (routedSteps ++
          [.common (.addCondition "d" (.value .null) .and)])).draft.wheres =
        (Select.build routedSteps).draft.wheres ∧
      (Select.build routedSteps).apply (.common (.addCondition "d" (.value .null) .and)) =
        (Select.build routedSteps).apply (.addOn "d" (.value .null) .and) := by
  obtain ⟨hselect, hsame, hlater, -, -⟩ := Calls.routing
  obtain ⟨hwheres, hjoins, -⟩ := hselect routedSteps
  have htwo : (Select.build routedSteps).joins ≠ [] := List.cons_ne_nil _ _
  refine ⟨?_, ?_, hlater routedSteps _ htwo, hsame _ _ _ _ htwo⟩
  · rw [hwheres]
    rfl
  · have hconditions := congrArg
      (List.map (List.map fun c => (c.comparison.field, c.opens, c.closes))) hjoins
    rw [List.map_map] at hconditions
    exact hconditions.trans rfl

end SqlBuilder
