import Mathlib.Algebra.Ring.Nat
import Mathlib.Data.List.DropRight
import SqlBuilder.Statement.Delete
import SqlBuilder.Statement.Select
import SqlBuilder.Statement.Write

/-!
# Chains read off the calls

A call has **effects** on the chains of a statement: it adds a condition, opens or closes brackets,
or joins a source. A call with a text that cannot be read has none, and neither has an ON condition
before there is a join. Nothing else of the calls is needed to know the chains.

In the list of all effects a condition belongs to the chain whose number is the number of joins
before it. The brackets opened since the condition before it, in whichever chain, open before it
(`pendingAfter`), and those closed until the next condition or join close behind it (`closedBy`).
That is `chainOf`, which looks at the whole list at once.

Main statements: what one effect more does to the chains. A condition and a close change the last
chain (`chainOf_part`, `chainOf_closes`), a join begins an empty one (`chainOf_of_joinCount_lt`),
and chains before the last stay what they are, whatever comes later (`chainOf_append_of_lt`).
-/

namespace SqlBuilder

/-- A condition without its brackets. -/
def Condition.part (c : Condition) : Comparison × Binding × Connective :=
  (c.comparison, c.binding, c.connective)

/-! ### Effects -/

/-- What a call does to the chains. -/
inductive Effect where
  | part (comparison : Comparison) (binding : Binding) (connective : Connective)
  | opens (n : Nat)
  | closes (n : Nat)
  | join (source : Aliased) (kind : JoinKind)

namespace Effect

/-- The condition that is added, without its brackets. -/
def part? : Effect → Option (Comparison × Binding × Connective)
  | .part comparison binding connective => some (comparison, binding, connective)
  | _ => none

/-- The condition that is added, with its brackets. -/
def condition? (opens closes : Nat) : Effect → Option Condition
  | .part comparison binding connective => some ⟨comparison, binding, connective, opens, closes⟩
  | _ => none

/-- The join that is added. -/
def join? : Effect → Option (Aliased × JoinKind)
  | .join source kind => some (source, kind)
  | _ => none

/-- Whether a condition is added. -/
def isPart (e : Effect) : Bool :=
  e.part?.isSome

/-- Whether a join is added. -/
def isJoin (e : Effect) : Bool :=
  e.join?.isSome

/-- Whether brackets are no longer closed behind the condition before. -/
def endsPart (e : Effect) : Bool :=
  e.isPart || e.isJoin

/-- How many brackets are opened. -/
def opened : Effect → Nat
  | .opens n => n
  | _ => 0

/-- How many brackets are closed. -/
def closed : Effect → Nat
  | .closes n => n
  | _ => 0

end Effect

/-- The effects of a condition that is given to a call. -/
def conditionEffects (raw : String) (binding : Binding) (connective : Connective) : List Effect :=
  match Comparison.read raw with
  | .ok comparison => [.part comparison binding connective]
  | .error _ => []

/-- The effects of a call. -/
def Draft.Step.effects : Step → List Effect
  | .addSources _ => []
  | .addCondition raw binding connective => conditionEffects raw binding connective
  | .addConditions pairs => pairs.flatMap fun pair => conditionEffects pair.1 pair.2 .and
  | .openBrackets n => [.opens n]
  | .closeBrackets n => [.closes n]

/-- The effects of a call behind others. -/
def Select.Step.effects (before : List Effect) : Step → List Effect
  | .common step => step.effects
  | .addJoin raw kind =>
    match Aliased.read .source raw with
    | .ok source => [.join source kind]
    | .error _ => []
  | .addOn raw binding connective =>
    if before.any Effect.isJoin then conditionEffects raw binding connective else []
  | .addFields _ | .setDistinct _ | .setWindow _ _ | .setPage _ _ | .sortBy _ _ | .groupBy _ => []

/-- The effects of a call. -/
def Write.Step.effects : Step → List Effect
  | .common step => step.effects
  | .addRows _ | .addDocument _ => []

/-- The effects of a call. -/
def Delete.Step.effects : Step → List Effect
  | .common step => step.effects
  | .allowAll => []

/-- The effects of a sequence of calls. -/
def Select.effects (steps : List Step) : List Effect :=
  steps.foldl (fun before step => before ++ step.effects before) []

/-- A sequence of calls on a statement of some kind. -/
inductive Calls where
  | select (steps : List Select.Step)
  | write (steps : List Write.Step)
  | delete (steps : List Delete.Step)

namespace Calls

/-- The statement that the calls build. -/
def build : Calls → Statement
  | .select steps => .select (Select.build steps)
  | .write steps => .write (Write.build steps)
  | .delete steps => .delete (Delete.build steps)

/-- The effects of the calls. -/
def effects : Calls → List Effect
  | .select steps => Select.effects steps
  | .write steps => steps.flatMap Write.Step.effects
  | .delete steps => steps.flatMap Delete.Step.effects

end Calls

/-! ### The chains of a list of effects -/

/-- How many joins there are. -/
def joinCount (es : List Effect) : Nat :=
  es.countP Effect.isJoin

/-- The brackets that open before the next condition: those since the last one in any chain. -/
def pendingAfter (before : List Effect) : Nat :=
  ((before.rtakeWhile fun e => !e.isPart).map Effect.opened).sum

/-- The brackets that close behind a condition: those until the next condition or join. -/
def closedBy (after : List Effect) : Nat :=
  ((after.takeWhile fun e => !e.endsPart).map Effect.closed).sum

/-- The conditions that effects behind others add to the chain with the number `k`. -/
def conditionsFrom (k : Nat) : List Effect → List Effect → List Condition
  | _, [] => []
  | before, e :: after =>
    (if joinCount before = k then (e.condition? (pendingAfter before) (closedBy after)).toList
      else []) ++ conditionsFrom k (before ++ [e]) after

/-- The chain with the number `k`: the WHERE chain, and from one on the ON chains. -/
def chainOf (es : List Effect) (k : Nat) : List Condition :=
  conditionsFrom k [] es

/-! ### One effect behind the others -/

/-- One effect more is one join more if it is one. -/
theorem joinCount_concat (es : List Effect) (e : Effect) :
    joinCount (es ++ [e]) = joinCount es + if e.isJoin then 1 else 0 := by
  rw [joinCount, joinCount, List.countP_append, List.countP_singleton]

theorem joinCount_concat_of_not_join {e : Effect} (h : e.isJoin = false) (es : List Effect) :
    joinCount (es ++ [e]) = joinCount es := by
  rw [joinCount_concat, h]
  rfl

theorem joinCount_cons (e : Effect) (es : List Effect) :
    joinCount (e :: es) = joinCount es + if e.isJoin then 1 else 0 :=
  List.countP_cons ..

/-- In a list without joins no effect is one. -/
theorem isJoin_of_joinCount_cons {e : Effect} {es : List Effect} (h : joinCount (e :: es) = 0) :
    e.isJoin = false ∧ joinCount es = 0 := by
  rw [joinCount_cons] at h
  cases hjoin : e.isJoin with
  | false => exact ⟨rfl, by omega⟩
  | true =>
    rw [if_pos hjoin] at h
    omega

/-- A join ends the condition before it. -/
theorem any_endsPart_of_joinCount {es : List Effect} (h : joinCount es ≠ 0) :
    es.any Effect.endsPart = true := by
  -- Where joins are counted there is one.
  obtain ⟨e, he, hjoin⟩ := List.countP_pos_iff.mp (Nat.pos_of_ne_zero h)
  exact List.any_eq_true.mpr ⟨e, he, by rw [Effect.endsPart, hjoin, Bool.or_true]⟩

theorem joinCount_append (es others : List Effect) :
    joinCount (es ++ others) = joinCount es + joinCount others :=
  List.countP_append ..

/-- A condition takes the pending brackets with it; every other effect leaves them, and an opening
adds to them. -/
theorem pendingAfter_concat (es : List Effect) (e : Effect) :
    pendingAfter (es ++ [e]) = if e.isPart then 0 else pendingAfter es + e.opened := by
  -- The effects since the last condition are read off from the end, where the new one stands.
  by_cases hpart : e.isPart = true
  · rw [pendingAfter, List.rtakeWhile_concat_neg _ _ _ (by simp [hpart]), if_pos hpart]
    rfl
  · rw [pendingAfter, List.rtakeWhile_concat_pos _ _ _ (by simp [hpart]), if_neg hpart,
      List.map_append, List.sum_append]
    rfl

/-- Brackets are closed behind a condition until something ends it. -/
theorem closedBy_cons (e : Effect) (es : List Effect) :
    closedBy (e :: es) = if e.endsPart then 0 else e.closed + closedBy es := by
  rw [closedBy, List.takeWhile_cons]
  cases e.endsPart <;> rfl

/-- What comes later closes brackets behind a condition only if nothing ended it before. -/
theorem closedBy_concat (es : List Effect) (e : Effect) :
    closedBy (es ++ [e]) = closedBy es + if es.any Effect.endsPart then 0 else e.closed := by
  induction es with
  | nil =>
    rw [List.nil_append, closedBy_cons]
    cases e with
    | closes n => exact Nat.add_comm n 0
    | _ => rfl
  | cons first es ih =>
    rw [List.cons_append, closedBy_cons, closedBy_cons, ih, List.any_cons]
    cases first.endsPart with
    | true => rfl
    | false => exact (Nat.add_assoc ..).symm

/-- An effect that closes nothing changes no condition before it. -/
theorem conditionsFrom_concat {k : Nat} {before es : List Effect} {e : Effect} (h : e.closed = 0) :
    conditionsFrom k before (es ++ [e]) =
      conditionsFrom k before es ++ conditionsFrom k (before ++ es) [e] := by
  -- What closes behind a condition depends on what comes later, but `e` closes nothing.
  induction es generalizing before with
  | nil => rw [List.append_nil]; rfl
  | cons first es ih =>
    have hclosed : closedBy (es ++ [e]) = closedBy es := by
      rw [closedBy_concat, h, ite_self, Nat.add_zero]
    rw [List.cons_append, conditionsFrom, conditionsFrom, hclosed, ih, List.append_assoc,
      List.append_assoc, List.singleton_append]

/-- A chain is empty as long as there are too few joins for it. -/
theorem conditionsFrom_of_lt {k : Nat} {before es : List Effect}
    (h : joinCount before + joinCount es < k) : conditionsFrom k before es = [] := by
  induction es generalizing before with
  | nil => rfl
  | cons e es ih =>
    rw [joinCount_cons] at h
    -- The effect may be a join, and then one less is left behind it.
    have hrest : conditionsFrom k (before ++ [e]) es = [] :=
      ih (by rw [joinCount_concat]; omega)
    rw [conditionsFrom, if_neg (by omega), hrest]
    rfl

/-- Without another join, the chain being written stays empty until a condition is added. -/
theorem conditionsFrom_eq_nil_iff {k : Nat} {before es : List Effect}
    (hbefore : joinCount before = k) (hes : joinCount es = 0) :
    conditionsFrom k before es = [] ↔ es.any Effect.endsPart = false := by
  induction es generalizing before with
  | nil => exact iff_of_true rfl rfl
  | cons e es ih =>
    obtain ⟨hjoin, hes⟩ := isJoin_of_joinCount_cons hes
    have hrest : conditionsFrom k (before ++ [e]) es = [] ↔ es.any Effect.endsPart = false :=
      ih ((joinCount_concat_of_not_join hjoin before).trans hbefore) hes
    rw [conditionsFrom, if_pos hbefore, List.any_cons]
    cases e with
    | part =>
      refine iff_of_false (List.cons_ne_nil _ _) ?_
      simp [Effect.endsPart, Effect.isPart, Effect.part?]
    | join => cases hjoin
    | opens | closes => exact hrest

/-- Without joins all conditions go to one chain, in their order. -/
theorem map_part_conditionsFrom {k : Nat} {before es : List Effect}
    (hbefore : joinCount before = k) (hes : joinCount es = 0) :
    (conditionsFrom k before es).map Condition.part = es.filterMap Effect.part? := by
  induction es generalizing before with
  | nil => rfl
  | cons e es ih =>
    obtain ⟨hjoin, hes⟩ := isJoin_of_joinCount_cons hes
    have hrest : (conditionsFrom k (before ++ [e]) es).map Condition.part =
        es.filterMap Effect.part? :=
      ih ((joinCount_concat_of_not_join hjoin before).trans hbefore) hes
    rw [conditionsFrom, if_pos hbefore, List.map_append, hrest]
    cases e <;> rfl

/-- Without another join, a condition is the last one of the chain unless another one follows. -/
theorem mapLast_cons_conditionsFrom {k : Nat} {before es : List Effect}
    (hbefore : joinCount before = k) (hes : joinCount es = 0) (f : Condition → Condition)
    (c : Condition) :
    mapLast f (c :: conditionsFrom k before es) =
      (if es.any Effect.endsPart then c else f c) :: mapLast f (conditionsFrom k before es) := by
  have hnil := conditionsFrom_eq_nil_iff hbefore hes
  cases hrest : conditionsFrom k before es with
  | nil =>
    rw [hnil.mp hrest]
    rfl
  | cons next rest =>
    -- There is another condition, so something ends the one in front.
    have hends : es.any Effect.endsPart = true := by
      by_contra h
      rw [hnil.mpr (by simpa using h)] at hrest
      cases hrest
    rw [hends]
    rfl

/-- Brackets that are closed belong to the last condition of the last chain, and to nothing if it
has none. -/
theorem conditionsFrom_closes {k : Nat} {before es : List Effect} (n : Nat) :
    conditionsFrom k before (es ++ [.closes n]) =
      if joinCount before + joinCount es = k then
        mapLast (fun c => { c with closes := c.closes + n }) (conditionsFrom k before es)
      else conditionsFrom k before es := by
  -- By induction from the front, so the last condition of the chain is found by what follows it.
  induction es generalizing before with
  | nil =>
    rw [List.nil_append, conditionsFrom, conditionsFrom, conditionsFrom]
    split <;> split <;> rfl
  | cons e es ih =>
    have hcount : joinCount (before ++ [e]) + joinCount es =
        joinCount before + joinCount (e :: es) := by
      rw [joinCount_concat, joinCount_cons]
      omega
    rw [List.cons_append, conditionsFrom, conditionsFrom, ih, hcount, closedBy_concat]
    by_cases hhere : joinCount before = k
    · rw [if_pos hhere, if_pos hhere]
      cases e with
      -- Only behind a condition can brackets be closed.
      | opens | closes | join => rfl
      | part comparison binding connective =>
        -- The one condition that is here may be the last one, which both sides ask in their way.
        have hcons : joinCount (.part comparison binding connective :: es) = joinCount es :=
          joinCount_cons ..
        rw [hcons]
        by_cases hes : joinCount es = 0
        · have hbefore : joinCount (before ++ [.part comparison binding connective]) = k :=
            (joinCount_concat_of_not_join rfl before).trans hhere
          have hlast := mapLast_cons_conditionsFrom hbefore hes
            (fun c => { c with closes := c.closes + n })
            ⟨comparison, binding, connective, pendingAfter before, closedBy es⟩
          rw [hes, Nat.add_zero, if_pos hhere, if_pos hhere]
          refine Eq.trans ?_ hlast.symm
          cases es.any Effect.endsPart <;> rfl
        · -- The chain has been left for that of another join.
          have hlater : ¬joinCount before + joinCount es = k := by omega
          rw [any_endsPart_of_joinCount hes, if_neg hlater, if_neg hlater]
          rfl
    · rw [if_neg hhere, if_neg hhere, List.nil_append, List.nil_append]

/-! ### The chains with one effect more -/

section

variable {es : List Effect} {k : Nat}

/-- Once there is another join, a chain stays what it is. -/
theorem chainOf_concat_of_lt (h : k < joinCount es) (e : Effect) :
    chainOf (es ++ [e]) k = chainOf es k := by
  have hk : ¬joinCount es = k := by omega
  -- Whatever the effect is, it is about the chain being written, and this is another one.
  cases e with
  | closes n =>
    rw [chainOf, conditionsFrom_closes, if_neg (by rw [joinCount, List.countP_nil]; omega)]
    rfl
  | part | opens | join =>
    rw [chainOf, conditionsFrom_concat rfl, List.nil_append, conditionsFrom, if_neg hk]
    exact List.append_nil _

/-- The same for any number of effects more. -/
theorem chainOf_append_of_lt (h : k < joinCount es) (others : List Effect) :
    chainOf (es ++ others) k = chainOf es k := by
  induction others generalizing es with
  | nil => rw [List.append_nil]
  | cons e others ih =>
    have hk : k < joinCount (es ++ [e]) := by
      rw [joinCount_concat]
      omega
    rw [List.append_cons, ih hk, chainOf_concat_of_lt h]

/-- A condition goes to the last chain. -/
theorem chainOf_part (comparison : Comparison) (binding : Binding) (connective : Connective) :
    chainOf (es ++ [.part comparison binding connective]) (joinCount es) =
      chainOf es (joinCount es) ++ [⟨comparison, binding, connective, pendingAfter es, 0⟩] := by
  rw [chainOf, conditionsFrom_concat rfl, List.nil_append, conditionsFrom, if_pos rfl]
  rfl

/-- Opening brackets changes no chain yet. -/
theorem chainOf_opens (n : Nat) : chainOf (es ++ [.opens n]) k = chainOf es k := by
  rw [chainOf, conditionsFrom_concat rfl, List.nil_append, conditionsFrom]
  split <;> exact List.append_nil _

/-- Brackets close behind the last condition of the last chain. -/
theorem chainOf_closes (n : Nat) :
    chainOf (es ++ [.closes n]) (joinCount es) =
      mapLast (fun c => { c with closes := c.closes + n }) (chainOf es (joinCount es)) := by
  rw [chainOf, conditionsFrom_closes, if_pos (by rw [joinCount, List.countP_nil]; omega)]
  rfl

/-- A join changes none of the chains that are there. -/
theorem chainOf_join (source : Aliased) (kind : JoinKind) :
    chainOf (es ++ [.join source kind]) k = chainOf es k := by
  rw [chainOf, conditionsFrom_concat rfl, List.nil_append, conditionsFrom]
  split <;> exact List.append_nil _

/-- The chain of a join that is still to come is empty. -/
theorem chainOf_of_joinCount_lt (h : joinCount es < k) : chainOf es k = [] :=
  conditionsFrom_of_lt (by rwa [joinCount, List.countP_nil, Nat.zero_add])

end

end SqlBuilder
