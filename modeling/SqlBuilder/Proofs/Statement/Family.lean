import SqlBuilder.Proofs.Statement.Failure
import SqlBuilder.Proofs.Statement.OrderedMap

/-!
# Calls of different families

What a select is given belongs to one of seven **families**: its sources, fields, window, sorts and
groups, whether rows are distinct, and the chains of its conditions with joins and brackets. A
call of one family neither changes what belongs to another nor looks at it
(`Select.only_apply_of_ne`, `Select.only_apply`). So what a family has in a select is what it has if
only its own calls are made (`Select.only_build`), and a call fails after others exactly if it fails
after those of its family (`Select.failuresOf_eq_nil_iff`).

Main statement, at the end: if no call fails, the select depends on the calls of each family alone,
however they are mixed; and for the families other than the chains what it has is told by what the
calls brought (`Select.build_of_families`).
-/

namespace SqlBuilder

namespace Select

/-! ### Families -/

/-- What a call is about. -/
inductive Family where
  | sources
  | fields
  | distinct
  | window
  | sorts
  | groups
  /-- Conditions, joins and brackets. -/
  | chains
  deriving DecidableEq, Repr

/-- The family of a call. -/
def Step.family : Step → Family
  | .common (.addSources _) => .sources
  | .common _ | .addJoin _ _ | .addOn _ _ _ => .chains
  | .addFields _ => .fields
  | .setDistinct _ => .distinct
  | .setWindow _ _ | .setPage _ _ => .window
  | .sortBy _ _ => .sorts
  | .groupBy _ => .groups

/-- The calls of a family, in their order. -/
def callsOf (family : Family) (steps : List Step) : List Step :=
  steps.filter fun step => step.family = family

/-- The select with nothing but what belongs to a family, and without an error. -/
def only (family : Family) (s : Select) : Select :=
  match family with
  | .sources => { draft := { sources := s.draft.sources } }
  | .fields => { draft := {}, fields := s.fields }
  | .distinct => { draft := {}, distinct := s.distinct }
  | .window => { draft := {}, window? := s.window? }
  | .sorts => { draft := {}, sorts := s.sorts }
  | .groups => { draft := {}, groups := s.groups }
  | .chains =>
    { draft := { wheres := s.draft.wheres, pending := s.draft.pending }, joins := s.joins }

variable {s t : Select} {family : Family} {step : Step}

/-- What belongs to a family in what belongs to it is all of it. -/
theorem only_only (family : Family) (s : Select) : only family (only family s) = only family s := by
  cases family <;> rfl

/-- An error belongs to no family. -/
theorem only_record (family : Family) (s : Select) (e : Error) :
    only family (s.record e) = only family s := by
  cases family <;> rfl

/-- Conditions, joins and open brackets belong to the chains alone, so that other families keep what
they have when these change. -/
theorem only_withChains (h : family ≠ .chains) (s : Select) (wheres : List Condition)
    (pending : Nat) (error? : Option Error) (joins : List Join) :
    only family { s with draft := { s.draft with wheres, pending, error? }, joins } =
      only family s := by
  cases family with
  | chains => exact absurd rfl h
  | _ => rfl

/-- A select is what its families have, and its error. -/
theorem eq_of_only (h : ∀ family, only family s = only family t)
    (herror : s.draft.error? = t.draft.error?) : s = t := by
  have hsources : s.draft.sources = t.draft.sources := congrArg (·.draft.sources) (h .sources)
  have hwheres : s.draft.wheres = t.draft.wheres := congrArg (·.draft.wheres) (h .chains)
  have hpending : s.draft.pending = t.draft.pending := congrArg (·.draft.pending) (h .chains)
  have hjoins : s.joins = t.joins := congrArg (·.joins) (h .chains)
  have hfields : s.fields = t.fields := congrArg (·.fields) (h .fields)
  have hdistinct : s.distinct = t.distinct := congrArg (·.distinct) (h .distinct)
  have hwindow : s.window? = t.window? := congrArg (·.window?) (h .window)
  have hsorts : s.sorts = t.sorts := congrArg (·.sorts) (h .sorts)
  have hgroups : s.groups = t.groups := congrArg (·.groups) (h .groups)
  -- Every field but the error belongs to one of the families, so both selects have the same fields.
  rcases s with ⟨⟨⟩⟩
  rcases t with ⟨⟨⟩⟩
  simp only at hsources hwheres hpending herror hjoins hfields hdistinct hwindow hsorts hgroups
  subst hsources hwheres hpending herror hjoins hfields hdistinct hwindow hsorts hgroups
  rfl

/-! ### What a condition or a bracket leaves alone -/

section

variable (raw : String) (binding : Binding) (connective : Connective)

/-- A condition of a join is of no concern to another family, whether it is accepted or fails. -/
theorem only_addOn_of_ne (h : family ≠ .chains) :
    only family (s.addOn raw binding connective) = only family s := by
  unfold addOn
  split
  · exact only_record family s _
  · split
    · exact only_withChains h ..
    · exact only_record family s _

/-- A condition of a join looks at the chains alone. -/
theorem only_addOn (s : Select) :
    only .chains (s.addOn raw binding connective) =
      only .chains ((only .chains s).addOn raw binding connective) := by
  -- What `addOn` reads, the joins and the open brackets, is kept by `only .chains`.
  have hcondition : (only .chains s).draft.condition raw binding connective =
      s.draft.condition raw binding connective := rfl
  have hjoins : (only .chains s).joins = s.joins := rfl
  unfold addOn
  rw [hjoins, hcondition]
  cases s.joins with
  | nil => rfl
  | cons j js => cases s.draft.condition raw binding connective <;> rfl

/-- Nor is a condition, whether it goes to a join or behind WHERE. -/
theorem only_addCondition_of_ne (h : family ≠ .chains) :
    only family (s.addCondition raw binding connective) = only family s := by
  unfold addCondition
  split
  · exact only_addOn_of_ne raw binding connective h
  · dsimp only [withDraft]
    unfold Draft.addCondition
    cases s.draft.condition raw binding connective with
    | error e => exact only_record family s e
    | ok c =>
      exact only_withChains h ..

/-- A condition looks at the chains alone: also where it goes is told by the joins. -/
theorem only_addCondition (s : Select) :
    only .chains (s.addCondition raw binding connective) =
      only .chains ((only .chains s).addCondition raw binding connective) := by
  have hcondition : (only .chains s).draft.condition raw binding connective =
      s.draft.condition raw binding connective := rfl
  have hjoin : (only .chains s).inJoin = s.inJoin := rfl
  unfold addCondition
  rw [hjoin]
  split
  · exact only_addOn raw binding connective s
  · dsimp only [withDraft]
    unfold Draft.addCondition
    rw [hcondition]
    cases s.draft.condition raw binding connective <;> rfl

end

/-- Closing brackets is of no concern to another family. -/
theorem only_closeBrackets_of_ne (h : family ≠ .chains) (n : Nat) :
    only family (s.closeBrackets n) = only family s := by
  unfold closeBrackets
  -- Without a join the brackets close behind WHERE, else in the last join.
  split
  · dsimp only [withDraft]
    unfold Draft.closeBrackets
    cases closeLast? n s.draft.wheres with
    | none => exact only_record family s _
    | some wheres =>
      exact only_withChains h ..
  · next j _ =>
    cases closeLast? n j.conditions with
    | none => exact only_record family s _
    | some conditions =>
      exact only_withChains h s s.draft.wheres s.draft.pending s.draft.error? _

/-- Closing brackets looks at the chains alone. -/
theorem only_closeBrackets (s : Select) (n : Nat) :
    only .chains (s.closeBrackets n) = only .chains ((only .chains s).closeBrackets n) := by
  have hjoins : (only .chains s).joins = s.joins := rfl
  have hwheres : (only .chains s).draft.wheres = s.draft.wheres := rfl
  unfold closeBrackets
  rw [hjoins]
  cases s.joins.getLast? with
  | none =>
    dsimp only [withDraft]
    unfold Draft.closeBrackets
    rw [hwheres]
    cases closeLast? n s.draft.wheres <;> rfl
  | some j =>
    dsimp only
    cases closeLast? n j.conditions <;> rfl

/-! ### One call -/

/-- What items do to a part of a state, one after the other, if what each does to it depends on that
part only. -/
theorem view_foldl_congr {σ α β : Type} {f : σ → α → σ} {view : σ → β} {xs : List α}
    (hlocal : ∀ x ∈ xs, ∀ a b, view a = view b → view (f a x) = view (f b x)) {a b : σ}
    (h : view a = view b) : view (xs.foldl f a) = view (xs.foldl f b) := by
  induction xs generalizing a b with
  | nil => exact h
  | cons x xs ih =>
    obtain ⟨hx, hxs⟩ := List.forall_mem_cons.mp hlocal
    exact ih hxs (hx a b h)

/-- **A call of another family** leaves alone what belongs to a family. -/
theorem only_apply_of_ne (s : Select) (h : step.family ≠ family) :
    only family (s.apply step) = only family s := by
  cases step with
  | common step =>
    cases step with
    | addSources names =>
      change only family (s.withDraft (·.addSources names)) = only family s
      dsimp only [withDraft]
      unfold Draft.addSources
      cases names.read .source with
      | error e => exact only_record family s e
      | ok sources =>
        cases family with
        | sources => exact absurd rfl h
        | _ => rfl
    | addCondition raw binding connective =>
      exact only_addCondition_of_ne raw binding connective h.symm
    | addConditions pairs =>
      -- Several conditions in one call are a fold of single ones.
      change only family (pairs.foldl (fun s pair => s.addCondition pair.1 pair.2 .and) s) =
        only family s
      induction pairs generalizing s with
      | nil => rfl
      | cons pair pairs ih =>
        exact (ih _ h).trans (only_addCondition_of_ne pair.1 pair.2 .and h.symm)
    | openBrackets n =>
      exact only_withChains h.symm s ..
    | closeBrackets n => exact only_closeBrackets_of_ne h.symm n
  | addFields names =>
    change only family (s.addFields names) = only family s
    unfold addFields
    cases names.read .field with
    | error e => exact only_record family s e
    | ok fields =>
      cases family with
      | fields => exact absurd rfl h
      | _ => rfl
  | addJoin raw kind =>
    change only family (s.addJoin raw kind) = only family s
    unfold addJoin
    cases Aliased.read .source raw with
    | error e => exact only_record family s e
    | ok source =>
      exact only_withChains h.symm s s.draft.wheres s.draft.pending s.draft.error? _
  | addOn raw binding connective => exact only_addOn_of_ne raw binding connective h.symm
  -- These calls set one field each, that of their own family.
  | setDistinct | setWindow | setPage | sortBy | groupBy =>
    cases family with
    | distinct | window | sorts | groups => first | rfl | exact absurd rfl h
    | _ => rfl

/-- **A call of a family** looks at nothing but what belongs to it. -/
theorem only_apply (s : Select) (step : Step) :
    only step.family (s.apply step) = only step.family ((only step.family s).apply step) := by
  cases step with
  | common step =>
    cases step with
    | addSources names =>
      change only .sources (s.withDraft (·.addSources names)) =
        only .sources ((only .sources s).withDraft (·.addSources names))
      dsimp only [withDraft]
      unfold Draft.addSources
      cases names.read .source <;> rfl
    | addCondition raw binding connective => exact only_addCondition raw binding connective s
    | addConditions pairs =>
      -- Each condition in turn looks at the chains alone, so the whole fold does.
      refine view_foldl_congr (fun pair _ a b hab => ?_) (only_only .chains s).symm
      change only .chains (a.addCondition pair.1 pair.2 .and) =
        only .chains (b.addCondition pair.1 pair.2 .and)
      rw [only_addCondition _ _ _ a, only_addCondition _ _ _ b]
      exact congrArg (fun s => only .chains (s.addCondition pair.1 pair.2 .and)) hab
    | openBrackets n => rfl
    | closeBrackets n => exact only_closeBrackets s n
  | addFields names =>
    change only .fields (s.addFields names) = only .fields ((only .fields s).addFields names)
    unfold addFields
    cases names.read .field <;> rfl
  | addJoin raw kind =>
    change only .chains (s.addJoin raw kind) = only .chains ((only .chains s).addJoin raw kind)
    unfold addJoin
    cases Aliased.read .source raw <;> rfl
  | addOn raw binding connective => exact only_addOn raw binding connective s
  | setDistinct | setWindow | setPage | sortBy | groupBy => rfl

/-- Whether a call fails is told by what belongs to its family. -/
theorem failure?_only (s : Select) (step : Step) :
    step.failure? (only step.family s) = step.failure? s := by
  cases step with
  | common step =>
    cases step with
    -- Of all calls only a closed bracket fails by what was there before: by a focus without
    -- conditions.
    | closeBrackets n =>
      have hwheres : (only .chains s).focus.wheres = s.focus.wheres := by
        have hjoins : (only .chains s).joins = s.joins := rfl
        unfold focus
        rw [hjoins]
        cases s.joins.getLast? <;> rfl
      change (if (only .chains s).focus.wheres.isEmpty then _ else _) = _
      rw [hwheres]
      rfl
    | _ => rfl
  | _ => rfl

/-- Selects with the same of a family have the same of it after a call of that family. -/
theorem only_apply_congr (h : only step.family s = only step.family t) :
    only step.family (s.apply step) = only step.family (t.apply step) := by
  rw [only_apply s, h, ← only_apply]

/-- Selects with the same of a family agree on whether a call of that family fails. -/
theorem failure?_congr (h : only step.family s = only step.family t) :
    step.failure? s = step.failure? t := by
  rw [← failure?_only s, h, failure?_only]

/-! ### Any number of calls -/

/-- The errors of the calls that fail, in the order of the calls. -/
def failuresOf (s : Select) (steps : List Step) : List Error :=
  failuresFrom apply (fun s step => step.failure? s) s steps

/-- A first call counts if it is of the family. -/
theorem callsOf_cons (family : Family) (step : Step) (steps : List Step) :
    callsOf family (step :: steps) =
      if step.family = family then step :: callsOf family steps else callsOf family steps := by
  rw [callsOf, List.filter_cons]
  simp only [decide_eq_true_eq]
  rfl

/-- The calls of a family are of that family. -/
theorem family_of_mem_callsOf {steps : List Step} (h : step ∈ callsOf family steps) :
    step.family = family :=
  of_decide_eq_true (List.mem_filter.mp h).2

/-- What belongs to a family after calls is what belongs to it after its own calls. -/
theorem only_foldl (family : Family) (s : Select) (steps : List Step) :
    only family (steps.foldl apply s) = only family ((callsOf family steps).foldl apply s) := by
  induction steps generalizing s with
  | nil => rfl
  | cons step steps ih =>
    rw [List.foldl_cons, ih, callsOf_cons]
    split
    -- A call of the family is made on both sides; another one leaves the family as it was.
    · rfl
    · next hother =>
      refine view_foldl_congr (fun own hown a b hab => ?_) (only_apply_of_ne s hother)
      obtain rfl := family_of_mem_callsOf hown
      exact only_apply_congr hab

/-- **What a family has** in a select is what it has if only its own calls are made. -/
theorem only_build (family : Family) (steps : List Step) :
    only family (build steps) = only family (build (callsOf family steps)) :=
  only_foldl family .empty steps

/-- The errors of calls of one family are told by what belongs to it at first. -/
theorem failuresOf_congr {steps : List Step} (hsteps : ∀ step ∈ steps, step.family = family)
    (h : only family s = only family t) : failuresOf s steps = failuresOf t steps := by
  induction steps generalizing s t with
  | nil => rfl
  | cons step steps ih =>
    obtain ⟨rfl, hsteps⟩ := List.forall_mem_cons.mp hsteps
    have hrest : failuresOf (s.apply step) steps = failuresOf (t.apply step) steps :=
      ih hsteps (only_apply_congr h)
    -- The first call fails on both sides or on none, and leaves the family the same on both.
    change (step.failure? s).toList ++ failuresOf (s.apply step) steps =
      (step.failure? t).toList ++ failuresOf (t.apply step) steps
    rw [failure?_congr h, hrest]

/-- **No call fails** exactly if none fails among those of each family. -/
theorem failuresOf_eq_nil_iff (s : Select) (steps : List Step) :
    failuresOf s steps = [] ↔ ∀ family, failuresOf s (callsOf family steps) = [] := by
  induction steps generalizing s with
  | nil => exact ⟨fun _ _ => rfl, fun _ => rfl⟩
  | cons step steps ih =>
    have hcons (steps : List Step) : failuresOf s (step :: steps) = [] ↔
        (step.failure? s).toList = [] ∧ failuresOf (s.apply step) steps = [] :=
      List.append_eq_nil_iff
    -- A call of another family changes nothing that the failures of this family depend on.
    have hother {family : Family} (h : step.family ≠ family) :
        failuresOf (s.apply step) (callsOf family steps) =
          failuresOf s (callsOf family steps) :=
      failuresOf_congr (fun _ => family_of_mem_callsOf) (only_apply_of_ne s h)
    rw [hcons, ih]
    constructor
    · rintro ⟨hstep, hrest⟩ family
      rw [callsOf_cons]
      split
      · exact (hcons _).mpr ⟨hstep, hrest family⟩
      · next h => exact (hother h).symm.trans (hrest family)
    · intro h
      -- The first call and those behind it do not fail because its own family has no failure; the
      -- other families skip it.
      have hown := h step.family
      rw [callsOf_cons, if_pos rfl, hcons] at hown
      refine ⟨hown.1, fun family => ?_⟩
      by_cases hfamily : step.family = family
      · rw [← hfamily]
        exact hown.2
      · have hrest := h family
        rw [callsOf_cons, if_neg hfamily] at hrest
        exact (hother hfamily).trans hrest

/-- The select has no error exactly if none of its calls failed. -/
theorem error?_build_eq_none_iff (steps : List Step) :
    (build steps).draft.error? = none ↔ failuresOf .empty steps = [] := by
  have herror : (build steps).draft.error? = (failuresOf .empty steps).head? :=
    (Calls.select steps).error?_build
  rw [herror, List.head?_eq_none_iff]

/-- Calls that are the same in every family build the same select, if none of them fails. -/
theorem build_eq_of_callsOf_eq {steps others : List Step}
    (h : ∀ family, callsOf family others = callsOf family steps)
    (hsteps : (build steps).draft.error? = none) : build others = build steps := by
  refine eq_of_only (fun family => ?_) ?_
  · rw [only_build, h, ← only_build]
  -- Whether a call fails is told by its family, so the other order has no error either.
  · have hothers : (build others).draft.error? = none := by
      rw [error?_build_eq_none_iff, failuresOf_eq_nil_iff] at hsteps ⊢
      exact fun family => by rw [h, hsteps family]
    rw [hothers, hsteps]

/-! ### What the calls of a family bring -/

/-- The sources that a call adds; none if it fails. -/
def Step.sources : Step → List Aliased
  | .common (.addSources names) => (names.read .source).toOption.getD []
  | _ => []

/-- The fields that a call selects, those that are there already too; none if it fails. -/
def Step.fields : Step → List Aliased
  | .addFields names => (names.read .field).toOption.getD []
  | _ => []

/-- Whether a call asks for distinct rows, if it is about that. -/
def Step.distincts : Step → List Bool
  | .setDistinct distinct => [distinct]
  | _ => []

/-- How many rows a call takes and how many it skips, if it is about that. -/
def Step.windows : Step → List (Nat × Nat)
  | .setWindow count skip => [(count, skip)]
  | .setPage size number => [(size, min (size * (number - 1)) maxSkip)]
  | _ => []

/-- The field and the direction that a call sorts by, if it does. -/
def Step.sorts : Step → List (String × Direction)
  | .sortBy field direction => [(field, direction)]
  | _ => []

/-- The fields that a call groups by, if it does. -/
def Step.groups : Step → List String
  | .groupBy grouping => grouping.fields
  | _ => []

end Select

/-- How many rows a window takes and how many it skips. -/
def Window.bounds (w : Window) : Nat × Nat :=
  (w.count, w.skip)

/-- A sort is put into the list of sorts as an entry is put into an ordered map. -/
theorem setSort_eq_put (field : String) (direction : Direction)
    (sorts : List (String × Direction)) :
    setSort field direction sorts = put field direction sorts := by
  induction sorts with
  | nil => rfl
  | cons sort sorts ih =>
    obtain ⟨f, d⟩ := sort
    rw [setSort, put, ih]
    split
    · next hfield => rw [hfield]
    · rfl

/-- Fields that are added where they are missing keep the list as it would be if all were added and
the later ones of several that are the same were dropped. -/
theorem addMissing_eraseDups (xs ys : List Aliased) :
    addMissing xs.eraseDups ys = (xs ++ ys).eraseDups := by
  induction ys generalizing xs with
  | nil => rw [addMissing, List.append_nil]
  | cons y ys ih =>
    have hfirst : (if y ∈ xs.eraseDups then xs.eraseDups else xs.eraseDups ++ [y]) =
        (xs ++ [y]).eraseDups := by
      rw [eraseDups_concat]
      simp only [List.mem_eraseDups]
    rw [addMissing, hfirst, ih, List.append_assoc]
    rfl

namespace Select

/-- What holds of a part of a select and of what calls brought to it, if it holds at first and each
call preserves it, or is of another family than the part and brings nothing. -/
theorem build_induct {α β : Type} {given : Step → List α} (family : Family) (part : Select → β)
    (P : List α → β → Prop) (hpart : ∀ s, part (only family s) = part s)
    (hempty : P [] (part .empty))
    (hstep : ∀ step : Step, (step.family ≠ family ∧ given step = []) ∨
      ∀ xs s, P xs (part s) → P (xs ++ given step) (part (s.apply step))) (steps : List Step) :
    P (steps.flatMap given) (part (build steps)) := by
  -- On the last call, since what each call brings comes behind what the others brought.
  induction steps using List.reverseRecOn with
  | nil => exact hempty
  | append_singleton steps step ih =>
    rw [build, List.foldl_concat, List.flatMap_append, List.flatMap_singleton, ← build]
    rcases hstep step with ⟨hfamily, hnone⟩ | hstep
    · have hsame : part ((build steps).apply step) = part (build steps) := by
        rw [← hpart, only_apply_of_ne _ hfamily, hpart]
      rw [hnone, List.append_nil, hsame]
      exact ih
    · exact hstep _ _ ih

/-- The sources are those that the calls brought, one behind the other. -/
theorem sources_build (steps : List Step) :
    (build steps).draft.sources = steps.flatMap Step.sources := by
  refine build_induct .sources (·.draft.sources) (fun xs sources => sources = xs) (fun _ => rfl) rfl
    (fun step => ?_) steps
  cases step with
  | common step =>
    cases step with
    | addSources names =>
      refine .inr fun xs s h => ?_
      change (s.withDraft (·.addSources names)).draft.sources =
        xs ++ (names.read .source).toOption.getD []
      dsimp only [withDraft]
      unfold Draft.addSources
      rw [← h]
      cases names.read .source with
      -- A call that fails brings none.
      | error e => exact (List.append_nil _).symm
      | ok sources => rfl
    | _ => exact .inl ⟨nofun, rfl⟩
  | _ => exact .inl ⟨nofun, rfl⟩

/-- The fields are those that the calls brought, each of them once. -/
theorem fields_build (steps : List Step) :
    (build steps).fields = (steps.flatMap Step.fields).eraseDups := by
  refine build_induct .fields (·.fields) (fun xs fields => fields = xs.eraseDups) (fun _ => rfl) rfl
    (fun step => ?_) steps
  cases step with
  | addFields names =>
    refine .inr fun xs s h => ?_
    change (s.addFields names).fields =
      (xs ++ (names.read .field).toOption.getD []).eraseDups
    unfold addFields
    cases names.read .field with
    | error e => exact h.trans (congrArg List.eraseDups (List.append_nil xs).symm)
    | ok fields =>
      change addMissing s.fields fields = (xs ++ fields).eraseDups
      rw [h, addMissing_eraseDups]
  | common step => exact .inl ⟨by cases step <;> nofun, rfl⟩
  | _ => exact .inl ⟨nofun, rfl⟩

/-- Rows are distinct if the last call about it said so. -/
theorem distinct_build (steps : List Step) :
    (build steps).distinct = (steps.flatMap Step.distincts).getLast?.getD false := by
  refine build_induct .distinct (·.distinct)
    (fun xs distinct => distinct = xs.getLast?.getD false) (fun _ => rfl) rfl (fun step => ?_) steps
  cases step with
  | setDistinct distinct =>
    -- What was there before does not matter: the last call decides.
    refine .inr fun xs s _ => ?_
    rw [Step.distincts, List.getLast?_concat]
    rfl
  | common step => exact .inl ⟨by cases step <;> nofun, rfl⟩
  | _ => exact .inl ⟨nofun, rfl⟩

/-- A window that is set is the only one that counts, and none if it takes no row. -/
theorem bounds_setWindow (s : Select) (count skip : Nat) (xs : List (Nat × Nat)) :
    (s.setWindow count skip).window?.map Window.bounds =
      (xs ++ [(count, skip)]).getLast?.filter (0 < ·.1) := by
  rw [List.getLast?_concat, Option.filter_some, setWindow]
  by_cases hcount : 0 < count
  · rw [dif_pos hcount, if_pos (decide_eq_true hcount)]
    rfl
  · rw [dif_neg hcount, if_neg (by simpa using hcount)]
    rfl

/-- The window is that of the last call about it, and there is none if that takes no row. -/
theorem window_build (steps : List Step) :
    (build steps).window?.map Window.bounds =
      (steps.flatMap Step.windows).getLast?.filter (0 < ·.1) := by
  refine build_induct .window (·.window?.map Window.bounds)
    (fun xs bounds => bounds = xs.getLast?.filter (0 < ·.1)) (fun _ => rfl) rfl
    (fun step => ?_) steps
  cases step with
  | setWindow count skip => exact .inr fun xs s _ => s.bounds_setWindow count skip xs
  | setPage size number => exact .inr fun xs s _ => s.bounds_setWindow size _ xs
  | common step => exact .inl ⟨by cases step <;> nofun, rfl⟩
  | _ => exact .inl ⟨nofun, rfl⟩

/-- The sorts sum up those that the calls brought, field by field. -/
theorem sorts_build (steps : List Step) :
    Summary (steps.flatMap Step.sorts) (build steps).sorts := by
  refine build_induct .sorts (·.sorts) Summary (fun _ => rfl) .nil (fun step => ?_) steps
  cases step with
  | sortBy field direction =>
    refine .inr fun xs s h => ?_
    change Summary (xs ++ [(field, direction)]) (setSort field direction s.sorts)
    rw [setSort_eq_put]
    exact h.put field direction
  | common step => exact .inl ⟨by cases step <;> nofun, rfl⟩
  | _ => exact .inl ⟨nofun, rfl⟩

/-- The groups are those that the calls brought, one behind the other. -/
theorem groups_build (steps : List Step) :
    (build steps).groups = steps.flatMap Step.groups := by
  refine build_induct .groups (·.groups) (fun xs groups => groups = xs) (fun _ => rfl) rfl
    (fun step => ?_) steps
  cases step with
  | groupBy grouping => exact .inr fun xs s h => congrArg (· ++ grouping.fields) h
  | common step => exact .inl ⟨by cases step <;> nofun, rfl⟩
  | _ => exact .inl ⟨nofun, rfl⟩

/-! ### Main statement -/

/-- **A select is built family by family.** If no call fails, calls that are the same in every
family, however they are mixed, build the same select. And the sources and the groups are those that
the calls brought, one behind the other; the fields are those that the calls brought without the
later ones of several that are the same; rows are distinct if the last call about it said so; the
window is that of the last call about it, and there is none if that takes no row; and each field
that is sorted by stands once, in the order in which the fields came first, with the direction that
came last. -/
theorem build_of_families :
    (∀ steps others : List Step, (build steps).draft.error? = none →
      (∀ family, callsOf family others = callsOf family steps) → build others = build steps) ∧
    ∀ steps : List Step,
      (build steps).draft.sources = steps.flatMap Step.sources ∧
      (build steps).fields = (steps.flatMap Step.fields).eraseDups ∧
      (build steps).distinct = (steps.flatMap Step.distincts).getLast?.getD false ∧
      (build steps).window?.map Window.bounds =
        (steps.flatMap Step.windows).getLast?.filter (0 < ·.1) ∧
      Summary (steps.flatMap Step.sorts) (build steps).sorts ∧
      (build steps).groups = steps.flatMap Step.groups := by
  refine ⟨fun steps others hsteps h => build_eq_of_callsOf_eq h hsteps, fun steps => ?_⟩
  exact ⟨sources_build steps, fields_build steps, distinct_build steps, window_build steps,
    sorts_build steps, groups_build steps⟩

/-- Calls of all families in turn. A field and a sort are given twice, and the last window takes no
row. -/
def mixedCalls : List Step := [
  .sortBy "a" .ascending,
  .addFields (.texts ["a", "b x"]),
  .setWindow 5 2,
  .common (.addSources (.texts ["t"])),
  .common (.openBrackets 1),
  .sortBy "b" .descending,
  .common (.addCondition "a" (.value .null) .and),
  .setDistinct true,
  .addJoin "u" .left,
  .groupBy (.text "a, b"),
  .addFields (.texts ["b x", "b", "a"]),
  .setPage 0 3,
  .addOn "b" (.value .null) .or,
  .sortBy "a" .descending]

/-- The same calls, family by family. -/
def sortedCalls : List Step :=
  [Family.chains, .groups, .sorts, .window, .distinct, .fields, .sources].flatMap
    fun family => callsOf family mixedCalls

theorem build_of_families_mixed :
    (build mixedCalls).draft.error? = none ∧
      (∀ family, callsOf family sortedCalls = callsOf family mixedCalls) ∧
      build sortedCalls = build mixedCalls ∧
      (build mixedCalls).fields = [⟨"a", none⟩, ⟨"b", some "x"⟩, ⟨"b", none⟩] ∧
      (build mixedCalls).window? = none ∧
      (build mixedCalls).sorts.map Prod.fst = ["a", "b"] ∧
      ("a", .descending) ∈ (build mixedCalls).sorts := by
  have herror : (build mixedCalls).draft.error? = none := rfl
  -- The sorted calls have the calls of every family in the same order.
  have hfamilies : ∀ family, callsOf family sortedCalls = callsOf family mixedCalls := by
    intro family
    cases family <;> rfl
  obtain ⟨hsame, hbrought⟩ := build_of_families
  obtain ⟨-, hfields, -, hwindow, hsorts, -⟩ := hbrought mixedCalls
  refine ⟨herror, hfamilies, hsame mixedCalls sortedCalls herror hfamilies, hfields.trans rfl,
    Option.map_eq_none_iff.mp (hwindow.trans rfl), hsorts.keys_eq.trans rfl, ?_⟩
  exact (hsorts.mem_iff "a" .descending).mpr
    ⟨[("a", .ascending), ("b", .descending)], [], rfl, List.not_mem_nil⟩

end Select

end SqlBuilder
