import Mathlib.Data.List.Induction
import Mathlib.Data.List.Nodup
import SqlBuilder.Proofs.Compile.Document

/-!
# Maps in the order of first insertion

The fields of a row and the sorts of a select are maps of one kind: a name that is given again keeps
its place and has its new value, and a new name goes to the end. So what is in such a map can be
told from the pairs that it was given, without running the insertions: the keys stand in the order
in which they came first, and each has the value that it was given last (`Summary`).

Main statement, at the end: this holds of every row, whichever way it was filled
(`Tuple.FilledWith`); and having the same fields is an equivalence of rows, which holds exactly if
the names are the same (`Tuple.summary_of_filledWith`). Comparing two rows looks at their sizes and
at one direction only. That this is enough is due to the names of a row being different, which every
way of filling it preserves.
-/

namespace SqlBuilder

/-! ### Lists without their repetitions -/

section

variable {α : Type} [DecidableEq α]

/-- An element at the end is kept if it is new. -/
theorem eraseDups_concat (xs : List α) (x : α) :
    (xs ++ [x]).eraseDups = if x ∈ xs then xs.eraseDups else xs.eraseDups ++ [x] := by
  rw [List.eraseDups_append]
  by_cases hx : x ∈ xs
  · have hnone : [x].removeAll xs = [] := by simp [List.removeAll, hx]
    rw [hnone, if_pos hx]
    exact List.append_nil _
  · have hkept : [x].removeAll xs = [x] := by simp [List.removeAll, hx]
    rw [hkept, if_neg hx]
    rfl

/-- Without its repetitions a list has none. -/
theorem nodup_eraseDups (xs : List α) : xs.eraseDups.Nodup := by
  induction xs using List.reverseRecOn with
  | nil => exact List.nodup_nil
  | append_singleton xs x ih =>
    rw [eraseDups_concat]
    split
    · exact ih
    · next hx =>
      have hnew : x ∉ xs.eraseDups := mt List.mem_eraseDups.mp hx
      exact ih.append (List.nodup_singleton x) (List.disjoint_singleton.mpr hnew)

end

/-! ### The entries that pairs leave behind -/

section

variable {κ ν : Type} [DecidableEq κ]

/-- The pair of `k` and `v` is there, and no pair behind it has the key `k`. -/
def IsLatest (pairs : List (κ × ν)) (k : κ) (v : ν) : Prop :=
  ∃ before after, pairs = before ++ (k, v) :: after ∧ k ∉ after.map Prod.fst

/-- Each key once, in the order in which the keys came first and with the value that came last. -/
structure Summary (pairs entries : List (κ × ν)) : Prop where
  keys_eq : entries.map Prod.fst = (pairs.map Prod.fst).eraseDups
  mem_iff : ∀ k v, (k, v) ∈ entries ↔ IsLatest pairs k v

/-- Give the key `k` the value `v`: in its place if the key is there, else at the end. -/
def put (k : κ) (v : ν) : List (κ × ν) → List (κ × ν)
  | [] => [(k, v)]
  | (k', v') :: es => if k' = k then (k, v) :: es else (k', v') :: put k v es

/-- Give every pair, from left to right. -/
def putAll (entries pairs : List (κ × ν)) : List (κ × ν) :=
  pairs.foldl (fun es pair => put pair.1 pair.2 es) entries

variable {pairs entries : List (κ × ν)} {k k' : κ} {v v' : ν}

/-- Of one more pair the value is the latest of its key. The other keys have the ones that they
had. -/
theorem isLatest_concat :
    IsLatest (pairs ++ [(k, v)]) k' v' ↔ if k = k' then v = v' else IsLatest pairs k' v' := by
  -- The last pair is the one with nothing behind it. What is behind any other ends with it.
  constructor
  · rintro ⟨before, after, hpairs, hafter⟩
    rcases List.eq_nil_or_concat' after with rfl | ⟨after, last, rfl⟩
    · -- Nothing comes behind, so the last pair is the one.
      obtain ⟨-, hlast⟩ := List.append_inj' hpairs rfl
      obtain ⟨rfl, rfl⟩ := Prod.mk.inj (List.singleton_inj.mp hlast)
      rw [if_pos rfl]
    · rw [← List.cons_append, ← List.append_assoc] at hpairs
      obtain ⟨hfront, hlast⟩ := List.append_inj' hpairs rfl
      obtain rfl := List.singleton_inj.mp hlast
      rw [List.map_append, List.mem_append, not_or] at hafter
      have hk : k ≠ k' := fun h => hafter.2 (h ▸ List.mem_singleton_self _)
      rw [if_neg hk]
      exact ⟨before, after, hfront, hafter.1⟩
  · intro h
    split at h
    · next hk => exact ⟨pairs, [], by rw [hk, h], List.not_mem_nil⟩
    · next hk =>
      obtain ⟨before, after, hpairs, hafter⟩ := h
      refine ⟨before, after ++ [(k, v)], by rw [hpairs, List.append_assoc]; rfl, ?_⟩
      rw [List.map_append, List.mem_append, not_or]
      exact ⟨hafter, fun hmem => hk (List.mem_singleton.mp hmem).symm⟩

/-- A key that is there keeps its place, and a new one goes to the end. -/
theorem map_fst_put (k : κ) (v : ν) (es : List (κ × ν)) :
    (put k v es).map Prod.fst =
      if k ∈ es.map Prod.fst then es.map Prod.fst else es.map Prod.fst ++ [k] := by
  induction es with
  | nil => rfl
  | cons e es ih =>
    obtain ⟨k', v'⟩ := e
    rw [put]
    -- The search ends at the key, or it goes on behind an entry of another one.
    by_cases hk : k' = k
    · have hmem : k ∈ ((k', v') :: es).map Prod.fst := by rw [hk]; exact List.mem_cons_self
      rw [if_pos hk, if_pos hmem, hk]
      rfl
    · have hmem : k ∈ ((k', v') :: es).map Prod.fst ↔ k ∈ es.map Prod.fst :=
        List.mem_cons.trans (or_iff_right (Ne.symm hk))
      rw [if_neg hk, List.map_cons, ih]
      simp only [hmem]
      split <;> rfl

/-- What is in a map with different keys after a key was given a value. -/
theorem mem_put {es : List (κ × ν)} (hnodup : (es.map Prod.fst).Nodup) :
    (k', v') ∈ put k v es ↔ if k = k' then v = v' else (k', v') ∈ es := by
  induction es with
  | nil =>
    rw [put, List.mem_singleton, Prod.mk.injEq]
    split
    · next hk => exact ⟨fun h => h.2.symm, fun h => ⟨hk.symm, h.symm⟩⟩
    · next hk => exact ⟨fun h => absurd h.1.symm hk, fun h => absurd h List.not_mem_nil⟩
  | cons e es ih =>
    obtain ⟨k₀, v₀⟩ := e
    rw [List.map_cons, List.nodup_cons] at hnodup
    obtain ⟨hk₀, hnodup⟩ := hnodup
    rw [put]
    -- Where the key is found, that the keys differ is needed: there is no second entry to replace.
    by_cases hk : k₀ = k
    · subst hk
      rw [if_pos rfl, List.mem_cons, List.mem_cons, Prod.mk.injEq, Prod.mk.injEq]
      split
      · next hk' =>
        -- The key stands in front, so it is not among the others.
        subst hk'
        have hother : (k₀, v') ∉ es := fun hmem => hk₀ (List.mem_map.mpr ⟨_, hmem, rfl⟩)
        exact ⟨fun h => (h.resolve_right hother).2.symm, fun h => .inl ⟨rfl, h.symm⟩⟩
      · next hk' =>
        exact ⟨fun h => .inr (h.resolve_left fun hkey => hk' hkey.1.symm),
          fun h => .inr (h.resolve_left fun hkey => hk' hkey.1.symm)⟩
    · rw [if_neg hk, List.mem_cons, ih hnodup, List.mem_cons, Prod.mk.injEq]
      split
      · next hk' => exact or_iff_right fun h => hk (h.1.symm.trans hk'.symm)
      · exact Iff.rfl

namespace Summary

theorem nil : Summary ([] : List (κ × ν)) [] := by
  refine ⟨rfl, fun k v => iff_of_false List.not_mem_nil ?_⟩
  rintro ⟨before, after, hpairs, -⟩
  exact absurd hpairs (List.append_ne_nil_of_right_ne_nil _ (List.cons_ne_nil _ _)).symm

theorem nodup (h : Summary pairs entries) : (entries.map Prod.fst).Nodup := by
  rw [h.keys_eq]
  exact nodup_eraseDups _

/-- Every key of the pairs is there, and no other. -/
theorem mem_keys_iff (h : Summary pairs entries) :
    k ∈ entries.map Prod.fst ↔ k ∈ pairs.map Prod.fst := by
  rw [h.keys_eq, List.mem_eraseDups]

/-- **A step**: one pair more. -/
theorem put (h : Summary pairs entries) (k : κ) (v : ν) :
    Summary (pairs ++ [(k, v)]) (put k v entries) := by
  refine ⟨?_, fun k' v' => ?_⟩
  · rw [map_fst_put, List.map_append, List.map_singleton, eraseDups_concat, ← h.keys_eq]
    simp only [h.mem_keys_iff]
  · rw [mem_put h.nodup, isLatest_concat]
    simp only [h.mem_iff]

/-- **A run**: any number of pairs more. -/
theorem putAll (h : Summary pairs entries) (more : List (κ × ν)) :
    Summary (pairs ++ more) (putAll entries more) := by
  induction more generalizing pairs entries with
  | nil =>
    rw [List.append_nil]
    exact h
  | cons pair more ih =>
    have hrest := ih (h.put pair.1 pair.2)
    rw [List.append_assoc] at hrest
    exact hrest

/-- The entries that pairs leave behind when they are given one after the other. -/
theorem of_putAll (pairs : List (κ × ν)) : Summary pairs (SqlBuilder.putAll [] pairs) :=
  nil.putAll pairs

end Summary

end

/-! ### Rows -/

/-- Setting a field of a row is giving its key a value. -/
theorem setField_eq_put (k : String) (v : Value) (es : List (String × Value)) :
    setField k v es = put k v es := by
  induction es with
  | nil => rfl
  | cons e es ih => rw [setField, put, ih]

namespace Tuple

/-- The row was filled with the pairs, in this order: it was made without fields, of pairs or of a
JSON object, and given more fields one by one. -/
inductive FilledWith : List (String × Value) → Tuple → Prop where
  | empty : FilledWith [] empty
  | ofList (pairs : List (String × Value)) : FilledWith pairs (ofList pairs)
  | ofJson {members : List (String × Json)} {t : Tuple} (h : ofJson (.object members) = .ok t) :
    FilledWith (members.map fun (k, d) => (k, .ofJson d)) t
  | insert {pairs : List (String × Value)} {t : Tuple} (h : FilledWith pairs t) (field : String)
    (v : Value) : FilledWith (pairs ++ [(field, v)]) (t.insert field v)

variable {pairs : List (String × Value)} {t : Tuple}

/-- A row of pairs has the entries that they leave behind. -/
theorem entries_ofList_eq_putAll (pairs : List (String × Value)) :
    (ofList pairs).entries = putAll [] pairs := by
  refine (List.foldl_hom entries fun t pair => ?_).symm
  exact (setField_eq_put pair.1 pair.2 t.entries).symm

/-- A row tells what it was filled with, but for values that were replaced. -/
theorem FilledWith.summary (h : FilledWith pairs t) : Summary pairs t.entries := by
  induction h with
  | empty => exact .nil
  | ofList pairs =>
    rw [entries_ofList_eq_putAll]
    exact .of_putAll pairs
  | ofJson h =>
    obtain rfl := Except.ok.inj h
    rw [entries_ofList_eq_putAll]
    exact .of_putAll _
  | @insert pairs t _ field v ih =>
    have hentries : (t.insert field v).entries = put field v t.entries := setField_eq_put ..
    rw [hentries]
    exact ih.put field v

/-- There is no row that was not filled. -/
theorem filledWith_entries (t : Tuple) : FilledWith t.entries t := by
  have hsame : ofList t.entries = t := by
    have hentries : (ofList t.entries).entries = t.entries := entries_ofList t.nodup_fields
    cases t
    cases h : ofList _
    rw [h] at hentries
    cases hentries
    rfl
  have hfilled := FilledWith.ofList t.entries
  rwa [hsame] at hfilled

/-- **A row is a map in the order of first insertion**, whichever way it was filled: its names are
different and stand in the order in which they came first; each has the value that it was given
last, and what was never given is not there. Two rows have the same fields exactly if they have the
same names, so this is an equivalence of rows; and every row was filled in some way. -/
theorem summary_of_filledWith :
    (∀ (pairs : List (String × Value)) (t : Tuple), FilledWith pairs t →
      t.fields.Nodup ∧ t.fields = (pairs.map Prod.fst).eraseDups ∧
      (∀ field v, t.get? field = some v ↔ IsLatest pairs field v) ∧
      ∀ field, t.get? field = none ↔ field ∉ pairs.map Prod.fst) ∧
    (∀ t : Tuple, ∃ pairs, FilledWith pairs t) ∧
    (∀ t u : Tuple, t.sameFields u = true ↔ ∀ field, field ∈ t.fields ↔ field ∈ u.fields) ∧
    Equivalence fun t u : Tuple => t.sameFields u = true := by
  refine ⟨fun pairs t h => ⟨t.nodup_fields, h.summary.keys_eq, fun field v => ?_, fun field => ?_⟩,
    fun t => ⟨t.entries, t.filledWith_entries⟩, fun t u => sameFields_iff, ?_⟩
  · rw [get?_eq_some_iff, h.summary.mem_iff]
  · rw [← h.summary.mem_keys_iff, ← Option.not_isSome_iff_eq_none, isSome_get?]
    rfl
  -- Having the same names is an equivalence, and by the part before it is having the same fields.
  · refine ⟨fun t => ?_, fun h => ?_, fun h₁ h₂ => ?_⟩
    · exact sameFields_iff.mpr fun _ => Iff.rfl
    · rw [sameFields_iff] at h ⊢
      exact fun field => (h field).symm
    · rw [sameFields_iff] at h₁ h₂ ⊢
      exact fun field => (h₁ field).trans (h₂ field)

/-- Two names, of which the first is given a second time. -/
theorem summary_of_filledWith_twice :
    let t : Tuple := (ofList [("b", .int 1), ("a", .null)]).insert "b" (.int 2)
    FilledWith [("b", .int 1), ("a", .null), ("b", .int 2)] t ∧
      t.fields = ["b", "a"] ∧ t.get? "b" = some (.int 2) ∧ t.get? "c" = none := by
  intro t
  have hfilled : FilledWith [("b", .int 1), ("a", .null), ("b", .int 2)] t :=
    (FilledWith.ofList [("b", .int 1), ("a", .null)]).insert "b" (.int 2)
  obtain ⟨-, hfields, hvalue, hnone⟩ := summary_of_filledWith.1 _ t hfilled
  refine ⟨hfilled, hfields.trans (by decide), (hvalue _ _).mpr ?_, (hnone _).mpr (by decide)⟩
  exact ⟨[("b", .int 1), ("a", .null)], [], rfl, List.not_mem_nil⟩

end Tuple

end SqlBuilder
