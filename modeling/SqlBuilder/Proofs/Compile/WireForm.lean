import SqlBuilder.Proofs.Compile.Supply

/-!
# Booleans in the form that is sent

A dialect has a form of its own for booleans, and it should not matter whether a caller binds a
boolean or that form. `Statement.mapValues` rewrites every value that a statement holds, in the rows
of a write and in conditions at any depth, so `s.mapValues d.wire` is what the second caller writes.

Main statement: the second caller gets the same error or the same text with as many parameters, and
the same result exactly if no boolean is bound to a placeholder with wildcards
(`Statement.alike_mapValues_wire`). A pattern is made of the plain text of its value, and the plain
text of a boolean is not that of its form.

That errors and texts stay is a case of masking, since a rewriting that keeps NULL keeps the mask.
The parameters are compared supply by supply, which is possible because each supply is sent as as
many parameters as before.
-/

namespace SqlBuilder

/-! ### Rewriting the values of a statement -/

mutual

/-- A select with all its values rewritten. -/
def Select.mapValues (f : Value → Value) : Select → Select
  | ⟨⟨sources, wheres, pending, error?⟩, fields, distinct, joins, window?, sorts, groups⟩ =>
    ⟨⟨sources, mapConditions f wheres, pending, error?⟩, fields, distinct, mapJoins f joins,
      window?, sorts, groups⟩

/-- Joins with all their values rewritten. -/
def mapJoins (f : Value → Value) : List Join → List Join
  | [] => []
  | ⟨source, kind, conditions⟩ :: joins =>
    ⟨source, kind, mapConditions f conditions⟩ :: mapJoins f joins

/-- Conditions with all their values rewritten. -/
def mapConditions (f : Value → Value) : List Condition → List Condition
  | [] => []
  | ⟨comparison, binding, connective, opens, closes⟩ :: conditions =>
    ⟨comparison, mapBinding f binding, connective, opens, closes⟩ :: mapConditions f conditions

/-- A binding with all its values rewritten. -/
def mapBinding (f : Value → Value) : Binding → Binding
  | .value v => .value (f v)
  | .list values => .list (values.map f)
  | .query select => .query (select.mapValues f)

end

/-- What statements share, with all its values rewritten. -/
def Draft.mapValues (f : Value → Value) (draft : Draft) : Draft :=
  { draft with wheres := mapConditions f draft.wheres }

/-- A row with all its values rewritten. -/
def Tuple.mapValues (f : Value → Value) (t : Tuple) : Tuple where
  entries := t.entries.map fun entry => (entry.1, f entry.2)
  nodup_fields := by
    rw [List.map_map]
    exact t.nodup_fields

/-- A statement with all its values rewritten. -/
def Statement.mapValues (f : Value → Value) : Statement → Statement
  | .select s => .select (s.mapValues f)
  | .write w => .write ⟨w.draft.mapValues f, w.rows.map (Tuple.mapValues f)⟩
  | .delete r => .delete ⟨r.draft.mapValues f, r.allRows⟩

/-- A supply with its value rewritten. A window holds numbers and no value. -/
def Supply.map (f : Value → Value) : Supply → Supply
  | .value operand v => .value operand (f v)
  | .window w => .window w

/-- A rewriting that makes NULL of NULL and of nothing else. -/
def KeepsNull (f : Value → Value) : Prop :=
  ∀ v, (f v).isNull = v.isNull

namespace KeepsNull

variable {f : Value → Value}

/-- NULL stays NULL, since nothing else is one. -/
theorem map_null (hf : KeepsNull f) : f .null = .null := by
  have hnull := hf .null
  cases hv : f .null with
  | null => rfl
  | _ =>
    rw [hv] at hnull
    cases hnull

/-- A mask shows no more of a value than whether it is NULL. -/
theorem masked (hf : KeepsNull f) (v : Value) : (f v).masked = v.masked := by
  rw [Value.masked, Value.masked, hf]

end KeepsNull

section

variable {f : Value → Value}

/-! ### Errors and texts -/

section

variable (d : Dialect)

mutual

/-- A select has the same mask when its values are rewritten. -/
theorem Select.masked_mapValues (hf : KeepsNull f) :
    ∀ s : Select, (s.mapValues f).masked d = s.masked d
  | ⟨⟨_, wheres, _, _⟩, _, _, joins, _, _, _⟩ => by
    have hwheres := maskConditions_mapConditions hf wheres
    have hjoins := maskJoins_mapJoins hf joins
    simp only [Select.mapValues, Select.masked, hwheres, hjoins]

/-- So have joins. -/
theorem maskJoins_mapJoins (hf : KeepsNull f) :
    ∀ joins : List Join, maskJoins d (mapJoins f joins) = maskJoins d joins
  | [] => rfl
  | ⟨_, _, conditions⟩ :: joins => by
    have hown := maskConditions_mapConditions hf conditions
    have hjoins := maskJoins_mapJoins hf joins
    simp only [mapJoins, maskJoins, hown, hjoins]

/-- So has a chain of conditions. -/
theorem maskConditions_mapConditions (hf : KeepsNull f) : ∀ conditions : List Condition,
    maskConditions d (mapConditions f conditions) = maskConditions d conditions
  | [] => rfl
  | ⟨comparison, binding, _, _, _⟩ :: conditions => by
    have hbinding := maskBinding_mapBinding hf comparison.operand binding
    have hrest := maskConditions_mapConditions hf conditions
    simp only [mapConditions, maskConditions, hbinding, hrest]

/-- And so has what a condition is bound to: of a list only the length shows, and with a literal
operand nothing does. -/
theorem maskBinding_mapBinding (hf : KeepsNull f) (operand : Operand) : ∀ binding : Binding,
    maskBinding d operand (mapBinding f binding) = maskBinding d operand binding
  | .value v => by
    cases operand with
    | bound before after => simp only [mapBinding, maskBinding, hf.masked]
    | literal token => rfl
  | .list values => by
    cases operand with
    | bound before after => simp only [mapBinding, maskBinding, List.map_map, Function.comp_def]
    | literal token => rfl
  | .query select => by
    cases operand with
    | bound before after =>
      have hselect := select.masked_mapValues hf
      simp only [mapBinding, maskBinding, hselect]
    | literal token => rfl

end

/-- A row of a write shows its fields only. -/
theorem Tuple.masked_mapValues (t : Tuple) : (t.mapValues f).masked = t.masked := by
  simp only [masked, mapValues, List.map_map, Function.comp_def]

/-- A statement has the same mask when its values are rewritten. -/
theorem Statement.masked_mapValues (hf : KeepsNull f) (s : Statement) :
    (s.mapValues f).masked d = s.masked d := by
  cases s with
  | select s => exact congrArg select (s.masked_mapValues d hf)
  | write w =>
    have hwheres := maskConditions_mapConditions d hf w.draft.wheres
    have hrows : (w.rows.map (Tuple.mapValues f)).map Tuple.masked = w.rows.map Tuple.masked := by
      simp only [List.map_map, Function.comp_def, Tuple.masked_mapValues]
    simp only [mapValues, masked, Draft.mapValues, Draft.masked, hwheres, hrows]
  | delete r =>
    have hwheres := maskConditions_mapConditions d hf r.draft.wheres
    simp only [mapValues, masked, Draft.mapValues, Draft.masked, hwheres]

/-- A rewriting that keeps NULL keeps errors and texts. -/
theorem Statement.alike_mapValues (hf : KeepsNull f) (s : Statement) :
    Alike Sql.Alike ((s.mapValues f).compile d) (s.compile d) := by
  -- Both sides compile alike to the mask that they share.
  have hmapped := (s.mapValues f).alike_masked (d := d)
  rw [s.masked_mapValues d hf] at hmapped
  exact hmapped.trans s.alike_masked.symm fun _ _ _ hleft hright => hleft.trans hright.symm

end

/-- Where a computation succeeds, one that ends alike does. -/
theorem Alike.exists_ok {α β : Type} {R : α → β → Prop} {x : Except Error α} {y : Except Error β}
    (h : Alike R x y) {b : β} (hy : y = .ok b) : ∃ a, x = .ok a ∧ R a b := by
  rw [hy] at h
  cases x with
  | ok a => exact ⟨a, rfl, h⟩
  | error e => exact h.elim

/-- Where the texts are the same, the results are if the parameters are. -/
theorem Alike.eq_iff {x y : Except Error Sql} (h : Alike Sql.Alike x y) :
    x = y ↔ ∀ a b, x = .ok a → y = .ok b → a.params = b.params := by
  constructor
  · rintro rfl a b ha hb
    rw [ha] at hb
    rw [Except.ok.inj hb]
  · intro hparams
    -- Errors are equal where both fail, and texts are where both compile.
    cases y with
    | ok b =>
      obtain ⟨a, ha, halike⟩ := h.exists_ok rfl
      have hsame : a = b := Sql.eq_of_text_of_params halike.text_eq (hparams a b ha rfl)
      rw [ha, hsame]
    | error e =>
      cases x with
      | ok a => exact h.elim
      | error e' => exact congrArg Except.error h

/-! ### Supplies -/

mutual

/-- What a select supplies is rewritten value by value. -/
theorem Select.supplies_mapValues (hf : KeepsNull f) :
    ∀ s : Select, (s.mapValues f).supplies = s.supplies.map (Supply.map f)
  | ⟨⟨_, wheres, _, _⟩, _, _, joins, window?, _, _⟩ => by
    have hjoins := joinSupplies_mapJoins hf joins
    have hwheres := conditionSupplies_mapConditions hf wheres
    -- A window holds no value.
    have hwindow : (window?.toList.map Supply.window).map (Supply.map f) =
        window?.toList.map Supply.window := by
      rw [List.map_map]
      rfl
    simp only [Select.mapValues, Select.supplies, List.map_append, hjoins, hwheres, hwindow]

/-- What joins supply. -/
theorem joinSupplies_mapJoins (hf : KeepsNull f) :
    ∀ joins : List Join, joinSupplies (mapJoins f joins) = (joinSupplies joins).map (Supply.map f)
  | [] => rfl
  | ⟨_, _, conditions⟩ :: joins => by
    have hown := conditionSupplies_mapConditions hf conditions
    have hjoins := joinSupplies_mapJoins hf joins
    simp only [mapJoins, joinSupplies, List.map_append, hown, hjoins]

/-- What a chain supplies. -/
theorem conditionSupplies_mapConditions (hf : KeepsNull f) : ∀ conditions : List Condition,
    conditionSupplies (mapConditions f conditions) =
      (conditionSupplies conditions).map (Supply.map f)
  | [] => rfl
  | ⟨comparison, binding, _, _, _⟩ :: conditions => by
    have hbinding := bindingSupplies_mapBinding hf comparison.operand binding
    have hrest := conditionSupplies_mapConditions hf conditions
    simp only [mapConditions, conditionSupplies, List.map_append, hbinding, hrest]

/-- What a binding supplies: nothing more and nothing less, because NULL stays NULL. -/
theorem bindingSupplies_mapBinding (hf : KeepsNull f) (operand : Operand) : ∀ binding : Binding,
    bindingSupplies operand (mapBinding f binding) =
      (bindingSupplies operand binding).map (Supply.map f)
  | .value v => by
    cases operand with
    | bound before after =>
      simp only [mapBinding, bindingSupplies, hf v]
      split <;> rfl
    | literal token => rfl
  | .list values => by
    cases operand with
    | bound before after =>
      simp only [mapBinding, bindingSupplies, List.map_map]
      rfl
    | literal token => rfl
  | .query select => by
    cases operand with
    | bound before after => exact select.supplies_mapValues hf
    | literal token => rfl

end

/-- A row has the same fields when its values are rewritten. -/
theorem Tuple.fields_mapValues (t : Tuple) : (t.mapValues f).fields = t.fields := by
  rw [fields, fields, mapValues, List.map_map]
  rfl

/-- And the rewritten value of each. -/
theorem Tuple.get?_mapValues (t : Tuple) (field : String) :
    (t.mapValues f).get? field = (t.get? field).map f := by
  change (t.entries.map fun entry => (entry.1, f entry.2)).lookup field =
    (t.entries.lookup field).map f
  induction t.entries with
  | nil => rfl
  | cons entry entries ih =>
    rw [List.map_cons, List.lookup_cons, List.lookup_cons]
    split
    · rfl
    · exact ih

/-- The values of a rewritten row. For a field that the row does not have they stay NULL. -/
theorem Tuple.values_mapValues (hf : KeepsNull f) (t : Tuple) (fields : List String) :
    (t.mapValues f).values fields = (t.values fields).map f := by
  rw [values, values, List.map_map]
  refine List.map_congr_left fun field _ => ?_
  rw [get?_mapValues, Function.comp_apply]
  cases t.get? field with
  | none => exact hf.map_null.symm
  | some v => rfl

/-- What a write supplies is rewritten value by value. -/
theorem Write.supplies_mapValues (hf : KeepsNull f) (w : Write) :
    supplies ⟨w.draft.mapValues f, w.rows.map (Tuple.mapValues f)⟩ =
      w.supplies.map (Supply.map f) := by
  have hfirst : (w.rows.map (Tuple.mapValues f)).headD .empty =
      (w.rows.headD .empty).mapValues f := by
    cases w.rows <;> rfl
  have hupdate : isUpdate ⟨w.draft.mapValues f, w.rows.map (Tuple.mapValues f)⟩ = w.isUpdate := by
    rcases w with ⟨⟨_, _ | ⟨⟨⟩, _⟩, _, _⟩, _⟩ <;> rfl
  have hwheres := conditionSupplies_mapConditions hf w.draft.wheres
  rw [supplies, supplies, hfirst, hupdate]
  -- Both ways to write take their values from the rows, and an update has conditions besides.
  split
  · simp only [Tuple.mapValues, Draft.mapValues, hwheres, List.map_map, List.map_append]
    rfl
  · simp only [List.flatMap_map, List.map_flatMap, Tuple.fields_mapValues,
      Tuple.values_mapValues hf, List.map_map]
    rfl

/-- What a statement supplies is rewritten value by value, in the same places. -/
theorem Statement.supplies_mapValues (hf : KeepsNull f) (s : Statement) :
    (s.mapValues f).supplies = s.supplies.map (Supply.map f) := by
  cases s with
  | select s => exact s.supplies_mapValues hf
  | write w => exact w.supplies_mapValues hf
  | delete r => exact conditionSupplies_mapConditions hf r.draft.wheres

end

/-! ### The form of a boolean -/

/-- Lists of blocks are equal exactly if they are block by block, where the blocks are of the same
lengths. -/
theorem flatMap_eq_flatMap_iff_of_length_eq {α β : Type} {f g : α → List β}
    (hlength : ∀ x, (f x).length = (g x).length) (xs : List α) :
    xs.flatMap f = xs.flatMap g ↔ ∀ x ∈ xs, f x = g x := by
  refine ⟨fun h => ?_, List.flatMap_congr⟩
  induction xs with
  | nil => exact fun x hx => absurd hx List.not_mem_nil
  | cons x xs ih =>
    rw [List.flatMap_cons, List.flatMap_cons] at h
    obtain ⟨hfirst, hrest⟩ := List.append_inj h (hlength x)
    exact List.forall_mem_cons.mpr ⟨hfirst, ih hrest⟩

section

variable (d : Dialect)

/-- No form of a boolean is NULL. -/
theorem Dialect.keepsNull_wire : KeepsNull d.wire := by
  intro v
  cases v with
  | bool b =>
    rw [wire_bool, boolean]
    cases d.booleans <;> rfl
  | _ => rfl

/-- The plain text of a boolean is a word in small letters, and that of its form is not. -/
theorem Dialect.plain_boolean_ne (b : Bool) : (d.boolean b).plain ≠ (Value.bool b).plain := by
  unfold boolean
  cases d.booleans <;> cases b <;> decide

namespace Supply

/-- A supply is as many parameters after the rewriting as before. -/
theorem length_sent_map_wire (x : Supply) :
    (sent d (x.map d.wire)).length = (sent d x).length := by
  cases x <;> rfl

/-- A supply is sent in the same way after the rewriting unless it is a boolean for a pattern. -/
theorem sent_map_wire_eq_iff (x : Supply) :
    sent d (x.map d.wire) = sent d x ↔
      ∀ operand b, x = .value operand (.bool b) → operand.isPattern = false := by
  cases x with
  | window w => exact iff_of_true rfl fun operand b hx => by cases hx
  | value operand v =>
    change [d.wire (operand.source (d.wire v))] = [d.wire (operand.source v)] ↔ _
    rw [List.singleton_inj]
    cases hpattern : operand.isPattern with
    | false =>
      -- The value is sent as it is, and its form is the form of itself.
      have hsource (v : Value) : operand.source v = v := if_neg (Bool.eq_false_iff.mp hpattern)
      rw [hsource, hsource, Dialect.wire_wire]
      refine iff_of_true rfl fun operand' b hx => ?_
      obtain ⟨rfl, -⟩ := Supply.value.inj hx
      exact hpattern
    | true =>
      cases v with
      | bool b =>
        refine iff_of_false (fun h => ?_) fun h => ?_
        · -- The wildcards are the same, so the plain texts between them would be.
          rw [Operand.source, Operand.source, if_pos hpattern, if_pos hpattern] at h
          have htext := Value.text.inj h
          rw [String.append_left_inj, String.append_right_inj] at htext
          exact d.plain_boolean_ne b htext
        · rw [h operand b rfl] at hpattern
          cases hpattern
      | _ =>
        -- No other value has a form of its own.
        exact iff_of_true rfl fun operand' b hx => by cases hx

end Supply

/-- Of a statement that compiles, the parameters stay as they are unless a boolean becomes a
pattern. -/
theorem Statement.params_mapValues_wire_eq_iff {s : Statement} {out form : Sql}
    (hout : s.compile d = .ok out) (hform : (s.mapValues d.wire).compile d = .ok form) :
    form.params = out.params ↔
      ∀ operand b, .value operand (.bool b) ∈ s.supplies → operand.isPattern = false := by
  -- The parameters are those of the rewritten supplies, which are of the same lengths as the
  -- others.
  have hparams : form.params = s.supplies.flatMap fun x => Supply.sent d (x.map d.wire) := by
    rw [params_of_compile d hform, s.supplies_mapValues d.keepsNull_wire, List.flatMap_map]
  rw [hparams, params_of_compile d hout,
    flatMap_eq_flatMap_iff_of_length_eq (Supply.length_sent_map_wire d)]
  simp only [Supply.sent_map_wire_eq_iff]
  refine ⟨fun h operand b hmem => h _ hmem operand b rfl, ?_⟩
  rintro h x hmem operand b rfl
  exact h operand b hmem

/-- **Booleans and their form.** To bind in place of every boolean the form that the dialect sends
leads to the same error or to the same text with as many parameters; and to the same result exactly
if, of a statement that compiles, no boolean is bound to a placeholder with wildcards. -/
theorem Statement.alike_mapValues_wire (s : Statement) :
    Alike Sql.Alike ((s.mapValues d.wire).compile d) (s.compile d) ∧
      ((s.mapValues d.wire).compile d = s.compile d ↔
        ∀ out, s.compile d = .ok out →
          ∀ operand b, .value operand (.bool b) ∈ s.supplies → operand.isPattern = false) := by
  have halike : Alike Sql.Alike ((s.mapValues d.wire).compile d) (s.compile d) :=
    s.alike_mapValues d d.keepsNull_wire
  refine ⟨halike, ?_⟩
  calc (s.mapValues d.wire).compile d = s.compile d
    _ ↔ ∀ form out, (s.mapValues d.wire).compile d = .ok form → s.compile d = .ok out →
          form.params = out.params := halike.eq_iff
    _ ↔ ∀ out, s.compile d = .ok out →
          ∀ operand b, .value operand (.bool b) ∈ s.supplies → operand.isPattern = false := by
        constructor
        -- Where one of the two compiles the other does.
        · intro h out hout
          obtain ⟨form, hform, -⟩ := halike.exists_ok hout
          exact (params_mapValues_wire_eq_iff d hout hform).mp (h form out hform hout)
        · intro h form out hform hout
          exact (params_mapValues_wire_eq_iff d hout hform).mpr (h out hout)

end

/-- A boolean in a pattern is sent as `%true%`, and its form as `%1%`. -/
theorem Statement.not_mapValues_wire_eq :
    ¬ ∀ (d : Dialect) (s : Statement), (s.mapValues d.wire).compile d = s.compile d := by
  intro h
  have hpattern := h Engine.sql.dialect (select
    { draft := { sources := [⟨"t", none⟩]
                 wheres := [⟨⟨"name", "~", .bound true true⟩, .value (.bool true), .and, 0, 0⟩] } })
  have hparams := congrArg Sql.params (Except.ok.inj hpattern)
  have htext : "%1%" = "%true%" := Value.text.inj (List.singleton_inj.mp hparams)
  exact absurd htext (by decide)

end SqlBuilder
