import SqlBuilder.Proofs.Compile.InsertRows

/-!
# What is kept of a JSON document

A scalar of a document becomes a value of its own kind, and an array or an object stays what it is;
so writing the value as JSON again gives the document back. There is one exception. An integer value
has 64 bits with a sign, and an integer beyond them becomes the nearest float
(`Json.InRange` says which documents are not such an integer). Inside of an array or an object it
is kept.

Main statement, at the end: the text of a document survives exactly if the document is in range,
and what a write binds for a member of a document is the value of that member, in the row that the
object gives and in the place of the member's name (`Write.kept_of_document`).

That the text is lost beyond the range, whatever the float is, needs no arithmetic. An integer is
written with digits and a sign only, and a float never is (`Layout.exists_mark_json_write`).
-/

namespace SqlBuilder

/-! ### Integers and floats are written differently -/

/-- An integer is written with digits and, if it is negative, a sign. -/
theorem Text.isDigit_or_eq_of_mem_intText {n : Int} {c : Char} (h : c ∈ (intText n).toList) :
    c.isDigit = true ∨ c = '-' := by
  unfold intText at h
  split at h
  · rw [String.toList_append, toList_natText] at h
    rcases List.mem_append.mp h with h | h
    · exact .inr (List.mem_singleton.mp h)
    · exact .inl (isDigit_of_mem_digits h)
  · rw [toList_natText] at h
    exact .inl (isDigit_of_mem_digits h)

namespace Layout

/-- The characters that tell a float from an integer: a point, an exponent, or `null`. -/
def marks : List Char := ['.', 'e', 'n']

/-- A number that is set out has a point. -/
theorem exists_mark_setOut (x : Decimal) : ∃ c ∈ marks, c ∈ (json.setOut x).toList := by
  refine ⟨'.', by decide, ?_⟩
  unfold setOut
  -- The point stands behind a zero, at the end of a whole number, or among the digits.
  split
  · rw [String.toList_ofList]
    exact List.mem_cons_of_mem _ List.mem_cons_self
  · dsimp only
    split
    · rw [String.toList_append]
      exact List.mem_append_right _ (by decide)
    · rw [String.toList_ofList]
      exact List.mem_append_right _ List.mem_cons_self

/-- A number is set out or has an exponent. -/
theorem exists_mark_magnitude (x : Decimal) : ∃ c ∈ marks, c ∈ (json.magnitude x).toList := by
  unfold magnitude
  split
  · exact exists_mark_setOut x
  · refine ⟨'e', by decide, ?_⟩
    rw [scientific, String.toList_ofList]
    exact List.mem_append_right _ List.mem_cons_self

/-- A float is never written with digits and a sign only. -/
theorem exists_mark_json_write (x : Binary64) : ∃ c ∈ marks, c ∈ (json.write x).toList := by
  unfold write
  split
  · -- What is not finite is `null`.
    have hnull : (if x.isNaN then json.notANumber else json.infinity x.isNegative) = "null" :=
      ite_self _
    rw [hnull]
    exact ⟨'n', by decide, by decide⟩
  · dsimp only
    split
    · refine ⟨'.', by decide, ?_⟩
      rw [String.toList_append]
      exact List.mem_append_right _ (by decide)
    · next m q _ _ =>
      obtain ⟨c, hmark, hmem⟩ := exists_mark_magnitude (Decimal.shortest json.tie m q)
      refine ⟨c, hmark, ?_⟩
      rw [String.toList_append]
      exact List.mem_append_right _ hmem

end Layout

/-- No integer is written as a float is. -/
theorem Json.Number.text_integer_ne (n : Int) (x : Binary64) :
    (integer n).text ≠ (float x).text := by
  intro h
  obtain ⟨c, hmark, hmem⟩ := Layout.exists_mark_json_write x
  have hinteger : c ∈ (Text.intText n).toList := by
    change c ∈ (integer n).text.toList
    rw [h]
    exact hmem
  -- None of the marks is a digit or the sign.
  have hforeign : ∀ c ∈ Layout.marks, ¬(c.isDigit = true ∨ c = '-') :=
    List.forall_iff_forall_mem.mp ⟨by decide, by decide, by decide⟩
  exact hforeign c hmark (Text.isDigit_or_eq_of_mem_intText hinteger)

/-! ### Documents as values -/

/-- Whether the document is not an integer beyond the integer values. What is inside of an array or
an object does not matter. -/
def Json.InRange : Json → Prop
  | .number (.integer n) => Value.minInt ≤ n ∧ n ≤ Value.maxInt
  | _ => True

namespace Value

/-- A document in range is its value's document. -/
theorem toJson_ofJson {document : Json} (h : document.InRange) :
    (ofJson document).toJson = document := by
  cases document with
  | number n =>
    cases n with
    | integer n =>
      have hvalue : ofJson (.number (.integer n)) = .int n := if_pos h
      rw [hvalue]
      rfl
    | float x => rfl
  | null | bool | string | array | object => rfl

/-- The text of a document survives in its value exactly if the document is in range. -/
theorem compact_toJson_ofJson_iff (document : Json) :
    (ofJson document).toJson.compact = document.compact ↔ document.InRange := by
  refine ⟨fun htext => ?_, fun h => by rw [toJson_ofJson h]⟩
  cases document with
  | number n =>
    cases n with
    | integer n =>
      -- An integer beyond the range becomes a float, and then the texts differ.
      by_contra hrange
      have hvalue : ofJson (.number (.integer n)) = .float (.ofInt n) := if_neg hrange
      rw [hvalue] at htext
      exact Json.Number.text_integer_ne n (.ofInt n) htext.symm
    | float x => trivial
  | null | bool | string | array | object => trivial

/-- The least integer that is too great comes back as a float; inside of an array it is kept. -/
theorem not_compact_toJson_ofJson_eq :
    let document := Json.number (.integer 9223372036854775808)
    document.compact = "9223372036854775808" ∧
    (ofJson document).toJson.compact = "9.223372036854776e+18" ∧
    (ofJson document).toJson.compact ≠ document.compact ∧
    (ofJson (.array [document])).toJson.compact = "[9223372036854775808]" := by
  refine ⟨by rfl, by rfl, by decide, by rfl⟩

end Value

/-! ### The rows of a document -/

/-- A new name is added at the end. -/
theorem setField_of_notMem {k : String} {es : List (String × Value)} (h : k ∉ es.map Prod.fst)
    (v : Value) : setField k v es = es ++ [(k, v)] := by
  induction es with
  | nil => rfl
  | cons e es ih =>
    rw [List.map_cons, List.mem_cons, not_or] at h
    obtain ⟨hne, hrest⟩ := h
    rw [setField, if_neg (Ne.symm hne), ih hrest]
    rfl

namespace Tuple

/-- Pairs with new names, no two of them the same, are added as they are. -/
theorem entries_foldl_insert {pairs : List (String × Value)} {t : Tuple}
    (hnodup : (pairs.map Prod.fst).Nodup) (hnew : ∀ pair ∈ pairs, pair.1 ∉ t.fields) :
    (pairs.foldl (fun t (k, v) => t.insert k v) t).entries = t.entries ++ pairs := by
  induction pairs generalizing t with
  | nil => exact (List.append_nil _).symm
  | cons pair pairs ih =>
    obtain ⟨hpair, hpairs⟩ := List.forall_mem_cons.mp hnew
    rw [List.map_cons, List.nodup_cons] at hnodup
    obtain ⟨hother, hnodup⟩ := hnodup
    have hinsert : (t.insert pair.1 pair.2).entries = t.entries ++ [pair] :=
      setField_of_notMem hpair pair.2
    -- The first pair does not take a name from those behind it.
    have hnew' : ∀ p ∈ pairs, p.1 ∉ (t.insert pair.1 pair.2).fields := by
      intro p hp hmem
      rw [fields_insert, if_neg hpair] at hmem
      rcases List.mem_append.mp hmem with hmem | hmem
      · exact hpairs p hp hmem
      · exact hother (List.mem_singleton.mp hmem ▸ List.mem_map_of_mem hp)
    rw [List.foldl_cons, ih hnodup hnew', hinsert, List.append_assoc]
    rfl

/-- Pairs with different names are the entries of their row. -/
theorem entries_ofList {pairs : List (String × Value)} (h : (pairs.map Prod.fst).Nodup) :
    (ofList pairs).entries = pairs :=
  entries_foldl_insert h fun _ _ => List.not_mem_nil

/-- The row of an object has the values of its members. -/
theorem get?_of_ofJson {members : List (String × Json)} {t : Tuple}
    (h : ofJson (.object members) = .ok t) (hnodup : (members.map Prod.fst).Nodup)
    {name : String} {member : Json} (hmem : (name, member) ∈ members) :
    t.get? name = some (.ofJson member) := by
  obtain rfl := Except.ok.inj h
  rw [get?_eq_some_iff, entries_ofList]
  · exact List.mem_map_of_mem hmem
  · -- The pairs have the names of the members.
    rw [List.map_map]
    exact hnodup

/-- Only an object is a row. -/
theorem exists_members_of_ofJson {document : Json} {t : Tuple} (h : ofJson document = .ok t) :
    ∃ members, document = .object members := by
  cases document with
  | object members => exact ⟨members, rfl⟩
  | null | bool | number | string | array => cases h

end Tuple

/-- The documents that a write takes one by one: the items of an array, or the document itself. -/
def Json.items : Json → List Json
  | .array items => items
  | document => [document]

/-- If items are read as rows, each row is that of its item. -/
theorem Tuple.forall₂_of_ofItems {items : List Json} {rows : List Tuple}
    (h : ofItems items = .ok rows) :
    List.Forall₂ (fun item row => ofJson item = .ok row) items rows := by
  induction items generalizing rows with
  | nil =>
    obtain rfl := Except.ok.inj h
    exact .nil
  | cons item items ih =>
    obtain ⟨row, hrow, h⟩ := exists_of_bind_eq_ok h
    obtain ⟨rest, hrest, h⟩ := exists_of_bind_eq_ok h
    obtain rfl := Except.ok.inj h
    exact .cons hrow (ih hrest)

/-- A document gives one row for each of its items. -/
theorem Tuple.forall₂_of_allOfJson {document : Json} {rows : List Tuple}
    (h : allOfJson document = .ok rows) :
    List.Forall₂ (fun item row => ofJson item = .ok row) document.items rows := by
  -- What is no array is its own only item.
  have hone (hread : (ofJson document).map (fun t => [t]) = .ok rows) :
      List.Forall₂ (fun item row => ofJson item = .ok row) [document] rows := by
    cases hrow : ofJson document with
    | error e =>
      rw [hrow] at hread
      cases hread
    | ok row =>
      rw [hrow] at hread
      obtain rfl := Except.ok.inj hread
      exact .cons hrow .nil
  cases document with
  | array items => exact forall₂_of_ofItems h
  | null | bool | number | string | object => exact hone h

namespace Write

/-- Rows are added at the end, whether the check of their fields fails or not. -/
theorem rows_addRows (w : Write) (rows : List Tuple) :
    (w.addRows rows).rows = w.rows ++ rows := by
  unfold addRows checkRows
  split <;> rfl

/-- Unless a document is refused, its rows come behind the ones that are there. -/
theorem exists_rows_of_addDocument {w : Write} {document : Json}
    (h : (w.addDocument document).draft.error? = none) :
    ∃ rows, Tuple.allOfJson document = .ok rows ∧
      (w.addDocument document).rows = w.rows ++ rows := by
  have herror : w.draft.error?.or ((Step.addDocument document).failure? w) = none := by
    rw [← error?_apply]
    exact h
  cases hread : Tuple.allOfJson document with
  | error e =>
    have hfailure := (Option.or_eq_none_iff.mp herror).2
    rw [Step.failure?, hread] at hfailure
    cases hfailure
  | ok rows =>
    refine ⟨rows, rfl, ?_⟩
    rw [addDocument, hread]
    exact w.rows_addRows rows

end Write

/-! ### Where a row is bound -/

/-- The values of a row in the order of its own fields. -/
theorem Tuple.values_fields (t : Tuple) : t.values t.fields = t.entries.map Prod.snd := by
  rw [values, fields, List.map_map]
  refine List.map_congr_left fun entry hentry => ?_
  have hvalue : t.get? entry.1 = some entry.2 := get?_eq_some_iff.mpr hentry
  rw [Function.comp_apply, hvalue, Option.getD_some]

namespace Write

variable {d : Dialect} {w : Write} {out : Sql}

/-- What a write that compiles binds first: its rows in the order of the first one's fields. Behind
them come the values of the conditions of an update, which has one row. -/
theorem exists_params_of_compile (h : w.compile d = .ok out) :
    ∃ first rest behind, w.rows = first :: rest ∧
      (∀ row ∈ w.rows, ∀ field, field ∈ row.fields ↔ field ∈ first.fields) ∧
      out.params =
        (w.rows.flatMap fun row => (row.values first.fields).map d.wire) ++ behind := by
  obtain ⟨first, rest, hacceptable⟩ := acceptable_of_compile h
  have hrows := hacceptable.rows
  have hsent (values : List Value) :
      (values.map (Supply.value .plain)).flatMap (Supply.sent d) = values.map d.wire := by
    rw [List.flatMap_map]
    exact List.map_eq_flatMap.symm
  have hparams := params_of_compile d h
  rw [supplies, hrows, List.headD_cons] at hparams
  -- An update assigns the fields of its one row in their order; an insert sends all rows in that of
  -- the first.
  by_cases hupdate : w.isUpdate = true
  · obtain rfl := (hacceptable.update (not_isEmpty_iff.mp hupdate)).1
    have hvalues : first.entries.map (fun entry => Supply.value .plain entry.2) =
        (first.values first.fields).map (.value .plain) := by
      rw [Tuple.values_fields, List.map_map]
      rfl
    rw [if_pos hupdate, List.flatMap_append, hvalues, hsent] at hparams
    refine ⟨first, [], (conditionSupplies w.draft.wheres).flatMap (Supply.sent d), hrows, ?_, ?_⟩
    · rw [hrows, List.forall_mem_singleton]
      exact fun _ => Iff.rfl
    · rw [hparams, hrows, List.flatMap_singleton]
  · obtain ⟨-, hfields⟩ := hacceptable.insert (wheres_eq_nil hupdate)
    rw [if_neg hupdate, ← hrows, List.flatMap_assoc] at hparams
    refine ⟨first, rest, [], hrows, ?_, ?_⟩
    · rw [hrows, List.forall_mem_cons]
      exact ⟨fun _ => Iff.rfl, hfields⟩
    · rw [hparams, List.append_nil]
      exact List.flatMap_congr fun row _ => hsent _

/-- A value that a row has for a field is bound in the place of the row and the field. -/
theorem exists_place_of_compile (h : w.compile d = .ok out) :
    ∃ first rest, w.rows = first :: rest ∧
      ∀ (i : Nat) (row : Tuple) (field : String) (v : Value),
        w.rows[i]? = some row → row.get? field = some v →
        ∃ j : Nat, first.fields[j]? = some field ∧
          out.params[i * first.size + j]? = some (d.wire v) := by
  obtain ⟨first, rest, behind, hrows, hfields, hparams⟩ := exists_params_of_compile h
  refine ⟨first, rest, hrows, fun i row field v hrow hv => ?_⟩
  have hmem : field ∈ row.fields := Tuple.isSome_get?.mp (Option.isSome_iff_exists.mpr ⟨v, hv⟩)
  -- The field is one of the first row's, since all rows have the same fields.
  obtain ⟨j, hj⟩ := List.mem_iff_getElem?.mp
    ((hfields row (List.mem_of_getElem? hrow) field).mp hmem)
  have hplace := getElem?_rowParams d hrow hj hv
  have hlt := (List.getElem?_eq_some_iff.mp hplace).1
  refine ⟨j, hj, ?_⟩
  rw [hparams, List.getElem?_append_left hlt, hplace]

/-- **What is bound of a document.** The text of a document survives in its value exactly if the
document is in range. And a write that was given a document and compiles has a row for each object
in it, behind the rows that were there; each member of the object, whose names are different, is the
row's value for the name, and is bound in the place of the row and the name. -/
theorem kept_of_document (d : Dialect) :
    (∀ document : Json,
      (Value.ofJson document).toJson.compact = document.compact ↔ document.InRange) ∧
    ∀ (w : Write) (document : Json) (out : Sql), (w.addDocument document).compile d = .ok out →
      ∃ first rest, (w.addDocument document).rows = first :: rest ∧
        ∀ (i : Nat) (item : Json), document.items[i]? = some item →
          ∃ members row, item = .object members ∧
            (w.addDocument document).rows[w.rows.length + i]? = some row ∧
            ((members.map Prod.fst).Nodup → ∀ name member, (name, member) ∈ members →
              row.get? name = some (.ofJson member) ∧
              ∃ j : Nat, first.fields[j]? = some name ∧
                out.params[(w.rows.length + i) * first.size + j]? =
                  some (d.wire (.ofJson member))) := by
  refine ⟨Value.compact_toJson_ofJson_iff, fun w document out h => ?_⟩
  obtain ⟨_, _, hacceptable⟩ := acceptable_of_compile h
  obtain ⟨rows, hread, hrows⟩ := exists_rows_of_addDocument hacceptable.error
  obtain ⟨first, rest, hfirst, hplace⟩ := exists_place_of_compile h
  refine ⟨first, rest, hfirst, fun i item hitem => ?_⟩
  -- The rows are those of the items, one by one.
  obtain ⟨row, hrow, hitemRow⟩ : ∃ row, rows[i]? = some row ∧ Tuple.ofJson item = .ok row := by
    have hforall := Tuple.forall₂_of_allOfJson hread
    obtain ⟨hi, rfl⟩ := List.getElem?_eq_some_iff.mp hitem
    have hi' : i < rows.length := hforall.length_eq ▸ hi
    exact ⟨rows[i], List.getElem?_eq_getElem hi', hforall.get hi hi'⟩
  obtain ⟨members, rfl⟩ := Tuple.exists_members_of_ofJson hitemRow
  have hbehind : (w.addDocument document).rows[w.rows.length + i]? = some row := by
    rw [hrows, List.getElem?_append_right (Nat.le_add_right ..), Nat.add_sub_cancel_left, hrow]
  refine ⟨members, row, rfl, hbehind, fun hnodup name member hmem => ?_⟩
  have hvalue := Tuple.get?_of_ofJson hitemRow hnodup hmem
  exact ⟨hvalue, hplace _ row name _ hbehind hvalue⟩

/-- The greatest integer that is in range is bound as itself. -/
theorem kept_of_document_greatest :
    let document := Json.object [("id", .number (.integer 9223372036854775807))]
    let w : Write := { draft := { sources := [⟨"t", none⟩] } }
    ∃ out, (w.addDocument document).compile Engine.sql.dialect = .ok out ∧
      .int 9223372036854775807 ∈ out.params := by
  intro document w
  obtain ⟨out, hout⟩ :
      ∃ out, (w.addDocument document).compile Engine.sql.dialect = .ok out := ⟨_, rfl⟩
  obtain ⟨-, hbound⟩ := kept_of_document Engine.sql.dialect
  obtain ⟨_, _, -, hitems⟩ := hbound w document out hout
  obtain ⟨members, _, hitem, -, hmembers⟩ := hitems 0 document rfl
  obtain rfl := Json.object.inj hitem
  obtain ⟨-, _, -, hparam⟩ := hmembers (by decide) "id" _ List.mem_cons_self
  exact ⟨out, hout, List.mem_of_getElem? hparam⟩

end Write

end SqlBuilder
