import Mathlib.Data.List.Forall2
import SqlBuilder.Proofs.Compile.Supply

/-!
# The rows of an INSERT

The statement names the fields once, in the order of its first row, and every row gives its values
in that order. So a value has a place by its row and its field, and the placeholders have places
from left to right; that the two agree is what keeps the values of a row that lists its fields in
another order out of the wrong columns.

Main statement, at the end: an INSERT has as many groups of placeholders as rows, each as wide as
the first row, and the parameter of row `i` at field `j` is the value that the row has for the
field; and the order of the entries in a row behind the first is not to be seen in the result
(`Write.insert_of_compile`).

Two facts carry it. The names in a row are different by construction, so reading a field by name is
finding its entry (`Tuple.get?_eq_some_iff`), and order does not matter to that. And a row that is
accepted has the fields of the first one (`Write.Acceptable`), so there is a value to find, and the
NULL that stands for a missing one is never sent.
-/

namespace SqlBuilder

/-! ### Reading a row by name -/

namespace Tuple

variable {t u : Tuple}

/-- As many values as fields are asked for. -/
theorem length_values (t : Tuple) (fields : List String) :
    (t.values fields).length = fields.length :=
  List.length_map _

/-- The same entries, in any order. -/
def SameEntries (t u : Tuple) : Prop :=
  t.entries.Perm u.entries

/-- The value of a field is the one of its entry. -/
theorem get?_eq_some_iff {field : String} {v : Value} :
    t.get? field = some v ↔ (field, v) ∈ t.entries := by
  rw [get?, List.lookup_eq_some_iff]
  constructor
  · rintro ⟨before, after, hentries, -⟩
    rw [hentries]
    exact List.mem_append_right before List.mem_cons_self
  · intro hmem
    obtain ⟨before, after, hentries⟩ := List.append_of_mem hmem
    refine ⟨before, after, hentries, fun entry hentry => bne_iff_ne.mpr fun hname => ?_⟩
    -- An entry in front with this name would be the field a second time.
    have hnodup := t.nodup_fields
    rw [hentries, List.map_append, List.nodup_append] at hnodup
    have hfront : entry.1 ∈ before.map Prod.fst := List.mem_map_of_mem hentry
    exact hnodup.2.2 entry.1 hfront field List.mem_cons_self hname.symm

namespace SameEntries

/-- Rows with the same entries have the same value for each field. -/
theorem get?_eq (h : t.SameEntries u) (field : String) : t.get? field = u.get? field := by
  ext v
  rw [get?_eq_some_iff, get?_eq_some_iff, h.mem_iff]

/-- So they have the same values for any list of fields. -/
theorem values_eq (h : t.SameEntries u) (fields : List String) :
    t.values fields = u.values fields :=
  List.map_congr_left fun field _ => by rw [h.get?_eq field]

/-- And they are checked against a first row with the same outcome. -/
theorem sameFields_eq (h : t.SameEntries u) (first : Tuple) :
    t.sameFields first = u.sameFields first := by
  have hfields : t.fields.Perm u.fields := h.map Prod.fst
  rw [Bool.eq_iff_iff, sameFields_iff, sameFields_iff]
  exact forall_congr' fun field => by rw [hfields.mem_iff]

end SameEntries

end Tuple

/-! ### Blocks of one length -/

/-- In a list of blocks of one length, the place of an element is told by its block and its place
in the block. -/
theorem getElem?_flatMap_of_length {α β : Type} {f : α → List β} {k : Nat} {xs : List α}
    (hk : ∀ x ∈ xs, (f x).length = k) (i : Nat) {j : Nat} (hj : j < k) :
    (xs.flatMap f)[i * k + j]? = xs[i]?.bind fun x => (f x)[j]? := by
  induction xs generalizing i with
  | nil => rfl
  | cons x xs ih =>
    obtain ⟨hx, hxs⟩ := List.forall_mem_cons.mp hk
    rw [List.flatMap_cons]
    -- The element is in the first block, or as many places behind it as the block is long.
    cases i with
    | zero =>
      have hfront : 0 * k + j < (f x).length := by omega
      rw [List.getElem?_append_left hfront, Nat.zero_mul, Nat.zero_add]
      rfl
    | succ i =>
      have hbehind : (i + 1) * k + j = (f x).length + (i * k + j) := by
        rw [hx, Nat.succ_mul]
        omega
      rw [hbehind, List.getElem?_append_right (Nat.le_add_right ..), Nat.add_sub_cancel_left,
        ih hxs]
      rfl

/-- Blocks of one length are that much longer than there are of them. -/
theorem length_flatMap_of_length {α β : Type} {f : α → List β} {k : Nat} {xs : List α}
    (hk : ∀ x ∈ xs, (f x).length = k) : (xs.flatMap f).length = xs.length * k := by
  rw [List.length_flatMap, List.map_congr_left hk, List.map_const', List.sum_replicate_nat]

/-- The values of rows in the order of the first one's fields: each stands in the place of its row
and its field. -/
theorem getElem?_rowParams (d : Dialect) {rows : List Tuple} {first row : Tuple} {i j : Nat}
    {field : String} {v : Value} (hrow : rows[i]? = some row)
    (hfield : first.fields[j]? = some field) (hv : row.get? field = some v) :
    (rows.flatMap fun row => (row.values first.fields).map d.wire)[i * first.size + j]? =
      some (d.wire v) := by
  -- Every row is a block as wide as the first row.
  have hwidth : ∀ row ∈ rows, ((row.values first.fields).map d.wire).length = first.size := by
    intro row _
    rw [List.length_map, Tuple.length_values, Tuple.length_fields]
  have hj : j < first.size := by
    have hlt := (List.getElem?_eq_some_iff.mp hfield).1
    rwa [Tuple.length_fields] at hlt
  calc (rows.flatMap fun row => (row.values first.fields).map d.wire)[i * first.size + j]?
      = ((row.values first.fields).map d.wire)[j]? := by
        rw [getElem?_flatMap_of_length hwidth i hj, hrow, Option.bind_some]
    _ = some (d.wire ((row.get? field).getD .null)) := by
        rw [Tuple.values, List.getElem?_map, List.getElem?_map, hfield]
        rfl
    _ = some (d.wire v) := by rw [hv, Option.getD_some]

/-! ### The groups of an INSERT -/

variable {d : Dialect}

/-- The text of an INSERT of some fields and as many rows as given. -/
def insertText (d : Dialect) (source : Aliased) (fields : List String) (rows : Nat) : String :=
  let group := "(" ++ commas (List.replicate fields.length "?") ++ ")"
  "INSERT INTO " ++ source.sourceText d ++ " (" ++ commas (fields.map d.identifier) ++
    ") VALUES " ++ commas (List.replicate rows group)

/-- The text of holes is a question mark for each. -/
theorem Sql.text_holes (values : List Value) :
    (Sql.holes values).text = commas (List.replicate values.length "?") := by
  rw [Sql.holes, Sql.text_join, List.map_map, ← List.map_const']
  rfl

/-- What an INSERT compiles to: a group for each row, and the values of the rows one behind the
other. -/
theorem Write.eq_insert_of_compileInsert {w : Write} {first : Tuple} {out : Sql}
    (h : w.compileInsert d first = .ok out) {source : Aliased}
    (hsource : w.draft.sources = [source]) :
    out = ⟨insertText d source first.fields w.rows.length,
      w.rows.flatMap fun row => (row.values first.fields).map d.wire⟩ := by
  unfold Write.compileInsert at h
  rw [hsource] at h
  obtain ⟨groups, hgroups, h⟩ := exists_of_bind_eq_ok h
  obtain rfl := Except.ok.inj h
  -- Every group looks the same, whatever is in its row.
  have htext : (w.rows.map fun row => Rendering.sql d (rowItems d first.fields row)).map Sql.text =
      List.replicate w.rows.length
        ("(" ++ commas (List.replicate first.fields.length "?") ++ ")") := by
    rw [List.map_map, ← List.map_const']
    refine List.map_congr_left fun row _ => ?_
    rw [Function.comp_apply, sql_rowItems]
    change "(" ++ (Sql.holes _).text ++ ")" = _
    rw [Sql.text_holes, List.length_map, Tuple.length_values]
  have hparams (row : Tuple) : (Rendering.sql d (rowItems d first.fields row)).params =
      (row.values first.fields).map d.wire := by
    rw [sql_rowItems, Sql.params_parens, Sql.params_holes]
  rw [insertGroups_eq_map hgroups]
  refine Sql.eq_of_text_of_params ?_ ?_
  · rw [Sql.text_append, Sql.text_join, htext]
    rfl
  · rw [Sql.params_append, Sql.params_join, List.flatMap_map]
    exact List.flatMap_congr fun row _ => hparams row

/-- Rows that differ only in the order of their entries give the same groups, and the same error if
there is one. -/
theorem insertGroups_eq_of_sameEntries (first : Tuple) (i : Nat) {rows others : List Tuple}
    (h : List.Forall₂ Tuple.SameEntries rows others) :
    insertGroups d first i rows = insertGroups d first i others := by
  induction h generalizing i with
  | nil => rfl
  | cons hrow _ ih =>
    rw [insertGroups, insertGroups, hrow.sameFields_eq, hrow.values_eq, ih]

/-- The order of the entries behind the first row is not to be seen, whether the write compiles or
not. -/
theorem Write.compile_eq_of_sameEntries {w : Write} {first : Tuple} {rest others : List Tuple}
    (hrows : w.rows = first :: rest) (h : List.Forall₂ Tuple.SameEntries rest others) :
    ({ w with rows := first :: others } : Write).compile d = w.compile d := by
  have hall : List.Forall₂ Tuple.SameEntries w.rows (first :: others) := by
    rw [hrows]
    exact .cons (List.Perm.refl _) h
  -- An update looks at how many rows there are, and at the values of the first.
  have hupdate (t : Tuple) :
      compileUpdate d { w with rows := first :: others } t = w.compileUpdate d t := by
    rw [compileUpdate, compileUpdate, hall.length_eq]
  have hinsert (t : Tuple) :
      compileInsert d { w with rows := first :: others } t = w.compileInsert d t := by
    rw [compileInsert, compileInsert, insertGroups_eq_of_sameEntries t 0 hall]
  have hfirst : firstRow (first :: others) = firstRow w.rows := by
    rw [hrows]
    rfl
  simp only [compile, hfirst, hupdate, hinsert]
  rfl

/-- A write that compiles is acceptable, because its first violation would have been its error. -/
theorem Write.acceptable_of_compile {w : Write} {out : Sql} (h : w.compile d = .ok out) :
    ∃ first rest, w.Acceptable d first rest := by
  have hnone : (w.violations d).head? = none := by
    rw [← w.failureOf_compile d, h]
    rfl
  exact (w.violations_eq_nil d).mp (List.head?_eq_none_iff.mp hnone)

/-- What an INSERT into a source says, and which value it binds where. -/
structure Write.Inserts (d : Dialect) (w : Write) (source : Aliased) (first : Tuple)
    (rest : List Tuple) (out : Sql) : Prop where
  sources_eq : w.draft.sources = [source]
  rows_eq : w.rows = first :: rest
  fields_ne : first.fields ≠ []
  fields_perm : ∀ row ∈ w.rows, row.fields.Perm first.fields
  text_eq : out.text = insertText d source first.fields w.rows.length
  length_eq : out.params.length = w.rows.length * first.size
  /-- Every row has a value for every field of the first one, and it is the parameter in the place
  of the row and the field. -/
  param : ∀ (i j : Nat) (row : Tuple) (field : String),
    w.rows[i]? = some row → first.fields[j]? = some field →
      ∃ v, row.get? field = some v ∧ (field, v) ∈ row.entries ∧
        out.params[i * first.size + j]? = some (d.wire v)
  /-- Behind the first row, the order of the entries in a row is free. -/
  order : ∀ others, List.Forall₂ Tuple.SameEntries rest others →
    ({ w with rows := first :: others } : Write).compile d = .ok out

/-- **An INSERT binds each value to its column**: a write without conditions that compiles inserts
its rows in the order of the fields of the first. -/
theorem Write.insert_of_compile {w : Write} {out : Sql} (hinsert : w.isUpdate = false)
    (h : w.compile d = .ok out) : ∃ source first rest, w.Inserts d source first rest out := by
  obtain ⟨first, rest, hacceptable⟩ := Write.acceptable_of_compile h
  have hrows := hacceptable.rows
  have hnot : ¬w.isUpdate = true := Bool.eq_false_iff.mp hinsert
  obtain ⟨⟨source, hsource⟩, hrest⟩ := hacceptable.insert (Write.wheres_eq_nil hnot)
  have hfields : ∀ row ∈ w.rows, ∀ field, field ∈ row.fields ↔ field ∈ first.fields := by
    rw [hrows, List.forall_mem_cons]
    exact ⟨fun _ => Iff.rfl, hrest⟩
  -- The first row is the same for the compiler and for what makes the write acceptable.
  obtain ⟨first', rest', hrows', hcompile⟩ := Write.exists_first_of_compile h
  obtain ⟨rfl, rfl⟩ := List.cons.inj (hrows.symm.trans hrows')
  rw [if_neg hnot] at hcompile
  obtain rfl := Write.eq_insert_of_compileInsert hcompile hsource
  have hwidth : ∀ row ∈ w.rows, ((row.values first.fields).map d.wire).length = first.size := by
    intro row _
    rw [List.length_map, Tuple.length_values, Tuple.length_fields]
  refine ⟨source, first, rest, hsource, hrows, hacceptable.fields, ?_, rfl,
    length_flatMap_of_length hwidth, ?_, ?_⟩
  -- Names in a row are different, so rows with the same names list them in another order at most.
  · intro row hrow
    exact (List.perm_ext_iff_of_nodup row.nodup_fields first.nodup_fields).mpr (hfields row hrow)
  · intro i j row field hrow hfield
    -- The field is in the first row, so it is in this one, and reading it finds a value.
    have hmem : field ∈ row.fields :=
      (hfields row (List.mem_of_getElem? hrow) field).mpr (List.mem_of_getElem? hfield)
    obtain ⟨v, hv⟩ := Option.isSome_iff_exists.mp (Tuple.isSome_get?.mpr hmem)
    exact ⟨v, hv, Tuple.get?_eq_some_iff.mp hv, getElem?_rowParams d hrow hfield hv⟩
  · intro others hothers
    rw [Write.compile_eq_of_sameEntries hrows hothers, h]

/-- Two rows that name their fields in different orders, the second with a NULL. In the order of the
first they give the same. -/
theorem Write.insert_of_compile_reordered :
    let first : Tuple := .ofList [("a", .int 1), ("b", .bool true)]
    let w : Write :=
      { draft := { sources := [⟨"t", none⟩] }
        rows := [first, .ofList [("b", .null), ("a", .int 2)]] }
    ∃ out, w.compile Engine.sql.dialect = .ok out ∧ out.params.length = 4 ∧
      out.params[1]? = some (.int 1) ∧ out.params[2]? = some (.int 2) ∧
      out.params[3]? = some .null ∧
      ({ w with rows := [first, .ofList [("a", .int 2), ("b", .null)]] } : Write).compile
        Engine.sql.dialect = .ok out := by
  intro first w
  obtain ⟨out, hout⟩ : ∃ out, w.compile Engine.sql.dialect = .ok out := ⟨_, rfl⟩
  obtain ⟨source, first', rest, hinserts⟩ := insert_of_compile rfl hout
  obtain ⟨rfl, rfl⟩ := List.cons.inj hinserts.rows_eq
  -- The place of each value: row and column, counted from zero.
  obtain ⟨_, hb, -, hfirst⟩ := hinserts.param 0 1 first "b" rfl rfl
  obtain ⟨_, ha', -, hsecond⟩ := hinserts.param 1 0 _ "a" rfl rfl
  obtain ⟨_, hb', -, hthird⟩ := hinserts.param 1 1 _ "b" rfl rfl
  obtain rfl := Option.some.inj hb
  obtain rfl := Option.some.inj ha'
  obtain rfl := Option.some.inj hb'
  exact ⟨out, hout, hinserts.length_eq, hfirst, hsecond, hthird,
    hinserts.order _ (.cons (List.Perm.swap _ _ []) .nil)⟩

end SqlBuilder
