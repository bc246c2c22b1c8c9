import Mathlib.Data.List.Forall2
import SqlBuilder.Json.Document
import SqlBuilder.Proofs.Json.Spelling

/-!
# Reading a document back

The compact text of a value is read as a document that says the same. A document keeps numerals as
they are written, so the document of a value is known without reading anything
(`Document.ofJson?`); only the text of a float is left open.

Reading takes one token after the other, so the statement is about any place where a value may
stand: behind the text of a value, reading is where it would be behind the value
(`Document.Reads`). Arrays and objects are containers. Their parts are read in turn with commas
between them, and the induction over the parts is the same for both (`Document.Container`).

Main statement, at the end: what is written is read back (`Document.read?_compact`).
-/

namespace SqlBuilder

open Token (Ends)

/-- The numeral that an integer is written as. -/
def Numeral.ofInt (n : Int) : Numeral :=
  ⟨decide (n < 0), Text.digits n.natAbs, none, none⟩

namespace Document

/-! ### Reading from any place -/

/-- Read a text from where reading stands. -/
def readFrom (r : Reading) (cs : List Char) : Option Document := do
  let tokens ← Token.all cs
  (← tokens.foldlM Reading.next? r).result?

/-- At the end of the text there is a document if reading stands behind a whole one. -/
theorem readFrom_nil (r : Reading) : readFrom r [] = r.result? := by
  rw [readFrom, Token.all]
  rfl

/-- The first token is read, then the rest. -/
theorem readFrom_of_scan {c : Char} {cs rest : List Char} {t : Token}
    (hspace : Token.isSpace c = false) (h : Token.scan c cs = some (t, rest)) (r : Reading) :
    readFrom r (c :: cs) = (r.next? t).bind (readFrom · rest) := by
  have hall : Token.all (c :: cs) = (Token.all rest).map (t :: ·) := by
    rw [Token.all, if_neg (Bool.eq_false_iff.mp hspace)]
    split
    · next hnone => exact absurd (h.symm.trans hnone) (Option.some_ne_none _)
    · next hsome =>
      obtain ⟨rfl, rfl⟩ := Prod.mk.inj (Option.some.inj (h.symm.trans hsome))
      rfl
  rw [readFrom, hall]
  -- A part of the rest that is no token spoils the reading, even if the first token is refused too.
  cases htokens : Token.all rest with
  | none => cases r.next? t <;> simp [readFrom, htokens]
  | some tokens => simp [readFrom, htokens, Option.bind_assoc]

/-- A token of one character is read. -/
theorem readFrom_sign (c : Char) (t : Token) (hspace : Token.isSpace c = false)
    (hscan : ∀ cs, Token.scan c cs = some (t, cs)) {r next : Reading}
    (hnext : r.next? t = some next) (cs : List Char) : readFrom r (c :: cs) = readFrom next cs := by
  rw [readFrom_of_scan hspace (hscan cs), hnext]
  rfl

/-! ### Values -/

/-- A value may stand next, as a part of the innermost of the frames. -/
inductive Awaits : Reading → List Frame → Prop
  | value (frames : List Frame) : Awaits ⟨frames, .value⟩ frames
  | item (frames : List Frame) : Awaits ⟨frames, .item⟩ (.array [] :: frames)

/-- Where a value may stand, a token begins one, unless it ends an array that has no items yet. -/
theorem Awaits.next? {r : Reading} {frames : List Frame} (h : Awaits r frames) {t : Token}
    (ht : t ≠ .rightBracket) : r.next? t = begin? frames t := by
  cases h with
  | value => rfl
  | item =>
    cases t with
    | rightBracket => exact absurd rfl ht
    | _ => rfl

/-- Wherever a value may stand, the text is read as the document, unless what is behind it goes on
with it. -/
def Reads (text : List Char) (d : Document) : Prop :=
  ∀ r frames rest, Awaits r frames → Ends rest →
    readFrom r (text ++ rest) = readFrom ⟨frames, .after d⟩ rest

/-- A token that is a whole value is read at once. -/
theorem begin?_of_ofToken? {t : Token} {d : Document} (h : ofToken? t = some d)
    (frames : List Frame) : begin? frames t = some ⟨frames, .after d⟩ := by
  cases t with
  | null | bool | number | string =>
    obtain rfl := Option.some.inj h
    rfl
  | _ => cases h

/-- The text of a token that is a whole value. -/
theorem reads_of_scan {c : Char} {cs : List Char} {t : Token} {d : Document}
    (hspace : Token.isSpace c = false)
    (hscan : ∀ rest, Ends rest → Token.scan c (cs ++ rest) = some (t, rest))
    (hvalue : ofToken? t = some d) : Reads (c :: cs) d := by
  intro r frames rest hawaits hends
  have hbracket : t ≠ .rightBracket := by
    rintro rfl
    cases hvalue
  rw [List.cons_append, readFrom_of_scan hspace (hscan rest hends), hawaits.next? hbracket,
    begin?_of_ofToken? hvalue]
  rfl

theorem reads_null : Reads "null".toList .null :=
  reads_of_scan (by decide) (fun _ _ => rfl) rfl

theorem reads_bool (b : Bool) : Reads (if b then "true" else "false").toList (.bool b) := by
  cases b with
  | false => exact reads_of_scan (by decide) (fun _ _ => rfl) rfl
  | true => exact reads_of_scan (by decide) (fun _ _ => rfl) rfl

/-- A string between quotes, with whatever it holds escaped. -/
theorem reads_quote (s : String) : Reads (Json.quote s).toList (.string (some s)) := by
  have hscan (rest : List Char) (_ : Ends rest) :
      Token.scan '\x22' ((s.toList.flatMap Json.escape ++ ['\x22']) ++ rest) =
        some (.string (some s), rest) := by
    rw [List.append_assoc]
    exact Token.scan_escaped s rest
  rw [Json.quote, String.toList_ofList]
  exact reads_of_scan (by decide) hscan rfl

/-- An integer, which keeps its sign and its digits. -/
theorem reads_intText (n : Int) : Reads (Text.intText n).toList (.number (.ofInt n)) := by
  rw [Text.intText]
  split
  · next hneg =>
    have hscan (rest : List Char) (hends : Ends rest) :
        Token.scan '-' (Text.digits n.natAbs ++ rest) = some (.number (.ofInt n), rest) := by
      change (Token.scanUnsigned true _).map _ = _
      rw [Token.scanUnsigned_digits true _ hends, Numeral.ofInt, decide_eq_true hneg]
      rfl
    rw [String.toList_append, Text.toList_natText]
    exact reads_of_scan (by decide) hscan rfl
  · next hneg =>
    -- Without a sign the token is known by its first digit.
    obtain ⟨c, cs, hdigits⟩ := List.exists_cons_of_ne_nil (Text.digits_ne_nil n.natAbs)
    have hdigit : c.isDigit = true := Text.isDigit_of_mem_digits (hdigits ▸ List.mem_cons_self)
    have hscan (rest : List Char) (hends : Ends rest) :
        Token.scan c (cs ++ rest) = some (.number (.ofInt n), rest) := by
      rw [Token.scan_of_isDigit hdigit, ← List.cons_append, ← hdigits,
        Token.scanUnsigned_digits false _ hends, Numeral.ofInt, decide_eq_false hneg]
      rfl
    rw [Text.toList_natText, hdigits]
    exact reads_of_scan (Token.isSpace_of_isDigit hdigit) hscan rfl

/-! ### Containers -/

/-- How the parts of a container are read. -/
structure Container (Part : Type) where
  /-- The character that ends the container. -/
  close : Char
  /-- Where reading stands behind the character that begins it. -/
  start : Reading
  /-- A part may stand next, behind those that were read, of which the last one is first. -/
  Stands : Reading → List Part → Prop
  /-- Where reading stands behind a part. -/
  behind : List Part → Part → Reading
  /-- Where reading stands behind the container. -/
  whole : List Part → Reading
  ends_close : ∀ cs, Ends (close :: cs)
  stands_start : Stands start []
  close_start : ∀ cs, readFrom start (close :: cs) = readFrom (whole []) cs
  comma_behind : ∀ before part, ∃ r, Stands r (part :: before) ∧
    ∀ cs, readFrom (behind before part) (',' :: cs) = readFrom r cs
  close_behind : ∀ before part cs,
    readFrom (behind before part) (close :: cs) = readFrom (whole (part :: before).reverse) cs

namespace Container

variable {Part : Type} (k : Container Part)

/-- Wherever a part may stand, the text is read as the part. -/
def Reads (text : List Char) (part : Part) : Prop :=
  ∀ r before rest, k.Stands r before → Ends rest →
    readFrom r (text ++ rest) = readFrom (k.behind before part) rest

variable {k} {texts : List (List Char)} {parts : List Part}

/-- The parts that are left, and the end. -/
theorem readFrom_parts (h : List.Forall₂ k.Reads texts parts) (hne : texts ≠ []) {r : Reading}
    {before : List Part} (hstands : k.Stands r before) (rest : List Char) :
    readFrom r ([','].intercalate texts ++ k.close :: rest) =
      readFrom (k.whole (before.reverse ++ parts)) rest := by
  -- On the parts that are left. The ones that were read move to `before`, so the place is general.
  induction h generalizing r before with
  | nil => exact absurd rfl hne
  | @cons text part _ _ hread hreads ih =>
    cases hreads with
    | nil =>
      -- The last part has no comma behind it but the end.
      rw [List.intercalate_singleton, hread r _ _ hstands (k.ends_close rest), k.close_behind,
        List.reverse_cons]
    | cons _ _ =>
      obtain ⟨r', hstands', hcomma⟩ := k.comma_behind before part
      have hends (cs : List Char) : Ends (',' :: cs) := by
        intro c hc
        obtain rfl := Option.some.inj hc
        decide
      rw [List.intercalate_cons_cons, List.append_assoc, List.append_assoc, List.singleton_append,
        hread r _ _ hstands (hends _), hcomma, ih (List.cons_ne_nil _ _) hstands',
        List.reverse_cons, List.append_assoc, List.singleton_append]

/-- A container is read from its first part to its end. -/
theorem readFrom_start (h : List.Forall₂ k.Reads texts parts) (rest : List Char) :
    readFrom k.start ([','].intercalate texts ++ k.close :: rest) =
      readFrom (k.whole parts) rest := by
  cases h with
  | nil => exact k.close_start rest
  | cons hread hreads =>
    exact readFrom_parts (.cons hread hreads) (List.cons_ne_nil _ _) k.stands_start rest

end Container

/-- The array inside of the frames. -/
def arrayIn (frames : List Frame) : Container Document where
  close := ']'
  start := ⟨frames, .item⟩
  Stands r before := Awaits r (.array before :: frames)
  behind before d := ⟨.array before :: frames, .after d⟩
  whole ds := ⟨frames, .after (.array ds)⟩
  ends_close _ c hc := by
    obtain rfl := Option.some.inj hc
    decide
  stands_start := .item frames
  close_start := readFrom_sign ']' .rightBracket (by decide) (fun _ => rfl) rfl
  comma_behind _ _ := ⟨_, .value _, readFrom_sign ',' .comma (by decide) (fun _ => rfl) rfl⟩
  close_behind _ _ := readFrom_sign ']' .rightBracket (by decide) (fun _ => rfl) rfl

/-- A name may stand next, behind the members of an object that were read. -/
inductive AwaitsName (frames : List Frame) : Reading → List (Option String × Document) → Prop
  | first : AwaitsName frames ⟨frames, .member⟩ []
  | next (before : List (Option String × Document)) :
    AwaitsName frames ⟨frames, .name before⟩ before

/-- The object inside of the frames. -/
def objectIn (frames : List Frame) : Container (Option String × Document) where
  close := '\x7d'
  start := ⟨frames, .member⟩
  Stands := AwaitsName frames
  behind before member := ⟨.object before member.1 :: frames, .after member.2⟩
  whole members := ⟨frames, .after (.object members)⟩
  ends_close _ c hc := by
    obtain rfl := Option.some.inj hc
    decide
  stands_start := .first
  close_start := readFrom_sign '\x7d' .rightBrace (by decide) (fun _ => rfl) rfl
  comma_behind _ _ := ⟨_, .next _, readFrom_sign ',' .comma (by decide) (fun _ => rfl) rfl⟩
  close_behind _ _ := readFrom_sign '\x7d' .rightBrace (by decide) (fun _ => rfl) rfl

/-- An item is its value. -/
theorem Reads.item {text : List Char} {d : Document} (h : Reads text d) (frames : List Frame) :
    (arrayIn frames).Reads text d :=
  fun r _ rest hstands hends => h r _ rest hstands hends

/-- A member is its name, a colon and its value. -/
theorem Reads.member {text : List Char} {d : Document} (h : Reads text d) (frames : List Frame)
    (name : String) :
    (objectIn frames).Reads ((Json.quote name).toList ++ ':' :: text) (some name, d) := by
  intro r before rest hstands hends
  change AwaitsName frames r before at hstands
  -- Behind a comma there must be a name, and behind the brace there may be one.
  have hname : r.next? (.string (some name)) = some ⟨frames, .colon before (some name)⟩ := by
    cases hstands <;> rfl
  rw [Json.quote, String.toList_ofList, List.append_assoc, List.cons_append, List.append_assoc,
    List.singleton_append, readFrom_of_scan (by decide) (Token.scan_escaped name _), hname]
  change readFrom ⟨frames, .colon before (some name)⟩ (':' :: (text ++ rest)) = _
  rw [readFrom_sign ':' .colon (by decide) (fun _ => rfl) rfl]
  exact h _ _ rest (.value _) hends

/-- Items with commas between them, in square brackets. -/
theorem reads_array {texts : List (List Char)} {ds : List Document}
    (h : List.Forall₂ Reads texts ds) :
    Reads ('[' :: ([','].intercalate texts ++ [']'])) (.array ds) := by
  intro r frames rest hawaits _
  have hopen : r.next? .leftBracket = some ⟨frames, .item⟩ := hawaits.next? (by decide)
  have hitems : List.Forall₂ (arrayIn frames).Reads texts ds := h.imp fun _ _ hread => hread.item _
  rw [List.cons_append, List.append_assoc,
    readFrom_sign '[' .leftBracket (by decide) (fun _ => rfl) hopen]
  exact Container.readFrom_start hitems rest

/-- Members with commas between them, in braces. -/
theorem reads_object {texts : List (List Char)} {members : List (Option String × Document)}
    (h : ∀ frames, List.Forall₂ (objectIn frames).Reads texts members) :
    Reads ('\x7b' :: ([','].intercalate texts ++ ['\x7d'])) (.object members) := by
  intro r frames rest hawaits _
  have hopen : r.next? .leftBrace = some ⟨frames, .member⟩ := hawaits.next? (by decide)
  rw [List.cons_append, List.append_assoc,
    readFrom_sign '\x7b' .leftBrace (by decide) (fun _ => rfl) hopen]
  exact Container.readFrom_start (h frames) rest

/-! ### Whole values -/

mutual

/-- The document that the compact text of a value is read as; `none` if a float is in it. -/
def ofJson? : Json → Option Document
  | .null => some .null
  | .bool b => some (.bool b)
  | .number (.integer n) => some (.number (.ofInt n))
  | .number (.float _) => none
  | .string s => some (.string (some s))
  | .array items => (ofItems? items).map .array
  | .object members => (ofMembers? members).map .object

/-- The documents of the items of an array. -/
def ofItems? : List Json → Option (List Document)
  | [] => some []
  | v :: vs => do
    let d ← ofJson? v
    let ds ← ofItems? vs
    return d :: ds

/-- The documents of the members of an object, behind their names. -/
def ofMembers? : List (String × Json) → Option (List (Option String × Document))
  | [] => some []
  | (name, v) :: ms => do
    let d ← ofJson? v
    let rest ← ofMembers? ms
    return (some name, d) :: rest

end

/-- The text of a container: its parts with commas between them, and a character at either end. -/
theorem toList_bracketed (left right : Char) (items : List String) :
    (Json.bracketed left right items).toList =
      left :: ([','].intercalate (items.map String.toList) ++ [right]) := by
  rw [Json.bracketed, String.toList_append, String.toList_append, String.toList_intercalate,
    String.toList_singleton, String.toList_singleton, List.append_assoc]
  rfl

-- By recursion on the value; what is behind a part is the next part or the end of its container.
mutual

/-- The compact text of a value is read as its document, wherever it stands. -/
theorem reads_compact : ∀ {v : Json} {d : Document}, ofJson? v = some d → Reads v.compact.toList d
  | .null, _, h => by
    obtain rfl := Option.some.inj h
    exact reads_null
  | .bool b, _, h => by
    obtain rfl := Option.some.inj h
    exact reads_bool b
  | .number (.integer n), _, h => by
    obtain rfl := Option.some.inj h
    exact reads_intText n
  | .string s, _, h => by
    obtain rfl := Option.some.inj h
    exact reads_quote s
  | .array items, _, h => by
    obtain ⟨ds, hds, rfl⟩ := Option.map_eq_some_iff.mp h
    rw [Json.compact, toList_bracketed]
    exact reads_array (forall₂_reads hds)
  | .object members, _, h => by
    obtain ⟨ms, hms, rfl⟩ := Option.map_eq_some_iff.mp h
    rw [Json.compact, toList_bracketed]
    exact reads_object fun frames => forall₂_reads_members frames hms

/-- The texts of items are read as their documents. -/
theorem forall₂_reads : ∀ {items : List Json} {ds : List Document}, ofItems? items = some ds →
    List.Forall₂ Reads ((Json.compactItems items).map String.toList) ds
  | [], _, h => by
    obtain rfl := Option.some.inj h
    exact .nil
  | _ :: _, _, h => by
    obtain ⟨d, hd, h⟩ := Option.bind_eq_some_iff.mp h
    obtain ⟨ds, hds, h⟩ := Option.bind_eq_some_iff.mp h
    obtain rfl := Option.some.inj h
    exact .cons (reads_compact hd) (forall₂_reads hds)

/-- The texts of members are read as their names and documents, whichever frames are around the
object. -/
theorem forall₂_reads_members (frames : List Frame) : ∀ {members : List (String × Json)}
    {ds : List (Option String × Document)}, ofMembers? members = some ds →
    List.Forall₂ (objectIn frames).Reads ((Json.compactMembers members).map String.toList) ds
  | [], _, h => by
    obtain rfl := Option.some.inj h
    exact .nil
  | (name, _) :: _, _, h => by
    obtain ⟨d, hd, h⟩ := Option.bind_eq_some_iff.mp h
    obtain ⟨ds, hds, h⟩ := Option.bind_eq_some_iff.mp h
    obtain rfl := Option.some.inj h
    rw [Json.compactMembers, List.map_cons, String.toList_append, String.toList_append,
      List.append_assoc]
    exact .cons ((reads_compact hd).member frames name) (forall₂_reads_members frames hds)

end

/-- **What is written is read back.** -/
theorem read?_compact {v : Json} {d : Document} (h : ofJson? v = some d) :
    read? v.compact = some d := by
  have hread := reads_compact h ⟨[], .value⟩ [] [] (.value []) nofun
  rw [List.append_nil, readFrom_nil] at hread
  exact hread

end Document

end SqlBuilder
