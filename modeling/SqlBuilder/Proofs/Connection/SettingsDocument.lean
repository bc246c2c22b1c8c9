import Mathlib.Data.List.Nodup
import SqlBuilder.Connection.Settings
import SqlBuilder.Proofs.Json.ReadBack

/-!
# Settings as a document

Settings are written as a JSON document and read from one. That the text says what was written is a
matter of documents in general (`Document.read?_compact`). What is left is that each member is read
from the value that is written for it (`Settings.exists_set?`), and that reading takes the members
one after the other and leaves the others as they are (`Settings.exists_readMembers?`).

Main statement, at the end: settings are read as they were written, and if members are left out of
the document these have their defaults, and the others do not change (`Settings.read_written`).

A limit is written in full, whatever it is, but read only up to 64 bits, which is all that a limit
has.
-/

namespace SqlBuilder

/-! ### Integers -/

namespace Numeral

/-- A number does not get smaller with more digits. -/
theorem le_foldl_digitValue (cs : List Char) (m : Nat) :
    m ≤ cs.foldl (fun n c => 10 * n + Text.digitValue c) m := by
  induction cs generalizing m with
  | nil => exact Nat.le_refl m
  | cons c cs ih =>
    have hrest := ih (10 * m + Text.digitValue c)
    rw [List.foldl_cons]
    omega

/-- Digits are gathered to their end, if the number that they write is in range. -/
theorem gather_eq {m : Nat} {cs : List Char}
    (h : cs.foldl (fun n c => 10 * n + Text.digitValue c) m ≤ maxSignificand) :
    gather m cs = (cs.foldl (fun n c => 10 * n + Text.digitValue c) m, []) := by
  induction cs generalizing m with
  | nil => rfl
  | cons c cs ih =>
    rw [List.foldl_cons] at h ⊢
    rw [gather, if_pos (Nat.le_trans (le_foldl_digitValue cs _) h), ih h]

/-- A natural number in range is read as itself. -/
theorem number?_ofInt_natCast {n : Nat} (h : n ≤ maxSignificand) :
    (ofInt n).number? = some (.integer n) := by
  have hvalue : (Text.digits n).foldl (fun n c => 10 * n + Text.digitValue c) 0 = n :=
    Text.ofDigits_digits n
  have hwhole : gather 0 (Text.digits n) = (n, []) := by
    rw [gather_eq (hvalue.symm ▸ h), hvalue]
  have hsign : decide ((n : Int) < 0) = false := decide_eq_false (by omega)
  rw [ofInt, Int.natAbs_natCast, hsign, number?, hwhole]
  rfl

end Numeral

namespace Settings

/-- The settings with the members that are kept. All other members have their defaults. -/
def only (s : Settings) (kept : Member → Bool) : Settings where
  engine := if kept .dialect then s.engine else ({} : Settings).engine
  logSql := if kept .logSql then s.logSql else ({} : Settings).logSql
  logLevel := if kept .logLevel then s.logLevel else ({} : Settings).logLevel
  maxLogged := if kept .maxLogged then s.maxLogged else ({} : Settings).maxLogged
  wrapInserts := if kept .wrapInserts then s.wrapInserts else ({} : Settings).wrapInserts

theorem Member.ofName?_name (m : Member) : ofName? m.name = some m := by
  cases m <;> rfl

theorem Member.mem_all (m : Member) : m ∈ all := by
  cases m <;> decide

theorem readEngine?_name (engine : Engine) :
    readEngine? (.string (some engine.name)) = some engine := by
  cases engine <;> rfl

/-- A limit of 64 bits is read from its numeral. -/
theorem readLimit?_ofInt {n : Nat} (h : n ≤ maxLimit) :
    readLimit? (.number (.ofInt n)) = some (some n) := by
  rw [readLimit?, Numeral.number?_ofInt_natCast h]
  exact if_pos h

variable {s : Settings} (hlimit : ∀ n ∈ s.maxLogged, n ≤ maxLimit)

include hlimit

/-- A member is set from the value that is written for it. -/
theorem exists_set? (seen : List Member) (m : Member) :
    ∃ d, Document.ofJson? (s.value m) = some d ∧
      (s.only (· ∈ seen)).set? m d = some (s.only (· ∈ m :: seen)) := by
  cases m with
  | dialect =>
    refine ⟨.string (some s.engine.name), rfl, ?_⟩
    simp [set?, readEngine?_name, only]
  | logSql =>
    refine ⟨.bool s.logSql, rfl, ?_⟩
    simp [set?, readBool?, only]
  | logLevel =>
    refine ⟨.string (some s.logLevel), rfl, ?_⟩
    simp [set?, readText?, only]
  | maxLogged =>
    -- `null` sets the limit to none, which is not its default.
    cases hmax : s.maxLogged with
    | none =>
      refine ⟨.null, by rw [value, hmax]; rfl, ?_⟩
      simp [set?, readLimit?, only, hmax]
    | some n =>
      refine ⟨.number (.ofInt n), by rw [value, hmax]; rfl, ?_⟩
      simp [set?, readLimit?_ofInt (hlimit n hmax), only, hmax]
  | wrapInserts =>
    refine ⟨.bool s.wrapInserts, rfl, ?_⟩
    simp [set?, readBool?, only]

/-- Members that are not set yet are set from what is written for them, one after the other. -/
theorem exists_readMembers? {members seen : List Member} (hnodup : members.Nodup)
    (hnew : ∀ m ∈ members, m ∉ seen) :
    ∃ ds, Document.ofMembers? (members.map fun m => (m.name, s.value m)) = some ds ∧
      readMembers? (s.only (· ∈ seen)) seen ds = some (s.only (· ∈ members.reverse ++ seen)) := by
  -- At every step the settings are the ones with the members that were seen.
  induction members generalizing seen with
  | nil => exact ⟨[], rfl, rfl⟩
  | cons m members ih =>
    obtain ⟨hother, hnodup⟩ := List.nodup_cons.mp hnodup
    obtain ⟨hm, hmembers⟩ := List.forall_mem_cons.mp hnew
    have hnew' : ∀ m' ∈ members, m' ∉ m :: seen := by
      intro m' hm' hmem
      rcases List.mem_cons.mp hmem with rfl | hmem
      · exact hother hm'
      · exact hmembers m' hm' hmem
    obtain ⟨d, hd, hset⟩ := exists_set? hlimit seen m
    obtain ⟨ds, hds, hread⟩ := ih hnodup hnew'
    refine ⟨(some m.name, d) :: ds, ?_, ?_⟩
    · simp [Document.ofMembers?, hd, hds]
    · rw [List.reverse_cons, List.append_assoc, List.singleton_append, ← hread]
      simp only [readMembers?, Option.bind_eq_bind, Option.bind_some, Member.ofName?_name,
        if_neg hm, hset]

/-- Members are read in whatever order they are written. -/
theorem read_writeMembers {members : List Member} (hnodup : members.Nodup) :
    read (s.writeMembers members) = .ok (s.only (· ∈ members)) := by
  obtain ⟨ds, hds, hmembers⟩ := exists_readMembers? hlimit hnodup fun _ _ => List.not_mem_nil
  have hdocument : Document.read? (s.writeMembers members) = some (.object ds) :=
    Document.read?_compact (by rw [Document.ofJson?, hds]; rfl)
  have hsettings : ofDocument? (.object ds) = some (s.only (· ∈ members)) := by
    simp only [List.append_nil, List.mem_reverse] at hmembers
    exact hmembers
  rw [read, hdocument, Option.bind_some, hsettings]

/-- **Settings survive their document.** They are read as they were written. And if only some
members are kept in the document, whichever they are, the others are read as their defaults. -/
theorem read_written :
    read s.write = .ok s ∧
    ∀ kept : Member → Bool,
      read (s.writeMembers (Member.all.filter kept)) = .ok (s.only kept) := by
  have hkept (kept : Member → Bool) :
      read (s.writeMembers (Member.all.filter kept)) = .ok (s.only kept) := by
    have hnodup : Member.all.Nodup := by decide
    rw [read_writeMembers hlimit (hnodup.filter kept)]
    simp only [List.mem_filter, Member.mem_all, true_and, Bool.decide_eq_true]
  exact ⟨hkept fun _ => true, hkept⟩

omit hlimit in
/-- The greatest limit, and a level with every kind of escape. -/
theorem read_written_greatest :
    let s : Settings :=
      ⟨.pgsql, false, "\"\\\n\x01\x7fé/😀", some 18446744073709551615, false⟩
    (∀ n ∈ s.maxLogged, n ≤ maxLimit) ∧ read s.write = .ok s ∧
    ∀ kept : Member → Bool,
      read (s.writeMembers (Member.all.filter kept)) = .ok (s.only kept) := by
  intro s
  have hlimit : ∀ n ∈ s.maxLogged, n ≤ maxLimit := by
    intro n hn
    obtain rfl := Option.some.inj hn
    exact Nat.le_refl _
  exact ⟨hlimit, read_written hlimit⟩

/-- No limit is written as `null`, and a limit that is left out is the default. -/
example :
    let s : Settings := { maxLogged := none }
    s.writeMembers [.maxLogged] = "\x7b\"max_sql_log_length\":null\x7d" ∧
      (s.only fun m => m != .maxLogged).maxLogged = some 200 := by
  decide

end Settings

end SqlBuilder
