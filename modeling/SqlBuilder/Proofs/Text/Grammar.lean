import SqlBuilder.Expression
import SqlBuilder.Proofs.Text.Parts

/-!
# The grammar of expressions

An expression is a few tokens with one space between two. That is all of its grammar
(`Text.Spaced`), and it has room for little else: a space at either end, two in a row, or an empty
text leave a token empty, while a tab or another blank is a character like any other.

Main statement, at the end: the readers of conditions, fields and sources accept exactly the texts
of their grammar and name the text when they refuse one; and what they have read can be written
again, which gives the text with the tokens that were left out, and is read as the same
(`Form.readers_exact`).

The three readers differ in what they make of the tokens, and not in how they get them. So the
statement is proved once for any reader that decodes tokens (`ReadsExactly.of_decode`), of which is
asked only that it writes the tokens it was given behind the completed ones. For a condition this
rests on one equation for markers: the wildcards that were taken off are put on again
(`Operand.written_ofMarker`).
-/

namespace SqlBuilder

/-! ### Tokens -/

/-- Whether a text is a token: it is not empty and has no space in it. -/
def Text.Solid (token : String) : Prop :=
  token ≠ "" ∧ ' ' ∉ token.toList

/-- The text consists of the tokens, at least one and at most so many, with one space between
two. -/
structure Text.Spaced (most : Nat) (raw : String) (tokens : List String) : Prop where
  ne_nil : tokens ≠ []
  length_le : tokens.length ≤ most
  solid : ∀ token ∈ tokens, Text.Solid token
  eq_raw : " ".intercalate tokens = raw

namespace Form

variable {form : Form} {raw : String} {tokens : List String}

/-- The tokens of a text are its parts between the spaces. -/
theorem tokens_eq (form : Form) (raw : String) :
    form.tokens raw =
      if raw = "" then .error (.malformed raw .empty)
      else if form.maxTokens < (Text.parts ' ' raw).length then
        .error (.malformed raw (.tooManyTokens form))
      else if "" ∈ Text.parts ' ' raw then .error (.malformed raw .looseSpaces)
      else .ok (Text.parts ' ' raw) :=
  rfl

/-- **A text is accepted exactly if it is tokens with spaces between them**, and these are its
tokens. -/
theorem tokens_eq_ok_iff :
    form.tokens raw = .ok tokens ↔ Text.Spaced form.maxTokens raw tokens := by
  rw [tokens_eq]
  constructor
  · intro h
    split at h
    · cases h
    · split at h
      · cases h
      · next hlength =>
        split at h
        · cases h
        · next hempty =>
          have hparts : Text.parts ' ' raw = tokens := Except.ok.inj h
          obtain ⟨hne, hfree, hraw⟩ := Text.parts_eq_iff.mp hparts
          rw [hparts] at hlength hempty
          refine ⟨hne, Nat.le_of_not_lt hlength, fun token htoken => ⟨?_, hfree token htoken⟩, hraw⟩
          rintro rfl
          exact hempty htoken
  -- The three refusals are what the grammar rules out: no token, too many, an empty one.
  · intro h
    have hparts : Text.parts ' ' raw = tokens :=
      Text.parts_eq_iff.mpr ⟨h.ne_nil, fun token htoken => (h.solid token htoken).2, h.eq_raw⟩
    have hempty : "" ∉ tokens := fun hmem => (h.solid "" hmem).1 rfl
    -- An empty text is one empty part.
    have hraw : raw ≠ "" := by
      rintro rfl
      have hpart : Text.parts ' ' "" = [""] := by decide
      rw [← hparts, hpart] at hempty
      exact hempty List.mem_cons_self
    rw [if_neg hraw, hparts, if_neg (Nat.not_lt.mpr h.length_le), if_neg hempty]

/-- A text that is refused is named. -/
theorem exists_of_tokens_eq_error {e : Error} (h : form.tokens raw = .error e) :
    ∃ why, e = .malformed raw why := by
  rw [tokens_eq] at h
  split at h
  · exact ⟨_, (Except.error.inj h).symm⟩
  · split at h
    · exact ⟨_, (Except.error.inj h).symm⟩
    · split at h
      · exact ⟨_, (Except.error.inj h).symm⟩
      · cases h

end Form

/-! ### Readers -/

/-- **A reader is exact** for texts of at most so many tokens, where `complete` fills in the tokens
that may be left out: it accepts these texts and no others, names the text when it refuses one, and
what it has read is written as the completed text, which it reads as the same again. -/
structure ReadsExactly {α : Type} (most : Nat) (read : String → Except Error α) (write : α → String)
    (complete : List String → List String) : Prop where
  accepts_iff : ∀ raw, (∃ x, read raw = .ok x) ↔ ∃ tokens, Text.Spaced most raw tokens
  refuses : ∀ raw e, read raw = .error e → ∃ why, e = .malformed raw why
  write_eq : ∀ raw x tokens, read raw = .ok x → Text.Spaced most raw tokens →
    write x = " ".intercalate (complete tokens)
  read_write : ∀ raw x, read raw = .ok x → read (write x) = .ok x

/-- A reader that decodes tokens is exact, if completing them brings in tokens only, and not too
many, and the completed tokens are decoded to the same and are what is written. -/
theorem ReadsExactly.of_decode {α : Type} {form : Form} {read : String → Except Error α}
    {write : α → String} {complete : List String → List String} {decode : List String → α}
    (hread : ∀ raw, read raw = (form.tokens raw).map decode)
    (hcomplete : ∀ raw tokens, Text.Spaced form.maxTokens raw tokens →
      Text.Spaced form.maxTokens (write (decode tokens)) (complete tokens) ∧
        decode (complete tokens) = decode tokens) :
    ReadsExactly form.maxTokens read write complete := by
  have hok {raw : String} {tokens : List String} (h : Text.Spaced form.maxTokens raw tokens) :
      read raw = .ok (decode tokens) := by
    rw [hread, Form.tokens_eq_ok_iff.mpr h]
    rfl
  have hspaced {raw : String} {x : α} (h : read raw = .ok x) :
      ∃ tokens, Text.Spaced form.maxTokens raw tokens ∧ x = decode tokens := by
    rw [hread] at h
    cases htokens : form.tokens raw with
    | error e =>
      rw [htokens] at h
      cases h
    | ok tokens =>
      rw [htokens] at h
      exact ⟨tokens, Form.tokens_eq_ok_iff.mp htokens, (Except.ok.inj h).symm⟩
  refine ⟨fun raw => ⟨?_, ?_⟩, fun raw e h => ?_, fun raw x tokens h htokens => ?_,
    fun raw x h => ?_⟩
  · rintro ⟨x, h⟩
    obtain ⟨tokens, htokens, -⟩ := hspaced h
    exact ⟨tokens, htokens⟩
  · rintro ⟨tokens, htokens⟩
    exact ⟨decode tokens, hok htokens⟩
  · rw [hread] at h
    cases htokens : form.tokens raw with
    | error e' =>
      rw [htokens] at h
      obtain rfl := Except.error.inj h
      exact Form.exists_of_tokens_eq_error htokens
    | ok tokens =>
      rw [htokens] at h
      cases h
  · obtain rfl := Except.ok.inj (h.symm.trans (hok htokens))
    exact (hcomplete raw tokens htokens).1.eq_raw.symm
  · obtain ⟨tokens, htokens, rfl⟩ := hspaced h
    obtain ⟨hwritten, hdecode⟩ := hcomplete raw tokens htokens
    rw [hok hwritten, hdecode]

/-! ### Names with an alias -/

/-- A name with its alias, if it has one. -/
def Aliased.text (x : Aliased) : String :=
  " ".intercalate (x.name :: x.alias?.toList)

/-- A name with its alias has one token or two, and none is filled in. -/
theorem Aliased.readsExactly (form : Form) (hform : form.maxTokens = 2) :
    ReadsExactly 2 (read form) text id := by
  have hread (raw : String) : read form raw =
      (form.tokens raw).map fun tokens => ⟨tokens.headD "", tokens[1]?⟩ := by
    unfold read
    cases form.tokens raw <;> rfl
  rw [← hform]
  refine .of_decode hread fun raw tokens h => ⟨?_, rfl⟩
  -- Nothing is filled in, so what is written is the text itself.
  have hlength := hform ▸ h.length_le
  have htext : text ⟨tokens.headD "", tokens[1]?⟩ = raw := by
    rw [← h.eq_raw]
    match tokens, h.ne_nil, hlength with
    | [_], _, _ => rfl
    | [_, _], _, _ => rfl
  rw [htext]
  exact h

/-! ### Conditions -/

namespace Operand

/-- The marker of an operand with its wildcards. -/
def written (operand : Operand) : String :=
  (if operand.wildcardBefore then "*" else "") ++ operand.marker ++
    (if operand.wildcardAfter then "*" else "")

/-- What a marker may be: one of four placeholders, of which the wildcards are taken off, or a
literal, of which nothing is. -/
theorem ofMarker_cases (marker : String) :
    (∃ before after, ofMarker marker = .bound before after ∧
      (bound before after).written = marker ∧ marker ∈ ["?", "*?", "?*", "*?*"]) ∨
    (ofMarker marker = .literal marker ∧ marker ∉ ["?", "*?", "?*", "*?*"]) := by
  -- The four placeholders one by one. Anything else is no placeholder, whatever it begins or ends
  -- with.
  by_cases hmem : marker ∈ ["?", "*?", "?*", "*?*"]
  · refine .inl ?_
    rcases List.mem_cons.mp hmem with rfl | hrest
    · exact ⟨false, false, rfl, by decide, hmem⟩
    rcases List.mem_cons.mp hrest with rfl | hrest
    · exact ⟨true, false, rfl, by decide, hmem⟩
    rcases List.mem_cons.mp hrest with rfl | hrest
    · exact ⟨false, true, rfl, by decide, hmem⟩
    obtain rfl := List.mem_singleton.mp hrest
    exact ⟨true, true, rfl, by decide, hmem⟩
  · refine .inr ⟨?_, hmem⟩
    simp only [List.mem_cons, List.not_mem_nil, or_false, not_or] at hmem
    obtain ⟨hplain, hbefore, hafter, hboth⟩ := hmem
    rw [ofMarker, if_neg hplain, if_neg hbefore, if_neg hafter, if_neg hboth]

/-- The wildcards that were taken off a marker are put on again. -/
theorem written_ofMarker (marker : String) : (ofMarker marker).written = marker := by
  rcases ofMarker_cases marker with ⟨before, after, h, hwritten, -⟩ | ⟨h, -⟩
  · rw [h, hwritten]
  · rw [h]
    exact String.append_empty.trans String.empty_append

/-- The markers that a value is bound to. -/
theorem isBound_ofMarker_iff (marker : String) :
    (ofMarker marker).isBound = true ↔ marker ∈ ["?", "*?", "?*", "*?*"] := by
  rcases ofMarker_cases marker with ⟨before, after, h, -, hmem⟩ | ⟨h, hmem⟩
  · rw [h]
    exact iff_of_true rfl hmem
  · rw [h]
    exact iff_of_false Bool.false_ne_true hmem

end Operand

namespace Comparison

/-- A condition as it is written in full. -/
def text (c : Comparison) : String :=
  " ".intercalate [c.field, c.operator, c.operand.written]

/-- The tokens of a condition with the operator and the marker that were left out. -/
def complete (tokens : List String) : List String :=
  tokens ++ ["=", "?"].drop (tokens.length - 1)

/-- The condition that tokens stand for. -/
def ofTokens (tokens : List String) : Comparison where
  field := tokens.headD ""
  operator := tokens[1]?.getD defaultOperator
  operand := .ofMarker (tokens[2]?.getD defaultMarker)

/-- Reading a condition is decoding its tokens. -/
theorem read_eq_map (raw : String) : read raw = (Form.condition.tokens raw).map ofTokens := by
  unfold read
  cases Form.condition.tokens raw <;> rfl

/-- A condition of tokens is written with all three. -/
theorem text_ofTokens {tokens : List String} (hne : tokens ≠ []) (hlength : tokens.length ≤ 3) :
    (ofTokens tokens).text = " ".intercalate (complete tokens) := by
  match tokens, hne, hlength with
  | [_], _, _ => rw [text, ofTokens, Operand.written_ofMarker]; rfl
  | [_, _], _, _ => rw [text, ofTokens, Operand.written_ofMarker]; rfl
  | [_, _, _], _, _ => rw [text, ofTokens, Operand.written_ofMarker]; rfl

/-- What was left out is decoded as it is filled in. -/
theorem ofTokens_complete {tokens : List String} (hne : tokens ≠ []) (hlength : tokens.length ≤ 3) :
    ofTokens (complete tokens) = ofTokens tokens := by
  match tokens, hne, hlength with
  | [_], _, _ => rfl
  | [_, _], _, _ => rfl
  | [_, _, _], _, _ => rfl

/-- A condition has one to three tokens, and the last two are filled in. -/
theorem readsExactly : ReadsExactly 3 read text complete := by
  change ReadsExactly Form.condition.maxTokens read text complete
  refine .of_decode read_eq_map fun raw tokens h => ?_
  have hlength : tokens.length ≤ 3 := h.length_le
  have hpos : 0 < tokens.length := List.length_pos_iff.mpr h.ne_nil
  refine ⟨⟨?_, ?_, ?_, (text_ofTokens h.ne_nil hlength).symm⟩, ofTokens_complete h.ne_nil hlength⟩
  · exact List.append_ne_nil_of_left_ne_nil h.ne_nil _
  · change (complete tokens).length ≤ 3
    rw [complete, List.length_append, List.length_drop]
    change tokens.length + (2 - (tokens.length - 1)) ≤ 3
    omega
  · intro token htoken
    rcases List.mem_append.mp htoken with htoken | htoken
    · exact h.solid token htoken
    · -- What is filled in are the default operator and the default marker.
      have hdefaults : ∀ x ∈ ["=", "?"], Text.Solid x := by
        intro x hx
        rcases List.mem_cons.mp hx with rfl | hx
        · exact ⟨by decide, by decide⟩
        · obtain rfl := List.mem_singleton.mp hx
          exact ⟨by decide, by decide⟩
      exact hdefaults token (List.mem_of_mem_drop htoken)

/-- A value is bound to a condition unless its third token is another text than the markers. -/
theorem isBound_iff {raw : String} {c : Comparison} {tokens : List String} (h : read raw = .ok c)
    (htokens : Text.Spaced 3 raw tokens) :
    c.operand.isBound = true ↔ ∀ marker ∈ tokens[2]?, marker ∈ ["?", "*?", "?*", "*?*"] := by
  have hok : Form.condition.tokens raw = .ok tokens := Form.tokens_eq_ok_iff.mpr htokens
  have hread : read raw = .ok (ofTokens tokens) := by
    rw [read_eq_map, hok]
    rfl
  obtain rfl := Except.ok.inj (h.symm.trans hread)
  change (Operand.ofMarker (tokens[2]?.getD defaultMarker)).isBound = true ↔ _
  cases tokens[2]? with
  | none => exact iff_of_true rfl nofun
  | some marker =>
    rw [Option.getD_some, Operand.isBound_ofMarker_iff]
    exact ⟨fun hmem x hx => Option.mem_some.mp hx ▸ hmem, fun hall => hall marker rfl⟩

end Comparison

/-- **The readers are exact.** A condition is one token to three, of which the operator and the
marker may be left out, and a value is bound to it exactly if the marker is left out or one of the
four placeholders; a field or a source is one token or two. -/
theorem Form.readers_exact :
    ReadsExactly 3 Comparison.read Comparison.text
      (fun tokens => tokens ++ ["=", "?"].drop (tokens.length - 1)) ∧
    (∀ raw c tokens, Comparison.read raw = .ok c → Text.Spaced 3 raw tokens →
      (c.operand.isBound = true ↔ ∀ marker ∈ tokens[2]?, marker ∈ ["?", "*?", "?*", "*?*"])) ∧
    ReadsExactly 2 (Aliased.read .field) Aliased.text id ∧
    ReadsExactly 2 (Aliased.read .source) Aliased.text id :=
  ⟨Comparison.readsExactly, fun _ _ _ => Comparison.isBound_iff, Aliased.readsExactly .field rfl,
    Aliased.readsExactly .source rfl⟩

/-- A condition without its marker is written with one; a marker that only looks like a wildcard is
written as it was, and no value is bound to it. -/
theorem Form.readers_exact_age :
    Comparison.read "age >" = .ok ⟨"age", ">", .bound false false⟩ ∧
    Comparison.text ⟨"age", ">", .bound false false⟩ = "age > ?" ∧
    Comparison.read "age > **?" = .ok ⟨"age", ">", .literal "**?"⟩ ∧
    Comparison.text ⟨"age", ">", .literal "**?"⟩ = "age > **?" ∧
    (Operand.literal "**?").isBound ≠ true := by
  have hage : Comparison.read "age >" = .ok ⟨"age", ">", .bound false false⟩ := by rfl
  have hstars : Comparison.read "age > **?" = .ok ⟨"age", ">", .literal "**?"⟩ := by rfl
  have hageTokens : Text.Spaced 3 "age >" ["age", ">"] := by
    refine ⟨by decide, by decide, ?_, by decide⟩
    simp [Text.Solid]
  have hstarsTokens : Text.Spaced 3 "age > **?" ["age", ">", "**?"] := by
    refine ⟨by decide, by decide, ?_, by decide⟩
    simp [Text.Solid]
  obtain ⟨⟨-, -, hwrite, -⟩, hbound, -⟩ := Form.readers_exact
  refine ⟨hage, hwrite _ _ _ hage hageTokens, hstars, hwrite _ _ _ hstars hstarsTokens, ?_⟩
  intro h
  have hmarker := (hbound _ _ _ hstars hstarsTokens).mp h "**?" rfl
  exact absurd hmarker (by decide)

end SqlBuilder
