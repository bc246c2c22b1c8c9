import SqlBuilder.Proofs.Compile.Unquote
import SqlBuilder.Value

/-!
# Reading a literal back

A text, a document or octets as an SQL literal can be read back. A string literal is a body between
apostrophes. In the body each apostrophe stands twice (`Text.Paired`), and a list of characters is
such a body exactly if it is what doubling makes of another (`Text.Paired.doubled_undoubled`); so
undoubling is read off the body alone, however many apostrophes stand next to each other or at the
ends. A literal of octets has no apostrophe between its own: its body is hexadecimal digits, which
writing and reading turn into octets and back (`Text.ofHexOctets?_eq_some_iff`).

Main statement, at the end: the literal of a value is the only text of its form that is read as the
value, and so values of one of these kinds have the same literal only if they are the same; of
documents, if their compact texts are (`Value.eq_literal_iff`).
-/

namespace SqlBuilder

namespace Text

/-! ### Doubled characters -/

/-- Every `q` stands twice. -/
inductive Paired (q : Char) : List Char → Prop
  | nil : Paired q []
  | both {cs : List Char} (h : Paired q cs) : Paired q (q :: q :: cs)
  | other {c : Char} {cs : List Char} (hc : c ≠ q) (h : Paired q cs) : Paired q (c :: cs)

variable {q : Char}

/-- Doubling makes a body in which every `q` stands twice. -/
theorem paired_doubled (q : Char) (cs : List Char) : Paired q (doubled q cs) := by
  induction cs with
  | nil => exact .nil
  | cons c cs ih =>
    rw [doubled]
    split
    · exact .both ih
    · next hc => exact .other hc ih

/-- Doubling undoes undoubling, if every `q` stands twice. -/
theorem Paired.doubled_undoubled {body : List Char} (h : Paired q body) :
    doubled q (undoubled q body) = body := by
  induction h with
  | nil => rfl
  | both _ ih => rw [undoubled, if_pos ⟨rfl, rfl⟩, doubled, if_pos rfl, ih]
  | other hc _ ih => rw [undoubled_cons_of_ne hc, doubled, if_neg hc, ih]

/-- **Undoubling has one solution** among the bodies in which every `q` stands twice. -/
theorem paired_and_undoubled_eq_iff {body cs : List Char} :
    Paired q body ∧ undoubled q body = cs ↔ body = doubled q cs := by
  -- Each of the two operations undoes the other, on these bodies and on all texts.
  constructor
  · rintro ⟨hpaired, rfl⟩
    exact hpaired.doubled_undoubled.symm
  · rintro rfl
    exact ⟨paired_doubled q cs, undoubled_doubled q cs⟩

/-- Where there is no `q`, nothing is doubled. -/
theorem doubled_of_notMem {cs : List Char} (h : q ∉ cs) : doubled q cs = cs := by
  induction cs with
  | nil => rfl
  | cons c cs ih =>
    obtain ⟨hc, hcs⟩ := List.ne_and_not_mem_of_not_mem_cons h
    rw [doubled, if_neg hc.symm, ih hcs]

/-! ### Hexadecimal digits -/

/-- The digits of base sixteen with capital letters. -/
def capitalDigits : List Char :=
  "0123456789ABCDEF".toList

/-- The capital digits are those that numbers below sixteen are written with. -/
theorem mem_capitalDigits_iff {c : Char} :
    c ∈ capitalDigits ↔ ∃ n < 16, hexDigit .upper n = c := by
  have hdigits : capitalDigits = (List.range 16).map (hexDigit .upper) := by decide
  rw [hdigits, List.mem_map]
  simp only [List.mem_range]

/-- An octet is written as its higher half and its lower half. -/
theorem hexOctets_cons (letters : HexCase) (b : UInt8) (bs : List UInt8) :
    hexOctets letters (b :: bs) =
      hexDigit letters (b.toNat / 16 % 16) :: hexDigit letters (b.toNat % 16) ::
        hexOctets letters bs :=
  rfl

/-- Two digits are read as one octet. -/
theorem ofHexOctets?_cons_cons (letters : HexCase) {a b : Nat} (ha : a < 16) (hb : b < 16)
    (cs : List Char) :
    ofHexOctets? (hexDigit letters a :: hexDigit letters b :: cs) =
      (ofHexOctets? cs).map (UInt8.ofNat (16 * a + b) :: ·) := by
  have hpair : ofHexDigits? [hexDigit letters a, hexDigit letters b] = some (16 * a + b) := by
    simp only [ofHexDigits?, List.foldlM_cons, List.foldlM_nil, hexValue?_hexDigit letters a ha,
      hexValue?_hexDigit letters b hb, Option.map_some, Option.bind_eq_bind, Option.bind_some,
      Option.pure_def, Nat.mul_zero, Nat.zero_add]
  rw [ofHexOctets?, hpair, Option.map_eq_bind]
  rfl

/-- Octets are read as they were written, whatever letters the digits have. -/
theorem ofHexOctets?_hexOctets (letters : HexCase) (octets : List UInt8) :
    ofHexOctets? (hexOctets letters octets) = some octets := by
  induction octets with
  | nil => rfl
  | cons b bs ih =>
    have hb : b.toNat < 256 := b.toNat_lt
    -- The halves of an octet are its quotient and its remainder by sixteen.
    have hvalue : 16 * (b.toNat / 16 % 16) + b.toNat % 16 = b.toNat := by omega
    rw [hexOctets_cons, ofHexOctets?_cons_cons letters (Nat.mod_lt _ (by decide))
      (Nat.mod_lt _ (by decide)), hvalue, ih, UInt8.ofNat_toNat]
    rfl

/-- Digits with capital letters are written again as they were read. -/
theorem hexOctets_of_ofHexOctets? {digits : List Char} {octets : List UInt8}
    (hdigits : ∀ c ∈ digits, c ∈ capitalDigits) (h : ofHexOctets? digits = some octets) :
    hexOctets .upper octets = digits := by
  -- Two digits at a time, as they are read; an odd number of them is refused.
  induction digits using ofHexOctets?.induct generalizing octets with
  | case1 =>
    obtain rfl := Option.some.inj h
    rfl
  | case2 => cases h
  | case3 hi lo cs ih =>
    rw [List.forall_mem_cons, List.forall_mem_cons] at hdigits
    obtain ⟨hhi, hlo, hcs⟩ := hdigits
    obtain ⟨a, ha, rfl⟩ := mem_capitalDigits_iff.mp hhi
    obtain ⟨b, hb, rfl⟩ := mem_capitalDigits_iff.mp hlo
    rw [ofHexOctets?_cons_cons .upper ha hb] at h
    obtain ⟨bs, hbs, rfl⟩ := Option.map_eq_some_iff.mp h
    -- The two digits of the octet are the ones that it was read from.
    have hvalue : (UInt8.ofNat (16 * a + b)).toNat = 16 * a + b :=
      UInt8.toNat_ofNat_of_lt (by change _ < 256; omega)
    have hhigh : (16 * a + b) / 16 % 16 = a := by omega
    have hlow : (16 * a + b) % 16 = b := by omega
    rw [hexOctets_cons, hvalue, hhigh, hlow, ih hcs hbs]

/-- Octets in capital letters are written with no other digits. -/
theorem mem_capitalDigits_of_mem_hexOctets {c : Char} {octets : List UInt8}
    (h : c ∈ hexOctets .upper octets) : c ∈ capitalDigits := by
  induction octets with
  | nil => cases h
  | cons b bs ih =>
    rw [hexOctets_cons, List.mem_cons, List.mem_cons] at h
    rcases h with rfl | rfl | h
    · exact mem_capitalDigits_iff.mpr ⟨_, Nat.mod_lt _ (by decide), rfl⟩
    · exact mem_capitalDigits_iff.mpr ⟨_, Nat.mod_lt _ (by decide), rfl⟩
    · exact ih h

/-- An octet takes two digits. -/
theorem length_hexOctets (letters : HexCase) (octets : List UInt8) :
    (hexOctets letters octets).length = 2 * octets.length := by
  induction octets with
  | nil => rfl
  | cons b bs ih =>
    rw [hexOctets_cons, List.length_cons, List.length_cons, List.length_cons, ih]
    omega

/-- **Reading octets has one solution** among the digits with capital letters. -/
theorem ofHexOctets?_eq_some_iff {digits : List Char} {octets : List UInt8} :
    (∀ c ∈ digits, c ∈ capitalDigits) ∧ ofHexOctets? digits = some octets ↔
      digits = hexOctets .upper octets := by
  constructor
  · rintro ⟨hdigits, h⟩
    exact (hexOctets_of_ofHexOctets? hdigits h).symm
  · rintro rfl
    exact ⟨fun c => mem_capitalDigits_of_mem_hexOctets, ofHexOctets?_hexOctets .upper octets⟩

end Text

open Text

/-! ### Literals -/

namespace Value

/-- The text is a string literal that is read as `s`: a body between apostrophes, in which every
apostrophe stands twice, and which is `s` when such a pair is read once. -/
def ReadsAsText (text s : String) : Prop :=
  ∃ body, text.toList = '\x27' :: (body ++ ['\x27']) ∧ Paired '\x27' body ∧
    undoubled '\x27' body = s.toList

/-- The text is a literal that is read as octets: an `X` and, between apostrophes, two digits for
each octet. -/
def ReadsAsOctets (text : String) (octets : List UInt8) : Prop :=
  ∃ digits, text.toList = 'X' :: '\x27' :: (digits ++ ['\x27']) ∧
    digits.length = 2 * octets.length ∧ (∀ c ∈ digits, c ∈ capitalDigits) ∧
    ofHexOctets? digits = some octets

/-- A text is read from its literal and from nothing else. -/
theorem readsAsText_iff {text s : String} : ReadsAsText text s ↔ text = quoteLiteral s := by
  rw [← String.toList_inj, quoteLiteral, toList_enclose]
  constructor
  · rintro ⟨body, htext, hbody⟩
    rw [htext, paired_and_undoubled_eq_iff.mp hbody]
  · intro htext
    exact ⟨doubled '\x27' s.toList, htext, paired_and_undoubled_eq_iff.mpr rfl⟩

/-- The characters of a literal of octets. -/
theorem toList_literal_bytes (octets : List UInt8) :
    (literal (.bytes octets)).toList = 'X' :: '\x27' :: (hexOctets .upper octets ++ ['\x27']) := by
  -- The digits are quoted as a text would be, but there is no apostrophe to double.
  have hfree : '\x27' ∉ hexOctets .upper octets := fun hmem =>
    absurd (mem_capitalDigits_of_mem_hexOctets hmem) (by decide)
  have hbody : (quoteLiteral (String.ofList (hexOctets .upper octets))).toList =
      '\x27' :: (hexOctets .upper octets ++ ['\x27']) := by
    rw [quoteLiteral, toList_enclose, String.toList_ofList, doubled_of_notMem hfree]
  rw [literal, String.toList_append, hbody]
  rfl

/-- Octets are read from their literal and from nothing else. -/
theorem readsAsOctets_iff {text : String} {octets : List UInt8} :
    ReadsAsOctets text octets ↔ text = literal (.bytes octets) := by
  rw [← String.toList_inj, toList_literal_bytes]
  constructor
  -- The length follows from the other two conditions.
  · rintro ⟨digits, htext, -, hdigits⟩
    rw [htext, ofHexOctets?_eq_some_iff.mp hdigits]
  · intro htext
    obtain ⟨hcapital, hback⟩ := ofHexOctets?_eq_some_iff.mpr (rfl : hexOctets .upper octets = _)
    exact ⟨hexOctets .upper octets, htext, length_hexOctets .upper octets, hcapital, hback⟩

/-- A text can be told from its literal. -/
theorem quoteLiteral_injective : Function.Injective quoteLiteral := by
  have hback : Function.LeftInverse (disclose '\x27') quoteLiteral := disclose_enclose '\x27'
  exact hback.injective

/-- So can octets. -/
theorem literal_bytes_injective : Function.Injective fun octets => literal (.bytes octets) := by
  intro octets others h
  have hchars := congrArg String.toList h
  rw [toList_literal_bytes, toList_literal_bytes] at hchars
  -- The digits are what stands between the same first and last characters.
  have hdigits : hexOctets .upper octets = hexOctets .upper others :=
    List.append_cancel_right (List.cons.inj (List.cons.inj hchars).2).2
  have hback := ofHexOctets?_hexOctets .upper octets
  rw [hdigits, ofHexOctets?_hexOctets] at hback
  exact (Option.some.inj hback).symm

/-- **Literals can be read back.** The literal of a text, of a document or of octets is the only one
of its form that is read as that text, as the compact text of the document, or as those octets. To a
database the first two are one lexeme. And no two texts have the same literal, no two lists of
octets, and no two documents but those with the same compact text. -/
theorem eq_literal_iff :
    (∀ s text, text = literal (.text s) ↔ ReadsAsText text s) ∧
    (∀ document text, text = literal (.json document) ↔ ReadsAsText text document.compact) ∧
    (∀ octets text, text = literal (.bytes octets) ↔ ReadsAsOctets text octets) ∧
    (∀ q s, Lexeme.scan q (literal (.text s)).toList = [.quoted '\x27' s.toList]) ∧
    (∀ q document, Lexeme.scan q (literal (.json document)).toList =
      [.quoted '\x27' document.compact.toList]) ∧
    (∀ s t, literal (.text s) = literal (.text t) ↔ s = t) ∧
    (∀ a b, literal (.json a) = literal (.json b) ↔ a.compact = b.compact) ∧
    ∀ octets others, literal (.bytes octets) = literal (.bytes others) ↔ octets = others := by
  refine ⟨fun s text => readsAsText_iff.symm, fun document text => readsAsText_iff.symm,
    fun octets text => readsAsOctets_iff.symm, fun q s => Lexeme.scan_enclose (.inr rfl) s,
    fun q document => Lexeme.scan_enclose (.inr rfl) document.compact, fun s t => ?_, fun a b => ?_,
    fun octets others => literal_bytes_injective.eq_iff⟩
  · exact quoteLiteral_injective.eq_iff
  · exact quoteLiteral_injective.eq_iff

example : literal (.text "'a''") = "'''a'''''" ∧ literal (.bytes [0, 171]) = "X'00AB'" := by decide

end Value

end SqlBuilder
