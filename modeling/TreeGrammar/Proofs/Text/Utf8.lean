/-
# TreeGrammar.Proofs.Text.Utf8 -- reading octets back

Decoding reads octet by octet, so it is compared with encoding one character at a time.  `Form`
lists what the octets of a character are: they are those that the character is encoded in
(`form_iff`), and the reader takes exactly such octets from the front (`firstChar?_eq_some_iff`).
So a text is decoded from its encoding and from no other octets (`decode_eq_ok_iff`), and where
the octets encode no text, the place that is reported is the end of the longest text that they
begin with (`decode_of_unreadable`).
-/
import TreeGrammar.Text.Utf8

set_option autoImplicit false

namespace TreeGrammar.Text

namespace Utf8

/-! ## The octets of one character -/

/-- An octet behind the first one of a character. -/
abbrev Tail (octet : UInt8) : Prop :=
  0x80 ≤ octet.toNat ∧ octet.toNat ≤ 0xBF

/-- The octets of a character, and its number.  The second octet is bounded further where there is
a shorter form, where the number is that of a surrogate and where it is too large. -/
inductive Form : Octets → Nat → Prop
  | one {a : UInt8} {n : Nat} (upper : a.toNat < 0x80) (number : n = a.toNat) : Form [a] n
  | two {a b : UInt8} {n : Nat} (lower : 0xC2 ≤ a.toNat) (upper : a.toNat < 0xE0) (last : Tail b)
      (number : n = (a.toNat - 0xC0) * 64 + (b.toNat - 0x80)) : Form [a, b] n
  | three {a b c : UInt8} {n : Nat} (lower : 0xE0 ≤ a.toNat) (upper : a.toNat < 0xF0)
      (second : Tail b) (least : a.toNat = 0xE0 → 0xA0 ≤ b.toNat)
      (most : a.toNat = 0xED → b.toNat ≤ 0x9F) (last : Tail c)
      (number : n = ((a.toNat - 0xE0) * 64 + (b.toNat - 0x80)) * 64 + (c.toNat - 0x80)) :
      Form [a, b, c] n
  | four {a b c d : UInt8} {n : Nat} (lower : 0xF0 ≤ a.toNat) (upper : a.toNat < 0xF5)
      (second : Tail b) (least : a.toNat = 0xF0 → 0x90 ≤ b.toNat)
      (most : a.toNat = 0xF4 → b.toNat ≤ 0x8F) (third : Tail c) (last : Tail d)
      (number : n = (((a.toNat - 0xF0) * 64 + (b.toNat - 0x80)) * 64 + (c.toNat - 0x80)) * 64 +
        (d.toNat - 0x80)) : Form [a, b, c, d] n

theorem toNat_ofNat {n : Nat} (valid : n.isValidChar) : (Char.ofNat n).toNat = n := by
  rw [Char.ofNat, dif_pos valid]
  rfl

theorem ofNat_eq_iff {octet : UInt8} {n : Nat} :
    UInt8.ofNat n = octet ↔ n % 256 = octet.toNat := by
  rw [← UInt8.toNat_inj, UInt8.toNat_ofNat']

theorem Form.isValidChar {octets : Octets} {n : Nat} (form : Form octets n) : n.isValidChar := by
  unfold Nat.isValidChar
  cases form with
  | one upper number => omega
  | two lower upper last number =>
      omega
  | three lower upper second least most last number =>
      omega
  | four lower upper second least most third last number =>
      omega

/-- Octets in one of the forms are the encoding of their character. -/
theorem Form.encode {octets : Octets} {n : Nat} (form : Form octets n) :
    String.utf8EncodeChar (Char.ofNat n) = octets := by
  have same : (Char.ofNat n).val.toNat = n := toNat_ofNat form.isValidChar
  unfold String.utf8EncodeChar
  simp only [same]
  cases form with
  | one upper number =>
      rw [if_pos (by omega)]
      simp only [List.cons.injEq, and_true, ofNat_eq_iff]
      omega
  | two lower upper last number =>
      rw [if_neg (by omega), if_pos (by omega)]
      simp only [List.cons.injEq, and_true, ofNat_eq_iff]
      omega
  | three lower upper second least most last number =>
      rw [if_neg (by omega), if_neg (by omega), if_pos (by omega)]
      simp only [List.cons.injEq, and_true, ofNat_eq_iff]
      omega
  | four lower upper second least most third last number =>
      rw [if_neg (by omega), if_neg (by omega), if_neg (by omega)]
      simp only [List.cons.injEq, and_true, ofNat_eq_iff]
      omega

/-- Every character is encoded in one of the forms. -/
theorem form_encode (c : Char) : Form (String.utf8EncodeChar c) c.toNat := by
  have valid : c.toNat < 0xD800 ∨ 0xDFFF < c.toNat ∧ c.toNat < 0x110000 := c.valid
  have same : c.val.toNat = c.toNat := rfl
  unfold String.utf8EncodeChar
  simp only [same]
  generalize c.toNat = n at valid
  have octet : ∀ {m : Nat}, m < 256 → (UInt8.ofNat m).toNat = m := by
    intro m small
    rw [UInt8.toNat_ofNat']
    omega
  by_cases one : n ≤ 0x7F
  · have a := octet (m := n) (by omega)
    rw [if_pos one]
    apply Form.one <;> omega
  by_cases two : n ≤ 0x7FF
  · have a := octet (m := n / 64 % 32 + 192) (by omega)
    have b := octet (m := n % 64 + 128) (by omega)
    rw [if_neg one, if_pos two]
    apply Form.two <;> omega
  have c := octet (m := n / 64 % 64 + 128) (by omega)
  have d := octet (m := n % 64 + 128) (by omega)
  by_cases three : n ≤ 0xFFFF
  · have a := octet (m := n / 4096 % 16 + 224) (by omega)
    rw [if_neg one, if_neg two, if_pos three]
    apply Form.three <;> omega
  · have a := octet (m := n / 262144 % 8 + 240) (by omega)
    have b := octet (m := n / 4096 % 64 + 128) (by omega)
    rw [if_neg one, if_neg two, if_neg three]
    apply Form.four <;> omega

/-- **The forms are the encodings.** -/
theorem form_iff {octets : Octets} {c : Char} :
    Form octets c.toNat ↔ octets = String.utf8EncodeChar c := by
  constructor
  · intro form
    rw [← form.encode, Char.ofNat_toNat]
  · rintro rfl
    exact form_encode c

/-- The octet of a line feed stands in no other character. -/
theorem Form.count_lineFeed {octets : Octets} {n : Nat} (form : Form octets n) :
    octets.count 10 = if n = 10 then 1 else 0 := by
  have other : ∀ {octet : UInt8}, 0x80 ≤ octet.toNat → octet ≠ 10 := by
    rintro octet large rfl
    exact absurd large (by decide)
  cases form with
  | @one a n upper number =>
      have same : a = 10 ↔ n = 10 := by
        rw [number, ← UInt8.toNat_inj]
        rfl
      rw [List.count_singleton]
      simp only [beq_iff_eq, same]
  | two lower upper last number =>
      rw [if_neg (by omega), List.count_eq_zero]
      simp only [List.mem_cons, List.not_mem_nil, or_false, not_or]
      exact ⟨(other (by omega)).symm, (other last.1).symm⟩
  | three lower upper second least most last number =>
      rw [if_neg (by omega), List.count_eq_zero]
      simp only [List.mem_cons, List.not_mem_nil, or_false, not_or]
      exact ⟨(other (by omega)).symm, (other second.1).symm, (other last.1).symm⟩
  | four lower upper second least most third last number =>
      rw [if_neg (by omega), List.count_eq_zero]
      simp only [List.mem_cons, List.not_mem_nil, or_false, not_or]
      exact ⟨(other (by omega)).symm, (other second.1).symm, (other third.1).symm,
        (other last.1).symm⟩

/-! ## The reader of one character -/

/-- What one more octet leads to, between characters or in a character begun. -/
def reading : Option Pending → UInt8 → Reading
  | none, octet => opening octet
  | some begun, octet => begun.feed octet

/-- The character that the octets begin with or, if one is begun, end it with, and the octets
behind it. -/
def firstChar? : Option Pending → Octets → Option (Char × Octets)
  | _, [] => none
  | begun, octet :: rest =>
      match reading begun octet with
      | .complete c => some (c, rest)
      | .pending more => firstChar? (some more) rest
      | .invalid => none

section Reader

variable {octets rest : Octets} {c : Char}

/-- A character begun takes one more octet, which ends it if no other is due. -/
theorem firstChar?_begun {begun : Pending} :
    firstChar? (some begun) octets = some (c, rest) ↔
      ∃ (b : UInt8) (more : Octets), octets = b :: more ∧
        (begun.low ≤ b.toNat ∧ b.toNat ≤ begun.high) ∧
          if begun.due = 1 then
            c = Char.ofNat (begun.value * 64 + (b.toNat - 0x80)) ∧ rest = more
          else
            firstChar? (some ⟨begun.value * 64 + (b.toNat - 0x80), begun.due - 1, 0x80, 0xBF⟩)
              more = some (c, rest) := by
  cases octets with
  | nil =>
      constructor
      · intro found
        cases found
      · rintro ⟨b, more, same, -⟩
        cases same
  | cons b more =>
      simp only [List.cons.injEq, and_assoc, exists_and_left, exists_eq_left']
      rw [← and_assoc, firstChar?, reading, Pending.feed]
      by_cases within : begun.low ≤ b.toNat ∧ b.toNat ≤ begun.high
      · rw [if_pos within, and_iff_right within]
        by_cases last : begun.due = 1
        · rw [if_pos last, if_pos last]
          simp [eq_comm]
        · rw [if_neg last, if_neg last]
      · rw [if_neg within]
        constructor
        · intro found
          cases found
        · intro found
          exact absurd found.1 within

/-- The last octet of a character. -/
theorem firstChar?_last {value low high : Nat} :
    firstChar? (some ⟨value, 1, low, high⟩) octets = some (c, rest) ↔
      ∃ b : UInt8, octets = b :: rest ∧ (low ≤ b.toNat ∧ b.toNat ≤ high) ∧
        c = Char.ofNat (value * 64 + (b.toNat - 0x80)) := by
  rw [firstChar?_begun]
  simp only [if_true]
  constructor
  · rintro ⟨b, more, rfl, within, ends, rfl⟩
    exact ⟨b, rfl, within, ends⟩
  · rintro ⟨b, rfl, within, ends⟩
    exact ⟨b, rest, rfl, within, ends, rfl⟩

/-- An octet behind which others are due. -/
theorem firstChar?_more {value due low high : Nat} (others : due ≠ 1) :
    firstChar? (some ⟨value, due, low, high⟩) octets = some (c, rest) ↔
      ∃ (b : UInt8) (more : Octets), octets = b :: more ∧ (low ≤ b.toNat ∧ b.toNat ≤ high) ∧
        firstChar? (some ⟨value * 64 + (b.toNat - 0x80), due - 1, 0x80, 0xBF⟩) more =
          some (c, rest) := by
  rw [firstChar?_begun]
  simp only [others, if_false]

section Opening

variable {a : UInt8}

theorem opening_one (upper : a.toNat < 0x80) : opening a = .complete (Char.ofNat a.toNat) := by
  unfold opening
  simp only
  rw [if_pos upper]

theorem opening_two (lower : 0xC2 ≤ a.toNat) (upper : a.toNat < 0xE0) :
    opening a = .pending ⟨a.toNat - 0xC0, 1, 0x80, 0xBF⟩ := by
  unfold opening
  simp only
  rw [if_neg (by omega), if_neg (by omega), if_pos upper]

theorem opening_three (lower : 0xE0 ≤ a.toNat) (upper : a.toNat < 0xF0) :
    opening a = .pending ⟨a.toNat - 0xE0, 2, if a.toNat = 0xE0 then 0xA0 else 0x80,
      if a.toNat = 0xED then 0x9F else 0xBF⟩ := by
  unfold opening
  simp only
  rw [if_neg (by omega), if_neg (by omega), if_neg (by omega), if_pos upper]

theorem opening_four (lower : 0xF0 ≤ a.toNat) (upper : a.toNat < 0xF5) :
    opening a = .pending ⟨a.toNat - 0xF0, 3, if a.toNat = 0xF0 then 0x90 else 0x80,
      if a.toNat = 0xF4 then 0x8F else 0xBF⟩ := by
  unfold opening
  simp only
  rw [if_neg (by omega), if_neg (by omega), if_neg (by omega), if_neg (by omega), if_pos upper]

theorem opening_invalid (outside : 0x80 ≤ a.toNat ∧ a.toNat < 0xC2 ∨ 0xF5 ≤ a.toNat) :
    opening a = .invalid := by
  unfold opening
  simp only
  rw [if_neg (by omega)]
  rcases outside with ⟨lower, upper⟩ | lower
  · rw [if_pos upper]
  · rw [if_neg (by omega), if_neg (by omega), if_neg (by omega), if_neg (by omega)]

end Opening

/-- The bounds of a second octet that depend on the first one. -/
theorem bounded_iff {a b first last low high : Nat} (lower : 0x80 ≤ low) (upper : high ≤ 0xBF) :
    ((if a = first then low else 0x80) ≤ b ∧ b ≤ if a = last then high else 0xBF) ↔
      (0x80 ≤ b ∧ b ≤ 0xBF) ∧ (a = first → low ≤ b) ∧ (a = last → b ≤ high) := by
  split <;> split <;> omega

/-- What the reader takes from the front is in one of the forms. -/
theorem form_of_firstChar? (found : firstChar? none octets = some (c, rest)) :
    ∃ front, Form front c.toNat ∧ octets = front ++ rest := by
  have whole : ∀ {front : Octets} {n : Nat}, c = Char.ofNat n → Form front n →
      Form front c.toNat := by
    rintro front n rfl form
    rwa [toNat_ofNat form.isValidChar]
  cases octets with
  | nil => cases found
  | cons a more =>
      rw [firstChar?, reading] at found
      by_cases one : a.toNat < 0x80
      · rw [opening_one one] at found
        obtain ⟨rfl, rfl⟩ := Prod.mk.inj (Option.some.inj found)
        exact ⟨[a], whole rfl (.one one rfl), rfl⟩
      by_cases outside : a.toNat < 0xC2 ∨ 0xF5 ≤ a.toNat
      · rw [opening_invalid (by omega)] at found
        cases found
      by_cases two : a.toNat < 0xE0
      · have lower : 0xC2 ≤ a.toNat := by omega
        rw [opening_two lower two] at found
        obtain ⟨b, rfl, last, ends⟩ := firstChar?_last.1 found
        exact ⟨[a, b], whole ends (.two lower two last rfl), rfl⟩
      by_cases three : a.toNat < 0xF0
      · have lower : 0xE0 ≤ a.toNat := by omega
        rw [opening_three lower three] at found
        obtain ⟨b, _, rfl, bounds, found⟩ := (firstChar?_more (by decide)).1 found
        obtain ⟨second, least, most⟩ := (bounded_iff (by decide) (by decide)).1 bounds
        obtain ⟨d, rfl, last, ends⟩ := firstChar?_last.1 found
        exact ⟨[a, b, d], whole ends (.three lower three second least most last rfl), rfl⟩
      · have lower : 0xF0 ≤ a.toNat := by omega
        have upper : a.toNat < 0xF5 := by omega
        rw [opening_four lower upper] at found
        obtain ⟨b, _, rfl, bounds, found⟩ := (firstChar?_more (by decide)).1 found
        obtain ⟨second, least, most⟩ := (bounded_iff (by decide) (by decide)).1 bounds
        obtain ⟨d, _, rfl, third, found⟩ := (firstChar?_more (by decide)).1 found
        obtain ⟨e, rfl, last, ends⟩ := firstChar?_last.1 found
        have form := Form.four lower upper second least most third last rfl
        exact ⟨[a, b, d, e], whole ends form, rfl⟩

/-- Octets in one of the forms are taken from the front. -/
theorem firstChar?_of_form {front : Octets} (form : Form front c.toNat) (rest : Octets) :
    firstChar? none (front ++ rest) = some (c, rest) := by
  have ends : ∀ {n : Nat}, c.toNat = n → c = Char.ofNat n := by
    rintro n rfl
    exact (Char.ofNat_toNat c).symm
  cases form with
  | one upper number =>
      rw [List.singleton_append, firstChar?, reading, opening_one upper, ← ends number]
  | two lower upper last number =>
      rw [List.cons_append, firstChar?, reading, opening_two lower upper]
      exact firstChar?_last.2 ⟨_, rfl, last, ends number⟩
  | three lower upper second least most last number =>
      have bounds := (bounded_iff (by decide) (by decide)).2 ⟨second, least, most⟩
      rw [List.cons_append, firstChar?, reading, opening_three lower upper]
      refine (firstChar?_more (by decide)).2 ⟨_, _, rfl, bounds, ?_⟩
      exact firstChar?_last.2 ⟨_, rfl, last, ends number⟩
  | four lower upper second least most third last number =>
      have bounds := (bounded_iff (by decide) (by decide)).2 ⟨second, least, most⟩
      rw [List.cons_append, firstChar?, reading, opening_four lower upper]
      refine (firstChar?_more (by decide)).2 ⟨_, _, rfl, bounds, ?_⟩
      refine (firstChar?_more (by decide)).2 ⟨_, _, rfl, third, ?_⟩
      exact firstChar?_last.2 ⟨_, rfl, last, ends number⟩

/-- **What the reader takes from the front** is the encoding of a character. -/
theorem firstChar?_eq_some_iff :
    firstChar? none octets = some (c, rest) ↔ octets = String.utf8EncodeChar c ++ rest := by
  constructor
  · intro found
    obtain ⟨front, form, rfl⟩ := form_of_firstChar? found
    rw [form_iff.1 form]
  · rintro rfl
    exact firstChar?_of_form (form_iff.2 rfl) rest

end Reader

/-! ## Whole octet sequences -/

section Decoding

variable {octets rest : Octets} {c : Char} (position : Nat) (begun : Option (Nat × Pending))

/-- Where a character is begun, its place counts, else that of the octet. -/
theorem decodeFrom_cons (octet : UInt8) :
    decodeFrom position begun (octet :: rest) =
      match reading (begun.map Prod.snd) octet with
      | .complete c => (c :: ·) <$> decodeFrom (position + 1) none rest
      | .pending more =>
          decodeFrom (position + 1) (some ((begun.map Prod.fst).getD position, more)) rest
      | .invalid => .error ⟨(begun.map Prod.fst).getD position,
          if begun.isSome then .continuation else .start⟩ := by
  cases begun <;> rfl

/-- A character that is there is decoded, and what is behind it is decoded from there on. -/
theorem decodeFrom_of_found
    (found : firstChar? (begun.map Prod.snd) octets = some (c, rest)) :
    ∃ next, next + rest.length = position + octets.length ∧
      decodeFrom position begun octets = (c :: ·) <$> decodeFrom next none rest := by
  induction octets generalizing position begun with
  | nil => cases found
  | cons octet more ih =>
      rw [decodeFrom_cons]
      rw [firstChar?] at found
      cases read : reading (begun.map Prod.snd) octet with
      | complete d =>
          rw [read] at found
          obtain ⟨rfl, rfl⟩ := Prod.mk.inj (Option.some.inj found)
          refine ⟨position + 1, ?_, rfl⟩
          rw [List.length_cons]
          omega
      | pending longer =>
          rw [read] at found
          obtain ⟨next, behind, decoded⟩ := ih (position + 1)
            (some ((begun.map Prod.fst).getD position, longer)) found
          refine ⟨next, ?_, decoded⟩
          rw [List.length_cons]
          omega
      | invalid =>
          rw [read] at found
          cases found

/-- Where no character is, the place of its first octet is reported. -/
theorem decodeFrom_of_lost
    (lost : firstChar? (begun.map Prod.snd) octets = none)
    (something : begun.isSome ∨ octets ≠ []) :
    ∃ fault, decodeFrom position begun octets =
      .error ⟨(begun.map Prod.fst).getD position, fault⟩ := by
  induction octets generalizing position begun with
  | nil =>
      cases begun with
      | none => simp at something
      | some first => exact ⟨.endOfData, rfl⟩
  | cons octet more ih =>
      rw [decodeFrom_cons]
      rw [firstChar?] at lost
      cases read : reading (begun.map Prod.snd) octet with
      | complete d =>
          rw [read] at lost
          cases lost
      | pending longer =>
          rw [read] at lost
          exact ih (position + 1) (some ((begun.map Prod.fst).getD position, longer)) lost
            (.inl rfl)
      | invalid => exact ⟨_, rfl⟩

end Decoding

end Utf8

/-- The octets begin with the text, and with no longer one: every text that they begin with is its
beginning. -/
structure LongestText (octets : Octets) (text : Text) : Prop where
  begins : encode text <+: octets
  longest : ∀ other, encode other <+: octets → other <+: text

section Whole

variable {octets : Octets} {text other : Text} {c : Char}

theorem LongestText.unique (first : LongestText octets text) (second : LongestText octets other) :
    text = other :=
  (second.longest text first.begins).eq_of_length_le
    (first.longest other second.begins).length_le

theorem encode_cons (c : Char) (text : Text) :
    encode (c :: text) = String.utf8EncodeChar c ++ encode text :=
  rfl

/-- A text and its octets have the same number of line feeds. -/
theorem count_lineFeed (text : Text) : (encode text).count 10 = text.count '\n' := by
  induction text with
  | nil => rfl
  | cons c rest ih =>
      have same : (c == '\n') = true ↔ c.toNat = 10 := by
        rw [beq_iff_eq, ← Char.toNat_inj]
        rfl
      have form : Utf8.Form (String.utf8EncodeChar c) c.toNat := Utf8.form_iff.2 rfl
      rw [encode_cons, List.count_append, ih, form.count_lineFeed, List.count_cons]
      simp only [same, Nat.add_comm]

/-- No character is encoded in the beginning of another one. -/
theorem firstChar_unique {d : Char} {rest more : Octets}
    (same : String.utf8EncodeChar c ++ rest = String.utf8EncodeChar d ++ more) :
    c = d ∧ rest = more := by
  have first : Utf8.firstChar? none (String.utf8EncodeChar d ++ more) = some (c, rest) :=
    Utf8.firstChar?_eq_some_iff.2 same.symm
  have second : Utf8.firstChar? none (String.utf8EncodeChar d ++ more) = some (d, more) :=
    Utf8.firstChar?_eq_some_iff.2 rfl
  exact Prod.mk.inj (Option.some.inj (first.symm.trans second))

theorem longestText_nil (lost : Utf8.firstChar? none octets = none) : LongestText octets [] := by
  constructor
  · exact List.nil_prefix
  · intro other begins
    cases other with
    | nil => exact List.prefix_rfl
    | cons c more =>
        obtain ⟨behind, whole⟩ := begins
        rw [encode_cons, List.append_assoc] at whole
        rw [Utf8.firstChar?_eq_some_iff.2 whole.symm] at lost
        cases lost

theorem LongestText.cons (longest : LongestText octets text) :
    LongestText (String.utf8EncodeChar c ++ octets) (c :: text) := by
  constructor
  · rw [encode_cons, List.prefix_append_right_inj]
    exact longest.begins
  · intro other begins
    cases other with
    | nil => exact List.nil_prefix
    | cons d more =>
        obtain ⟨behind, whole⟩ := begins
        rw [encode_cons, List.append_assoc] at whole
        obtain ⟨rfl, rest⟩ := firstChar_unique whole
        rw [List.cons_prefix_cons]
        exact ⟨rfl, longest.longest more ⟨behind, rest⟩⟩

/-- **What octets are decoded to**: the text that they encode or, if they encode none, the place
where the longest text that they begin with ends. -/
theorem decodeFrom_cases (position : Nat) (octets : Octets) :
    (∃ text, encode text = octets ∧ Utf8.decodeFrom position none octets = .ok text) ∨
      ∃ text fault, LongestText octets text ∧ encode text ≠ octets ∧
        Utf8.decodeFrom position none octets =
          .error ⟨position + (encode text).length, fault⟩ := by
  induction number : octets.length using Nat.strongRecOn generalizing octets position with
  | ind size ih =>
  cases read : Utf8.firstChar? none octets with
  | none =>
      cases octets with
      | nil => exact .inl ⟨[], rfl, rfl⟩
      | cons octet more =>
          obtain ⟨fault, failed⟩ := Utf8.decodeFrom_of_lost position none read
            (.inr (List.cons_ne_nil octet more))
          exact .inr ⟨[], fault, longestText_nil read, (List.cons_ne_nil octet more).symm, failed⟩
  | some found =>
      obtain ⟨c, rest⟩ := found
      obtain ⟨next, behind, decoded⟩ := Utf8.decodeFrom_of_found position none read
      obtain rfl := Utf8.firstChar?_eq_some_iff.1 read
      rw [List.length_append, String.length_utf8EncodeChar] at behind number
      have shorter : rest.length < size := by
        have := c.utf8Size_pos
        omega
      rcases ih rest.length shorter next rest rfl with
        ⟨text, whole, read⟩ | ⟨text, fault, longest, part, failed⟩
      · refine .inl ⟨c :: text, ?_, ?_⟩
        · rw [encode_cons, whole]
        · rw [decoded, read]
          rfl
      · refine .inr ⟨c :: text, fault, longest.cons, ?_, ?_⟩
        · intro whole
          exact part (List.append_cancel_left whole)
        · rw [decoded, failed, encode_cons, List.length_append, String.length_utf8EncodeChar]
          have same : next = position + c.utf8Size := by omega
          rw [same, Nat.add_assoc]
          rfl

theorem decodeFrom_encode (position : Nat) (text : Text) :
    Utf8.decodeFrom position none (encode text) = .ok text := by
  induction text generalizing position with
  | nil => rfl
  | cons c rest ih =>
      have found : Utf8.firstChar? none (encode (c :: rest)) = some (c, encode rest) :=
        Utf8.firstChar?_eq_some_iff.2 (encode_cons c rest)
      obtain ⟨next, -, decoded⟩ := Utf8.decodeFrom_of_found position none found
      rw [decoded, ih]
      rfl

/-- **A text is decoded from its encoding alone.** -/
theorem decode_eq_ok_iff : decode octets = .ok text ↔ encode text = octets := by
  constructor
  · intro decoded
    rcases decodeFrom_cases 0 octets with ⟨other, whole, read⟩ | ⟨_, _, -, -, failed⟩
    · obtain rfl : other = text := Except.ok.inj (read.symm.trans decoded)
      exact whole
    · exact absurd (failed.symm.trans decoded) (by simp)
  · rintro rfl
    exact decodeFrom_encode 0 text

/-- **Where octets encode no text**, the end of the longest text that they begin with is reported. -/
theorem decode_of_unreadable (unreadable : ∀ text, encode text ≠ octets) :
    ∃ text fault, LongestText octets text ∧
      decode octets = .error ⟨(encode text).length, fault⟩ := by
  rcases decodeFrom_cases 0 octets with ⟨text, whole, -⟩ | ⟨text, fault, longest, -, failed⟩
  · exact absurd whole (unreadable text)
  · rw [Nat.zero_add] at failed
    exact ⟨text, fault, longest, failed⟩

/-- Octets at which decoding fails encode no text. -/
theorem encode_ne_of_failed {failure : Utf8.Failure} (failed : decode octets = .error failure)
    (text : Text) : encode text ≠ octets := by
  intro whole
  have read := decode_eq_ok_iff.2 whole
  rw [failed] at read
  cases read

/-- The text in front of the failure is the longest one that the octets begin with. -/
theorem longestText_of_failed {failure : Utf8.Failure} (failed : decode octets = .error failure)
    (front : encode text = octets.take failure.position) : LongestText octets text := by
  obtain ⟨other, fault, longest, found⟩ := decode_of_unreadable (encode_ne_of_failed failed)
  obtain rfl : failure = ⟨(encode other).length, fault⟩ := Except.error.inj (failed.symm.trans found)
  have same : encode other = encode text :=
    (List.prefix_iff_eq_take.1 longest.begins).trans front.symm
  have one : (Except.ok other : Except Utf8.Failure Text) = .ok text :=
    (decode_eq_ok_iff.2 same).symm.trans (decode_eq_ok_iff.2 rfl)
  rwa [Except.ok.inj one] at longest

end Whole

end TreeGrammar.Text
