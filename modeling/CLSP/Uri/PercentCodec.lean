import CLSP.Lib.Decimal
import CLSP.Uri.Theorems

/-!
# The percent codec

What `percentEncode` writes, in the terms of RFC 3986, and what `percentDecode` makes of texts that
it has not written: it changes those that have a complete escape, and no others.
-/

namespace CLSP

open Decimal (IsDigit)

/-! ## The characters of RFC 3986 -/

/-- `unreserved = ALPHA / DIGIT / "-" / "." / "_" / "~"` -/
def IsUnreservedChar (c : UInt8) : Prop :=
  (0x41 ≤ c ∧ c ≤ 0x5A) ∨ (0x61 ≤ c ∧ c ≤ 0x7A) ∨ IsDigit c ∨ c ∈ str "-._~"

/-- The characters of `pchar = unreserved / pct-encoded / sub-delims / ":" / "@"` that are no
escapes, and the slash between segments. -/
def IsPathChar (c : UInt8) : Prop :=
  IsUnreservedChar c ∨ c ∈ str "!$&'()*+,;=" ∨ c ∈ str ":@" ∨ c = slash

/-- `HEXDIG`, which is in upper case. -/
def IsUpperHexDigit (c : UInt8) : Prop :=
  IsDigit c ∨ (0x41 ≤ c ∧ c ≤ 0x46)

/-- A digit of an escape in either case. -/
def IsHexDigit (c : UInt8) : Prop :=
  IsUpperHexDigit c ∨ (0x61 ≤ c ∧ c ≤ 0x66)

instance : DecidablePred IsUnreservedChar :=
  fun c => inferInstanceAs (Decidable (_ ∨ _ ∨ IsDigit c ∨ _))

instance : DecidablePred IsPathChar :=
  fun c => inferInstanceAs (Decidable (IsUnreservedChar c ∨ _ ∨ _ ∨ c = slash))

instance : DecidablePred IsUpperHexDigit :=
  fun c => inferInstanceAs (Decidable (IsDigit c ∨ _))

instance : DecidablePred IsHexDigit :=
  fun c => inferInstanceAs (Decidable (IsUpperHexDigit c ∨ _))

/-- A text of path characters and of complete escapes with digits in upper case. -/
inductive EncodedPath : Bytes → Prop
  | nil : EncodedPath []
  | char {c : UInt8} {rest : Bytes} : IsPathChar c → EncodedPath rest → EncodedPath (c :: rest)
  | escape {hi lo : UInt8} {rest : Bytes} : IsUpperHexDigit hi → IsUpperHexDigit lo →
      EncodedPath rest → EncodedPath (percent :: hi :: lo :: rest)

/-- A complete valid escape is somewhere in the text. -/
def HasEscape (text : Bytes) : Prop :=
  ∃ hi lo, IsHexDigit hi ∧ IsHexDigit lo ∧ [percent, hi, lo] <:+: text

/-! ## What is encoded -/

lemma isPathPassThrough_iff (c : UInt8) : isPathPassThrough c = true ↔ IsPathChar c := by
  apply forall_byte (P := fun c => isPathPassThrough c = true ↔ IsPathChar c)
  decide +kernel

/-- A half of a byte is written as a digit. -/
lemma isUpperHexDigit_hex (c : UInt8) : IsUpperHexDigit (hex (c &&& 0xF)) := by
  apply forall_byte (P := fun c => IsUpperHexDigit (hex (c &&& 0xF)))
  decide +kernel

lemma encodedPath_encodeByte (c : UInt8) {rest : Bytes} (h : EncodedPath rest) :
    EncodedPath (encodeByte c ++ rest) := by
  cases hpass : isPathPassThrough c with
  | true =>
    rw [encodeByte_of_passThrough hpass]
    exact .char ((isPathPassThrough_iff c).mp hpass) h
  | false =>
    rw [encodeByte_of_not_passThrough hpass]
    exact .escape (isUpperHexDigit_hex _) (isUpperHexDigit_hex _) h

lemma encodedPath_percentEncode (text : Bytes) : EncodedPath (percentEncode text) := by
  induction text with
  | nil => exact .nil
  | cons c rest ih =>
    rw [percentEncode_cons]
    exact encodedPath_encodeByte c ih

/-! ## What is decoded -/

lemma isSome_hexValue_iff (c : UInt8) : (hexValue c).isSome = true ↔ IsHexDigit c := by
  apply forall_byte (P := fun c => (hexValue c).isSome = true ↔ IsHexDigit c)
  decide +kernel

lemma isSome_escape?_iff {c hi lo : UInt8} :
    (escape? c hi lo).isSome = true ↔ c = percent ∧ IsHexDigit hi ∧ IsHexDigit lo := by
  rw [← isSome_hexValue_iff, ← isSome_hexValue_iff, escape?]
  by_cases hc : c = percent
  · rw [if_pos hc]
    cases hexValue hi <;> cases hexValue lo <;> simp [hc]
  · rw [if_neg hc]
    simp [hc]

/-- An escape is at the start of a text, or behind its first character. -/
lemma hasEscape_cons_iff {c hi lo : UInt8} {rest : Bytes} :
    HasEscape (c :: hi :: lo :: rest) ↔
      (escape? c hi lo).isSome = true ∨ HasEscape (hi :: lo :: rest) := by
  rw [isSome_escape?_iff]
  constructor
  · rintro ⟨hi', lo', hhi, hlo, hinfix⟩
    rcases List.infix_cons_iff.mp hinfix with hpre | hinfix
    · simp only [List.cons_prefix_cons, List.nil_prefix, and_true] at hpre
      rcases hpre with ⟨rfl, rfl, rfl⟩
      exact Or.inl ⟨rfl, hhi, hlo⟩
    · exact Or.inr ⟨hi', lo', hhi, hlo, hinfix⟩
  · rintro (⟨rfl, hhi, hlo⟩ | ⟨hi', lo', hhi, hlo, hinfix⟩)
    · exact ⟨hi, lo, hhi, hlo, List.IsPrefix.isInfix ⟨rest, rfl⟩⟩
    · exact ⟨hi', lo', hhi, hlo, List.infix_cons hinfix⟩

lemma not_hasEscape_of_length {text : Bytes} (h : text.length < 3) : ¬ HasEscape text := by
  rintro ⟨hi, lo, -, -, hinfix⟩
  have hle : 3 ≤ text.length := hinfix.length_le
  omega

lemma length_percentDecode_le (text : Bytes) : (percentDecode text).length ≤ text.length := by
  induction text using percentDecode.induct with
  | case1 => exact Nat.le_refl _
  | case2 c => exact Nat.le_refl _
  | case3 c d => exact Nat.le_refl _
  | case4 c hi lo rest b hescape ih =>
    rw [percentDecode, hescape]
    simp only [List.length_cons]
    omega
  | case5 c hi lo rest hescape ih =>
    rw [percentDecode, hescape]
    exact Nat.succ_le_succ ih

/-- A text is decoded to itself exactly if it has no complete valid escape. -/
theorem percentDecode_eq_self_iff (text : Bytes) :
    percentDecode text = text ↔ ¬ HasEscape text := by
  induction text using percentDecode.induct with
  | case1 => exact iff_of_true rfl (not_hasEscape_of_length (by simp))
  | case2 c => exact iff_of_true rfl (not_hasEscape_of_length (by simp))
  | case3 c d => exact iff_of_true rfl (not_hasEscape_of_length (by simp))
  | case4 c hi lo rest b hescape ih =>
    -- the escape is one byte then
    rw [hasEscape_cons_iff, percentDecode, hescape]
    refine iff_of_false ?_ (by simp)
    intro heq
    have hle := length_percentDecode_le rest
    have hlength := congrArg List.length heq
    simp only [List.length_cons] at hlength
    omega
  | case5 c hi lo rest hescape ih =>
    rw [hasEscape_cons_iff, percentDecode, hescape]
    simp [ih]

/-! ## The result -/

/-- **The percent codec**: what is encoded is a path of RFC 3986, encoding and decoding undo each
other, and a text without a complete valid escape is decoded to itself. -/
theorem percent_codec :
    (∀ text, EncodedPath (percentEncode text)) ∧
      (∀ text, percentDecode (percentEncode text) = text) ∧
      Set.LeftInvOn percentEncode percentDecode (Set.range percentEncode) ∧
      Set.EqOn percentDecode id {text | ¬ HasEscape text} := by
  refine ⟨encodedPath_percentEncode, percentDecode_percentEncode, ?_, ?_⟩
  · rintro _ ⟨text, rfl⟩
    rw [percentDecode_percentEncode]
  · intro text htext
    exact (percentDecode_eq_self_iff text).mpr htext

end CLSP
