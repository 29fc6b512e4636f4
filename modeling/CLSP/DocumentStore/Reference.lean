import CLSP.DocumentStore.Conversion
import Mathlib.Algebra.Order.BigOperators.Group.List

/-!
# What positions stand for

Outside of UTF-8 a position stands for the first boundary between two scalars of its line that is
at least `character` units into the line, or for the end of the line. On an ASCII text the three
encodings agree on the positions that do not pass the end of their line, and on no others: the
UTF-8 branch adds the character without looking at the line.
-/

namespace CLSP

open LineText

/-! ## Units and bytes -/

/-- Outside of UTF-8 a scalar has at most as many units as bytes. -/
lemma units_le_utf8Size {e : PositionEncoding} (c : Char) : e.units c ≤ c.utf8Size := by
  have hpos := Char.utf8Size_pos c
  cases e with
  | UTF8 => exact Nat.le_refl _
  | UTF16 =>
    show Utf8.utf16Size c ≤ c.utf8Size
    unfold Utf8.utf16Size
    split <;> omega
  | UTF32 => exact hpos

lemma unitsTo_le (e : PositionEncoding) (cs : List Char) (i : ℕ) :
    unitsTo e.units cs i ≤ (Utf8.encode cs).length := by
  calc unitsTo e.units cs i ≤ ((cs.take i).map Char.utf8Size).sum :=
        List.sum_le_sum fun c _ => units_le_utf8Size c
    _ = (Utf8.encode (cs.take i)).length := (Utf8.length_encode _).symm
    _ ≤ (Utf8.encode cs).length := length_encode_take_le cs i

/-! ## UTF-16 and UTF-32 -/

/-- The index a position stands for on a line of the text: the least one of the line that is as many
units into it as the position says, or the end of the line. -/
structure LeastBoundary (e : PositionEncoding) (cs : List Char) (pos : Position) (i : ℕ) :
    Prop where
  start_le : lineStart '\n' cs pos.line.toNat ≤ i
  le_end : i ≤ lineEnd '\n' cs pos.line.toNat
  enough : i = lineEnd '\n' cs pos.line.toNat ∨
    pos.character.toNat ≤ unitsTo e.units (cs.drop (lineStart '\n' cs pos.line.toNat))
      (i - lineStart '\n' cs pos.line.toNat)
  least : ∀ j, lineStart '\n' cs pos.line.toNat ≤ j → j < i →
    unitsTo e.units (cs.drop (lineStart '\n' cs pos.line.toNat))
      (j - lineStart '\n' cs pos.line.toNat) < pos.character.toNat

/-- The byte offset a position stands for. -/
structure Reference (e : PositionEncoding) (cs : List Char) (pos : Position) (offset : ℕ) :
    Prop where
  /-- Lines the text does not have are at its end. -/
  beyond : (Utf8.encode cs).count newline < pos.line.toNat → offset = (Utf8.encode cs).length
  within : pos.line.toNat ≤ (Utf8.encode cs).count newline →
    ∃ i, offset = (Utf8.encode (cs.take i)).length ∧ LeastBoundary e cs pos i

/-- The same index when the units of the line are counted in 32 bits. -/
structure CountedBoundary (e : PositionEncoding) (cs : List Char) (pos : Position) (i : ℕ) :
    Prop where
  start_le : lineStart '\n' cs pos.line.toNat ≤ i
  le_end : i ≤ lineEnd '\n' cs pos.line.toNat
  enough : i = lineEnd '\n' cs pos.line.toNat ∨
    pos.character.toNat ≤ unitsTo e.units (cs.drop (lineStart '\n' cs pos.line.toNat))
      (i - lineStart '\n' cs pos.line.toNat) % 2 ^ 32
  least : ∀ j, lineStart '\n' cs pos.line.toNat ≤ j → j < i →
    unitsTo e.units (cs.drop (lineStart '\n' cs pos.line.toNat))
      (j - lineStart '\n' cs pos.line.toNat) % 2 ^ 32 < pos.character.toNat

/-- The scan of a line stops at the index its position stands for in 32 bits. -/
lemma countedBoundary_scanIndex (e : PositionEncoding) (cs : List Char) (pos : Position) :
    CountedBoundary e cs pos
      (scanIndex '\n' e.units (Reached pos.character) cs pos.line.toNat) := by
  refine ⟨Nat.le_add_right _ _, scanIndex_le_lineEnd _ _, stop_scanIndex cs pos.line.toNat, ?_⟩
  intro j hstart hj
  exact Nat.lt_of_not_le (not_stop_of_lt_scanIndex hstart hj)

/-- Two indices that a position stands for are the same. -/
lemma CountedBoundary.unique {e : PositionEncoding} {cs : List Char} {pos : Position} {i j : ℕ}
    (hi : CountedBoundary e cs pos i) (hj : CountedBoundary e cs pos j) : i = j := by
  have hle : ∀ {i j : ℕ}, CountedBoundary e cs pos i → CountedBoundary e cs pos j → i ≤ j := by
    intro i j hi hj
    by_contra hlt
    have hbefore := hi.least j hj.start_le (Nat.lt_of_not_le hlt)
    rcases hj.enough with hend | henough
    · exact hlt (hend ▸ hi.le_end)
    · exact absurd henough (Nat.not_le.mpr hbefore)
  exact Nat.le_antisymm (hle hi hj) (hle hj hi)

/-- In a text of fewer than `2 ^ 32` bytes the units of a line fit 32 bits. -/
lemma CountedBoundary.leastBoundary {e : PositionEncoding} {cs : List Char}
    (hsize : (Utf8.encode cs).length < 2 ^ 32) {pos : Position} {i : ℕ}
    (h : CountedBoundary e cs pos i) : LeastBoundary e cs pos i := by
  have hfits : ∀ j, unitsTo e.units (cs.drop (lineStart '\n' cs pos.line.toNat))
      (j - lineStart '\n' cs pos.line.toNat) < 2 ^ 32 := by
    intro j
    have hunits := unitsTo_le e (cs.drop (lineStart '\n' cs pos.line.toNat))
      (j - lineStart '\n' cs pos.line.toNat)
    rw [encode_split cs (lineStart '\n' cs pos.line.toNat), List.length_append] at hsize
    omega
  refine ⟨h.start_le, h.le_end, ?_, ?_⟩
  · have henough := h.enough
    rwa [Nat.mod_eq_of_lt (hfits i)] at henough
  · intro j hstart hj
    have hless := h.least j hstart hj
    rwa [Nat.mod_eq_of_lt (hfits j)] at hless

/-- The scan of a line of fewer than `2 ^ 32` units stops at the index its position stands for. -/
lemma leastBoundary_scanIndex (e : PositionEncoding) {cs : List Char}
    (hsize : (Utf8.encode cs).length < 2 ^ 32) (pos : Position) :
    LeastBoundary e cs pos
      (scanIndex '\n' e.units (Reached pos.character) cs pos.line.toNat) :=
  (countedBoundary_scanIndex e cs pos).leastBoundary hsize

/-- The byte offset a position stands for in a text of any size; in UTF-8 its character counts bytes
from the start of the line. -/
def OffsetOf (e : PositionEncoding) (cs : List Char) (pos : Position) (offset : ℕ) : Prop :=
  match e with
  | .UTF8 => offset = byteOffset (Utf8.encode cs) pos
  | e => ∃ i, offset = (Utf8.encode (cs.take i)).length ∧ CountedBoundary e cs pos i

/-- The conversion finds the offset a position stands for, and there is no other. -/
lemma offsetOf_iff {e : PositionEncoding} {cs : List Char} {pos : Position} {offset : ℕ} :
    OffsetOf e cs pos offset ↔ offset = positionToOffset e (Utf8.encode cs) pos := by
  by_cases he : e = .UTF8
  · subst he
    rw [positionToOffset_utf8]
    rfl
  · have hiff : OffsetOf e cs pos offset ↔
        ∃ i, offset = (Utf8.encode (cs.take i)).length ∧ CountedBoundary e cs pos i := by
      cases e with
      | UTF8 => exact absurd rfl he
      | UTF16 | UTF32 => exact Iff.rfl
    rw [hiff, positionToOffset_eq he]
    have hscan := countedBoundary_scanIndex e cs pos
    constructor
    · rintro ⟨i, rfl, hi⟩
      rw [hi.unique hscan]
    · rintro rfl
      exact ⟨_, rfl, hscan⟩

/-- Outside of UTF-8 the conversion is monotone. -/
lemma positionToOffset_mono {e : PositionEncoding} (he : e ≠ .UTF8) (cs : List Char)
    {pos pos' : Position} (h : pos.Le pos') :
    positionToOffset e (Utf8.encode cs) pos ≤ positionToOffset e (Utf8.encode cs) pos' := by
  rw [positionToOffset_eq he, positionToOffset_eq he]
  apply length_encode_take_mono
  apply scanIndex_le_scanIndex
  rcases h with hline | ⟨hline, hcharacter⟩
  · exact Or.inl (UInt32.lt_iff_toNat_lt.mp hline)
  · exact Or.inr ⟨congrArg UInt32.toNat hline,
      fun n hn => le_trans (UInt32.le_iff_toNat_le.mp hcharacter) hn⟩

/-- **Positions in UTF-16 and UTF-32** are converted to the offset they stand for, in their
order. -/
theorem positionToOffset_reference {e : PositionEncoding} (he : e ≠ .UTF8) (cs : List Char)
    (hsize : (Utf8.encode cs).length < 2 ^ 32) :
    (∀ pos, Reference e cs pos (positionToOffset e (Utf8.encode cs) pos)) ∧
      ∀ pos pos', pos.Le pos' →
        positionToOffset e (Utf8.encode cs) pos ≤ positionToOffset e (Utf8.encode cs) pos' := by
  refine ⟨?_, fun pos pos' h => positionToOffset_mono he cs h⟩
  intro pos
  rw [positionToOffset_eq he]
  have hboundary := leastBoundary_scanIndex e hsize pos
  refine ⟨?_, fun _ => ⟨_, rfl, hboundary⟩⟩
  intro hbeyond
  rw [count_newline_encode] at hbeyond
  have hstart := lineStart_eq_length hbeyond
  have hle := hboundary.start_le
  rw [hstart] at hle
  rw [List.take_of_length_le hle]

/-- A text with a surrogate pair and a second line. -/
theorem positionToOffset_reference_sample :
    Reference .UTF16 ['🙂', 'x', '\n', 'y'] ⟨0, 1⟩ 4 ∧
      Reference .UTF16 ['🙂', 'x', '\n', 'y'] ⟨0, 9⟩ 5 := by
  have hmeets := (positionToOffset_reference (e := .UTF16) (by decide) ['🙂', 'x', '\n', 'y']
    (by decide)).1
  constructor
  · have hinside := hmeets ⟨0, 1⟩
    rw [positionToOffset_eq (by decide)] at hinside
    exact hinside
  · have hbehind := hmeets ⟨0, 9⟩
    rw [positionToOffset_eq (by decide)] at hbehind
    exact hbehind

/-! ## ASCII -/

lemma decodeUtf8_ascii {b : UInt8} (hb : b < 0x80) (tail : Bytes) :
    decodeUtf8 (b :: tail) = (1, 1) := by
  simp [decodeUtf8, leadUnits, hb]

/-- On ASCII bytes the second loop takes as many as it is to count, or stops at the end of the
line. -/
lemma walkLine_ascii {e : PositionEncoding} (target : UInt32) {rest : Bytes}
    (h : ∀ b ∈ rest, b < 0x80) (consumed : UInt32) (offset : ℕ) :
    walkLine e target rest consumed offset
      = offset + min (target.toNat - consumed.toNat) (lineLength newline rest) := by
  induction rest generalizing consumed offset with
  | nil =>
    rw [walkLine, lineLength, Nat.min_zero]
    rfl
  | cons b tail ih =>
    rw [walkLine, lineLength, decodeUtf8_ascii (h b (by simp))]
    have hone : (if e = .UTF16 then UInt32.ofNat 1 else 1 : UInt32) = 1 := by
      split <;> rfl
    by_cases hgo : consumed < target ∧ b ≠ newline
    · have hlt := UInt32.lt_iff_toNat_lt.mp hgo.1
      have hnext : (consumed + 1).toNat = consumed.toNat + 1 := by
        have hbound := target.toNat_lt
        rw [UInt32.toNat_add]
        exact Nat.mod_eq_of_lt (show consumed.toNat + 1 < 2 ^ 32 by omega)
      rw [if_pos hgo, if_neg hgo.2]
      simp only [hone, List.drop_succ_cons, List.drop_zero]
      rw [ih (fun c hc => h c (by simp [hc])), hnext]
      omega
    · rw [if_neg hgo]
      by_cases hb : b = newline
      · rw [if_pos hb, Nat.min_zero, Nat.add_zero]
      · have hdone : ¬ consumed < target := fun hlt => hgo ⟨hlt, hb⟩
        rw [UInt32.lt_iff_toNat_lt] at hdone
        rw [if_neg hb]
        omega

/-- Outside of UTF-8 a position of an ASCII text is cut at the end of its line. -/
lemma positionToOffset_ascii {e : PositionEncoding} (he : e ≠ .UTF8) {text : Bytes}
    (h : ∀ b ∈ text, b < 0x80) (pos : Position) :
    positionToOffset e text pos = lineStart newline text pos.line.toNat +
      min pos.character.toNat
        (lineLength newline (text.drop (lineStart newline text pos.line.toNat))) := by
  rw [positionToOffset_walk he]
  exact walkLine_ascii pos.character (fun b hb => h b (List.mem_of_mem_drop hb)) 0 _

/-- What is expected of a position of an ASCII text. -/
structure EncodingsAgree (text : Bytes) (pos : Position) : Prop where
  agree : ∀ e e', positionToOffset e text pos = positionToOffset e' text pos
  inText : ∀ e, positionToOffset e text pos ≤ text.length
  inLine : ∀ e, positionToOffset e text pos ≤ lineEnd newline text pos.line.toNat

/-- **On an ASCII text** the encodings agree exactly on the positions up to the end of their
line. -/
theorem encodingsAgree_iff {text : Bytes} (h : ∀ b ∈ text, b < 0x80) (pos : Position) :
    EncodingsAgree text pos ↔ pos.character.toNat ≤
      lineLength newline (text.drop (lineStart newline text pos.line.toNat)) := by
  constructor
  · intro hagree
    have hline := hagree.inLine .UTF8
    rw [positionToOffset_utf8, byteOffset, lineEnd] at hline
    omega
  · intro hle
    have hend : ∀ e, positionToOffset e text pos
        = lineStart newline text pos.line.toNat + pos.character.toNat := by
      intro e
      by_cases he : e = .UTF8
      · rw [he, positionToOffset_utf8]
        rfl
      · rw [positionToOffset_ascii he h, Nat.min_eq_left hle]
    have hline : ∀ e, positionToOffset e text pos ≤ lineEnd newline text pos.line.toNat := by
      intro e
      rw [hend, lineEnd]
      exact Nat.add_le_add_left hle _
    exact ⟨fun e e' => (hend e).trans (hend e').symm,
      fun e => (hline e).trans (lineEnd_le_length _ _), hline⟩

/-- Two lines. -/
lemma ascii_hello : ∀ b ∈ str "hello\nworld\n", b < 0x80 := by
  have hall : (str "hello\nworld\n").all (fun b => decide (b < 0x80)) = true := by decide
  intro b hb
  exact of_decide_eq_true (List.all_eq_true.mp hall b hb)

/-- A position inside its line. -/
theorem encodingsAgree_sample : EncodingsAgree (str "hello\nworld\n") ⟨1, 3⟩ :=
  (encodingsAgree_iff ascii_hello ⟨1, 3⟩).mpr (by decide)

/-- A position beyond the end of its line is cut there in UTF-16, and in UTF-8 it is taken for one
beyond the end of the text. -/
theorem not_encodingsAgree :
    positionToOffset .UTF16 (str "hello\nworld\n") ⟨0, 99⟩ = 5 ∧
      positionToOffset .UTF8 (str "hello\nworld\n") ⟨0, 99⟩ = 99 ∧
      ¬ EncodingsAgree (str "hello\nworld\n") ⟨0, 99⟩ := by
  have hutf16 : positionToOffset .UTF16 (str "hello\nworld\n") ⟨0, 99⟩ = 5 :=
    positionToOffset_ascii (by decide) ascii_hello _
  have hutf8 : positionToOffset .UTF8 (str "hello\nworld\n") ⟨0, 99⟩ = 99 :=
    positionToOffset_utf8 _ _
  refine ⟨hutf16, hutf8, ?_⟩
  intro hagree
  have heq := hagree.agree .UTF16 .UTF8
  rw [hutf16, hutf8] at heq
  exact absurd heq (by decide)

end CLSP
