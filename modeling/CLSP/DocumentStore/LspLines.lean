import CLSP.DocumentStore.Conversion
import CLSP.Lib.Eol

/-!
# Lines of the protocol

Lines of the protocol end at `'\n'`, `"\r\n"` or `'\r'`, and the two loops of `positionToOffset`
know the first of them. A position stays on its line if only line feeds are in the way: `'\r'` is
part of the line before it, so a character behind the end of a line is cut behind the `'\r'` that
ends it, and a `'\r'` alone is not counted.
-/

namespace CLSP

open LineText

/-- Offsets are in the order of the indices. -/
lemma length_encode_take_le_iff {cs : List Char} {i j : ℕ} (hi : i ≤ cs.length) :
    (Utf8.encode (cs.take i)).length ≤ (Utf8.encode (cs.take j)).length ↔ i ≤ j := by
  refine ⟨?_, fun h => length_encode_take_mono cs h⟩
  intro hle
  by_contra hlt
  have hsucc : j + 1 ≤ i := by omega
  have hmono := length_encode_take_mono cs hsucc
  rw [List.take_succ_eq_append_getElem (by omega), Utf8.encode_append, List.length_append] at hmono
  have hpos : 0 < (Utf8.encode [cs[j]]).length := by
    rw [Utf8.encode_cons, List.length_append, String.length_utf8EncodeChar]
    have := Char.utf8Size_pos cs[j]
    omega
  omega

/-- The offset of a position is on the line that starts at `start`, its terminator not included. -/
structure OnLine (e : PositionEncoding) (cs : List Char) (start : ℕ) (pos : Position) : Prop where
  start_le : (Utf8.encode (cs.take start)).length ≤ positionToOffset e (Utf8.encode cs) pos
  le_end : positionToOffset e (Utf8.encode cs) pos
    ≤ (Utf8.encode (cs.take (contentEnd '\r' '\n' cs start))).length

/-- The scan of the line stops inside its content. -/
lemma onLine_iff_scanIndex {e : PositionEncoding} (he : e ≠ .UTF8) {cs : List Char} {start : ℕ}
    (hstart : start ≤ cs.length) (pos : Position) :
    OnLine e cs start pos ↔
      start ≤ scanIndex '\n' e.units (Reached pos.character) cs pos.line.toNat ∧
        scanIndex '\n' e.units (Reached pos.character) cs pos.line.toNat
          ≤ contentEnd '\r' '\n' cs start := by
  have hindex : scanIndex '\n' e.units (Reached pos.character) cs pos.line.toNat ≤ cs.length :=
    le_trans (scanIndex_le_lineEnd _ _) (lineEnd_le_length _ _)
  constructor
  · intro hline
    rcases hline with ⟨hle, hend⟩
    rw [positionToOffset_eq he] at hle hend
    exact ⟨(length_encode_take_le_iff hstart).mp hle, (length_encode_take_le_iff hindex).mp hend⟩
  · intro h
    refine ⟨?_, ?_⟩
    · rw [positionToOffset_eq he]
      exact (length_encode_take_le_iff hstart).mpr h.1
    · rw [positionToOffset_eq he]
      exact (length_encode_take_le_iff hindex).mpr h.2

/-- A line before line `l` ends with a carriage return alone. -/
def LoneBefore (cs : List Char) (l : ℕ) : Prop :=
  ∃ l' < l, ∃ before, lineAt '\r' '\n' cs l' = some before ∧
    terminatorOf '\r' '\n' cs before = some .cr

/-- The character is one of the content of the line, or the one behind it. -/
def InContent (e : PositionEncoding) (cs : List Char) (start : ℕ) (character : UInt32) : Prop :=
  ∃ i ≤ contentLength '\r' '\n' (cs.drop start),
    Reached character (unitsTo e.units (cs.drop start) i)

/-- A line whose number counts a `'\r'` alone is passed, unless it is the last one. -/
lemma scanIndex_of_loneBefore {e : PositionEncoding} {cs : List Char} {start : ℕ} {pos : Position}
    (hline : lineAt '\r' '\n' cs pos.line.toNat = some start)
    (hlone : LoneBefore cs pos.line.toNat) :
    start ≤ scanIndex '\n' e.units (Reached pos.character) cs pos.line.toNat ∧
      scanIndex '\n' e.units (Reached pos.character) cs pos.line.toNat
        ≤ contentEnd '\r' '\n' cs start ↔
    terminatorOf '\r' '\n' cs start = none := by
  have hstart : lineStart '\n' cs pos.line.toNat
      ≤ scanIndex '\n' e.units (Reached pos.character) cs pos.line.toNat := Nat.le_add_right _ _
  -- there are fewer line feeds up to the end of the line than its number says
  have hcount : (cs.take (contentEnd '\r' '\n' cs start)).count '\n' < pos.line.toNat := by
    rcases hlone with ⟨l', hl', before, hbefore, hcr⟩
    rw [count_take_contentEnd]
    exact count_take_lineAt_lt (by decide) hline hl' hbefore hcr
  constructor
  · intro h
    by_contra hterminated
    rcases Option.ne_none_iff_exists'.mp hterminated with ⟨t, ht⟩
    have hnext := next_le_length ht (lineAt_le_length hline)
    have hpos := length_symbols_pos '\r' '\n' t
    rcases Nat.lt_or_ge (cs.count '\n') pos.line.toNat with hfew | henough
    · have heq := lineStart_eq_length hfew
      omega
    · have htake := count_take_lineStart henough
      have hle : (cs.take (lineStart '\n' cs pos.line.toNat)).count '\n'
          ≤ (cs.take (contentEnd '\r' '\n' cs start)).count '\n' :=
        (List.take_sublist_take_left (by omega)).count_le _
      omega
  · intro hlast
    have hend := terminatorOf_eq_none hlast (lineAt_le_length hline)
    rw [hend, List.take_length] at hcount
    have heq := lineStart_eq_length hcount
    have hle : scanIndex '\n' e.units (Reached pos.character) cs pos.line.toNat ≤ cs.length :=
      le_trans (scanIndex_le_lineEnd _ _) (lineEnd_le_length _ _)
    have hcontent : start ≤ contentEnd '\r' '\n' cs start := Nat.le_add_right _ _
    omega

/-- A line whose number counts line feeds only is scanned from its start, up to the next of
them. -/
lemma scanIndex_of_not_loneBefore {e : PositionEncoding} {cs : List Char} {start : ℕ}
    {pos : Position} (hline : lineAt '\r' '\n' cs pos.line.toNat = some start)
    (hlone : ¬ LoneBefore cs pos.line.toNat) :
    start ≤ scanIndex '\n' e.units (Reached pos.character) cs pos.line.toNat ∧
      scanIndex '\n' e.units (Reached pos.character) cs pos.line.toNat
        ≤ contentEnd '\r' '\n' cs start ↔
    terminatorOf '\r' '\n' cs start = none ∨ terminatorOf '\r' '\n' cs start = some .lf ∨
      InContent e cs start pos.character := by
  have hstart : start = lineStart '\n' cs pos.line.toNat :=
    lineAt_eq_lineStart (by decide) hline
      fun l' hl' before hbefore hcr => hlone ⟨l', hl', before, hbefore, hcr⟩
  have hscan : start ≤ scanIndex '\n' e.units (Reached pos.character) cs pos.line.toNat ∧
      scanIndex '\n' e.units (Reached pos.character) cs pos.line.toNat
        ≤ contentEnd '\r' '\n' cs start ↔
      scanLine '\n' e.units (Reached pos.character) (cs.drop start) 0
        ≤ contentLength '\r' '\n' (cs.drop start) := by
    unfold scanIndex contentEnd
    rw [← hstart]
    omega
  have hle : scanLine '\n' e.units (Reached pos.character) (cs.drop start) 0
      ≤ lineLength '\n' (cs.drop start) := scanLine_le _ 0
  have hlength : terminatorOf '\r' '\n' cs start = none ∨
      terminatorOf '\r' '\n' cs start = some .lf →
      lineLength '\n' (cs.drop start) = contentLength '\r' '\n' (cs.drop start) :=
    lineLength_eq_contentLength (lineAt_le_length hline)
  rw [hscan]
  cases ht : terminatorOf '\r' '\n' cs start with
  | none =>
    rw [hlength (Or.inl ht)] at hle
    exact ⟨fun _ => Or.inl rfl, fun _ => hle⟩
  | some t =>
    by_cases hlf : t = .lf
    · rw [hlf] at ht
      rw [hlength (Or.inr ht)] at hle
      exact ⟨fun _ => Or.inr (Or.inl (congrArg some hlf)), fun _ => hle⟩
    · rw [scanLine_le_iff (contentLength_lt_lineLength (by decide) ht hlf)]
      simp [InContent, hlf]

/-- **Positions stay on their line** exactly if it is the last one, or if no line before it ends
with a `'\r'` alone and the line itself ends with a `'\n'` alone or the position is in its
content. -/
theorem onLine_iff {e : PositionEncoding} (he : e ≠ .UTF8) {cs : List Char} {pos : Position}
    {start : ℕ} (hline : lineAt '\r' '\n' cs pos.line.toNat = some start) :
    OnLine e cs start pos ↔
      terminatorOf '\r' '\n' cs start = none ∨
        ¬ LoneBefore cs pos.line.toNat ∧
          (terminatorOf '\r' '\n' cs start = some .lf ∨ InContent e cs start pos.character) := by
  rw [onLine_iff_scanIndex he (lineAt_le_length hline)]
  by_cases hlone : LoneBefore cs pos.line.toNat
  · rw [scanIndex_of_loneBefore hline hlone]
    tauto
  · rw [scanIndex_of_not_loneBefore hline hlone]
    tauto

/-- A text of two lines, the first ended by a pair. -/
def crlfText : List Char := ['a', 'b', '\r', '\n', 'c', 'd']

/-- A position in the content of the first line. -/
theorem onLine_sample : OnLine .UTF16 crlfText 0 ⟨0, 1⟩ := by
  have hfirst : ¬ LoneBefore crlfText 0 := by
    intro hlone
    rcases hlone with ⟨l', hl', -⟩
    exact Nat.not_lt_zero l' hl'
  exact (onLine_iff (by decide) (by decide)).mpr
    (Or.inr ⟨hfirst, Or.inr ⟨1, by decide, by decide⟩⟩)

/-- A position behind its end is between the two symbols of the pair. -/
theorem not_onLine : positionToOffset .UTF16 (Utf8.encode crlfText) ⟨0, 99⟩ = 3 ∧
    contentEnd '\r' '\n' crlfText 0 = 2 ∧ ¬ OnLine .UTF16 crlfText 0 ⟨0, 99⟩ := by
  have hoffset : positionToOffset .UTF16 (Utf8.encode crlfText) ⟨0, 99⟩ = 3 := by
    rw [positionToOffset_eq (by decide)]
    decide
  refine ⟨hoffset, by decide, ?_⟩
  intro hline
  have hend := hline.le_end
  rw [hoffset] at hend
  exact absurd hend (by decide)

end CLSP
