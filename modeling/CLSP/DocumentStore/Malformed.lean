import CLSP.DocumentStore.Conversion
import CLSP.Lib.Sequences

/-!
# Malformed texts

`decodeUtf8` looks at the lead byte alone and takes as many bytes as it announces, whatever they
are. A lead byte that is not followed by its continuation bytes is therefore consumed as the one
byte it is only at the end of the text, and elsewhere takes what follows it along, line breaks
included.
-/

namespace CLSP

open LineText
open Utf8 (CutLead announced followers sequences)

/-! ## The second loop -/

/-- The bytes and the units that the second loop goes on by at the start of `rest`. -/
def consumedAt (encoding : PositionEncoding) (rest : Bytes) : ℕ × UInt32 :=
  ((decodeUtf8 rest).1,
    if encoding = .UTF16 then UInt32.ofNat (decodeUtf8 rest).2 else 1)

/-- Where the second loop calls `decodeUtf8`: the rests of the text, one for each round. -/
def decodeCalls (encoding : PositionEncoding) (target : UInt32) : Bytes → UInt32 → List Bytes
  | [], _ => []
  | b :: tail, consumed =>
    if consumed < target ∧ b ≠ newline then
      (b :: tail) :: decodeCalls encoding target
        ((b :: tail).drop (consumedAt encoding (b :: tail)).1)
        (consumed + (consumedAt encoding (b :: tail)).2)
    else []
termination_by rest => rest.length
decreasing_by
  have : 0 < (consumedAt encoding (b :: tail)).1 := decodeUtf8_fst_pos (b :: tail)
  simp only [List.length_drop, List.length_cons]
  omega

/-- What is expected of a position in a text of any bytes: the offset is in the text and on the
addressed line, and a lead byte without its continuation bytes is consumed as a single byte and a
single unit. -/
structure StaysInLine (e : PositionEncoding) (text : Bytes) (pos : Position) : Prop where
  le_length : positionToOffset e text pos ≤ text.length
  newline_notMem : newline ∉
    (text.take (positionToOffset e text pos)).drop (lineStart newline text pos.line.toNat)
  single : ∀ rest ∈ decodeCalls e pos.character (skipLines pos.line.toNat text 0 0).1 0,
    CutLead rest → consumedAt e rest = (1, 1)

/-- The units of one sequence: two for one of four bytes in UTF-16. -/
def PositionEncoding.sequenceUnits (e : PositionEncoding) (s : Bytes) : ℕ :=
  if e = .UTF16 ∧ s.length = 4 then 2 else 1

/-- A cut lead byte is the last byte of the text, and announces no surrogate pair in UTF-16. -/
def Harmless (e : PositionEncoding) (rest : Bytes) : Prop :=
  rest.length = 1 ∧ (e = .UTF16 → announced (rest.headD 0) ≠ 3)

/-- The cut lead bytes on the first line of a text that have fewer than `room` units in front of
them are harmless. -/
def HarmlessCuts (e : PositionEncoding) (room : ℕ) (text : Bytes) : Prop :=
  ∀ i < lineLength [newline] (sequences text), unitsTo e.sequenceUnits (sequences text) i < room →
    CutLead ((sequences text).drop i).flatten → Harmless e ((sequences text).drop i).flatten

/-! ## One sequence -/

section Sequence

variable {e : PositionEncoding} {b : UInt8} {tail : Bytes}

lemma leadUnits_eq (b : UInt8) :
    leadUnits b = (announced b + 1, if announced b = 3 then 2 else 1) := by
  unfold leadUnits announced Utf8.leadSize
  split_ifs <;> simp_all

lemma decodeUtf8_cons (b : UInt8) (tail : Bytes) :
    decodeUtf8 (b :: tail) =
      (min (announced b + 1) (tail.length + 1), if announced b = 3 then 2 else 1) := by
  simp only [decodeUtf8, List.headD_cons, leadUnits_eq, List.length_cons]
  split
  · rw [if_neg (Nat.succ_ne_zero _), Nat.min_eq_right (by omega)]
  · rw [Nat.min_eq_left (by omega)]

/-- A cut lead byte is consumed with as many of the following bytes as it announces. -/
lemma consumedAt_eq_one_iff (h : CutLead (b :: tail)) :
    consumedAt e (b :: tail) = (1, 1) ↔ Harmless e (b :: tail) := by
  have hpos : 0 < announced b := Nat.lt_of_le_of_lt (Nat.zero_le _) h
  rw [consumedAt, decodeUtf8_cons, Prod.mk.injEq, Harmless, List.length_cons, List.headD_cons]
  refine and_congr (by omega) ?_
  by_cases he : e = .UTF16
  · by_cases hfour : announced b = 3
    · simp [he, hfour]
    · simp [he, hfour]
  · simp [he]

/-- Without harm a sequence is consumed whole and with its units. -/
lemma consumedAt_of_harmless (h : CutLead (b :: tail) → Harmless e (b :: tail)) :
    consumedAt e (b :: tail) = (followers b tail + 1,
      UInt32.ofNat (e.sequenceUnits (b :: tail.take (followers b tail)))) := by
  by_cases hcut : CutLead (b :: tail)
  · rw [(consumedAt_eq_one_iff hcut).mpr (h hcut), Utf8.followers_eq_zero hcut]
    simp [PositionEncoding.sequenceUnits]
  · have hall : followers b tail = announced b := Utf8.followers_eq_announced hcut
    have hle : followers b tail ≤ tail.length := Utf8.followers_le_length
    rw [consumedAt, decodeUtf8_cons, ← hall, Nat.min_eq_left (by omega)]
    unfold PositionEncoding.sequenceUnits
    rw [List.length_cons, List.length_take_of_le hle]
    by_cases he : e = .UTF16
    · simp [he]
    · simp [he]

lemma sequence_eq_newline_iff : b :: tail.take (followers b tail) = [newline] ↔ b = newline := by
  constructor
  · intro h
    exact (List.cons.inj h).1
  · rintro rfl
    exact Utf8.mem_sequence_ascii (by decide) List.mem_cons_self

lemma sequenceUnits_le_length {s : Bytes} (h : s ≠ []) : e.sequenceUnits s ≤ s.length := by
  have hpos := List.length_pos_iff.mpr h
  unfold PositionEncoding.sequenceUnits
  split <;> omega

end Sequence

/-! ## Cut lead bytes of a line -/

section Cuts

variable {e : PositionEncoding} {b : UInt8} {tail : Bytes} {room : ℕ}

lemma harmlessCuts_nil : HarmlessCuts e room [] := by
  intro i hi
  rw [Utf8.sequences_nil] at hi
  exact absurd hi (Nat.not_lt_zero i)

lemma harmlessCuts_zero (text : Bytes) : HarmlessCuts e 0 text :=
  fun _ _ hunits => absurd hunits (Nat.not_lt_zero _)

lemma harmlessCuts_newline (tail : Bytes) : HarmlessCuts e room (newline :: tail) := by
  intro i hi
  rw [Utf8.sequences_cons, lineLength, if_pos (sequence_eq_newline_iff.mpr rfl)] at hi
  exact absurd hi (Nat.not_lt_zero i)

/-- The first sequence of the line, and then the others. -/
lemma harmlessCuts_cons_iff (hroom : 0 < room) (hb : b ≠ newline) :
    HarmlessCuts e room (b :: tail) ↔ (CutLead (b :: tail) → Harmless e (b :: tail)) ∧
      HarmlessCuts e (room - e.sequenceUnits (b :: tail.take (followers b tail)))
        (tail.drop (followers b tail)) := by
  have hfirst : b :: tail.take (followers b tail) ≠ [newline] := sequence_eq_newline_iff.not.mpr hb
  have hflatten := Utf8.flatten_sequences (b :: tail)
  unfold HarmlessCuts
  rw [Utf8.sequences_cons] at hflatten ⊢
  rw [lineLength, if_neg hfirst, Nat.forall_lt_succ_left]
  simp only [unitsTo_zero, unitsTo_cons_succ, List.drop_zero, List.drop_succ_cons, hflatten, hroom,
    forall_true_left, Nat.lt_sub_iff_add_lt']

end Cuts

/-! ## The loop over a line -/

section Loop

variable {e : PositionEncoding} {target : UInt32} {b : UInt8} {tail : Bytes} {consumed : UInt32}

lemma decodeCalls_of_go (h : consumed < target ∧ b ≠ newline) :
    decodeCalls e target (b :: tail) consumed =
      (b :: tail) :: decodeCalls e target ((b :: tail).drop (consumedAt e (b :: tail)).1)
        (consumed + (consumedAt e (b :: tail)).2) := by
  rw [decodeCalls, if_pos h]

lemma decodeCalls_of_stop (h : ¬ (consumed < target ∧ b ≠ newline)) :
    decodeCalls e target (b :: tail) consumed = [] := by
  rw [decodeCalls, if_neg h]

lemma walkLine_of_go (h : consumed < target ∧ b ≠ newline) (offset : ℕ) :
    walkLine e target (b :: tail) consumed offset =
      walkLine e target ((b :: tail).drop (consumedAt e (b :: tail)).1)
        (consumed + (consumedAt e (b :: tail)).2) (offset + (consumedAt e (b :: tail)).1) := by
  rw [walkLine, if_pos h]
  rfl

lemma walkLine_of_stop (h : ¬ (consumed < target ∧ b ≠ newline)) (offset : ℕ) :
    walkLine e target (b :: tail) consumed offset = offset := by
  rw [walkLine, if_neg h]

/-- The calls are those of the loop: it goes on by the bytes of each. -/
theorem walkLine_eq_sum (rest : Bytes) (consumed : UInt32) (offset : ℕ) :
    walkLine e target rest consumed offset =
      offset + ((decodeCalls e target rest consumed).map fun r => (consumedAt e r).1).sum := by
  induction rest, consumed using decodeCalls.induct e target generalizing offset with
  | case1 consumed => rw [walkLine, decodeCalls, List.map_nil, List.sum_nil, Nat.add_zero]
  | case2 b tail consumed hgo ih =>
    rw [walkLine_of_go hgo, decodeCalls_of_go hgo, ih, List.map_cons, List.sum_cons, Nat.add_assoc]
  | case3 b tail consumed hstop =>
    rw [walkLine_of_stop hstop, decodeCalls_of_stop hstop, List.map_nil, List.sum_nil,
      Nat.add_zero]

/-- The units counted fit the counter. -/
lemma go_iff {n : ℕ} (hfit : n < 2 ^ 32) : (UInt32.ofNat n < target ∧ b ≠ newline) ↔
    0 < target.toNat - n ∧ b ≠ newline := by
  rw [UInt32.lt_iff_toNat_lt, UInt32.toNat_ofNat_of_lt' hfit, Nat.sub_pos_iff_lt]

/-- What is left to scan and the units counted still fit behind the first sequence. -/
lemma fits_of_fits {n : ℕ} (hfit : n + (b :: tail).length < 2 ^ 32) :
    n + e.sequenceUnits (b :: tail.take (followers b tail)) +
      (tail.drop (followers b tail)).length < 2 ^ 32 := by
  have hunits : e.sequenceUnits (b :: tail.take (followers b tail)) ≤
      (b :: tail.take (followers b tail)).length := sequenceUnits_le_length (by simp)
  have hle : followers b tail ≤ tail.length := Utf8.followers_le_length
  rw [List.length_cons, List.length_take_of_le hle] at hunits
  rw [List.length_cons] at hfit
  rw [List.length_drop]
  omega

/-- The cut lead bytes that the loop meets are consumed one by one exactly if those of the line are
harmless. -/
lemma single_iff_harmlessCuts (rest : Bytes) {n : ℕ} (hfit : n + rest.length < 2 ^ 32) :
    (∀ r ∈ decodeCalls e target rest (UInt32.ofNat n), CutLead r → consumedAt e r = (1, 1)) ↔
      HarmlessCuts e (target.toNat - n) rest := by
  -- along the sequences of the line
  induction rest using Utf8.sequences.induct generalizing n with
  | case1 =>
    rw [decodeCalls]
    exact iff_of_true (by simp) harmlessCuts_nil
  | case2 b tail ih =>
    have hn : n < 2 ^ 32 := by omega
    by_cases hgo : 0 < target.toNat - n ∧ b ≠ newline
    · rw [decodeCalls_of_go ((go_iff hn).mpr hgo), List.forall_mem_cons,
        harmlessCuts_cons_iff hgo.1 hgo.2, forall_congr' fun hcut => consumedAt_eq_one_iff hcut]
      refine and_congr_right fun hfirst => ?_
      rw [consumedAt_of_harmless hfirst, List.drop_succ_cons, ← UInt32.ofNat_add,
        ih (fits_of_fits hfit), Nat.sub_sub]
    · rw [decodeCalls_of_stop ((go_iff hn).not.mpr hgo)]
      refine iff_of_true (by simp) ?_
      by_cases hb : b = newline
      · rw [hb]
        exact harmlessCuts_newline tail
      · have hroom : target.toNat - n = 0 := by
          by_contra hne
          exact hgo ⟨Nat.pos_of_ne_zero hne, hb⟩
        rw [hroom]
        exact harmlessCuts_zero _

/-- Without harm the loop stops where the scan of the sequences does. -/
lemma walkLine_of_harmlessCuts (rest : Bytes) {n : ℕ} (hfit : n + rest.length < 2 ^ 32)
    (h : HarmlessCuts e (target.toNat - n) rest) (offset : ℕ) :
    walkLine e target rest (UInt32.ofNat n) offset = offset +
      ((sequences rest).take (scanLine [newline] e.sequenceUnits (target.toNat ≤ ·)
        (sequences rest) n)).flatten.length := by
  induction rest using Utf8.sequences.induct generalizing n offset with
  | case1 => simp [walkLine]
  | case2 b tail ih =>
    have hn : n < 2 ^ 32 := by omega
    have hscan : (¬ target.toNat ≤ n ∧ b :: tail.take (followers b tail) ≠ [newline]) ↔
        0 < target.toNat - n ∧ b ≠ newline := by
      rw [Nat.not_le, Nat.sub_pos_iff_lt, Ne, sequence_eq_newline_iff]
    rw [Utf8.sequences_cons, scanLine]
    by_cases hgo : 0 < target.toNat - n ∧ b ≠ newline
    · rcases (harmlessCuts_cons_iff hgo.1 hgo.2).mp h with ⟨hfirst, hrest⟩
      have hle : followers b tail ≤ tail.length := Utf8.followers_le_length
      rw [Nat.sub_sub] at hrest
      rw [walkLine_of_go ((go_iff hn).mpr hgo), if_pos (hscan.mpr hgo),
        consumedAt_of_harmless hfirst, List.drop_succ_cons, ← UInt32.ofNat_add,
        ih (fits_of_fits hfit) hrest, List.take_succ_cons, List.flatten_cons, List.length_append,
        List.length_cons, List.length_take_of_le hle, Nat.add_assoc]
    · rw [walkLine_of_stop ((go_iff hn).not.mpr hgo), if_neg (hscan.not.mpr hgo)]
      rfl

end Loop

/-! ## The result -/

section Result

variable {e : PositionEncoding} {text : Bytes}

/-- A scan of the sequences of a line does not pass its newline. -/
lemma newline_notMem_flatten_take {i : ℕ} (h : i ≤ lineLength [newline] (sequences text)) :
    newline ∉ ((sequences text).take i).flatten := by
  intro hmem
  rcases List.mem_flatten.mp hmem with ⟨s, hs, hnewline⟩
  have heq := Utf8.eq_singleton_of_mem_sequences (List.mem_of_mem_take hs) (by decide) hnewline
  exact notMem_take_of_le_lineLength h (heq ▸ hs)

/-- Without harm the bytes between the start of the line and the offset of a position are those of
the sequences that the scan of the line passes. -/
theorem positionToOffset_of_harmlessCuts (he : e ≠ .UTF8) (hsize : text.length < 2 ^ 32)
    {pos : Position} (h : HarmlessCuts e pos.character.toNat
      (text.drop (lineStart newline text pos.line.toNat))) :
    (text.take (positionToOffset e text pos)).drop (lineStart newline text pos.line.toNat) =
      ((sequences (text.drop (lineStart newline text pos.line.toNat))).take
        (scanLine [newline] e.sequenceUnits (pos.character.toNat ≤ ·)
          (sequences (text.drop (lineStart newline text pos.line.toNat))) 0)).flatten := by
  have hfit : 0 + (text.drop (lineStart newline text pos.line.toNat)).length < 2 ^ 32 := by
    rw [List.length_drop]
    omega
  have hwalk := walkLine_of_harmlessCuts _ hfit h (lineStart newline text pos.line.toNat)
  have hoffset : positionToOffset e text pos = _ := (positionToOffset_walk he text pos).trans hwalk
  rw [List.drop_take, hoffset, Nat.add_sub_cancel_left]
  exact Utf8.take_length_flatten _ _

/-- **Malformed bytes stay inside their line**, one byte and one unit each, exactly if the cut lead
bytes of the line up to the position are harmless. -/
theorem staysInLine_iff (he : e ≠ .UTF8) (hsize : text.length < 2 ^ 32) (pos : Position) :
    StaysInLine e text pos ↔ HarmlessCuts e pos.character.toNat
      (text.drop (lineStart newline text pos.line.toNat)) := by
  have hfit : 0 + (text.drop (lineStart newline text pos.line.toNat)).length < 2 ^ 32 := by
    rw [List.length_drop]
    omega
  have hsingle : (∀ r ∈ decodeCalls e pos.character
      (text.drop (lineStart newline text pos.line.toNat)) 0, CutLead r → consumedAt e r = (1, 1)) ↔
        HarmlessCuts e pos.character.toNat (text.drop (lineStart newline text pos.line.toNat)) :=
    single_iff_harmlessCuts _ hfit
  have hrest : (skipLines pos.line.toNat text 0 0).1 =
      text.drop (lineStart newline text pos.line.toNat) := by
    rw [skipLines_eq, Nat.sub_zero]
  constructor
  · intro hstays
    apply hsingle.mp
    rw [← hrest]
    exact hstays.single
  · intro hcuts
    refine ⟨positionToOffset_le_length he text pos, ?_, ?_⟩
    · rw [positionToOffset_of_harmlessCuts he hsize hcuts]
      exact newline_notMem_flatten_take (scanLine_le _ _)
    · rw [hrest]
      exact hsingle.mpr hcuts

end Result

/-- The second line has a byte that continues nothing, and ends with the text in a cut lead byte. -/
theorem staysInLine_sample :
    StaysInLine .UTF16 [0xC3, 0xA9, newline, 0x80, 0xC3] ⟨1, 5⟩ := by
  have hsize : ([0xC3, 0xA9, newline, 0x80, 0xC3] : Bytes).length < 2 ^ 32 := by simp
  apply (staysInLine_iff (by decide) hsize ⟨1, 5⟩).mpr
  show HarmlessCuts .UTF16 5 [0x80, 0xC3]
  rw [harmlessCuts_cons_iff (by decide) (by decide)]
  refine ⟨fun hcut => absurd hcut (by decide), ?_⟩
  show HarmlessCuts .UTF16 4 [0xC3]
  rw [harmlessCuts_cons_iff (by decide) (by decide)]
  exact ⟨fun _ => ⟨rfl, by decide⟩, harmlessCuts_nil⟩

/-- A lead byte at the end of a line takes the newline along. -/
theorem not_staysInLine :
    positionToOffset .UTF16 [0xC3, newline, 0x61] ⟨0, 1⟩ = 2 ∧
      ¬ StaysInLine .UTF16 [0xC3, newline, 0x61] ⟨0, 1⟩ := by
  have hoffset : positionToOffset .UTF16 [0xC3, newline, 0x61] ⟨0, 1⟩ = 2 := by
    rw [positionToOffset_walk (by decide)]
    show walkLine .UTF16 1 [0xC3, newline, 0x61] 0 0 = 2
    rw [walkLine_of_go (by decide)]
    show walkLine .UTF16 1 [0x61] 1 2 = 2
    rw [walkLine_of_stop (by decide)]
  refine ⟨hoffset, ?_⟩
  intro hstays
  have hnewline := hstays.newline_notMem
  rw [hoffset] at hnewline
  exact hnewline (by decide)

end CLSP
