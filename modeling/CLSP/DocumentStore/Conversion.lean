import CLSP.DocumentStore.Client
import CLSP.Lib.LineScan

/-!
# Positions to offsets

On the encoding of a list of scalars the two loops of `positionToOffset` walk scalar by scalar:
`skipLines` to the start of the line, `walkLine` along it. Outside of UTF-8 the result is the byte
offset of the index at which the scan of the line stops (`positionToOffset_eq`); in UTF-8 the
character is added to the start of the line (`positionToOffset_utf8`).
-/

namespace CLSP

open LineText

/-! ## One scalar -/

lemma leadUnits_of_leadSize {b : UInt8} {n : ℕ} (h : Utf8.leadSize b = some n) :
    leadUnits b = (n, if n = 4 then 2 else 1) := by
  unfold Utf8.leadSize at h
  unfold leadUnits
  split_ifs at h ⊢ <;> simp_all

/-- `decodeUtf8` reads one whole scalar off an encoded text. -/
lemma decodeUtf8_encode (c : Char) (cs : List Char) :
    decodeUtf8 (Utf8.encode (c :: cs)) = (c.utf8Size, Utf8.utf16Size c) := by
  rcases Utf8.exists_lead_utf8EncodeChar c with ⟨b, tail, heq, hlead, -⟩
  -- the scalar is all there, so the length is not cut
  have hlen : c.utf8Size ≤ (Utf8.encode (c :: cs)).length := by
    rw [Utf8.encode_cons, List.length_append, String.length_utf8EncodeChar]
    exact Nat.le_add_right _ _
  have hhead : (Utf8.encode (c :: cs)).headD 0 = b := by
    rw [Utf8.encode_cons, heq]
    rfl
  simp only [decodeUtf8, hhead, leadUnits_of_leadSize hlead]
  rw [if_neg (Nat.not_lt.mpr hlen)]
  rfl

/-! ## The start of a line -/

/-- The first loop stops at the start of a line. -/
lemma skipLines_eq (target : ℕ) (text : Bytes) (line offset : ℕ) :
    skipLines target text line offset
      = (text.drop (lineStart newline text (target - line)),
        offset + lineStart newline text (target - line)) := by
  induction text generalizing line offset with
  | nil => simp [skipLines]
  | cons b rest ih =>
    by_cases hlt : line < target
    · obtain ⟨l, hl⟩ : ∃ l, target - line = l + 1 := ⟨target - line - 1, by omega⟩
      have hsub : target - (if b = newline then line + 1 else line)
          = if b = newline then l else l + 1 := by
        split <;> omega
      rw [skipLines, if_pos hlt, ih, hl, lineStart_cons_succ, hsub, List.drop_succ_cons,
        Nat.add_assoc, Nat.add_comm 1]
    · have hzero : target - line = 0 := by omega
      rw [skipLines, if_neg hlt, hzero, lineStart_zero]
      rfl

/-! ## Offsets in the text -/

lemma decodeUtf8_fst_le {rest : Bytes} (h : rest ≠ []) : (decodeUtf8 rest).1 ≤ rest.length := by
  have hpos : 0 < rest.length := List.length_pos_iff.mpr h
  simp only [decodeUtf8]
  split_ifs <;> omega

lemma walkLine_le (e : PositionEncoding) (target : UInt32) (rest : Bytes) (consumed : UInt32)
    (offset : ℕ) : walkLine e target rest consumed offset ≤ offset + rest.length := by
  fun_induction walkLine e target rest consumed offset with
  | case1 consumed offset => exact Nat.le_add_right _ _
  | case2 b tail consumed offset hgo byteLen units ih =>
    have hle := decodeUtf8_fst_le (List.cons_ne_nil b tail)
    rw [List.length_drop] at ih
    refine le_trans ih ?_
    omega
  | case3 b tail consumed offset hstop => exact Nat.le_add_right _ _

/-- Outside of UTF-8 a position is converted by a walk from the start of its line. -/
lemma positionToOffset_walk {e : PositionEncoding} (he : e ≠ .UTF8) (text : Bytes)
    (pos : Position) : positionToOffset e text pos = walkLine e pos.character
      (text.drop (lineStart newline text pos.line.toNat)) 0
      (lineStart newline text pos.line.toNat) := by
  simp only [positionToOffset, skipLines_eq, Nat.sub_zero, Nat.zero_add, if_neg he]

/-- Outside of UTF-8 no position of any text, valid or not, passes its end. -/
lemma positionToOffset_le_length {e : PositionEncoding} (he : e ≠ .UTF8) (text : Bytes)
    (pos : Position) : positionToOffset e text pos ≤ text.length := by
  have hstart : lineStart newline text pos.line.toNat ≤ text.length := lineStart_le_length _ _
  have hwalk := walkLine_le e pos.character (text.drop (lineStart newline text pos.line.toNat)) 0
    (lineStart newline text pos.line.toNat)
  rw [List.length_drop] at hwalk
  rw [positionToOffset_walk he]
  omega

/-! ## Encoded texts -/

/-- Lines of an encoded text start where lines of its scalars do. -/
lemma lineStart_encode (cs : List Char) (l : ℕ) :
    lineStart newline (Utf8.encode cs) l
      = (Utf8.encode (cs.take (lineStart '\n' cs l))).length := by
  induction cs generalizing l with
  | nil => simp
  | cons c cs ih =>
    cases l with
    | zero => simp
    | succ l =>
      rw [lineStart_cons_succ, List.take_succ_cons, Utf8.encode_cons, Utf8.encode_cons,
        List.length_append]
      by_cases hc : c = '\n'
      · -- the newline is one byte, and the line after it is one line closer
        have hbyte : String.utf8EncodeChar c = [newline] := by
          rw [hc]
          rfl
        rw [hbyte, List.singleton_append, lineStart_cons_succ, if_pos rfl, if_pos hc, ih,
          List.length_singleton, Nat.add_comm]
      · have hnl : newline ∉ String.utf8EncodeChar c :=
          fun hm => hc (Utf8.newline_mem_utf8EncodeChar hm)
        rw [lineStart_append hnl, if_neg hc, ih]

/-! An encoding can be cut where a prefix of its scalars ends. -/

lemma encode_split (cs : List Char) (i : ℕ) :
    Utf8.encode cs = Utf8.encode (cs.take i) ++ Utf8.encode (cs.drop i) := by
  rw [← Utf8.encode_append, List.take_append_drop]

lemma take_encode (cs : List Char) (i : ℕ) :
    (Utf8.encode cs).take (Utf8.encode (cs.take i)).length = Utf8.encode (cs.take i) := by
  rw [encode_split cs i]
  exact List.take_left

lemma drop_encode (cs : List Char) (i : ℕ) :
    (Utf8.encode cs).drop (Utf8.encode (cs.take i)).length = Utf8.encode (cs.drop i) := by
  rw [encode_split cs i]
  exact List.drop_left

lemma length_encode_take_mono (cs : List Char) {i j : ℕ} (h : i ≤ j) :
    (Utf8.encode (cs.take i)).length ≤ (Utf8.encode (cs.take j)).length := by
  rw [← Nat.add_sub_cancel' h, List.take_add, Utf8.encode_append, List.length_append]
  exact Nat.le_add_right _ _

lemma length_encode_take_le (cs : List Char) (i : ℕ) :
    (Utf8.encode (cs.take i)).length ≤ (Utf8.encode cs).length := by
  rw [encode_split cs i, List.length_append]
  exact Nat.le_add_right _ _

/-- The newlines of an encoded text are those of its scalars. -/
lemma count_newline_encode (cs : List Char) :
    (Utf8.encode cs).count newline = cs.count '\n' := by
  induction cs with
  | nil => rfl
  | cons c cs ih =>
    rw [Utf8.encode_cons, List.count_append, ih, List.count_cons, Nat.add_comm]
    by_cases hc : c = '\n'
    · rw [hc]
      rfl
    · have hnl : newline ∉ String.utf8EncodeChar c :=
        fun hm => hc (Utf8.newline_mem_utf8EncodeChar hm)
      rw [List.count_eq_zero_of_not_mem hnl, if_neg (by simpa using hc)]

/-! ## Along the line -/

/-- The test that ends the second loop, on the number of units passed: the counter has 32 bits. -/
def Reached (target : UInt32) (units : ℕ) : Prop :=
  target.toNat ≤ units % 2 ^ 32

instance (target : UInt32) : DecidablePred (Reached target) :=
  fun units => inferInstanceAs (Decidable (target.toNat ≤ units % 2 ^ 32))

lemma reached_self (target : UInt32) : Reached target target.toNat :=
  le_of_eq (Nat.mod_eq_of_lt target.toNat_lt).symm

lemma not_reached {target : UInt32} {units : ℕ} (h : units < target.toNat) :
    ¬ Reached target units := by
  unfold Reached
  rw [Nat.mod_eq_of_lt (h.trans target.toNat_lt)]
  exact Nat.not_le.mpr h

/-- What `consumed` grows by over one scalar. -/
lemma toNat_step (e : PositionEncoding) (he : e ≠ .UTF8) (c : Char) :
    (if e = .UTF16 then UInt32.ofNat (Utf8.utf16Size c) else 1 : UInt32).toNat = e.units c := by
  cases e with
  | UTF8 => exact absurd rfl he
  | UTF16 =>
    rw [if_pos rfl]
    show (UInt32.ofNat (Utf8.utf16Size c)).toNat = Utf8.utf16Size c
    unfold Utf8.utf16Size
    split <;> rfl
  | UTF32 => rfl

/-- The second loop stops where the scan of the scalars does. -/
lemma walkLine_encode {e : PositionEncoding} (he : e ≠ .UTF8) (target : UInt32) (cs : List Char)
    (units : ℕ) (offset : ℕ) :
    walkLine e target (Utf8.encode cs) (UInt32.ofNat units) offset
      = offset +
        (Utf8.encode (cs.take (scanLine '\n' e.units (Reached target) cs units))).length := by
  -- along the scalars of the line
  induction cs generalizing units offset with
  | nil =>
    rw [Utf8.encode_nil, walkLine]
    rfl
  | cons c cs ih =>
    rcases Utf8.exists_lead_utf8EncodeChar c with ⟨b, tail, heq, -, -⟩
    have hb : b = newline ↔ c = '\n' := by
      constructor
      · intro hb
        apply Utf8.newline_mem_utf8EncodeChar
        rw [heq, hb]
        exact List.mem_cons_self
      · intro hc
        rw [hc] at heq
        exact (List.cons_eq_cons.mp heq).1.symm
    have hlt : UInt32.ofNat units < target ↔ ¬ Reached target units := by
      rw [UInt32.lt_iff_toNat_lt, UInt32.toNat_ofNat']
      exact Nat.not_le.symm
    have hdec := decodeUtf8_encode c cs
    have hdrop : (Utf8.encode (c :: cs)).drop c.utf8Size = Utf8.encode cs := by
      rw [Utf8.encode_cons, ← String.length_utf8EncodeChar]
      exact List.drop_left
    have hstep : UInt32.ofNat units + (if e = .UTF16 then UInt32.ofNat (Utf8.utf16Size c) else 1)
        = UInt32.ofNat (units + e.units c) := by
      rw [← toNat_step e he c, UInt32.ofNat_add, UInt32.ofNat_toNat]
    rw [scanLine]
    by_cases hgo : ¬ Reached target units ∧ c ≠ '\n'
    · rw [if_pos hgo, List.take_succ_cons]
      rw [Utf8.encode_cons, heq, List.cons_append] at hdec hdrop ⊢
      rw [walkLine, if_pos ⟨hlt.mpr hgo.1, fun h => hgo.2 (hb.mp h)⟩]
      simp only [hdec, hdrop]
      rw [hstep, ih, Utf8.encode_cons, List.length_append, String.length_utf8EncodeChar,
        Nat.add_assoc]
    · rw [if_neg hgo, List.take_zero, Utf8.encode_cons, heq, List.cons_append, walkLine,
        if_neg fun h => hgo ⟨hlt.mp h.1, fun hc => h.2 (hb.mpr hc)⟩]
      rfl

/-- **Outside of UTF-8** a position is converted to the byte offset of the index at which the scan
of its line stops. -/
theorem positionToOffset_eq {e : PositionEncoding} (he : e ≠ .UTF8) (cs : List Char)
    (pos : Position) :
    positionToOffset e (Utf8.encode cs) pos
      = (Utf8.encode (cs.take
          (scanIndex '\n' e.units (Reached pos.character) cs pos.line.toNat))).length := by
  rw [positionToOffset_walk he, lineStart_encode, drop_encode]
  rw [scanIndex, List.take_add, Utf8.encode_append, List.length_append]
  exact walkLine_encode he pos.character _ 0 _

/-- The offset a position names when its character counts bytes. -/
def byteOffset (text : Bytes) (pos : Position) : ℕ :=
  lineStart newline text pos.line.toNat + pos.character.toNat

lemma positionToOffset_utf8 (text : Bytes) (pos : Position) :
    positionToOffset .UTF8 text pos = byteOffset text pos := by
  simp only [positionToOffset, skipLines_eq, Nat.sub_zero, Nat.zero_add, if_pos]
  rfl

end CLSP
