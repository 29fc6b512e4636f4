import Mathlib.Algebra.Ring.Nat
import Mathlib.Data.Nat.Notation
import Mathlib.Tactic.Common

/-!
# UTF-8 as byte lists

`String.utf8EncodeChar` gives the bytes of one Unicode scalar. This file spells out the
encoding of a list of scalars and the facts that a byte-level scanner rests on:

* the lead byte announces the length of its sequence (`exists_lead_utf8EncodeChar`);
* the other bytes are at least `0x80`, so an ASCII byte stands for itself only
  (`mem_utf8EncodeChar_ascii`);
* `Valid` texts are closed under concatenation;
* a `Boundary` of a text cuts it into two valid ones.
-/

namespace Utf8

/-- The UTF-8 bytes of a list of scalars. -/
def encode (cs : List Char) : List UInt8 :=
  cs.flatMap String.utf8EncodeChar

@[simp] lemma encode_nil : encode [] = [] := rfl

@[simp] lemma encode_cons (c : Char) (cs : List Char) :
    encode (c :: cs) = String.utf8EncodeChar c ++ encode cs := by
  simp [encode]

@[simp] lemma encode_append (cs ds : List Char) : encode (cs ++ ds) = encode cs ++ encode ds := by
  simp [encode]

/-! ## The lead byte -/

/-- The length of the sequence a lead byte announces. -/
def leadSize (b : UInt8) : Option ℕ :=
  if b < 0x80 then some 1
  else if b &&& 0xE0 = 0xC0 then some 2
  else if b &&& 0xF0 = 0xE0 then some 3
  else if b &&& 0xF8 = 0xF0 then some 4
  else none

private lemma leadSize_one : ∀ n < 128, leadSize (UInt8.ofNat n) = some 1 := by decide

private lemma leadSize_two : ∀ n < 32, leadSize (UInt8.ofNat (n + 0xC0)) = some 2 := by decide

private lemma leadSize_three : ∀ n < 16, leadSize (UInt8.ofNat (n + 0xE0)) = some 3 := by decide

private lemma leadSize_four : ∀ n < 8, leadSize (UInt8.ofNat (n + 0xF0)) = some 4 := by decide

private lemma le_tail : ∀ n < 64, (0x80 : UInt8) ≤ UInt8.ofNat (n + 0x80) := by decide

/-- A scalar is encoded as a lead byte that announces the length, and bytes from `0x80` up. -/
theorem exists_lead_utf8EncodeChar (c : Char) :
    ∃ b tail, String.utf8EncodeChar c = b :: tail ∧ leadSize b = some c.utf8Size ∧
      ∀ t ∈ tail, 0x80 ≤ t := by
  have htail : ∀ n : ℕ, (0x80 : UInt8) ≤ UInt8.ofNat (n % 64 + 0x80) :=
    fun n => le_tail _ (Nat.mod_lt _ (by decide))
  rw [← String.length_utf8EncodeChar]
  fun_cases String.utf8EncodeChar with
  | case1 v h =>
    exact ⟨_, _, rfl, leadSize_one v (by omega), List.forall_mem_nil _⟩
  | case2 v _ h =>
    refine ⟨_, _, rfl, leadSize_two _ (Nat.mod_lt _ (by decide)), ?_⟩
    rw [List.forall_mem_singleton]
    exact htail v
  | case3 v _ _ h =>
    refine ⟨_, _, rfl, leadSize_three _ (Nat.mod_lt _ (by decide)), ?_⟩
    rw [List.forall_mem_cons, List.forall_mem_singleton]
    exact ⟨htail _, htail v⟩
  | case4 v _ _ h =>
    refine ⟨_, _, rfl, leadSize_four _ (Nat.mod_lt _ (by decide)), ?_⟩
    rw [List.forall_mem_cons, List.forall_mem_cons, List.forall_mem_singleton]
    exact ⟨htail _, htail _, htail v⟩

/-- An ASCII byte in the encoding of a scalar is the whole encoding. -/
theorem mem_utf8EncodeChar_ascii {c : Char} {b : UInt8} (hmem : b ∈ String.utf8EncodeChar c)
    (hb : b < 0x80) : String.utf8EncodeChar c = [b] := by
  obtain ⟨lead, tail, heq, hlead, htail⟩ := exists_lead_utf8EncodeChar c
  rw [heq, List.mem_cons] at hmem
  rcases hmem with rfl | hmem
  · have hlen := congrArg List.length heq
    rw [String.length_utf8EncodeChar] at hlen
    have hone : c.utf8Size = 1 := by
      simpa [leadSize, hb] using hlead.symm
    rw [hone] at hlen
    have : tail = [] := by simpa using hlen
    rw [heq, this]
  · exact absurd hb (UInt8.not_lt.mpr (htail b hmem))

/-- The newline byte occurs in the encoding of the newline only. -/
theorem newline_mem_utf8EncodeChar {c : Char} (h : (0x0A : UInt8) ∈ String.utf8EncodeChar c) :
    c = '\n' := by
  have heq := mem_utf8EncodeChar_ascii h (by decide)
  have hsize : c.utf8Size = 1 := by
    rw [← String.length_utf8EncodeChar, heq]
    rfl
  have hle : c.toNat ≤ 127 := UInt32.le_iff_toNat_le.mp (Char.utf8Size_eq_one_iff.mp hsize)
  have hbyte : UInt8.ofNat c.toNat = 10 := by
    simpa [String.utf8EncodeChar, hle] using heq
  have hval : c.toNat % 256 = 10 := congrArg UInt8.toNat hbyte
  apply Char.toNat_inj.mp
  have : ('\n' : Char).toNat = 10 := rfl
  omega

/-! ## Sizes -/

/-- UTF-16 code units of a scalar: a surrogate pair beyond the basic plane. -/
def utf16Size (c : Char) : ℕ :=
  if c.utf8Size = 4 then 2 else 1

lemma utf16Size_pos (c : Char) : 0 < utf16Size c := by
  unfold utf16Size
  split <;> omega

lemma length_encode (cs : List Char) : (encode cs).length = (cs.map Char.utf8Size).sum := by
  induction cs with
  | nil => rfl
  | cons c cs ih => simp [ih]

/-! ## Valid texts -/

/-- A byte string is valid UTF-8 when it encodes some list of scalars. -/
def Valid (bs : List UInt8) : Prop :=
  ∃ cs, encode cs = bs

lemma Valid.append {as bs : List UInt8} (ha : Valid as) (hb : Valid bs) : Valid (as ++ bs) := by
  obtain ⟨cs, rfl⟩ := ha
  obtain ⟨ds, rfl⟩ := hb
  exact ⟨cs ++ ds, encode_append cs ds⟩

lemma valid_nil : Valid [] := ⟨[], rfl⟩

/-- The same as the predicate on byte arrays, which is decided by decoding. -/
lemma valid_iff_isValidUTF8 {bs : List UInt8} : Valid bs ↔ bs.toByteArray.IsValidUTF8 := by
  constructor
  · rintro ⟨cs, rfl⟩
    exact ⟨cs, rfl⟩
  · rintro ⟨cs, hcs⟩
    exact ⟨cs, (List.toByteArray_inj.mp hcs).symm⟩

instance (bs : List UInt8) : Decidable (Valid bs) :=
  decidable_of_iff _ valid_iff_isValidUTF8.symm

/-- A byte that leads no sequence. -/
lemma not_valid_of_leadSize {b : UInt8} (hb : leadSize b = none) (rest : List UInt8) :
    ¬ Valid (b :: rest) := by
  intro hvalid
  rcases hvalid with ⟨cs, hcs⟩
  cases cs with
  | nil => cases hcs
  | cons c cs =>
    rcases exists_lead_utf8EncodeChar c with ⟨lead, tail, heq, hlead, -⟩
    rw [encode_cons, heq, List.cons_append, List.cons_eq_cons] at hcs
    rw [hcs.1, hb] at hlead
    exact absurd hlead (by simp)

/-- A sequence of more than one byte does not go on with an ASCII byte. -/
lemma not_valid_of_cut {b t : UInt8} {n : ℕ} (hb : leadSize b = some (n + 2)) (ht : t < 0x80)
    (rest : List UInt8) : ¬ Valid (b :: t :: rest) := by
  intro hvalid
  rcases hvalid with ⟨cs, hcs⟩
  cases cs with
  | nil => cases hcs
  | cons c cs =>
    rcases exists_lead_utf8EncodeChar c with ⟨lead, tail, heq, hlead, htail⟩
    have hlen := congrArg List.length heq
    rw [encode_cons, heq, List.cons_append, List.cons_eq_cons] at hcs
    rw [hcs.1, hb, Option.some.injEq] at hlead
    rw [String.length_utf8EncodeChar, List.length_cons] at hlen
    cases tail with
    | nil =>
      rw [List.length_nil] at hlen
      omega
    | cons t' tail =>
      have hhead : t' = t := (List.cons_eq_cons.mp hcs.2).1
      exact UInt8.not_lt.mpr (htail t' List.mem_cons_self) (hhead ▸ ht)

/-! ## Boundaries -/

/-- The index `i` is not inside a sequence: what is before and what is after is valid. Beyond the
end of a valid text every index is a boundary. -/
def Boundary (bs : List UInt8) (i : ℕ) : Prop :=
  Valid (bs.take i) ∧ Valid (bs.drop i)

lemma Boundary.min_length {bs : List UInt8} {i : ℕ} (h : Boundary bs i) :
    Boundary bs (min i bs.length) := by
  unfold Boundary
  rw [List.take_eq_take_min, Nat.min_assoc, Nat.min_self, ← List.take_eq_take_min]
  refine ⟨h.1, ?_⟩
  rcases Nat.le_total i bs.length with hle | hle
  · rw [Nat.min_eq_left hle]
    exact h.2
  · rw [Nat.min_eq_right hle, List.drop_length]
    exact valid_nil

end Utf8
