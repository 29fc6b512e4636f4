import CLSP.Lib.Utf8

/-!
# Texts that need not be valid UTF-8

Every byte string falls into sequences: a lead byte with the continuation bytes it announces when
all of them follow it, and a single byte otherwise.

* nothing is lost (`flatten_sequences`);
* an ASCII byte is a sequence of its own (`mem_sequence_ascii`).
-/

namespace Utf8

def isContinuation (b : UInt8) : Bool :=
  b &&& 0xC0 = 0x80

/-- How many continuation bytes a byte announces. -/
def announced (b : UInt8) : ℕ :=
  (leadSize b).getD 1 - 1

/-- The continuation bytes that belong to a byte: those it announces, or none. -/
def followers (b : UInt8) (tail : List UInt8) : ℕ :=
  if announced b ≤ tail.length ∧ (tail.take (announced b)).all isContinuation then announced b
  else 0

/-- The sequences of a text. -/
def sequences : List UInt8 → List (List UInt8)
  | [] => []
  | b :: tail => (b :: tail.take (followers b tail)) :: sequences (tail.drop (followers b tail))
termination_by bs => bs.length
decreasing_by
  simp only [List.length_drop, List.length_cons]
  omega

/-- The text starts with a byte that is not followed by the continuation bytes it announces. -/
def CutLead : List UInt8 → Prop
  | [] => False
  | b :: tail => followers b tail < announced b

instance : DecidablePred CutLead
  | [] => inferInstanceAs (Decidable False)
  | b :: tail => inferInstanceAs (Decidable (followers b tail < announced b))

@[simp] lemma sequences_nil : sequences [] = [] := by
  rw [sequences]

lemma sequences_cons (b : UInt8) (tail : List UInt8) : sequences (b :: tail) =
    (b :: tail.take (followers b tail)) :: sequences (tail.drop (followers b tail)) := by
  rw [sequences]

/-- Nothing is lost. -/
@[simp] theorem flatten_sequences (bs : List UInt8) : (sequences bs).flatten = bs := by
  induction bs using sequences.induct with
  | case1 => rw [sequences_nil, List.flatten_nil]
  | case2 b tail ih =>
    rw [sequences_cons, List.flatten_cons, ih, List.cons_append, List.take_append_drop]

/-- The first sequences are the start of the text. -/
lemma take_length_flatten (bs : List UInt8) (i : ℕ) :
    bs.take ((sequences bs).take i).flatten.length = ((sequences bs).take i).flatten := by
  have hsplit : ((sequences bs).take i).flatten ++ ((sequences bs).drop i).flatten = bs := by
    rw [← List.flatten_append, List.take_append_drop, flatten_sequences]
  calc bs.take ((sequences bs).take i).flatten.length
      = (((sequences bs).take i).flatten ++ ((sequences bs).drop i).flatten).take
          ((sequences bs).take i).flatten.length := by rw [hsplit]
    _ = ((sequences bs).take i).flatten := List.take_left

/-! ## The first sequence -/

section First

variable {b : UInt8} {tail : List UInt8}

lemma followers_le_announced : followers b tail ≤ announced b := by
  unfold followers
  split <;> omega

lemma followers_le_length : followers b tail ≤ tail.length := by
  unfold followers
  split <;> omega

lemma followers_eq_zero (h : CutLead (b :: tail)) : followers b tail = 0 := by
  have hlt : followers b tail < announced b := h
  unfold followers at hlt ⊢
  split at hlt
  · exact absurd hlt (Nat.lt_irrefl _)
  · next hno => rw [if_neg hno]

lemma followers_eq_announced (h : ¬ CutLead (b :: tail)) : followers b tail = announced b :=
  Nat.le_antisymm followers_le_announced (Nat.le_of_not_lt h)

lemma isContinuation_of_mem_take {t : UInt8} (h : t ∈ tail.take (followers b tail)) :
    isContinuation t = true := by
  unfold followers at h
  split at h
  · next hall => exact List.all_eq_true.mp hall.2 t h
  · exact absurd h (by simp)

/-- A byte below `0x80` announces none. -/
lemma announced_ascii (h : b < 0x80) : announced b = 0 := by
  simp [announced, leadSize, h]

lemma not_isContinuation_ascii (h : b < 0x80) : ¬ isContinuation b = true := by
  intro hb
  have hle : b &&& 0xC0 ≤ b := by
    rw [UInt8.le_iff_toNat_le, UInt8.toNat_and]
    exact Nat.and_le_left
  rw [of_decide_eq_true hb] at hle
  exact absurd h (UInt8.not_lt.mpr hle)

/-- An ASCII byte is a sequence of its own. -/
lemma mem_sequence_ascii {a : UInt8} (ha : a < 0x80) (h : a ∈ b :: tail.take (followers b tail)) :
    b :: tail.take (followers b tail) = [a] := by
  rcases List.mem_cons.mp h with rfl | hmem
  · have hnone : followers a tail = 0 := by
      have hle : followers a tail ≤ announced a := followers_le_announced
      rw [announced_ascii ha] at hle
      omega
    rw [hnone, List.take_zero]
  · exact absurd (isContinuation_of_mem_take hmem) (not_isContinuation_ascii ha)

end First

lemma eq_singleton_of_mem_sequences {bs s : List UInt8} {a : UInt8} (hs : s ∈ sequences bs)
    (ha : a < 0x80) (h : a ∈ s) : s = [a] := by
  induction bs using sequences.induct with
  | case1 => simp at hs
  | case2 b tail ih =>
    rw [sequences_cons] at hs
    rcases List.mem_cons.mp hs with rfl | hs
    · exact mem_sequence_ascii ha h
    · exact ih hs

end Utf8
