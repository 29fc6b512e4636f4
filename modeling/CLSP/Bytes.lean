import CLSP.Lib.Utf8

/-!
# `std::string` and `size_t`

A `std::string` is the list of its bytes. The operations here are the ones of `<string>` that
the sources use, with the exceptions they throw; `size_t` values are naturals, and the one
operation that leaves their range, the difference, wraps explicitly.
-/

namespace CLSP

/-- The bytes of a `std::string`. -/
abbrev Bytes := List UInt8

/-- The bytes of a string literal. -/
def str (s : String) : Bytes :=
  Utf8.encode s.toList

lemma valid_str (s : String) : Utf8.Valid (str s) := ⟨s.toList, rfl⟩

/-- What holds of the 256 values of a byte holds of every byte. -/
lemma forall_byte {P : UInt8 → Prop} (h : ∀ n < 256, P (UInt8.ofNat n)) (b : UInt8) : P b := by
  have hb := h b.toNat b.toNat_lt
  rwa [UInt8.ofNat_toNat] at hb

/-- The `'\n'` of the sources. -/
def newline : UInt8 := 0x0A

/-- The `':'` of the sources. -/
def colon : UInt8 := 0x3A

/-- What the operations of `std::string` throw. -/
inductive StringError
  | outOfRange
  | lengthError
deriving DecidableEq, Repr

/-- `a - b` on 64-bit `size_t` values. -/
def sizeSub (a b : ℕ) : ℕ :=
  if b ≤ a then a - b else 2 ^ 64 + a - b

lemma sizeSub_of_le {a b : ℕ} (h : b ≤ a) : sizeSub a b = a - b := if_pos h

/-- `text.replace(pos, n, s)`: the position is checked, the length is cut at the end. -/
def replace (text : Bytes) (pos n : ℕ) (s : Bytes) : Except StringError Bytes :=
  if pos > text.length then .error .outOfRange
  else .ok (text.take pos ++ s ++ text.drop (pos + min n (text.length - pos)))

/-- Between two offsets in order, the first of them in the text. -/
lemma replace_of_le {text : Bytes} {start stop : ℕ} (hle : start ≤ stop)
    (hin : start ≤ text.length) (s : Bytes) :
    replace text start (sizeSub stop start) s = .ok (text.take start ++ s ++ text.drop stop) := by
  have hdrop : text.drop (start + min (stop - start) (text.length - start)) = text.drop stop := by
    by_cases hstop : stop ≤ text.length
    · congr 1
      omega
    · rw [List.drop_of_length_le (by omega), List.drop_of_length_le (by omega)]
  rw [replace, if_neg (Nat.not_lt.mpr hin), sizeSub_of_le hle, hdrop]

lemma replace_error_iff {text s : Bytes} {pos n : ℕ} :
    (∃ error, replace text pos n s = .error error) ↔ text.length < pos := by
  unfold replace
  split <;> simp_all

end CLSP
