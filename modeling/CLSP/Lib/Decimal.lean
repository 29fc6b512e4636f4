import Mathlib.Algebra.Order.Ring.Nat
import Mathlib.Tactic.Common

/-!
# Decimal numerals in ASCII

`print` writes a natural number in decimal digits, `value` reads any string of digits, leading
zeros allowed, and `value_print` undoes the first with the second.
-/

namespace Decimal

/-- The bytes `'0'` to `'9'`. -/
def IsDigit (b : UInt8) : Prop :=
  0x30 ≤ b ∧ b ≤ 0x39

instance (b : UInt8) : Decidable (IsDigit b) :=
  inferInstanceAs (Decidable (_ ∧ _))

def AllDigits (bs : List UInt8) : Prop :=
  ∀ b ∈ bs, IsDigit b

instance (bs : List UInt8) : Decidable (AllDigits bs) :=
  List.decidableBAll _ bs

lemma allDigits_nil : AllDigits [] :=
  fun _ h => absurd h List.not_mem_nil

lemma allDigits_cons {b : UInt8} {bs : List UInt8} :
    AllDigits (b :: bs) ↔ IsDigit b ∧ AllDigits bs :=
  List.forall_mem_cons

/-- The number a string of digits denotes, read on from `acc`. -/
def valueFrom (acc : ℕ) (bs : List UInt8) : ℕ :=
  bs.foldl (fun n b => n * 10 + (b.toNat - 48)) acc

/-- The number a string of digits denotes. -/
def value (bs : List UInt8) : ℕ := valueFrom 0 bs

/-- The digits of a number, without leading zeros. -/
def print (n : ℕ) : List UInt8 :=
  (Nat.toDigits 10 n).map fun c => UInt8.ofNat c.toNat

lemma valueFrom_append (acc : ℕ) (as bs : List UInt8) :
    valueFrom acc (as ++ bs) = valueFrom (valueFrom acc as) bs := by
  simp [valueFrom]

lemma print_eq_if (n : ℕ) :
    print n = if n < 10 then [UInt8.ofNat (48 + n)]
      else print (n / 10) ++ [UInt8.ofNat (48 + n % 10)] := by
  unfold print
  rw [Nat.toDigits_eq_if (by decide)]
  split
  · next h => rw [List.map_singleton, Nat.toNat_digitChar_of_lt_ten h]
  · have hmod : n % 10 < 10 := Nat.mod_lt _ (by decide)
    rw [List.map_append, List.map_singleton, Nat.toNat_digitChar_of_lt_ten hmod]

private lemma isDigit_ofNat : ∀ d < 10, IsDigit (UInt8.ofNat (48 + d)) := by decide

private lemma toNat_ofNat_digit : ∀ d < 10, (UInt8.ofNat (48 + d)).toNat - 48 = d := by decide

lemma print_ne_nil (n : ℕ) : print n ≠ [] := by
  rw [print_eq_if]
  split <;> simp

/-- `print` writes digits only. -/
theorem isDigit_of_mem_print {n : ℕ} {b : UInt8} (h : b ∈ print n) : IsDigit b := by
  induction n using Nat.strong_induction_on with
  | _ n ih =>
    rw [print_eq_if] at h
    split at h
    · next hn =>
      rw [List.mem_singleton.mp h]
      exact isDigit_ofNat n hn
    · rcases List.mem_append.mp h with h | h
      · exact ih (n / 10) (by omega) h
      · rw [List.mem_singleton.mp h]
        exact isDigit_ofNat _ (Nat.mod_lt _ (by decide))

/-- Reading undoes printing. -/
theorem value_print (n : ℕ) : value (print n) = n := by
  unfold value
  induction n using Nat.strong_induction_on with
  | _ n ih =>
    rw [print_eq_if]
    split
    · next hn =>
      rw [valueFrom, List.foldl_cons, List.foldl_nil, toNat_ofNat_digit n hn]
      omega
    · have hmod : n % 10 < 10 := Nat.mod_lt _ (by decide)
      rw [valueFrom_append, ih (n / 10) (by omega), valueFrom, List.foldl_cons, List.foldl_nil,
        toNat_ofNat_digit _ hmod]
      omega

end Decimal
