import Mathlib.Algebra.Order.Ring.Nat
import Mathlib.Tactic.Common

/-!
# Positions in a text made of lines

A text is a list of symbols, one of which (`nl`) ends a line, and every symbol takes `w` units
of its line. A position is a pair (line, units into the line).

* `positionOf` reads the position of an index;
* `locate` is its partial inverse: it finds the index of a position that falls on a boundary
  between two symbols of an existing line (`locate_eq_some_iff`);
* `locate` is monotone for the lexicographic order of positions (`locate_le_locate`);
* `splice` replaces what lies between two indices;
* `lineStart` is the index at which a line starts.
-/

namespace LineText

variable {α : Type*} [DecidableEq α] (nl : α) (w : α → ℕ)

/-- The position at the end of `pre`: its newlines, and the units after the last of them. -/
def positionOf : List α → ℕ × ℕ
  | [] => (0, 0)
  | c :: cs =>
    let p := positionOf cs
    if c = nl then (p.1 + 1, p.2) else (p.1, if p.1 = 0 then w c + p.2 else p.2)

/-- The index of the position `n` units into line `l`, if the text has that line and the
position is a boundary in it. -/
def locate : List α → ℕ → ℕ → Option ℕ
  | _, 0, 0 => some 0
  | [], _, _ => none
  | c :: cs, 0, n + 1 =>
    if c ≠ nl ∧ w c ≤ n + 1 then (locate cs 0 (n + 1 - w c)).map (· + 1) else none
  | c :: cs, l + 1, n => (locate cs (if c = nl then l else l + 1) n).map (· + 1)

/-- Replace what lies between the indices `i` and `j`. -/
def splice (text : List α) (i j : ℕ) (new : List α) : List α :=
  text.take i ++ new ++ text.drop j

/-- The index at which line `l` starts, the end of a text that has fewer lines. -/
def lineStart : List α → ℕ → ℕ
  | _, 0 => 0
  | [], _ + 1 => 0
  | c :: cs, l + 1 => lineStart cs (if c = nl then l else l + 1) + 1

variable {nl w}

@[simp] lemma locate_zero_zero (text : List α) : locate nl w text 0 0 = some 0 := by
  cases text <;> rfl

lemma locate_cons_zero {c : α} {cs : List α} {n : ℕ} (hn : 0 < n) :
    locate nl w (c :: cs) 0 n
      = if c ≠ nl ∧ w c ≤ n then (locate nl w cs 0 (n - w c)).map (· + 1) else none := by
  cases n with
  | zero => exact absurd hn (Nat.lt_irrefl 0)
  | succ n => rfl

lemma locate_cons_succ (c : α) (cs : List α) (l n : ℕ) :
    locate nl w (c :: cs) (l + 1) n
      = (locate nl w cs (if c = nl then l else l + 1) n).map (· + 1) := rfl

/-- A boundary inside the first line: its first symbol is not a newline and fits. -/
lemma locate_cons_zero_eq_some {c : α} {cs : List α} {n i : ℕ} (hn : 0 < n)
    (h : locate nl w (c :: cs) 0 n = some i) :
    c ≠ nl ∧ w c ≤ n ∧ ∃ k, i = k + 1 ∧ locate nl w cs 0 (n - w c) = some k := by
  rw [locate_cons_zero hn] at h
  split at h
  · next hc =>
    obtain ⟨k, hk, rfl⟩ := Option.map_eq_some_iff.mp h
    exact ⟨hc.1, hc.2, k, rfl, hk⟩
  · cases h

lemma locate_cons_succ_eq_some {c : α} {cs : List α} {l n i : ℕ}
    (h : locate nl w (c :: cs) (l + 1) n = some i) :
    ∃ k, i = k + 1 ∧ locate nl w cs (if c = nl then l else l + 1) n = some k := by
  obtain ⟨k, hk, rfl⟩ := Option.map_eq_some_iff.mp h
  exact ⟨k, rfl, hk⟩

lemma locate_nil_eq_some {l n i : ℕ} (h : locate nl w [] l n = some i) :
    l = 0 ∧ n = 0 ∧ i = 0 := by
  match l, n, h with
  | 0, 0, h => exact ⟨rfl, rfl, (Option.some.inj h).symm⟩

/-- In the first line the units before a located index are the position's units. -/
theorem sum_take_of_locate_zero {text : List α} {n i : ℕ} (h : locate nl w text 0 n = some i) :
    ((text.take i).map w).sum = n := by
  induction text generalizing n i with
  | nil =>
    obtain ⟨-, rfl, rfl⟩ := locate_nil_eq_some h
    rfl
  | cons c cs ih =>
    rcases Nat.eq_zero_or_pos n with rfl | hn
    · rw [locate_zero_zero] at h
      cases h
      rfl
    · obtain ⟨-, hle, k, rfl, hk⟩ := locate_cons_zero_eq_some hn h
      have := ih hk
      simp only [List.take_succ_cons, List.map_cons, List.sum_cons]
      omega

/-- Positions in lexicographic order are located at indices in the same order. -/
theorem locate_le_locate {text : List α} {l n l' n' i j : ℕ}
    (h : locate nl w text l n = some i) (h' : locate nl w text l' n' = some j)
    (hle : l < l' ∨ l = l' ∧ n ≤ n') : i ≤ j := by
  -- along the text, both searches at once
  induction text generalizing l n l' n' i j with
  | nil =>
    obtain ⟨-, -, rfl⟩ := locate_nil_eq_some h
    exact Nat.zero_le j
  | cons c cs ih =>
    cases l with
    | zero =>
      rcases Nat.eq_zero_or_pos n with rfl | hn
      · rw [locate_zero_zero] at h
        cases h
        exact Nat.zero_le j
      · obtain ⟨hc, hw, k, rfl, hk⟩ := locate_cons_zero_eq_some hn h
        cases l' with
        | zero =>
          obtain ⟨-, -, k', rfl, hk'⟩ := locate_cons_zero_eq_some (by omega) h'
          have := ih hk hk' (Or.inr ⟨rfl, by omega⟩)
          omega
        | succ l' =>
          obtain ⟨k', rfl, hk'⟩ := locate_cons_succ_eq_some h'
          -- the second position is on a later line and this symbol is on the first
          rw [if_neg hc] at hk'
          have := ih hk hk' (Or.inl (Nat.succ_pos l'))
          omega
    | succ l =>
      obtain ⟨k, rfl, hk⟩ := locate_cons_succ_eq_some h
      cases l' with
      | zero => omega
      | succ l' =>
        obtain ⟨k', rfl, hk'⟩ := locate_cons_succ_eq_some h'
        have := ih hk hk' (by split <;> omega)
        omega

/-! ## Starts of lines -/

@[simp] lemma lineStart_zero (text : List α) : lineStart nl text 0 = 0 := by
  cases text <;> rfl

@[simp] lemma lineStart_nil (l : ℕ) : lineStart nl [] l = 0 := by
  cases l <;> rfl

lemma lineStart_cons_succ (c : α) (cs : List α) (l : ℕ) :
    lineStart nl (c :: cs) (l + 1) = lineStart nl cs (if c = nl then l else l + 1) + 1 := rfl

/-- Symbols that do not end a line are skipped. -/
lemma lineStart_append {as : List α} (has : nl ∉ as) (bs : List α) (l : ℕ) :
    lineStart nl (as ++ bs) (l + 1) = as.length + lineStart nl bs (l + 1) := by
  induction as with
  | nil => simp
  | cons a as ih =>
    have ha : a ≠ nl := fun h => has (by simp [h])
    rw [List.cons_append, lineStart_cons_succ, if_neg ha, ih (fun h => has (by simp [h])),
      List.length_cons]
    omega

/-! ## `locate` inverts `positionOf` -/

lemma positionOf_cons_of_eq {c : α} (cs : List α) (hc : c = nl) :
    positionOf nl w (c :: cs) = ((positionOf nl w cs).1 + 1, (positionOf nl w cs).2) := by
  simp [positionOf, hc]

lemma positionOf_cons_of_ne {c : α} (cs : List α) (hc : c ≠ nl) :
    positionOf nl w (c :: cs) = ((positionOf nl w cs).1,
      if (positionOf nl w cs).1 = 0 then w c + (positionOf nl w cs).2
      else (positionOf nl w cs).2) := by
  simp [positionOf, hc]

lemma positionOf_cons_zero_iff {c : α} {cs : List α} {n : ℕ} :
    positionOf nl w (c :: cs) = (0, n) ↔
      c ≠ nl ∧ w c ≤ n ∧ positionOf nl w cs = (0, n - w c) := by
  by_cases hc : c = nl
  · rw [positionOf_cons_of_eq cs hc]
    simp [hc]
  · rw [positionOf_cons_of_ne cs hc]
    obtain ⟨l, m⟩ := positionOf nl w cs
    cases l with
    | zero =>
      simp only [if_true, Prod.mk.injEq, true_and, ne_eq, hc, not_false_eq_true]
      omega
    | succ l => simp

lemma positionOf_cons_succ_iff {c : α} {cs : List α} {l n : ℕ} :
    positionOf nl w (c :: cs) = (l + 1, n) ↔
      positionOf nl w cs = (if c = nl then l else l + 1, n) := by
  by_cases hc : c = nl
  · rw [positionOf_cons_of_eq cs hc, if_pos hc]
    simp [Prod.ext_iff]
  · rw [positionOf_cons_of_ne cs hc, if_neg hc]
    obtain ⟨l', m⟩ := positionOf nl w cs
    cases l' <;> simp

/-- `locate` finds the one index whose position is the given one. -/
theorem locate_eq_some_iff (hw : ∀ a, 0 < w a) {text : List α} {l n i : ℕ} :
    locate nl w text l n = some i ↔
      i ≤ text.length ∧ positionOf nl w (text.take i) = (l, n) := by
  induction text generalizing l n i with
  | nil =>
    constructor
    · intro h
      obtain ⟨rfl, rfl, rfl⟩ := locate_nil_eq_some h
      exact ⟨le_rfl, rfl⟩
    · intro hi
      rcases hi with ⟨hi, h⟩
      obtain rfl : i = 0 := Nat.le_zero.mp hi
      cases h
      rfl
  | cons c cs ih =>
    cases i with
    | zero =>
      -- only the position (0, 0) is located before the first symbol
      constructor
      · intro h
        cases l with
        | zero =>
          rcases Nat.eq_zero_or_pos n with rfl | hn
          · exact ⟨Nat.zero_le _, rfl⟩
          · obtain ⟨-, -, k, hk, -⟩ := locate_cons_zero_eq_some hn h
            omega
        | succ l =>
          obtain ⟨k, hk, -⟩ := locate_cons_succ_eq_some h
          omega
      · intro h
        cases h.2
        exact locate_zero_zero _
    | succ k =>
      rw [List.take_succ_cons, List.length_cons, Nat.add_le_add_iff_right]
      cases l with
      | zero =>
        rw [positionOf_cons_zero_iff]
        rcases Nat.eq_zero_or_pos n with rfl | hn
        · have := hw c
          rw [locate_zero_zero]
          simp only [Option.some.injEq]
          omega
        · rw [locate_cons_zero hn]
          by_cases hc : c ≠ nl ∧ w c ≤ n
          · simp [hc, ih]
          · rw [if_neg hc]
            tauto
      | succ l =>
        rw [positionOf_cons_succ_iff, locate_cons_succ]
        simp [ih]

end LineText
