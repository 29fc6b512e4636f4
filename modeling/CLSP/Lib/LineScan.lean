import CLSP.Lib.LineText

/-!
# Scans of a line

A scan walks along a line and adds up the units of the symbols it passes, until the sum satisfies
`stop` or the line ends.

* `scanLine` stops at the first index that satisfies `stop` (`scanLine_le`, `stop_scanLine`,
  `not_stop_of_lt_scanLine`);
* `scanIndex` is the index at which a scan of a given line stops; it finds the index of every
  located position (`scanIndex_of_locate`) and is monotone (`scanIndex_le_scanIndex`);
* lines are in order (`lineEnd_le_lineStart`).
-/

namespace LineText

variable {α : Type*} [DecidableEq α] (nl : α) (w : α → ℕ)

/-- The number of symbols before the first newline. -/
def lineLength : List α → ℕ
  | [] => 0
  | c :: cs => if c = nl then 0 else lineLength cs + 1

/-- The index at which line `l` ends, before its newline. -/
def lineEnd (text : List α) (l : ℕ) : ℕ :=
  lineStart nl text l + lineLength nl (text.drop (lineStart nl text l))

/-- The units of the first `i` symbols. -/
def unitsTo (text : List α) (i : ℕ) : ℕ :=
  ((text.take i).map w).sum

section Scan

variable (stop : ℕ → Prop) [DecidablePred stop]

/-- How many symbols a scan passes from a sum of `n` units on. -/
def scanLine : List α → ℕ → ℕ
  | [], _ => 0
  | c :: cs, n => if ¬ stop n ∧ c ≠ nl then scanLine cs (n + w c) + 1 else 0

/-- The index at which the scan of line `l` stops. -/
def scanIndex (text : List α) (l : ℕ) : ℕ :=
  lineStart nl text l + scanLine nl w stop (text.drop (lineStart nl text l)) 0

end Scan

variable {nl w}

omit [DecidableEq α] in
@[simp] lemma unitsTo_zero (text : List α) : unitsTo w text 0 = 0 := rfl

omit [DecidableEq α] in
@[simp] lemma unitsTo_cons_succ (c : α) (cs : List α) (i : ℕ) :
    unitsTo w (c :: cs) (i + 1) = w c + unitsTo w cs i := by
  simp [unitsTo]

/-! ## Lines -/

lemma lineLength_le (text : List α) : lineLength nl text ≤ text.length := by
  induction text with
  | nil => exact Nat.le_refl 0
  | cons c cs ih =>
    rw [lineLength, List.length_cons]
    split <;> omega

/-- There is no newline before the first one. -/
lemma notMem_take_of_le_lineLength {text : List α} {i : ℕ} (h : i ≤ lineLength nl text) :
    nl ∉ text.take i := by
  induction text generalizing i with
  | nil => simp
  | cons c cs ih =>
    cases i with
    | zero => simp
    | succ i =>
      rw [lineLength] at h
      split at h
      · exact absurd h (Nat.not_succ_le_zero i)
      · next hc =>
        rw [List.take_succ_cons, List.mem_cons, not_or]
        exact ⟨fun heq => hc heq.symm, ih (Nat.le_of_succ_le_succ h)⟩

lemma lineStart_le_length (text : List α) (l : ℕ) : lineStart nl text l ≤ text.length := by
  induction text generalizing l with
  | nil => rw [lineStart_nil]; exact Nat.le_refl 0
  | cons c cs ih =>
    cases l with
    | zero => rw [lineStart_zero]; exact Nat.zero_le _
    | succ l =>
      rw [lineStart_cons_succ, List.length_cons]
      have := ih (if c = nl then l else l + 1)
      omega

/-- A text that has fewer lines is skipped to its end. -/
lemma lineStart_eq_length {text : List α} {l : ℕ} (h : text.count nl < l) :
    lineStart nl text l = text.length := by
  induction text generalizing l with
  | nil => rw [lineStart_nil]; rfl
  | cons c cs ih =>
    cases l with
    | zero => omega
    | succ l =>
      rw [lineStart_cons_succ, List.length_cons, ih]
      rw [List.count_cons] at h
      by_cases hc : c = nl
      · simp only [hc, beq_self_eq_true, if_true] at h ⊢
        omega
      · simp only [beq_iff_eq, hc, if_false] at h ⊢
        omega

/-- A line starts behind as many newlines as its number says. -/
lemma count_take_lineStart {text : List α} {l : ℕ} (h : l ≤ text.count nl) :
    (text.take (lineStart nl text l)).count nl = l := by
  induction text generalizing l with
  | nil =>
    rw [List.count_nil] at h
    obtain rfl := Nat.le_zero.mp h
    rfl
  | cons c cs ih =>
    cases l with
    | zero => rw [lineStart_zero, List.take_zero, List.count_nil]
    | succ l =>
      rw [lineStart_cons_succ, List.take_succ_cons, List.count_cons]
      rw [List.count_cons] at h
      by_cases hc : c = nl
      · simp only [hc, beq_self_eq_true, if_true] at h ⊢
        rw [ih (by omega)]
      · simp only [beq_iff_eq, hc, if_false] at h ⊢
        rw [ih h]

lemma lineEnd_le_length (text : List α) (l : ℕ) : lineEnd nl text l ≤ text.length := by
  have hstart : lineStart nl text l ≤ text.length := lineStart_le_length text l
  have hlength : lineLength nl (text.drop (lineStart nl text l))
      ≤ (text.drop (lineStart nl text l)).length := lineLength_le _
  rw [List.length_drop] at hlength
  unfold lineEnd
  omega

/-- The next line starts after the end of a line, behind its newline if there is one. -/
lemma lineEnd_le_lineStart_succ (text : List α) (l : ℕ) :
    lineEnd nl text l ≤ lineStart nl text (l + 1) := by
  unfold lineEnd
  induction text generalizing l with
  | nil => simp [lineLength]
  | cons c cs ih =>
    cases l with
    | zero =>
      rw [lineStart_zero, List.drop_zero, Nat.zero_add, lineLength, lineStart_cons_succ]
      by_cases hc : c = nl
      · rw [if_pos hc]
        exact Nat.zero_le _
      · have hrest := ih 0
        rw [lineStart_zero, List.drop_zero, Nat.zero_add] at hrest
        rw [if_neg hc, if_neg hc]
        exact Nat.succ_le_succ hrest
    | succ l =>
      rw [lineStart_cons_succ, lineStart_cons_succ, List.drop_succ_cons]
      by_cases hc : c = nl
      · rw [if_pos hc, if_pos hc]
        have hrest := ih l
        omega
      · rw [if_neg hc, if_neg hc]
        have hrest := ih (l + 1)
        omega

/-- Lines are in order. -/
theorem lineEnd_le_lineStart (text : List α) {l l' : ℕ} (h : l < l') :
    lineEnd nl text l ≤ lineStart nl text l' := by
  induction h with
  | refl => exact lineEnd_le_lineStart_succ text l
  | @step m _ ih =>
    calc lineEnd nl text l ≤ lineStart nl text m := ih
      _ ≤ lineEnd nl text m := Nat.le_add_right _ _
      _ ≤ lineStart nl text (m + 1) := lineEnd_le_lineStart_succ text m

/-! ## Where a scan stops -/

section Scan

variable {stop : ℕ → Prop} [DecidablePred stop]

lemma scanLine_le (text : List α) (n : ℕ) : scanLine nl w stop text n ≤ lineLength nl text := by
  induction text generalizing n with
  | nil => exact Nat.le_refl 0
  | cons c cs ih =>
    rw [scanLine, lineLength]
    by_cases hc : c = nl
    · rw [if_neg fun h => h.2 hc]
      exact Nat.zero_le _
    · rw [if_neg hc]
      split
      · exact Nat.succ_le_succ (ih _)
      · exact Nat.zero_le _

/-- A scan that does not reach the end of the line has stopped. -/
lemma stop_scanLine (text : List α) (n : ℕ) :
    scanLine nl w stop text n = lineLength nl text ∨
      stop (n + unitsTo w text (scanLine nl w stop text n)) := by
  induction text generalizing n with
  | nil => exact Or.inl rfl
  | cons c cs ih =>
    rw [scanLine, lineLength]
    by_cases hstop : stop n
    · rw [if_neg fun h => h.1 hstop]
      exact Or.inr hstop
    · by_cases hc : c = nl
      · rw [if_neg fun h => h.2 hc, if_pos hc]
        exact Or.inl rfl
      · rw [if_pos ⟨hstop, hc⟩, if_neg hc, unitsTo_cons_succ, ← Nat.add_assoc]
        exact (ih (n + w c)).imp (congrArg (· + 1)) id

/-- It has not stopped before. -/
lemma not_stop_of_lt_scanLine {text : List α} {n i : ℕ} (h : i < scanLine nl w stop text n) :
    ¬ stop (n + unitsTo w text i) := by
  induction text generalizing n i with
  | nil => exact absurd h (Nat.not_lt_zero i)
  | cons c cs ih =>
    rw [scanLine] at h
    split at h
    · next hgo =>
      cases i with
      | zero => exact hgo.1
      | succ i =>
        rw [unitsTo_cons_succ, ← Nat.add_assoc]
        exact ih (Nat.lt_of_succ_lt_succ h)
    · exact absurd h (Nat.not_lt_zero i)

/-- The scan passes an index unless it stops at one up to it. -/
lemma scanLine_le_iff {text : List α} {n i : ℕ} (hi : i < lineLength nl text) :
    scanLine nl w stop text n ≤ i ↔ ∃ j ≤ i, stop (n + unitsTo w text j) := by
  constructor
  · intro h
    have hend : scanLine nl w stop text n = lineLength nl text ∨
        stop (n + unitsTo w text (scanLine nl w stop text n)) := stop_scanLine text n
    rcases hend with heq | hstop
    · omega
    · exact ⟨_, h, hstop⟩
  · intro h
    rcases h with ⟨j, hj, hstop⟩
    by_contra hlt
    have hpassed : j < scanLine nl w stop text n := by omega
    exact not_stop_of_lt_scanLine hpassed hstop

/-- A scan that stops later passes more. -/
lemma scanLine_le_scanLine {stop' : ℕ → Prop} [DecidablePred stop']
    (h : ∀ n, stop' n → stop n) (text : List α) (n : ℕ) :
    scanLine nl w stop text n ≤ scanLine nl w stop' text n := by
  by_contra hlt
  have hbefore : scanLine nl w stop' text n < scanLine nl w stop text n := Nat.lt_of_not_le hlt
  have hend : scanLine nl w stop' text n = lineLength nl text ∨
      stop' (n + unitsTo w text (scanLine nl w stop' text n)) := stop_scanLine text n
  rcases hend with heq | hstop
  · have hle : scanLine nl w stop text n ≤ lineLength nl text := scanLine_le text n
    omega
  · exact not_stop_of_lt_scanLine hbefore (h _ hstop)

/-- The scan for a located position of the line stops there. -/
lemma scanLine_of_locate {text : List α} {n m r i : ℕ} (h : locate nl w text 0 r = some i)
    (hr : m + r = n) (hn : stop n) (hbefore : ∀ k < n, ¬ stop k) :
    scanLine nl w stop text m = i := by
  induction text generalizing m r i with
  | nil =>
    rcases locate_nil_eq_some h with ⟨-, -, rfl⟩
    rfl
  | cons c cs ih =>
    rcases Nat.eq_zero_or_pos r with rfl | hpos
    · rw [locate_zero_zero] at h
      cases h
      rw [Nat.add_zero] at hr
      rw [scanLine, if_neg fun hgo => hgo.1 (hr ▸ hn)]
    · rcases locate_cons_zero_eq_some hpos h with ⟨hc, hw, k, rfl, hk⟩
      rw [scanLine, if_pos ⟨hbefore m (by omega), hc⟩, ih hk (by omega)]

lemma scanIndex_le_lineEnd (text : List α) (l : ℕ) :
    scanIndex nl w stop text l ≤ lineEnd nl text l :=
  Nat.add_le_add_left (scanLine_le _ _) _

/-- A scan of a line has stopped or is at its end. -/
lemma stop_scanIndex (text : List α) (l : ℕ) :
    scanIndex nl w stop text l = lineEnd nl text l ∨
      stop (unitsTo w (text.drop (lineStart nl text l))
        (scanIndex nl w stop text l - lineStart nl text l)) := by
  have hend : scanLine nl w stop (text.drop (lineStart nl text l)) 0
        = lineLength nl (text.drop (lineStart nl text l)) ∨
      stop (0 + unitsTo w (text.drop (lineStart nl text l))
        (scanLine nl w stop (text.drop (lineStart nl text l)) 0)) := stop_scanLine _ 0
  rw [Nat.zero_add] at hend
  unfold scanIndex lineEnd
  rw [Nat.add_sub_cancel_left]
  exact hend.imp (congrArg _) id

lemma not_stop_of_lt_scanIndex {text : List α} {l j : ℕ} (hstart : lineStart nl text l ≤ j)
    (hj : j < scanIndex nl w stop text l) :
    ¬ stop (unitsTo w (text.drop (lineStart nl text l)) (j - lineStart nl text l)) := by
  have hlt : j - lineStart nl text l
      < scanLine nl w stop (text.drop (lineStart nl text l)) 0 := by
    unfold scanIndex at hj
    omega
  have hnot := not_stop_of_lt_scanLine hlt
  rwa [Nat.zero_add] at hnot

end Scan

/-- A located position is on the line it names. -/
lemma locate_eq_add_lineStart {text : List α} {l n i : ℕ} (h : locate nl w text l n = some i) :
    ∃ k, i = lineStart nl text l + k ∧
      locate nl w (text.drop (lineStart nl text l)) 0 n = some k := by
  induction text generalizing l i with
  | nil =>
    rcases locate_nil_eq_some h with ⟨rfl, rfl, rfl⟩
    exact ⟨0, rfl, rfl⟩
  | cons c cs ih =>
    cases l with
    | zero => exact ⟨i, by rw [lineStart_zero, Nat.zero_add], h⟩
    | succ l =>
      rcases locate_cons_succ_eq_some h with ⟨k, rfl, hk⟩
      rcases ih hk with ⟨k', rfl, hk'⟩
      refine ⟨k', ?_, hk'⟩
      rw [lineStart_cons_succ]
      omega

/-- The scan for a located position stops there. -/
theorem scanIndex_of_locate {stop : ℕ → Prop} [DecidablePred stop] {text : List α} {l n i : ℕ}
    (h : locate nl w text l n = some i) (hn : stop n) (hbefore : ∀ k < n, ¬ stop k) :
    scanIndex nl w stop text l = i := by
  rcases locate_eq_add_lineStart h with ⟨k, rfl, hk⟩
  rw [scanIndex, scanLine_of_locate hk (Nat.zero_add n) hn hbefore]

/-- Scans are in the order of their lines, and on one line in the order of their stops. -/
theorem scanIndex_le_scanIndex {stop stop' : ℕ → Prop} [DecidablePred stop]
    [DecidablePred stop'] (text : List α) {l l' : ℕ}
    (h : l < l' ∨ l = l' ∧ ∀ n, stop' n → stop n) :
    scanIndex nl w stop text l ≤ scanIndex nl w stop' text l' := by
  rcases h with hlt | ⟨rfl, hstop⟩
  · calc scanIndex nl w stop text l ≤ lineEnd nl text l := scanIndex_le_lineEnd text l
      _ ≤ lineStart nl text l' := lineEnd_le_lineStart text hlt
      _ ≤ scanIndex nl w stop' text l' := Nat.le_add_right _ _
  · exact Nat.add_le_add_left (scanLine_le_scanLine hstop _ _) _

end LineText
