import CLSP.Lib.LineScan

/-!
# Lines with three terminators

A line of a text ends at a line feed, at a carriage return, at the two as a pair, or at the end of
the text.

* `lineAt` is the index at which a line starts, `contentEnd` the one at which its content ends;
* as long as no line ends with a carriage return alone, lines start behind as many line feeds as
  their number says (`lineAt_eq_lineStart`), and after that there are fewer
  (`count_take_lineAt_lt`);
* the content of a line reaches up to the next line feed unless a carriage return ends it
  (`lineLength_eq_contentLength`, `contentLength_lt_lineLength`).
-/

namespace LineText

/-- What ends a line. -/
inductive Terminator
  | lf
  | crlf
  | cr
deriving DecidableEq, Repr

variable {α : Type*} (cr lf : α)

def Terminator.symbols : Terminator → List α
  | .lf => [lf]
  | .crlf => [cr, lf]
  | .cr => [cr]

lemma length_symbols_pos (t : Terminator) : 0 < (t.symbols cr lf).length := by
  cases t <;> simp [Terminator.symbols]

variable [DecidableEq α]

/-- The terminator a text starts with. -/
def terminatorAt : List α → Option Terminator
  | [] => none
  | c :: cs =>
    if c = lf then some .lf
    else if c = cr then (if cs.head? = some lf then some .crlf else some .cr)
    else none

/-- The number of symbols before the first terminator. -/
def contentLength : List α → ℕ
  | [] => 0
  | c :: cs => if c = lf ∨ c = cr then 0 else contentLength cs + 1

/-- The index at which the content of the line that starts at `start` ends. -/
def contentEnd (text : List α) (start : ℕ) : ℕ :=
  start + contentLength cr lf (text.drop start)

/-- The terminator of the line that starts at `start`; the last line has none. -/
def terminatorOf (text : List α) (start : ℕ) : Option Terminator :=
  terminatorAt cr lf (text.drop (contentEnd cr lf text start))

/-- The index at which line `l` starts, if the text has it. -/
def lineAt (text : List α) : ℕ → Option ℕ
  | 0 => some 0
  | l + 1 => (lineAt text l).bind fun start =>
    (terminatorOf cr lf text start).map fun t =>
      contentEnd cr lf text start + (t.symbols cr lf).length

variable {cr lf}

lemma lineAt_succ_eq_some {text : List α} {l next : ℕ} (h : lineAt cr lf text (l + 1) = some next) :
    ∃ start t, lineAt cr lf text l = some start ∧ terminatorOf cr lf text start = some t ∧
      next = contentEnd cr lf text start + (t.symbols cr lf).length := by
  rcases Option.bind_eq_some_iff.mp h with ⟨start, hstart, hnext⟩
  rcases Option.map_eq_some_iff.mp hnext with ⟨t, ht, hlen⟩
  exact ⟨start, t, hstart, ht, hlen.symm⟩

/-! ## Content -/

variable (cr lf) in
lemma contentLength_le (text : List α) : contentLength cr lf text ≤ text.length := by
  induction text with
  | nil => exact Nat.le_refl 0
  | cons c cs ih =>
    rw [contentLength, List.length_cons]
    split <;> omega

variable (cr lf) in
lemma lf_notMem_content (text : List α) : lf ∉ text.take (contentLength cr lf text) := by
  induction text with
  | nil => simp [contentLength]
  | cons c cs ih =>
    rw [contentLength]
    split
    · simp
    · next hc =>
      rw [List.take_succ_cons, List.mem_cons]
      intro hmem
      rcases hmem with heq | hmem
      · exact hc (Or.inl heq.symm)
      · exact ih hmem

lemma length_take_contentLength (text : List α) :
    (text.take (contentLength cr lf text)).length = contentLength cr lf text :=
  List.length_take_of_le (contentLength_le cr lf text)

variable (cr lf) in
/-- Behind the content of a line is the end of the text or a terminator. -/
lemma drop_contentLength (text : List α) :
    text.drop (contentLength cr lf text) = [] ∨
      ∃ c cs, text.drop (contentLength cr lf text) = c :: cs ∧ (c = lf ∨ c = cr) := by
  induction text with
  | nil => exact Or.inl rfl
  | cons c cs ih =>
    rw [contentLength]
    split
    · next hc => exact Or.inr ⟨c, cs, rfl, hc⟩
    · exact ih

/-! ## Terminators -/

lemma terminatorAt_eq_some {text : List α} {t : Terminator} (h : terminatorAt cr lf text = some t) :
    ∃ rest, text = t.symbols cr lf ++ rest := by
  cases text with
  | nil => cases h
  | cons c cs =>
    rw [terminatorAt] at h
    split_ifs at h with hlf hcr hpair
    · cases h
      exact ⟨cs, by rw [hlf]; rfl⟩
    · cases h
      rcases List.head?_eq_some_iff.mp hpair with ⟨rest, hrest⟩
      exact ⟨rest, by rw [hcr, hrest]; rfl⟩
    · cases h
      exact ⟨cs, by rw [hcr]; rfl⟩

/-- Only the last line has no terminator. -/
lemma terminatorOf_eq_none {text : List α} {start : ℕ} (h : terminatorOf cr lf text start = none)
    (hstart : start ≤ text.length) : contentEnd cr lf text start = text.length := by
  have hle := contentLength_le cr lf (text.drop start)
  rw [List.length_drop] at hle
  unfold terminatorOf contentEnd at h
  unfold contentEnd
  rw [← List.drop_drop] at h
  rcases drop_contentLength cr lf (text.drop start) with hnil | hcons
  · rw [List.drop_eq_nil_iff, List.length_drop] at hnil
    omega
  · rcases hcons with ⟨c, cs, heq, hc⟩
    rw [heq, terminatorAt] at h
    split_ifs at h
    all_goals simp_all

/-- A line is its content and its terminator. -/
lemma drop_eq_of_terminatorOf {text : List α} {start : ℕ} {t : Terminator}
    (h : terminatorOf cr lf text start = some t) :
    ∃ rest, text.drop start
      = (text.drop start).take (contentLength cr lf (text.drop start)) ++
        (t.symbols cr lf ++ rest) := by
  unfold terminatorOf contentEnd at h
  rw [← List.drop_drop] at h
  rcases terminatorAt_eq_some h with ⟨rest, hrest⟩
  exact ⟨rest, by rw [← hrest, List.take_append_drop]⟩

/-! ## Line feeds -/

lemma lineStart_add (text : List α) (l m : ℕ) :
    lineStart lf text (l + m)
      = lineStart lf text l + lineStart lf (text.drop (lineStart lf text l)) m := by
  induction text generalizing l with
  | nil => simp
  | cons c cs ih =>
    cases l with
    | zero => simp
    | succ l =>
      rw [Nat.add_right_comm, lineStart_cons_succ, lineStart_cons_succ, List.drop_succ_cons]
      by_cases hc : c = lf
      · rw [if_pos hc, if_pos hc, ih]
        omega
      · rw [if_neg hc, if_neg hc, Nat.add_right_comm l m 1, ih]
        omega

lemma lineLength_append {as : List α} (has : lf ∉ as) (bs : List α) :
    lineLength lf (as ++ bs) = as.length + lineLength lf bs := by
  induction as with
  | nil => simp
  | cons a as ih =>
    have ha : a ≠ lf := fun h => has (by simp [h])
    rw [List.cons_append, lineLength, if_neg ha, ih (fun h => has (by simp [h])),
      List.length_cons]
    omega

section Lines

variable {text : List α} {start : ℕ}

/-- The next line starts where the terminator of a line ends. -/
lemma next_le_length {t : Terminator} (h : terminatorOf cr lf text start = some t)
    (hstart : start ≤ text.length) :
    contentEnd cr lf text start + (t.symbols cr lf).length ≤ text.length := by
  rcases drop_eq_of_terminatorOf h with ⟨rest, hdrop⟩
  have hlength := congrArg List.length hdrop
  rw [List.length_append, List.length_append, length_take_contentLength, List.length_drop]
    at hlength
  unfold contentEnd
  omega

lemma lineAt_le_length {l : ℕ} (h : lineAt cr lf text l = some start) : start ≤ text.length := by
  induction l generalizing start with
  | zero =>
    cases h
    exact Nat.zero_le _
  | succ l ih =>
    rcases lineAt_succ_eq_some h with ⟨before, t, hbefore, ht, rfl⟩
    exact next_le_length ht (ih hbefore)

lemma count_take_contentEnd :
    (text.take (contentEnd cr lf text start)).count lf = (text.take start).count lf := by
  rw [contentEnd, List.take_add, List.count_append,
    List.count_eq_zero_of_not_mem (lf_notMem_content cr lf _), Nat.add_zero]

variable (hne : cr ≠ lf)
include hne

lemma count_symbols (t : Terminator) :
    (t.symbols cr lf).count lf = if t = .cr then 0 else 1 := by
  cases t <;> simp [Terminator.symbols, hne]

/-- Behind a line there is one line feed more, unless it ends with a carriage return alone. -/
lemma count_take_next {t : Terminator} (h : terminatorOf cr lf text start = some t) :
    (text.take (contentEnd cr lf text start + (t.symbols cr lf).length)).count lf
      = (text.take start).count lf + if t = .cr then 0 else 1 := by
  rcases drop_eq_of_terminatorOf h with ⟨rest, hdrop⟩
  have htake : (text.drop start).take
        (contentLength cr lf (text.drop start) + (t.symbols cr lf).length)
      = (text.drop start).take (contentLength cr lf (text.drop start)) ++ t.symbols cr lf := by
    have htake := congrArg (List.take
      (contentLength cr lf (text.drop start) + (t.symbols cr lf).length)) hdrop
    rw [← List.append_assoc] at htake
    exact htake.trans (List.take_left' (by rw [List.length_append, length_take_contentLength]))
  rw [contentEnd, Nat.add_assoc, List.take_add, List.count_append, htake, List.count_append,
    List.count_eq_zero_of_not_mem (lf_notMem_content cr lf _), Nat.zero_add, count_symbols hne]

lemma lineStart_drop_one {t : Terminator} (h : terminatorOf cr lf text start = some t)
    (ht : t ≠ .cr) :
    lineStart lf (text.drop start) 1
      = contentLength cr lf (text.drop start) + (t.symbols cr lf).length := by
  rcases drop_eq_of_terminatorOf h with ⟨rest, hdrop⟩
  rw [hdrop, lineStart_append (lf_notMem_content cr lf _), ← hdrop, length_take_contentLength]
  cases t with
  | lf => simp [Terminator.symbols, lineStart_cons_succ]
  | crlf => simp [Terminator.symbols, lineStart_cons_succ, hne]
  | cr => exact absurd rfl ht

/-- As long as no line ends with a carriage return alone, lines are told apart by their line
feeds. -/
theorem lineAt_eq_lineStart {l : ℕ} (h : lineAt cr lf text l = some start)
    (hlone : ∀ l' < l, ∀ before, lineAt cr lf text l' = some before →
      terminatorOf cr lf text before ≠ some .cr) : start = lineStart lf text l := by
  induction l generalizing start with
  | zero =>
    cases h
    rw [lineStart_zero]
  | succ l ih =>
    rcases lineAt_succ_eq_some h with ⟨before, t, hbefore, ht, rfl⟩
    have hcr : t ≠ .cr := by
      intro hcr
      rw [hcr] at ht
      exact hlone l (Nat.lt_succ_self l) before hbefore ht
    have hstart := ih hbefore fun l' hl' => hlone l' (Nat.lt_succ_of_lt hl')
    rw [lineStart_add, ← hstart, lineStart_drop_one hne ht hcr, contentEnd, Nat.add_assoc]

lemma count_take_lineAt_le {l : ℕ} (h : lineAt cr lf text l = some start) :
    (text.take start).count lf ≤ l := by
  induction l generalizing start with
  | zero =>
    cases h
    simp
  | succ l ih =>
    rcases lineAt_succ_eq_some h with ⟨before, t, hbefore, ht, rfl⟩
    have hle := ih hbefore
    rw [count_take_next hne ht]
    split <;> omega

/-- Behind a line that ends with a carriage return alone there are fewer line feeds than lines. -/
theorem count_take_lineAt_lt {l l' before : ℕ} (h : lineAt cr lf text l = some start) (hl' : l' < l)
    (hbefore : lineAt cr lf text l' = some before)
    (hcr : terminatorOf cr lf text before = some .cr) : (text.take start).count lf < l := by
  induction l generalizing start with
  | zero => exact absurd hl' (Nat.not_lt_zero l')
  | succ l ih =>
    rcases lineAt_succ_eq_some h with ⟨previous, t, hprevious, ht, rfl⟩
    rw [count_take_next hne ht]
    rcases Nat.lt_succ_iff_lt_or_eq.mp hl' with hlt | rfl
    · have hcount := ih hprevious hlt
      split <;> omega
    · rw [hbefore] at hprevious
      cases hprevious
      rw [hcr] at ht
      cases ht
      rw [if_pos rfl]
      exact Nat.lt_succ_of_le (count_take_lineAt_le hne hbefore)

omit hne in
variable (cr lf) in
lemma contentLength_le_lineLength (text : List α) :
    contentLength cr lf text ≤ lineLength lf text := by
  have hsplit := lineLength_append (lf_notMem_content cr lf text)
    (text.drop (contentLength cr lf text))
  rw [List.take_append_drop, length_take_contentLength] at hsplit
  omega

omit hne in
/-- The content of a line that a line feed alone or the end of the text ends. -/
lemma lineLength_eq_contentLength (hstart : start ≤ text.length)
    (h : terminatorOf cr lf text start = none ∨ terminatorOf cr lf text start = some .lf) :
    lineLength lf (text.drop start) = contentLength cr lf (text.drop start) := by
  rcases h with hlast | hlf
  · have hend := terminatorOf_eq_none hlast hstart
    have hle : lineLength lf (text.drop start) ≤ (text.drop start).length := lineLength_le _
    have hge := contentLength_le_lineLength cr lf (text.drop start)
    rw [List.length_drop] at hle
    unfold contentEnd at hend
    omega
  · rcases drop_eq_of_terminatorOf hlf with ⟨rest, hdrop⟩
    rw [hdrop, lineLength_append (lf_notMem_content cr lf _), ← hdrop, length_take_contentLength]
    simp [Terminator.symbols, lineLength]

/-- The content of a line that a carriage return ends. -/
lemma contentLength_lt_lineLength {t : Terminator} (h : terminatorOf cr lf text start = some t)
    (ht : t ≠ .lf) :
    contentLength cr lf (text.drop start) < lineLength lf (text.drop start) := by
  rcases drop_eq_of_terminatorOf h with ⟨rest, hdrop⟩
  have hlength : lineLength lf (text.drop start)
      = contentLength cr lf (text.drop start) + lineLength lf (t.symbols cr lf ++ rest) := by
    rw [hdrop, lineLength_append (lf_notMem_content cr lf _), ← hdrop, length_take_contentLength]
  rw [hlength]
  cases t with
  | lf => exact absurd rfl ht
  | crlf => simp [Terminator.symbols, lineLength, hne]
  | cr => simp [Terminator.symbols, lineLength, hne]

end Lines

end LineText
