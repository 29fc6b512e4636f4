import Mathlib.Algebra.Order.Ring.Nat
import Mathlib.Data.List.Infix
import Mathlib.Tactic.Common

/-!
# Searching a pattern in a list

* `find?` is the index of the first occurrence of a pattern;
* a block is `Terminated` by a pattern when the pattern ends it and occurs nowhere before. Every
  list that contains the pattern starts with exactly one terminated block
  (`exists_terminated`, `Terminated.unique`).
-/

namespace Search

variable {α : Type*} [DecidableEq α]

/-- The index of the first occurrence of `pat`. -/
def find? (pat : List α) : List α → Option ℕ
  | [] => if pat = [] then some 0 else none
  | a :: text => if pat <+: a :: text then some 0 else (find? pat text).map (· + 1)

lemma find?_of_prefix {pat text : List α} (h : pat <+: text) : find? pat text = some 0 := by
  cases text with
  | nil => simp [find?, List.prefix_nil.mp h]
  | cons a text => rw [find?, if_pos h]

/-- What is found is there. -/
lemma prefix_of_find? {pat text : List α} {i : ℕ} (h : find? pat text = some i) :
    pat <+: text.drop i := by
  induction text generalizing i with
  | nil =>
    by_cases hpat : pat = []
    · simp [hpat]
    · simp [find?, hpat] at h
  | cons a text ih =>
    rw [find?] at h
    split at h
    · next hpre =>
      rw [← Option.some.inj h]
      exact hpre
    · rcases Option.map_eq_some_iff.mp h with ⟨j, hj, rfl⟩
      exact ih hj

/-- Nothing is found where the pattern does not occur, and only there. -/
lemma find?_eq_none_iff {pat text : List α} : find? pat text = none ↔ ¬ pat <:+: text := by
  induction text with
  | nil =>
    rw [find?, List.infix_nil]
    split <;> simp [*]
  | cons a text ih =>
    rw [find?, List.infix_cons_iff]
    split
    · next hpre => simp [hpre]
    · next hpre => simp [hpre, ih]

/-- `block` ends with `pat`, and no proper prefix of it does. -/
def Terminated (pat block : List α) : Prop :=
  pat <:+ block ∧ ∀ p, p <+: block → pat <:+ p → p = block

omit [DecidableEq α] in
/-- A terminated block is the shortest prefix that ends with the pattern. -/
lemma Terminated.unique {pat b b' r r' : List α} (h : Terminated pat b) (h' : Terminated pat b')
    (heq : b ++ r = b' ++ r') : b = b' ∧ r = r' := by
  have hb : b = b' := by
    rcases List.prefix_or_prefix_of_prefix (List.prefix_append b r)
      (heq ▸ List.prefix_append b' r') with hle | hle
    · exact h'.2 b hle h.1
    · exact (h.2 b' hle h'.1).symm
  refine ⟨hb, ?_⟩
  rw [hb] at heq
  exact List.append_cancel_left heq

omit [DecidableEq α] in
lemma suffix_append_singleton {pat text : List α} {a : α} (hpat : pat ≠ [])
    (h : pat <:+ text ++ [a]) : pat.getLast? = some a := by
  rcases h with ⟨pre, hpre⟩
  have := congrArg List.getLast? hpre
  rw [List.getLast?_append_of_ne_nil _ hpat, List.getLast?_append_of_ne_nil _ (by simp)] at this
  simpa using this

omit [DecidableEq α] in
/-- A list with an occurrence of the pattern starts with a terminated block. -/
theorem exists_terminated {pat text : List α} (h : pat <:+: text) :
    ∃ block rest, text = block ++ rest ∧ Terminated pat block := by
  induction text using List.reverseRecOn with
  | nil =>
    have hnil : pat = [] := List.eq_nil_of_infix_nil h
    subst hnil
    exact ⟨[], [], rfl, List.suffix_rfl, fun p hp _ => List.eq_nil_of_prefix_nil hp⟩
  | append_singleton text a ih =>
    by_cases hin : pat <:+: text
    · rcases ih hin with ⟨block, rest, rfl, hblock⟩
      exact ⟨block, rest ++ [a], by rw [List.append_assoc], hblock⟩
    · refine ⟨text ++ [a], [], by simp, ?_, ?_⟩
      · rcases List.infix_concat_iff.mp h with hsuf | hin'
        · exact hsuf
        · exact absurd hin' hin
      · -- a shorter prefix ending with the pattern would be an occurrence in `text`
        intro p hp hpat
        rcases List.prefix_concat_iff.mp hp with rfl | hp
        · rfl
        · exact absurd (hpat.isInfix.trans hp.isInfix) hin

omit [DecidableEq α] in
/-- A pattern appended to a text without its first element ends a terminated block. -/
lemma terminated_append {a : α} {t pre : List α} (h : a ∉ pre) :
    Terminated (a :: t) (pre ++ a :: t) := by
  refine ⟨List.suffix_append _ _, ?_⟩
  intro p hp hpat
  rcases hpat with ⟨q, rfl⟩
  rcases hp with ⟨r, hr⟩
  have hr' : q ++ (a :: t ++ r) = pre ++ a :: t := by rw [← hr, List.append_assoc]
  rcases List.append_eq_append_iff.mp hr' with ⟨as, hpre, has⟩ | ⟨bs, hq, hbs⟩
  · -- the occurrence starts in `pre` unless nothing is left of it
    rcases as with _ | ⟨b, as⟩
    · rw [hpre, List.append_nil]
    · have hb : a = b := by
        have := congrArg List.head? has
        simpa using this
      exact absurd (by rw [hpre, hb]; simp) h
  · have hlen := congrArg List.length hbs
    simp only [List.length_append, List.length_cons] at hlen
    have hnil : bs = [] := List.eq_nil_of_length_eq_zero (by omega)
    rw [hq, hnil, List.append_nil]

omit [DecidableEq α] in
/-- No occurrence of a pattern passes an element it does not have. -/
lemma prefix_append_cons_iff {pat bs : List α} {a : α} (ha : a ∉ pat) (as : List α) :
    pat <+: as ++ a :: bs ↔ pat <+: as := by
  induction as generalizing pat with
  | nil =>
    cases pat with
    | nil => simp
    | cons b pat =>
      have hne : b ≠ a := fun heq => ha (by simp [heq])
      simp [List.cons_prefix_cons, hne]
  | cons b as ih =>
    cases pat with
    | nil => simp
    | cons c pat =>
      rw [List.cons_append, List.cons_prefix_cons, List.cons_prefix_cons,
        ih fun hmem => ha (List.mem_cons_of_mem _ hmem)]

/-- The first occurrence is on this side of such an element, or it is the first one behind it. -/
lemma find?_append_cons {pat bs : List α} {a : α} (ha : a ∉ pat) (as : List α) :
    find? pat (as ++ a :: bs) =
      (find? pat as).or ((find? pat bs).map (· + (as.length + 1))) := by
  induction as with
  | nil =>
    rw [List.nil_append, find?, find?]
    by_cases hpat : pat = []
    · simp [hpat]
    · have hno : ¬ pat <+: a :: bs := fun h =>
        hpat (List.prefix_nil.mp ((prefix_append_cons_iff ha []).mp h))
      rw [if_neg hno, if_neg hpat]
      rfl
  | cons b as ih =>
    rw [List.cons_append, find?, find?, ih]
    have hiff : pat <+: b :: (as ++ a :: bs) ↔ pat <+: b :: as :=
      prefix_append_cons_iff ha (b :: as)
    by_cases hpre : pat <+: b :: as
    · rw [if_pos (hiff.mpr hpre), if_pos hpre]
      rfl
    · rw [if_neg (hiff.not.mpr hpre), if_neg hpre]
      cases find? pat as with
      | some i => rfl
      | none => simp [Function.comp_def, Nat.add_assoc]

omit [DecidableEq α] in
/-- What is put before a terminated block leaves it terminated if no occurrence starts there. -/
lemma Terminated.append_left {pat block : List α} (h : Terminated pat block) {pre : List α}
    (hpre : ∀ i < pre.length, ¬ pat <+: (pre ++ block).drop i) :
    Terminated pat (pre ++ block) := by
  refine ⟨h.1.trans (List.suffix_append _ _), ?_⟩
  intro p hp hpat
  rcases hpat with ⟨q, rfl⟩
  have hq : pre.length ≤ q.length := by
    by_contra hlt
    refine hpre q.length (Nat.lt_of_not_le hlt) ?_
    rcases hp with ⟨r, hr⟩
    rw [← hr, List.append_assoc, List.drop_left]
    exact List.prefix_append _ _
  rcases List.prefix_of_prefix_length_le (List.prefix_append pre block)
    ((List.prefix_append q pat).trans hp) hq with ⟨q', rfl⟩
  rw [List.append_assoc] at hp ⊢
  rw [h.2 _ ((List.prefix_append_right_inj pre).mp hp) (List.suffix_append _ _)]

end Search
