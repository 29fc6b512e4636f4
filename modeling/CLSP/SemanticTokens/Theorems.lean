import CLSP.SemanticTokens.Builder

/-!
# Semantic tokens are encoded without loss

Over sorted tokens the loop of `build` takes differences of the places of neighbours in their order,
which do not wrap, and `decodeTokens` adds them up again (`decodeTokens_buildLoop`). Sorted lists of
tokens with different places are equal if they have the same tokens, so the data is the same for all
orders of the pushes.
-/

namespace CLSP

/-! ## Places in order -/

lemma placed_le_iff {a b : Token} : a.placed.Le b.placed ↔ a.line.toNat < b.line.toNat ∨
    a.line.toNat = b.line.toNat ∧ a.startChar.toNat ≤ b.startChar.toNat := Iff.rfl

/-- The comparison fails for the places in their order. -/
lemma placed_le_of_before {a b : Token} (h : b.before a = false) : a.placed.Le b.placed := by
  unfold Token.before at h
  rw [placed_le_iff]
  split at h
  · next hne =>
    have hle : ¬ b.line < a.line := by simpa using h
    have hne' : a.line.toNat ≠ b.line.toNat := fun heq => hne (UInt32.toNat_inj.mp heq.symm)
    rw [UInt32.lt_iff_toNat_lt] at hle
    omega
  · next heq =>
    have hle : ¬ b.startChar < a.startChar := by simpa using h
    have hline : b.line = a.line := by simpa using heq
    rw [UInt32.lt_iff_toNat_lt] at hle
    exact Or.inr ⟨by rw [hline], Nat.le_of_not_lt hle⟩

lemma Sorts.pairwise_placed {tokens sorted : List Token} (h : Sorts tokens sorted) :
    sorted.Pairwise fun a b => a.placed.Le b.placed :=
  h.sorted.imp fun hbefore => placed_le_of_before hbefore

/-! ## The loop -/

section Differences

variable {a b : Token} (h : a.placed.Le b.placed)
include h

/-- The first difference of two tokens in their order. -/
lemma line_le_line : a.line ≤ b.line := by
  rw [placed_le_iff] at h
  rw [UInt32.le_iff_toNat_le]
  omega

lemma toNat_sub_line : (b.line - a.line).toNat = b.line.toNat - a.line.toNat :=
  UInt32.toNat_sub_of_le _ _ (line_le_line h)

/-- The second one is taken on one line. -/
lemma sub_line_eq_zero_iff : b.line - a.line = 0 ↔ a.line.toNat = b.line.toNat := by
  rw [← UInt32.toNat_inj, toNat_sub_line h, UInt32.toNat_zero]
  rw [placed_le_iff] at h
  omega

lemma startChar_le_startChar (hline : b.line - a.line = 0) : a.startChar ≤ b.startChar := by
  rw [sub_line_eq_zero_iff h] at hline
  rw [placed_le_iff] at h
  rw [UInt32.le_iff_toNat_le]
  omega

lemma toNat_sub_startChar (hline : b.line - a.line = 0) :
    (b.startChar - a.startChar).toNat = b.startChar.toNat - a.startChar.toNat :=
  UInt32.toNat_sub_of_le _ _ (startChar_le_startChar h hline)

end Differences

/-- Behind a token the loop encodes the others relative to it. -/
lemma decodeTokens_buildLoop_cons (tokens : List Token) {prev : Token}
    (h : (prev :: tokens).Pairwise fun a b => a.placed.Le b.placed) :
    decodeTokens (buildLoop tokens prev.line prev.startChar false) prev.line.toNat
        prev.startChar.toNat = tokens.map Token.placed := by
  induction tokens generalizing prev with
  | nil => rfl
  | cons t tokens ih =>
    have hle : prev.placed.Le t.placed := List.rel_of_pairwise_cons h List.mem_cons_self
    have hprev := line_le_line hle
    rw [UInt32.le_iff_toNat_le] at hprev
    have hline : prev.line.toNat + (t.line - prev.line).toNat = t.line.toNat := by
      rw [toNat_sub_line hle]
      omega
    rw [buildLoop, List.map_cons, ← ih (List.Pairwise.of_cons h)]
    simp only [Bool.false_eq_true, if_false, false_or, List.cons_append, List.nil_append,
      decodeTokens]
    rw [hline]
    by_cases hzero : t.line - prev.line = 0
    · have hstart := startChar_le_startChar hle hzero
      rw [UInt32.le_iff_toNat_le] at hstart
      have hchar : prev.startChar.toNat + (t.startChar - prev.startChar).toNat
          = t.startChar.toNat := by
        rw [toNat_sub_startChar hle hzero]
        omega
      rw [if_pos hzero, if_neg (not_not_intro hzero), hchar]
      rfl
    · rw [if_neg hzero, if_pos hzero]
      rfl

/-- The first token is encoded relative to the start of the text. -/
lemma decodeTokens_buildLoop {tokens : List Token}
    (h : tokens.Pairwise fun a b => a.placed.Le b.placed) :
    decodeTokens (buildLoop tokens 0 0 true) 0 0 = tokens.map Token.placed := by
  cases tokens with
  | nil => rfl
  | cons t tokens =>
    rw [buildLoop, List.map_cons, ← decodeTokens_buildLoop_cons tokens h]
    simp only [if_true, true_or, List.cons_append, List.nil_append, decodeTokens, Nat.zero_add]
    split <;> rfl

lemma length_buildLoop (tokens : List Token) (prevLine prevChar : UInt32) (first : Bool) :
    (buildLoop tokens prevLine prevChar first).length = 5 * tokens.length := by
  induction tokens generalizing prevLine prevChar first with
  | nil => rfl
  | cons t tokens ih =>
    rw [buildLoop, List.length_append, ih, List.length_cons]
    simp only [List.length_cons, List.length_nil]
    omega

/-- None of the differences wraps. -/
lemma buildSubtractions_cons (tokens : List Token) {prev : Token}
    (h : (prev :: tokens).Pairwise fun a b => a.placed.Le b.placed) :
    ∀ p ∈ buildSubtractions tokens prev.line prev.startChar false, p.2 ≤ p.1 := by
  induction tokens generalizing prev with
  | nil => simp [buildSubtractions]
  | cons t tokens ih =>
    have hle : prev.placed.Le t.placed := List.rel_of_pairwise_cons h List.mem_cons_self
    intro p hp
    rw [buildSubtractions, List.mem_append, List.mem_append] at hp
    rcases hp with (hfirst | hsecond) | hrest
    · simp only [Bool.false_eq_true, if_false, List.mem_singleton] at hfirst
      rw [hfirst]
      exact line_le_line hle
    · simp only [Bool.false_eq_true, if_false, false_or] at hsecond
      split at hsecond
      · cases hsecond
      · next hzero =>
        rw [List.mem_singleton.mp hsecond]
        exact startChar_le_startChar hle (not_not.mp hzero)
    · exact ih (List.Pairwise.of_cons h) p hrest

lemma buildSubtractions_le {tokens : List Token}
    (h : tokens.Pairwise fun a b => a.placed.Le b.placed) :
    ∀ p ∈ buildSubtractions tokens 0 0 true, p.2 ≤ p.1 := by
  cases tokens with
  | nil => simp [buildSubtractions]
  | cons t tokens =>
    rw [buildSubtractions]
    simpa using buildSubtractions_cons tokens h

/-! ## Orders of pushes -/

/-- No two tokens have the same place. -/
def DistinctPlaces (tokens : List Token) : Prop :=
  (tokens.map fun t => (t.line, t.startChar)).Nodup

/-- There is one way to sort tokens with different places. -/
lemma Sorts.eq_of_distinctPlaces {tokens tokens' sorted sorted' : List Token}
    (h : Sorts tokens sorted) (h' : Sorts tokens' sorted') (hperm : tokens'.Perm tokens)
    (hdistinct : DistinctPlaces tokens) : sorted' = sorted := by
  have hsorted : sorted'.Perm sorted := (h'.perm.trans hperm).trans h.perm.symm
  refine List.Perm.eq_of_pairwise ?_ h'.pairwise_placed h.pairwise_placed hsorted
  intro a b ha hb hab hba
  have ha' : a ∈ tokens := hperm.mem_iff.mp (h'.perm.mem_iff.mp ha)
  have hb' : b ∈ tokens := h.perm.mem_iff.mp hb
  rw [placed_le_iff] at hab hba
  have hline : a.line = b.line := UInt32.toNat_inj.mp (by omega)
  have hchar : a.startChar = b.startChar := UInt32.toNat_inj.mp (by omega)
  exact List.inj_on_of_nodup_map hdistinct ha' hb' (Prod.ext hline hchar)

/-! ## Runs -/

namespace SemanticTokensBuilder

open Transition

lemma pushed_concat (calls : List Call) (call : Call) :
    pushed (calls ++ [call]) = match call with
      | .push t => if t.length = 0 then pushed calls else pushed calls ++ [t]
      | .clear => []
      | .build _ => pushed calls := by
  unfold pushed
  rw [List.foldl_append]
  cases call <;> rfl

/-- The builder holds the tokens that were pushed, in some order. -/
lemma perm_pushed {calls : List Call} {b : SemanticTokensBuilder}
    (h : Run Step {} calls b) : b.tokens_.Perm (pushed calls) := by
  apply h.history (I := fun calls b => b.tokens_.Perm (pushed calls)) (List.Perm.refl _)
  intro calls b call b' hperm hstep
  rw [pushed_concat]
  cases hstep with
  | push t =>
    show (b.push t).tokens_.Perm (if t.length = 0 then pushed calls else pushed calls ++ [t])
    unfold push
    split
    · exact hperm
    · exact hperm.append_right _
  | clear => exact List.Perm.refl _
  | build hbuild => exact hbuild.sorts.perm.trans hperm

/-- What is expected of the data that `build` returns for some tokens, when it leaves the builder
`b'`. -/
structure Lossless (tokens : List Token) (result : SemanticTokens) (b' : SemanticTokensBuilder) :
    Prop where
  length_eq : result.data.length = 5 * tokens.length
  perm : (decodeTokens result.data 0 0).Perm (tokens.map Token.placed)
  ordered : (decodeTokens result.data 0 0).Pairwise PlacedToken.Le
  /-- No difference wraps. -/
  noWrap : ∀ p ∈ buildSubtractions b'.tokens_ 0 0 true, p.2 ≤ p.1
  /-- Other orders of the pushes make the same data. -/
  unique : DistinctPlaces tokens → ∀ calls b b'' result', Run Step {} calls b →
    Step b (.build result') b'' → (pushed calls).Perm tokens → result' = result

/-- **Semantic tokens are encoded without loss**, whatever was pushed, cleared and built before. -/
theorem build_lossless {calls : List Call} {b b' : SemanticTokensBuilder} {result : SemanticTokens}
    (hrun : Run Step {} calls b) (hstep : Step b (.build result) b') :
    Lossless (pushed calls) result b' := by
  cases hstep with
  | build hbuild =>
    have hpushed := perm_pushed hrun
    have hsorted : b'.tokens_.Perm (pushed calls) := hbuild.sorts.perm.trans hpushed
    have hdecode : decodeTokens result.data 0 0 = b'.tokens_.map Token.placed := by
      rw [hbuild.result_eq]
      exact decodeTokens_buildLoop hbuild.sorts.pairwise_placed
    refine ⟨?_, ?_, ?_, ?_, ?_⟩
    · rw [hbuild.result_eq, ← hsorted.length_eq]
      exact length_buildLoop _ _ _ _
    · rw [hdecode]
      exact hsorted.map _
    · rw [hdecode, List.pairwise_map]
      exact hbuild.sorts.pairwise_placed
    · exact buildSubtractions_le hbuild.sorts.pairwise_placed
    · intro hdistinct calls' c c' result' hrun' hstep' hperm
      cases hstep' with
      | build hbuild' =>
        have hbefore : c.tokens_.Perm b.tokens_ :=
          ((perm_pushed hrun').trans hperm).trans hpushed.symm
        have hdistinct' : DistinctPlaces b.tokens_ :=
          (hpushed.map _).nodup_iff.mpr hdistinct
        have heq := hbuild.sorts.eq_of_distinctPlaces hbuild'.sorts hbefore hdistinct'
        rw [hbuild.result_eq, hbuild'.result_eq, heq]

/-- Two tokens of one line, pushed against their order and around a first `build`. -/
theorem build_lossless_sample :
    Lossless [⟨3, 8, 1, 8, 0⟩, ⟨3, 0, 4, 7, 0⟩] ⟨none, [3, 0, 4, 7, 0, 0, 8, 1, 8, 0]⟩
      ⟨[⟨3, 0, 4, 7, 0⟩, ⟨3, 8, 1, 8, 0⟩]⟩ := by
  have hfirst : Step ⟨[⟨3, 8, 1, 8, 0⟩]⟩ (.build ⟨none, [3, 8, 1, 8, 0]⟩)
      ⟨[⟨3, 8, 1, 8, 0⟩]⟩ :=
    .build ⟨⟨by decide, by decide⟩, rfl⟩
  have hrun : Run Step {} [.push ⟨3, 8, 1, 8, 0⟩, .build ⟨none, [3, 8, 1, 8, 0]⟩,
      .push ⟨0, 0, 0, 1, 0⟩, .push ⟨3, 0, 4, 7, 0⟩] ⟨[⟨3, 8, 1, 8, 0⟩, ⟨3, 0, 4, 7, 0⟩]⟩ :=
    (((Run.nil.snoc (.push _ _)).snoc hfirst).snoc (.push _ _)).snoc (.push _ _)
  exact build_lossless hrun (.build ⟨⟨by decide, by decide⟩, rfl⟩)

end SemanticTokensBuilder

end CLSP
