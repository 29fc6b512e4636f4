import CLSP.Lib.Transition

/-!
# Fair executions

An execution goes on forever; at each time it takes a step or none. It is fair to a set of steps if
these are never possible from some time on without one of them being taken. What comes about in a
fair execution is shown with a rank that no step raises: as long as it stays the same the threads
that help still do, and when one of them takes a step it falls. What a thread is in for an unknown
time, such as the code of a user, can be assumed apart: that it does not stay there for good.
-/

namespace Transition

variable {σ ℓ : Type*}

structure Execution (step : σ → ℓ → σ → Prop) where
  state : ℕ → σ
  label : ℕ → Option ℓ
  steps : ∀ n, ∀ l ∈ label n, step (state n) l (state (n + 1))
  idles : ∀ n, label n = none → state (n + 1) = state n

/-- One of the steps is possible. -/
def Enabled (step own : σ → ℓ → σ → Prop) (s : σ) : Prop :=
  ∃ l t, own s l t ∧ step s l t

namespace Execution

variable {step : σ → ℓ → σ → Prop} (x : Execution step)

/-- The steps before time `n`, each with the state in which it is taken. -/
def history (n : ℕ) : List (σ × ℓ) :=
  (List.range n).filterMap fun k => (x.label k).map (Prod.mk (x.state k))

/-- One of the steps is taken at time `n`. -/
def Takes (own : σ → ℓ → σ → Prop) (n : ℕ) : Prop :=
  ∃ l ∈ x.label n, own (x.state n) l (x.state (n + 1))

def Fair (own : σ → ℓ → σ → Prop) : Prop :=
  ∀ n, ∃ m ≥ n, x.Takes own m ∨ ¬ Enabled step own (x.state m)

lemma history_succ (n : ℕ) :
    x.history (n + 1) = x.history n ++ ((x.label n).map (Prod.mk (x.state n))).toList := by
  unfold history
  rw [List.range_succ, List.filterMap_append]
  cases hl : x.label n <;> simp [hl]

/-- What an execution has done at time `n` is a run. -/
lemma history_run (n : ℕ) : Run (Recorded step) (x.state 0) (x.history n) (x.state n) := by
  induction n with
  | zero => exact .nil
  | succ n ih =>
    rw [history_succ]
    cases hl : x.label n with
    | none =>
      rw [x.idles n hl, Option.map_none, Option.toList_none, List.append_nil]
      exact ih
    | some l => exact ih.snoc (.intro (x.steps n l hl))

lemma history_mono {n m : ℕ} (h : n ≤ m) : x.history n <+: x.history m := by
  induction m, h using Nat.le_induction with
  | base => exact List.prefix_refl _
  | succ m _ ih =>
    rw [history_succ]
    exact ih.trans (List.prefix_append _ _)

lemma history_of_rests {n m : ℕ} (h : ∀ k ≥ n, x.label k = none) (hle : n ≤ m) :
    x.history m = x.history n := by
  induction m, hle using Nat.le_induction with
  | base => rfl
  | succ m hle ih => rw [history_succ, h m hle, Option.map_none, Option.toList_none,
      List.append_nil, ih]

lemma mem_history {n : ℕ} {e : σ × ℓ} :
    e ∈ x.history n ↔ ∃ k < n, x.label k = some e.2 ∧ x.state k = e.1 := by
  unfold history
  rw [List.mem_filterMap]
  constructor
  · rintro ⟨k, hk, he⟩
    rcases Option.map_eq_some_iff.mp he with ⟨l, hl, rfl⟩
    exact ⟨k, List.mem_range.mp hk, hl, rfl⟩
  · rintro ⟨k, hk, hl, hs⟩
    exact ⟨k, List.mem_range.mpr hk, by rw [hl, hs]; rfl⟩

lemma invariant {I : σ → Prop} (hinit : I (x.state 0))
    (hstep : ∀ s l t, I s → step s l t → I t) (n : ℕ) : I (x.state n) :=
  (x.history_run n).unrecord.invariant hinit hstep

lemma mono {f : σ → ℕ} (hstep : ∀ s l t, step s l t → f s ≤ f t) {n m : ℕ} (h : n ≤ m) :
    f (x.state n) ≤ f (x.state m) := by
  induction m, h using Nat.le_induction with
  | base => exact le_refl _
  | succ m _ ih =>
    cases hl : x.label m with
    | none => rwa [x.idles m hl]
    | some l => exact ih.trans (hstep _ _ _ (x.steps m l hl))

section Response

variable {ι : Type*}

/-- In a fair execution `Q` comes about where `P` holds: each step lowers the rank, or it is not one
of the threads that help then, and these still help. -/
theorem leadsTo (own : ι → σ → ℓ → σ → Prop) (helps : ℕ → ι → Prop) (P : ℕ → ℕ → Prop)
    (Q : ℕ → Prop) (hfair : ∀ i, x.Fair (own i))
    (henabled : ∀ n r i, P n r → helps n i → Enabled step (own i) (x.state n))
    (hhelps : ∀ n r, P n r → ∃ i, helps n i)
    (hstep : ∀ n r, P n r → Q n ∨ (∃ r' < r, P (n + 1) r') ∨
      (P (n + 1) r ∧ ∀ i, helps n i → ¬ x.Takes (own i) n ∧ helps (n + 1) i)) {n r : ℕ}
    (h : P n r) : ∃ m ≥ n, Q m := by
  induction r using Nat.strong_induction_on generalizing n with
  | _ r ih =>
    -- by induction on the rank: it falls when thread `i`, which helps now, takes its step
    rcases hhelps n r h with ⟨i, hi⟩
    rcases hfair i n with ⟨m, hm, hnext⟩
    -- until then the rank stays, and thread `i` waits
    have hwait : ∀ k ≥ n, (P k r ∧ helps k i) ∨ ∃ m ≥ n, Q m := by
      intro k hk
      induction k, hk using Nat.le_induction with
      | base => exact Or.inl ⟨h, hi⟩
      | succ k hk hwait =>
        rcases hwait with ⟨hp, hi⟩ | hq
        · rcases hstep k r hp with hq | ⟨r', hr', hp'⟩ | ⟨hp', hothers⟩
          · exact Or.inr ⟨k, hk, hq⟩
          · rcases ih r' hr' hp' with ⟨m, hm, hq⟩
            exact Or.inr ⟨m, by omega, hq⟩
          · exact Or.inl ⟨hp', (hothers i hi).2⟩
        · exact Or.inr hq
    rcases hwait m hm with ⟨hp, hi'⟩ | hq
    · have htakes := hnext.resolve_right (fun hblocked => hblocked (henabled m r i hp hi'))
      rcases hstep m r hp with hq | ⟨r', hr', hp'⟩ | ⟨-, hothers⟩
      · exact ⟨m, hm, hq⟩
      · rcases ih r' hr' hp' with ⟨k, hk, hq⟩
        exact ⟨k, by omega, hq⟩
      · exact absurd htakes (hothers i hi').1
    · exact hq

/-- A step at rank `r` that does not bring about what is waited for: the rank falls, or the threads
that help have not taken it, and still help. -/
def Descends (own : ι → σ → ℓ → σ → Prop) (helps : σ → ι → Prop) (P : σ → ℕ → Prop) (s : σ) (r : ℕ)
    (l : ℓ) (t : σ) : Prop :=
  (∃ r' < r, P t r') ∨ P t r ∧ ∀ i, helps s i → ¬ own i s l t ∧ helps t i

/-- The same from what single steps do. -/
theorem response (own : ι → σ → ℓ → σ → Prop) (helps : σ → ι → Prop) (P : σ → ℕ → Prop)
    (Q : ℓ → σ → Prop) (hfair : ∀ i, x.Fair (own i))
    (henabled : ∀ s r i, P s r → helps s i → Enabled step (own i) s)
    (hhelps : ∀ s r, P s r → ∃ i, helps s i)
    (hstep : ∀ s r l t, P s r → step s l t → Descends own helps P s r l t ∨ Q l t) {n r : ℕ}
    (h : P (x.state n) r) : ∃ m ≥ n, ∃ l ∈ x.label m, Q l (x.state (m + 1)) := by
  refine x.leadsTo own (fun n i => helps (x.state n) i) (fun n r => P (x.state n) r) _ hfair
    (fun n r i => henabled _ r i) (fun n r => hhelps _ r) (fun n r hp => ?_) h
  cases hl : x.label n with
  | none =>
    rw [x.idles n hl]
    exact Or.inr (Or.inr ⟨hp, fun i hi => ⟨fun ⟨l, hmem, _⟩ => by simp [hl] at hmem, hi⟩⟩)
  | some l =>
    rcases hstep _ r l _ hp (x.steps n l hl) with (hfalls | ⟨hp', hothers⟩) | hq
    · exact Or.inr (Or.inl hfalls)
    · refine Or.inr (Or.inr ⟨hp', fun i hi => ⟨?_, (hothers i hi).2⟩⟩)
      rintro ⟨l', hl', hown⟩
      rw [hl] at hl'
      rw [← Option.some.inj hl'] at hown
      exact (hothers i hi).1 hown
    · exact Or.inl ⟨l, rfl, hq⟩

end Response

/-- An execution is fair to steps that are not possible any more from some time on. -/
lemma fair_of_rests {own : σ → ℓ → σ → Prop} {n : ℕ}
    (h : ∀ m ≥ n, ¬ Enabled step own (x.state m)) : x.Fair own :=
  fun k => ⟨max k n, le_max_left k n, Or.inr (h _ (le_max_right k n))⟩

/-- Who never stays inside for good, and is scheduled fairly outside, is scheduled fairly. -/
theorem fair_of_leaves {own outside : σ → ℓ → σ → Prop} (inside : σ → Prop)
    (hfair : x.Fair outside) (hown : ∀ s l t, outside s l t → own s l t)
    (houtside : ∀ s l t, own s l t → inside s ∨ outside s l t)
    (hleaves : ∀ n, ∃ m ≥ n, ¬ inside (x.state m))
    (hstep : ∀ s l t, inside s → step s l t → inside t ∨ own s l t ∨ ¬ Enabled step own t) :
    x.Fair own := by
  -- on the way out it takes a step, or cannot take one any more
  have hinside : ∀ n, inside (x.state n) →
      ∃ m ≥ n, x.Takes own m ∨ ¬ Enabled step own (x.state m) := by
    intro n hn
    rcases hleaves n with ⟨m, hm, hout⟩
    have hstays : ∀ k ≥ n, inside (x.state k) ∨
        ∃ m ≥ n, x.Takes own m ∨ ¬ Enabled step own (x.state m) := by
      intro k hk
      induction k, hk using Nat.le_induction with
      | base => exact Or.inl hn
      | succ k hk ih =>
        rcases ih with hin | hdone
        · cases hl : x.label k with
          | none =>
            rw [x.idles k hl]
            exact Or.inl hin
          | some l =>
            rcases hstep _ l _ hin (x.steps k l hl) with hin' | htakes | hblocked
            · exact Or.inl hin'
            · exact Or.inr ⟨k, hk, Or.inl ⟨l, hl, htakes⟩⟩
            · exact Or.inr ⟨k + 1, by omega, Or.inr hblocked⟩
        · exact Or.inr hdone
    exact (hstays m hm).resolve_left hout
  intro n
  rcases hfair n with ⟨m, hm, ⟨l, hl, htakes⟩ | hblocked⟩
  · exact ⟨m, hm, Or.inl ⟨l, hl, hown _ _ _ htakes⟩⟩
  · by_cases hin : inside (x.state m)
    · rcases hinside m hin with ⟨k, hk, hnext⟩
      exact ⟨k, by omega, hnext⟩
    · refine ⟨m, hm, Or.inr ?_⟩
      rintro ⟨l, t, htakes, hpossible⟩
      exact hblocked ⟨l, t, (houtside _ _ _ htakes).resolve_left hin, hpossible⟩

end Execution

/-- A run is the beginning of an execution that rests afterwards. -/
lemma Run.exists_execution {step : σ → ℓ → σ → Prop} {s t : σ} {es : List (σ × ℓ)}
    (h : Run (Recorded step) s es t) :
    ∃ x : Execution step, x.state 0 = s ∧ x.history es.length = es ∧
      ∀ n ≥ es.length, x.state n = t ∧ x.label n = none := by
  induction h with
  | nil =>
    let x : Execution step := ⟨fun _ => s, fun _ => none, nofun, fun _ _ => rfl⟩
    exact ⟨x, rfl, rfl, fun _ _ => ⟨rfl, rfl⟩⟩
  | @snoc es t u e hrun hstep ih =>
    rcases hstep with @⟨l, _, hstep⟩
    rcases ih with ⟨x, hstart, hhistory, hrests⟩
    -- one step more, and the rest is put off by one
    let y : Execution step :=
      { state := fun n => if n ≤ es.length then x.state n else u
        label := fun n => if n = es.length then some l else x.label n
        steps := by
          intro n k hk
          rcases lt_trichotomy n es.length with hlt | rfl | hgt
          · rw [if_neg hlt.ne] at hk
            rw [if_pos hlt.le, if_pos (Nat.succ_le_of_lt hlt)]
            exact x.steps n k hk
          · rw [if_pos rfl] at hk
            rw [if_pos le_rfl, if_neg (Nat.not_succ_le_self _), (hrests _ le_rfl).1,
              ← Option.some.inj hk]
            exact hstep
          · rw [if_neg hgt.ne', (hrests n hgt.le).2] at hk
            exact absurd hk nofun
        idles := by
          intro n hn
          rcases lt_trichotomy n es.length with hlt | rfl | hgt
          · rw [if_neg hlt.ne] at hn
            rw [if_pos hlt.le, if_pos (Nat.succ_le_of_lt hlt)]
            exact x.idles n hn
          · rw [if_pos rfl] at hn
            exact absurd hn nofun
          · rw [if_neg (by omega), if_neg (by omega)] }
    have hlabel : ∀ n, y.label n = if n = es.length then some l else x.label n := fun _ => rfl
    have hstate : ∀ n, y.state n = if n ≤ es.length then x.state n else u := fun _ => rfl
    have hsame : y.history es.length = es := by
      refine Eq.trans (List.filterMap_congr fun n hn => ?_) hhistory
      have hlt := List.mem_range.mp hn
      rw [hlabel, hstate, if_neg hlt.ne, if_pos hlt.le]
    refine ⟨y, ?_, ?_, ?_⟩
    · rw [hstate, if_pos (Nat.zero_le _), hstart]
    · rw [List.length_append, List.length_singleton, Execution.history_succ, hsame, hlabel, hstate,
        if_pos rfl, if_pos le_rfl, (hrests _ le_rfl).1]
      rfl
    · intro n hn
      rw [List.length_append, List.length_singleton] at hn
      rw [hlabel, hstate, if_neg (by omega), if_neg (by omega)]
      exact ⟨rfl, (hrests n (by omega)).2⟩

end Transition
