import Mathlib.Algebra.Order.BigOperators.Group.List
import Mathlib.Algebra.Order.Group.Multiset
import Mathlib.Tactic.Common

/-!
# Labelled transition systems

Runs of a step relation with the list of the labels passed, the induction rules for what a run
preserves, and the conservation rule: quantities that each step moves between what the labels count
and what the state holds.
-/

namespace Transition

variable {σ ℓ : Type*}

/-- `Run step s ls t`: from `s` to `t` in steps labelled `ls`. -/
inductive Run (step : σ → ℓ → σ → Prop) (s : σ) : List ℓ → σ → Prop
  | nil : Run step s [] s
  | snoc {ls : List ℓ} {t u : σ} {l : ℓ} : Run step s ls t → step t l u → Run step s (ls ++ [l]) u

namespace Run

variable {step : σ → ℓ → σ → Prop} {s t u : σ} {ls ms : List ℓ}

lemma single {l : ℓ} (h : step s l t) : Run step s [l] t :=
  Run.nil.snoc h

lemma append (h : Run step s ls t) (h' : Run step t ms u) : Run step s (ls ++ ms) u := by
  induction h' with
  | nil => rwa [List.append_nil]
  | snoc _ hstep ih =>
    rw [← List.append_assoc]
    exact ih.snoc hstep

lemma cons {l : ℓ} (h' : Run step t ls u) (h : step s l t) : Run step s (l :: ls) u :=
  (single h).append h'

/-- A run is cut where its labels are. -/
lemma split (h : Run step s (ls ++ ms) u) : ∃ t, Run step s ls t ∧ Run step t ms u := by
  generalize hks : ls ++ ms = ks at h
  -- the last step is the last label of `ms`, unless `ms` is empty
  induction h generalizing ms with
  | nil =>
    rcases List.append_eq_nil_iff.mp hks with ⟨rfl, rfl⟩
    exact ⟨s, .nil, .nil⟩
  | @snoc ks t u l hrun hstep ih =>
    rcases List.eq_nil_or_concat ms with rfl | ⟨ms', l', rfl⟩
    · rw [List.append_nil] at hks
      subst hks
      exact ⟨u, hrun.snoc hstep, .nil⟩
    · rw [List.concat_eq_append, ← List.append_assoc] at hks
      rcases List.append_inj' hks rfl with ⟨hinit, hlast⟩
      rcases ih hinit with ⟨t', h₁, h₂⟩
      have hl : l' = l := List.singleton_inj.mp hlast
      subst hl
      rw [List.concat_eq_append]
      exact ⟨t', h₁, h₂.snoc hstep⟩

/-- A step in the middle of a run. -/
lemma split_at {l : ℓ} (h : Run step s (ls ++ l :: ms) u) :
    ∃ t t', Run step s ls t ∧ step t l t' ∧ Run step t' ms u := by
  have happ : ls ++ l :: ms = (ls ++ [l]) ++ ms := by simp
  rw [happ] at h
  rcases h.split with ⟨t', h₁, h₂⟩
  generalize hks : ls ++ [l] = ks at h₁
  cases h₁ with
  | nil => exact absurd hks (by simp)
  | snoc hrun hstep =>
    rcases List.append_inj' hks rfl with ⟨rfl, hl⟩
    have hl' : l = _ := List.singleton_inj.mp hl
    subst hl'
    exact ⟨_, t', hrun, hstep, h₂⟩

/-- What holds at the start and is kept by the steps holds after every run. -/
theorem invariant {I : σ → Prop} (h : Run step s ls t) (hinit : I s)
    (hstep : ∀ t l u, I t → step t l u → I u) : I t := by
  induction h with
  | nil => exact hinit
  | snoc _ hst ih => exact hstep _ _ _ ih hst

/-- The same when only the steps with certain labels keep it, and the run has no others. -/
theorem invariant_of_labels {I : σ → Prop} {P : ℓ → Prop} (h : Run step s ls t) (hinit : I s)
    (hstep : ∀ t l u, I t → P l → step t l u → I u) (hls : ∀ l ∈ ls, P l) : I t := by
  induction h with
  | nil => exact hinit
  | snoc _ hst ih =>
    have hbefore := ih fun l hl => hls l (List.mem_append_left _ hl)
    exact hstep _ _ _ hbefore (hls _ (by simp)) hst

/-- The same for a relation between the state and the labels so far. -/
theorem history {I : List ℓ → σ → Prop} (h : Run step s ls t) (hinit : I [] s)
    (hstep : ∀ ks t l u, I ks t → step t l u → I (ks ++ [l]) u) : I ls t := by
  induction h with
  | nil => exact hinit
  | snoc _ hst ih => exact hstep _ _ _ _ ih hst

/-- What holds at the start holds at the end, unless the run has passed a step that ends it. -/
theorem until_step {P : σ → Prop} {Q : σ → ℓ → σ → Prop} (h : Run step s ls t) (hinit : P s)
    (hstep : ∀ t l u, P t → step t l u → P u ∨ Q t l u) :
    P t ∨ ∃ ls₁ l ls₂ v v', ls = ls₁ ++ l :: ls₂ ∧ Run step s ls₁ v ∧ P v ∧ Q v l v' ∧
      Run step v' ls₂ t := by
  induction h with
  | nil => exact Or.inl hinit
  | snoc hrun hst ih =>
    rcases ih with hP | ⟨ls₁, l, ls₂, v, v', rfl, h₁, hv, hQ, h₂⟩
    · -- the run has not passed such a step yet, and this may be one
      rcases hstep _ _ _ hP hst with hP' | hQ
      · exact Or.inl hP'
      · exact Or.inr ⟨_, _, [], _, _, rfl, hrun, hP, hQ, .nil⟩
    · exact Or.inr ⟨ls₁, l, ls₂ ++ [_], v, v', by simp, h₁, hv, hQ, h₂.snoc hst⟩

/-- Along `f` each step is a step of another system. -/
lemma map {τ : Type*} {step' : τ → ℓ → τ → Prop} (f : σ → τ) (h : Run step s ls t)
    (hstep : ∀ t l u, step t l u → step' (f t) l (f u)) : Run step' (f s) ls (f t) := by
  induction h with
  | nil => exact .nil
  | snoc _ hst ih => exact ih.snoc (hstep _ _ _ hst)

lemma relabel {ℓ' : Type*} {step' : σ → ℓ' → σ → Prop} (g : ℓ → ℓ') (h : Run step s ls t)
    (hstep : ∀ t l u, step t l u → step' t (g l) u) : Run step' s (ls.map g) t := by
  induction h with
  | nil => exact .nil
  | snoc _ hlast ih =>
    rw [List.map_append]
    exact ih.snoc (hstep _ _ _ hlast)

/-- A simulation: along `f` each step is a step of the other system, or it is silent and the other
system does not move. -/
theorem simulates {τ : Type*} {step' : τ → ℓ → τ → Prop} (f : σ → τ) (silent : ℓ → Bool)
    (h : Run step s ls t)
    (hstep : ∀ t l u, step t l u → step' (f t) l (f u) ∨ (silent l = true ∧ f u = f t)) :
    ∃ ms, Run step' (f s) ms (f t) ∧
      ms.filter (fun l => !silent l) = ls.filter (fun l => !silent l) := by
  induction h with
  | nil => exact ⟨[], .nil, rfl⟩
  | @snoc ls t u l _ hst ih =>
    rcases ih with ⟨ms, hrun, hms⟩
    rcases hstep t l u hst with hst' | ⟨hsilent, heq⟩
    · exact ⟨ms ++ [l], hrun.snoc hst', by rw [List.filter_append, List.filter_append, hms]⟩
    · rw [heq]
      exact ⟨ms, hrun, by simp [hms, hsilent]⟩

end Run

/-! ## Numbered labels -/

/-- The labels that have a number draw it from a counter, and no step turns the counter back. -/
structure Numbers (step : σ → ℓ → σ → Prop) (count : σ → ℕ) (number : ℓ → Option ℕ) : Prop where
  grows : ∀ {t u : σ} {l : ℓ}, step t l u → count t ≤ count u
  draws : ∀ {t u : σ} {l : ℓ} {n : ℕ}, step t l u → number l = some n → n = count t ∧ n < count u

namespace Run

variable {step : σ → ℓ → σ → Prop} {count : σ → ℕ} {number : ℓ → Option ℕ} {s t : σ} {ls : List ℓ}

/-- The numbers drawn are below those to come. -/
lemma number_lt (hnum : Numbers step count number) (h : Run step s ls t) {l : ℓ} {n : ℕ}
    (hmem : l ∈ ls) (hl : number l = some n) : n < count t := by
  induction h with
  | nil => exact absurd hmem (by simp)
  | snoc _ hstep ih =>
    rcases List.mem_append.mp hmem with hmem | hmem
    · exact lt_of_lt_of_le (ih hmem) (hnum.grows hstep)
    · rw [← List.mem_singleton.mp hmem] at hstep
      exact (hnum.draws hstep hl).2

/-- No number is drawn twice. -/
theorem number_inj (hnum : Numbers step count number) (h : Run step s ls t) {l l' : ℓ} {n : ℕ}
    (hmem : l ∈ ls) (hmem' : l' ∈ ls) (hl : number l = some n) (hl' : number l' = some n) :
    l = l' := by
  induction h with
  | nil => exact absurd hmem (by simp)
  | @snoc ls t u k hrun hstep ih =>
    -- the last label has a number that none before it has
    have hlast : ∀ l ∈ ls, number l = some n → number k ≠ some n := by
      intro l hmem hl hk
      have hlt := hrun.number_lt hnum hmem hl
      have heq := (hnum.draws hstep hk).1
      omega
    rcases List.mem_append.mp hmem with hmem | hmem
    · rcases List.mem_append.mp hmem' with hmem' | hmem'
      · exact ih hmem hmem'
      · rw [List.mem_singleton.mp hmem'] at hl'
        exact absurd hl' (hlast l hmem hl)
    · rcases List.mem_append.mp hmem' with hmem' | hmem'
      · rw [List.mem_singleton.mp hmem] at hl
        exact absurd hl (hlast l' hmem' hl')
      · exact (List.mem_singleton.mp hmem).trans (List.mem_singleton.mp hmem').symm

end Run

/-! ## Runs with their states -/

/-- A step with the state it starts in as part of its label. -/
inductive Recorded (step : σ → ℓ → σ → Prop) (s : σ) : σ × ℓ → σ → Prop
  | intro {l : ℓ} {t : σ} : step s l t → Recorded step s (s, l) t

namespace Run

variable {step : σ → ℓ → σ → Prop} {s t : σ}

lemma unrecord {es : List (σ × ℓ)} (h : Run (Recorded step) s es t) :
    Run step s (es.map Prod.snd) t := by
  induction h with
  | nil => exact .nil
  | snoc _ hstep ih =>
    rw [List.map_append]
    cases hstep with
    | intro hstep => exact ih.snoc hstep

/-- Every run can be recorded. -/
lemma record {ls : List ℓ} (h : Run step s ls t) :
    ∃ es, es.map Prod.snd = ls ∧ Run (Recorded step) s es t := by
  induction h with
  | nil => exact ⟨[], rfl, .nil⟩
  | @snoc ls u t l _ hstep ih =>
    rcases ih with ⟨es, rfl, hrun⟩
    exact ⟨es ++ [(u, l)], by simp, hrun.snoc (.intro hstep)⟩

end Run

/-! ## Reachability -/

/-- Some run from `s` ends in a state that satisfies `P` with the labels passed. -/
def Reaches (step : σ → ℓ → σ → Prop) (s : σ) (P : List ℓ → σ → Prop) : Prop :=
  ∃ ls t, Run step s ls t ∧ P ls t

lemma Reaches.here {step : σ → ℓ → σ → Prop} {s : σ} {P : List ℓ → σ → Prop} (h : P [] s) :
    Reaches step s P :=
  ⟨[], s, .nil, h⟩

/-- A run is built from its first step on. -/
lemma Reaches.step {step : σ → ℓ → σ → Prop} {s t : σ} {l : ℓ} {P : List ℓ → σ → Prop}
    (hstep : step s l t) (h : Reaches step t fun ls u => P (l :: ls) u) : Reaches step s P := by
  rcases h with ⟨ls, u, hrun, hP⟩
  exact ⟨l :: ls, u, hrun.cons hstep, hP⟩

/-- A run goes on from where another one has ended. -/
lemma Reaches.run {step : σ → ℓ → σ → Prop} {s t : σ} {ks : List ℓ} {P : List ℓ → σ → Prop}
    (hrun : Run step s ks t) (h : Reaches step t fun ls u => P (ks ++ ls) u) :
    Reaches step s P := by
  rcases h with ⟨ls, u, hrun', hP⟩
  exact ⟨ks ++ ls, u, hrun.append hrun', hP⟩

/-! ## Conservation -/

/-- The sum of what the labels count. -/
def total {α : Type*} (count : ℓ → Multiset α) (ls : List ℓ) : Multiset α :=
  (ls.map count).sum

variable {α : Type*}

@[simp] lemma total_nil (count : ℓ → Multiset α) : total count [] = 0 := rfl

@[simp] lemma total_append (count : ℓ → Multiset α) (ls ms : List ℓ) :
    total count (ls ++ ms) = total count ls + total count ms := by
  simp [total]

@[simp] lemma total_singleton (count : ℓ → Multiset α) (l : ℓ) : total count [l] = count l := by
  simp [total]

lemma total_cons (count : ℓ → Multiset α) (l : ℓ) (ls : List ℓ) :
    total count (l :: ls) = count l + total count ls :=
  List.sum_cons

lemma mem_total {count : ℓ → Multiset α} {ls : List ℓ} {a : α} :
    a ∈ total count ls ↔ ∃ l ∈ ls, a ∈ count l := by
  induction ls with
  | nil => simp
  | cons l ls ih =>
    rw [total_cons, Multiset.mem_add, ih]
    simp

/-- Where nothing is counted twice, one label counts it. -/
lemma eq_of_total_nodup {count : ℓ → Multiset α} {ls : List ℓ} (h : (total count ls).Nodup)
    {l l' : ℓ} {a : α} (hl : l ∈ ls) (hl' : l' ∈ ls) (ha : a ∈ count l) (ha' : a ∈ count l') :
    l = l' := by
  induction ls with
  | nil => exact absurd hl (by simp)
  | cons k ks ih =>
    rw [total_cons, Multiset.nodup_add] at h
    rcases h with ⟨-, hks, hdisjoint⟩
    have hapart : ∀ l ∈ ks, a ∈ count l → a ∉ count k := fun l hmem hal hak =>
      Multiset.disjoint_left.mp hdisjoint hak (mem_total.mpr ⟨l, hmem, hal⟩)
    rcases List.mem_cons.mp hl with rfl | hmem
    · rcases List.mem_cons.mp hl' with rfl | hmem'
      · rfl
      · exact absurd ha (hapart l' hmem' ha')
    · rcases List.mem_cons.mp hl' with rfl | hmem'
      · exact absurd ha' (hapart l hmem ha)
      · exact ih hks hmem hmem'

/-- Two ways of counting that agree on the labels of a run agree on the run. -/
lemma total_congr {count count' : ℓ → Multiset α} {ls : List ℓ}
    (h : ∀ l ∈ ls, count l = count' l) : total count ls = total count' ls := by
  unfold total
  rw [List.map_congr_left h]

lemma total_mono {count count' : ℓ → Multiset α} (h : ∀ l, count l ≤ count' l) (ls : List ℓ) :
    total count ls ≤ total count' ls :=
  List.sum_le_sum fun l _ => h l

lemma map_total {β : Type*} (f : α → β) (count : ℓ → Multiset α) (ls : List ℓ) :
    (total count ls).map f = total (fun l => (count l).map f) ls := by
  induction ls with
  | nil => rfl
  | cons l ls ih =>
    unfold total at ih ⊢
    rw [List.map_cons, List.sum_cons, Multiset.map_add, ih]
    rfl

/-- What a list picks out of the labels, as a sum. -/
lemma coe_filterMap (f : ℓ → Option α) (ls : List ℓ) :
    (ls.filterMap f : Multiset α) = total (fun l => ((f l).toList : Multiset α)) ls := by
  induction ls with
  | nil => rfl
  | cons l ls ih =>
    rw [total_cons, ← ih, Multiset.coe_add]
    cases hf : f l <;> simp [hf]

/-- What came in is what went out and what is held, when every step of the run keeps that
balance. -/
theorem Run.conserved {step : σ → ℓ → σ → Prop} {s t : σ} {ls : List ℓ} {held : σ → Multiset α}
    {came went : ℓ → Multiset α} (h : Run step s ls t) (hinit : held s = 0)
    (hstep : ∀ ks t l u, Run step s ks t → step t l u → went l + held u = came l + held t) :
    total went ls + held t = total came ls := by
  induction h with
  | nil => simpa using hinit
  | @snoc ls t u l hrun hst ih =>
    have hbalance := hstep _ _ _ _ hrun hst
    calc total went (ls ++ [l]) + held u = total went ls + (went l + held u) := by
          rw [total_append, total_singleton, add_assoc]
      _ = (total went ls + held t) + came l := by
          rw [hbalance, add_comm (came l), add_assoc]
      _ = total came (ls ++ [l]) := by rw [ih, total_append, total_singleton]

end Transition
