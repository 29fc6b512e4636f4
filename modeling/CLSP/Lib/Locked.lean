import CLSP.Lib.Transition

/-!
# Output under a lock

Threads that write to one output, piece by piece, under a lock. The step that writes moves its
thread, takes the lock and leaves what is to be written to it; the thread stays where it is until it
has written everything and given the lock back. The others go on meanwhile.
-/

namespace Locked

open Transition

variable {θ σ ℓ β : Type*}

/-- A state with the holder of the lock and what it has still to write. -/
structure State (θ σ β : Type*) where
  inner : σ
  holder : Option (θ × List β)

def State.start (s : σ) : State θ σ β :=
  { inner := s, holder := none }

/-- What is still to be written. -/
def State.pending (s : State θ σ β) : List β :=
  s.holder.elim [] Prod.snd

inductive Event (ℓ β : Type*)
  | moved (l : ℓ)
  | wrote (now : List β)
  | released

/-- A step of a thread on its own, a piece of output, or the end of a write. Nothing is written once
the threads are dead. -/
inductive Step (step : θ → σ → ℓ → σ → Prop) (live : σ → Prop) (writes : ℓ → Option (List β))
    (s : State θ σ β) : Event ℓ β → State θ σ β → Prop
  | free {t : θ} {l : ℓ} {u : σ} : (∀ h ∈ s.holder, h.1 ≠ t) → writes l = none →
      step t s.inner l u → Step step live writes s (.moved l) { s with inner := u }
  | acquire {t : θ} {l : ℓ} {u : σ} {items : List β} : s.holder = none → writes l = some items →
      step t s.inner l u →
      Step step live writes s (.moved l) { inner := u, holder := some (t, items) }
  | write {t : θ} {now rest : List β} : live s.inner → s.holder = some (t, now ++ rest) →
      Step step live writes s (.wrote now) { s with holder := some (t, rest) }
  | release {t : θ} : live s.inner → s.holder = some (t, []) →
      Step step live writes s .released { s with holder := none }

def Event.moved? : Event ℓ β → Option ℓ
  | .moved l => some l
  | _ => none

def Event.written : Event ℓ β → List β
  | .wrote now => now
  | _ => []

/-- The labels of the steps of the threads. -/
def moves (es : List (Event ℓ β)) : List ℓ :=
  es.filterMap Event.moved?

/-- What has been written. -/
def output (es : List (Event ℓ β)) : List β :=
  es.flatMap Event.written

@[simp] lemma moves_append (es es' : List (Event ℓ β)) :
    moves (es ++ es') = moves es ++ moves es' :=
  List.filterMap_append

@[simp] lemma output_append (es es' : List (Event ℓ β)) :
    output (es ++ es') = output es ++ output es' :=
  List.flatMap_append

/-- What the labels write. -/
def writtenBy (writes : ℓ → Option (List β)) (ls : List ℓ) : List β :=
  ls.flatMap fun l => (writes l).getD []

lemma mem_moves {l : ℓ} {es : List (Event ℓ β)} : l ∈ moves es ↔ .moved l ∈ es := by
  rw [moves, List.mem_filterMap]
  constructor
  · rintro ⟨e, hmem, he⟩
    cases e with
    | moved l' => rwa [← Option.some.inj he]
    | _ => exact absurd he (by simp [Event.moved?])
  · exact fun hmem => ⟨_, hmem, rfl⟩

section Runs

variable {step : θ → σ → ℓ → σ → Prop} {live : σ → Prop} {writes : ℓ → Option (List β)}
variable {s s' : State θ σ β} {es : List (Event ℓ β)}

/-- Each step is one of a thread, or moves no thread. -/
lemma Step.inner {e : Event ℓ β} (h : Step step live writes s e s') :
    (∃ t l, e = .moved l ∧ step t s.inner l s'.inner) ∨
      moves [e] = [] ∧ s'.inner = s.inner := by
  cases h with
  | free _ _ hstep => exact Or.inl ⟨_, _, rfl, hstep⟩
  | acquire _ _ hstep => exact Or.inl ⟨_, _, rfl, hstep⟩
  | write | release => exact Or.inr ⟨rfl, rfl⟩

/-- The threads run as they do when each write is a single step. -/
theorem run_inner (h : Run (Step step live writes) s es s') :
    Run (fun u l u' => ∃ t, step t u l u') s.inner (moves es) s'.inner := by
  induction h with
  | nil => exact .nil
  | snoc _ hstep ih =>
    rw [moves_append]
    rcases hstep.inner with ⟨t, l, rfl, hmove⟩ | ⟨hnone, heq⟩
    · exact ih.snoc ⟨t, hmove⟩
    · rw [hnone, heq, List.append_nil]
      exact ih

lemma Step.pending {e : Event ℓ β} (h : Step step live writes s e s') :
    e.written ++ s'.pending = s.pending ++ writtenBy writes (moves [e]) := by
  have hnone : s.holder = none → s.pending = [] := by
    intro hs
    rw [State.pending, hs]
    rfl
  have hsome : ∀ {t : θ} {items : List β}, s.holder = some (t, items) → s.pending = items := by
    intro t items hs
    rw [State.pending, hs]
    rfl
  cases h with
  | free _ hquiet =>
    simp [Event.written, moves, Event.moved?, writtenBy, hquiet, State.pending]
  | acquire hs hwrites =>
    rw [hnone hs]
    simp [Event.written, moves, Event.moved?, writtenBy, hwrites, State.pending]
  | write _ hs =>
    rw [hsome hs]
    simp [Event.written, moves, Event.moved?, writtenBy, State.pending]
  | release _ hs =>
    rw [hsome hs]
    rfl

/-- The output is what the steps of the threads write, in their order, up to what the holder of the
lock has still to write. -/
theorem run_output (h : Run (Step step live writes) s es s') (hs : s.holder = none) :
    output es ++ s'.pending = writtenBy writes (moves es) := by
  induction h with
  | nil =>
    rw [State.pending, hs]
    rfl
  | @snoc es t u e _ hstep ih =>
    have hwritten : output [e] = e.written := List.append_nil _
    calc output (es ++ [e]) ++ u.pending = output es ++ (e.written ++ u.pending) := by
          rw [output_append, hwritten, List.append_assoc]
      _ = (output es ++ t.pending) ++ writtenBy writes (moves [e]) := by
          rw [hstep.pending, List.append_assoc]
      _ = writtenBy writes (moves (es ++ [e])) := by
          rw [ih, moves_append, writtenBy, writtenBy, writtenBy, List.flatMap_append]

/-- What the holder of the lock has still to write is the rest of what the last step that writes is
to write; the steps before it have written everything. -/
theorem run_holder (h : Run (Step step live writes) s es s') (hs : s.holder = none) {t : θ}
    {rest : List β} (hs' : s'.holder = some (t, rest)) :
    ∃ ls₁ l ls₂ now, moves es = ls₁ ++ l :: ls₂ ∧ (∀ l' ∈ ls₂, writes l' = none) ∧
      writes l = some (now ++ rest) ∧ output es = writtenBy writes ls₁ ++ now := by
  -- who holds the lock is the thread of the last step that writes
  have hlast : ∃ ls₁ l ls₂ now, moves es = ls₁ ++ l :: ls₂ ∧ (∀ l' ∈ ls₂, writes l' = none) ∧
      writes l = some (now ++ rest) := by
    induction h generalizing t rest with
    | nil => exact absurd (hs.symm.trans hs') (by simp)
    | @snoc es u u' e _ hstep ih =>
      cases hstep with
      | @free _ l' _ _ hquiet _ =>
        rcases ih hs' with ⟨ls₁, l, ls₂, now, hmoves, hquiets, hwrites⟩
        refine ⟨ls₁, l, ls₂ ++ [l'], now, ?_, ?_, hwrites⟩
        · rw [moves_append, hmoves]
          exact List.append_assoc _ _ _
        · intro k hmem
          rcases List.mem_append.mp hmem with hmem | hmem
          · exact hquiets k hmem
          · rw [List.mem_singleton.mp hmem]
            exact hquiet
      | @acquire t' l _ items _ hwrites _ =>
        rcases Prod.mk.inj (Option.some.inj hs') with ⟨-, rfl⟩
        exact ⟨moves es, l, [], [], moves_append _ _, by simp, hwrites⟩
      | @write t' piece left _ hheld =>
        rcases Prod.mk.inj (Option.some.inj hs') with ⟨-, rfl⟩
        rcases ih hheld with ⟨ls₁, l, ls₂, now, hmoves, hquiets, hwrites⟩
        refine ⟨ls₁, l, ls₂, now ++ piece, ?_, hquiets, ?_⟩
        · rw [moves_append, hmoves]
          exact List.append_nil _
        · rw [hwrites, List.append_assoc]
      | release => exact absurd hs' (by simp)
  rcases hlast with ⟨ls₁, l, ls₂, now, hmoves, hquiets, hwrites⟩
  refine ⟨ls₁, l, ls₂, now, hmoves, hquiets, hwrites, ?_⟩
  -- the steps before that one have written everything, those after it nothing
  have houtput := run_output h hs
  have hpending : s'.pending = rest := by
    rw [State.pending, hs']
    rfl
  have hnone : writtenBy writes ls₂ = [] :=
    List.flatMap_eq_nil_iff.mpr fun l' hmem => by rw [hquiets l' hmem]; rfl
  have hwritten : writtenBy writes (moves es) = writtenBy writes ls₁ ++ (now ++ rest) := by
    rw [hmoves]
    unfold writtenBy at hnone ⊢
    rw [List.flatMap_append, List.flatMap_cons, hnone, hwrites, List.append_nil]
    rfl
  rw [hpending, hwritten, ← List.append_assoc] at houtput
  exact List.append_cancel_right houtput

/-- Who has the lock can write what is left and give the lock back. -/
theorem exists_release {t : θ} {items : List β} (hlive : live s.inner)
    (hs : s.holder = some (t, items)) :
    Run (Step step live writes) s [.wrote items, .released] { s with holder := none } := by
  have hwrite : Step step live writes s (.wrote items) { s with holder := some (t, []) } :=
    .write hlive (by rw [hs, List.append_nil])
  have hrelease : Step step live writes { s with holder := some (t, []) } .released
      { s with holder := none } := .release hlive rfl
  exact (Run.single hwrite).snoc hrelease

/-- Whatever the threads can do when each write is a single step, they can do writing. -/
theorem exists_run {u u' : σ} {ls : List ℓ}
    (hlive : ∀ {t : θ} {u u' : σ} {l : ℓ}, step t u l u' → writes l ≠ none → live u')
    (h : Run (fun u l u' => ∃ t, step t u l u') u ls u') :
    ∃ es, Run (Step step live writes) (.start u) es (.start u') ∧ moves es = ls := by
  induction h with
  | nil => exact ⟨[], .nil, rfl⟩
  | @snoc ls u₁ u₂ l _ hstep ih =>
    rcases ih with ⟨es, hrun, rfl⟩
    rcases hstep with ⟨t, hstep⟩
    cases hwrites : writes l with
    | none =>
      have hfree : Step step live writes (.start u₁) (.moved l) (.start u₂) :=
        .free (by simp [State.start]) hwrites hstep
      exact ⟨_, hrun.snoc hfree, moves_append es [.moved l]⟩
    | some items =>
      have hacquire : Step step live writes (.start u₁) (.moved l)
          { inner := u₂, holder := some (t, items) } := .acquire rfl hwrites hstep
      -- the lock is given back before the next step
      have hwritten : Run (Step step live writes) { inner := u₂, holder := some (t, items) }
          [.wrote items, .released] (.start u₂) :=
        exists_release (hlive hstep (by simp [hwrites])) rfl
      refine ⟨_, (hrun.snoc hacquire).append hwritten, ?_⟩
      rw [moves_append, moves_append]
      exact List.append_nil _

end Runs

end Locked
