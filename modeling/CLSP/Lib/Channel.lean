import CLSP.Lib.Fairness
import Mathlib.Logic.Function.Basic

/-!
# Two systems linked by channels

Two labelled transition systems whose steps send and receive items, each over a channel of its own
to the other. Nothing is lost, changed or overtaken on the way. A run of the pair is a run of each
end, and what an end has received is what the other has sent but for what is in flight.
-/

namespace Channel

open Transition

variable {σ ℓ μ : Type*}

/-- The two ends of a link. -/
inductive End
  | left
  | right
deriving DecidableEq, Repr

/-- The end across. -/
def End.other : End → End
  | .left => .right
  | .right => .left

@[simp] lemma End.other_other (d : End) : d.other.other = d := by
  cases d <;> rfl

@[simp] lemma End.other_ne (d : End) : d.other ≠ d := by
  cases d <;> decide

@[simp] lemma End.ne_other (d : End) : d ≠ d.other := by
  cases d <;> decide

lemma End.eq_other_of_ne {d d' : End} (h : d' ≠ d) : d' = d.other := by
  cases d <;> cases d' <;> first | rfl | exact absurd rfl h

/-- The states of the ends, and what is on its way to each of them, the oldest item first. -/
structure Linked (σ μ : Type*) where
  ends : End → σ
  inFlight : End → List μ

/-- A linked pair with nothing in flight. -/
def Linked.start (init : End → σ) : Linked σ μ where
  ends := init
  inFlight _ := []

/-- A step of one end: it takes something from its channel and puts what it sends at the back of the
other one. `takes l queue rest` says that it leaves `rest` of its channel. -/
inductive LinkStep (step : End → σ → ℓ → σ → Prop) (sends : End → ℓ → List μ)
    (takes : ℓ → List μ → List μ → Prop) (p : Linked σ μ) : End × ℓ → Linked σ μ → Prop
  | intro (d : End) {l : ℓ} {s : σ} {rest : List μ} : step d (p.ends d) l s →
      takes l (p.inFlight d) rest →
      LinkStep step sends takes p (d, l)
        { ends := Function.update p.ends d s
          inFlight := fun d' => if d' = d then rest else p.inFlight d' ++ sends d l }

/-- A step takes items from the front of its channel. -/
def FromFront (receives : ℓ → List μ) (l : ℓ) (queue rest : List μ) : Prop :=
  queue = receives l ++ rest

/-- The labels of one end. -/
def side (d : End) (ls : List (End × ℓ)) : List ℓ :=
  ls.filterMap fun l => if l.1 = d then some l.2 else none

@[simp] lemma side_nil (d : End) : side d ([] : List (End × ℓ)) = [] := rfl

@[simp] lemma side_append (d : End) (ls ms : List (End × ℓ)) :
    side d (ls ++ ms) = side d ls ++ side d ms :=
  List.filterMap_append

@[simp] lemma side_cons_self (d : End) (l : ℓ) (ls : List (End × ℓ)) :
    side d ((d, l) :: ls) = l :: side d ls := by
  simp [side]

lemma side_cons_of_ne {d d' : End} (h : d' ≠ d) (l : ℓ) (ls : List (End × ℓ)) :
    side d ((d', l) :: ls) = side d ls := by
  simp [side, h]

lemma mem_side {d : End} {l : ℓ} {ls : List (End × ℓ)} : l ∈ side d ls ↔ (d, l) ∈ ls := by
  rw [side, List.mem_filterMap]
  constructor
  · rintro ⟨⟨d', l'⟩, hmem, h⟩
    by_cases hd : d' = d
    · subst hd
      rw [if_pos rfl] at h
      rwa [← Option.some.inj h]
    · rw [if_neg hd] at h
      exact absurd h (by simp)
  · exact fun hmem => ⟨_, hmem, if_pos rfl⟩

section Runs

variable {step : End → σ → ℓ → σ → Prop} {sends : End → ℓ → List μ} {receives : ℓ → List μ}
variable {takes : ℓ → List μ → List μ → Prop} {p q : Linked σ μ} {ls : List (End × ℓ)}

/-- A run of the pair is a run of each end. -/
theorem run_side (h : Run (LinkStep step sends takes) p ls q) (d : End) :
    Run (step d) (p.ends d) (side d ls) (q.ends d) := by
  induction h with
  | nil => exact .nil
  | snoc _ hstep ih =>
    cases hstep with
    | @intro d' l s _ hstep _ =>
      rw [side_append]
      by_cases hd : d' = d
      · subst hd
        rw [side_cons_self, side_nil]
        simp only [Function.update_self]
        exact ih.snoc hstep
      · rw [side_cons_of_ne hd, side_nil, List.append_nil]
        simp only [Function.update_of_ne (Ne.symm hd)]
        exact ih

/-- What comes to an end is what the other sends, in order: one part has been received and the
other is in flight. -/
theorem run_fifo (h : Run (LinkStep step sends (FromFront receives)) p ls q) (d : End) :
    p.inFlight d ++ (side d.other ls).flatMap (sends d.other) =
      (side d ls).flatMap receives ++ q.inFlight d := by
  induction h with
  | nil => exact List.append_nil _
  | snoc _ hstep ih =>
    cases hstep with
    | @intro d' l s rest _ hflight =>
      unfold FromFront at hflight
      rw [side_append, side_append, List.flatMap_append, List.flatMap_append, ← List.append_assoc,
        ih]
      -- an end that steps takes from its own queue; the other one adds to it
      by_cases hd : d' = d
      · subst hd
        rw [side_cons_of_ne (End.ne_other d'), side_cons_self, hflight]
        simp
      · have hd' := End.eq_other_of_ne hd
        subst hd'
        rw [side_cons_of_ne (End.other_ne d), side_cons_self]
        simp

/-- Nothing is received that has not been sent before. -/
theorem sent_of_received {ls₁ ls₂ : List (End × ℓ)} {d : End} {l : ℓ} {m : μ}
    (h : Run (LinkStep step sends (FromFront receives)) p (ls₁ ++ (d, l) :: ls₂) q)
    (hp : p.inFlight d = []) (hm : m ∈ receives l) :
    ∃ l' ∈ side d.other ls₁, m ∈ sends d.other l' := by
  rcases h.split_at with ⟨t, t', hrun, hstep, -⟩
  have hfifo := run_fifo (hrun.snoc hstep) d
  rw [hp, side_append, side_append, side_cons_of_ne (End.ne_other d), side_cons_self] at hfifo
  have hmem : m ∈ (side d.other ls₁).flatMap (sends d.other) := by
    simp only [List.nil_append, side_nil, List.append_nil] at hfifo
    rw [hfifo]
    simp [hm]
  simpa using hmem

end Runs

section Executions

variable {step : End → σ → ℓ → σ → Prop} {sends : End → ℓ → List μ} {receives : ℓ → List μ}

section Steps

variable {takes : ℓ → List μ → List μ → Prop} {p q : Linked σ μ} {d : End}

/-- A step of the other end only adds to what is on its way. -/
lemma LinkStep.of_other {l : End × ℓ} (h : LinkStep step sends takes p l q) (hd : l.1 ≠ d) :
    q.ends d = p.ends d ∧ q.inFlight d = p.inFlight d ++ sends l.1 l.2 := by
  cases h with
  | intro d' _ _ => exact ⟨Function.update_of_ne (Ne.symm hd) _ _, if_neg (Ne.symm hd)⟩

lemma LinkStep.of_end {l : ℓ} (h : LinkStep step sends takes p (d, l) q) :
    step d (p.ends d) l (q.ends d) ∧ takes l (p.inFlight d) (q.inFlight d) := by
  cases h with
  | intro _ hstep htakes =>
    simp only [Function.update_self, if_true]
    exact ⟨hstep, htakes⟩

end Steps

/-- One end of an execution of the pair. -/
def sideOf (x : Execution (LinkStep step sends (FromFront receives))) (d : End) :
    Execution (step d) where
  state n := (x.state n).ends d
  label n := (x.label n).bind fun l => if l.1 = d then some l.2 else none
  steps n l hl := by
    rcases Option.bind_eq_some_iff.mp hl with ⟨⟨d', l'⟩, hlabel, hd⟩
    by_cases hdd : d' = d
    · subst hdd
      rw [if_pos rfl] at hd
      rw [← Option.some.inj hd]
      exact (x.steps n _ hlabel).of_end.1
    · rw [if_neg hdd] at hd
      exact absurd hd (by simp)
  idles n hl := by
    cases hlabel : x.label n with
    | none => rw [x.idles n hlabel]
    | some l =>
      refine ((x.steps n l hlabel).of_other fun hd => ?_).1
      rw [hlabel] at hl
      simp [hd] at hl

lemma sideOf_label {x : Execution (LinkStep step sends (FromFront receives))} {d : End} {n : ℕ}
    {l : ℓ} : (sideOf x d).label n = some l ↔ x.label n = some (d, l) := by
  show ((x.label n).bind fun l => if l.1 = d then some l.2 else none) = some l ↔ _
  rw [Option.bind_eq_some_iff]
  constructor
  · rintro ⟨⟨d', l'⟩, hlabel, hd⟩
    by_cases hdd : d' = d
    · subst hdd
      rw [if_pos rfl] at hd
      have hl : l' = l := Option.some.inj hd
      rw [hlabel, hl]
    · rw [if_neg hdd] at hd
      exact absurd hd (by simp)
  · exact fun hlabel => ⟨_, hlabel, if_pos rfl⟩

/-- Steps of one end. -/
def AtEnd (d : End) (own : σ → ℓ → σ → Prop) (p : Linked σ μ) (l : End × ℓ) (q : Linked σ μ) :
    Prop :=
  l.1 = d ∧ own (p.ends d) l.2 (q.ends d)

/-- A step that receives nothing is possible for the pair when it is for the end. -/
lemma enabled_atEnd {own : σ → ℓ → σ → Prop} (hquiet : ∀ s l t, own s l t → receives l = [])
    {d : End} {p : Linked σ μ} (h : Enabled (step d) own (p.ends d)) :
    Enabled (LinkStep step sends (FromFront receives)) (AtEnd d own) p := by
  rcases h with ⟨l, t, hown, hstep⟩
  have hfront : FromFront receives l (p.inFlight d) (p.inFlight d) := by
    unfold FromFront
    rw [hquiet _ _ _ hown]
    rfl
  refine ⟨_, _, ⟨rfl, ?_⟩, .intro d hstep hfront⟩
  simp only [Function.update_self]
  exact hown

/-- What is possible for the pair at one end is possible for the end. -/
lemma enabled_of_atEnd {takes : ℓ → List μ → List μ → Prop} {own : σ → ℓ → σ → Prop} {d : End}
    {p : Linked σ μ} (h : Enabled (LinkStep step sends takes) (AtEnd d own) p) :
    Enabled (step d) own (p.ends d) := by
  rcases h with ⟨⟨_, l⟩, q, ⟨rfl, hown⟩, hstep⟩
  exact ⟨l, _, hown, hstep.of_end.1⟩

/-- The pair is fair to steps that receive nothing when the execution of the end is. -/
lemma fair_atEnd_iff {own : σ → ℓ → σ → Prop} (hquiet : ∀ s l t, own s l t → receives l = [])
    {x : Execution (LinkStep step sends (FromFront receives))} {d : End} :
    x.Fair (AtEnd d own) ↔ (sideOf x d).Fair own := by
  constructor
  · intro hfair n
    rcases hfair n with ⟨m, hm, ⟨⟨d', l⟩, hl, rfl, hown⟩ | hblocked⟩
    · exact ⟨m, hm, Or.inl ⟨l, sideOf_label.mpr hl, hown⟩⟩
    · exact ⟨m, hm, Or.inr fun henabled => hblocked (enabled_atEnd hquiet henabled)⟩
  · intro hfair n
    rcases hfair n with ⟨m, hm, ⟨l, hl, hown⟩ | hblocked⟩
    · exact ⟨m, hm, Or.inl ⟨(d, l), sideOf_label.mp hl, rfl, hown⟩⟩
    · exact ⟨m, hm, Or.inr fun henabled => hblocked (enabled_of_atEnd henabled)⟩

/-- What brings an item to an end: the end gets ready to receive with steps of its own, with less
`left` to do after each, and then receives. -/
structure Receiver (step : σ → ℓ → σ → Prop) (receives : ℓ → List μ) where
  up : σ → Prop
  left : σ → ℕ
  bound : ℕ
  own : σ → ℓ → σ → Prop
  own_quiet : ∀ s l t, own s l t → receives l = []
  own_enabled : ∀ s, up s → left s ≠ 0 → Enabled step own s
  ready : ∀ s m, up s → left s = 0 → ∃ l t, receives l = [m] ∧ step s l t
  steps : ∀ s l t, up s → step s l t → up t →
    receives l = [] ∧ (left t < left s ∨ left t = left s ∧ ¬ own s l t) ∨
      (∃ m, receives l = [m]) ∧ left t ≤ bound

/-- Steps that receive something. -/
def Receives (receives : ℓ → List μ) (_ : σ) (l : ℓ) (_ : σ) : Prop :=
  receives l ≠ []

/-- Nothing is received where nothing is in flight. -/
lemma not_enabled_receives {d : End} {p : Linked σ μ} (h : p.inFlight d = []) :
    ¬ Enabled (LinkStep step sends (FromFront receives)) (AtEnd d (Receives receives)) p := by
  rintro ⟨⟨_, l⟩, q, ⟨rfl, hreceives⟩, hstep⟩
  have hfront : p.inFlight _ = receives l ++ q.inFlight _ := hstep.of_end.2
  rw [h] at hfront
  exact hreceives (List.append_eq_nil_iff.mp hfront.symm).1

variable {x : Execution (LinkStep step sends (FromFront receives))} {d : End}

/-- An item is on its way to an end, and `r` is left of what comes before. -/
def OnTheWay (R : Receiver (step d) receives) (m : μ) (p : Linked σ μ) (r : ℕ) : Prop :=
  R.up (p.ends d) ∧ ∃ before after, p.inFlight d = before ++ m :: after ∧
    r = before.length * (R.bound + 1) + R.left (p.ends d)

/-- The steps that help: those of the end until it is ready, then that of receiving. -/
def Receiver.acts (R : Receiver (step d) receives) : Bool → σ → ℓ → σ → Prop
  | true => R.own
  | false => Receives receives

def Receiver.helps (R : Receiver (step d) receives) (s : σ) (own : Bool) : Prop :=
  own = true ↔ R.left s ≠ 0

lemma Receiver.enabled (R : Receiver (step d) receives) {m : μ} {p : Linked σ μ} {r : ℕ}
    {own : Bool} (h : OnTheWay R m p r) (hown : R.helps (p.ends d) own) :
    Enabled (LinkStep step sends (FromFront receives)) (AtEnd d (R.acts own)) p := by
  rcases h with ⟨hup, before, after, hflight, -⟩
  cases own with
  | true => exact enabled_atEnd R.own_quiet (R.own_enabled _ hup (hown.mp rfl))
  | false =>
    have hready : R.left (p.ends d) = 0 := by
      by_contra hleft
      exact absurd (hown.mpr hleft) (by simp)
    have hne : p.inFlight d ≠ [] := by simp [hflight]
    rcases List.exists_cons_of_ne_nil hne with ⟨first, rest, hqueue⟩
    rcases R.ready _ first hup hready with ⟨l, t, hl, hstep⟩
    have hfront : FromFront receives l (p.inFlight d) rest := by
      unfold FromFront
      rw [hl, hqueue]
      rfl
    refine ⟨_, _, ⟨rfl, ?_⟩, .intro d hstep hfront⟩
    show receives l ≠ []
    rw [hl]
    simp

/-- A step brings an item nearer, unless it receives it or the end goes down. -/
lemma OnTheWay.moves {R : Receiver (step d) receives} {m : μ} {p q : Linked σ μ} {r : ℕ}
    {l : End × ℓ} (h : OnTheWay R m p r)
    (hstep : LinkStep step sends (FromFront receives) p l q) :
    Execution.Descends (fun own => AtEnd d (R.acts own)) (fun p own => R.helps (p.ends d) own)
        (OnTheWay R m) p r l q ∨
      ¬ R.up (q.ends d) ∨ l.1 = d ∧ receives l.2 = [m] := by
  by_cases hup' : R.up (q.ends d)
  swap
  · exact Or.inr (Or.inl hup')
  rcases h with ⟨hup, before, after, hflight, rfl⟩
  rcases l with ⟨d', l⟩
  by_cases hd : d' = d
  · subst hd
    rcases hstep.of_end with ⟨hstep, hfront⟩
    unfold FromFront at hfront
    rw [hflight] at hfront
    rcases R.steps _ _ _ hup hstep hup' with ⟨hquiet, hleft⟩ | ⟨⟨first, hfirst⟩, hbound⟩
    · -- it gets ready
      rw [hquiet, List.nil_append] at hfront
      have hon : OnTheWay R m q (before.length * (R.bound + 1) + R.left (q.ends d')) :=
        ⟨hup', before, after, hfront.symm, rfl⟩
      rcases hleft with hlt | ⟨heq, hown⟩
      · exact Or.inl (Or.inl ⟨_, by omega, hon⟩)
      · refine Or.inl (Or.inr ⟨heq ▸ hon, fun own hhelps => ⟨?_, ?_⟩⟩)
        · rintro ⟨-, hacts⟩
          cases own with
          | true => exact hown hacts
          | false => exact hacts hquiet
        · show own = true ↔ R.left (q.ends d') ≠ 0
          rw [heq]
          exact hhelps
    · -- it receives the first item
      rw [hfirst] at hfront
      cases before with
      | nil => exact Or.inr (Or.inr ⟨rfl, by rw [hfirst, ← (List.cons.inj hfront).1]⟩)
      | cons first' before =>
        have hon : OnTheWay R m q (before.length * (R.bound + 1) + R.left (q.ends d')) :=
          ⟨hup', before, after, (List.cons.inj hfront).2.symm, rfl⟩
        refine Or.inl (Or.inl ⟨_, ?_, hon⟩)
        rw [List.length_cons, Nat.add_mul]
        omega
  · -- what the other end sends is put behind the item
    rcases hstep.of_other hd with ⟨hends, hsent⟩
    have hon : OnTheWay R m q (before.length * (R.bound + 1) + R.left (p.ends d)) := by
      refine ⟨hup', before, after ++ sends d' l, ?_, by rw [hends]⟩
      rw [hsent, hflight]
      simp
    refine Or.inl (Or.inr ⟨hon, fun own hhelps => ⟨fun hat => hd hat.1, ?_⟩⟩)
    show R.helps (q.ends d) own
    rw [hends]
    exact hhelps

/-- **Delivery.** What is in flight arrives, unless the end goes down. -/
theorem delivered (R : Receiver (step d) receives) (hown : x.Fair (AtEnd d R.own))
    (hreceives : x.Fair (AtEnd d (Receives receives))) {n : ℕ} {m : μ}
    (hup : R.up ((x.state n).ends d)) (hm : m ∈ (x.state n).inFlight d) :
    ∃ k ≥ n, ¬ R.up ((x.state (k + 1)).ends d) ∨
      ∃ l, x.label k = some (d, l) ∧ receives l = [m] := by
  rcases List.append_of_mem hm with ⟨before, after, hflight⟩
  have hon : OnTheWay R m (x.state n) _ := ⟨hup, before, after, hflight, rfl⟩
  have hreached := x.response (fun own => AtEnd d (R.acts own))
    (fun p own => R.helps (p.ends d) own) (OnTheWay R m)
    (fun l q => ¬ R.up (q.ends d) ∨ l.1 = d ∧ receives l.2 = [m]) ?_
    (fun _ _ _ h hhelps => R.enabled h hhelps) ?_ (fun _ _ _ _ h hstep => h.moves hstep) hon
  · rcases hreached with ⟨k, hk, ⟨d', l⟩, hl, hdown | ⟨rfl, hreceived⟩⟩
    · exact ⟨k, hk, Or.inl hdown⟩
    · exact ⟨k, hk, Or.inr ⟨l, hl, hreceived⟩⟩
  · rintro (_ | _)
    · exact hreceives
    · exact hown
  · intro p r _
    -- one of the two kinds of steps helps at any time
    by_cases hleft : R.left (p.ends d) = 0
    · exact ⟨false, by simp [Receiver.helps, hleft]⟩
    · exact ⟨true, by simp [Receiver.helps, hleft]⟩

end Executions

end Channel
