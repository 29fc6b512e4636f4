import CLSP.Server.Liveness

/-!
# `run` returns

When `readMessage` has returned `nullopt`, or after `exit`, `run` shuts down the pools, which finish
their tasks first. Nothing is submitted any more, so what is left of all the tasks together falls
until the workers have left their loops.
-/

namespace CLSP

open Transition

section Steps

variable {cfg : Config} {s s' : Server} {l : Label} {e : Executor} {w : ℕ} {t : Thread} {r : ℕ}

/-- The steps left to the read thread after its last message. -/
def ReaderPc.closing : ReaderPc → ℕ
  | .exiting => 6
  | .loop => 5
  | .stopping .sync => 4
  | .joining .sync => 3
  | .stopping .worker => 2
  | .joining .worker => 1
  | _ => 0

/-- What is left of the tasks of a pool. -/
def Server.load (s : Server) (e : Executor) : ℕ :=
  s.work e (s.pool e).tasks_

/-- The read thread has read its last message, and `r` is left of everything. -/
structure Server.Closing (s : Server) (r : ℕ) : Prop where
  live : s.terminated = false
  unthrown : s.threw = false
  phased : s.Phased
  last : 0 < s.reader.closing
  exited : s.reader = .exiting ∨ s.reader = .loop → s.state_ = .Exited
  stopped : ∀ e, s.reader = .joining e → (s.pool e).stopping_ = true
  rank : r = s.reader.closing + (s.load .sync + s.load .worker)

lemma WorkerStep.load (h : WorkerStep cfg e w s l s') (hlive : s'.terminated = false) :
    s'.load .sync + s'.load .worker + l.promised.toNat ≤ s.load .sync + s.load .worker := by
  rcases h.turn with rfl | ⟨taken, old, new, hturn, -⟩
  · exact absurd hlive (by simp)
  have hsum := ThreadPool.sum_map_set Worker.work new hturn.worker
  rw [← hturn.workers] at hsum
  have hwork := hturn.work
  have hpool : s'.load e + l.promised.toNat ≤ s.load e := by
    unfold Server.load Server.work
    rw [hturn.tasks, List.map_append, List.sum_append]
    omega
  cases e with
  | worker =>
    have hother : s'.load .sync = s.load .sync := by
      unfold Server.load Server.work
      rw [h.pool_of_ne (by simp)]
    omega
  | sync =>
    have hother : s'.load .worker = s.load .worker := by
      unfold Server.load Server.work
      rw [h.pool_of_ne (by simp)]
    omega

/-- `shutdown` of a pool returns once its workers are joined. -/
lemma ReaderStep.joined_of_joining (h : ReaderStep cfg s l s') (hr : s.reader = .joining e) :
    (s.pool e).Joined := by
  cases h with
  | joinSync hr' hjoined =>
    obtain rfl := ReaderPc.joining.inj (hr'.symm.trans hr)
    exact hjoined
  | joinWorkers hr' hjoined =>
    obtain rfl := ReaderPc.joining.inj (hr'.symm.trans hr)
    exact hjoined
  | read _ hr' | parseThrows _ hr' | endOfInput hr' | leave hr' | send hr' | sendThrows hr'
  | handler _ hr' | handlerFinishes hr' | handlerEscapes hr' | insertToken hr' | submit hr'
  | cancel hr' | notified hr' | notifyEscapes hr' | exited hr' | exitThrows _ hr' | unmatched hr'
  | matched hr' | stop hr' => exact absurd (hr'.symm.trans hr) (by simp)

/-- The read thread can go on unless it waits for the workers of a pool. -/
lemma Server.Closing.reader_enabled (h : s.Closing r)
    (hjoined : ∀ e, s.reader = .joining e → (s.pool e).Joined) :
    Enabled (Threads cfg) Thread.reader.Own s := by
  have hpossible : ∃ l s', l.promised = true ∧ ReaderStep cfg s l s' := by
    have hlast := h.last
    cases hr : s.reader with
    | exiting => exact ReaderStep.possible cfg (by rw [hr]; rfl)
    | loop => exact ⟨_, _, rfl, .leave hr (h.exited (Or.inr hr))⟩
    | stopping e => exact ⟨_, _, rfl, .stop hr⟩
    | joining e =>
      cases e with
      | sync => exact ⟨_, _, rfl, .joinSync hr (hjoined _ hr)⟩
      | worker => exact ⟨_, _, rfl, .joinWorkers hr (hjoined _ hr)⟩
    | _ =>
      rw [hr] at hlast
      exact absurd hlast (Nat.lt_irrefl 0)
  rcases hpossible with ⟨l, s', hl, hstep⟩
  exact ⟨(.reader, l), s', ⟨rfl, rfl, hl⟩, .reader h.live h.unthrown hstep⟩

/-- Some thread of the server can go on. -/
lemma Server.Closing.enabled (h : s.Closing r) : ∃ t : Thread, Enabled (Threads cfg) t.Own s := by
  -- who waits for a pool waits for one of its workers
  by_cases hjoined : ∀ e, s.reader = .joining e → (s.pool e).Joined
  · exact ⟨.reader, h.reader_enabled hjoined⟩
  · push Not at hjoined
    rcases hjoined with ⟨e, hr, hpool⟩
    rcases exists_up hpool with ⟨w, hup⟩
    exact ⟨.worker e w, hup.enabled h.live (Or.inr (h.stopped e hr))⟩

/-- A step of the user's threads keeps what the threads of the server can do. -/
lemma Server.Closing.sender (h : s.Closing r) (hstep : SenderStep cfg s l s')
    (ht : t.serves = false) :
    Nearer cfg id Server.Closing s r (t, l) s' := by
  have hpool := hstep.pool
  rcases hstep.frame with ⟨next, pending, senders, rfl⟩
  set s' : Server :=
    { s with nextOutgoingId_ := next, pendingRequests_ := pending, senders := senders }
  have hclosing : s'.Closing r := by
    refine ⟨h.live, h.unthrown, h.phased.congr rfl hpool, h.last, h.exited, ?_, ?_⟩
    · intro e hr
      rw [hpool e]
      exact h.stopped e hr
    · exact h.rank
  refine Or.inr ⟨hclosing, fun t' henabled => ⟨?_, ?_⟩⟩
  · rintro ⟨rfl, hserves, -⟩
    simp [ht] at hserves
  · cases t' with
    | reader =>
      refine hclosing.reader_enabled fun e hr => ?_
      rw [hpool e]
      rcases henabled with ⟨⟨_, l'⟩, _, ⟨rfl, -, hl'⟩, henabled⟩
      have hr' : s.reader = .joining e := hr
      cases henabled with
      | reader _ _ henabled => exact henabled.joined_of_joining hr'
    | worker e w =>
      have hgoes := enabled_iff.mp henabled
      rw [← hpool e] at hgoes
      exact enabled_iff.mpr hgoes
    | sender | notifier =>
      rcases henabled with ⟨_, _, ⟨-, hserves, -⟩, -⟩
      exact absurd hserves (by simp [Thread.serves])

/-- A step of the read thread that leaves the tasks alone brings it nearer to its end. -/
lemma Server.Closing.advance (h : s.Closing r) (hlive : s'.terminated = false)
    (hthrew : s'.threw = false) (hphased : s'.Phased) (hlast : 0 < s'.reader.closing)
    (hlt : s'.reader.closing < s.reader.closing) (hexited : s'.reader ≠ .exiting)
    (hloop : s'.reader = .loop → s'.state_ = .Exited)
    (hstopped : ∀ e, s'.reader = .joining e → (s'.pool e).stopping_ = true)
    (hload : ∀ e, s'.load e = s.load e) :
    Nearer cfg id Server.Closing s r (t, l) s' := by
  refine Or.inl ⟨_, ?_, hlive, hthrew, hphased, hlast, ?_, hstopped, rfl⟩
  · rw [h.rank, hload, hload]
    omega
  · rintro (hr | hr)
    · exact absurd hr hexited
    · exact hloop hr

/-- The read thread goes on to `return`, or `onExit` throws. -/
lemma Server.Closing.reader (h : s.Closing r) (hstep : ReaderStep cfg s l s') :
    Nearer cfg id Server.Closing s r (.reader, l) s' ∨
      (∃ e, l = .exitEnded (some e)) ∨ ∃ code, l = .returned code := by
  have hlast := h.last
  have hphased := hstep.phased h.phased
  have hlive := hstep.terminated.trans h.live
  cases hstep with
  | exited hr =>
    refine Or.inl (h.advance hlive h.unthrown hphased (Nat.succ_pos _) ?_ (by simp) ?_ nofun ?_)
    · rw [hr]
      exact Nat.lt_succ_self 5
    · exact fun _ => h.exited (Or.inl hr)
    · intro e
      cases e <;> rfl
  | exitThrows e _ => exact Or.inr (Or.inl ⟨e, rfl⟩)
  | leave hr =>
    refine Or.inl (h.advance hlive h.unthrown hphased (Nat.succ_pos _) ?_ (by simp) nofun nofun ?_)
    · rw [hr]
      exact Nat.lt_succ_self 4
    · intro e
      cases e <;> rfl
  | @stop e hr =>
    refine Or.inl (h.advance hlive (by simpa using h.unthrown) hphased ?_ ?_ (by simp) nofun ?_ ?_)
    · cases e <;> exact Nat.succ_pos _
    · rw [hr]
      cases e
      · exact Nat.lt_succ_self 1
      · exact Nat.lt_succ_self 3
    · intro e' hr'
      obtain rfl := ReaderPc.joining.inj hr'
      cases e <;> rfl
    · intro e'
      cases e <;> cases e' <;> rfl
  | joinSync hr =>
    refine Or.inl (h.advance hlive h.unthrown hphased (Nat.succ_pos _) ?_ (by simp) nofun nofun ?_)
    · rw [hr]
      exact Nat.lt_succ_self 2
    · intro e
      cases e <;> rfl
  | joinWorkers => exact Or.inr (Or.inr ⟨_, rfl⟩)
  | read _ hr hstate | parseThrows _ hr hstate | endOfInput hr hstate =>
    exact absurd (h.exited (Or.inr hr)) hstate
  | send hr | sendThrows hr | handler _ hr | handlerFinishes hr | handlerEscapes hr
  | insertToken hr | submit hr | cancel hr | notified hr | notifyEscapes hr | unmatched hr
  | matched hr =>
    rw [hr] at hlast
    exact absurd hlast (Nat.lt_irrefl 0)

lemma Server.Closing.worker (h : s.Closing r) (hlive : s.terminated = false)
    (hlive' : s'.terminated = false) (hstep : WorkerStep cfg e w s l s') :
    Nearer cfg id Server.Closing s r (.worker e w, l) s' := by
  cases hl : l.promised with
  | false =>
    obtain rfl := hstep.eq_of_polls hl
    exact Or.inr ⟨h, fun _ henabled => ⟨fun hown => by simp [hown.2.2] at hl, henabled⟩⟩
  | true =>
    have hload := hstep.load hlive'
    rw [hl, Bool.toNat_true] at hload
    have hreader := hstep.control.1
    have hphased := (Step.worker e w hlive hstep).phased h.phased
    refine Or.inl ⟨_, ?_, hlive', hstep.control.2.1.trans h.unthrown, hphased, ?_, ?_, ?_, rfl⟩
    · rw [h.rank, hreader]
      omega
    · rw [hreader]
      exact h.last
    · rw [hreader, hstep.control.2.2.2.1]
      exact h.exited
    · intro e' hr
      rw [hreader] at hr
      rw [hstep.stopping_ e']
      exact h.stopped e' hr

lemma Server.Closing.step (h : s.Closing r) (hstep : ThreadStep cfg s l s' t) :
    Nearer cfg id Server.Closing s r (t, l) s' ∨
      s'.terminated = true ∨
      t = .reader ∧ ((∃ e, l = .exitEnded (some e)) ∨ ∃ code, l = .returned code) := by
  rcases Bool.eq_false_or_eq_true s'.terminated with hdead | hlive
  · exact Or.inr (Or.inl hdead)
  cases hstep with
  | reader _ _ hstep =>
    rcases h.reader hstep with hdescends | hends
    · exact Or.inl hdescends
    · exact Or.inr (Or.inr ⟨rfl, hends⟩)
  | worker _ _ hlive' hstep => exact Or.inl (h.worker hlive' hlive hstep)
  | sender _ _ hstep | notifier _ hstep => exact Or.inl (h.sender hstep rfl)

end Steps

end CLSP
