import CLSP.Pool.Runs
import Mathlib.Data.Finset.Basic

/-!
# The condition variable of a pool

`PoolState` with `cv_`: an idle worker that finds nothing to do is blocked in `cv_.wait` until a
notification, or nothing at all, wakes it. `submit` and `shutdown` notify after they have released
the lock, so between the two other threads run. `wait` releases the lock and blocks at once, and a
worker that has been woken is one that is about to lock the mutex and test its condition.
-/

namespace CLSP

open Transition

structure CvState extends PoolState where
  /-- The workers blocked in `wait`. -/
  waiting : Finset ℕ
  /-- The calls of `submit` that have still to call `notify_one`. -/
  notifyOnes : ℕ
  /-- `shutdown` has still to call `notify_all`. -/
  notifyAll : Bool
  waiting_idle : ∀ w ∈ waiting, pool.workers_[w]? = some .idle

namespace CvState

/-- Another state of the pool with the same workers. -/
def withPool (s : CvState) (state : PoolState) (h : state.pool.workers_ = s.pool.workers_) :
    CvState where
  toPoolState := state
  waiting := s.waiting
  notifyOnes := s.notifyOnes
  notifyAll := s.notifyAll
  waiting_idle w hw := by
    rw [h]
    exact s.waiting_idle w hw

/-- Worker `w`, which is not blocked, has done something in the pool. -/
def move (s : CvState) (w : ℕ) (hw : w ∉ s.waiting) (pool : ThreadPool PoolTask TaskPc)
    (worker : Worker TaskPc) (h : pool.workers_ = s.pool.workers_.set w worker) : CvState where
  pool := pool
  submissions := s.submissions
  shutdown := s.shutdown
  waiting := s.waiting
  notifyOnes := s.notifyOnes
  notifyAll := s.notifyAll
  waiting_idle w' hw' := by
    have hne : w ≠ w' := by
      rintro rfl
      exact hw hw'
    rw [h, List.getElem?_set_ne hne]
    exact s.waiting_idle w' hw'

/-- Worker `w` blocks in `wait`. -/
def block (s : CvState) (w : ℕ) (h : s.pool.workers_[w]? = some .idle) : CvState where
  toPoolState := s.toPoolState
  waiting := insert w s.waiting
  notifyOnes := s.notifyOnes
  notifyAll := s.notifyAll
  waiting_idle w' hw' := by
    rcases Finset.mem_insert.mp hw' with rfl | hw'
    · exact h
    · exact s.waiting_idle w' hw'

/-- Some workers are woken. -/
def wake (s : CvState) (workers : Finset ℕ) : CvState where
  toPoolState := s.toPoolState
  waiting := s.waiting \ workers
  notifyOnes := s.notifyOnes
  notifyAll := s.notifyAll
  waiting_idle w hw := s.waiting_idle w (Finset.mem_sdiff.mp hw).1

/-- A pool that has just been constructed. -/
def start (numWorkers : ℕ) : CvState where
  toPoolState := .start numWorkers
  waiting := ∅
  notifyOnes := 0
  notifyAll := false
  waiting_idle w hw := absurd hw (Finset.notMem_empty w)

end CvState

/-- A step of one of the threads. -/
inductive CvStep (s : CvState) : PoolLabel → CvState → Prop
  | submit (callable : Bool) : s.pool.stopping_ = false →
      CvStep s (.submitted ⟨s.submissions, callable⟩)
        { s.withPool { s.toPoolState with
            pool := s.pool.submit ⟨s.submissions, callable⟩,
            submissions := s.submissions + 1 } rfl with
          notifyOnes := s.notifyOnes + 1 }
  /-- A task that is dropped is not notified of. -/
  | drop (callable : Bool) : s.pool.stopping_ = true →
      CvStep s (.submitted ⟨s.submissions, callable⟩)
        (s.withPool { s.toPoolState with
            pool := s.pool.submit ⟨s.submissions, callable⟩,
            submissions := s.submissions + 1 } rfl)
  /-- `notify_one` wakes one of the blocked workers. -/
  | notifyOne {w : ℕ} : w ∈ s.waiting → 0 < s.notifyOnes →
      CvStep s .tau { s.wake {w} with notifyOnes := s.notifyOnes - 1 }
  | notifyNone : s.waiting = ∅ → 0 < s.notifyOnes →
      CvStep s .tau { s with notifyOnes := s.notifyOnes - 1 }
  | stop : s.pool.stopping_ = false →
      CvStep s .stopped
        { s.withPool { s.toPoolState with pool := s.pool.stop, shutdown := .joining } rfl with
          notifyAll := true }
  | stopAgain : s.pool.stopping_ = true → CvStep s .tau s
  /-- `notify_all` wakes all of them. -/
  | notifyAll : s.notifyAll = true →
      CvStep s .tau { s.wake s.waiting with notifyAll := false }
  | join : s.shutdown = .joining → s.notifyAll = false → s.pool.Joined →
      CvStep s .joined (s.withPool { s.toPoolState with shutdown := .returned } rfl)
  /-- A spurious wakeup. -/
  | spurious {w : ℕ} : w ∈ s.waiting → CvStep s .tau (s.wake {w})
  /-- The condition does not hold. -/
  | wait {w : ℕ} (hidle : s.pool.workers_[w]? = some .idle) : w ∉ s.waiting →
      s.pool.stopping_ = false → s.pool.tasks_ = [] → CvStep s .tau (s.block w hidle)
  | take {w : ℕ} {task : PoolTask} {rest : List PoolTask}
      (htasks : s.pool.tasks_ = task :: rest) (hw : w ∉ s.waiting) :
      s.pool.workers_[w]? = some .idle →
      CvStep s (.taken task) (s.move w hw (s.pool.take w htasks (.holding task)) _ rfl)
  | start {w : ℕ} {task : PoolTask} (hw : w ∉ s.waiting) :
      s.pool.workers_[w]? = some (.busy (.holding task)) → task.callable = true →
      CvStep s (.started task) (s.move w hw (s.pool.progress w (.running task)) _ rfl)
  | skip {w : ℕ} {task : PoolTask} (hw : w ∉ s.waiting) :
      s.pool.workers_[w]? = some (.busy (.holding task)) → task.callable = false →
      CvStep s .tau (s.move w hw (s.pool.finish w) _ rfl)
  | finish {w : ℕ} {task : PoolTask} (hw : w ∉ s.waiting) :
      s.pool.workers_[w]? = some (.busy (.running task)) →
      CvStep s (.finished task) (s.move w hw (s.pool.finish w) _ rfl)
  | exit {w : ℕ} (hdrained : s.pool.stopping_ = true ∧ s.pool.tasks_ = []) (hw : w ∉ s.waiting) :
      s.pool.workers_[w]? = some .idle →
      CvStep s .tau (s.move w hw (s.pool.exit w hdrained) _ rfl)

/-- The runs of a pool with its condition variable. -/
abbrev CvRuns (numWorkers : ℕ) (ls : List PoolLabel) (s : CvState) : Prop :=
  Run CvStep (.start numWorkers) ls s

section Steps

variable {numWorkers : ℕ} {ls : List PoolLabel} {l : PoolLabel} {s s' : CvState}

/-! ## The pool below -/

/-- A step is one of the pool, or of the condition variable alone. -/
lemma CvStep.poolStep (h : CvStep s l s') :
    PoolStep s.toPoolState l s'.toPoolState ∨
      (decide (l = .tau) = true ∧ s'.toPoolState = s.toPoolState) := by
  cases h with
  | submit callable => exact Or.inl (.submit callable)
  | drop callable => exact Or.inl (.submit callable)
  | stop hstopping => exact Or.inl (.stop hstopping)
  | stopAgain hstopping => exact Or.inl (.stopAgain hstopping)
  | join hjoining _ hjoined => exact Or.inl (.join hjoining hjoined)
  | take htasks _ hidle => exact Or.inl (.take _ htasks hidle)
  | start _ hbusy hcallable => exact Or.inl (.start _ hbusy hcallable)
  | skip _ hbusy hcallable => exact Or.inl (.skip _ hbusy hcallable)
  | finish _ hbusy => exact Or.inl (.finish _ hbusy)
  | exit hdrained _ hidle => exact Or.inl (.exit _ hdrained hidle)
  | notifyOne => exact Or.inr ⟨rfl, rfl⟩
  | notifyNone => exact Or.inr ⟨rfl, rfl⟩
  | notifyAll => exact Or.inr ⟨rfl, rfl⟩
  | spurious => exact Or.inr ⟨rfl, rfl⟩
  | wait => exact Or.inr ⟨rfl, rfl⟩

/-- What is shown of the pool is what the pool shows without its condition variable. -/
theorem CvRuns.poolRuns (h : CvRuns numWorkers ls s) :
    ∃ ms, PoolRuns numWorkers ms s.toPoolState ∧
      ms.filter (fun l => !decide (l = .tau)) = ls.filter (fun l => !decide (l = .tau)) :=
  Run.simulates CvState.toPoolState (fun l => decide (l = .tau)) h
    fun _ _ _ hstep => hstep.poolStep

/-! ## Wakeups -/

/-- Some worker is not blocked. -/
def CvState.Awake (s : CvState) : Prop :=
  ∃ w < s.pool.workers_.length, w ∉ s.waiting

/-- A notification is still to be delivered. -/
def CvState.Notifying (s : CvState) : Prop :=
  0 < s.notifyOnes ∨ s.notifyAll = true

/-- What the steps keep. -/
structure CvState.Attended (s : CvState) : Prop where
  /-- Whoever comes to a task in the queue. -/
  queued : s.pool.tasks_ ≠ [] → s.Awake ∨ s.Notifying
  stopped : s.pool.stopping_ = true → s.waiting.Nonempty → s.notifyAll = true

/-- Without blocked workers the first worker is awake. -/
lemma CvState.awake_of_waiting_eq (h : s.waiting = ∅) : s.Awake :=
  ⟨0, List.length_pos_of_ne_nil s.pool.workers_ne_nil, by simp [h]⟩

lemma CvState.awake_wake {w : ℕ} (h : w ∈ s.waiting) : (s.wake {w}).Awake := by
  have hlt : w < s.pool.workers_.length := (List.getElem?_eq_some_iff.mp (s.waiting_idle w h)).1
  exact ⟨w, hlt, by simp [wake]⟩

/-- The worker that does something in the pool is awake before and after. -/
lemma CvState.attended_move (h : s.Attended) {w : ℕ} (hw : w ∉ s.waiting)
    {pool : ThreadPool PoolTask TaskPc} {worker old : Worker TaskPc}
    (heq : pool.workers_ = s.pool.workers_.set w worker)
    (hstopping : pool.stopping_ = s.pool.stopping_) (hold : s.pool.workers_[w]? = some old) :
    (s.move w hw pool worker heq).Attended where
  queued _ := by
    have hlt : w < s.pool.workers_.length := (List.getElem?_eq_some_iff.mp hold).1
    refine Or.inl ⟨w, ?_, hw⟩
    show w < pool.workers_.length
    rwa [heq, List.length_set]
  stopped hstop hwaiting := h.stopped (hstopping.symm.trans hstop) hwaiting

lemma CvStep.attended (h : CvStep s l s') (hs : s.Attended) : s'.Attended := by
  cases h with
  | submit _ hstopping =>
    exact ⟨fun _ => Or.inr (Or.inl (Nat.succ_pos _)), hs.stopped⟩
  | drop callable hstopping =>
    -- the queue is as it was
    have hpool := ThreadPool.submit_of_stopping hstopping ⟨s.submissions, callable⟩
    refine ⟨fun htasks => hs.queued ?_, hs.stopped⟩
    rw [← hpool]
    exact htasks
  | notifyOne hw =>
    refine ⟨fun _ => Or.inl (CvState.awake_wake hw), ?_⟩
    intro hstop hwaiting
    exact hs.stopped hstop (hwaiting.mono Finset.sdiff_subset)
  | notifyNone hnone => exact ⟨fun _ => Or.inl (CvState.awake_of_waiting_eq hnone), hs.stopped⟩
  | stop => exact ⟨fun _ => Or.inr (Or.inr rfl), fun _ _ => rfl⟩
  | stopAgain => exact hs
  | notifyAll =>
    have hnone : s.waiting \ s.waiting = ∅ := Finset.sdiff_self _
    refine ⟨fun _ => Or.inl (CvState.awake_of_waiting_eq hnone), ?_⟩
    intro _ hwaiting
    exact absurd hnone hwaiting.ne_empty
  | join => exact ⟨hs.queued, hs.stopped⟩
  | spurious hw =>
    refine ⟨fun _ => Or.inl (CvState.awake_wake hw), ?_⟩
    intro hstop hwaiting
    exact hs.stopped hstop (hwaiting.mono Finset.sdiff_subset)
  | wait _ _ hstopping htasks =>
    -- the condition was tested under the lock that `wait` releases
    refine ⟨fun hne => absurd htasks hne, fun hstop => ?_⟩
    exact absurd hstop (by simp [CvState.block, hstopping])
  | take _ hw hidle => exact CvState.attended_move hs hw rfl rfl hidle
  | start hw hbusy => exact CvState.attended_move hs hw rfl rfl hbusy
  | skip hw hbusy => exact CvState.attended_move hs hw rfl rfl hbusy
  | finish hw hbusy => exact CvState.attended_move hs hw rfl rfl hbusy
  | exit _ hw hidle => exact CvState.attended_move hs hw rfl rfl hidle

lemma CvRuns.attended (h : CvRuns numWorkers ls s) : s.Attended := by
  refine h.invariant ⟨fun htasks => absurd rfl htasks, nofun⟩ ?_
  intro t l u ht hstep
  exact hstep.attended ht

/-! ## A task in the queue can be taken -/

/-- The workers and the notifications alone get `task` out of the queue. -/
def CvState.Takes (task : PoolTask) (s : CvState) : Prop :=
  Reaches CvStep s fun ls _ => .taken task ∈ ls ∧ ∀ l ∈ ls, l.submission? = none ∧ l ≠ .stopped

section Takes

variable {w : ℕ} {task : PoolTask} {rest : List PoolTask}

lemma CvState.Takes.step (hstep : CvStep s l s') (hl : l.submission? = none ∧ l ≠ .stopped)
    (h : s'.Takes task) : s.Takes task := by
  rcases h with ⟨ls, t, hrun, hmem, hls⟩
  refine ⟨l :: ls, t, hrun.cons hstep, List.mem_cons_of_mem _ hmem, ?_⟩
  intro l' hl'
  rcases List.mem_cons.mp hl' with rfl | hl'
  · exact hl
  · exact hls l' hl'

lemma CvState.takes_of_idle (htasks : s.pool.tasks_ = task :: rest) (hw : w ∉ s.waiting)
    (hidle : s.pool.workers_[w]? = some .idle) : s.Takes task := by
  refine Reaches.step (.take htasks hw hidle) (Reaches.here ⟨by simp, ?_⟩)
  intro l hl
  rw [List.mem_singleton.mp hl]
  exact ⟨rfl, nofun⟩

lemma CvState.takes_of_running {running : PoolTask} (htasks : s.pool.tasks_ = task :: rest)
    (hw : w ∉ s.waiting) (hbusy : s.pool.workers_[w]? = some (.busy (.running running))) :
    s.Takes task := by
  have hlt : w < s.pool.workers_.length := (List.getElem?_eq_some_iff.mp hbusy).1
  refine CvState.Takes.step (.finish hw hbusy) ⟨rfl, nofun⟩ ?_
  exact CvState.takes_of_idle htasks hw (List.getElem?_set_self hlt)

/-- A worker that is awake finishes what it does and comes to the queue. -/
lemma CvState.takes_of_awake (htasks : s.pool.tasks_ = task :: rest) (h : s.Awake) :
    s.Takes task := by
  rcases h with ⟨w, hlt, hw⟩
  cases hworker : s.pool.workers_[w] with
  | idle => exact CvState.takes_of_idle htasks hw (List.getElem?_eq_some_iff.mpr ⟨hlt, hworker⟩)
  | exited =>
    have hdrained := s.pool.exited_drained (hworker ▸ List.getElem_mem hlt)
    simp [htasks] at hdrained
  | busy running =>
    have hbusy : s.pool.workers_[w]? = some (.busy running) :=
      List.getElem?_eq_some_iff.mpr ⟨hlt, hworker⟩
    cases running with
    | running running => exact CvState.takes_of_running htasks hw hbusy
    | holding held =>
      cases hcallable : held.callable with
      | true =>
        refine CvState.Takes.step (.start hw hbusy hcallable) ⟨rfl, nofun⟩ ?_
        exact CvState.takes_of_running htasks hw (List.getElem?_set_self hlt)
      | false =>
        refine CvState.Takes.step (.skip hw hbusy hcallable) ⟨rfl, nofun⟩ ?_
        exact CvState.takes_of_idle htasks hw (List.getElem?_set_self hlt)

lemma CvState.takes_of_notifying (htasks : s.pool.tasks_ = task :: rest) (h : s.Notifying) :
    s.Takes task := by
  rcases h with hone | hall
  · rcases s.waiting.eq_empty_or_nonempty with hnone | ⟨w, hw⟩
    · exact CvState.takes_of_awake htasks (CvState.awake_of_waiting_eq hnone)
    · refine CvState.Takes.step (.notifyOne hw hone) ⟨rfl, nofun⟩ ?_
      exact CvState.takes_of_awake htasks (CvState.awake_wake hw)
  · refine CvState.Takes.step (.notifyAll hall) ⟨rfl, nofun⟩ ?_
    exact CvState.takes_of_awake htasks (CvState.awake_of_waiting_eq (Finset.sdiff_self _))

/-- In every reachable state the task at the front of the queue can be taken without another
`submit` and without `shutdown`. -/
theorem CvRuns.takes (h : CvRuns numWorkers ls s) (htasks : s.pool.tasks_ = task :: rest) :
    s.Takes task := by
  rcases h.attended.queued (by simp [htasks]) with hawake | hnotifying
  · exact CvState.takes_of_awake htasks hawake
  · exact CvState.takes_of_notifying htasks hnotifying

end Takes

/-! ## No lost wakeup -/

/-- The queue has a task, and nobody will see it: every worker is blocked, and no notification is
still to be delivered. -/
def CvState.Stuck (s : CvState) : Prop :=
  s.pool.tasks_ ≠ [] ∧ (∀ w < s.pool.workers_.length, w ∈ s.waiting) ∧ s.notifyOnes = 0 ∧
    s.notifyAll = false

/-- `stopping_` is set, `notify_all` has been delivered, and a worker is blocked. -/
def CvState.Missed (s : CvState) : Prop :=
  s.pool.stopping_ = true ∧ s.notifyAll = false ∧ s.waiting.Nonempty

/-- No wakeup is lost. -/
theorem no_lost_wakeup (numWorkers : ℕ) (ls : List PoolLabel) (s : CvState)
    (h : CvRuns numWorkers ls s) : ¬ s.Stuck ∧ ¬ s.Missed := by
  have hs := h.attended
  constructor
  · rintro ⟨htasks, hblocked, hones, hall⟩
    rcases hs.queued htasks with ⟨w, hlt, hw⟩ | hone | hnotify
    · exact hw (hblocked w hlt)
    · omega
    · simp [hall] at hnotify
  · rintro ⟨hstop, hall, hwaiting⟩
    simp [hs.stopped hstop hwaiting] at hall

end Steps

/-- The only worker has blocked, a task is submitted, and `notify_one` is still to come. -/
theorem no_lost_wakeup_sample :
    Reaches CvStep (.start 1) fun _ s =>
      s.pool.tasks_ ≠ [] ∧ s.waiting = {0} ∧ s.notifyOnes = 1 ∧ ¬ s.Stuck ∧ ¬ s.Missed := by
  have hrun : Reaches CvStep (.start 1) fun _ s =>
      s.pool.tasks_ ≠ [] ∧ s.waiting = {0} ∧ s.notifyOnes = 1 := by
    apply Reaches.step (.wait (w := 0) rfl (Finset.notMem_empty 0) rfl rfl)
    apply Reaches.step (.submit true rfl)
    exact Reaches.here ⟨by decide, rfl, rfl⟩
  rcases hrun with ⟨ls, s, hrun, htasks, hwaiting, hones⟩
  exact ⟨ls, s, hrun, htasks, hwaiting, hones, no_lost_wakeup 1 ls s hrun⟩

end CLSP
