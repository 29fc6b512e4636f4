import CLSP.Lib.Transition
import CLSP.Pool.ThreadPool
import Mathlib.Data.List.TakeWhile

/-!
# Runs of a pool

`ThreadPool` with the threads around it: any thread calls `submit` and `shutdown`, and the workers
run `workerLoop`. A worker calls its task after it has released the lock, so taking a task and
starting it are two steps.

* `queue_order`: tasks are taken in the order in which they were queued;
* `executed_of_joined`: when `shutdown` returns, every task queued before it has run, once;
* `execution_prefix`: one worker runs the tasks one after the other, in that order.
-/

namespace CLSP

open Transition

/-! ## The threads around a pool -/

/-- A task: the `submit` call it came with, and whether its `std::function` can be called. -/
structure PoolTask where
  number : ℕ
  callable : Bool
deriving DecidableEq, Repr

/-- Where a worker is with its task. -/
inductive TaskPc
  | holding (task : PoolTask)
  | running (task : PoolTask)

/-- Where the `shutdown` call that sets `stopping_` is. -/
inductive ShutdownPc
  | notCalled
  | joining
  | returned

inductive PoolLabel
  | tau
  | submitted (task : PoolTask)
  | stopped
  | taken (task : PoolTask)
  | started (task : PoolTask)
  | finished (task : PoolTask)
  /-- The `shutdown` call that set `stopping_` has returned. -/
  | joined
deriving DecidableEq, Repr

structure PoolState where
  pool : ThreadPool PoolTask TaskPc
  submissions : ℕ
  shutdown : ShutdownPc

/-- A step of one of the threads. -/
inductive PoolStep (s : PoolState) : PoolLabel → PoolState → Prop
  | submit (callable : Bool) :
      PoolStep s (.submitted ⟨s.submissions, callable⟩)
        { s with
          pool := s.pool.submit ⟨s.submissions, callable⟩,
          submissions := s.submissions + 1 }
  | stop : s.pool.stopping_ = false →
      PoolStep s .stopped { s with pool := s.pool.stop, shutdown := .joining }
  /-- A later call of `shutdown` returns at once. -/
  | stopAgain : s.pool.stopping_ = true → PoolStep s .tau s
  | join : s.shutdown = .joining → s.pool.Joined →
      PoolStep s .joined { s with shutdown := .returned }
  | take (w : ℕ) {task : PoolTask} {rest : List PoolTask} (htasks : s.pool.tasks_ = task :: rest) :
      s.pool.workers_[w]? = some .idle →
      PoolStep s (.taken task) { s with pool := s.pool.take w htasks (.holding task) }
  | start (w : ℕ) {task : PoolTask} : s.pool.workers_[w]? = some (.busy (.holding task)) →
      task.callable = true →
      PoolStep s (.started task) { s with pool := s.pool.progress w (.running task) }
  /-- An empty function is not called. -/
  | skip (w : ℕ) {task : PoolTask} : s.pool.workers_[w]? = some (.busy (.holding task)) →
      task.callable = false → PoolStep s .tau { s with pool := s.pool.finish w }
  | finish (w : ℕ) {task : PoolTask} : s.pool.workers_[w]? = some (.busy (.running task)) →
      PoolStep s (.finished task) { s with pool := s.pool.finish w }
  | exit (w : ℕ) (hdrained : s.pool.stopping_ = true ∧ s.pool.tasks_ = []) :
      s.pool.workers_[w]? = some .idle →
      PoolStep s .tau { s with pool := s.pool.exit w hdrained }

/-- A pool that has just been constructed. -/
def PoolState.start (numWorkers : ℕ) : PoolState where
  pool := .create numWorkers
  submissions := 0
  shutdown := .notCalled

/-- The runs of a pool. -/
abbrev PoolRuns (numWorkers : ℕ) (ls : List PoolLabel) (s : PoolState) : Prop :=
  Run PoolStep (.start numWorkers) ls s

/-! ## What a run shows -/

def PoolLabel.submission? : PoolLabel → Option PoolTask
  | submitted task => some task
  | _ => none

def PoolLabel.taken? : PoolLabel → Option PoolTask
  | taken task => some task
  | _ => none

def PoolLabel.started? : PoolLabel → Option PoolTask
  | started task => some task
  | _ => none

def PoolLabel.finished? : PoolLabel → Option PoolTask
  | finished task => some task
  | _ => none

/-- The tasks of the `submit` calls, in order. -/
def submissionsOf (ls : List PoolLabel) : List PoolTask :=
  ls.filterMap PoolLabel.submission?

/-- The tasks that were submitted before `stopping_` was set. -/
def acceptedOf (ls : List PoolLabel) : List PoolTask :=
  submissionsOf (ls.takeWhile (· ≠ .stopped))

/-- The tasks the workers took, in order. -/
def takenOf (ls : List PoolLabel) : List PoolTask :=
  ls.filterMap PoolLabel.taken?

/-- The tasks that were started, in order. -/
def startedOf (ls : List PoolLabel) : List PoolTask :=
  ls.filterMap PoolLabel.started?

/-- The tasks that have finished, in order. -/
def finishedOf (ls : List PoolLabel) : List PoolTask :=
  ls.filterMap PoolLabel.finished?

/-- The starts and ends of tasks, in order. -/
def executionOf (ls : List PoolLabel) : List PoolLabel :=
  ls.filter fun l => l.started?.isSome || l.finished?.isSome

section Steps

variable {numWorkers : ℕ} {ls : List PoolLabel} {l : PoolLabel} {s s' : PoolState}

/-! ## The queue -/

lemma PoolStep.stopping_eq (h : PoolStep s l s') :
    s'.pool.stopping_ = true ↔ s.pool.stopping_ = true ∨ l = .stopped := by
  cases h with
  | stop => simp [ThreadPool.stop]
  | _ => simp [ThreadPool.submit, ThreadPool.take, ThreadPool.progress, ThreadPool.finish,
      ThreadPool.exit]

/-- The flag tells whether the run has passed the critical section of `shutdown`. -/
lemma PoolRuns.stopping_iff (h : PoolRuns numWorkers ls s) :
    s.pool.stopping_ = true ↔ .stopped ∈ ls := by
  apply h.history (I := fun ls s => s.pool.stopping_ = true ↔ .stopped ∈ ls)
  · simp [PoolState.start, ThreadPool.create]
  · intro ks t l u ih hstep
    rw [hstep.stopping_eq, ih, List.mem_append, List.mem_singleton, eq_comm (a := l)]

/-- What comes after `stopping_` has been set is not accepted. -/
lemma acceptedOf_append_stopped (h : .stopped ∉ ls) (ms : List PoolLabel) :
    acceptedOf (ls ++ .stopped :: ms) = submissionsOf ls := by
  have hall : ∀ l ∈ ls, decide (l ≠ .stopped) = true := by
    intro l hl
    rw [decide_eq_true_eq]
    exact ne_of_mem_of_not_mem hl h
  unfold acceptedOf
  rw [List.takeWhile_append_of_pos hall, List.takeWhile_cons_of_neg (by simp), List.append_nil]

lemma acceptedOf_of_not_mem (h : .stopped ∉ ls) : acceptedOf ls = submissionsOf ls := by
  have hall : ∀ l ∈ ls, decide (l ≠ .stopped) = true := by
    intro l hl
    rw [decide_eq_true_eq]
    exact ne_of_mem_of_not_mem hl h
  unfold acceptedOf
  rw [List.takeWhile_eq_self_iff.mpr hall]

lemma acceptedOf_snoc_of_mem (h : .stopped ∈ ls) (l : PoolLabel) :
    acceptedOf (ls ++ [l]) = acceptedOf ls := by
  rcases List.eq_append_cons_of_mem h with ⟨ls₁, ls₂, rfl, hfirst⟩
  rw [acceptedOf_append_stopped hfirst, List.append_assoc, List.cons_append,
    acceptedOf_append_stopped hfirst]

lemma acceptedOf_snoc_of_not_mem (h : .stopped ∉ ls) (l : PoolLabel) :
    acceptedOf (ls ++ [l]) = acceptedOf ls ++ l.submission?.toList := by
  rw [acceptedOf_of_not_mem h]
  by_cases hl : l = .stopped
  · subst hl
    rw [acceptedOf_append_stopped h]
    simp [PoolLabel.submission?]
  · rw [acceptedOf_of_not_mem (by simp [h, Ne.symm hl])]
    unfold submissionsOf
    rw [List.filterMap_append]
    cases hsub : l.submission? <;> simp [hsub]

lemma accepted_submissions (ls : List PoolLabel) : acceptedOf ls <+: submissionsOf ls :=
  (List.takeWhile_prefix _).filterMap _

/-- What a step puts on the queue. -/
def PoolState.accepts (s : PoolState) (l : PoolLabel) : List PoolTask :=
  if s.pool.stopping_ then [] else l.submission?.toList

lemma acceptedOf_snoc (h : PoolRuns numWorkers ls s) (l : PoolLabel) :
    acceptedOf (ls ++ [l]) = acceptedOf ls ++ s.accepts l := by
  unfold PoolState.accepts
  by_cases hstop : s.pool.stopping_ = true
  · rw [if_pos hstop, List.append_nil, acceptedOf_snoc_of_mem ((PoolRuns.stopping_iff h).mp hstop)]
  · have hmem : .stopped ∉ ls := fun hmem => hstop ((PoolRuns.stopping_iff h).mpr hmem)
    rw [if_neg hstop, acceptedOf_snoc_of_not_mem hmem]

/-- A step takes tasks off the front of the queue and puts them on its end. -/
lemma PoolStep.queue (h : PoolStep s l s') :
    l.taken?.toList ++ s'.pool.tasks_ = s.pool.tasks_ ++ s.accepts l := by
  unfold PoolState.accepts
  cases h with
  | submit callable =>
    simp only [PoolLabel.taken?, PoolLabel.submission?, ThreadPool.submit, Option.toList_none,
      Option.toList_some, List.nil_append]
    split <;> simp
  | take w htasks => simp [PoolLabel.taken?, PoolLabel.submission?, ThreadPool.take, htasks]
  | _ => simp [PoolLabel.taken?, PoolLabel.submission?, ThreadPool.stop, ThreadPool.progress,
      ThreadPool.finish, ThreadPool.exit]

/-- **Queue order.** What the workers have taken, and then what is queued, is what was accepted. -/
theorem queue_order (h : PoolRuns numWorkers ls s) :
    takenOf ls ++ s.pool.tasks_ = acceptedOf ls := by
  induction h with
  | nil => rfl
  | @snoc ls t u l hrun hstep ih =>
    have htaken : takenOf (ls ++ [l]) = takenOf ls ++ l.taken?.toList := by
      unfold takenOf
      rw [List.filterMap_append]
      cases htaken : l.taken? <;> simp [htaken]
    rw [htaken, List.append_assoc, hstep.queue, ← List.append_assoc, ih, acceptedOf_snoc hrun]

/-- The `submit` calls are numbered. -/
lemma submissionsOf_numbers (h : PoolRuns numWorkers ls s) :
    (submissionsOf ls).map PoolTask.number = List.range s.submissions := by
  induction h with
  | nil => rfl
  | @snoc ls t u l hrun hstep ih =>
    unfold submissionsOf at ih ⊢
    rw [List.filterMap_append, List.map_append, ih]
    cases hstep with
    | submit callable => simp [PoolLabel.submission?, List.range_succ]
    | _ => simp [PoolLabel.submission?]

lemma nodup_submissionsOf (h : PoolRuns numWorkers ls s) : (submissionsOf ls).Nodup := by
  apply List.Nodup.of_map PoolTask.number
  rw [submissionsOf_numbers h]
  exact List.nodup_range

lemma nodup_acceptedOf (h : PoolRuns numWorkers ls s) : (acceptedOf ls).Nodup :=
  (nodup_submissionsOf h).sublist (accepted_submissions ls).sublist

/-! ## Every task once -/

/-- A task as far as it can be called. -/
def PoolTask.calls (task : PoolTask) : Multiset PoolTask :=
  if task.callable then {task} else 0

/-- What a worker has still to start. -/
def TaskPc.unstarted : TaskPc → Multiset PoolTask
  | .holding task => task.calls
  | .running _ => 0

/-- What a worker has still to finish. -/
def TaskPc.unfinished : TaskPc → Multiset PoolTask
  | .holding task => task.calls
  | .running task => {task}

/-- A way to count tasks as gone, at their start or at their end. -/
structure Counts (went : PoolLabel → Multiset PoolTask) (g : TaskPc → Multiset PoolTask) :
    Prop where
  holding : ∀ task, g (.holding task) = task.calls
  started : ∀ task, went (.started task) + g (.running task) = {task}
  finished : ∀ task, went (.finished task) = g (.running task)
  others : ∀ l, l.started? = none → l.finished? = none → went l = 0

lemma counts_started :
    Counts (fun l => (l.started?.toList : Multiset PoolTask)) TaskPc.unstarted where
  holding _ := rfl
  started _ := rfl
  finished _ := rfl
  others l h _ := by simp [h]

lemma counts_finished :
    Counts (fun l => (l.finished?.toList : Multiset PoolTask)) TaskPc.unfinished where
  holding _ := rfl
  started _ := rfl
  finished _ := rfl
  others l _ h := by simp [h]

section Counts

variable {went : PoolLabel → Multiset PoolTask} {g : TaskPc → Multiset PoolTask}

lemma PoolState.accepts_of_none (s : PoolState) {l : PoolLabel} (h : l.submission? = none) :
    s.accepts l = [] := by
  simp [PoolState.accepts, h]

/-- A step moves tasks that can be called from the queue to the workers and on. -/
lemma PoolStep.counts (hcounts : Counts went g) (h : PoolStep s l s') :
    went l + s'.pool.contents PoolTask.calls g
      = ((s.accepts l).map PoolTask.calls).sum + s.pool.contents PoolTask.calls g := by
  cases h with
  | submit callable =>
    rw [hcounts.others _ rfl rfl, zero_add]
    unfold PoolState.accepts
    by_cases hstop : s.pool.stopping_ = true
    · simp [ThreadPool.contents, ThreadPool.submit, hstop]
    · rw [if_neg hstop, ThreadPool.contents_submit (by simpa using hstop), add_comm]
      simp [PoolLabel.submission?]
  | stop | stopAgain | join =>
    rw [hcounts.others _ rfl rfl, PoolState.accepts_of_none _ rfl]
    rfl
  | take w htasks hidle =>
    rw [hcounts.others _ rfl rfl, PoolState.accepts_of_none _ rfl,
      ThreadPool.contents_take htasks hidle (hcounts.holding _)]
    rfl
  | @start w task hholding hcallable =>
    have hcalls : g (.holding task) = {task} := (hcounts.holding task).trans (if_pos hcallable)
    have hmove := ThreadPool.contents_progress (f := PoolTask.calls) (g := g) hholding
      (.running task)
    rw [hcalls, ← hcounts.started task] at hmove
    rw [PoolState.accepts_of_none _ rfl, List.map_nil, List.sum_nil, zero_add]
    -- what the worker gives up is what has gone and what it still has
    apply add_right_cancel (b := g (.running task))
    rw [← hmove]
    abel
  | @skip w task hholding hcallable =>
    have hcalls : g (.holding task) = 0 :=
      (hcounts.holding task).trans (if_neg (by simp [hcallable]))
    have hmove := ThreadPool.contents_finish (f := PoolTask.calls) (g := g) hholding
    rw [hcalls, add_zero] at hmove
    rw [hcounts.others _ rfl rfl, PoolState.accepts_of_none _ rfl, hmove]
    rfl
  | @finish w task hrunning =>
    have hmove := ThreadPool.contents_finish (f := PoolTask.calls) (g := g) hrunning
    rw [PoolState.accepts_of_none _ rfl, ← hmove, hcounts.finished task]
    simp [add_comm]
  | exit w hdrained hidle =>
    rw [hcounts.others _ rfl rfl, PoolState.accepts_of_none _ rfl,
      ThreadPool.contents_exit hidle hdrained]
    rfl

/-- What was accepted has gone or is in the pool. -/
lemma PoolRuns.counts (hcounts : Counts went g) (h : PoolRuns numWorkers ls s) :
    total went ls + s.pool.contents PoolTask.calls g
      = ((acceptedOf ls).map PoolTask.calls).sum := by
  induction h with
  | nil => simp [PoolState.start, acceptedOf, submissionsOf]
  | @snoc ls t u l hrun hst ih =>
    rw [acceptedOf_snoc hrun, List.map_append, List.sum_append, ← ih, total_append,
      total_singleton, add_assoc, hst.counts hcounts]
    abel

end Counts

/-- A task of a list without repetitions counts once, if it can be called. -/
lemma sum_calls (tasks : List PoolTask) :
    (tasks.map PoolTask.calls).sum = (tasks.filter PoolTask.callable : Multiset PoolTask) := by
  induction tasks with
  | nil => rfl
  | cons task tasks ih =>
    rw [List.map_cons, List.sum_cons, ih]
    unfold PoolTask.calls
    cases hcallable : task.callable <;> simp [hcallable]

/-- No worker of a pool that has been joined takes another step. -/
lemma PoolStep.joined (h : PoolStep s l s') (hjoined : s.pool.Joined) : s'.pool.Joined := by
  have hnone : ∀ w (worker : Worker TaskPc), s.pool.workers_[w]? = some worker →
      worker = .exited :=
    fun w worker hw => hjoined.eq_exited (List.mem_of_getElem? hw)
  cases h with
  | submit | stop | stopAgain | join => exact hjoined
  | take w htasks hw => exact absurd (hnone w _ hw) (by simp)
  | start w hw => exact absurd (hnone w _ hw) (by simp)
  | skip w hw => exact absurd (hnone w _ hw) (by simp)
  | finish w hw => exact absurd (hnone w _ hw) (by simp)
  | exit w hdrained hw => exact absurd (hnone w _ hw) (by simp)

/-- When `shutdown` has returned the pool is joined, and stays so. -/
lemma PoolRuns.joined (h : PoolRuns numWorkers ls s) (hmem : .joined ∈ ls) : s.pool.Joined := by
  induction h with
  | nil => exact absurd hmem (by simp)
  | @snoc ls t u l hrun hstep ih =>
    rcases List.mem_append.mp hmem with hmem | hmem
    · exact hstep.joined (ih hmem)
    · rw [List.mem_singleton] at hmem
      subst hmem
      cases hstep with
      | join _ hjoined => exact hjoined

/-- The tasks that can be called. -/
def callableOf (tasks : List PoolTask) : List PoolTask :=
  tasks.filter PoolTask.callable

/-- What has been started was taken. -/
lemma started_le_taken (h : PoolRuns numWorkers ls s) :
    (startedOf ls : Multiset PoolTask) ≤ callableOf (takenOf ls) := by
  have hcounts := PoolRuns.counts counts_started h
  -- the queued part of what was accepted is left out on both sides
  rw [← coe_filterMap, ← queue_order h, List.map_append, List.sum_append, ThreadPool.contents,
    ← add_assoc, add_right_comm] at hcounts
  have hworkers := add_right_cancel hcounts
  rw [sum_calls] at hworkers
  calc (startedOf ls : Multiset PoolTask)
      ≤ startedOf ls + (s.pool.workers_.map (Worker.contents TaskPc.unstarted)).sum :=
        Multiset.le_add_right _ _
    _ = callableOf (takenOf ls) := hworkers

/-- **Every task once.** When `shutdown` has returned, the tasks that were accepted before have been
taken, started and finished, each once. -/
theorem executed_of_joined (h : PoolRuns numWorkers ls s) (hjoined : .joined ∈ ls) :
    takenOf ls = acceptedOf ls ∧
      (startedOf ls : Multiset PoolTask) = callableOf (acceptedOf ls) ∧
      (finishedOf ls : Multiset PoolTask) = callableOf (acceptedOf ls) := by
  have hdone := PoolRuns.joined h hjoined
  refine ⟨?_, ?_, ?_⟩
  · rw [← queue_order h, hdone.tasks_eq_nil, List.append_nil]
  · have hcounts := PoolRuns.counts counts_started h
    rw [← coe_filterMap, sum_calls, hdone.contents_eq_zero, add_zero] at hcounts
    exact hcounts
  · have hcounts := PoolRuns.counts counts_finished h
    rw [← coe_filterMap, sum_calls, hdone.contents_eq_zero, add_zero] at hcounts
    exact hcounts

/-! ## One worker -/

/-- What running a task shows. -/
def PoolTask.execution (task : PoolTask) : List PoolLabel :=
  if task.callable then [.started task, .finished task] else []

/-- What a worker has still to show of its task. -/
def TaskPc.execution : TaskPc → List PoolLabel
  | .holding task => task.execution
  | .running task => [.finished task]

/-- What the workers and then the queue have still to show. -/
def PoolState.execution (s : PoolState) : List PoolLabel :=
  s.pool.remaining PoolTask.execution TaskPc.execution

lemma PoolStep.serial (h : PoolStep s l s') (hserial : s.pool.Serial) : s'.pool.Serial := by
  unfold ThreadPool.Serial at hserial ⊢
  cases h <;> simpa [ThreadPool.submit, ThreadPool.stop, ThreadPool.take, ThreadPool.progress,
    ThreadPool.finish, ThreadPool.exit] using hserial

lemma PoolRuns.serial (h : PoolRuns numWorkers ls s) (hone : numWorkers ≤ 1) : s.pool.Serial := by
  apply Run.invariant (I := fun s => s.pool.Serial) h
  · have hsize : (if numWorkers = 0 then 1 else numWorkers) = 1 := by
      split <;> omega
    simp [PoolState.start, ThreadPool.create, ThreadPool.Serial, hsize]
  · exact fun _ _ _ hserial hstep => hstep.serial hserial

/-- The only worker goes on with its task before it takes the next one. -/
lemma PoolStep.execution (h : PoolStep s l s') (hserial : s.pool.Serial) :
    executionOf [l] ++ s'.execution
      = s.execution ++ (s.accepts l).flatMap PoolTask.execution := by
  cases h with
  | submit callable =>
    unfold PoolState.accepts
    by_cases hstop : s.pool.stopping_ = true
    · rw [if_pos hstop, List.flatMap_nil, List.append_nil]
      exact congrArg (ThreadPool.remaining _ _) (ThreadPool.submit_of_stopping hstop _)
    · rw [if_neg hstop]
      have hopen : s.pool.stopping_ = false := Bool.eq_false_of_not_eq_true hstop
      have hqueued := ThreadPool.remaining_submit (f := PoolTask.execution)
        (g := TaskPc.execution) hopen ⟨s.submissions, callable⟩
      rw [PoolLabel.submission?, Option.toList_some, List.flatMap_singleton]
      exact hqueued
  | stop | stopAgain | join =>
    rw [PoolState.accepts_of_none _ rfl, List.flatMap_nil, List.append_nil]
    rfl
  | take w htasks hidle =>
    rw [PoolState.accepts_of_none _ rfl, List.flatMap_nil, List.append_nil]
    exact ThreadPool.remaining_take hserial htasks hidle rfl
  | start w hholding hcallable =>
    rw [PoolState.accepts_of_none _ rfl, List.flatMap_nil, List.append_nil]
    exact (ThreadPool.remaining_progress hserial hholding (if_pos hcallable)).symm
  | @skip w task hholding hcallable =>
    have hshown : task.execution = [] := if_neg (by simp [hcallable])
    have hmoved := ThreadPool.remaining_finish (f := PoolTask.execution) (g := TaskPc.execution)
      hserial hholding
    rw [PoolState.accepts_of_none _ rfl, List.flatMap_nil, List.append_nil]
    rw [TaskPc.execution, hshown] at hmoved
    exact hmoved.symm
  | finish w hrunning =>
    rw [PoolState.accepts_of_none _ rfl, List.flatMap_nil, List.append_nil]
    have hmoved := ThreadPool.remaining_finish (f := PoolTask.execution) (g := TaskPc.execution)
      hserial hrunning
    exact hmoved.symm
  | exit w hdrained hidle =>
    rw [PoolState.accepts_of_none _ rfl, List.flatMap_nil, List.append_nil]
    exact ThreadPool.remaining_exit hserial hidle hdrained

/-- **One worker** starts and finishes the accepted tasks one after the other. -/
theorem execution_prefix (h : PoolRuns numWorkers ls s) (hone : numWorkers ≤ 1) :
    executionOf ls <+: (acceptedOf ls).flatMap PoolTask.execution := by
  have heq : executionOf ls ++ s.execution = (acceptedOf ls).flatMap PoolTask.execution := by
    induction h with
    | nil => exact ThreadPool.remaining_create numWorkers
    | @snoc ls t u l hrun hstep ih =>
      have hsplit : executionOf (ls ++ [l]) = executionOf ls ++ executionOf [l] := by
        unfold executionOf
        rw [List.filter_append]
      rw [acceptedOf_snoc hrun, List.flatMap_append, ← ih, hsplit, List.append_assoc,
        hstep.execution (PoolRuns.serial hrun hone), List.append_assoc]
  exact ⟨s.execution, heq⟩

/-! ## What the pool promises -/

/-- What the runs of a pool with `numWorkers` workers keep to. -/
structure TasksInOrder (numWorkers : ℕ) (ls : List PoolLabel) : Prop where
  /-- Tasks are taken in the order in which they were queued, and started once taken, once. -/
  taken : takenOf ls <+: acceptedOf ls
  started : (startedOf ls).Nodup ∧ startedOf ls ⊆ takenOf ls
  /-- When `shutdown` has returned, every task queued before it has been executed once. -/
  executed : .joined ∈ ls → ∀ task ∈ acceptedOf ls, task.callable = true →
    (startedOf ls).count task = 1 ∧ (finishedOf ls).count task = 1
  /-- A task that comes after is neither taken nor started. -/
  dropped : ∀ ls₁ ls₂ task, ls = ls₁ ++ .stopped :: ls₂ → .submitted task ∈ ls₂ →
    task ∉ takenOf ls ∧ task ∉ startedOf ls
  /-- One worker starts them in that order too, each after the one before it has finished. -/
  serial : numWorkers ≤ 1 → executionOf ls <+: (acceptedOf ls).flatMap PoolTask.execution

/-- A task that is submitted to a stopping pool is not accepted. -/
lemma not_accepted_of_stopped {ls₁ ls₂ : List PoolLabel} {task : PoolTask}
    (h : PoolRuns numWorkers (ls₁ ++ .stopped :: ls₂) s) (hmem : .submitted task ∈ ls₂) :
    task ∉ acceptedOf (ls₁ ++ .stopped :: ls₂) := by
  intro haccepted
  have hsub : task ∈ submissionsOf ls₂ := List.mem_filterMap.mpr ⟨_, hmem, rfl⟩
  have hnodup := nodup_submissionsOf h
  -- it would have been submitted twice
  have hprefix : task ∈ submissionsOf ls₁ := by
    by_cases hstopped : .stopped ∈ ls₁
    · rcases List.eq_append_cons_of_mem hstopped with ⟨as, bs, rfl, hfirst⟩
      rw [List.append_assoc, List.cons_append, acceptedOf_append_stopped hfirst] at haccepted
      unfold submissionsOf at haccepted ⊢
      rw [List.filterMap_append]
      exact List.mem_append_left _ haccepted
    · rwa [acceptedOf_append_stopped hstopped] at haccepted
  unfold submissionsOf at hnodup hsub hprefix
  rw [List.filterMap_append] at hnodup
  have hdisjoint := (List.nodup_append.mp hnodup).2.2
  have hagain : task ∈ (PoolLabel.stopped :: ls₂).filterMap PoolLabel.submission? :=
    List.mem_filterMap.mpr ⟨_, List.mem_cons_of_mem _ hmem, rfl⟩
  exact hdisjoint task hprefix task hagain rfl

/-- Every run of a pool keeps its tasks in order. -/
theorem tasksInOrder (numWorkers : ℕ) (ls : List PoolLabel) (s : PoolState)
    (h : PoolRuns numWorkers ls s) : TasksInOrder numWorkers ls := by
  have htaken : takenOf ls <+: acceptedOf ls := ⟨s.pool.tasks_, queue_order h⟩
  have hnodup := nodup_acceptedOf h
  have hstarted : (startedOf ls : Multiset PoolTask) ≤ takenOf ls :=
    le_trans (started_le_taken h) (List.filter_sublist.subperm)
  have hsubset : startedOf ls ⊆ takenOf ls := fun task htask =>
    Multiset.mem_coe.mp (Multiset.mem_of_le hstarted (Multiset.mem_coe.mpr htask))
  refine ⟨htaken, ⟨?_, hsubset⟩, ?_, ?_, execution_prefix h⟩
  · exact Multiset.coe_nodup.mp
      (Multiset.nodup_of_le hstarted (Multiset.coe_nodup.mpr (hnodup.sublist htaken.sublist)))
  · intro hjoined task htask hcallable
    have hone : (callableOf (acceptedOf ls)).count task = 1 :=
      List.count_eq_one_of_mem (hnodup.filter _) (List.mem_filter.mpr ⟨htask, hcallable⟩)
    rcases executed_of_joined h hjoined with ⟨-, hs, hf⟩
    rw [← Multiset.coe_count, ← Multiset.coe_count, hs, hf, Multiset.coe_count]
    exact ⟨hone, hone⟩
  · intro ls₁ ls₂ task hls hmem
    subst hls
    have hnot : task ∉ takenOf (ls₁ ++ .stopped :: ls₂) := fun htask =>
      not_accepted_of_stopped h hmem (htaken.subset htask)
    exact ⟨hnot, fun htask => hnot (hsubset htask)⟩

end Steps

/-- A pool asked for no worker has one, which runs its task before `shutdown` returns. -/
theorem tasksInOrder_sample :
    Reaches PoolStep (.start 0) fun ls _ =>
      .joined ∈ ls ∧ finishedOf ls = [⟨0, true⟩] ∧ TasksInOrder 0 ls := by
  have hrun : Reaches PoolStep (.start 0) fun ls _ =>
      ls = [.submitted ⟨0, true⟩, .stopped, .submitted ⟨1, true⟩, .taken ⟨0, true⟩,
        .started ⟨0, true⟩, .finished ⟨0, true⟩, .tau, .joined] := by
    apply Reaches.step (.submit true)
    apply Reaches.step (.stop rfl)
    apply Reaches.step (.submit true)
    apply Reaches.step (.take 0 rfl rfl)
    apply Reaches.step (.start 0 rfl rfl)
    apply Reaches.step (.finish 0 rfl)
    apply Reaches.step (.exit 0 ⟨rfl, rfl⟩ rfl)
    apply Reaches.step (.join rfl rfl)
    exact Reaches.here rfl
  rcases hrun with ⟨_, s, hrun, rfl⟩
  exact ⟨_, s, hrun, by decide, by decide, tasksInOrder 0 _ s hrun⟩

/-- Two workers that have taken their tasks in order can start them in the other order. -/
theorem starts_out_of_order :
    Reaches PoolStep (.start 2) fun ls _ =>
      takenOf ls = acceptedOf ls ∧ acceptedOf ls = [⟨0, true⟩, ⟨1, true⟩] ∧
        startedOf ls = [⟨1, true⟩, ⟨0, true⟩] := by
  apply Reaches.step (.submit true)
  apply Reaches.step (.submit true)
  apply Reaches.step (.take 0 rfl rfl)
  apply Reaches.step (.take 1 rfl rfl)
  apply Reaches.step (.start 1 rfl rfl)
  apply Reaches.step (.start 0 rfl rfl)
  exact Reaches.here (by decide)

end CLSP
