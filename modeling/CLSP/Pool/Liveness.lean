import CLSP.Lib.Fairness
import CLSP.Pool.Wakeups

/-!
# A pool gets its work done

Where the scheduler is fair and tasks return no wakeup is needed that does not come: every task that
is queued is taken and run to its end, and `shutdown` returns. A worker that is blocked is no help;
then it is a notification that helps.
-/

namespace CLSP

open Transition

/-- The threads that get a pool on: its workers, and those that still have to notify, or to join. -/
inductive CvThread
  | worker (w : ℕ)
  | notifyOne
  | notifyAll
  | join

/-- The steps of a thread: a worker is somewhere else afterwards, or it blocks. -/
def CvThread.Own : CvThread → CvState → PoolLabel → CvState → Prop
  | .worker w, s, _, s' =>
    s'.pool.workers_[w]? ≠ s.pool.workers_[w]? ∨ (w ∉ s.waiting ∧ w ∈ s'.waiting)
  | .notifyOne, s, _, s' => s'.notifyOnes < s.notifyOnes
  | .notifyAll, s, _, s' => s.notifyAll = true ∧ s'.notifyAll = false
  | .join, _, l, _ => l = .joined

/-- A worker is in a task. -/
def CvState.InTask (s : CvState) : CvThread → Prop
  | .worker w => ∃ task, s.pool.workers_[w]? = some (.busy (.running task))
  | _ => False

/-- The steps among them that a thread takes outside of the tasks, when it is scheduled. -/
def CvThread.Scheduled (i : CvThread) (s : CvState) (l : PoolLabel) (s' : CvState) : Prop :=
  i.Own s l s' ∧ ¬ s.InTask i

def TasksReturn (x : Execution CvStep) : Prop :=
  ∀ (i : CvThread) n, ∃ m ≥ n, ¬ (x.state m).InTask i

/-- Where the scheduler is fair and tasks return every thread gets on. -/
theorem cv_fair {x : Execution CvStep} {i : CvThread} (hscheduled : x.Fair i.Scheduled)
    (hreturn : TasksReturn x) : x.Fair i.Own := by
  refine x.fair_of_leaves (fun s => s.InTask i) hscheduled (fun _ _ _ h => h.1) ?_
    (hreturn i) ?_
  · intro s l s' hown
    by_cases htask : s.InTask i
    · exact Or.inl htask
    · exact Or.inr ⟨hown, htask⟩
  · intro s l s' htask _
    cases i with
    | worker w =>
      rcases htask with ⟨task, hw⟩
      by_cases hsame : s'.pool.workers_[w]? = s.pool.workers_[w]?
      · exact Or.inl ⟨task, hsame.trans hw⟩
      · exact Or.inr (Or.inl (Or.inl hsame))
    | notifyOne | notifyAll | join => exact htask.elim

/-! ## What is left to do -/

def Worker.left : Worker TaskPc → ℕ
  | .idle => 1
  | .busy (.holding _) => 3
  | .busy (.running _) => 2
  | .exited => 0

/-- What is left of some tasks and of those the workers are at. -/
def CvState.left (s : CvState) (tasks : List PoolTask) : ℕ :=
  3 * tasks.length + (s.pool.workers_.map Worker.left).sum

section Steps

variable {numWorkers : ℕ} {l : PoolLabel} {s s' : CvState} {w : ℕ} {task : PoolTask} {r : ℕ}

/-- A worker that does something in the pool has less to do afterwards. -/
lemma CvState.left_move (hw : w ∉ s.waiting) {pool : ThreadPool PoolTask TaskPc}
    {worker old : Worker TaskPc} (heq : pool.workers_ = s.pool.workers_.set w worker)
    (hold : s.pool.workers_[w]? = some old) (tasks : List PoolTask) :
    (s.move w hw pool worker heq).left tasks + old.left = s.left tasks + worker.left := by
  have hsum := ThreadPool.sum_map_set Worker.left worker hold
  rw [← heq] at hsum
  unfold left
  show 3 * tasks.length + (pool.workers_.map Worker.left).sum + old.left = _
  omega

lemma CvState.left_congr (hworkers : s'.pool.workers_ = s.pool.workers_) (tasks : List PoolTask) :
    s'.left tasks = s.left tasks := by
  unfold left
  rw [hworkers]

/-- A worker that is not blocked can go on with its task. -/
lemma enabled_of_busy (hw : w ∉ s.waiting) {running : TaskPc}
    (hbusy : s.pool.workers_[w]? = some (.busy running)) :
    Enabled CvStep (CvThread.worker w).Own s := by
  have hlt : w < s.pool.workers_.length := (List.getElem?_eq_some_iff.mp hbusy).1
  have hmoves : ∀ {worker : Worker TaskPc}, worker ≠ .busy running →
      (s.pool.workers_.set w worker)[w]? ≠ s.pool.workers_[w]? := by
    intro worker hne
    rw [List.getElem?_set_self hlt, hbusy]
    exact fun h => hne (Option.some.inj h)
  cases running with
  | running task => exact ⟨_, _, Or.inl (hmoves (by simp)), .finish hw hbusy⟩
  | holding task =>
    cases hcallable : task.callable with
    | true => exact ⟨_, _, Or.inl (hmoves (by simp)), .start hw hbusy hcallable⟩
    | false => exact ⟨_, _, Or.inl (hmoves (by simp)), .skip hw hbusy hcallable⟩

/-- It can go on when there is a task, and when the pool is stopped. -/
lemma enabled_of_awake (hw : w ∉ s.waiting) {worker : Worker TaskPc}
    (hworker : s.pool.workers_[w]? = some worker) (hne : worker ≠ .exited)
    (hpool : s.pool.tasks_ ≠ [] ∨ s.pool.stopping_ = true) :
    Enabled CvStep (CvThread.worker w).Own s := by
  cases worker with
  | busy running => exact enabled_of_busy hw hworker
  | exited => exact absurd rfl hne
  | idle =>
    have hlt : w < s.pool.workers_.length := (List.getElem?_eq_some_iff.mp hworker).1
    have hmoves : ∀ {worker : Worker TaskPc}, worker ≠ .idle →
        (s.pool.workers_.set w worker)[w]? ≠ s.pool.workers_[w]? := by
      intro worker hne
      rw [List.getElem?_set_self hlt, hworker]
      exact fun h => hne (Option.some.inj h)
    cases htasks : s.pool.tasks_ with
    | nil =>
      have hstopping := hpool.resolve_left (fun h => h htasks)
      exact ⟨_, _, Or.inl (hmoves (by simp)), .exit ⟨hstopping, htasks⟩ hw hworker⟩
    | cons task rest => exact ⟨_, _, Or.inl (hmoves (by simp)), .take htasks hw hworker⟩

lemma enabled_notifyOne (h : 0 < s.notifyOnes) : Enabled CvStep CvThread.notifyOne.Own s := by
  have hlt : s.notifyOnes - 1 < s.notifyOnes := Nat.sub_lt h one_pos
  rcases s.waiting.eq_empty_or_nonempty with hnone | ⟨w, hw⟩
  · refine ⟨_, _, ?_, .notifyNone hnone h⟩
    exact hlt
  · refine ⟨_, _, ?_, .notifyOne hw h⟩
    exact hlt

lemma enabled_notifyAll (h : s.notifyAll = true) : Enabled CvStep CvThread.notifyAll.Own s :=
  ⟨_, _, ⟨h, rfl⟩, .notifyAll h⟩

/-! ## A task that is queued is taken -/

/-- `task` is in the queue. The rank is even when a worker is awake. -/
structure CvState.Queued (task : PoolTask) (s : CvState) (r : ℕ) : Prop where
  attended : s.Attended
  queued : ∃ before after, s.pool.tasks_ = before ++ task :: after ∧
    ((s.Awake ∧ r = 2 * s.left (before ++ [task])) ∨
      (¬ s.Awake ∧ r = 2 * s.left (before ++ [task]) + 1))

/-- A worker that is awake helps; without one, a notification. -/
def CvState.helpsTake (s : CvState) : CvThread → Prop
  | .worker w => w < s.pool.workers_.length ∧ w ∉ s.waiting
  | .notifyOne => ¬ s.Awake ∧ 0 < s.notifyOnes
  | .notifyAll => ¬ s.Awake ∧ s.notifyAll = true
  | .join => False

lemma CvState.Queued.ne_nil (h : s.Queued task r) : s.pool.tasks_ ≠ [] := by
  rcases h.queued with ⟨before, after, htasks, -⟩
  rw [htasks]
  simp

lemma CvState.Queued.enabled (h : s.Queued task r) {i : CvThread} (hi : s.helpsTake i) :
    Enabled CvStep i.Own s := by
  cases i with
  | worker w =>
    refine enabled_of_awake hi.2 (List.getElem?_eq_getElem hi.1) ?_ (Or.inl h.ne_nil)
    intro hexited
    exact h.ne_nil (s.pool.exited_drained (hexited ▸ List.getElem_mem hi.1)).2
  | notifyOne => exact enabled_notifyOne hi.2
  | notifyAll => exact enabled_notifyAll hi.2
  | join => exact hi.elim

lemma CvState.Queued.helps (h : s.Queued task r) : ∃ i, s.helpsTake i := by
  by_cases hawake : s.Awake
  · rcases hawake with ⟨w, hlt, hw⟩
    exact ⟨.worker w, hlt, hw⟩
  · rcases (h.attended.queued h.ne_nil).resolve_left hawake with hone | hall
    · exact ⟨.notifyOne, hawake, hone⟩
    · exact ⟨.notifyAll, hawake, hall⟩

/-- Whoever does not work in the pool can only wake a worker. -/
lemma CvState.Queued.elsewhere (h : s.Queued task r) (hattended : s'.Attended)
    (hworkers : s'.pool.workers_ = s.pool.workers_)
    (htasks : ∃ more, s'.pool.tasks_ = s.pool.tasks_ ++ more) (hwaiting : s'.waiting ⊆ s.waiting)
    (hnotify : ¬ s'.Awake → s.notifyOnes ≤ s'.notifyOnes ∧
      (s.notifyAll = true → s'.notifyAll = true)) :
    Execution.Descends CvThread.Own CvState.helpsTake (CvState.Queued task) s r l s' := by
  rcases h.queued with ⟨before, after, hbefore, hrank⟩
  rcases htasks with ⟨more, hmore⟩
  have hqueue : s'.pool.tasks_ = before ++ task :: (after ++ more) := by
    rw [hmore, hbefore]
    simp
  have hleft := CvState.left_congr hworkers (before ++ [task])
  have hawake : s.Awake → s'.Awake := by
    rintro ⟨w, hlt, hw⟩
    exact ⟨w, hworkers ▸ hlt, fun h => hw (hwaiting h)⟩
  rcases hrank with ⟨hs, rfl⟩ | ⟨hs, rfl⟩
  · refine Or.inr ⟨⟨hattended, before, _, hqueue, Or.inl ⟨hawake hs, by rw [hleft]⟩⟩, ?_⟩
    intro i hi
    cases i with
    | worker w =>
      refine ⟨?_, hworkers ▸ hi.1, fun h => hi.2 (hwaiting h)⟩
      rintro (hmoved | ⟨hw, hw'⟩)
      · exact hmoved (by rw [hworkers])
      · exact hw (hwaiting hw')
    | notifyOne | notifyAll => exact absurd hs hi.1
    | join => exact hi.elim
  · by_cases hs' : s'.Awake
    · refine Or.inl ⟨2 * s'.left (before ++ [task]), ?_, hattended, before, _, hqueue,
        Or.inl ⟨hs', rfl⟩⟩
      omega
    · rcases hnotify hs' with ⟨hones, hall⟩
      refine Or.inr ⟨⟨hattended, before, _, hqueue, Or.inr ⟨hs', by rw [hleft]⟩⟩, ?_⟩
      intro i hi
      cases i with
      | worker w => exact absurd ⟨w, hi⟩ hs
      | notifyOne => exact ⟨Nat.not_lt.mpr hones, hs', hi.2.trans_le hones⟩
      | notifyAll =>
        exact ⟨fun hown => absurd hown.2 (by simp [hall hi.2]), hs', hall hi.2⟩
      | join => exact hi.elim

/-- A worker that works in the pool works off the tasks. -/
lemma CvState.Queued.works (h : s.Queued task r) {hw : w ∉ s.waiting}
    {pool : ThreadPool PoolTask TaskPc} {worker old : Worker TaskPc}
    {heq : pool.workers_ = s.pool.workers_.set w worker}
    (hattended : (s.move w hw pool worker heq).Attended)
    (hold : s.pool.workers_[w]? = some old) (hleft : worker.left < old.left)
    (htasks : pool.tasks_ = s.pool.tasks_) :
    Execution.Descends CvThread.Own CvState.helpsTake (CvState.Queued task) s r l
      (s.move w hw pool worker heq) := by
  rcases h.queued with ⟨before, after, hbefore, hrank⟩
  have hlt : w < pool.workers_.length := by
    rw [heq, List.length_set]
    exact (List.getElem?_eq_some_iff.mp hold).1
  have hmove := CvState.left_move hw heq hold (before ++ [task])
  refine Or.inl ⟨_, ?_, hattended, before, after, htasks.trans hbefore, Or.inl ⟨⟨w, hlt, hw⟩, rfl⟩⟩
  rcases hrank with ⟨-, rfl⟩ | ⟨-, rfl⟩ <;> omega

/-- It takes the tasks in order. -/
lemma CvState.Queued.takes (h : s.Queued task r) {hw : w ∉ s.waiting} {first : PoolTask}
    {rest : List PoolTask} {htasks : s.pool.tasks_ = first :: rest}
    {heq : (s.pool.take w htasks (.holding first)).workers_ =
      s.pool.workers_.set w (.busy (.holding first))}
    (hattended : (s.move w hw (s.pool.take w htasks (.holding first)) _ heq).Attended)
    (hidle : s.pool.workers_[w]? = some .idle) :
    Execution.Descends CvThread.Own CvState.helpsTake (CvState.Queued task) s r l
        (s.move w hw (s.pool.take w htasks (.holding first)) _ heq) ∨ first = task := by
  rcases h.queued with ⟨before, after, hbefore, hrank⟩
  rw [htasks] at hbefore
  cases before with
  | nil => exact Or.inr (List.cons.inj hbefore).1
  | cons first' before =>
    rcases List.cons.inj hbefore with ⟨rfl, hrest⟩
    have hlt : w < (s.pool.take w htasks (.holding first)).workers_.length := by
      rw [heq, List.length_set]
      exact (List.getElem?_eq_some_iff.mp hidle).1
    have hmove := CvState.left_move hw heq hidle (before ++ [task])
    refine Or.inl (Or.inl ⟨_, ?_, hattended, before, after, hrest, Or.inl ⟨⟨w, hlt, hw⟩, rfl⟩⟩)
    have hcons : s.left (first :: before ++ [task]) = 3 + s.left (before ++ [task]) := by
      unfold CvState.left
      rw [List.cons_append, List.length_cons]
      omega
    have hbusy : (Worker.busy (TaskPc.holding first)).left = 3 := rfl
    have hone : (Worker.idle : Worker TaskPc).left = 1 := rfl
    rcases hrank with ⟨-, rfl⟩ | ⟨-, rfl⟩ <;> omega

lemma CvState.Queued.step (h : s.Queued task r) (hstep : CvStep s l s') :
    Execution.Descends CvThread.Own CvState.helpsTake (CvState.Queued task) s r l s' ∨
      ∃ w : ℕ, s'.pool.workers_[w]? = some (.busy (.holding task)) := by
  have hattended := hstep.attended h.attended
  cases hstep with
  | submit callable hstopping =>
    left
    refine h.elsewhere hattended rfl ⟨[⟨s.submissions, callable⟩], ?_⟩ subset_rfl fun _ =>
      ⟨Nat.le_succ _, id⟩
    exact if_neg (by simp [hstopping])
  | drop callable hstopping =>
    left
    refine h.elsewhere hattended rfl ⟨[], ?_⟩ subset_rfl fun _ => ⟨le_rfl, id⟩
    rw [List.append_nil]
    exact if_pos hstopping
  | notifyOne hw =>
    left
    refine h.elsewhere hattended rfl ⟨[], (List.append_nil _).symm⟩ Finset.sdiff_subset ?_
    exact fun hasleep => absurd (CvState.awake_wake hw) hasleep
  | notifyNone hnone =>
    left
    refine h.elsewhere hattended rfl ⟨[], (List.append_nil _).symm⟩ subset_rfl ?_
    exact fun hasleep => absurd (CvState.awake_of_waiting_eq hnone) hasleep
  | stop =>
    left
    exact h.elsewhere hattended rfl ⟨[], (List.append_nil _).symm⟩ subset_rfl fun _ =>
      ⟨le_rfl, fun _ => rfl⟩
  | stopAgain =>
    left
    exact h.elsewhere hattended rfl ⟨[], (List.append_nil _).symm⟩ subset_rfl fun _ => ⟨le_rfl, id⟩
  | notifyAll =>
    left
    refine h.elsewhere hattended rfl ⟨[], (List.append_nil _).symm⟩ Finset.sdiff_subset ?_
    exact fun hasleep => absurd (CvState.awake_of_waiting_eq (Finset.sdiff_self _)) hasleep
  | spurious hw =>
    left
    refine h.elsewhere hattended rfl ⟨[], (List.append_nil _).symm⟩ Finset.sdiff_subset ?_
    exact fun hasleep => absurd (CvState.awake_wake hw) hasleep
  | join _ _ hjoined => exact absurd hjoined.tasks_eq_nil h.ne_nil
  | wait _ _ _ htasks => exact absurd htasks h.ne_nil
  | exit hdrained => exact absurd hdrained.2 h.ne_nil
  | take htasks hw hidle =>
    rcases h.takes hattended hidle with hdescends | rfl
    · exact Or.inl hdescends
    · exact Or.inr ⟨_, List.getElem?_set_self (List.getElem?_eq_some_iff.mp hidle).1⟩
  | start hw hbusy => exact Or.inl (h.works hattended hbusy (Nat.lt_succ_self 2) rfl)
  | skip hw hbusy => exact Or.inl (h.works hattended hbusy (Nat.succ_lt_succ (Nat.succ_pos 1)) rfl)
  | finish hw hbusy => exact Or.inl (h.works hattended hbusy (Nat.lt_succ_self 1) rfl)

/-! ## A task that is taken is run -/

/-- Worker `w` has `task`, which can be called. -/
structure CvState.Holds (w : ℕ) (task : PoolTask) (s : CvState) (r : ℕ) : Prop where
  callable : task.callable = true
  place : (s.pool.workers_[w]? = some (.busy (.holding task)) ∧ r = 2) ∨
    (s.pool.workers_[w]? = some (.busy (.running task)) ∧ r = 1)

lemma CvState.Holds.busy (h : s.Holds w task r) :
    ∃ running, s.pool.workers_[w]? = some (.busy running) := by
  rcases h.place with ⟨hw, -⟩ | ⟨hw, -⟩ <;> exact ⟨_, hw⟩

lemma not_waiting_of_busy {running : TaskPc} (h : s.pool.workers_[w]? = some (.busy running)) :
    w ∉ s.waiting := by
  intro hw
  rw [s.waiting_idle w hw] at h
  exact absurd h (by simp)

lemma CvState.Holds.enabled (h : s.Holds w task r) :
    Enabled CvStep (CvThread.worker w).Own s := by
  rcases h.busy with ⟨running, hw⟩
  exact enabled_of_busy (not_waiting_of_busy hw) hw

/-- The other threads leave it alone. -/
lemma CvState.Holds.elsewhere (h : s.Holds w task r)
    (hworker : s'.pool.workers_[w]? = s.pool.workers_[w]?) :
    Execution.Descends (fun _ : Unit => (CvThread.worker w).Own) (fun _ _ => True)
      (CvState.Holds w task) s r l s' := by
  have hholds : s'.Holds w task r := ⟨h.callable, by rw [hworker]; exact h.place⟩
  refine Or.inr ⟨hholds, fun _ _ => ⟨?_, trivial⟩⟩
  rintro (hmoved | ⟨-, hw⟩)
  · exact hmoved hworker
  · rcases hholds.busy with ⟨running, hbusy⟩
    exact not_waiting_of_busy hbusy hw

lemma CvState.Holds.step (h : s.Holds w task r) (hstep : CvStep s l s') :
    Execution.Descends (fun _ : Unit => (CvThread.worker w).Own) (fun _ _ => True)
      (CvState.Holds w task) s r l s' ∨ l = .finished task := by
  rcases h.busy with ⟨running, hbusy⟩
  have hlt : w < s.pool.workers_.length := (List.getElem?_eq_some_iff.mp hbusy).1
  have hother : ∀ {w' : ℕ} {old : Worker TaskPc} (worker : Worker TaskPc),
      s.pool.workers_[w']? = some old → old ≠ .busy running →
      (s.pool.workers_.set w' worker)[w]? = s.pool.workers_[w]? := by
    intro w' old worker hw' hne
    refine List.getElem?_set_ne fun heq => hne ?_
    rw [heq, hbusy] at hw'
    exact (Option.some.inj hw').symm
  cases hstep with
  | take _ _ hidle => exact Or.inl (h.elsewhere (hother _ hidle (by simp)))
  | exit _ _ hidle => exact Or.inl (h.elsewhere (hother _ hidle (by simp)))
  | @start w' task' _ hbusy' =>
    by_cases hww : w' = w
    · subst hww
      rcases h.place with ⟨hw, rfl⟩ | ⟨hw, rfl⟩
      · rw [hw] at hbusy'
        obtain rfl := TaskPc.holding.inj (Worker.busy.inj (Option.some.inj hbusy'))
        refine Or.inl (Or.inl ⟨1, Nat.lt_succ_self 1, h.callable, Or.inr ⟨?_, rfl⟩⟩)
        exact List.getElem?_set_self hlt
      · rw [hw] at hbusy'
        exact absurd hbusy' (by simp)
    · exact Or.inl (h.elsewhere (List.getElem?_set_ne hww))
  | @skip w' task' _ hbusy' hcallable =>
    by_cases hww : w' = w
    · subst hww
      rcases h.place with ⟨hw, rfl⟩ | ⟨hw, rfl⟩
      · rw [hw] at hbusy'
        obtain rfl := TaskPc.holding.inj (Worker.busy.inj (Option.some.inj hbusy'))
        exact absurd h.callable (by simp [hcallable])
      · rw [hw] at hbusy'
        exact absurd hbusy' (by simp)
    · exact Or.inl (h.elsewhere (List.getElem?_set_ne hww))
  | @finish w' task' _ hbusy' =>
    by_cases hww : w' = w
    · subst hww
      rcases h.place with ⟨hw, rfl⟩ | ⟨hw, rfl⟩
      · rw [hw] at hbusy'
        exact absurd hbusy' (by simp)
      · rw [hw] at hbusy'
        obtain rfl := TaskPc.running.inj (Worker.busy.inj (Option.some.inj hbusy'))
        exact Or.inr rfl
    · exact Or.inl (h.elsewhere (List.getElem?_set_ne hww))
  | _ => exact Or.inl (h.elsewhere rfl)

/-! ## A pool that is stopped is joined -/

/-- `shutdown` has set `stopping_`, and `r` is left to do. -/
structure CvState.Stopping (s : CvState) (r : ℕ) : Prop where
  attended : s.Attended
  stopping : s.pool.stopping_ = true
  joining : s.shutdown = .joining
  rank : r = s.left s.pool.tasks_ + s.notifyAll.toNat

/-- First `notify_all` helps, then the workers that are left, and in the end `join`. -/
def CvState.helpsStop (s : CvState) : CvThread → Prop
  | .worker w =>
    s.notifyAll = false ∧ ∃ worker, s.pool.workers_[w]? = some worker ∧ worker ≠ .exited
  | .notifyOne => False
  | .notifyAll => s.notifyAll = true
  | .join => s.notifyAll = false ∧ s.pool.Joined

/-- When `notify_all` has been delivered nobody is blocked any more. -/
lemma CvState.Stopping.waiting_eq (h : s.Stopping r) (hall : s.notifyAll = false) :
    s.waiting = ∅ := by
  by_contra hne
  have hall' := h.attended.stopped h.stopping (Finset.nonempty_iff_ne_empty.mpr hne)
  simp [hall'] at hall

lemma CvState.Stopping.enabled (h : s.Stopping r) {i : CvThread} (hi : s.helpsStop i) :
    Enabled CvStep i.Own s := by
  cases i with
  | worker w =>
    rcases hi with ⟨hall, worker, hw, hne⟩
    refine enabled_of_awake ?_ hw hne (Or.inr h.stopping)
    rw [h.waiting_eq hall]
    exact Finset.notMem_empty w
  | notifyOne => exact hi.elim
  | notifyAll => exact enabled_notifyAll hi
  | join => exact ⟨_, _, rfl, .join h.joining hi.1 hi.2⟩

lemma CvState.helpsStop_exists (s : CvState) : ∃ i, s.helpsStop i := by
  rcases Bool.eq_false_or_eq_true s.notifyAll with hall | hall
  · exact ⟨.notifyAll, hall⟩
  · by_cases hjoined : s.pool.Joined
    · exact ⟨.join, hall, hjoined⟩
    · unfold ThreadPool.Joined at hjoined
      rw [List.all_eq_true] at hjoined
      push Not at hjoined
      rcases hjoined with ⟨worker, hmem, hworker⟩
      rcases List.getElem?_of_mem hmem with ⟨w, hw⟩
      refine ⟨.worker w, hall, worker, hw, ?_⟩
      rintro rfl
      exact hworker rfl

/-- Whoever does not work in the pool leaves it as it is. -/
lemma CvState.Stopping.elsewhere (h : s.Stopping r) (hattended : s'.Attended)
    (hpool : s'.pool = s.pool) (hshutdown : s'.shutdown = s.shutdown)
    (hwaiting : s'.waiting ⊆ s.waiting) (hall : s'.notifyAll = s.notifyAll)
    (hl : l ≠ .joined) :
    Execution.Descends CvThread.Own CvState.helpsStop CvState.Stopping s r l s' := by
  have hstopping : s'.Stopping r := by
    refine ⟨hattended, hpool ▸ h.stopping, hshutdown.trans h.joining, ?_⟩
    rw [h.rank, hall, CvState.left_congr (congrArg _ hpool), hpool]
  refine Or.inr ⟨hstopping, fun i hi => ?_⟩
  cases i with
  | worker w =>
    rcases hi with ⟨hnone, hworker⟩
    refine ⟨?_, hall.trans hnone, by rw [hpool]; exact hworker⟩
    rintro (hmoved | ⟨hw, hw'⟩)
    · exact hmoved (by rw [hpool])
    · exact hw (hwaiting hw')
  | notifyOne => exact hi.elim
  | notifyAll =>
    refine ⟨fun hown => ?_, hall.trans hi⟩
    exact absurd ((hall.trans hi).symm.trans hown.2) (by simp)
  | join => exact ⟨hl, hall.trans hi.1, by rw [hpool]; exact hi.2⟩

/-- A worker brings the pool nearer to its end. -/
lemma CvState.Stopping.works (h : s.Stopping r) {hw : w ∉ s.waiting}
    {pool : ThreadPool PoolTask TaskPc} {worker old : Worker TaskPc}
    {heq : pool.workers_ = s.pool.workers_.set w worker}
    (hattended : (s.move w hw pool worker heq).Attended)
    (hold : s.pool.workers_[w]? = some old) (hstopping : pool.stopping_ = s.pool.stopping_)
    (hleft : worker.left + 3 * pool.tasks_.length < old.left + 3 * s.pool.tasks_.length) :
    Execution.Descends CvThread.Own CvState.helpsStop CvState.Stopping s r l
      (s.move w hw pool worker heq) := by
  have hmove := CvState.left_move hw heq hold pool.tasks_
  have hfewer : s.left s.pool.tasks_ + 3 * pool.tasks_.length =
      s.left pool.tasks_ + 3 * s.pool.tasks_.length := by
    unfold CvState.left
    omega
  refine Or.inl ⟨_, ?_, hattended, hstopping.trans h.stopping, h.joining, rfl⟩
  rw [h.rank]
  show (s.move w hw pool worker heq).left pool.tasks_ + s.notifyAll.toNat < _
  omega

lemma CvState.Stopping.step (h : s.Stopping r) (hstep : CvStep s l s') :
    Execution.Descends CvThread.Own CvState.helpsStop CvState.Stopping s r l s' ∨
      l = .joined := by
  have hattended := hstep.attended h.attended
  cases hstep with
  | submit _ hopen => exact absurd h.stopping (by simp [hopen])
  | stop hopen => exact absurd h.stopping (by simp [hopen])
  | wait _ _ hopen => exact absurd h.stopping (by simp [hopen])
  | drop callable hstopping =>
    have hpool := ThreadPool.submit_of_stopping hstopping ⟨s.submissions, callable⟩
    exact Or.inl (h.elsewhere hattended hpool rfl subset_rfl rfl nofun)
  | notifyOne => exact Or.inl (h.elsewhere hattended rfl rfl Finset.sdiff_subset rfl nofun)
  | notifyNone => exact Or.inl (h.elsewhere hattended rfl rfl subset_rfl rfl nofun)
  | stopAgain => exact Or.inl (h.elsewhere hattended rfl rfl subset_rfl rfl nofun)
  | spurious => exact Or.inl (h.elsewhere hattended rfl rfl Finset.sdiff_subset rfl nofun)
  | notifyAll hall =>
    refine Or.inl (Or.inl ⟨s.left s.pool.tasks_, ?_, hattended, h.stopping, h.joining, rfl⟩)
    rw [h.rank, hall]
    exact Nat.lt_succ_self _
  | join => exact Or.inr rfl
  | @take w task rest htasks hw hidle =>
    have hlength : s.pool.tasks_.length = rest.length + 1 := by
      rw [htasks]
      rfl
    refine Or.inl (h.works hattended hidle rfl ?_)
    show 3 + 3 * rest.length < 1 + 3 * s.pool.tasks_.length
    omega
  | start hw hbusy =>
    exact Or.inl (h.works hattended hbusy rfl (Nat.add_lt_add_right (Nat.lt_succ_self 2) _))
  | skip hw hbusy =>
    refine Or.inl (h.works hattended hbusy rfl ?_)
    exact Nat.add_lt_add_right (Nat.succ_lt_succ (Nat.succ_pos 1)) _
  | finish hw hbusy =>
    exact Or.inl (h.works hattended hbusy rfl (Nat.add_lt_add_right (Nat.lt_succ_self 1) _))
  | exit hdrained hw hidle =>
    exact Or.inl (h.works hattended hidle rfl (Nat.add_lt_add_right (Nat.lt_succ_self 0) _))

/-! ## Served -/

/-- The pool runs what it has accepted, and `shutdown` returns. -/
structure PoolServed (x : Execution CvStep) : Prop where
  executed : ∀ n task, x.label n = some (.submitted task) → task.callable = true →
    (x.state n).pool.stopping_ = false → ∃ m > n, x.label m = some (.finished task)
  returned : ∀ n, x.label n = some .stopped → ∃ m > n, x.label m = some .joined

section Served

variable {x : Execution CvStep} {n : ℕ}

lemma cv_attended (hstart : x.state 0 = .start numWorkers) (n : ℕ) : (x.state n).Attended := by
  refine x.invariant (I := CvState.Attended) ?_ (fun _ _ _ hs hstep => hstep.attended hs) n
  rw [hstart]
  exact ⟨fun htasks => absurd rfl htasks, nofun⟩

lemma cv_executed (hstart : x.state 0 = .start numWorkers) (hfair : ∀ i : CvThread, x.Fair i.Own)
    (hcallable : task.callable = true) (htask : task ∈ (x.state n).pool.tasks_) :
    ∃ m ≥ n, x.label m = some (.finished task) := by
  rcases List.append_of_mem htask with ⟨before, after, hbefore⟩
  have hqueued : ∃ r, (x.state n).Queued task r := by
    by_cases hawake : (x.state n).Awake
    · exact ⟨_, cv_attended hstart n, before, after, hbefore, Or.inl ⟨hawake, rfl⟩⟩
    · exact ⟨_, cv_attended hstart n, before, after, hbefore, Or.inr ⟨hawake, rfl⟩⟩
  rcases hqueued with ⟨r, hqueued⟩
  have htaken := x.response CvThread.Own CvState.helpsTake (CvState.Queued task)
    (fun _ s => ∃ w : ℕ, s.pool.workers_[w]? = some (.busy (.holding task))) hfair
    (fun _ _ _ h => h.enabled) (fun _ _ h => h.helps) (fun _ _ _ _ h hstep => h.step hstep) hqueued
  rcases htaken with ⟨m, hm, l, -, w, hw⟩
  have hholds : (x.state (m + 1)).Holds w task 2 := ⟨hcallable, Or.inl ⟨hw, rfl⟩⟩
  have hfinished := x.response (fun _ : Unit => (CvThread.worker w).Own) (fun _ _ => True)
    (CvState.Holds w task) (fun l _ => l = .finished task) (fun _ => hfair _)
    (fun _ _ _ h _ => h.enabled) (fun _ _ _ => ⟨(), trivial⟩)
    (fun _ _ _ _ h hstep => h.step hstep) hholds
  rcases hfinished with ⟨k, hk, l, hl, rfl⟩
  exact ⟨k, by omega, hl⟩

end Served

/-- **A pool gets its work done**, whatever is submitted and whatever wakes its workers. -/
theorem pool_served (numWorkers : ℕ) (x : Execution CvStep)
    (hstart : x.state 0 = .start numWorkers) (hscheduled : ∀ i : CvThread, x.Fair i.Scheduled)
    (hreturn : TasksReturn x) : PoolServed x where
  executed n task hl hcallable hopen := by
    have hfair : ∀ i : CvThread, x.Fair i.Own := fun i => cv_fair (hscheduled i) hreturn
    have htask : task ∈ (x.state (n + 1)).pool.tasks_ := by
      have hstep := x.steps n _ hl
      generalize x.state (n + 1) = s' at hstep ⊢
      cases hstep with
      | submit callable =>
        show _ ∈ ((x.state n).pool.submit _).tasks_
        simp [ThreadPool.submit, hopen]
      | drop _ hstopping => exact absurd hopen (by simp [hstopping])
    rcases cv_executed hstart hfair hcallable htask with ⟨m, hm, hlabel⟩
    exact ⟨m, by omega, hlabel⟩
  returned n hl := by
    have hfair : ∀ i : CvThread, x.Fair i.Own := fun i => cv_fair (hscheduled i) hreturn
    have hattended := cv_attended hstart (n + 1)
    have hstopping : ∃ r, (x.state (n + 1)).Stopping r := by
      have hstep := x.steps n _ hl
      generalize x.state (n + 1) = s' at hstep hattended ⊢
      cases hstep with
      | stop => exact ⟨_, hattended, rfl, rfl, rfl⟩
    rcases hstopping with ⟨r, hstopping⟩
    have hjoined := x.response CvThread.Own CvState.helpsStop CvState.Stopping
      (fun l _ => l = .joined) hfair (fun _ _ _ h => h.enabled)
      (fun s _ _ => s.helpsStop_exists) (fun _ _ _ _ h hstep => h.step hstep) hstopping
    rcases hjoined with ⟨m, hm, l, hlabel, rfl⟩
    exact ⟨m, by omega, hlabel⟩

/-- After `shutdown` has returned nothing is left to do. -/
lemma not_enabled_of_joined (hjoined : s.pool.Joined) (hshutdown : s.shutdown = .returned)
    (hones : s.notifyOnes = 0) (hall : s.notifyAll = false) (i : CvThread) :
    ¬ Enabled CvStep i.Own s := by
  rintro ⟨l, s', hown, hstep⟩
  have hgone : ∀ {w : ℕ} {worker : Worker TaskPc}, s.pool.workers_[w]? = some worker →
      worker = .exited := fun hw => hjoined.eq_exited (List.mem_of_getElem? hw)
  have hstays : s'.pool.workers_ = s.pool.workers_ → s'.waiting ⊆ s.waiting → l ≠ .joined →
      False := by
    intro hworkers hwaiting hl
    cases i with
    | worker w =>
      rcases hown with hmoved | ⟨hw, hw'⟩
      · exact hmoved (by rw [hworkers])
      · exact hw (hwaiting hw')
    | notifyOne => exact absurd (show s'.notifyOnes < s.notifyOnes from hown) (by omega)
    | notifyAll => exact absurd hown.1 (by simp [hall])
    | join => exact hl hown
  cases hstep with
  | submit | drop | stop | stopAgain => exact hstays rfl subset_rfl nofun
  | spurious => exact hstays rfl Finset.sdiff_subset nofun
  | notifyOne _ hpos | notifyNone _ hpos => omega
  | notifyAll hall' => simp [hall] at hall'
  | join hjoining => exact absurd (hshutdown.symm.trans hjoining) (by simp)
  | wait hidle | take _ _ hidle | exit _ _ hidle => exact absurd (hgone hidle) (by simp)
  | start _ hbusy | skip _ hbusy | finish _ hbusy => exact absurd (hgone hbusy) (by simp)

end Steps

/-- The worker is blocked when the only task comes. -/
theorem pool_served_sample :
    ∃ x : Execution CvStep, (∃ n, x.label n = some (.submitted ⟨0, true⟩) ∧
        (x.state n).pool.stopping_ = false ∧ (x.state n).waiting = {0}) ∧
      (∃ n, x.label n = some .stopped) ∧ PoolServed x := by
  have hrun : Reaches (Recorded CvStep) (.start 1) fun es s =>
      (s.pool.Joined ∧ s.shutdown = .returned ∧ s.notifyOnes = 0 ∧ s.notifyAll = false) ∧
        ∃ t, t.pool.stopping_ = false ∧ t.waiting = {0} ∧
          es[1]? = some (t, .submitted ⟨0, true⟩) ∧ (es[6]?).map Prod.snd = some .stopped := by
    apply Reaches.step (.intro (.wait (w := 0) rfl (Finset.notMem_empty 0) rfl rfl))
    apply Reaches.step (.intro (.submit true rfl))
    apply Reaches.step (.intro (.notifyOne (w := 0) (Finset.mem_singleton_self 0) one_pos))
    apply Reaches.step (.intro (.take (w := 0) rfl (by decide) rfl))
    apply Reaches.step (.intro (.start (w := 0) (by decide) rfl rfl))
    apply Reaches.step (.intro (.finish (w := 0) (by decide) rfl))
    apply Reaches.step (.intro (.stop rfl))
    apply Reaches.step (.intro (.notifyAll rfl))
    apply Reaches.step (.intro (.exit (w := 0) ⟨rfl, rfl⟩ (by decide) rfl))
    apply Reaches.step (.intro (.join rfl rfl rfl))
    exact Reaches.here ⟨⟨rfl, rfl, rfl, rfl⟩, _, rfl, rfl, rfl, rfl⟩
  rcases hrun with ⟨es, s, hrun, ⟨hjoined, hshutdown, hones, hall⟩, t, hopen, hwaiting, hes, hstop⟩
  rcases hrun.exists_execution with ⟨x, hstart, hhistory, hrests⟩
  have hscheduled : ∀ i : CvThread, x.Fair i.Scheduled := by
    intro i
    refine x.fair_of_rests (n := es.length) fun n hn henabled => ?_
    rw [(hrests n hn).1] at henabled
    rcases henabled with ⟨l, s', hown, hstep⟩
    exact not_enabled_of_joined hjoined hshutdown hones hall i ⟨l, s', hown.1, hstep⟩
  have hreturn : TasksReturn x := by
    intro i n
    refine ⟨max n es.length, le_max_left _ _, fun htask => ?_⟩
    rw [(hrests _ (le_max_right _ _)).1] at htask
    cases i with
    | worker w =>
      rcases htask with ⟨task, hw⟩
      exact absurd (hjoined.eq_exited (List.mem_of_getElem? hw)) (by simp)
    | notifyOne | notifyAll | join => exact htask
  rw [← hhistory] at hes hstop
  rcases x.mem_history.mp (List.mem_of_getElem? hes) with ⟨n, -, hn, hstate⟩
  rcases Option.map_eq_some_iff.mp hstop with ⟨e, he, hstop⟩
  rcases x.mem_history.mp (List.mem_of_getElem? he) with ⟨m, -, hm, -⟩
  rw [hstop] at hm
  dsimp only at hstate
  exact ⟨x, ⟨n, hn, hstate ▸ hopen, hstate ▸ hwaiting⟩, ⟨m, hm⟩,
    pool_served 1 x hstart hscheduled hreturn⟩

end CLSP
