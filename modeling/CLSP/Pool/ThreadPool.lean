import Mathlib.Algebra.BigOperators.Group.List.Basic
import Mathlib.Algebra.Order.Group.Multiset
import Mathlib.Tactic.Abel

/-!
# `ThreadPool`

The pool of `src/ThreadPool.cpp`: a queue of tasks, the flag `stopping_` and the worker threads.
Each operation is one critical section; `ρ` is how far a worker is in the task it runs. That a
worker only exits a stopped pool with an empty queue is part of the structure.
-/

namespace CLSP

/-- Where a worker is in `workerLoop`. -/
inductive Worker (ρ : Type)
  | idle
  | busy (running : ρ)
  | exited

def Worker.isExited {ρ : Type} : Worker ρ → Bool
  | .exited => true
  | _ => false

/-- `ThreadPool` -/
structure ThreadPool (τ ρ : Type) where
  tasks_ : List τ
  stopping_ : Bool
  workers_ : List (Worker ρ)
  workers_ne_nil : workers_ ≠ []
  exited_drained : .exited ∈ workers_ → stopping_ = true ∧ tasks_ = []

namespace ThreadPool

variable {τ ρ : Type}

/-- The constructor: at least one worker. -/
def create (numWorkers : ℕ) : ThreadPool τ ρ where
  tasks_ := []
  stopping_ := false
  workers_ := List.replicate (if numWorkers = 0 then 1 else numWorkers) .idle
  workers_ne_nil := by
    rw [Ne, List.replicate_eq_nil_iff]
    split <;> omega
  exited_drained h := absurd (List.eq_of_mem_replicate h) (by simp)

/-- `submit`: dropped when the pool is stopping. -/
def submit (pool : ThreadPool τ ρ) (task : τ) : ThreadPool τ ρ where
  tasks_ := if pool.stopping_ then pool.tasks_ else pool.tasks_ ++ [task]
  stopping_ := pool.stopping_
  workers_ := pool.workers_
  workers_ne_nil := pool.workers_ne_nil
  exited_drained h := by
    have hdrained := pool.exited_drained h
    simp [hdrained]

/-- The first half of `shutdown`. -/
def stop (pool : ThreadPool τ ρ) : ThreadPool τ ρ where
  tasks_ := pool.tasks_
  stopping_ := true
  workers_ := pool.workers_
  workers_ne_nil := pool.workers_ne_nil
  exited_drained h := ⟨rfl, (pool.exited_drained h).2⟩

/-- The second half of `shutdown` waits until every thread has ended. -/
def Joined (pool : ThreadPool τ ρ) : Prop :=
  pool.workers_.all Worker.isExited = true

lemma Joined.eq_exited {pool : ThreadPool τ ρ} (h : pool.Joined) {worker : Worker ρ}
    (hmem : worker ∈ pool.workers_) : worker = .exited := by
  have hexited := List.all_eq_true.mp h worker hmem
  cases worker with
  | exited => rfl
  | _ => exact absurd hexited (by simp [Worker.isExited])

lemma mem_set_exited {workers : List (Worker ρ)} {w : ℕ} {worker : Worker ρ}
    (hworker : worker ≠ .exited) (h : .exited ∈ workers.set w worker) : .exited ∈ workers := by
  rcases List.mem_or_eq_of_mem_set h with h | h
  · exact h
  · exact absurd h.symm hworker

/-- Worker `w` takes the front task of the queue. -/
def take (pool : ThreadPool τ ρ) (w : ℕ) {task : τ} {rest : List τ}
    (htasks : pool.tasks_ = task :: rest) (running : ρ) : ThreadPool τ ρ where
  tasks_ := rest
  stopping_ := pool.stopping_
  workers_ := pool.workers_.set w (.busy running)
  workers_ne_nil := by simpa using pool.workers_ne_nil
  exited_drained h := by
    have hdrained := pool.exited_drained (mem_set_exited (by simp) h)
    rw [htasks] at hdrained
    exact absurd hdrained.2 (by simp)

/-- Worker `w` goes on in its task. -/
def progress (pool : ThreadPool τ ρ) (w : ℕ) (running : ρ) : ThreadPool τ ρ where
  tasks_ := pool.tasks_
  stopping_ := pool.stopping_
  workers_ := pool.workers_.set w (.busy running)
  workers_ne_nil := by simpa using pool.workers_ne_nil
  exited_drained h := pool.exited_drained (mem_set_exited (by simp) h)

/-- Worker `w` has finished its task and is back at the top of its loop. -/
def finish (pool : ThreadPool τ ρ) (w : ℕ) : ThreadPool τ ρ where
  tasks_ := pool.tasks_
  stopping_ := pool.stopping_
  workers_ := pool.workers_.set w .idle
  workers_ne_nil := by simpa using pool.workers_ne_nil
  exited_drained h := pool.exited_drained (mem_set_exited (by simp) h)

/-- Worker `w` returns from `workerLoop`. -/
def exit (pool : ThreadPool τ ρ) (w : ℕ) (h : pool.stopping_ = true ∧ pool.tasks_ = []) :
    ThreadPool τ ρ where
  tasks_ := pool.tasks_
  stopping_ := pool.stopping_
  workers_ := pool.workers_.set w .exited
  workers_ne_nil := by simpa using pool.workers_ne_nil
  exited_drained _ := h

/-- A stopping pool drops what is submitted. -/
lemma submit_of_stopping {pool : ThreadPool τ ρ} (h : pool.stopping_ = true) (task : τ) :
    pool.submit task = pool := by
  cases pool with
  | mk tasks stopping workers workers_ne_nil exited_drained =>
    have hstop : stopping = true := h
    simp [submit, hstop]

/-! ## Who works on what -/

/-- Some worker is at `running`. -/
def Working (pool : ThreadPool τ ρ) (running : ρ) : Prop :=
  .busy running ∈ pool.workers_

section Working

variable {pool : ThreadPool τ ρ} {w : ℕ} {running running' : ρ}

lemma working_of_getElem? (h : pool.workers_[w]? = some (.busy running)) :
    pool.Working running :=
  List.mem_of_getElem? h

lemma working_of_mem_some (h : pool.workers_[w]? = some (.busy running)) :
    ∀ running' ∈ some running, pool.Working running' := by
  intro running' hmem
  rw [← Option.mem_some.mp hmem]
  exact working_of_getElem? h

lemma working_take {task : τ} {rest : List τ} {htasks : pool.tasks_ = task :: rest}
    (h : (pool.take w htasks running').Working running) :
    running = running' ∨ pool.Working running := by
  rcases List.mem_or_eq_of_mem_set h with h | h
  · exact Or.inr h
  · exact Or.inl (Worker.busy.inj h)

lemma working_progress (h : (pool.progress w running').Working running) :
    running = running' ∨ pool.Working running := by
  rcases List.mem_or_eq_of_mem_set h with h | h
  · exact Or.inr h
  · exact Or.inl (Worker.busy.inj h)

lemma working_finish (h : (pool.finish w).Working running) : pool.Working running := by
  rcases List.mem_or_eq_of_mem_set h with h | h
  · exact h
  · exact absurd h (by simp)

lemma working_exit {hdrained : pool.stopping_ = true ∧ pool.tasks_ = []}
    (h : (pool.exit w hdrained).Working running) : pool.Working running := by
  rcases List.mem_or_eq_of_mem_set h with h | h
  · exact h
  · exact absurd h (by simp)

lemma not_working_create (n : ℕ) : ¬ (create n : ThreadPool τ ρ).Working running := by
  intro h
  exact absurd (List.eq_of_mem_replicate h) (by simp)

end Working

/-- A pool that has been joined has nothing left to do. -/
lemma Joined.tasks_eq_nil {pool : ThreadPool τ ρ} (h : pool.Joined) : pool.tasks_ = [] := by
  -- there is a worker, and it has exited
  rcases List.exists_mem_of_ne_nil _ pool.workers_ne_nil with ⟨worker, hmem⟩
  have hexited := h.eq_exited hmem
  subst hexited
  exact (pool.exited_drained hmem).2

end ThreadPool

/-! ## What a pool holds -/

section Contents

variable {α : Type*} {τ ρ : Type} {f : τ → Multiset α} {g : ρ → Multiset α}

/-- What a worker has in hand. -/
def Worker.contents (g : ρ → Multiset α) : Worker ρ → Multiset α
  | .busy running => g running
  | _ => 0

/-- What is queued, by `f`, and what is being worked on, by `g`. -/
def ThreadPool.contents (f : τ → Multiset α) (g : ρ → Multiset α) (pool : ThreadPool τ ρ) :
    Multiset α :=
  (pool.tasks_.map f).sum + (pool.workers_.map (Worker.contents g)).sum

namespace ThreadPool

variable {pool : ThreadPool τ ρ} {w : ℕ}

lemma sum_map_set {β M : Type*} [AddCommMonoid M] (c : β → M) {l : List β} {old : β} (new : β)
    (h : l[w]? = some old) : ((l.set w new).map c).sum + c old = (l.map c).sum + c new := by
  -- along the list, up to the entry that is replaced
  induction l generalizing w with
  | nil => exact absurd h (by simp)
  | cons b l ih =>
    rcases w with _ | w
    · have hb : b = old := by simpa using h
      subst hb
      simp only [List.set_cons_zero, List.map_cons, List.sum_cons]
      abel
    · have ih' := ih (w := w) (by simpa using h)
      simp only [List.set_cons_succ, List.map_cons, List.sum_cons]
      rw [add_assoc, ih', add_assoc]

@[simp] lemma contents_create (n : ℕ) :
    contents f g (create n : ThreadPool τ ρ) = 0 := by
  have hsum : ∀ x ∈ (create n : ThreadPool τ ρ).workers_.map (Worker.contents g), x = 0 := by
    intro x hx
    rcases List.mem_map.mp hx with ⟨worker, hworker, rfl⟩
    rw [List.eq_of_mem_replicate hworker]
    rfl
  rw [contents, List.sum_eq_zero hsum]
  rfl

lemma contents_submit (h : pool.stopping_ = false) (task : τ) :
    contents f g (pool.submit task) = contents f g pool + f task := by
  simp only [contents, submit, h, Bool.false_eq_true, if_false, List.map_append, List.map_cons,
    List.map_nil, List.sum_append, List.sum_cons, List.sum_nil, add_zero]
  abel

@[simp] lemma contents_stop : contents f g pool.stop = contents f g pool := rfl

/-- Taking a task moves it from the queue to the worker. -/
lemma contents_take {task : τ} {rest : List τ} (htasks : pool.tasks_ = task :: rest)
    (hidle : pool.workers_[w]? = some .idle) {running : ρ} (hrunning : g running = f task) :
    contents f g (pool.take w htasks running) = contents f g pool := by
  have hset := sum_map_set (Worker.contents g) (.busy running) hidle
  simp only [Worker.contents, add_zero, hrunning] at hset
  simp only [contents, take, htasks, List.map_cons, List.sum_cons]
  rw [hset]
  abel

lemma contents_progress {old : ρ} (hbusy : pool.workers_[w]? = some (.busy old)) (running : ρ) :
    contents f g (pool.progress w running) + g old = contents f g pool + g running := by
  have hset := sum_map_set (Worker.contents g) (.busy running) hbusy
  simp only [Worker.contents] at hset
  simp only [contents, progress]
  rw [add_assoc, hset, add_assoc]

lemma contents_finish {old : ρ} (hbusy : pool.workers_[w]? = some (.busy old)) :
    contents f g (pool.finish w) + g old = contents f g pool := by
  have hset := sum_map_set (Worker.contents g) .idle hbusy
  simp only [Worker.contents, add_zero] at hset
  simp only [contents, finish]
  rw [add_assoc, hset]

lemma contents_exit (hidle : pool.workers_[w]? = some .idle)
    (h : pool.stopping_ = true ∧ pool.tasks_ = []) :
    contents f g (pool.exit w h) = contents f g pool := by
  have hset := sum_map_set (Worker.contents g) .exited hidle
  simp only [Worker.contents, add_zero] at hset
  simp only [contents, exit]
  rw [hset]

lemma Joined.contents_eq_zero (h : pool.Joined) : contents f g pool = 0 := by
  have hsum : ∀ x ∈ pool.workers_.map (Worker.contents g), x = 0 := by
    intro x hx
    rcases List.mem_map.mp hx with ⟨worker, hworker, rfl⟩
    rw [h.eq_exited hworker]
    rfl
  rw [contents, List.sum_eq_zero hsum, h.tasks_eq_nil]
  rfl

/-- What a worker has in hand and what is queued is part of the contents. -/
lemma mem_contents_of_working {running : ρ} {x : α} (h : pool.Working running)
    (hx : x ∈ g running) : x ∈ contents f g pool := by
  rcases List.mem_iff_getElem?.mp h with ⟨w, hbusy⟩
  rw [← contents_finish hbusy]
  exact Multiset.mem_add.mpr (Or.inr hx)

lemma mem_contents_of_task {task : τ} {x : α} (h : task ∈ pool.tasks_) (hx : x ∈ f task) :
    x ∈ contents f g pool := by
  rcases List.append_of_mem h with ⟨before, after, htasks⟩
  unfold contents
  rw [htasks, List.map_append, List.map_cons, List.sum_append, List.sum_cons]
  simp [hx]

lemma mem_sum_map {β : Type*} {c : β → Multiset α} {l : List β} {x : α} :
    x ∈ (l.map c).sum ↔ ∃ b ∈ l, x ∈ c b := by
  induction l with
  | nil => simp
  | cons b l ih =>
    rw [List.map_cons, List.sum_cons, Multiset.mem_add, ih]
    simp

lemma of_mem_contents {x : α} (h : x ∈ contents f g pool) :
    (∃ task ∈ pool.tasks_, x ∈ f task) ∨ ∃ running, pool.Working running ∧ x ∈ g running := by
  rcases Multiset.mem_add.mp h with h | h
  · exact Or.inl (mem_sum_map.mp h)
  · rcases mem_sum_map.mp h with ⟨worker, hmem, hx⟩
    cases worker with
    | busy running => exact Or.inr ⟨running, hmem, hx⟩
    | idle => exact absurd hx (Multiset.notMem_zero x)
    | exited => exact absurd hx (Multiset.notMem_zero x)

end ThreadPool

end Contents

/-! ## A serial executor -/

section Serial

variable {α : Type*} {τ ρ : Type} {f : τ → Option α} {g : ρ → Option α}

def Worker.inHand (g : ρ → Option α) : Worker ρ → Option α
  | .busy running => g running
  | _ => none

def Worker.remaining (g : ρ → List α) : Worker ρ → List α
  | .busy running => g running
  | _ => []

namespace ThreadPool

/-- What is still to be finished, in order when there is one worker: what it works on and then what
is queued. -/
def waiting (f : τ → Option α) (g : ρ → Option α) (pool : ThreadPool τ ρ) : List α :=
  pool.workers_.filterMap (Worker.inHand g) ++ pool.tasks_.filterMap f

/-- A pool that was created with one worker. -/
def Serial (pool : ThreadPool τ ρ) : Prop :=
  pool.workers_.length = 1

variable {pool : ThreadPool τ ρ} {w : ℕ}

/-- The only worker is the one that takes a step. -/
lemma Serial.workers_eq (h : pool.Serial) {worker : Worker ρ}
    (hw : pool.workers_[w]? = some worker) : w = 0 ∧ pool.workers_ = [worker] := by
  rcases List.length_eq_one_iff.mp h with ⟨worker', heq⟩
  rw [heq] at hw
  rcases w with _ | w
  · have hworker : worker' = worker := by simpa using hw
    rw [heq, hworker]
    exact ⟨rfl, rfl⟩
  · exact absurd hw (by simp)

/-- A task that is submitted waits behind the others. -/
lemma waiting_submit (h : pool.stopping_ = false) (task : τ) :
    waiting f g (pool.submit task) = waiting f g pool ++ (f task).toList := by
  simp only [waiting, submit, h, Bool.false_eq_true, if_false]
  cases hf : f task <;> simp [hf]

/-- The only worker takes the task that waits first. -/
lemma waiting_take (h : pool.Serial) {task : τ} {rest : List τ}
    (htasks : pool.tasks_ = task :: rest) (hidle : pool.workers_[w]? = some .idle) {running : ρ}
    (hrunning : g running = f task) :
    waiting f g (pool.take w htasks running) = waiting f g pool := by
  rcases h.workers_eq hidle with ⟨rfl, heq⟩
  simp only [waiting, take, htasks, heq, List.set_cons_zero, List.filterMap_cons,
    List.filterMap_nil, Worker.inHand, hrunning, List.nil_append]
  cases f task <;> rfl

lemma waiting_progress (h : pool.Serial) {old : ρ} (hbusy : pool.workers_[w]? = some (.busy old))
    {running : ρ} (hrunning : g running = g old) :
    waiting f g (pool.progress w running) = waiting f g pool := by
  rcases h.workers_eq hbusy with ⟨rfl, heq⟩
  simp only [waiting, progress, heq, List.set_cons_zero, List.filterMap_cons, Worker.inHand,
    hrunning]

/-- What is finished is what waited first. -/
lemma waiting_finish (h : pool.Serial) {old : ρ} (hbusy : pool.workers_[w]? = some (.busy old)) :
    waiting f g pool = (g old).toList ++ waiting f g (pool.finish w) := by
  rcases h.workers_eq hbusy with ⟨rfl, heq⟩
  simp only [waiting, finish, heq, List.set_cons_zero, List.filterMap_cons, List.filterMap_nil,
    Worker.inHand, List.nil_append]
  cases g old <;> rfl

lemma waiting_exit (h : pool.Serial) (hidle : pool.workers_[w]? = some .idle)
    (hdrained : pool.stopping_ = true ∧ pool.tasks_ = []) :
    waiting f g (pool.exit w hdrained) = waiting f g pool := by
  rcases h.workers_eq hidle with ⟨rfl, heq⟩
  simp only [waiting, exit, heq, List.set_cons_zero, List.filterMap_cons, Worker.inHand]

/-! What the worker and then the queue have still to show, when a task shows a list of things. -/

section Remaining

variable {f : τ → List α} {g : ρ → List α}

/-- What the workers have still to show, and then the queue. -/
def remaining (f : τ → List α) (g : ρ → List α) (pool : ThreadPool τ ρ) : List α :=
  pool.workers_.flatMap (Worker.remaining g) ++ pool.tasks_.flatMap f

lemma remaining_create (numWorkers : ℕ) :
    remaining f g (create numWorkers : ThreadPool τ ρ) = [] := by
  have hidle : ∀ worker ∈ (create numWorkers : ThreadPool τ ρ).workers_,
      Worker.remaining g worker = [] := by
    intro worker hmem
    rw [List.eq_of_mem_replicate hmem]
    rfl
  rw [remaining, List.flatMap_eq_nil_iff.mpr hidle]
  rfl

lemma mem_remaining_of_working {running : ρ} (h : pool.Working running) {a : α}
    (ha : a ∈ g running) : a ∈ remaining f g pool :=
  List.mem_append_left _ (List.mem_flatMap.mpr ⟨_, h, ha⟩)

lemma remaining_submit (h : pool.stopping_ = false) (task : τ) :
    remaining f g (pool.submit task) = remaining f g pool ++ f task := by
  simp [remaining, submit, h]

lemma remaining_take (h : pool.Serial) {task : τ} {rest : List τ}
    (htasks : pool.tasks_ = task :: rest) (hidle : pool.workers_[w]? = some .idle) {running : ρ}
    (hrunning : g running = f task) :
    remaining f g (pool.take w htasks running) = remaining f g pool := by
  rcases h.workers_eq hidle with ⟨rfl, heq⟩
  simp [remaining, take, htasks, heq, Worker.remaining, hrunning]

/-- The only worker shows something of its task. -/
lemma remaining_progress (h : pool.Serial) {old : ρ}
    (hbusy : pool.workers_[w]? = some (.busy old)) {running : ρ} {shown : List α}
    (hshown : g old = shown ++ g running) :
    remaining f g pool = shown ++ remaining f g (pool.progress w running) := by
  rcases h.workers_eq hbusy with ⟨rfl, heq⟩
  simp [remaining, progress, heq, Worker.remaining, hshown]

lemma remaining_progress_of_eq (h : pool.Serial) {old : ρ}
    (hbusy : pool.workers_[w]? = some (.busy old)) {running : ρ} (hrunning : g running = g old) :
    remaining f g (pool.progress w running) = remaining f g pool := by
  have hshown : g old = [] ++ g running := by rw [hrunning, List.nil_append]
  exact (remaining_progress h hbusy hshown).symm

lemma remaining_finish (h : pool.Serial) {old : ρ}
    (hbusy : pool.workers_[w]? = some (.busy old)) :
    remaining f g pool = g old ++ remaining f g (pool.finish w) := by
  rcases h.workers_eq hbusy with ⟨rfl, heq⟩
  simp [remaining, finish, heq, Worker.remaining]

lemma remaining_exit (h : pool.Serial) (hidle : pool.workers_[w]? = some .idle)
    (hdrained : pool.stopping_ = true ∧ pool.tasks_ = []) :
    remaining f g (pool.exit w hdrained) = remaining f g pool := by
  rcases h.workers_eq hidle with ⟨rfl, heq⟩
  simp [remaining, exit, heq, Worker.remaining]

lemma Joined.remaining_eq_nil (h : pool.Joined) : remaining f g pool = [] := by
  have hworkers : pool.workers_.flatMap (Worker.remaining g) = [] := by
    apply List.flatMap_eq_nil_iff.mpr
    intro worker hmem
    rw [h.eq_exited hmem]
    rfl
  rw [remaining, hworkers, h.tasks_eq_nil]
  rfl

end Remaining

end ThreadPool

end Serial

end CLSP
