import CLSP.Server.Threads

/-!
# The tasks of the pools

A task of a pool comes from a message or from a response that is matched, and is then before
`submit`, in the queue or with a worker. `Step.hasTask` says so for one step: what holds of the
tasks of a run is proved for the messages they come from. A queue keeps a task until a worker takes
it.
-/

namespace CLSP

/-- The task a worker runs. -/
def Running.task : Running → Task
  | .request call _ => .request call
  | .erasing call => .request call
  | .notification call _ => .notification call
  | .callback cb payload isError => .callback cb payload isError
  | .invoked cb payload isError => .callback cb payload isError

@[simp] lemma Task.task_start (task : Task) : task.start.task = task := by
  cases task <;> rfl

/-- The task the read thread is about to submit. -/
def ReaderPc.task? : ReaderPc → Option (Executor × Task)
  | .registering call => some (.worker, .request call)
  | .submitting e task => some (e, task)
  | _ => none

/-- A task that is on its way to a pool, queued, or with a worker. -/
def Server.HasTask (s : Server) (e : Executor) (task : Task) : Prop :=
  s.reader.task? = some (e, task) ∨ task ∈ (s.pool e).tasks_ ∨
    ∃ running, (s.pool e).Working running ∧ running.task = task

/-- The task whose handler or hook a step calls, goes on in, or ends. -/
def Label.task? : Label → Option Task
  | .handlerStarted call => some (.request call)
  | .polled call _ => some (.request call)
  | .handlerEnded call _ => some (.request call)
  | .notificationStarted call => some (.notification call)
  | .hook call _ => some (.notification call)
  | .notificationEnded call _ => some (.notification call)
  | _ => none

section Steps

variable {cfg : Config} {ls : List Label} {s s' : Server} {l : Label} {e : Executor} {task : Task}

lemma hasTask_of_getElem? {w : ℕ} {running : Running}
    (h : (s.pool e).workers_[w]? = some (.busy running)) : s.HasTask e running.task :=
  Or.inr (Or.inr ⟨running, ThreadPool.working_of_getElem? h, rfl⟩)

lemma HandlerStep.task? {nl : Nlohmann} {call : RequestCall} {flag : Bool} {pc : HandlerPc}
    {r : Progress HandlerPc} (h : HandlerStep nl call flag pc l r) (hl : l.task? = some task) :
    task = .request call := by
  cases h <;> first | exact (Option.some.inj hl).symm | exact absurd hl (by simp [Label.task?])

lemma NotificationStep.task? {call : NotificationCall} {documents documents' : DocumentStore}
    {pc : NotificationPc} {r : Progress NotificationPc}
    (h : NotificationStep call documents pc l documents' r) :
    l.task? = some (.notification call) := by
  cases h <;> rfl

/-- Workers only run what they have. -/
lemma WorkerStep.task? {w : ℕ} (h : WorkerStep cfg e w s l s') (hl : l.task? = some task) :
    s.HasTask e task := by
  cases h with
  | take | exit | eraseToken | invoke => exact absurd hl (by simp [Label.task?])
  | handler hw hstep | handlerFinishes hw hstep | handlerEscapes hw hstep =>
    rw [hstep.task? hl]
    exact hasTask_of_getElem? hw
  | notification hw hstep | notificationFinishes hw hstep | notificationEscapes hw hstep =>
    rw [← Option.some.inj (hstep.task?.symm.trans hl)]
    exact hasTask_of_getElem? hw
  | callbackFinishes _ hstep | callbackEscapes _ hstep =>
    cases hstep <;> exact absurd hl (by simp [Label.task?])

/-- Workers only change the documents in a notification. -/
lemma WorkerStep.documents {w : ℕ} (h : WorkerStep cfg e w s l s') :
    s'.documents_ = s.documents_ ∨ ∃ call, s.HasTask e (.notification call) := by
  cases h with
  | notification hw _ | notificationFinishes hw _ | notificationEscapes hw _ =>
    exact Or.inr ⟨_, hasTask_of_getElem? hw⟩
  | _ => exact Or.inl (by simp)

/-- A worker only has tasks that were in the pool. -/
lemma Advanced.hasTask {running : Running} (h : Advanced cfg e s l running) :
    s.HasTask e running.task := by
  cases h with
  | same hwork => exact Or.inr (Or.inr ⟨_, hwork, rfl⟩)
  | @taken task rest htasks =>
    rw [Task.task_start]
    exact Or.inr (Or.inl (by simp [htasks]))
  | handler hwork => exact Or.inr (Or.inr ⟨_, hwork, rfl⟩)
  | answered hwork => exact Or.inr (Or.inr ⟨_, hwork, rfl⟩)
  | notification hwork => exact Or.inr (Or.inr ⟨_, hwork, rfl⟩)
  | invoked hwork => exact Or.inr (Or.inr ⟨_, hwork, rfl⟩)

lemma WorkerStep.hasTask {e' : Executor} {w : ℕ} (h : WorkerStep cfg e' w s l s')
    (htask : s'.HasTask e task) : s.HasTask e task := by
  rcases htask with hreader | hqueued | ⟨running, hwork, rfl⟩
  · rw [h.control.1] at hreader
    exact Or.inl hreader
  · exact Or.inr (Or.inl (h.mem_tasks_ hqueued))
  · exact (h.advanced hwork).hasTask

/-- How a task comes to a server: with a message, or as the callback of a response. -/
inductive NewTask (cfg : Config) (s : Server) : Label → Executor → Task → Prop
  | read {m : ℕ} {body : Bytes} {msg : ParsedMessage} {e : Executor} {task : Task} :
      (dispatch cfg s.state_ s.messagesRead s.flags.length msg).2.task? = some (e, task) →
      NewTask cfg s (.read m body msg) e task
  | matched (resp : ParsedResponse) (id : Int32) (cb : ResponseCallback) :
      NewTask cfg s (.responseTaken resp id (some cb)) .worker
        (.callback cb resp.payload resp.isError)

lemma ReaderStep.hasTask (h : ReaderStep cfg s l s') (htask : s'.HasTask e task) :
    s.HasTask e task ∨ NewTask cfg s l e task := by
  rcases htask with hreader | hqueued | ⟨running, hwork, rfl⟩
  · cases h with
    | read => exact Or.inr (.read hreader)
    | matched =>
      rcases Prod.mk.inj (Option.some.inj hreader) with ⟨rfl, rfl⟩
      exact Or.inr (.matched _ _ _)
    | insertToken hr =>
      refine Or.inl (Or.inl ?_)
      rw [hr]
      exact hreader
    | parseThrows | sendThrows | handlerEscapes | notifyEscapes | exitThrows =>
      exact Or.inl (Or.inl hreader)
    | _ => exact absurd hreader (by simp [ReaderPc.task?])
  · rcases h.mem_tasks_ hqueued with hqueued | hr
    · exact Or.inl (Or.inr (Or.inl hqueued))
    · exact Or.inl (Or.inl (by rw [hr]; rfl))
  · exact Or.inl (Or.inr (Or.inr ⟨running, h.working.mp hwork, rfl⟩))

/-- A task that is there after a step was there before, or is new. -/
theorem Step.hasTask (h : Step cfg s l s') (htask : s'.HasTask e task) :
    s.HasTask e task ∨ NewTask cfg s l e task := by
  cases h with
  | reader _ _ h => exact h.hasTask htask
  | worker _ _ _ h => exact Or.inl (h.hasTask htask)
  | sender _ h =>
    have hpool := h.pool e
    rcases h.frame with ⟨_, _, _, rfl⟩
    unfold Server.HasTask at htask ⊢
    rw [← hpool]
    exact Or.inl htask

lemma not_hasTask_start (cfg : Config) : ¬ (Server.start cfg).HasTask e task := by
  intro htask
  rcases htask with hreader | hqueued | ⟨running, hwork, -⟩
  · exact absurd hreader (by simp [Server.start, ReaderPc.task?])
  · cases e <;> exact absurd hqueued (by simp [Server.start, Server.pool, ThreadPool.create])
  · cases e <;> exact absurd hwork (ThreadPool.not_working_create _)

/-- What holds of the new tasks of a run holds of all its tasks. -/
theorem Runs.tasks {P : Executor → Task → Prop} (h : Runs cfg ls s)
    (hnew : ∀ s l s' e task, Step cfg s l s' → NewTask cfg s l e task → P e task)
    (htask : s.HasTask e task) : P e task := by
  have hall : ∀ e task, s.HasTask e task → P e task := by
    apply h.invariant (I := fun s => ∀ e task, s.HasTask e task → P e task)
    · exact fun e task htask => absurd htask (not_hasTask_start cfg)
    · intro t l u ht hstep e task htask
      rcases hstep.hasTask htask with hold | hfresh
      · exact ht e task hold
      · exact hnew t l u e task hstep hfresh
  exact hall e task htask

/-! ## Queues -/

/-- A task stays in its queue until a worker takes it. -/
lemma Step.mem_tasks_or_taken (h : Step cfg s l s') (htask : task ∈ (s.pool e).tasks_) :
    task ∈ (s'.pool e).tasks_ ∨ l = .taken e task := by
  cases h with
  | reader _ _ h =>
    refine Or.inl ?_
    cases h with
    | handler capabilities =>
      rcases s.lifecycleEffect_eq capabilities _ l with ⟨_, _, _, _, heq⟩
      rw [heq]
      cases e <;> exact htask
    | @submit e' task' =>
      by_cases he : e = e'
      · subst he
        have hmem : task ∈ ((s.pool e).submit task').tasks_ := by
          unfold ThreadPool.submit
          split
          · exact htask
          · exact List.mem_append_left _ htask
        rw [← Server.pool_setPool s e ((s.pool e).submit task')] at hmem
        cases e <;> exact hmem
      · rw [← Server.pool_setPool_of_ne s e' ((s.pool e').submit task') he] at htask
        cases e <;> exact htask
    | @stop e' => cases e <;> cases e' <;> exact htask
    | _ => cases e <;> exact htask
  | worker e' _ _ h =>
    by_cases he : e = e'
    · subst he
      cases h with
      | @take task' rest htasks _ =>
        rw [htasks] at htask
        -- it is the task that is taken, or one behind it
        rcases List.mem_cons.mp htask with rfl | hrest
        · exact Or.inr rfl
        · rw [Server.pool_setPool]
          exact Or.inl hrest
      | _ => cases e <;> exact Or.inl htask
    · rw [h.pool_of_ne he]
      exact Or.inl htask
  | sender _ h =>
    rw [h.pool e]
    exact Or.inl htask

/-- A task that is submitted is queued. -/
lemma Step.mem_tasks_of_submitted (h : Step cfg s (.submitted e task) s') (hs : s.Phased) :
    task ∈ (s'.pool e).tasks_ := by
  rcases h.of_reader rfl with ⟨-, hreader⟩
  cases hreader with
  | submit hr =>
    have hopen : (s.pool e).stopping_ = false := hs.opened e (by rw [hr]; trivial)
    have hmem : task ∈ ((s.pool e).submit task).tasks_ := by
      simp [ThreadPool.submit, hopen]
    rw [← Server.pool_setPool s e ((s.pool e).submit task)] at hmem
    cases e <;> exact hmem
  | handler _ _ hstep | handlerFinishes _ hstep | handlerEscapes _ hstep => cases hstep

/-- A task that has been submitted and not been taken is in its queue. -/
theorem Runs.mem_tasks_of_submitted (h : Runs cfg ls s) (hmem : .submitted e task ∈ ls)
    (htaken : .taken e task ∉ ls) : task ∈ (s.pool e).tasks_ := by
  induction h with
  | nil => exact absurd hmem (by simp)
  | @snoc ls t u l hrun hstep ih =>
    have hbefore : .taken e task ∉ ls := fun h => htaken (List.mem_append_left _ h)
    rcases List.mem_append.mp hmem with hmem | hmem
    · rcases hstep.mem_tasks_or_taken (ih hmem hbefore) with hqueued | rfl
      · exact hqueued
      · exact absurd (by simp) htaken
    · have hl : l = .submitted e task := (List.mem_singleton.mp hmem).symm
      subst hl
      exact hstep.mem_tasks_of_submitted (Runs.phased hrun)

/-- Workers are only at tasks they have taken. -/
theorem Runs.taken_of_working (h : Runs cfg ls s) {running : Running}
    (hwork : (s.pool e).Working running) : .taken e running.task ∈ ls := by
  induction h generalizing running with
  | nil => cases e <;> exact absurd hwork (ThreadPool.not_working_create _)
  | @snoc ls t u l hrun hstep ih =>
    cases hstep with
    | reader _ _ h => exact List.mem_append_left _ (ih (h.working.mp hwork))
    | worker _ _ _ h =>
      cases h.advanced hwork with
      | taken _ hl =>
        rw [hl, Task.task_start]
        simp
      | same hwork' => exact List.mem_append_left _ (ih hwork')
      | handler hwork' | answered hwork' | notification hwork' | invoked hwork' =>
        have hbefore := ih hwork'
        exact List.mem_append_left _ hbefore
    | sender _ h => exact List.mem_append_left _ (ih (h.pool e ▸ hwork))

end Steps

end CLSP
