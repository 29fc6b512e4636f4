import CLSP.Server.Cancellation
import CLSP.Server.Scheduling

/-!
# What comes about

Where the scheduler is fair and the user's code returns every message is served: a task that is
queued is taken, a task that is taken is run to its end, and the read thread gets done with its
message. The rank in each case is what is left to do until then.
-/

namespace CLSP

open Transition

section Steps

variable {cfg : Config} {s s' : Server} {l : Label} {e : Executor} {w : ℕ}

/-! ## A task in a queue is taken -/

/-- The read thread only adds to the queues. -/
lemma ReaderStep.tasks_ (h : ReaderStep cfg s l s') (e : Executor) :
    ∃ more, (s'.pool e).tasks_ = (s.pool e).tasks_ ++ more := by
  cases h with
  | handler capabilities hr hstep =>
    rcases s.lifecycleEffect_eq capabilities _ l with ⟨_, _, _, _, heq⟩
    rw [heq]
    exact ⟨[], by cases e <;> simp [Server.pool]⟩
  | @submit e' task =>
    by_cases he : e = e'
    · subst he
      have hpool : ∃ more, ((s.pool e).submit task).tasks_ = (s.pool e).tasks_ ++ more := by
        unfold ThreadPool.submit
        split
        · exact ⟨[], by simp⟩
        · exact ⟨[task], rfl⟩
      rw [← Server.pool_setPool s e ((s.pool e).submit task)] at hpool
      cases e <;> exact hpool
    · have hpool := Server.pool_setPool_of_ne s e' ((s.pool e').submit task) he
      refine ⟨[], ?_⟩
      rw [List.append_nil, ← hpool]
      cases e <;> rfl
  | @stop e' =>
    refine ⟨[], ?_⟩
    rw [List.append_nil]
    cases e <;> cases e' <;> rfl
  | _ =>
    refine ⟨[], ?_⟩
    rw [List.append_nil]
    cases e <;> rfl

/-- `task` is in the queue, and `r` is left of the tasks up to it and of those of the workers. -/
def Server.Queued (e : Executor) (task : Task) (s : Server) (r : ℕ) : Prop :=
  s.terminated = false ∧ ∃ before after, (s.pool e).tasks_ = before ++ task :: after ∧
    r = s.work e (before ++ [task])

variable {task : Task} {r : ℕ} {t : Thread}

lemma Server.Queued.ne_nil (h : s.Queued e task r) : (s.pool e).tasks_ ≠ [] := by
  rcases h with ⟨-, before, after, htasks, -⟩
  rw [htasks]
  simp

/-- What the other threads do leaves a queued task where it is. -/
lemma Server.Queued.elsewhere (h : s.Queued e task r) (ht : ∀ w, t ≠ .worker e w)
    (hlive : s'.terminated = false) (hworkers : (s'.pool e).workers_ = (s.pool e).workers_)
    (htasks : ∃ more, (s'.pool e).tasks_ = (s.pool e).tasks_ ++ more) :
    Nearer cfg (Thread.worker e) (Server.Queued e task) s r (t, l) s' := by
  rcases h with ⟨-, before, after, hbefore, rfl⟩
  rcases htasks with ⟨more, hmore⟩
  have hqueued : s'.Queued e task (s.work e (before ++ [task])) := by
    refine ⟨hlive, before, after ++ more, ?_, ?_⟩
    · rw [hmore, hbefore]
      simp
    · unfold Server.work
      rw [hworkers]
  refine Or.inr ⟨hqueued, fun w henabled => ⟨fun hown => ht w hown.1, ?_⟩⟩
  have hup : s'.Up e w := by
    rcases up_of_enabled henabled with ⟨worker, hw, hne⟩
    exact ⟨worker, hworkers ▸ hw, hne⟩
  exact hup.enabled hlive (Or.inl hqueued.ne_nil)

/-- A worker of the pool works off the tasks before it, or takes it. -/
lemma Server.Queued.turn (h : s.Queued e task r) {taken : List Task} {old new : Worker Running}
    (hlive : s'.terminated = false) (hturn : Turn s l s' e w taken old new)
    (htaken : ∀ task ∈ taken, taken = [task] ∧ l = .taken e task ∧ new = .busy task.start) :
    Nearer cfg (Thread.worker e) (Server.Queued e task) s r (.worker e w, l) s' ∨
      (s'.pool e).workers_[w]? = some (.busy task.start) := by
  have hne := h.ne_nil
  rcases h with ⟨-, before, after, hbefore, rfl⟩
  have hsum := ThreadPool.sum_map_set Worker.work new hturn.worker
  rw [← hturn.workers] at hsum
  have hwork := hturn.work
  have htasks := hturn.tasks
  rw [hbefore] at htasks
  -- without a task taken the worker has less to do, unless it polls
  cases taken with
  | nil =>
    left
    have hqueued : s'.Queued e task (s'.work e (before ++ [task])) :=
      ⟨hlive, before, after, htasks.symm, rfl⟩
    have hle : s'.work e (before ++ [task]) + l.promised.toNat ≤ s.work e (before ++ [task]) := by
      unfold Server.work
      simp only [List.map_nil, List.sum_nil] at hwork
      omega
    rcases (Nat.le_of_add_right_le hle).lt_or_eq with hlt | heq
    · exact Or.inl ⟨_, hlt, hqueued⟩
    · -- it polls a token
      have hpoll : l.promised = false := by
        cases hl : l.promised
        · rfl
        · rw [hl, heq] at hle
          exact absurd hle (Nat.not_succ_le_self _)
      refine Or.inr ⟨heq ▸ hqueued, fun w' henabled => ⟨fun hown => ?_, ?_⟩⟩
      · exact absurd hown.2.2 (by simp [hpoll])
      · refine Server.Up.enabled hlive ?_ (Or.inl hqueued.ne_nil)
        rcases up_of_enabled henabled with ⟨worker, hw', hworker⟩
        unfold Server.Up
        rw [hturn.workers]
        by_cases hww : w = w'
        · subst hww
          have hlt := (List.getElem?_eq_some_iff.mp hw').1
          exact ⟨new, List.getElem?_set_self hlt, fun hexit => hne (hturn.exits hexit)⟩
        · rw [List.getElem?_set_ne hww]
          exact ⟨worker, hw', hworker⟩
  | cons first rest =>
    rcases htaken first (by simp) with ⟨hone, rfl, rfl⟩
    rcases List.cons.inj hone with ⟨-, rfl⟩
    -- the queue is first in, first out: the task itself is taken, or one before it
    cases before with
    | nil =>
      right
      rcases List.cons.inj htasks with ⟨rfl, -⟩
      rw [hturn.workers]
      exact List.getElem?_set_self (List.getElem?_eq_some_iff.mp hturn.worker).1
    | cons first' before =>
      rcases List.cons.inj htasks with ⟨rfl, hrest⟩
      refine Or.inl (Or.inl ⟨s'.work e (before ++ [task]), ?_, hlive, ?_⟩)
      swap
      · exact ⟨before, after, hrest.symm, rfl⟩
      unfold Server.work
      simp only [List.cons_append, List.map_cons, List.map_nil, List.sum_cons, List.sum_nil,
        Label.promised, Bool.toNat_true] at hwork ⊢
      omega

lemma Server.Queued.step (h : s.Queued e task r) (hstep : ThreadStep cfg s l s' t) :
    Nearer cfg (Thread.worker e) (Server.Queued e task) s r (t, l) s' ∨
      s'.terminated = true ∨ ∃ w, t = .worker e w ∧
        (s'.pool e).workers_[w]? = some (.busy task.start) := by
  rcases Bool.eq_false_or_eq_true s'.terminated with hdead | hlive
  · exact Or.inr (Or.inl hdead)
  cases hstep with
  | reader _ _ hstep =>
    exact Or.inl (h.elsewhere nofun hlive (hstep.workers_ e) (hstep.tasks_ e))
  | sender _ _ hstep | notifier _ hstep =>
    have hpool := hstep.pool e
    exact Or.inl (h.elsewhere nofun hlive (congrArg _ hpool) ⟨[], by simp [hpool]⟩)
  | worker e' w _ hstep =>
    by_cases he : e = e'
    · subst he
      rcases hstep.turn with rfl | ⟨taken, old, new, hturn, htaken⟩
      · exact absurd hlive (by simp)
      · rcases h.turn hlive hturn htaken with hdescends | hstarted
        · exact Or.inl hdescends
        · exact Or.inr (Or.inr ⟨w, rfl, hstarted⟩)
    · have hpool := hstep.pool_of_ne he
      refine Or.inl (h.elsewhere ?_ hlive (congrArg _ hpool) ⟨[], by simp [hpool]⟩)
      rintro w' heq
      exact he (Thread.worker.inj heq).1.symm

/-- A task that is queued is taken sooner or later. -/
theorem task_taken (x : Execution (Threads cfg)) (hfair : ∀ w, x.Fair (Thread.worker e w).Own)
    {n : ℕ} (hlive : (x.state n).terminated = false) (htask : task ∈ ((x.state n).pool e).tasks_) :
    ∃ m ≥ n, (x.state (m + 1)).terminated = true ∨
      ∃ w : ℕ, ((x.state (m + 1)).pool e).workers_[w]? = some (.busy task.start) := by
  rcases List.append_of_mem htask with ⟨before, after, hbefore⟩
  have hqueued : (x.state n).Queued e task _ := ⟨hlive, before, after, hbefore, rfl⟩
  have hreached := x.response (fun w => (Thread.worker e w).Own)
    (fun s w => Enabled (Threads cfg) (Thread.worker e w).Own s) (Server.Queued e task)
    (fun l s => s.terminated = true ∨ ∃ w : ℕ, l.1 = .worker e w ∧
      (s.pool e).workers_[w]? = some (.busy task.start)) hfair (fun _ _ _ _ h => h) ?_ ?_ hqueued
  · rcases hreached with ⟨m, hm, l, -, hdead | ⟨w, -, hw⟩⟩
    · exact ⟨m, hm, Or.inl hdead⟩
    · exact ⟨m, hm, Or.inr ⟨w, hw⟩⟩
  · intro s r hqueued
    rcases exists_up fun hjoined => hqueued.ne_nil hjoined.tasks_eq_nil with ⟨w, hup⟩
    exact ⟨w, hup.enabled hqueued.1 (Or.inl hqueued.ne_nil)⟩
  · intro s r l s' hqueued hstep
    exact hqueued.step hstep

/-! ## A task that is taken is served -/

/-- The label that serves a task, and what its worker is at then: the answer to a request, the end
of a notification handler, the call of a callback. -/
inductive Served : Task → Label → Worker Running → Prop
  | request (call : RequestCall) (reply : Reply) :
      Served (.request call) (.sent (reply.frame call.id)) (.busy (.erasing call))
  | notification (call : NotificationCall) (outcome : Option Exn) :
      Served (.notification call) (.notificationEnded call outcome) .idle
  | callback (cb : ResponseCallback) (payload : Json) (isError : Bool) :
      Served (.callback cb payload isError) (.callbackInvoked cb.call payload isError)
        (.busy (.invoked cb payload isError))

def Running.isServed : Running → Bool
  | .erasing _ => true
  | .invoked _ _ _ => true
  | _ => false

lemma Task.isServed_start (task : Task) : task.start.isServed = false := by
  cases task <;> rfl

/-- A worker that is at a task goes on in it, serves it, or ends the process. -/
lemma WorkerStep.serves (h : WorkerStep cfg e w s l s') {running : Running}
    (hw : (s.pool e).workers_[w]? = some (.busy running)) (hrunning : running.isServed = false) :
    (∃ running', (s'.pool e).workers_[w]? = some (.busy running') ∧
        running'.task = running.task ∧ running'.isServed = false ∧
        running'.work + l.promised.toNat ≤ running.work) ∨
      s'.terminated = true ∨
      ∃ new, Served running.task l new ∧ (s'.pool e).workers_[w]? = some new := by
  have hlt : w < (s.pool e).workers_.length := (List.getElem?_eq_some_iff.mp hw).1
  have hset : ∀ worker, ((s.pool e).workers_.set w worker)[w]? = some worker :=
    fun worker => List.getElem?_set_self hlt
  have hat : ∀ {worker : Worker Running}, (s.pool e).workers_[w]? = some worker →
      worker = .busy running := fun hw' => Option.some.inj (hw'.symm.trans hw)
  cases h with
  | take _ hw' | exit _ hw' => exact absurd (hat hw') (by simp)
  | @handler call pc pc' _ hw' hstep =>
    obtain rfl := Worker.busy.inj (hat hw')
    have hwork := hstep.work
    refine Or.inl ⟨.request call pc', ?_, rfl, rfl, ?_⟩
    · rw [Server.pool_setPool]
      exact hset _
    · show pc'.work + 2 + _ ≤ pc.work + 2
      omega
  | handlerFinishes hw' hstep =>
    obtain rfl := Worker.busy.inj (hat hw')
    cases hstep with
    | send =>
      refine Or.inr (Or.inr ⟨_, .request _ _, ?_⟩)
      rw [Server.pool_setPool]
      exact hset _
  -- the answer has been sent by then
  | eraseToken hw' =>
    obtain rfl := Worker.busy.inj (hat hw')
    exact absurd hrunning (by simp [Running.isServed])
  | @notification call pc pc' _ _ hw' hstep =>
    obtain rfl := Worker.busy.inj (hat hw')
    have hwork := hstep.work
    refine Or.inl ⟨.notification call pc', ?_, rfl, rfl, ?_⟩
    · cases e <;> exact hset _
    · show pc'.work + 1 + _ ≤ pc.work + 1
      omega
  | notificationFinishes hw' hstep =>
    obtain rfl := Worker.busy.inj (hat hw')
    have hidle : ((s.setPool e ((s.pool e).finish w)).pool e).workers_[w]? = some .idle := by
      rw [Server.pool_setPool]
      exact hset _
    cases hstep with
    | decodeThrows | noHook | returns | throws =>
      refine Or.inr (Or.inr ⟨_, .notification _ _, ?_⟩)
      cases e <;> exact hidle
  | @invoke cb payload isError hw' =>
    obtain rfl := Worker.busy.inj (hat hw')
    refine Or.inr (Or.inr ⟨_, .callback cb payload isError, ?_⟩)
    rw [Server.pool_setPool]
    exact hset _
  | callbackFinishes hw' =>
    obtain rfl := Worker.busy.inj (hat hw')
    exact absurd hrunning (by simp [Running.isServed])
  | handlerEscapes | notificationEscapes | callbackEscapes => exact Or.inr (Or.inl rfl)

/-- The other threads leave a worker where it is. -/
lemma ThreadStep.workers_of_ne (h : ThreadStep cfg s l s' t) (ht : t ≠ .worker e w) :
    (s'.pool e).workers_[w]? = (s.pool e).workers_[w]? := by
  cases h with
  | reader _ _ h => rw [h.workers_ e]
  | sender _ _ h | notifier _ h => rw [h.pool e]
  | worker e' w' _ h =>
    by_cases he : e = e'
    · subst he
      have hne : w' ≠ w := fun hw => ht (hw ▸ rfl)
      rcases h.turn with rfl | ⟨taken, old, new, hturn, -⟩
      · cases e <;> rfl
      · rw [hturn.workers, List.getElem?_set_ne hne]
    · rw [h.pool_of_ne he]

/-- Worker `w` is at `task`, which has not been served. -/
def Server.Serving (e : Executor) (w : ℕ) (task : Task) (s : Server) (r : ℕ) : Prop :=
  s.terminated = false ∧ ∃ running, (s.pool e).workers_[w]? = some (.busy running) ∧
    running.task = task ∧ running.isServed = false ∧ r = running.work

lemma Server.Serving.enabled (h : s.Serving e w task r) :
    Enabled (Threads cfg) (Thread.worker e w).Own s := by
  rcases h with ⟨hlive, running, hw, -, -, -⟩
  rcases WorkerStep.possible cfg hw with ⟨l, s', hl, hstep⟩
  exact ⟨(_, l), s', ⟨rfl, rfl, hl⟩, .worker e w hlive hstep⟩

lemma Server.Serving.step (h : s.Serving e w task r) (hstep : ThreadStep cfg s l s' t) :
    Nearer cfg (fun _ : Unit => .worker e w) (Server.Serving e w task) s r (t, l) s' ∨
      s'.terminated = true ∨ t = .worker e w ∧
        ∃ new, Served task l new ∧ (s'.pool e).workers_[w]? = some new := by
  rcases Bool.eq_false_or_eq_true s'.terminated with hdead | hlive
  · exact Or.inr (Or.inl hdead)
  rcases h with ⟨-, running, hw, rfl, hrunning, rfl⟩
  have hsame : ∀ {running' : Running}, (s'.pool e).workers_[w]? = some (.busy running') →
      running'.task = running.task → running'.isServed = false →
      running'.work = running.work → ¬ (Thread.worker e w).Own s (t, l) s' →
      Nearer cfg (fun _ : Unit => .worker e w) (Server.Serving e w running.task) s running.work
        (t, l) s' := by
    intro running' hw' htask hserved hwork hown
    have hserving : s'.Serving e w running.task running.work :=
      ⟨hlive, running', hw', htask, hserved, hwork.symm⟩
    exact Or.inr ⟨hserving, fun _ _ => ⟨hown, hserving.enabled⟩⟩
  by_cases ht : t = .worker e w
  · subst ht
    cases hstep with
    | worker _ _ _ hstep =>
      rcases hstep.serves hw hrunning with ⟨running', hw', htask, hserved, hwork⟩ | hends
      · rcases (Nat.le_of_add_right_le hwork).lt_or_eq with hlt | heq
        · exact Or.inl (Or.inl ⟨_, hlt, hlive, running', hw', htask, hserved, rfl⟩)
        · refine Or.inl (hsame hw' htask hserved heq fun hown => ?_)
          have hone : l.promised.toNat = 1 := by rw [hown.2.2]; rfl
          omega
      · rcases hends with hdead | hserved
        · exact Or.inr (Or.inl hdead)
        · exact Or.inr (Or.inr ⟨rfl, hserved⟩)
  · refine Or.inl (hsame ?_ rfl hrunning rfl fun hown => ht hown.1)
    rw [hstep.workers_of_ne ht, hw]

/-- A worker serves the task it is at sooner or later. -/
lemma task_finished (x : Execution (Threads cfg)) (hfair : x.Fair (Thread.worker e w).Own) {n : ℕ}
    (hserving : (x.state n).Serving e w task r) :
    ∃ m ≥ n, (x.state (m + 1)).terminated = true ∨
      ∃ l new, x.label m = some (.worker e w, l) ∧ Served task l new ∧
        ((x.state (m + 1)).pool e).workers_[w]? = some new := by
  have hreached := x.response (fun _ : Unit => (Thread.worker e w).Own)
    (fun s _ => Enabled (Threads cfg) (Thread.worker e w).Own s) (Server.Serving e w task)
    (fun l s => s.terminated = true ∨ l.1 = .worker e w ∧
      ∃ new, Served task l.2 new ∧ (s.pool e).workers_[w]? = some new)
    (fun _ => hfair) (fun _ _ _ _ h => h) (fun _ _ hserving => ⟨(), hserving.enabled⟩)
    (fun _ _ _ _ hserving hstep => hserving.step hstep) hserving
  rcases hreached with ⟨m, hm, ⟨_, l⟩, hl, hdead | ⟨rfl, new, hserved, hw⟩⟩
  · exact ⟨m, hm, Or.inl hdead⟩
  · exact ⟨m, hm, Or.inr ⟨l, new, hl, hserved, hw⟩⟩

/-- A task that is queued is served sooner or later. -/
theorem task_served (x : Execution (Threads cfg)) (hfair : ∀ t : Thread, x.Fair t.Own) {n : ℕ}
    (hlive : (x.state n).terminated = false) (htask : task ∈ ((x.state n).pool e).tasks_) :
    ∃ m ≥ n, (x.state (m + 1)).terminated = true ∨
      ∃ w l new, x.label m = some (.worker e w, l) ∧ Served task l new ∧
        ((x.state (m + 1)).pool e).workers_[w]? = some new := by
  rcases task_taken x (fun w => hfair _) hlive htask with ⟨m, hm, hdead | ⟨w, hw⟩⟩
  · exact ⟨m, hm, Or.inl hdead⟩
  · rcases Bool.eq_false_or_eq_true (x.state (m + 1)).terminated with hdead | hlive'
    · exact ⟨m, hm, Or.inl hdead⟩
    · have hserving : (x.state (m + 1)).Serving e w task task.start.work :=
        ⟨hlive', _, hw, task.task_start, task.isServed_start, rfl⟩
      rcases task_finished x (hfair _) hserving with ⟨k, hk, hdead | ⟨l, new, hl, hserved, hnew⟩⟩
      · exact ⟨k, by omega, Or.inl hdead⟩
      · exact ⟨k, by omega, Or.inr ⟨w, l, new, hl, hserved, hnew⟩⟩

/-! ## The read thread gets on -/

/-- The read thread has read `m` messages and is in one of the places `A`. -/
def Server.Reading (A : ReaderPc → Prop) (m : ℕ) (s : Server) (r : ℕ) : Prop :=
  s.terminated = false ∧ s.threw = false ∧ s.messagesRead = m ∧ A s.reader ∧ r = s.reader.work

/-- What the read thread does at one of the places `A`: it stays at them, with less to do unless it
polls, or does `Q`. -/
def GoesOn (cfg : Config) (A : ReaderPc → Prop) (Q : Label → Server → Prop) : Prop :=
  ∀ s l s', ReaderStep cfg s l s' → A s.reader → s.threw = false →
    (A s'.reader ∧ s'.threw = false ∧ s'.messagesRead = s.messagesRead ∧
      s'.reader.work + l.promised.toNat ≤ s.reader.work) ∨
    (Q l s' ∧ s'.messagesRead = s.messagesRead)

lemma ThreadStep.reader_of_ne (h : ThreadStep cfg s l s' t) (ht : t ≠ .reader) :
    s'.reader = s.reader ∧ s'.threw = s.threw ∧ s'.messagesRead = s.messagesRead := by
  cases h with
  | reader => exact absurd rfl ht
  | worker _ _ _ h => exact ⟨h.control.1, h.control.2.1, h.control.2.2.1⟩
  | sender _ _ h | notifier _ h =>
    rcases h.frame with ⟨_, _, _, rfl⟩
    exact ⟨rfl, rfl, rfl⟩

section Reading

variable {A : ReaderPc → Prop} {Q : Label → Server → Prop} {m : ℕ}

lemma Server.Reading.enabled (hactive : ∀ pc, A pc → pc.active = true) (h : s.Reading A m r) :
    Enabled (Threads cfg) Thread.reader.Own s := by
  rcases ReaderStep.possible cfg (hactive _ h.2.2.2.1) with ⟨l, s', hl, hstep⟩
  exact ⟨(.reader, l), s', ⟨rfl, rfl, hl⟩, .reader h.1 h.2.1 hstep⟩

lemma Server.Reading.step (hactive : ∀ pc, A pc → pc.active = true) (hon : GoesOn cfg A Q)
    (h : s.Reading A m r) (hstep : ThreadStep cfg s l s' t) :
    Nearer cfg (fun _ : Unit => .reader) (Server.Reading A m) s r (t, l) s' ∨
      s'.terminated = true ∨ t = .reader ∧ Q l s' ∧ s'.messagesRead = m := by
  rcases Bool.eq_false_or_eq_true s'.terminated with hdead | hlive
  · exact Or.inr (Or.inl hdead)
  rcases h with ⟨-, hthrew, hm, hA, rfl⟩
  have hsame : s'.Reading A m s.reader.work → ¬ Thread.reader.Own s (t, l) s' →
      Nearer cfg (fun _ : Unit => .reader) (Server.Reading A m) s s.reader.work (t, l) s' :=
    fun hreading hown => Or.inr ⟨hreading, fun _ _ => ⟨hown, hreading.enabled hactive⟩⟩
  by_cases ht : t = .reader
  · subst ht
    cases hstep with
    | reader _ _ hstep =>
      rcases hon s l s' hstep hA hthrew with ⟨hA', hthrew', hm', hwork⟩ | ⟨hQ, hm'⟩
      · rcases (Nat.le_of_add_right_le hwork).lt_or_eq with hlt | heq
        · exact Or.inl (Or.inl ⟨_, hlt, hlive, hthrew', hm'.trans hm, hA', rfl⟩)
        · refine Or.inl (hsame ⟨hlive, hthrew', hm'.trans hm, hA', heq.symm⟩ fun hown => ?_)
          have hone : l.promised.toNat = 1 := by rw [hown.2.2]; rfl
          omega
      · exact Or.inr (Or.inr ⟨rfl, hQ, hm'.trans hm⟩)
  · rcases hstep.reader_of_ne ht with ⟨hreader, hthrew', hm'⟩
    refine Or.inl (hsame ⟨hlive, hthrew'.trans hthrew, hm'.trans hm, ?_, ?_⟩ fun hown => ht hown.1)
    · rwa [hreader]
    · rw [hreader]

/-- The read thread does `Q` sooner or later. -/
lemma reader_serves (x : Execution (Threads cfg)) (hfair : x.Fair Thread.reader.Own)
    (hactive : ∀ pc, A pc → pc.active = true) (hon : GoesOn cfg A Q) {n : ℕ}
    (hreading : (x.state n).Reading A m r) :
    ∃ k ≥ n, (x.state (k + 1)).terminated = true ∨
      ∃ l, x.label k = some (.reader, l) ∧ Q l (x.state (k + 1)) ∧
        (x.state (k + 1)).messagesRead = m := by
  have hreached := x.response (fun _ : Unit => Thread.reader.Own)
    (fun s _ => Enabled (Threads cfg) Thread.reader.Own s) (Server.Reading A m)
    (fun l s => s.terminated = true ∨ l.1 = .reader ∧ Q l.2 s ∧ s.messagesRead = m)
    (fun _ => hfair) (fun _ _ _ _ h => h) (fun _ _ h => ⟨(), h.enabled hactive⟩)
    (fun _ _ _ _ h hstep => h.step hactive hon hstep) hreading
  rcases hreached with ⟨k, hk, ⟨_, l⟩, hl, hdead | ⟨rfl, hQ, hm⟩⟩
  · exact ⟨k, hk, Or.inl hdead⟩
  · exact ⟨k, hk, Or.inr ⟨l, hl, hQ, hm⟩⟩

end Reading

/-- The read thread sends a rejection, or an exception of `dump` leaves `run`. -/
lemma goesOn_sending (frame : Frame) :
    GoesOn cfg (· = .sending frame) fun l s => l = .sent frame ∨ s.threw = true := by
  intro s l s' hstep hr _
  rcases hstep.sending_inv hr with ⟨-, rfl, rfl⟩ | ⟨-, -, rfl⟩
  · exact Or.inr ⟨Or.inl rfl, rfl⟩
  · exact Or.inr ⟨Or.inr rfl, rfl⟩

/-- It runs a lifecycle handler to its answer, or an exception leaves `run`. -/
lemma goesOn_inline (call : RequestCall) :
    GoesOn cfg (fun pc => ∃ handlerPc, pc = .inline call handlerPc) fun l s =>
      (∃ reply : Reply, l = .sent (reply.frame call.id)) ∨ s.threw = true := by
  rintro s l s' hstep ⟨pc, hr⟩ hthrew
  rcases hstep.inline_inv hr with ⟨p, hhandler, hp⟩
  cases p with
  | next pc' =>
    rcases hp with ⟨capabilities, rfl⟩
    have hwork := hhandler.work
    rcases s.lifecycleEffect_eq capabilities call.handler l with ⟨_, _, _, _, heq⟩
    rw [heq, hr]
    exact Or.inl ⟨⟨pc', rfl⟩, hthrew, rfl, hwork⟩
  | finished =>
    obtain rfl := hp
    cases hhandler with
    | send => exact Or.inr ⟨Or.inl ⟨_, rfl⟩, rfl⟩
  | escaped =>
    obtain rfl := hp
    exact Or.inr ⟨Or.inr rfl, rfl⟩

/-- It submits the task it has got. -/
lemma goesOn_submitting (task : Task) :
    GoesOn cfg (fun pc => pc.task? = some (e, task)) fun l _ => l = .submitted e task := by
  intro s l s' hstep htask hthrew
  cases hstep with
  | insertToken hr =>
    rw [hr] at htask
    refine Or.inl ⟨htask, hthrew, rfl, ?_⟩
    rw [hr]
    exact le_refl 2
  | submit hr =>
    rw [hr] at htask
    rcases Prod.mk.inj (Option.some.inj htask) with ⟨rfl, rfl⟩
    exact Or.inr ⟨rfl, by simp⟩
  | read _ hr | parseThrows _ hr | endOfInput hr | leave hr | send hr | sendThrows hr
  | handler _ hr | handlerFinishes hr | handlerEscapes hr | cancel hr | notified hr
  | notifyEscapes hr | exited hr | exitThrows _ hr | unmatched hr | matched hr | stop hr
  | joinSync hr | joinWorkers hr => simp [hr, ReaderPc.task?] at htask

/-- It handles the notification. -/
lemma goesOn_notifying (call : NotificationCall) :
    GoesOn cfg (· = .notifying call) fun l _ => ∃ outcome, l = .notificationEnded call outcome := by
  intro s l s' hstep hr _
  cases hstep with
  | notified hr' | notifyEscapes hr' =>
    rw [ReaderPc.notifying.inj (hr'.symm.trans hr)]
    exact Or.inr ⟨⟨_, rfl⟩, rfl⟩
  | read _ hr' | parseThrows _ hr' | endOfInput hr' | leave hr' | send hr' | sendThrows hr'
  | handler _ hr' | handlerFinishes hr' | handlerEscapes hr' | insertToken hr' | submit hr'
  | cancel hr' | exited hr' | exitThrows _ hr' | unmatched hr' | matched hr' | stop hr'
  | joinSync hr' | joinWorkers hr' => exact absurd (hr'.symm.trans hr) (by simp)

lemma goesOn_exiting :
    GoesOn cfg (· = .exiting) fun l _ => ∃ outcome, l = .exitEnded outcome := by
  intro s l s' hstep hr _
  cases hstep with
  | exited | exitThrows => exact Or.inr ⟨⟨_, rfl⟩, rfl⟩
  | read _ hr' | parseThrows _ hr' | endOfInput hr' | leave hr' | send hr' | sendThrows hr'
  | handler _ hr' | handlerFinishes hr' | handlerEscapes hr' | insertToken hr' | submit hr'
  | cancel hr' | notified hr' | notifyEscapes hr' | unmatched hr' | matched hr' | stop hr'
  | joinSync hr' | joinWorkers hr' => exact absurd (hr'.symm.trans hr) (by simp)

lemma goesOn_cancelling (id : RequestId) :
    GoesOn cfg (· = .cancelling id) fun l _ => l = .cancelled id := by
  intro s l s' hstep hr _
  cases hstep with
  | cancel hr' =>
    rw [ReaderPc.cancelling.inj (hr'.symm.trans hr)]
    exact Or.inr ⟨rfl, rfl⟩
  | read _ hr' | parseThrows _ hr' | endOfInput hr' | leave hr' | send hr' | sendThrows hr'
  | handler _ hr' | handlerFinishes hr' | handlerEscapes hr' | insertToken hr' | submit hr'
  | notified hr' | notifyEscapes hr' | exited hr' | exitThrows _ hr' | unmatched hr' | matched hr'
  | stop hr' | joinSync hr' | joinWorkers hr' => exact absurd (hr'.symm.trans hr) (by simp)

/-! ## The scheduler and the user -/

/-- The read thread leaves the user's code by a step of its own. -/
lemma ReaderStep.leaves (h : ReaderStep cfg s l s') (hthrew : s.threw = false)
    (hr : s.reader.inUserCode = true) :
    (s'.reader.inUserCode = true ∧ s'.threw = false) ∨ l.promised = true := by
  cases h with
  | @handler call pc pc' _ capabilities hr' hstep =>
    cases hstep with
    | poll =>
      rcases s.lifecycleEffect_eq capabilities call.handler (.polled call (s.flag call)) with
        ⟨_, _, _, _, heq⟩
      rw [heq]
      exact Or.inl ⟨rfl, hthrew⟩
    | _ => exact Or.inr rfl
  | handlerFinishes _ hstep | handlerEscapes _ hstep => cases hstep <;> exact Or.inr rfl
  | read _ hr' | parseThrows _ hr' | endOfInput hr' => simp [hr', ReaderPc.inUserCode] at hr
  | _ => exact Or.inr rfl

lemma Server.InUserCode.step (h : s.InUserCode t) {t' : Thread}
    (hstep : ThreadStep cfg s l s' t') :
    s'.InUserCode t ∨ t.Own s (t', l) s' ∨ ¬ Enabled (Threads cfg) t.Own s' := by
  rcases Bool.eq_false_or_eq_true s'.terminated with hdead | hlive'
  · refine Or.inr (Or.inr ?_)
    rintro ⟨_, _, -, hnext⟩
    exact absurd hdead (by simp [(ThreadStep.step hnext).live])
  cases t with
  | reader =>
    rcases h with ⟨-, hthrew, hr⟩
    by_cases ht : t' = .reader
    · subst ht
      cases hstep with
      | reader _ _ hstep =>
        rcases hstep.leaves hthrew hr with ⟨hr', hthrew'⟩ | hl
        · exact Or.inl ⟨hlive', hthrew', hr'⟩
        · exact Or.inr (Or.inl ⟨rfl, rfl, hl⟩)
    · rcases hstep.reader_of_ne ht with ⟨hreader, hthrew', -⟩
      exact Or.inl ⟨hlive', hthrew'.trans hthrew, hreader ▸ hr⟩
  | worker e w =>
    rcases h with ⟨-, running, hw, hrunning⟩
    by_cases ht : t' = .worker e w
    · subst ht
      cases hl : l.promised with
      | true => exact Or.inr (Or.inl ⟨rfl, rfl, hl⟩)
      | false =>
        cases hstep with
        | worker _ _ _ hstep =>
          -- it polls its token
          rw [hstep.eq_of_polls hl] at hlive' ⊢
          exact Or.inl ⟨hlive', running, hw, hrunning⟩
    · exact Or.inl ⟨hlive', running, (hstep.workers_of_ne ht).trans hw, hrunning⟩
  | sender | notifier => exact h.elim

/-- Where the scheduler is fair and the user's code returns every thread gets on. -/
theorem fair_of_scheduled {x : Execution (Threads cfg)} (hscheduled : x.Fair t.Scheduled)
    (hreturns : UserCodeReturns x) : x.Fair t.Own := by
  refine x.fair_of_leaves (fun s => s.InUserCode t) hscheduled (fun _ _ _ h => h.1) ?_
    (hreturns t) fun _ _ _ h hstep => h.step hstep
  intro s l s' hown
  by_cases huser : s.InUserCode t
  · exact Or.inl huser
  · exact Or.inr ⟨hown, huser⟩

/-! ## Every message is served -/

lemma threads_phased (x : Execution (Threads cfg)) (hstart : x.state 0 = .start cfg) (n : ℕ) :
    (x.state n).Phased := by
  refine x.invariant (I := Server.Phased) ?_ (fun _ _ _ hs hstep => hstep.step.phased hs) n
  rw [hstart]
  exact phased_start cfg

/-- A task that the read thread has got is served sooner or later. -/
theorem reader_task_served (x : Execution (Threads cfg)) (hstart : x.state 0 = .start cfg)
    (hfair : ∀ t : Thread, x.Fair t.Own) {n : ℕ} (hlive : (x.state n).terminated = false)
    (hthrew : (x.state n).threw = false) (htask : (x.state n).reader.task? = some (e, task)) :
    ∃ k ≥ n, (x.state (k + 1)).terminated = true ∨
      ∃ w l new, x.label k = some (.worker e w, l) ∧ Served task l new ∧
        ((x.state (k + 1)).pool e).workers_[w]? = some new := by
  have hreading : (x.state n).Reading (fun pc => pc.task? = some (e, task))
      (x.state n).messagesRead (x.state n).reader.work := ⟨hlive, hthrew, rfl, htask, rfl⟩
  have hactive : ∀ pc : ReaderPc, pc.task? = some (e, task) → pc.active = true := by
    intro pc hpc
    cases pc <;> first | rfl | simp [ReaderPc.task?] at hpc
  -- first it is submitted, then a worker takes it
  rcases reader_serves x (hfair _) hactive (goesOn_submitting task) hreading with
    ⟨k, hk, hdead | ⟨l, hl, rfl, -⟩⟩
  · exact ⟨k, hk, Or.inl hdead⟩
  · rcases Bool.eq_false_or_eq_true (x.state (k + 1)).terminated with hdead | hlive'
    · exact ⟨k, hk, Or.inl hdead⟩
    · have hqueued := (x.steps k _ hl).step.mem_tasks_of_submitted (threads_phased x hstart k)
      rcases task_served x hfair hlive' hqueued with ⟨k', hk', hserved⟩
      exact ⟨k', by omega, hserved⟩

/-- The process has been terminated, or an exception has left `run` at its `m`-th message. -/
def Server.Failed (s : Server) (m : ℕ) : Prop :=
  s.terminated = true ∨ s.threw = true ∧ s.messagesRead = m + 1

/-- The requests of the methods that the read thread handles itself. -/
def HandledAtOnce (method : Bytes) : Prop :=
  method = str "initialize" ∨ method = str "shutdown"

/-- The answer to request `req`, message number `m`, which has been read in state `state`. The read
thread has it as its last message, and refuses it or handles it itself; a worker is at its task. -/
inductive Replied (cfg : Config) (state : ServerState) (req : ParsedRequest) (m : ℕ) (s : Server) :
    Thread × Label → Prop
  | byReader {frame : Frame} : frame.answers = some req.id → s.messagesRead = m + 1 →
      (Accepts state req.method → cfg.requestHandler req.method = none ∨
        HandledAtOnce req.method) →
      Replied cfg state req m s (.reader, .sent frame)
  | byWorker {w : ℕ} {call : RequestCall} {frame : Frame} : frame.answers = some req.id →
      call.serial = m → call.id = req.id → call.method = req.method → call.params = req.params →
      Accepts state req.method → ¬ HandledAtOnce req.method →
      s.workerPool_.workers_[w]? = some (.busy (.erasing call)) →
      Replied cfg state req m s (.worker .worker w, .sent frame)

/-- The thread that the notifications of a method are handled by. -/
inductive HandledBy (method : Bytes) : Thread → Prop
  | reader : isInlineNotification method = true → HandledBy method .reader
  | sync (w : ℕ) : isInlineNotification method = false → isSyncNotification method = true →
      HandledBy method (.worker .sync w)
  | worker (w : ℕ) : isInlineNotification method = false → isSyncNotification method = false →
      HandledBy method (.worker .worker w)

/-- No message is left lying. -/
structure MessagesServed (cfg : Config) (x : Execution (Threads cfg)) : Prop where
  request : ∀ n m body req, x.label n = some (.reader, .read m body (.request req)) →
    ∃ k > n, (x.state (k + 1)).Failed m ∨
      ∃ l ∈ x.label k, Replied cfg (x.state n).state_ req m (x.state (k + 1)) l
  invalid : ∀ n m body err, x.label n = some (.reader, .read m body (.error err)) →
    ∃ k > n, (x.state (k + 1)).Failed m ∨
      x.label k = some (.reader, .sent (.errorNull err.code err.message))
  notification : ∀ n m body notif handler,
    x.label n = some (.reader, .read m body (.notification notif)) →
    (x.state n).state_ ≠ .Uninitialized → notif.method ≠ str "exit" →
    cfg.notificationHandler notif.method = some handler → handler ≠ .cancelRequest →
    ∃ k > n, (x.state (k + 1)).terminated = true ∨ ∃ t outcome, HandledBy notif.method t ∧
      x.label k = some (t, .notificationEnded (notif.call m handler) outcome)
  cancel : ∀ n m body notif id, x.label n = some (.reader, .read m body (.notification notif)) →
    (x.state n).state_ ≠ .Uninitialized → notif.Cancels id →
    str "$/cancelRequest" ∉ cfg.userNotifications →
    ∃ k > n, (x.state (k + 1)).terminated = true ∨ x.label k = some (.reader, .cancelled id)
  exit : ∀ n m body notif, x.label n = some (.reader, .read m body (.notification notif)) →
    notif.method = str "exit" → ∃ k > n, (x.state (k + 1)).terminated = true ∨
      ∃ outcome, x.label k = some (.reader, .exitEnded outcome)
  response : ∀ n resp id cb, x.label n = some (.reader, .responseTaken resp id (some cb)) →
    ∃ k > n, (x.state (k + 1)).terminated = true ∨ ∃ w,
      x.label k = some (.worker .worker w, .callbackInvoked cb.call resp.payload resp.isError)

section Served

variable {x : Execution (Threads cfg)} {n m : ℕ} {body : Bytes}

lemma ReaderStep.read_live {msg : ParsedMessage}
    (hl : x.label n = some (.reader, .read m body msg)) :
    (x.state (n + 1)).terminated = false ∧ (x.state (n + 1)).threw = false ∧
      (x.state n).messagesRead = m ∧ x.state (n + 1) = (x.state n).read
        (dispatch cfg (x.state n).state_ m (x.state n).flags.length msg) := by
  have hstep := (x.steps n _ hl).step
  have hm := hstep.serial_of_read
  have hlive := hstep.live
  rcases hstep.read_inv with ⟨-, hthrew, -, -, hnext⟩
  rw [← hm] at hnext
  refine ⟨?_, ?_, hm.symm, hnext⟩
  · rw [hnext]
    exact hlive
  · rw [hnext]
    exact hthrew

lemma isLifecycleRequest_iff {method : Bytes} :
    isLifecycleRequest method = true ↔ HandledAtOnce method := by
  simp [isLifecycleRequest, HandledAtOnce]

lemma request_served (hstart : x.state 0 = .start cfg) (hfair : ∀ t : Thread, x.Fair t.Own)
    {req : ParsedRequest} (hl : x.label n = some (.reader, .read m body (.request req))) :
    ∃ k > n, (x.state (k + 1)).Failed m ∨
      ∃ l ∈ x.label k, Replied cfg (x.state n).state_ req m (x.state (k + 1)) l := by
  rcases ReaderStep.read_live hl with ⟨hlive, hthrew, hm, hnext⟩
  have hread : (x.state (n + 1)).messagesRead = m + 1 := by rw [hnext, ← hm]; rfl
  have hreader : (x.state (n + 1)).reader =
      handleRequest cfg (x.state n).state_ m (x.state n).flags.length req := by rw [hnext]; rfl
  have houtcome := handleRequest_outcome cfg (x.state n).state_ m (x.state n).flags.length req
  rw [← hreader] at houtcome
  generalize hpc : (x.state (n + 1)).reader = pc at houtcome
  cases houtcome with
  | rejected code message hrefused =>
    have hreading : (x.state (n + 1)).Reading (· = .sending (.error req.id code message))
        (m + 1) _ := ⟨hlive, hthrew, hread, hpc, rfl⟩
    rcases reader_serves x (hfair _) (by simp [ReaderPc.active]) (goesOn_sending _) hreading with
      ⟨k, hk, hdead | ⟨l, hlabel, rfl | hthrew', hm'⟩⟩
    · exact ⟨k, by omega, Or.inl (Or.inl hdead)⟩
    · exact ⟨k, by omega, Or.inr ⟨_, hlabel, .byReader rfl hm' fun h => Or.inl (hrefused h)⟩⟩
    · exact ⟨k, by omega, Or.inl (Or.inr ⟨hthrew', hm'⟩)⟩
  | @lifecycle handler _ _ hlife =>
    have hreading : (x.state (n + 1)).Reading (fun pc => ∃ handlerPc, pc =
        .inline (req.call m handler (x.state n).flags.length) handlerPc) (m + 1) _ :=
      ⟨hlive, hthrew, hread, ⟨_, hpc⟩, rfl⟩
    have hatOnce := isLifecycleRequest_iff.mp hlife
    rcases reader_serves x (hfair _) (by simp [ReaderPc.active]) (goesOn_inline _) hreading with
      ⟨k, hk, hdead | ⟨l, hlabel, ⟨reply, rfl⟩ | hthrew', hm'⟩⟩
    · exact ⟨k, by omega, Or.inl (Or.inl hdead)⟩
    · exact ⟨k, by omega, Or.inr ⟨_, hlabel,
        .byReader (Reply.answers_frame _ _) hm' fun _ => Or.inr hatOnce⟩⟩
    · exact ⟨k, by omega, Or.inl (Or.inr ⟨hthrew', hm'⟩)⟩
  | pooled haccepts _ hlife =>
    have hlater : ¬ HandledAtOnce req.method := by
      intro hatOnce
      rw [isLifecycleRequest_iff.mpr hatOnce] at hlife
      exact absurd hlife (by simp)
    rcases reader_task_served x hstart hfair hlive hthrew (by rw [hpc]; rfl) with
      ⟨k, hk, hdead | ⟨w, l, new, hlabel, hserved, hnew⟩⟩
    · exact ⟨k, by omega, Or.inl (Or.inl hdead)⟩
    · cases hserved with
      | request _ reply =>
        have hanswers := Reply.answers_frame req.id reply
        exact ⟨k, by omega, Or.inr ⟨_, hlabel,
          .byWorker hanswers rfl rfl rfl rfl haccepts hlater hnew⟩⟩

/-- A message that is no JSON-RPC message is answered with an error. -/
lemma invalid_served (hfair : ∀ t : Thread, x.Fair t.Own) {err : ParsedError}
    (hl : x.label n = some (.reader, .read m body (.error err))) :
    ∃ k > n, (x.state (k + 1)).Failed m ∨
      x.label k = some (.reader, .sent (.errorNull err.code err.message)) := by
  rcases ReaderStep.read_live hl with ⟨hlive, hthrew, hm, hnext⟩
  have hread : (x.state (n + 1)).messagesRead = m + 1 := by rw [hnext, ← hm]; rfl
  have hreading : (x.state (n + 1)).Reading (· = .sending (.errorNull err.code err.message))
      (m + 1) _ := ⟨hlive, hthrew, hread, by rw [hnext]; rfl, rfl⟩
  rcases reader_serves x (hfair _) (by simp [ReaderPc.active]) (goesOn_sending _) hreading with
    ⟨k, hk, hdead | ⟨l, hlabel, rfl | hthrew', hm'⟩⟩
  · exact ⟨k, by omega, Or.inl (Or.inl hdead)⟩
  · exact ⟨k, by omega, Or.inr hlabel⟩
  · exact ⟨k, by omega, Or.inl (Or.inr ⟨hthrew', hm'⟩)⟩

/-- What the read thread does with a notification that it handles itself comes about. -/
lemma inline_served (hfair : ∀ t : Thread, x.Fair t.Own) {notif : ParsedNotification}
    {pc : ReaderPc} {Q : Label → Server → Prop} (hactive : pc.active = true)
    (hon : GoesOn cfg (· = pc) Q)
    (hl : x.label n = some (.reader, .read m body (.notification notif)))
    (hpc : (handleNotification cfg (x.state n).state_ m notif).2 = pc) :
    ∃ k > n, (x.state (k + 1)).terminated = true ∨
      ∃ l, Q l (x.state (k + 1)) ∧ x.label k = some (.reader, l) := by
  rcases ReaderStep.read_live hl with ⟨hlive, hthrew, -, hnext⟩
  have hreader : (x.state (n + 1)).reader = pc := by
    rw [hnext]
    exact hpc
  have hreading : (x.state (n + 1)).Reading (· = pc) _ _ := ⟨hlive, hthrew, rfl, hreader, rfl⟩
  have hplaces : ∀ pc', pc' = pc → pc'.active = true := by
    rintro pc' rfl
    exact hactive
  rcases reader_serves x (hfair _) hplaces hon hreading with
    ⟨k, hk, hdead | ⟨l, hlabel, hQ, -⟩⟩
  · exact ⟨k, by omega, Or.inl hdead⟩
  · exact ⟨k, by omega, Or.inr ⟨l, hQ, hlabel⟩⟩

/-- A notification with a handler of its own goes to the thread that handles its method. -/
lemma handleNotification_handled {state : ServerState} {notif : ParsedNotification}
    {handler : NotificationHandler} (m : ℕ) (hstate : state ≠ .Uninitialized)
    (hexit : notif.method ≠ str "exit")
    (hhandler : cfg.notificationHandler notif.method = some handler)
    (hcancel : handler ≠ .cancelRequest) :
    (isInlineNotification notif.method = true ∧
        (handleNotification cfg state m notif).2 = .notifying (notif.call m handler)) ∨
      ∃ e, (∀ w, HandledBy notif.method (.worker e w)) ∧
        (handleNotification cfg state m notif).2.task? =
          some (e, .notification (notif.call m handler)) := by
  unfold handleNotification
  rw [if_neg hexit, if_neg hstate, hhandler]
  rcases Bool.eq_false_or_eq_true (isInlineNotification notif.method) with hinline | hinline
  · refine Or.inl ⟨hinline, ?_⟩
    simp only [hinline, if_true]
    cases handler with
    | cancelRequest => exact absurd rfl hcancel
    | _ => rfl
  · right
    rcases Bool.eq_false_or_eq_true (isSyncNotification notif.method) with hsync | hsync
    · exact ⟨.sync, fun w => .sync w hinline hsync, by simp [hinline, hsync, ReaderPc.task?]⟩
    · exact ⟨.worker, fun w => .worker w hinline hsync, by simp [hinline, hsync, ReaderPc.task?]⟩

lemma notification_served (hstart : x.state 0 = .start cfg) (hfair : ∀ t : Thread, x.Fair t.Own)
    {notif : ParsedNotification} {handler : NotificationHandler}
    (hl : x.label n = some (.reader, .read m body (.notification notif)))
    (hstate : (x.state n).state_ ≠ .Uninitialized) (hexit : notif.method ≠ str "exit")
    (hhandler : cfg.notificationHandler notif.method = some handler)
    (hcancel : handler ≠ .cancelRequest) :
    ∃ k > n, (x.state (k + 1)).terminated = true ∨ ∃ t outcome, HandledBy notif.method t ∧
      x.label k = some (t, .notificationEnded (notif.call m handler) outcome) := by
  rcases handleNotification_handled m hstate hexit hhandler hcancel with
    ⟨hinline, hpc⟩ | ⟨e, hby, htask⟩
  · rcases inline_served hfair rfl (goesOn_notifying _) hl hpc with
      ⟨k, hk, hdead | ⟨l, ⟨outcome, rfl⟩, hlabel⟩⟩
    · exact ⟨k, hk, Or.inl hdead⟩
    · exact ⟨k, hk, Or.inr ⟨_, outcome, .reader hinline, hlabel⟩⟩
  · rcases ReaderStep.read_live hl with ⟨hlive, hthrew, -, hnext⟩
    have htask' : (x.state (n + 1)).reader.task? =
        some (e, .notification (notif.call m handler)) := by
      rw [hnext]
      exact htask
    rcases reader_task_served x hstart hfair hlive hthrew htask' with
      ⟨k, hk, hdead | ⟨w, l, new, hlabel, hserved, -⟩⟩
    · exact ⟨k, by omega, Or.inl hdead⟩
    · cases hserved with
      | notification _ outcome => exact ⟨k, by omega, Or.inr ⟨_, outcome, hby w, hlabel⟩⟩

lemma cancel_served (hfair : ∀ t : Thread, x.Fair t.Own) {notif : ParsedNotification}
    {id : RequestId} (hl : x.label n = some (.reader, .read m body (.notification notif)))
    (hstate : (x.state n).state_ ≠ .Uninitialized) (hcancels : notif.Cancels id)
    (hkept : str "$/cancelRequest" ∉ cfg.userNotifications) :
    ∃ k > n, (x.state (k + 1)).terminated = true ∨ x.label k = some (.reader, .cancelled id) := by
  have hpc : (handleNotification cfg (x.state n).state_ m notif).2 = .cancelling id :=
    dispatch_cancels m 0 hcancels hstate hkept
  rcases inline_served hfair rfl (goesOn_cancelling id) hl hpc with
    ⟨k, hk, hdead | ⟨l, rfl, hlabel⟩⟩
  · exact ⟨k, hk, Or.inl hdead⟩
  · exact ⟨k, hk, Or.inr hlabel⟩

lemma exit_served (hfair : ∀ t : Thread, x.Fair t.Own) {notif : ParsedNotification}
    (hl : x.label n = some (.reader, .read m body (.notification notif)))
    (hexit : notif.method = str "exit") :
    ∃ k > n, (x.state (k + 1)).terminated = true ∨
      ∃ outcome, x.label k = some (.reader, .exitEnded outcome) := by
  have hpc : (handleNotification cfg (x.state n).state_ m notif).2 = .exiting := by
    unfold handleNotification
    rw [if_pos hexit]
  rcases inline_served hfair rfl goesOn_exiting hl hpc with
    ⟨k, hk, hdead | ⟨l, ⟨outcome, rfl⟩, hlabel⟩⟩
  · exact ⟨k, hk, Or.inl hdead⟩
  · exact ⟨k, hk, Or.inr ⟨outcome, hlabel⟩⟩

lemma response_served (hstart : x.state 0 = .start cfg) (hfair : ∀ t : Thread, x.Fair t.Own)
    {resp : ParsedResponse} {id : Int32} {cb : ResponseCallback}
    (hl : x.label n = some (.reader, .responseTaken resp id (some cb))) :
    ∃ k > n, (x.state (k + 1)).terminated = true ∨ ∃ w,
      x.label k = some (.worker .worker w, .callbackInvoked cb.call resp.payload resp.isError) := by
  have hstep := x.steps n _ hl
  have hlive := hstep.step.live
  have hnext : (x.state (n + 1)).reader.task? =
        some (.worker, .callback cb resp.payload resp.isError) ∧
      (x.state (n + 1)).terminated = false ∧ (x.state (n + 1)).threw = false := by
    rcases hstep.step.of_reader rfl with ⟨hthrew, hreader⟩
    generalize x.state (n + 1) = s' at hreader ⊢
    cases hreader with
    | matched => exact ⟨rfl, hlive, hthrew⟩
    | handler _ _ hhandler | handlerFinishes _ hhandler | handlerEscapes _ hhandler =>
      cases hhandler
  rcases reader_task_served x hstart hfair hnext.2.1 hnext.2.2 hnext.1 with
    ⟨k, hk, hdead | ⟨w, l, new, hlabel, hserved, -⟩⟩
  · exact ⟨k, by omega, Or.inl hdead⟩
  · cases hserved with
    | callback => exact ⟨k, by omega, Or.inr ⟨w, hlabel⟩⟩

end Served

/-- Where the scheduler is fair and the user's code returns every message is served sooner or later,
however many more come. -/
theorem messages_served (cfg : Config) (x : Execution (Threads cfg))
    (hstart : x.state 0 = .start cfg) (hscheduled : ∀ t : Thread, x.Fair t.Scheduled)
    (hreturns : UserCodeReturns x) : MessagesServed cfg x := by
  have hfair : ∀ t : Thread, x.Fair t.Own := fun t => fair_of_scheduled (hscheduled t) hreturns
  exact
    { request := fun _ _ _ _ hl => request_served hstart hfair hl
      invalid := fun _ _ _ _ hl => invalid_served hfair hl
      notification := fun _ _ _ _ _ hl hstate hexit hhandler hcancel =>
        notification_served hstart hfair hl hstate hexit hhandler hcancel
      cancel := fun _ _ _ _ _ hl hstate hcancels hkept =>
        cancel_served hfair hl hstate hcancels hkept
      exit := fun _ _ _ _ hl hexit => exit_served hfair hl hexit
      response := fun _ _ _ _ hl => response_served hstart hfair hl }

/-- When `run` has returned nothing is left to do. -/
lemma not_enabled_of_returned (hphased : s.Phased) (hr : s.reader = .returned) (t : Thread) :
    ¬ Enabled (Threads cfg) t.Own s := by
  rintro ⟨⟨t', l⟩, s', ⟨rfl, hserves, -⟩, hstep⟩
  cases hstep with
  | reader _ _ hstep =>
    cases hstep with
    | read _ hr' | parseThrows _ hr' | endOfInput hr' | leave hr' | send hr' | sendThrows hr'
    | handler _ hr' | handlerFinishes hr' | handlerEscapes hr' | insertToken hr' | submit hr'
    | cancel hr' | notified hr' | notifyEscapes hr' | exited hr' | exitThrows _ hr' | unmatched hr'
    | matched hr' | stop hr' | joinSync hr' | joinWorkers hr' =>
      exact absurd (hr'.symm.trans hr) (by simp)
  | worker e w _ hstep => exact hstep.not_joined (hphased.joined e (by rw [hr]; trivial))
  | sender | notifier => exact absurd hserves (by simp [Thread.serves])

/-- A run in which `run` has returned is the beginning of an execution in which nobody waits for the
scheduler or for the user. -/
lemma exists_fair {es : List (Server × (Thread × Label))}
    (h : Run (Recorded (Threads cfg)) (.start cfg) es s) (hr : s.reader = .returned) :
    ∃ x : Execution (Threads cfg), x.state 0 = .start cfg ∧ x.history es.length = es ∧
      (∀ n ≥ es.length, x.state n = s ∧ x.label n = none) ∧
      (∀ t : Thread, x.Fair t.Scheduled) ∧ UserCodeReturns x := by
  rcases h.exists_execution with ⟨x, hstart, hhistory, hrests⟩
  have hphased := threads_phased x hstart es.length
  rw [(hrests _ le_rfl).1] at hphased
  have hidle : ∀ t : Thread, ¬ Enabled (Threads cfg) t.Own s := not_enabled_of_returned hphased hr
  refine ⟨x, hstart, hhistory, hrests, ?_, ?_⟩
  · intro t
    refine x.fair_of_rests (n := es.length) fun n hn henabled => ?_
    rw [(hrests n hn).1] at henabled
    rcases henabled with ⟨l, s', hown, hstep⟩
    exact hidle t ⟨l, s', hown.1, hstep⟩
  · intro t n
    refine ⟨max n es.length, le_max_left _ _, fun huser => ?_⟩
    rw [(hrests _ (le_max_right _ _)).1] at huser
    exact hidle t huser.enabled

end Steps

/-- A session in which a request is handled before the input ends. -/
lemma Session.visit :
    Reaches (Recorded (Threads config)) (Server.start config) fun es s =>
      s.reader = .returned ∧ (∃ t, (t, (Thread.reader, Label.endOfInput)) ∈ es) ∧
        ∃ t body req, (t, (Thread.reader, Label.read 1 body (.request req))) ∈ es := by
  have hrun : Reaches (Recorded (Threads config)) (Server.start config) fun es s =>
      s.reader = .returned ∧ ∃ body req,
        (es.map Prod.snd)[4]? = some (.reader, .read 1 body (.request req)) ∧
        (es.map Prod.snd)[13]? = some (.reader, .endOfInput) := by
    apply Reaches.step (l := (_, .reader, _))
      (.intro (.reader rfl rfl (.read initializeRequest.json.print rfl (by decide) rfl)))
    apply Reaches.step (l := (_, .reader, _))
      (.intro (.reader rfl rfl (.handler ⟨none, none⟩ rfl (.start rfl))))
    apply Reaches.step (l := (_, .reader, _))
      (.intro (.reader rfl rfl (.handler ⟨none, none⟩ rfl (.returns .null))))
    apply Reaches.step (l := (_, .reader, _))
      (.intro (.reader rfl rfl (.handlerFinishes rfl (.send rfl))))
    apply Reaches.step (l := (_, .reader, _))
      (.intro (.reader rfl rfl (.read hover.json.print rfl (by decide) rfl)))
    apply Reaches.step (l := (_, .reader, _)) (.intro (.reader rfl rfl (.insertToken rfl)))
    apply Reaches.step (l := (_, .reader, _)) (.intro (.reader rfl rfl (.submit rfl)))
    apply Reaches.step (l := (_, .worker .worker 0, _))
      (.intro (.worker .worker 0 rfl (.take rfl rfl)))
    apply Reaches.step (l := (_, .worker .worker 0, _))
      (.intro (.worker .worker 0 rfl (.handler rfl (.start rfl))))
    apply Reaches.step (l := (_, .worker .worker 0, _))
      (.intro (.worker .worker 0 rfl (.handler rfl .poll)))
    apply Reaches.step (l := (_, .worker .worker 0, _))
      (.intro (.worker .worker 0 rfl (.handler rfl (.returns .null))))
    apply Reaches.step (l := (_, .worker .worker 0, _))
      (.intro (.worker .worker 0 rfl (.handlerFinishes rfl (.send rfl))))
    apply Reaches.step (l := (_, .worker .worker 0, _))
      (.intro (.worker .worker 0 rfl (.eraseToken rfl)))
    apply Reaches.step (l := (_, .reader, _))
      (.intro (.reader rfl rfl (.endOfInput rfl (by decide))))
    apply Reaches.step (l := (_, .reader, _)) (.intro (.reader rfl rfl (.stop rfl)))
    apply Reaches.step (l := (_, .worker .sync 0, _))
      (.intro (.worker .sync 0 rfl (.exit ⟨rfl, rfl⟩ rfl)))
    apply Reaches.step (l := (_, .reader, _)) (.intro (.reader rfl rfl (.joinSync rfl rfl)))
    apply Reaches.step (l := (_, .reader, _)) (.intro (.reader rfl rfl (.stop rfl)))
    apply Reaches.step (l := (_, .worker .worker 0, _))
      (.intro (.worker .worker 0 rfl (.exit ⟨rfl, rfl⟩ rfl)))
    apply Reaches.step (l := (_, .worker .worker 1, _))
      (.intro (.worker .worker 1 rfl (.exit ⟨rfl, rfl⟩ rfl)))
    apply Reaches.step (l := (_, .reader, _)) (.intro (.reader rfl rfl (.joinWorkers rfl rfl)))
    exact Reaches.here ⟨rfl, _, _, rfl, rfl⟩
  rcases hrun with ⟨es, s, hrun, hr, body, req, hread, hlast⟩
  rcases List.mem_map.mp (List.mem_of_getElem? hread) with ⟨⟨t, _⟩, hread, rfl⟩
  rcases List.mem_map.mp (List.mem_of_getElem? hlast) with ⟨⟨t', _⟩, hlast, rfl⟩
  exact ⟨es, s, hrun, hr, ⟨t', hlast⟩, t, body, req, hread⟩

theorem messages_served_session :
    ∃ x : Execution (Threads Session.config), (∃ n body req,
        x.label n = some (.reader, .read 1 body (.request req))) ∧
      MessagesServed Session.config x := by
  rcases Session.visit with ⟨es, s, hrun, hr, -, t, body, req, hread⟩
  rcases exists_fair hrun hr with ⟨x, hstart, hhistory, -, hscheduled, hreturns⟩
  rw [← hhistory] at hread
  rcases x.mem_history.mp hread with ⟨n, -, hn, -⟩
  exact ⟨x, ⟨n, body, req, hn⟩,
    messages_served Session.config x hstart hscheduled hreturns⟩

end CLSP
