import CLSP.Server.Step

/-!
# What each thread leaves alone

Frame lemmas of the three kinds of step, and the phases of `run`: the pools take tasks while the
read thread is in its loop, and are joined when it returns.
-/

namespace CLSP

open Transition (Run)

/-! ## The effects of the lifecycle handlers -/

namespace Server

section LifecycleEffect

variable (s : Server) (capabilities : Capabilities) (handler : RequestHandler) (l : Label)

/-- A lifecycle handler only touches the lifecycle, the kind of synchronization and the encoding
of the documents. -/
lemma lifecycleEffect_eq :
    ∃ state shutdownRequested syncKind documents,
      s.lifecycleEffect capabilities handler l =
        { s with
          state_ := state, shutdownRequested_ := shutdownRequested, syncKind_ := syncKind,
          documents_ := documents } := by
  unfold lifecycleEffect
  split
  · cases handler <;> exact ⟨_, _, _, _, rfl⟩
  · cases handler <;> exact ⟨_, _, _, _, rfl⟩
  · exact ⟨_, _, _, _, rfl⟩

end LifecycleEffect

end Server

/-! ## Workers and senders -/

section WorkerStep

variable {cfg : Config} {e : Executor} {w : ℕ} {s s' : Server} {l : Label}

/-- A worker does not touch the read thread and its members. -/
lemma WorkerStep.control (h : WorkerStep cfg e w s l s') :
    s'.reader = s.reader ∧ s'.threw = s.threw ∧ s'.messagesRead = s.messagesRead ∧
      s'.state_ = s.state_ ∧ s'.shutdownRequested_ = s.shutdownRequested_ ∧
      s'.flags = s.flags := by
  cases h <;> simp

/-- A worker does not touch what belongs to outgoing requests. -/
lemma WorkerStep.outgoing (h : WorkerStep cfg e w s l s') :
    s'.nextOutgoingId_ = s.nextOutgoingId_ ∧ s'.pendingRequests_ = s.pendingRequests_ ∧
      s'.senders = s.senders := by
  cases h <;> simp

/-- A worker works on its own pool. -/
lemma WorkerStep.pool_of_ne (h : WorkerStep cfg e w s l s') {e' : Executor} (he : e' ≠ e) :
    s'.pool e' = s.pool e' := by
  cases h <;> cases e <;> cases e' <;> first | rfl | exact absurd rfl he

lemma WorkerStep.stopping_ (h : WorkerStep cfg e w s l s') (e' : Executor) :
    (s'.pool e').stopping_ = (s.pool e').stopping_ := by
  by_cases he : e' = e
  · subst he
    cases h <;> cases e' <;> rfl
  · rw [h.pool_of_ne he]

/-- The workers of a joined pool are gone. -/
lemma WorkerStep.not_joined (h : WorkerStep cfg e w s l s') : ¬ (s.pool e).Joined := by
  intro hjoined
  have hgone : ∀ worker, (s.pool e).workers_[w]? = some worker → worker = .exited :=
    fun worker hw => hjoined.eq_exited (List.mem_of_getElem? hw)
  cases h with
  | take _ hw => exact absurd (hgone _ hw) (by simp)
  | exit _ hw => exact absurd (hgone _ hw) (by simp)
  | handler hw _ => exact absurd (hgone _ hw) (by simp)
  | handlerFinishes hw _ => exact absurd (hgone _ hw) (by simp)
  | handlerEscapes hw _ => exact absurd (hgone _ hw) (by simp)
  | eraseToken hw => exact absurd (hgone _ hw) (by simp)
  | notification hw _ => exact absurd (hgone _ hw) (by simp)
  | notificationFinishes hw _ => exact absurd (hgone _ hw) (by simp)
  | notificationEscapes hw _ => exact absurd (hgone _ hw) (by simp)
  | invoke hw => exact absurd (hgone _ hw) (by simp)
  | callbackFinishes hw _ => exact absurd (hgone _ hw) (by simp)
  | callbackEscapes hw _ => exact absurd (hgone _ hw) (by simp)

lemma WorkerStep.joined (h : WorkerStep cfg e w s l s') {e' : Executor}
    (hjoined : (s.pool e').Joined) : (s'.pool e').Joined := by
  by_cases he : e' = e
  · subst he
    exact absurd hjoined h.not_joined
  · rw [h.pool_of_ne he]
    exact hjoined

/-- A worker only takes tasks from a queue. -/
lemma WorkerStep.mem_tasks_ (h : WorkerStep cfg e w s l s') {e' : Executor} {task : Task}
    (hmem : task ∈ (s'.pool e').tasks_) : task ∈ (s.pool e').tasks_ := by
  by_cases he : e' = e
  · subst he
    cases h with
    | take htasks _ =>
      rw [Server.pool_setPool] at hmem
      rw [htasks]
      exact List.mem_cons_of_mem _ hmem
    | _ => cases e' <;> exact hmem
  · rwa [h.pool_of_ne he] at hmem

/-- How a worker gets to where it is after a step: it was there, it has just taken the task at the
front of its queue, or it has taken a step in its task. -/
inductive Advanced (cfg : Config) (e : Executor) (s : Server) (l : Label) : Running → Prop
  | same {running : Running} : (s.pool e).Working running → Advanced cfg e s l running
  | taken {task : Task} {rest : List Task} : (s.pool e).tasks_ = task :: rest →
      l = .taken e task → Advanced cfg e s l task.start
  | handler {call : RequestCall} {pc pc' : HandlerPc} :
      (s.pool e).Working (.request call pc) →
      HandlerStep cfg.nl call (s.flag call) pc l (.next pc') →
      Advanced cfg e s l (.request call pc')
  | answered {call : RequestCall} {pc : HandlerPc} : (s.pool e).Working (.request call pc) →
      HandlerStep cfg.nl call (s.flag call) pc l .finished →
      Advanced cfg e s l (.erasing call)
  | notification {call : NotificationCall} {pc pc' : NotificationPc} {documents : DocumentStore} :
      (s.pool e).Working (.notification call pc) →
      NotificationStep call s.documents_ pc l documents (.next pc') →
      Advanced cfg e s l (.notification call pc')
  | invoked {cb : ResponseCallback} {payload : Json} {isError : Bool} :
      (s.pool e).Working (.callback cb payload isError) →
      l = .callbackInvoked cb.call payload isError →
      Advanced cfg e s l (.invoked cb payload isError)

lemma WorkerStep.advanced (h : WorkerStep cfg e w s l s') {e' : Executor} {running : Running}
    (hrunning : (s'.pool e').Working running) : Advanced cfg e' s l running := by
  -- the workers of the other pool are where they were
  by_cases he : e' = e
  · subst he
    cases h with
    | take htasks hw =>
      rw [Server.pool_setPool] at hrunning
      rcases ThreadPool.working_take hrunning with rfl | hrunning
      · exact .taken htasks rfl
      · exact .same hrunning
    | exit hdrained hw =>
      rw [Server.pool_setPool] at hrunning
      exact .same (ThreadPool.working_exit hrunning)
    | handler hw hstep =>
      rw [Server.pool_setPool] at hrunning
      rcases ThreadPool.working_progress hrunning with rfl | hrunning
      · exact .handler (ThreadPool.working_of_getElem? hw) hstep
      · exact .same hrunning
    | handlerFinishes hw hstep =>
      rw [Server.pool_setPool] at hrunning
      rcases ThreadPool.working_progress hrunning with rfl | hrunning
      · exact .answered (ThreadPool.working_of_getElem? hw) hstep
      · exact .same hrunning
    | handlerEscapes hw hstep => exact .same (by cases e' <;> exact hrunning)
    | eraseToken hw =>
      refine .same (ThreadPool.working_finish (w := w) ?_)
      cases e' <;> exact hrunning
    | @notification call _ pc' _ _ hw hstep =>
      have hprogress : ((s.pool e').progress w (.notification call pc')).Working running := by
        cases e' <;> exact hrunning
      rcases ThreadPool.working_progress hprogress with rfl | hrunning
      · exact .notification (ThreadPool.working_of_getElem? hw) hstep
      · exact .same hrunning
    | notificationFinishes hw hstep =>
      refine .same (ThreadPool.working_finish (w := w) ?_)
      cases e' <;> exact hrunning
    | notificationEscapes hw hstep => exact .same (by cases e' <;> exact hrunning)
    | invoke hw =>
      rw [Server.pool_setPool] at hrunning
      rcases ThreadPool.working_progress hrunning with rfl | hrunning
      · exact .invoked (ThreadPool.working_of_getElem? hw) rfl
      · exact .same hrunning
    | callbackFinishes hw hstep =>
      rw [Server.pool_setPool] at hrunning
      exact .same (ThreadPool.working_finish hrunning)
    | callbackEscapes hw hstep => exact .same (by cases e' <;> exact hrunning)
  · rw [h.pool_of_ne he] at hrunning
    exact .same hrunning

/-- What a step of a worker replaces in its hands: where it was in its task and where it is. Taking
a task and leaving the loop replace nothing, and an exception leaves everything as it is. -/
inductive Move (cfg : Config) (s : Server) : Label → Option Running → Option Running → Prop
  | take (e : Executor) (task : Task) : Move cfg s (.taken e task) none none
  | exit : Move cfg s .tau none none
  | handler {call : RequestCall} {pc pc' : HandlerPc} {l : Label} :
      HandlerStep cfg.nl call (s.flag call) pc l (.next pc') →
      Move cfg s l (some (.request call pc)) (some (.request call pc'))
  | answered {call : RequestCall} {pc : HandlerPc} {l : Label} :
      HandlerStep cfg.nl call (s.flag call) pc l .finished →
      Move cfg s l (some (.request call pc)) (some (.erasing call))
  | handlerEscapes {call : RequestCall} {pc : HandlerPc} {l : Label} :
      HandlerStep cfg.nl call (s.flag call) pc l .escaped → Move cfg s l none none
  | erase (call : RequestCall) : Move cfg s (.tokenErased call) (some (.erasing call)) none
  | notification {call : NotificationCall} {pc pc' : NotificationPc} {l : Label}
      {documents : DocumentStore} :
      NotificationStep call s.documents_ pc l documents (.next pc') →
      Move cfg s l (some (.notification call pc)) (some (.notification call pc'))
  | notificationFinishes {call : NotificationCall} {pc : NotificationPc} {l : Label}
      {documents : DocumentStore} : NotificationStep call s.documents_ pc l documents .finished →
      Move cfg s l (some (.notification call pc)) none
  | notificationEscapes {call : NotificationCall} {pc : NotificationPc} {l : Label}
      {documents : DocumentStore} : NotificationStep call s.documents_ pc l documents .escaped →
      Move cfg s l none none
  | invoke (cb : ResponseCallback) (payload : Json) (isError : Bool) :
      Move cfg s (.callbackInvoked cb.call payload isError)
        (some (.callback cb payload isError)) (some (.invoked cb payload isError))
  | callbackFinishes {cb : ResponseCallback} {payload : Json} {isError : Bool} {l : Label} :
      CallbackStep payload isError cb l .finished →
      Move cfg s l (some (.invoked cb payload isError)) none
  | callbackEscapes {cb : ResponseCallback} {payload : Json} {isError : Bool} {l : Label} :
      CallbackStep payload isError cb l .escaped → Move cfg s l none none

/-- What is held by the hands, however it is counted. -/
def heldBy {α : Type*} (g : Running → Multiset α) (running : Option Running) : Multiset α :=
  running.elim 0 g

@[simp] lemma heldBy_none {α : Type*} (g : Running → Multiset α) : heldBy g none = 0 := rfl

@[simp] lemma heldBy_some {α : Type*} (g : Running → Multiset α) (running : Running) :
    heldBy g (some running) = g running := rfl

/-- Every step of a worker is a move, and changes the contents of its pool accordingly, whatever
is counted of a task and of a worker, as long as taking a task changes nothing. -/
theorem WorkerStep.move (h : WorkerStep cfg e w s l s') :
    ∃ before after, Move cfg s l before after ∧
      (∀ running ∈ before, (s.pool e).Working running) ∧
      ∀ {α : Type} (f : Task → Multiset α) (g : Running → Multiset α),
        (∀ task : Task, g task.start = f task) →
        (s'.pool e).contents f g + heldBy g before = (s.pool e).contents f g + heldBy g after := by
  cases h with
  | @take task _ htasks hw =>
    refine ⟨none, none, .take e task, by simp, ?_⟩
    intro α f g hstart
    rw [Server.pool_setPool, ThreadPool.contents_take htasks hw (hstart task)]
  | exit hdrained hw =>
    refine ⟨none, none, .exit, by simp, ?_⟩
    intro α f g hstart
    rw [Server.pool_setPool, ThreadPool.contents_exit hw]
  | @handler call pc pc' _ hw hstep =>
    refine ⟨some (.request call pc), some (.request call pc'), .handler hstep,
      ThreadPool.working_of_mem_some hw, ?_⟩
    intro α f g hstart
    rw [Server.pool_setPool]
    exact ThreadPool.contents_progress hw _
  | @handlerFinishes call pc _ hw hstep =>
    refine ⟨some (.request call pc), some (.erasing call), .answered hstep,
      ThreadPool.working_of_mem_some hw, ?_⟩
    intro α f g hstart
    rw [Server.pool_setPool]
    exact ThreadPool.contents_progress hw _
  | handlerEscapes hw hstep =>
    -- an exception ends the process and leaves the state as it is
    exact ⟨none, none, .handlerEscapes hstep, by simp, fun _ _ _ => by cases e <;> rfl⟩
  | @eraseToken call hw =>
    refine ⟨some (.erasing call), none, .erase call, ThreadPool.working_of_mem_some hw, ?_⟩
    intro α f g hstart
    have hfinish := ThreadPool.contents_finish (f := f) (g := g) hw
    rw [heldBy_none, heldBy_some, add_zero, ← hfinish]
    cases e <;> rfl
  | @notification call pc pc' _ _ hw hstep =>
    refine ⟨some (.notification call pc), some (.notification call pc'), .notification hstep,
      ThreadPool.working_of_mem_some hw, ?_⟩
    intro α f g hstart
    have hprogress := ThreadPool.contents_progress (f := f) (g := g) hw (.notification call pc')
    refine Eq.trans ?_ hprogress
    cases e <;> rfl
  | @notificationFinishes call pc _ _ hw hstep =>
    refine ⟨some (.notification call pc), none, .notificationFinishes hstep,
      ThreadPool.working_of_mem_some hw, ?_⟩
    intro α f g hstart
    have hfinish := ThreadPool.contents_finish (f := f) (g := g) hw
    rw [heldBy_none, heldBy_some, add_zero, ← hfinish]
    cases e <;> rfl
  | notificationEscapes hw hstep =>
    exact ⟨none, none, .notificationEscapes hstep, by simp, fun _ _ _ => by cases e <;> rfl⟩
  | @invoke cb payload isError hw =>
    refine ⟨some (.callback cb payload isError), some (.invoked cb payload isError),
      .invoke cb payload isError, ThreadPool.working_of_mem_some hw, ?_⟩
    intro α f g hstart
    rw [Server.pool_setPool]
    exact ThreadPool.contents_progress hw _
  | @callbackFinishes cb payload isError _ hw hstep =>
    refine ⟨some (.invoked cb payload isError), none, .callbackFinishes hstep,
      ThreadPool.working_of_mem_some hw, ?_⟩
    intro α f g hstart
    rw [Server.pool_setPool, heldBy_none, heldBy_some, add_zero]
    exact ThreadPool.contents_finish hw
  | callbackEscapes hw hstep =>
    exact ⟨none, none, .callbackEscapes hstep, by simp, fun _ _ _ => by cases e <;> rfl⟩

/-- A call that sends only touches what belongs to outgoing requests. -/
lemma SenderStep.frame (h : SenderStep cfg s l s') :
    ∃ next pending senders,
      s' = { s with
        nextOutgoingId_ := next, pendingRequests_ := pending, senders := senders } := by
  cases h <;> exact ⟨_, _, _, rfl⟩

lemma SenderStep.pool (h : SenderStep cfg s l s') (e : Executor) : s'.pool e = s.pool e := by
  rcases h.frame with ⟨_, _, _, rfl⟩
  cases e <;> rfl

end WorkerStep

/-- The read thread does not touch what the workers are at. -/
lemma ReaderStep.workers_ {cfg : Config} {s s' : Server} {l : Label} (h : ReaderStep cfg s l s')
    (e : Executor) : (s'.pool e).workers_ = (s.pool e).workers_ := by
  cases h with
  | handler capabilities hr hstep =>
    rcases s.lifecycleEffect_eq capabilities _ l with ⟨_, _, _, _, heq⟩
    rw [heq]
    cases e <;> rfl
  | @submit e' => cases e <;> cases e' <;> rfl
  | @stop e' => cases e <;> cases e' <;> rfl
  | _ => cases e <;> rfl

lemma ReaderStep.working {cfg : Config} {s s' : Server} {l : Label} (h : ReaderStep cfg s l s')
    {e : Executor} {running : Running} :
    (s'.pool e).Working running ↔ (s.pool e).Working running := by
  unfold ThreadPool.Working
  rw [h.workers_ e]

/-- Exceptions of the read thread leave `run` and do not end the process. -/
lemma ReaderStep.terminated {cfg : Config} {s s' : Server} {l : Label} (h : ReaderStep cfg s l s') :
    s'.terminated = s.terminated := by
  cases h with
  | handler capabilities =>
    rcases s.lifecycleEffect_eq capabilities _ l with ⟨_, _, _, _, heq⟩
    rw [heq]
  | submit | stop => exact Server.setPool_terminated s _ _
  | _ => rfl

/-- The read thread only puts the task it submits into a queue. -/
lemma ReaderStep.mem_tasks_ {cfg : Config} {s s' : Server} {l : Label} (h : ReaderStep cfg s l s')
    {e : Executor} {task : Task} (hmem : task ∈ (s'.pool e).tasks_) :
    task ∈ (s.pool e).tasks_ ∨ s.reader = .submitting e task := by
  cases h with
  | handler capabilities hr hstep =>
    rcases s.lifecycleEffect_eq capabilities _ l with ⟨_, _, _, _, heq⟩
    rw [heq] at hmem
    exact Or.inl (by cases e <;> exact hmem)
  | @submit e' task' hr =>
    -- only the pool that is given the task gets longer
    by_cases he : e = e'
    · subst he
      have hmem' : task ∈ ((s.pool e).submit task').tasks_ := by
        rw [← Server.pool_setPool s e ((s.pool e).submit task')]
        cases e <;> exact hmem
      unfold ThreadPool.submit at hmem'
      split at hmem'
      · exact Or.inl hmem'
      · rcases List.mem_append.mp hmem' with hmem' | hmem'
        · exact Or.inl hmem'
        · rw [List.mem_singleton.mp hmem']
          exact Or.inr hr
    · rw [← Server.pool_setPool_of_ne s e' ((s.pool e').submit task') he]
      exact Or.inl (by cases e <;> exact hmem)
  | @stop e' => exact Or.inl (by cases e <;> cases e' <;> exact hmem)
  | _ => exact Or.inl (by cases e <;> exact hmem)

/-! ## What the read thread does next -/

/-- A frame that is to be sent is sent, or the library throws. -/
lemma ReaderStep.sending_inv {cfg : Config} {s s' : Server} {l : Label} {frame : Frame}
    (h : ReaderStep cfg s l s') (hr : s.reader = .sending frame) :
    (∃ text, frame.serialize cfg.nl = .ok text) ∧ l = .sent frame ∧
        s' = { s with reader := .loop } ∨
      (∃ what, frame.serialize cfg.nl = .error what) ∧ l = .tau ∧
        s' = { s with threw := true } := by
  cases h with
  | send hr' htext =>
    rw [ReaderPc.sending.inj (hr.symm.trans hr')]
    exact Or.inl ⟨⟨_, htext⟩, rfl, rfl⟩
  | sendThrows hr' hthrows =>
    rw [ReaderPc.sending.inj (hr.symm.trans hr')]
    exact Or.inr ⟨⟨_, hthrows⟩, rfl, rfl⟩
  | read _ hr' | parseThrows _ hr' | endOfInput hr' | leave hr' | handler _ hr'
  | handlerFinishes hr' | handlerEscapes hr' | insertToken hr' | submit hr' | cancel hr'
  | notified hr' | notifyEscapes hr' | exited hr' | exitThrows _ hr' | unmatched hr' | matched hr'
  | stop hr' | joinSync hr' | joinWorkers hr' => exact absurd (hr'.symm.trans hr) (by simp)

/-- With a handler of its own the read thread takes a step of that handler. -/
lemma ReaderStep.inline_inv {cfg : Config} {s s' : Server} {l : Label} {call : RequestCall}
    {pc : HandlerPc} (h : ReaderStep cfg s l s') (hr : s.reader = .inline call pc) :
    ∃ r, HandlerStep cfg.nl call (s.flag call) pc l r ∧
      match r with
      | .next pc' => ∃ capabilities, s' =
          { s.lifecycleEffect capabilities call.handler l with reader := .inline call pc' }
      | .finished => s' = { s with reader := .loop }
      | .escaped => s' = { s with threw := true } := by
  cases h with
  | handler capabilities hr' hstep =>
    rcases ReaderPc.inline.inj (hr.symm.trans hr') with ⟨rfl, rfl⟩
    exact ⟨_, hstep, capabilities, rfl⟩
  | handlerFinishes hr' hstep | handlerEscapes hr' hstep =>
    rcases ReaderPc.inline.inj (hr.symm.trans hr') with ⟨rfl, rfl⟩
    exact ⟨_, hstep, rfl⟩
  | read _ hr' | parseThrows _ hr' | endOfInput hr' | leave hr' | send hr' | sendThrows hr'
  | insertToken hr' | submit hr' | cancel hr' | notified hr' | notifyEscapes hr' | exited hr'
  | exitThrows _ hr' | unmatched hr' | matched hr' | stop hr' | joinSync hr' | joinWorkers hr' =>
    exact absurd (hr'.symm.trans hr) (by simp)

/-! ## Who takes a step -/

/-- The steps only the read thread takes. -/
def Label.ofReader : Label → Bool
  | .read _ _ _ => true
  | .parseThrew _ _ => true
  | .endOfInput => true
  | .tokenInserted _ => true
  | .cancelled _ => true
  | .submitted _ _ => true
  | .exitEnded _ => true
  | .responseTaken _ _ _ => true
  | .returned _ => true
  | _ => false

/-- The steps only `sendRequest` takes. -/
def Label.ofSender : Label → Bool
  | .issued _ _ _ _ _ => true
  | .registered _ _ => true
  | _ => false

section Labels

variable {cfg : Config} {s s' : Server} {l : Label}

lemma HandlerStep.label {nl : Nlohmann} {call : RequestCall} {flag : Bool} {pc : HandlerPc}
    {r : Progress HandlerPc} (h : HandlerStep nl call flag pc l r) :
    l.ofReader = false ∧ l.ofSender = false := by
  cases h <;> exact ⟨rfl, rfl⟩

lemma Move.label {before after : Option Running} (h : Move cfg s l before after) :
    l.ofReader = false ∧ l.ofSender = false := by
  cases h with
  | handler h | answered h | handlerEscapes h => exact h.label
  | notification h | notificationFinishes h | notificationEscapes h => cases h <;> exact ⟨rfl, rfl⟩
  | callbackFinishes h | callbackEscapes h => cases h <;> exact ⟨rfl, rfl⟩
  | _ => exact ⟨rfl, rfl⟩

lemma WorkerStep.label {e : Executor} {w : ℕ} (h : WorkerStep cfg e w s l s') :
    l.ofReader = false ∧ l.ofSender = false := by
  rcases h.move with ⟨_, _, hmove, -, -⟩
  exact hmove.label

lemma SenderStep.label (h : SenderStep cfg s l s') : l.ofReader = false := by
  cases h <;> rfl

lemma ReaderStep.label (h : ReaderStep cfg s l s') : l.ofSender = false := by
  cases h with
  | handler _ _ h | handlerFinishes _ h | handlerEscapes _ h => exact h.label.2
  | _ => rfl

lemma Step.of_reader (h : Step cfg s l s') (hl : l.ofReader = true) :
    s.threw = false ∧ ReaderStep cfg s l s' := by
  cases h with
  | reader _ hthrew h => exact ⟨hthrew, h⟩
  | worker _ _ _ h => exact absurd hl (by simp [h.label.1])
  | sender _ h => exact absurd hl (by simp [h.label])

lemma Step.of_sender (h : Step cfg s l s') (hl : l.ofSender = true) : SenderStep cfg s l s' := by
  cases h with
  | reader _ _ h => exact absurd hl (by simp [h.label])
  | worker _ _ _ h => exact absurd hl (by simp [h.label.2])
  | sender _ h => exact h

/-- The step that reads a message. -/
lemma Step.read_inv {serial : ℕ} {body : Bytes} {msg : ParsedMessage}
    (h : Step cfg s (.read serial body msg) s') :
    s.reader = .loop ∧ s.threw = false ∧ s.state_ ≠ .Exited ∧
      parseMessage cfg.nl body = .ok msg ∧
      s' = s.read (dispatch cfg s.state_ s.messagesRead s.flags.length msg) := by
  rcases h.of_reader rfl with ⟨hthrew, hreader⟩
  cases hreader with
  | read _ hr hexited hparse => exact ⟨hr, hthrew, hexited, hparse, rfl⟩
  | handler _ _ hstep | handlerFinishes _ hstep | handlerEscapes _ hstep => cases hstep

/-- Messages are numbered in the order they are read. -/
lemma Step.serial_of_read {serial : ℕ} {body : Bytes} {msg : ParsedMessage}
    (h : Step cfg s (.read serial body msg) s') : serial = s.messagesRead := by
  cases (h.of_reader rfl).2 with
  | read => rfl
  | handler _ _ hstep | handlerFinishes _ hstep | handlerEscapes _ hstep => cases hstep

/-- The critical section of `handleResponse`. -/
lemma Step.responseTaken_inv {resp : ParsedResponse} {id : Int32} {found : Option ResponseCallback}
    (h : Step cfg s (.responseTaken resp id found) s') :
    s.reader = .responding resp id ∧ found = s.pendingRequests_.lookup id ∧
      (found = none → s' = { s with reader := .loop }) := by
  rcases h.of_reader rfl with ⟨-, hreader⟩
  cases hreader with
  | unmatched hr hnone => exact ⟨hr, hnone.symm, fun _ => rfl⟩
  | matched hr hcb => exact ⟨hr, hcb.symm, fun h => absurd h (by simp)⟩
  | handler _ _ hstep | handlerFinishes _ hstep | handlerEscapes _ hstep => cases hstep

/-- A process that takes a step has not been terminated. -/
lemma Step.live (h : Step cfg s l s') : s.terminated = false := by
  cases h with
  | reader hlive | worker _ _ hlive | sender hlive => exact hlive

end Labels

/-! ## The phases of `run` -/

/-- The read thread has not got to the shutdown of the pool. -/
def ReaderPc.opens : ReaderPc → Executor → Prop
  | .joining .sync, .sync => False
  | .stopping .worker, .sync => False
  | .joining .worker, _ => False
  | .returned, _ => False
  | _, _ => True

/-- The read thread has joined the threads of the pool. -/
def ReaderPc.joined : ReaderPc → Executor → Prop
  | .stopping .worker, .sync => True
  | .joining .worker, .sync => True
  | .returned, _ => True
  | _, _ => False

/-- Dispatch does not leave the loop. -/
lemma Outcome.not_joined {cfg : Config} {state_ : ServerState} {serial token : ℕ}
    {msg : ParsedMessage} {next : ServerState × ReaderPc}
    (h : Outcome cfg state_ serial token msg next) (e : Executor) : ¬ next.2.joined e := by
  cases h with
  | request h => cases h <;> exact id
  | notification h => cases h <;> exact id
  | response h => cases h <;> exact id
  | error => exact id

/-- The pools are open until the read thread stops them, and have been joined where it is past
that. -/
structure Server.Phased (s : Server) : Prop where
  opened : ∀ e, s.reader.opens e → (s.pool e).stopping_ = false
  joined : ∀ e, s.reader.joined e → (s.pool e).Joined

lemma phased_start (cfg : Config) : (Server.start cfg).Phased := by
  refine ⟨?_, ?_⟩
  · intro e _
    cases e <;> rfl
  · intro e h
    exact absurd h id

/-- Inside the loop the pools stay open. -/
lemma Server.Phased.serving {s s' : Server} (hs : s.Phased) (hopens : ∀ e, s.reader.opens e)
    (hpool : ∀ e, (s'.pool e).stopping_ = (s.pool e).stopping_)
    (hjoined : ∀ e, ¬ s'.reader.joined e) : s'.Phased := by
  refine ⟨?_, ?_⟩
  · intro e _
    rw [hpool e]
    exact hs.opened e (hopens e)
  · intro e h
    exact absurd h (hjoined e)

lemma Server.Phased.congr {s s' : Server} (hs : s.Phased) (hreader : s'.reader = s.reader)
    (hpool : ∀ e, s'.pool e = s.pool e) : s'.Phased := by
  refine ⟨?_, ?_⟩
  · intro e h
    rw [hpool e]
    exact hs.opened e (hreader ▸ h)
  · intro e h
    rw [hpool e]
    exact hs.joined e (hreader ▸ h)

lemma Server.pool_congr {s s' : Server} (hworker : s'.workerPool_ = s.workerPool_)
    (hsync : s'.syncExecutor_ = s.syncExecutor_) (e : Executor) : s'.pool e = s.pool e := by
  rcases e with _ | _
  · exact hworker
  · exact hsync

lemma ReaderStep.phased {cfg : Config} {s s' : Server} {l : Label} (h : ReaderStep cfg s l s')
    (hs : s.Phased) : s'.Phased := by
  cases h with
  | read _ hr =>
    exact hs.serving (by simp [hr, ReaderPc.opens])
      (fun e => congrArg _ (Server.pool_congr rfl rfl e)) (dispatch_outcome _ _ _ _ _).not_joined
  | parseThrows | sendThrows | handlerEscapes | notifyEscapes | exitThrows =>
    exact hs.congr rfl (Server.pool_congr rfl rfl)
  | endOfInput hr | leave hr | send hr | handlerFinishes hr | insertToken hr | cancel hr
  | notified hr | exited hr | unmatched hr | matched hr =>
    exact hs.serving (by simp [hr, ReaderPc.opens])
      (fun e => congrArg _ (Server.pool_congr rfl rfl e)) (fun _ => id)
  | handler capabilities hr =>
    apply hs.serving (by simp [hr, ReaderPc.opens]) _ (fun _ => id)
    rcases s.lifecycleEffect_eq capabilities _ l with ⟨_, _, _, _, heq⟩
    rw [heq]
    exact fun e => congrArg _ (Server.pool_congr rfl rfl e)
  | @submit e task hr =>
    apply hs.serving (by simp [hr, ReaderPc.opens]) _ (fun _ => id)
    intro e'
    rcases e with _ | _ <;> rcases e' with _ | _ <;> rfl
  | @stop e hr =>
    -- the sync executor is stopped first, while the other pool is still open
    refine ⟨?_, ?_⟩
    · intro e' he'
      rcases e with _ | _ <;> rcases e' with _ | _
      · exact absurd he' id
      · exact absurd he' id
      · exact hs.opened .worker (by rw [hr]; trivial)
      · exact absurd he' id
    · intro e' he'
      rcases e with _ | _ <;> rcases e' with _ | _
      · exact absurd he' id
      · exact hs.joined .sync (by rw [hr]; trivial)
      · exact absurd he' id
      · exact absurd he' id
  | joinSync hr hj =>
    refine ⟨?_, ?_⟩
    · intro e' he'
      rcases e' with _ | _
      · exact hs.opened .worker (by rw [hr]; trivial)
      · exact absurd he' id
    · intro e' he'
      rcases e' with _ | _
      · exact absurd he' id
      · exact hj
  | joinWorkers hr hj =>
    refine ⟨?_, ?_⟩
    · intro e' he'
      exact absurd he' (by simp [ReaderPc.opens])
    · intro e' _
      rcases e' with _ | _
      · exact hj
      · exact hs.joined .sync (by rw [hr]; trivial)

/-- The phases hold along every run. -/
theorem Step.phased {cfg : Config} {s s' : Server} {l : Label} (h : Step cfg s l s')
    (hs : s.Phased) : s'.Phased := by
  cases h with
  | reader _ _ h => exact h.phased hs
  | worker e w _ h =>
    refine ⟨?_, ?_⟩
    · intro e' he'
      rw [h.stopping_ e']
      exact hs.opened e' (h.control.1 ▸ he')
    · intro e' he'
      exact h.joined (hs.joined e' (h.control.1 ▸ he'))
  | sender _ h =>
    have hpool := h.pool
    rcases h.frame with ⟨_, _, _, rfl⟩
    exact hs.congr rfl hpool

lemma Runs.phased {cfg : Config} {ls : List Label} {s : Server} (h : Runs cfg ls s) : s.Phased :=
  h.invariant (phased_start cfg) fun _ _ _ ht hstep => hstep.phased ht

/-! ## What the threads hold -/

section Held

variable {α : Type} {r : ReaderPc → Multiset α} {f : Task → Multiset α} {g : Running → Multiset α}
  {cfg : Config} {ls : List Label} {s s' : Server} {l : Label}

/-- What is held by the read thread, by `r`, in the queues, by `f`, and by the workers, by `g`. -/
def Server.held (r : ReaderPc → Multiset α) (f : Task → Multiset α) (g : Running → Multiset α)
    (s : Server) : Multiset α :=
  r s.reader + s.workerPool_.contents f g + s.syncExecutor_.contents f g

lemma Server.held_eq_add (r : ReaderPc → Multiset α) (f : Task → Multiset α)
    (g : Running → Multiset α) (s : Server) :
    s.held r f g = r s.reader + s.held (fun _ => 0) f g := by
  unfold Server.held
  rw [zero_add, add_assoc]

lemma Server.mem_held_of_reader {x : α} (hx : x ∈ r s.reader) : x ∈ s.held r f g := by
  rw [Server.held_eq_add]
  exact Multiset.mem_add.mpr (Or.inl hx)

lemma Server.mem_held_of_pool {e : Executor} {x : α} (hx : x ∈ (s.pool e).contents f g) :
    x ∈ s.held r f g := by
  unfold Server.held
  rw [Multiset.mem_add, Multiset.mem_add]
  cases e with
  | worker => exact Or.inl (Or.inr hx)
  | sync => exact Or.inr hx

/-- What is held is held by some thread or queue. -/
lemma Server.mem_held {x : α} (hx : x ∈ s.held r f g) : x ∈ r s.reader ∨
    ∃ e, (∃ task ∈ (s.pool e).tasks_, x ∈ f task) ∨
      ∃ running, (s.pool e).Working running ∧ x ∈ g running := by
  unfold Server.held at hx
  rw [Multiset.mem_add, Multiset.mem_add] at hx
  rcases hx with (hx | hx) | hx
  · exact Or.inl hx
  · exact Or.inr ⟨.worker, ThreadPool.of_mem_contents hx⟩
  · exact Or.inr ⟨.sync, ThreadPool.of_mem_contents hx⟩

lemma Server.held_start (hloop : r .loop = 0) (cfg : Config) :
    (Server.start cfg).held r f g = 0 := by
  unfold Server.held Server.start
  rw [ThreadPool.contents_create, ThreadPool.contents_create, hloop]
  rfl

/-- When `run` has returned nothing is held by the pools any more. -/
lemma Runs.held_of_returned (h : Runs cfg ls s) (hret : s.reader = .returned) :
    s.held r f g = r .returned := by
  have hjoined : ∀ e, (s.pool e).Joined := fun e =>
    (Runs.phased h).joined e (by rw [hret]; cases e <;> trivial)
  have hworker : s.workerPool_.Joined := hjoined .worker
  have hsync : s.syncExecutor_.Joined := hjoined .sync
  unfold Server.held
  rw [hret, hworker.contents_eq_zero, hsync.contents_eq_zero, add_zero, add_zero]

/-- When one pool changes, what is held changes by as much. -/
lemma Server.held_eq {e : Executor} {x y : Multiset α} (hreader : s'.reader = s.reader)
    (hother : ∀ e' ≠ e, s'.pool e' = s.pool e')
    (hpool : (s'.pool e).contents f g + x = (s.pool e).contents f g + y) :
    s'.held r f g + x = s.held r f g + y := by
  unfold Server.held
  rw [hreader]
  rcases e with _ | _
  · have hsync : s'.syncExecutor_ = s.syncExecutor_ := hother .sync (by simp)
    have hworker : s'.workerPool_.contents f g + x = s.workerPool_.contents f g + y := hpool
    rw [hsync, add_right_comm, add_right_comm _ _ y, add_assoc (r s.reader), hworker, ← add_assoc]
  · have hworker : s'.workerPool_ = s.workerPool_ := hother .worker (by simp)
    have hsync : s'.syncExecutor_.contents f g + x = s.syncExecutor_.contents f g + y := hpool
    rw [hworker, add_assoc, hsync, ← add_assoc]

/-- When only the read thread changes, what is held changes by what it holds. -/
lemma Server.held_of_reader (hworker : s'.workerPool_ = s.workerPool_)
    (hsync : s'.syncExecutor_ = s.syncExecutor_) :
    s'.held r f g + r s.reader = s.held r f g + r s'.reader := by
  unfold Server.held
  rw [hworker, hsync]
  abel

/-- A step of a worker changes what is held by what it changes in its hands. -/
lemma WorkerStep.held {e : Executor} {w : ℕ} (h : WorkerStep cfg e w s l s')
    (hstart : ∀ task : Task, g task.start = f task) :
    ∃ before after, Move cfg s l before after ∧
      (∀ running ∈ before, (s.pool e).Working running) ∧
      s'.held r f g + heldBy g before = s.held r f g + heldBy g after := by
  rcases h.move with ⟨before, after, hmove, hwork, hcontents⟩
  refine ⟨before, after, hmove, hwork, ?_⟩
  exact Server.held_eq h.control.1 (fun e' he => h.pool_of_ne he) (hcontents f g hstart)

/-- What the read thread passes to a pool in a step. -/
def Label.passed (f : Task → Multiset α) : Label → Multiset α
  | .submitted _ task => f task
  | _ => 0

lemma HandlerStep.passed {nl : Nlohmann} {call : RequestCall} {flag : Bool} {pc : HandlerPc}
    {p : Progress HandlerPc} (h : HandlerStep nl call flag pc l p) : l.passed f = 0 := by
  cases h <;> rfl

/-- A step of the read thread changes what is held by what it changes in its own hands, but for a
task that it passes to a pool. -/
lemma ReaderStep.held (h : ReaderStep cfg s l s') (hs : s.Phased) :
    s'.held r f g + r s.reader = s.held r f g + (r s'.reader + l.passed f) := by
  have hquiet : l.passed f = 0 → s'.workerPool_ = s.workerPool_ →
      s'.syncExecutor_ = s.syncExecutor_ →
      s'.held r f g + r s.reader = s.held r f g + (r s'.reader + l.passed f) := by
    intro hl hworker hsync
    rw [hl, add_zero]
    exact Server.held_of_reader hworker hsync
  cases h with
  | @submit e task hr =>
    -- the pool is open, so the task goes from the read thread into its queue
    have hopen : (s.pool e).stopping_ = false := hs.opened e (by rw [hr]; trivial)
    have hheld : (s.setPool e ((s.pool e).submit task)).held r f g + 0 =
        s.held r f g + f task := by
      apply Server.held_eq (e := e) (Server.setPool_reader s e _)
        (fun e' he => Server.pool_setPool_of_ne s e _ he)
      rw [Server.pool_setPool, ThreadPool.contents_submit hopen, add_zero]
    have hreader :
        { s.setPool e ((s.pool e).submit task) with reader := .loop }.held r f g +
            r (s.setPool e ((s.pool e).submit task)).reader =
          (s.setPool e ((s.pool e).submit task)).held r f g + r .loop :=
      Server.held_of_reader rfl rfl
    rw [Server.setPool_reader] at hreader
    rw [add_zero] at hheld
    rw [hreader, hheld, add_assoc, add_comm (f task)]
    rfl
  | @stop e hr =>
    have hheld : (s.setPool e (s.pool e).stop).held r f g + 0 = s.held r f g + 0 := by
      apply Server.held_eq (e := e) (Server.setPool_reader s e _)
        (fun e' he => Server.pool_setPool_of_ne s e _ he)
      rw [Server.pool_setPool, ThreadPool.contents_stop]
    have hreader :
        { s.setPool e (s.pool e).stop with reader := .joining e }.held r f g +
            r (s.setPool e (s.pool e).stop).reader =
          (s.setPool e (s.pool e).stop).held r f g + r (.joining e) :=
      Server.held_of_reader rfl rfl
    rw [Server.setPool_reader] at hreader
    rw [add_zero, add_zero] at hheld
    rw [hreader, hheld]
    exact congrArg _ (add_zero _).symm
  | handler capabilities hr hstep =>
    have hl : l.passed f = 0 := hstep.passed
    rcases s.lifecycleEffect_eq capabilities _ l with ⟨_, _, _, _, heq⟩
    rw [heq, hl, add_zero]
    exact Server.held_of_reader rfl rfl
  | handlerFinishes _ hstep | handlerEscapes _ hstep => exact hquiet hstep.passed rfl rfl
  | _ => exact hquiet rfl rfl rfl

lemma SenderStep.held (h : SenderStep cfg s l s') : s'.held r f g = s.held r f g := by
  rcases h.frame with ⟨_, _, _, rfl⟩
  rfl

/-- A step balances what comes in, what goes out and what is held when every thread does so in its
own hands. -/
theorem Step.balances (h : Step cfg s l s') (hs : s.Phased) {came went : Multiset α}
    (hstart : ∀ task : Task, g task.start = f task)
    (hreader : ReaderStep cfg s l s' → went + (r s'.reader + l.passed f) = came + r s.reader)
    (hworker : ∀ before after, Move cfg s l before after →
      went + heldBy g after = came + heldBy g before)
    (hsender : SenderStep cfg s l s' → went = came) :
    went + s'.held r f g = came + s.held r f g := by
  cases h with
  | reader _ _ h =>
    have hheld := h.held (r := r) (f := f) (g := g) hs
    -- what the thread held before the step stands on both sides
    apply add_right_cancel (b := r s.reader)
    calc went + s'.held r f g + r s.reader
        = went + (r s'.reader + l.passed f) + s.held r f g := by
          rw [add_assoc, hheld, add_comm (Server.held _ _ _ _), ← add_assoc]
      _ = came + s.held r f g + r s.reader := by
          rw [hreader h, add_right_comm]
  | worker _ _ _ h =>
    rcases h.held (r := r) hstart with ⟨before, after, hmove, -, hheld⟩
    apply add_right_cancel (b := heldBy g before)
    calc went + s'.held r f g + heldBy g before
        = went + heldBy g after + s.held r f g := by
          rw [add_assoc, hheld, add_comm (Server.held _ _ _ _), ← add_assoc]
      _ = came + s.held r f g + heldBy g before := by
          rw [hworker before after hmove, add_right_comm]
  | sender _ h =>
    rw [hsender h, h.held]

end Held

end CLSP
