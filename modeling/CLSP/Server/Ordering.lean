import CLSP.Server.Requests

/-!
# Document notifications and requests

Document notifications go to the sync executor and requests to the worker pool, and nothing orders
the two. What holds is that the notifications read before a request are all on the executor when its
handler starts, in the order they were read (`Numbered`), and that the executor, which has one
worker, finishes them in that order (`Runs.in_order`).
-/

namespace CLSP

open Transition (Run Reaches)

/-! ## Edits -/

/-- The notifications that change the documents. -/
def isEdit (method : Bytes) : Bool :=
  method = str "textDocument/didOpen" || method = str "textDocument/didChange" ||
    method = str "textDocument/didClose"

/-- The built-in handlers of these. -/
def NotificationHandler.edits : NotificationHandler → Bool
  | .didOpen => true
  | .didChange => true
  | .didClose => true
  | _ => false

/-- Their hooks do not depend on the documents. -/
lemma NotificationHandler.hook_eq {handler : NotificationHandler} (h : handler.edits = true)
    (params : Json) (documents documents' : DocumentStore) :
    handler.hook params documents = handler.hook params documents' := by
  cases handler with
  | didOpen | didChange | didClose => rfl
  | _ => exact absurd h (by simp [NotificationHandler.edits])

lemma isSyncNotification_of_isEdit {method : Bytes} (h : isEdit method = true) :
    isSyncNotification method = true := by
  unfold isEdit at h
  unfold isSyncNotification
  rw [h]
  rfl

lemma not_sync_of_inline {method : Bytes} (h : isInlineNotification method = true) :
    isSyncNotification method = false := by
  unfold isInlineNotification at h
  simp only [Bool.or_eq_true, decide_eq_true_eq] at h
  rcases h with (rfl | rfl) | rfl <;> decide

/-- A document notification after `initialize` is put on the sync executor. -/
lemma handleNotification_sync (cfg : Config) {state_ : ServerState} (serial : ℕ)
    {notif : ParsedNotification} (hsync : isSyncNotification notif.method = true)
    (hstate : state_ ≠ .Uninitialized) :
    ∃ handler, cfg.notificationHandler notif.method = some handler ∧
      handleNotification cfg state_ serial notif =
        (state_, .submitting .sync (.notification (notif.call serial handler))) := by
  have hexit : notif.method ≠ str "exit" := by
    intro h
    rw [h] at hsync
    exact absurd hsync (by decide)
  have hinline : ¬ isInlineNotification notif.method = true := by
    intro h
    rw [not_sync_of_inline h] at hsync
    exact absurd hsync (by simp)
  -- a handler of the user takes the place of the built-in one
  have hhandler : ∃ handler, cfg.notificationHandler notif.method = some handler := by
    have hmethod := hsync
    unfold isSyncNotification at hmethod
    simp only [Bool.or_eq_true, decide_eq_true_eq] at hmethod
    unfold Config.notificationHandler
    split
    · exact ⟨_, rfl⟩
    · rcases hmethod with ((h | h) | h) | h <;> rw [h] <;> exact ⟨_, rfl⟩
  rcases hhandler with ⟨handler, hhandler⟩
  refine ⟨handler, hhandler, ?_⟩
  rw [handleNotification, if_neg hexit, if_neg hstate]
  simp only [hhandler, if_neg hinline, if_pos hsync]

/-! ## What the executor is given and what it finishes -/

def Task.notification? : Task → Option NotificationCall
  | .notification call => some call
  | _ => none

def Running.notification? : Running → Option NotificationCall
  | .notification call _ => some call
  | _ => none

/-- The notifications on the sync executor: the one its worker is at, and the queued ones. -/
def Server.unfinished (s : Server) : List NotificationCall :=
  s.syncExecutor_.waiting Task.notification? Running.notification?

/-- The notification a step puts on the sync executor. -/
def Label.queued? : Label → Option NotificationCall
  | .submitted .sync task => task.notification?
  | _ => none

/-- The notification of the sync executor that a step finishes. -/
def Label.finished? : Label → Option NotificationCall
  | .notificationEnded call _ => if isSyncNotification call.method then some call else none
  | _ => none

/-- The notifications put on the sync executor in a run, in order. -/
def queuedNotifications (ls : List Label) : List NotificationCall :=
  ls.filterMap Label.queued?

/-- The ones that have been finished, in order. -/
def finishedNotifications (ls : List Label) : List NotificationCall :=
  ls.filterMap Label.finished?

lemma queuedNotifications_concat (ls : List Label) (l : Label) :
    queuedNotifications (ls ++ [l]) = queuedNotifications ls ++ l.queued?.toList := by
  cases h : l.queued? <;> simp [queuedNotifications, h]

lemma finishedNotifications_concat (ls : List Label) (l : Label) :
    finishedNotifications (ls ++ [l]) = finishedNotifications ls ++ l.finished?.toList := by
  cases h : l.finished? <;> simp [finishedNotifications, h]

section Steps

variable {cfg : Config} {ls : List Label} {s s' : Server} {l : Label}

/-- Only the read thread puts notifications on the executor. -/
lemma queued?_of_not_ofReader (h : l.ofReader = false) : l.queued? = none := by
  cases l with
  | submitted => exact absurd h (by simp [Label.ofReader])
  | _ => rfl

lemma HandlerStep.notifications {nl : Nlohmann} {call : RequestCall} {flag : Bool} {pc : HandlerPc}
    {r : Progress HandlerPc} (h : HandlerStep nl call flag pc l r) :
    l.queued? = none ∧ l.finished? = none := by
  cases h <;> exact ⟨rfl, rfl⟩

lemma CallbackStep.finished? {payload : Json} {isError : Bool} {cb : ResponseCallback}
    {r : Progress Unit} (h : CallbackStep payload isError cb l r) : l.finished? = none := by
  cases h <;> rfl

/-- A notification task that goes on has not been finished, and one that ends has. -/
lemma NotificationStep.finished? {call : NotificationCall} {documents documents' : DocumentStore}
    {pc : NotificationPc} {r : Progress NotificationPc}
    (h : NotificationStep call documents pc l documents' r) :
    (∃ pc', r = .next pc') ∧ l.finished? = none ∨
      ∃ outcome, l = .notificationEnded call outcome := by
  cases h with
  | start | hook => exact Or.inl ⟨⟨_, rfl⟩, rfl⟩
  | decodeThrows | noHook | returns | throws | escapes => exact Or.inr ⟨_, rfl⟩

/-! ## Where notifications go -/

/-- A notification that is about to be submitted waits for nothing else. -/
lemma submitting_of_task? {pc : ReaderPc} {e : Executor} {call : NotificationCall}
    (h : pc.task? = some (e, .notification call)) : pc = .submitting e (.notification call) := by
  cases pc with
  | submitting e' task =>
    rcases Prod.mk.inj (Option.some.inj h) with ⟨rfl, rfl⟩
    rfl
  | _ => exact absurd h (by simp [ReaderPc.task?])

/-- Document notifications are on the sync executor, and others are not. -/
structure Server.Routed (s : Server) : Prop where
  submitting : ∀ e call, s.reader = .submitting e (.notification call) →
    (isSyncNotification call.method = true ↔ e = .sync)
  notifying : ∀ call, s.reader = .notifying call → isSyncNotification call.method = false
  queued : ∀ e call, .notification call ∈ (s.pool e).tasks_ →
    (isSyncNotification call.method = true ↔ e = .sync)
  working : ∀ e call pc, (s.pool e).Working (.notification call pc) →
    (isSyncNotification call.method = true ↔ e = .sync)

/-- The notifications of a routed server are where they belong. -/
lemma Server.Routed.tasks (hs : s.Routed) {e : Executor} {call : NotificationCall}
    (htask : s.HasTask e (.notification call)) :
    isSyncNotification call.method = true ↔ e = .sync := by
  rcases htask with hreader | hqueued | ⟨running, hwork, htask⟩
  · exact hs.submitting e call (submitting_of_task? hreader)
  · exact hs.queued e call hqueued
  · cases running with
    | notification call' pc =>
      rw [← Task.notification.inj htask]
      exact hs.working e call' pc hwork
    | _ => exact absurd htask (by simp [Running.task])

lemma Outcome.routed {state_ : ServerState} {serial token : ℕ} {msg : ParsedMessage}
    {next : ServerState × ReaderPc} (h : Outcome cfg state_ serial token msg next)
    (call : NotificationCall) :
    (∀ e, next.2 = .submitting e (.notification call) →
      (isSyncNotification call.method = true ↔ e = .sync)) ∧
    (next.2 = .notifying call → isSyncNotification call.method = false) := by
  cases h with
  | request h => cases h <;> exact ⟨by simp, by simp⟩
  | notification h =>
    cases h with
    | initialized _ _ _ hinline | inline _ _ _ hinline =>
      refine ⟨by simp, ?_⟩
      intro hcall
      rw [← ReaderPc.notifying.inj hcall]
      exact not_sync_of_inline hinline
    | sync _ _ _ hsync =>
      refine ⟨?_, by simp⟩
      intro e hcall
      rcases ReaderPc.submitting.inj hcall with ⟨rfl, htask⟩
      rw [← Task.notification.inj htask]
      exact ⟨fun _ => rfl, fun _ => hsync⟩
    | pooled _ _ _ hsync =>
      refine ⟨?_, by simp⟩
      intro e hcall
      rcases ReaderPc.submitting.inj hcall with ⟨rfl, htask⟩
      rw [← Task.notification.inj htask]
      constructor
      · intro hsync'
        exact absurd (hsync.symm.trans hsync') (by simp)
      · intro h
        exact absurd h (by simp)
    | exit | dropped | cancel => exact ⟨by simp, by simp⟩
  | response h => cases h <;> exact ⟨by simp, by simp⟩
  | error => exact ⟨by simp, by simp⟩

lemma routed_start (cfg : Config) : (Server.start cfg).Routed := by
  refine ⟨?_, ?_, ?_, ?_⟩
  · intro e call h
    exact absurd h (by simp [Server.start])
  · intro call h
    exact absurd h (by simp [Server.start])
  · intro e call h
    exact absurd (Or.inr (Or.inl h)) (not_hasTask_start cfg)
  · intro e call pc h
    exact absurd (Or.inr (Or.inr ⟨_, h, rfl⟩)) (not_hasTask_start cfg)

lemma Server.Routed.step (hs : s.Routed) (h : Step cfg s l s') : s'.Routed := by
  -- a notification that is new has just been read
  have htasks : ∀ e call, s'.HasTask e (.notification call) →
      (isSyncNotification call.method = true ↔ e = .sync) := by
    intro e call htask
    rcases h.hasTask htask with hold | hnew
    · exact hs.tasks hold
    · cases hnew with
      | @read m body msg _ _ hnext =>
        have houtcome := dispatch_outcome cfg s.state_ s.messagesRead s.flags.length msg
        exact (houtcome.routed call).1 e (submitting_of_task? hnext)
  refine ⟨?_, ?_, ?_, ?_⟩
  · intro e call hr
    exact htasks e call (Or.inl (by rw [hr]; rfl))
  · intro call hr
    cases h with
    | reader _ _ h =>
      cases h with
      | @read body msg =>
        have houtcome := dispatch_outcome cfg s.state_ s.messagesRead s.flags.length msg
        exact (houtcome.routed call).2 hr
      | parseThrows | sendThrows | handlerEscapes | notifyEscapes | exitThrows =>
        exact hs.notifying call hr
      | _ => exact absurd hr (by simp)
    | worker _ _ _ h => exact hs.notifying call (h.control.1.symm.trans hr)
    | sender _ h =>
      rcases h.frame with ⟨_, _, _, rfl⟩
      exact hs.notifying call hr
  · intro e call hqueued
    exact htasks e call (Or.inr (Or.inl hqueued))
  · intro e call pc hwork
    exact htasks e call (Or.inr (Or.inr ⟨_, hwork, rfl⟩))

/-! ## The order on the executor -/

/-- What a step of the read thread puts on the executor waits behind the others. -/
lemma ReaderStep.unfinished (h : ReaderStep cfg s l s') (hphased : s.Phased) (hrouted : s.Routed) :
    s'.unfinished = s.unfinished ++ l.queued?.toList ∧ l.finished? = none := by
  have hsame : s'.syncExecutor_ = s.syncExecutor_ → l.queued? = none → l.finished? = none →
      s'.unfinished = s.unfinished ++ l.queued?.toList ∧ l.finished? = none := by
    intro hsync hqueued hfinished
    rw [hqueued, Server.unfinished, hsync]
    exact ⟨(List.append_nil _).symm, hfinished⟩
  cases h with
  | @submit e task hr =>
    cases e with
    | worker => exact hsame rfl rfl rfl
    | sync =>
      -- the executor takes tasks, so this one is not dropped
      have hopen : s.syncExecutor_.stopping_ = false := hphased.opened .sync (by rw [hr]; trivial)
      exact ⟨ThreadPool.waiting_submit hopen task, rfl⟩
  | @stop e =>
    cases e with
    | worker => exact hsame rfl rfl rfl
    | sync => exact ⟨(List.append_nil _).symm, rfl⟩
  | handler capabilities _ hstep =>
    rcases s.lifecycleEffect_eq capabilities _ l with ⟨_, _, _, _, heq⟩
    rw [heq] at hsame ⊢
    exact hsame rfl hstep.notifications.1 hstep.notifications.2
  | handlerFinishes _ hstep | handlerEscapes _ hstep =>
    exact hsame rfl hstep.notifications.1 hstep.notifications.2
  | notified hr =>
    refine hsame rfl rfl (if_neg ?_)
    rw [hrouted.notifying _ hr]
    simp
  | notifyEscapes hr =>
    refine hsame rfl rfl (if_neg ?_)
    rw [hrouted.notifying _ hr]
    simp
  | _ => exact hsame rfl rfl rfl

/-- A worker of the pool leaves the executor alone, and the notifications it ends are others. -/
lemma WorkerStep.unfinished_worker {w : ℕ} (h : WorkerStep cfg .worker w s l s')
    (hrouted : s.Routed) :
    s'.unfinished = s.unfinished ∧ l.finished? = none := by
  have hsync : s'.syncExecutor_ = s.syncExecutor_ :=
    h.pool_of_ne (show Executor.sync ≠ .worker by simp)
  have hunfinished : s'.unfinished = s.unfinished := by
    rw [Server.unfinished, hsync]
    rfl
  refine ⟨hunfinished, ?_⟩
  cases h with
  | take | exit | eraseToken | invoke => rfl
  | handler _ hstep | handlerFinishes _ hstep | handlerEscapes _ hstep =>
    exact hstep.notifications.2
  | callbackFinishes _ hstep | callbackEscapes _ hstep => exact hstep.finished?
  | @notification call pc _ _ _ hw hstep | @notificationFinishes call pc _ _ hw hstep
  | @notificationEscapes call pc _ _ hw hstep =>
    rcases hstep.finished? with ⟨-, hfinished⟩ | ⟨outcome, rfl⟩
    · exact hfinished
    · -- a document notification would be on the executor
      apply if_neg
      intro hsync
      have hwork : (s.pool .worker).Working (.notification call pc) :=
        ThreadPool.working_of_getElem? hw
      exact absurd ((hrouted.working .worker call pc hwork).mp hsync) (by simp)

/-- What the worker of the executor finishes was the first to wait. -/
lemma WorkerStep.unfinished_sync {w : ℕ} (h : WorkerStep cfg .sync w s l s')
    (hserial : s.syncExecutor_.Serial) (hrouted : s.Routed) (hlive : s'.terminated = false) :
    s.unfinished = l.finished?.toList ++ s'.unfinished := by
  have hsame : s'.unfinished = s.unfinished → l.finished? = none →
      s.unfinished = l.finished?.toList ++ s'.unfinished := by
    intro heq hfinished
    rw [heq, hfinished]
    rfl
  cases h with
  | @take task _ htasks hw =>
    refine hsame (ThreadPool.waiting_take hserial htasks hw ?_) rfl
    cases task <;> rfl
  | exit hdrained hw => exact hsame (ThreadPool.waiting_exit hserial hw hdrained) rfl
  | handler hw hstep | handlerFinishes hw hstep =>
    exact hsame (ThreadPool.waiting_progress hserial hw rfl) hstep.notifications.2
  | eraseToken hw => exact ThreadPool.waiting_finish hserial hw
  | notification hw hstep =>
    apply hsame (ThreadPool.waiting_progress hserial hw rfl)
    rcases hstep.finished? with ⟨-, hfinished⟩ | ⟨outcome, rfl⟩
    · exact hfinished
    · cases hstep
  | @notificationFinishes call pc _ _ hw hstep =>
    have hwork : (s.pool .sync).Working (.notification call pc) :=
      ThreadPool.working_of_getElem? hw
    have hsync : isSyncNotification call.method = true :=
      (hrouted.working .sync call pc hwork).mpr rfl
    rcases hstep.finished? with ⟨⟨_, hnext⟩, -⟩ | ⟨outcome, rfl⟩
    · exact absurd hnext (by simp)
    · have hfinished : (Label.notificationEnded call outcome).finished? = some call :=
        if_pos hsync
      rw [hfinished]
      exact ThreadPool.waiting_finish hserial hw
  | invoke hw => exact hsame (ThreadPool.waiting_progress hserial hw rfl) rfl
  | callbackFinishes hw hstep =>
    rw [hstep.finished?]
    exact ThreadPool.waiting_finish hserial hw
  | handlerEscapes | notificationEscapes | callbackEscapes =>
    -- an exception ends the process
    exact absurd hlive (by simp)

lemma Step.serial (h : Step cfg s l s') (hs : s.syncExecutor_.Serial) :
    s'.syncExecutor_.Serial := by
  unfold ThreadPool.Serial at hs ⊢
  cases h with
  | reader _ _ h =>
    have hworkers := h.workers_ .sync
    exact (congrArg List.length hworkers).trans hs
  | worker e _ _ h =>
    cases e with
    | worker =>
      have heq : s'.syncExecutor_ = s.syncExecutor_ :=
        h.pool_of_ne (show Executor.sync ≠ .worker by simp)
      rwa [heq]
    | sync =>
      cases h with
      | handlerEscapes | notificationEscapes | callbackEscapes => exact hs
      | _ => exact (List.length_set).trans hs
  | sender _ h =>
    rcases h.frame with ⟨_, _, _, rfl⟩
    exact hs

/-- The executor has finished what it was given in order, and the rest is waiting. -/
structure InOrder (ls : List Label) (s : Server) : Prop where
  phased : s.Phased
  serial : s.syncExecutor_.Serial
  routed : s.Routed
  fifo : s.terminated = false → queuedNotifications ls = finishedNotifications ls ++ s.unfinished

lemma InOrder.step (hs : InOrder ls s) (h : Step cfg s l s') : InOrder (ls ++ [l]) s' := by
  refine ⟨h.phased hs.phased, h.serial hs.serial, hs.routed.step h, ?_⟩
  intro hlive
  rw [queuedNotifications_concat, finishedNotifications_concat]
  cases h with
  | reader hrunning _ h =>
    rcases h.unfinished hs.phased hs.routed with ⟨hunfinished, hfinished⟩
    rw [hunfinished, hfinished, hs.fifo hrunning]
    simp
  | worker e _ hrunning h =>
    rw [queued?_of_not_ofReader h.label.1, hs.fifo hrunning]
    cases e with
    | worker =>
      rcases h.unfinished_worker hs.routed with ⟨hunfinished, hfinished⟩
      rw [hunfinished, hfinished]
      simp
    | sync =>
      rw [h.unfinished_sync hs.serial hs.routed hlive]
      simp
  | sender hrunning h =>
    have hlabel : l.queued? = none ∧ l.finished? = none := by cases h <;> exact ⟨rfl, rfl⟩
    rw [hlabel.1, hlabel.2, hs.fifo hrunning]
    rcases h.frame with ⟨_, _, _, rfl⟩
    simp [Server.unfinished]

theorem Runs.in_order (h : Runs cfg ls s) : InOrder ls s :=
  h.history ⟨phased_start cfg, rfl, routed_start cfg, fun _ => rfl⟩
    fun _ _ _ _ ht hstep => ht.step hstep

/-! ## The order of reading -/

/-- A notification that `dispatch` submits has the place of its message. -/
lemma Outcome.serial {state_ : ServerState} {serial token : ℕ} {msg : ParsedMessage}
    {next : ServerState × ReaderPc} (h : Outcome cfg state_ serial token msg next) {e : Executor}
    {call : NotificationCall} (hnext : next.2 = .submitting e (.notification call)) :
    call.serial = serial := by
  have hcall : ∀ {e' : Executor} {notif : ParsedNotification} {handler : NotificationHandler},
      ReaderPc.submitting e' (.notification (notif.call serial handler)) =
        .submitting e (.notification call) → call.serial = serial := by
    intro e' notif handler heq
    rw [← Task.notification.inj (ReaderPc.submitting.inj heq).2]
    rfl
  cases h with
  | request h => cases h <;> exact absurd hnext (by simp)
  | notification h =>
    cases h with
    | sync | pooled => exact hcall hnext
    | _ => exact absurd hnext (by simp)
  | response h => cases h <;> exact absurd hnext (by simp)
  | error => exact absurd hnext (by simp)

/-- The read thread reads a message, or it submits the notification it is at, or neither. -/
lemma ReaderStep.messages (h : ReaderStep cfg s l s') :
    (l.queued? = none ∧ s'.messagesRead = s.messagesRead + 1 ∧
      ∀ e call, s'.reader = .submitting e (.notification call) → call.serial = s.messagesRead) ∨
    s'.messagesRead = s.messagesRead ∧
      (∀ call, l.queued? = some call → s.reader = .submitting .sync (.notification call)) ∧
      ∀ e call, s'.reader = .submitting e (.notification call) →
        l.queued? = none ∧ s.reader = s'.reader := by
  have hquiet : s'.messagesRead = s.messagesRead → l.queued? = none →
      (s.reader = s'.reader ∨ ∀ e call, s'.reader ≠ .submitting e (.notification call)) →
      s'.messagesRead = s.messagesRead ∧
      (∀ call, l.queued? = some call → s.reader = .submitting .sync (.notification call)) ∧
      ∀ e call, s'.reader = .submitting e (.notification call) →
        l.queued? = none ∧ s.reader = s'.reader := by
    intro hread hqueued hreader
    refine ⟨hread, ?_, ?_⟩
    · intro call hcall
      exact absurd (hqueued.symm.trans hcall) (by simp)
    · intro e call hcall
      rcases hreader with hreader | hreader
      · exact ⟨hqueued, hreader⟩
      · exact absurd hcall (hreader e call)
  cases h with
  | @read body msg =>
    have houtcome := dispatch_outcome cfg s.state_ s.messagesRead s.flags.length msg
    exact Or.inl ⟨rfl, rfl, fun _ _ hcall => houtcome.serial hcall⟩
  | @submit e task hr =>
    refine Or.inr ⟨Server.setPool_messagesRead s _ _, ?_, by simp⟩
    intro call hcall
    cases e with
    | worker => exact absurd hcall (by simp [Label.queued?])
    | sync =>
      cases task with
      | notification call' =>
        have hcall' : call' = call := Option.some.inj hcall
        rw [hr, hcall']
      | _ => exact absurd hcall (by simp [Label.queued?, Task.notification?])
  | handler capabilities _ hstep =>
    rcases s.lifecycleEffect_eq capabilities _ l with ⟨_, _, _, _, heq⟩
    rw [heq] at hquiet ⊢
    exact Or.inr (hquiet rfl hstep.notifications.1 (Or.inr (by simp)))
  | handlerFinishes _ hstep => exact Or.inr (hquiet rfl hstep.notifications.1 (Or.inr (by simp)))
  | handlerEscapes _ hstep => exact Or.inr (hquiet rfl hstep.notifications.1 (Or.inl rfl))
  | parseThrows | sendThrows | notifyEscapes | exitThrows =>
    exact Or.inr (hquiet rfl rfl (Or.inl rfl))
  | stop => exact Or.inr (hquiet (Server.setPool_messagesRead s _ _) rfl (Or.inr (by simp)))
  | _ => exact Or.inr (hquiet rfl rfl (Or.inr (by simp)))

/-- Document notifications are put on the executor in the order they are read, before the next
message. -/
structure Numbered (ls : List Label) (s : Server) : Prop where
  ordered : (queuedNotifications ls).Pairwise fun call call' => call.serial < call'.serial
  queued : ∀ call ∈ queuedNotifications ls, call.serial < s.messagesRead
  submitting : ∀ e call, s.reader = .submitting e (.notification call) →
    call.serial + 1 = s.messagesRead ∧
      ∀ call' ∈ queuedNotifications ls, call'.serial < call.serial
  requests : ∀ call ∈ s.calls, call.serial < s.messagesRead

/-- A step that puts no notification on the executor. -/
lemma Numbered.of_not_queued (hs : Numbered ls s) (hl : l.queued? = none)
    (hread : s.messagesRead ≤ s'.messagesRead)
    (hsubmitting : ∀ e call, s'.reader = .submitting e (.notification call) →
      call.serial + 1 = s'.messagesRead ∧
        ∀ call' ∈ queuedNotifications ls, call'.serial < call.serial)
    (hrequests : ∀ call ∈ s'.calls, call.serial < s'.messagesRead) :
    Numbered (ls ++ [l]) s' := by
  have hqueue : queuedNotifications (ls ++ [l]) = queuedNotifications ls := by
    rw [queuedNotifications_concat, hl]
    exact List.append_nil _
  refine ⟨hqueue ▸ hs.ordered, ?_, hqueue ▸ hsubmitting, hrequests⟩
  intro call hcall
  rw [hqueue] at hcall
  have hlt := hs.queued call hcall
  omega

/-- The step that puts a notification on the executor, behind those read before it. -/
lemma Numbered.of_queued (hs : Numbered ls s) {call : NotificationCall}
    (hl : l.queued? = some call) (hreader : s.reader = .submitting .sync (.notification call))
    (hread : s'.messagesRead = s.messagesRead)
    (hleft : ∀ e call, s'.reader ≠ .submitting e (.notification call))
    (hrequests : ∀ call ∈ s'.calls, call.serial < s'.messagesRead) :
    Numbered (ls ++ [l]) s' := by
  rcases hs.submitting .sync call hreader with ⟨hserial, hlater⟩
  have hqueue : queuedNotifications (ls ++ [l]) = queuedNotifications ls ++ [call] := by
    rw [queuedNotifications_concat, hl]
    rfl
  refine ⟨?_, ?_, fun e call' hcall' => absurd hcall' (hleft e call'), hrequests⟩
  · rw [hqueue]
    apply List.pairwise_append.mpr
    refine ⟨hs.ordered, List.pairwise_singleton _ _, ?_⟩
    intro call' hcall' call'' hcall''
    rw [List.mem_singleton.mp hcall'']
    exact hlater call' hcall'
  · intro call' hcall'
    rw [hqueue] at hcall'
    rw [hread]
    rcases List.mem_append.mp hcall' with hcall' | hcall'
    · exact hs.queued call' hcall'
    · rw [List.mem_singleton.mp hcall']
      omega

lemma Numbered.step (hs : Numbered ls s) (hphased : s.Phased) (h : Step cfg s l s') :
    Numbered (ls ++ [l]) s' := by
  have hle := h.messagesRead_le
  have hrequests : ∀ call ∈ s'.calls, call.serial < s'.messagesRead := by
    intro call hcall
    rcases h.calls hphased with ⟨hcalls, -⟩ | ⟨call', heq, hserial, -, hread, -⟩
    · exact lt_of_lt_of_le (hs.requests call (Multiset.mem_of_le hcalls hcall)) hle
    · rw [heq, Multiset.mem_add, Multiset.mem_singleton] at hcall
      -- the request that is read has the number of this message
      rcases hcall with hcall | rfl
      · exact lt_of_lt_of_le (hs.requests call hcall) hle
      · omega
  cases h with
  | reader _ _ h =>
    rcases h.messages with ⟨hnone, hread, hserial⟩ | ⟨hread, hsubmitted, hreader⟩
    · -- the next message comes after everything on the executor
      apply hs.of_not_queued hnone hle _ hrequests
      intro e call hcall
      rw [hserial e call hcall, hread]
      exact ⟨rfl, hs.queued⟩
    · rcases hqueued : l.queued? with _ | call
      · apply hs.of_not_queued hqueued hle _ hrequests
        intro e call hcall
        rw [hread]
        exact hs.submitting e call ((hreader e call hcall).2.trans hcall)
      · apply hs.of_queued hqueued (hsubmitted call hqueued) hread _ hrequests
        intro e call' hcall'
        exact absurd ((hreader e call' hcall').1.symm.trans hqueued) (by simp)
  | worker _ _ _ h =>
    apply hs.of_not_queued (queued?_of_not_ofReader h.label.1) hle _ hrequests
    rw [h.control.1, h.control.2.2.1]
    exact hs.submitting
  | sender _ h =>
    have hl := h.label
    rcases h.frame with ⟨_, _, _, rfl⟩
    exact hs.of_not_queued (queued?_of_not_ofReader hl) hle hs.submitting hrequests

theorem Runs.numbered (h : Runs cfg ls s) : Numbered ls s := by
  have hboth : Numbered ls s ∧ s.Phased := by
    apply h.history (I := fun ls s => Numbered ls s ∧ s.Phased)
    · refine ⟨⟨List.Pairwise.nil, by simp [queuedNotifications], ?_, ?_⟩, phased_start cfg⟩
      · intro e call hcall
        exact absurd hcall (by simp [Server.start])
      · intro call hcall
        have hnone : (Server.start cfg).calls = 0 := Server.held_start rfl cfg
        rw [hnone] at hcall
        exact absurd hcall (Multiset.notMem_zero _)
    · intro ls t l u ht hstep
      exact ⟨ht.1.step ht.2 hstep, hstep.phased ht.2⟩
  exact hboth.1

/-- The read thread stays before `submit` until it submits. -/
lemma Step.submitting (h : Step cfg s l s') {e : Executor} {task : Task}
    (hs : s.reader = .submitting e task) :
    s'.reader = .submitting e task ∨ l = .submitted e task := by
  cases h with
  | reader _ _ h =>
    cases h with
    | submit hr =>
      rcases ReaderPc.submitting.inj (hr.symm.trans hs) with ⟨rfl, rfl⟩
      exact Or.inr rfl
    | read _ hr | parseThrows _ hr | endOfInput hr | leave hr | send hr | sendThrows hr
    | handler _ hr | handlerFinishes hr | handlerEscapes hr | insertToken hr | cancel hr
    | notified hr | notifyEscapes hr | exited hr | exitThrows _ hr | unmatched hr | matched hr
    | stop hr | joinSync hr | joinWorkers hr => exact absurd (hr.symm.trans hs) (by simp)
  | worker _ _ _ h => exact Or.inl (h.control.1.trans hs)
  | sender _ h =>
    rcases h.frame with ⟨_, _, _, rfl⟩
    exact Or.inl hs

lemma submitting_of_run {ms : List Label} {u : Server} (h : Run (Step cfg) s ms u) {e : Executor}
    {task : Task} (hs : s.reader = .submitting e task) :
    u.reader = .submitting e task ∨ .submitted e task ∈ ms := by
  rcases h.until_step (P := fun t => t.reader = .submitting e task)
    (Q := fun _ l _ => l = .submitted e task) hs
    (fun _ _ _ ht hstep => hstep.submitting ht) with
    hreader | ⟨ms₁, _, ms₂, _, _, rfl, -, -, rfl, -⟩
  · exact Or.inl hreader
  · exact Or.inr (by simp)

/-- A request whose handler starts is in hand. -/
lemma Step.calls_of_started {call : RequestCall} (h : Step cfg s (.handlerStarted call) s') :
    call ∈ s.calls := by
  rcases h.handler_inv rfl with ⟨_, _, hhandles, -⟩
  exact hhandles.mem_calls

/-! ## What has been applied -/

/-- The hook that a document notification asks for has been run on the documents. Params that do not
decode ask for none. -/
def HookRun (ls : List Label) (call : NotificationCall) : Prop :=
  call.handler.edits = true →
    ∀ hook, call.handler.hook call.params {} = .ok (some hook) → .hook call hook ∈ ls

/-- A document notification has been handled. -/
def Applied (ls : List Label) (call : NotificationCall) : Prop :=
  (∃ outcome, .notificationEnded call outcome ∈ ls) ∧ HookRun ls call

lemma HookRun.append {call : NotificationCall} (h : HookRun ls call) (ms : List Label) :
    HookRun (ls ++ ms) call :=
  fun hedits hook hhook => List.mem_append_left _ (h hedits hook hhook)

/-- A notification task gets to user code and to its end by way of the hook. -/
lemma NotificationStep.hookRun {call : NotificationCall} {documents documents' : DocumentStore}
    {pc : NotificationPc} {r : Progress NotificationPc}
    (h : NotificationStep call documents pc l documents' r)
    (hs : pc = .user → HookRun ls call) :
    (r = .next .user → HookRun (ls ++ [l]) call) ∧
      ∀ call' outcome, l = .notificationEnded call' outcome → HookRun (ls ++ [l]) call' := by
  -- the decoding does not depend on the documents
  have hdecode : ∀ {e : Except JsonError (Option Hook)},
      call.handler.hook call.params documents = e → (∀ hook, e ≠ .ok (some hook)) →
      HookRun (ls ++ [l]) call := by
    intro e he hne hedits hook hhook
    rw [NotificationHandler.hook_eq hedits call.params {} documents, he] at hhook
    exact absurd hhook (hne hook)
  have hend : HookRun (ls ++ [l]) call → ∀ {outcome : Option Exn},
      l = .notificationEnded call outcome →
      ∀ call' outcome', l = .notificationEnded call' outcome' → HookRun (ls ++ [l]) call' := by
    intro hrun outcome hl call' outcome' hl'
    rw [← (Label.notificationEnded.inj (hl.symm.trans hl')).1]
    exact hrun
  cases h with
  | start =>
    refine ⟨?_, by simp⟩
    intro hnext hedits
    split at hnext
    · next huser => exact absurd hedits (by simp [huser, NotificationHandler.edits])
    · exact absurd hnext (by simp)
  | hook hhook =>
    refine ⟨?_, by simp⟩
    intro _ hedits hook' hhook'
    rw [NotificationHandler.hook_eq hedits call.params {} documents, hhook] at hhook'
    rw [Option.some.inj (Except.ok.inj hhook')]
    simp
  | decodeThrows herror => exact ⟨by simp, hend (hdecode herror (by simp)) rfl⟩
  | noHook hnone => exact ⟨by simp, hend (hdecode hnone (by simp)) rfl⟩
  | returns | throws | escapes => exact ⟨by simp, hend ((hs rfl).append _) rfl⟩

/-- The notifications that are past their hook or have ended have had it run. -/
structure Hooked (ls : List Label) (s : Server) : Prop where
  working : ∀ e call, (s.pool e).Working (.notification call .user) → HookRun ls call
  ended : ∀ call outcome, .notificationEnded call outcome ∈ ls →
    isSyncNotification call.method = true → HookRun ls call

/-- Where a worker ends a notification, its hook has been run. -/
lemma WorkerStep.hookRun {e : Executor} {w : ℕ} (h : WorkerStep cfg e w s l s')
    (hs : ∀ call, (s.pool e).Working (.notification call .user) → HookRun ls call)
    {call : NotificationCall} {outcome : Option Exn} (hl : l = .notificationEnded call outcome) :
    HookRun (ls ++ [l]) call := by
  cases h with
  | @notification call' _ _ _ _ hw hstep | @notificationFinishes call' _ _ _ hw hstep
  | @notificationEscapes call' _ _ _ hw hstep =>
    apply (hstep.hookRun _).2 call outcome hl
    intro huser
    rw [huser] at hw
    exact hs call' (ThreadPool.working_of_getElem? hw)
  | handler _ hstep | handlerFinishes _ hstep | handlerEscapes _ hstep =>
    rw [hl] at hstep
    cases hstep
  | callbackFinishes _ hstep | callbackEscapes _ hstep =>
    rw [hl] at hstep
    cases hstep
  | _ => exact absurd hl (by simp)

/-- Where a worker is in user code, the hook has been run. -/
lemma Advanced.hookRun {e : Executor}
    (hs : ∀ call, (s.pool e).Working (.notification call .user) → HookRun ls call)
    {call : NotificationCall} (h : Advanced cfg e s l (.notification call .user)) :
    HookRun (ls ++ [l]) call := by
  generalize hrunning : Running.notification call .user = running at h
  cases h with
  | same hwork => exact (hs call (hrunning ▸ hwork)).append _
  | @taken task =>
    cases task with
    | notification => exact absurd (Running.notification.inj hrunning).2 (by simp)
    | _ => exact absurd hrunning (by simp [Task.start])
  | notification hwork hstep =>
    rcases Running.notification.inj hrunning with ⟨rfl, rfl⟩
    apply (hstep.hookRun _).1 rfl
    intro huser
    rw [huser] at hwork
    exact hs call hwork
  | _ => exact absurd hrunning (by simp)

lemma Hooked.step (hs : Hooked ls s) (hrouted : s.Routed) (h : Step cfg s l s') :
    Hooked (ls ++ [l]) s' := by
  have hended : (∀ call outcome, l = .notificationEnded call outcome →
      isSyncNotification call.method = true → HookRun (ls ++ [l]) call) →
      ∀ call outcome, .notificationEnded call outcome ∈ ls ++ [l] →
        isSyncNotification call.method = true → HookRun (ls ++ [l]) call := by
    intro hlast call outcome hmem hsync
    rcases List.mem_append.mp hmem with hmem | hmem
    · exact (hs.ended call outcome hmem hsync).append _
    · exact hlast call outcome (List.mem_singleton.mp hmem).symm hsync
  cases h with
  | reader _ _ h =>
    refine ⟨?_, hended ?_⟩
    · intro e call hwork
      exact (hs.working e call (h.working.mp hwork)).append _
    · -- the read thread runs inline notifications only
      intro call outcome hl hsync
      have hinline : s.reader = .notifying call := by
        subst hl
        cases h with
        | notified hr | notifyEscapes hr => exact hr
        | handler _ _ hstep | handlerFinishes _ hstep | handlerEscapes _ hstep => cases hstep
      exact absurd ((hrouted.notifying call hinline).symm.trans hsync) (by simp)
  | worker e w _ h =>
    refine ⟨?_, hended ?_⟩
    · intro e' call hwork
      exact (h.advanced hwork).hookRun (hs.working e')
    · intro call outcome hl _
      exact h.hookRun (hs.working e) hl
  | sender _ h =>
    have hpool := h.pool
    refine ⟨?_, hended ?_⟩
    · intro e call hwork
      rw [hpool e] at hwork
      exact (hs.working e call hwork).append _
    · intro call outcome hl
      subst hl
      cases h

theorem Runs.hooked (h : Runs cfg ls s) : Hooked ls s := by
  have hboth : Hooked ls s ∧ s.Routed := by
    apply h.history (I := fun ls s => Hooked ls s ∧ s.Routed)
    · refine ⟨⟨?_, ?_⟩, routed_start cfg⟩
      · intro e call hwork
        cases e <;> exact absurd hwork (ThreadPool.not_working_create _)
      · intro call outcome hmem
        exact absurd hmem (by simp)
    · intro ls t l u ht hstep
      exact ⟨ht.1.step ht.2 hstep, ht.2.step hstep⟩
  exact hboth.1

/-- What the executor has finished has been applied. -/
theorem Runs.applied (h : Runs cfg ls s) {call : NotificationCall}
    (hmem : call ∈ finishedNotifications ls) : Applied ls call := by
  rcases List.mem_filterMap.mp hmem with ⟨l, hl, hfinished⟩
  cases l with
  | notificationEnded call' outcome =>
    by_cases hsync : isSyncNotification call'.method = true
    · have hcall : some call' = some call := (if_pos hsync).symm.trans hfinished
      rw [← Option.some.inj hcall]
      exact ⟨⟨outcome, hl⟩, (Runs.hooked h).ended call' outcome hl hsync⟩
    · have hcall : none = some call := (if_neg hsync).symm.trans hfinished
      exact absurd hcall (by simp)
  | _ => exact absurd hfinished (by simp [Label.finished?])

end Steps

/-! ## Requests and the edits before them -/

/-- A request sees the edits that precede it: when the handler of a request on the pool starts,
every edit that was read before it, after `initialize`, has been applied. -/
def SeesEdits (cfg : Config) : Prop :=
  ∀ (p q : List Label) (u u' s s' : Server) (m : ℕ) (body : Bytes) (notif : ParsedNotification)
    (call : RequestCall),
    Runs cfg p u → Step cfg u (.read m body (.notification notif)) u' → Run (Step cfg) u' q s →
    Step cfg s (.handlerStarted call) s' → isLifecycleRequest call.method = false →
    isEdit notif.method = true → u.state_ ≠ .Uninitialized → m < call.serial →
    ∃ handler, Applied (p ++ .read m body (.notification notif) :: q) (notif.call m handler)

/-- A session in which a request is handled before the document it is about has been opened. -/
theorem not_seesEdits : ¬ SeesEdits Session.config := by
  have hrun : Reaches (Step Session.config) (Server.start Session.config) fun p u =>
      u.state_ ≠ .Uninitialized ∧ (∀ call outcome, .notificationEnded call outcome ∉ p) ∧
      ∃ m body notif u', Step Session.config u (.read m body (.notification notif)) u' ∧
        isEdit notif.method = true ∧
        Reaches (Step Session.config) u' fun q s =>
          (∀ call outcome, .notificationEnded call outcome ∉ q) ∧
          ∃ call s', Step Session.config s (.handlerStarted call) s' ∧
            isLifecycleRequest call.method = false ∧ m < call.serial := by
    apply Reaches.run Session.runs_handshake
    refine Reaches.here ⟨by decide, by simp [Session.handshake], 1, _, _, _,
      .reader rfl rfl (.read Session.didOpen.json.print rfl (by decide) rfl), by decide, ?_⟩
    apply Reaches.step (.reader rfl rfl (.submit rfl))
    apply Reaches.step (.reader rfl rfl (.read Session.hover.json.print rfl (by decide) rfl))
    apply Reaches.step (.reader rfl rfl (.insertToken rfl))
    apply Reaches.step (.reader rfl rfl (.submit rfl))
    apply Reaches.step (.worker .worker 0 rfl (.take rfl rfl))
    exact Reaches.here
      ⟨by simp, _, _, .worker .worker 0 rfl (.handler rfl (.start rfl)), by decide, by decide⟩
  rcases hrun with ⟨p, u, hp, hinit, hended, m, body, notif, u', hread, hedit, hrun⟩
  rcases hrun with ⟨q, s, hq, hended', call, s', hstart, hpooled, hbefore⟩
  intro h
  rcases h p q u u' s s' m body notif call hp hread hq hstart hpooled hedit hinit hbefore with
    ⟨handler, ⟨outcome, hmem⟩, -⟩
  rcases List.mem_append.mp hmem with hmem | hmem
  · exact hended _ _ hmem
  · rcases List.mem_cons.mp hmem with hmem | hmem
    · exact absurd hmem (by simp)
    · exact hended' _ _ hmem

/-- Where an edit stands that was read before a request whose handler starts. -/
structure Precedes (ls : List Label) (s : Server) (edit : NotificationCall) : Prop where
  /-- It has been put on the sync executor. -/
  queued : edit ∈ queuedNotifications ls
  /-- What has been put there comes in the order it was read. -/
  ordered : (queuedNotifications ls).Pairwise fun call call' => call.serial < call'.serial
  /-- An initial part of it has been applied, and the executor still has the rest. -/
  fifo : ∃ done, queuedNotifications ls = done ++ s.unfinished ∧ ∀ call ∈ done, Applied ls call
  /-- The edit has been applied unless the executor still has it. -/
  applied : edit ∉ s.unfinished → Applied ls edit

/-- When the handler of a request starts, the edits that were read before it, after `initialize`,
have been applied as far as the sync executor has got with what it was given, in order. -/
theorem edits_before_request (cfg : Config) {p q : List Label} {u u' s s' : Server} {m : ℕ}
    {body : Bytes} {notif : ParsedNotification} {call : RequestCall} (hp : Runs cfg p u)
    (hread : Step cfg u (.read m body (.notification notif)) u') (hq : Run (Step cfg) u' q s)
    (hstart : Step cfg s (.handlerStarted call) s') (hedit : isEdit notif.method = true)
    (hinit : u.state_ ≠ .Uninitialized) (hbefore : m < call.serial) :
    ∃ handler, cfg.notificationHandler notif.method = some handler ∧
      Precedes (p ++ .read m body (.notification notif) :: q) s (notif.call m handler) := by
  have hrun : Runs cfg (p ++ .read m body (.notification notif) :: q) s := by
    rw [List.append_cons]
    exact (hp.snoc hread).append hq
  have hserial := hread.serial_of_read
  rcases hread.read_inv with ⟨-, -, -, -, rfl⟩
  have hsync := isSyncNotification_of_isEdit hedit
  rcases handleNotification_sync cfg u.messagesRead hsync hinit with ⟨handler, hhandler, hnext⟩
  rw [← hserial] at hnext
  -- the read thread does not read the request before it has submitted the notification
  have hsubmitted : .submitted .sync (.notification (notif.call m handler)) ∈ q := by
    have hreader : (u.read (dispatch cfg u.state_ u.messagesRead u.flags.length
        (.notification notif))).reader =
          .submitting .sync (.notification (notif.call m handler)) := by
      show (handleNotification cfg u.state_ u.messagesRead notif).2 = _
      rw [← hserial, hnext]
    rcases submitting_of_run hq hreader with hstill | hsubmitted
    · have hlast : m + 1 = s.messagesRead := ((Runs.numbered hrun).submitting .sync _ hstill).1
      have hcall := (Runs.numbered hrun).requests call hstart.calls_of_started
      omega
    · exact hsubmitted
  have hqueued : notif.call m handler ∈
      queuedNotifications (p ++ .read m body (.notification notif) :: q) := by
    apply List.mem_filterMap.mpr
    exact ⟨_, List.mem_append_right _ (List.mem_cons_of_mem _ hsubmitted), rfl⟩
  have hfifo := (Runs.in_order hrun).fifo hstart.live
  refine ⟨handler, hhandler, hqueued, (Runs.numbered hrun).ordered,
    ⟨_, hfifo, fun c hc => Runs.applied hrun hc⟩, ?_⟩
  intro hdone
  rw [hfifo] at hqueued
  -- the edit is in the part that has been applied or in the rest
  rcases List.mem_append.mp hqueued with hfinished | hwaiting
  · exact Runs.applied hrun hfinished
  · exact absurd hwaiting hdone

/-- A session in which the document has been opened when the request is handled. -/
theorem edits_before_request_session :
    Reaches (Step Session.config) (Server.start Session.config) fun p u =>
      ∃ body notif u', Step Session.config u (.read 1 body (.notification notif)) u' ∧
        Reaches (Step Session.config) u' fun q s =>
          let ls := p ++ .read 1 body (.notification notif) :: q
          Precedes ls s (notif.call 1 .didOpen) ∧ Applied ls (notif.call 1 .didOpen) := by
  have hrun : Reaches (Step Session.config) (Server.start Session.config) fun p u =>
      u.state_ ≠ .Uninitialized ∧
      ∃ body notif u', Step Session.config u (.read 1 body (.notification notif)) u' ∧
        isEdit notif.method = true ∧
        Session.config.notificationHandler notif.method = some .didOpen ∧
        Reaches (Step Session.config) u' fun q s =>
          s.unfinished = [] ∧
          ∃ call s', Step Session.config s (.handlerStarted call) s' ∧ 1 < call.serial := by
    apply Reaches.run Session.runs_handshake
    refine Reaches.here ⟨by decide, _, _, _,
      .reader rfl rfl (.read Session.didOpen.json.print rfl (by decide) rfl), by decide, rfl, ?_⟩
    apply Reaches.step (.reader rfl rfl (.submit rfl))
    apply Reaches.step (.worker .sync 0 rfl (.take rfl rfl))
    apply Reaches.step (.reader rfl rfl (.read Session.hover.json.print rfl (by decide) rfl))
    apply Reaches.step (.worker .sync 0 rfl (.notification rfl .start))
    apply Reaches.step (.reader rfl rfl (.insertToken rfl))
    apply Reaches.step (.worker .sync 0 rfl (.notification rfl (.hook rfl)))
    apply Reaches.step (.reader rfl rfl (.submit rfl))
    apply Reaches.step (.worker .sync 0 rfl (.notificationFinishes rfl .returns))
    apply Reaches.step (.worker .worker 0 rfl (.take rfl rfl))
    exact Reaches.here ⟨rfl, _, _, .worker .worker 0 rfl (.handler rfl (.start rfl)), by decide⟩
  rcases hrun with ⟨p, u, hp, hinit, body, notif, u', hread, hedit, hhandler, hrun⟩
  rcases hrun with ⟨q, s, hq, hempty, call, s', hstart, hbefore⟩
  rcases edits_before_request Session.config hp hread hq hstart hedit hinit hbefore with
    ⟨handler, hhandler', hprecedes⟩
  rw [Option.some.inj (hhandler'.symm.trans hhandler)] at hprecedes
  refine ⟨p, u, hp, body, notif, u', hread, q, s, hq, hprecedes, hprecedes.applied ?_⟩
  rw [hempty]
  exact List.not_mem_nil

end CLSP
