import CLSP.Server.ExitCode
import CLSP.Server.Ordering
import CLSP.Server.Tasks

/-!
# Document notifications one at a time

The read thread accepts the document notifications it reads after `initialize`, and the sync
executor has one worker. What the executor has shown of them and what it has still to show is, in
every run, the start and the end of each that was accepted, in the order they were read.
-/

namespace CLSP

open Transition

/-! ## What is accepted and what is shown -/

/-- The message a call was made for. -/
def NotificationCall.notif (call : NotificationCall) : ParsedNotification where
  method := call.method
  params := call.params

/-- A handler of a document notification is called for a message, and is left. -/
inductive DocumentInvocation
  | starts (serial : ℕ) (notif : ParsedNotification)
  | ends (serial : ℕ) (notif : ParsedNotification)

/-- The start and the end of a document notification. -/
def Label.documentInvocation? : Label → Option DocumentInvocation
  | .notificationStarted call =>
    if isSyncNotification call.method then some (.starts call.serial call.notif) else none
  | .notificationEnded call _ =>
    if isSyncNotification call.method then some (.ends call.serial call.notif) else none
  | _ => none

/-- The invocations of the handlers of document notifications, in order. -/
def documentInvocations (ls : List Label) : List DocumentInvocation :=
  ls.filterMap Label.documentInvocation?

/-- A document notification that is read between `initialize` and `exit`, with its number. -/
def documentNotification? : Server × Label → Option (ℕ × ParsedNotification)
  | (s, .read serial _ (.notification notif)) =>
    if isSyncNotification notif.method ∧ s.state_ ≠ .Uninitialized ∧ s.state_ ≠ .Exited then
      some (serial, notif)
    else none
  | _ => none

/-- These notifications, in order. -/
def documentNotifications (es : List (Server × Label)) : List (ℕ × ParsedNotification) :=
  es.filterMap documentNotification?

/-- A handler is called and left before the next one is called. -/
def inTurn (notifs : List (ℕ × ParsedNotification)) : List DocumentInvocation :=
  notifs.flatMap fun notif => [.starts notif.1 notif.2, .ends notif.1 notif.2]

lemma inTurn_append (notifs notifs' : List (ℕ × ParsedNotification)) :
    inTurn (notifs ++ notifs') = inTurn notifs ++ inTurn notifs' :=
  List.flatMap_append

lemma documentInvocations_concat (ls : List Label) (l : Label) :
    documentInvocations (ls ++ [l]) =
      documentInvocations ls ++ l.documentInvocation?.toList := by
  cases h : l.documentInvocation? <;> simp [documentInvocations, h]

lemma documentNotifications_concat (es : List (Server × Label)) (e : Server × Label) :
    documentNotifications (es ++ [e]) =
      documentNotifications es ++ (documentNotification? e).toList := by
  cases h : documentNotification? e <;> simp [documentNotifications, h]

lemma eq_read_of_documentNotification? {s : Server} {l : Label} {notif : ℕ × ParsedNotification}
    (h : documentNotification? (s, l) = some notif) :
    ∃ body, l = .read notif.1 body (.notification notif.2) := by
  unfold documentNotification? at h
  split at h
  · next heq =>
    split at h
    · rw [← Option.some.inj h]
      exact ⟨_, (Prod.mk.inj heq).2⟩
    · exact absurd h (by simp)
  · exact absurd h (by simp)

/-! ## What is still to be shown -/

def NotificationCall.execution (call : NotificationCall) : List DocumentInvocation :=
  [.starts call.serial call.notif, .ends call.serial call.notif]

def Task.execution : Task → List DocumentInvocation
  | .notification call => call.execution
  | _ => []

def Running.execution : Running → List DocumentInvocation
  | .notification call .starting => call.execution
  | .notification call _ => [.ends call.serial call.notif]
  | _ => []

/-- What the read thread is about to submit. -/
def ReaderPc.execution : ReaderPc → List DocumentInvocation
  | .submitting .sync task => task.execution
  | _ => []

/-- What the sync executor and the read thread have still to show. -/
def Server.execution (s : Server) : List DocumentInvocation :=
  s.syncExecutor_.remaining Task.execution Running.execution ++ s.reader.execution

section Steps

variable {cfg : Config} {es : List (Server × Label)} {ls : List Label} {s s' : Server} {l : Label}

lemma HandlerStep.documentInvocation? {nl : Nlohmann} {call : RequestCall} {flag : Bool}
    {pc : HandlerPc} {r : Progress HandlerPc} (h : HandlerStep nl call flag pc l r) :
    l.documentInvocation? = none := by
  cases h <;> rfl

lemma CallbackStep.documentInvocation? {payload : Json} {isError : Bool} {cb : ResponseCallback}
    {r : Progress Unit} (h : CallbackStep payload isError cb l r) :
    l.documentInvocation? = none := by
  cases h <;> rfl

/-- A step of a document notification shows the next thing of its execution. -/
lemma NotificationStep.execution {call : NotificationCall} {documents documents' : DocumentStore}
    {pc : NotificationPc} {r : Progress NotificationPc}
    (h : NotificationStep call documents pc l documents' r)
    (hsync : isSyncNotification call.method = true) :
    ∃ rest, (Running.notification call pc).execution = l.documentInvocation?.toList ++ rest ∧
      (r = .finished → rest = []) ∧
      ∀ pc', r = .next pc' → rest = (Running.notification call pc').execution := by
  cases h with
  | start =>
    refine ⟨[.ends call.serial call.notif], ?_, by simp, ?_⟩
    · simp [Label.documentInvocation?, hsync, Running.execution, NotificationCall.execution]
    · intro pc' hpc'
      rw [← Progress.next.inj hpc']
      split <;> rfl
  | hook =>
    refine ⟨[.ends call.serial call.notif], rfl, by simp, ?_⟩
    intro pc' hpc'
    rw [← Progress.next.inj hpc']
    rfl
  | decodeThrows | noHook | returns | throws | escapes =>
    refine ⟨[], ?_, by simp, by simp⟩
    simp [Label.documentInvocation?, hsync, Running.execution]

/-- The worker of the executor shows what is to be shown next. -/
lemma WorkerStep.execution_sync {w : ℕ} (h : WorkerStep cfg .sync w s l s')
    (hserial : s.syncExecutor_.Serial) (hrouted : s.Routed) :
    ∃ rest, s.execution = l.documentInvocation?.toList ++ rest ∧
      (s'.terminated = false → rest = s'.execution) := by
  have hshown : ∀ {rest : List DocumentInvocation},
      s.syncExecutor_.remaining Task.execution Running.execution =
        l.documentInvocation?.toList ++ rest →
      (s'.terminated = false → rest =
        s'.syncExecutor_.remaining Task.execution Running.execution) →
      ∃ rest, s.execution = l.documentInvocation?.toList ++ rest ∧
        (s'.terminated = false → rest = s'.execution) := by
    intro rest hrest hlive
    refine ⟨rest ++ s.reader.execution, ?_, ?_⟩
    · rw [Server.execution, hrest, List.append_assoc]
    · intro hs'
      rw [Server.execution, ← hlive hs', h.control.1]
  have hquiet : l.documentInvocation? = none → (s'.terminated = false →
      s'.syncExecutor_.remaining Task.execution Running.execution =
        s.syncExecutor_.remaining Task.execution Running.execution) →
      ∃ rest, s.execution = l.documentInvocation?.toList ++ rest ∧
        (s'.terminated = false → rest = s'.execution) := by
    intro hl hsame
    exact hshown (by rw [hl]; rfl) fun hs' => (hsame hs').symm
  have hsync : ∀ {call : NotificationCall} {pc : NotificationPc},
      (s.pool .sync).workers_[w]? = some (.busy (.notification call pc)) →
      isSyncNotification call.method = true := fun hw =>
    (hrouted.working .sync _ _ (ThreadPool.working_of_getElem? hw)).mpr rfl
  have hfinish : ∀ {running : Running},
      (s.pool .sync).workers_[w]? = some (.busy running) →
      s.syncExecutor_.remaining Task.execution Running.execution =
        running.execution ++
          ((s.pool .sync).finish w).remaining Task.execution Running.execution := fun hw =>
    ThreadPool.remaining_finish hserial hw
  cases h with
  | @take task _ htasks hw =>
    apply hquiet rfl
    intro _
    exact ThreadPool.remaining_take hserial htasks hw (by cases task <;> rfl)
  | exit hdrained hw =>
    apply hquiet rfl
    intro _
    exact ThreadPool.remaining_exit hserial hw hdrained
  | handler hw hstep | handlerFinishes hw hstep =>
    apply hquiet hstep.documentInvocation?
    intro _
    exact ThreadPool.remaining_progress_of_eq hserial hw rfl
  | eraseToken hw =>
    apply hquiet rfl
    intro _
    exact (hfinish hw).symm
  | @notification call pc pc' _ _ hw hstep =>
    rcases hstep.execution (hsync hw) with ⟨rest, heq, -, hnext⟩
    rw [hnext pc' rfl] at heq
    exact hshown (ThreadPool.remaining_progress hserial hw heq) fun _ => rfl
  | @notificationFinishes call pc _ _ hw hstep =>
    rcases hstep.execution (hsync hw) with ⟨rest, heq, hlast, -⟩
    rw [hlast rfl, List.append_nil] at heq
    have hmoved := hfinish hw
    rw [heq] at hmoved
    exact hshown hmoved fun _ => rfl
  | @notificationEscapes call pc _ _ hw hstep =>
    rcases hstep.execution (hsync hw) with ⟨rest, heq, -, -⟩
    have hmoved := hfinish hw
    rw [heq, List.append_assoc] at hmoved
    -- the process ends here
    exact hshown hmoved fun hlive => absurd hlive (by simp)
  | invoke hw =>
    apply hquiet rfl
    intro _
    exact ThreadPool.remaining_progress_of_eq hserial hw rfl
  | callbackFinishes hw hstep =>
    apply hquiet hstep.documentInvocation?
    intro _
    exact (hfinish hw).symm
  | handlerEscapes hw hstep =>
    exact hquiet hstep.documentInvocation? fun hlive => absurd hlive (by simp)
  | callbackEscapes hw hstep =>
    exact hquiet hstep.documentInvocation? fun hlive => absurd hlive (by simp)

/-- The workers of the pool do not handle document notifications. -/
lemma WorkerStep.execution_worker {w : ℕ} (h : WorkerStep cfg .worker w s l s')
    (hrouted : s.Routed) : l.documentInvocation? = none ∧ s'.execution = s.execution := by
  have hpool : s'.syncExecutor_ = s.syncExecutor_ :=
    h.pool_of_ne (show Executor.sync ≠ .worker by simp)
  refine ⟨?_, by rw [Server.execution, Server.execution, hpool, h.control.1]⟩
  have hother : ∀ {call : NotificationCall} {pc : NotificationPc},
      (s.pool .worker).workers_[w]? = some (.busy (.notification call pc)) →
      ¬ isSyncNotification call.method = true := by
    intro call pc hw hsync
    have hwork := hrouted.working .worker call pc (ThreadPool.working_of_getElem? hw)
    exact absurd (hwork.mp hsync) (by simp)
  cases h with
  | take | exit | eraseToken | invoke => rfl
  | handler _ hstep | handlerFinishes _ hstep | handlerEscapes _ hstep =>
    exact hstep.documentInvocation?
  | callbackFinishes _ hstep | callbackEscapes _ hstep => exact hstep.documentInvocation?
  | notification hw hstep | notificationFinishes hw hstep | notificationEscapes hw hstep =>
    cases hstep <;> first | rfl | exact if_neg (hother hw)

/-- What `dispatch` makes of a message is accepted by the executor exactly if it is a document
notification after `initialize`. -/
lemma dispatch_execution (hexited : s.state_ ≠ .Exited) (body : Bytes) (msg : ParsedMessage) :
    (dispatch cfg s.state_ s.messagesRead s.flags.length msg).2.execution =
      inTurn (documentNotification? (s, .read s.messagesRead body msg)).toList := by
  have houtcome := dispatch_outcome cfg s.state_ s.messagesRead s.flags.length msg
  generalize hnext : dispatch cfg s.state_ s.messagesRead s.flags.length msg = next at houtcome
  cases houtcome with
  | request h => cases h <;> rfl
  | response h => cases h <;> rfl
  | error => rfl
  | @notification notif next h =>
    by_cases haccepted : isSyncNotification notif.method = true ∧ s.state_ ≠ .Uninitialized
    · rcases handleNotification_sync cfg s.messagesRead haccepted.1 haccepted.2 with
        ⟨handler, -, heq⟩
      have hnext' : handleNotification cfg s.state_ s.messagesRead notif = next := hnext
      rw [← hnext', heq]
      simp [documentNotification?, haccepted, hexited, inTurn, ReaderPc.execution,
        Task.execution, NotificationCall.execution, NotificationCall.notif,
        ParsedNotification.call]
    · have hnone : documentNotification? (s, .read s.messagesRead body (.notification notif)) =
          none := by
        apply if_neg
        exact fun hall => haccepted ⟨hall.1, hall.2.1⟩
      rw [hnone]
      cases h with
      | sync hinit _ _ hsync => exact absurd ⟨hsync, hinit⟩ haccepted
      | _ => rfl

/-- The read thread shows nothing, and adds to what is to be shown where it reads. -/
lemma ReaderStep.execution (h : ReaderStep cfg s l s') (hphased : s.Phased) (hrouted : s.Routed) :
    l.documentInvocation? = none ∧
      s'.execution = s.execution ++ inTurn (documentNotification? (s, l)).toList := by
  have hquiet : l.documentInvocation? = none → documentNotification? (s, l) = none →
      s'.execution = s.execution → l.documentInvocation? = none ∧
        s'.execution = s.execution ++ inTurn (documentNotification? (s, l)).toList := by
    intro hl hnone hsame
    rw [hsame, hnone]
    exact ⟨hl, (List.append_nil _).symm⟩
  have hhandler : ∀ {call : RequestCall} {flag : Bool} {pc : HandlerPc} {r : Progress HandlerPc},
      HandlerStep cfg.nl call flag pc l r → documentNotification? (s, l) = none := by
    intro call flag pc r hstep
    cases hstep <;> rfl
  unfold Server.execution at hquiet ⊢
  cases h with
  | @read body msg hr hexited _ =>
    refine ⟨rfl, ?_⟩
    rw [← dispatch_execution hexited body msg, hr]
    show s.syncExecutor_.remaining _ _ ++ _ = s.syncExecutor_.remaining _ _ ++ [] ++ _
    rw [List.append_nil]
    rfl
  | @submit e task hr =>
    apply hquiet rfl rfl
    cases e with
    | worker =>
      rw [hr]
      rfl
    | sync =>
      -- the task goes from the read thread to the end of the queue
      have hopen : s.syncExecutor_.stopping_ = false := hphased.opened .sync (by rw [hr]; trivial)
      have hmoved := ThreadPool.remaining_submit (f := Task.execution) (g := Running.execution)
        hopen task
      rw [hr]
      exact (List.append_nil _).trans hmoved
  | @stop e hr =>
    apply hquiet rfl rfl
    rw [hr]
    cases e <;> rfl
  | handler capabilities hr hstep =>
    rcases s.lifecycleEffect_eq capabilities _ l with ⟨_, _, _, _, heq⟩
    rw [heq] at hquiet ⊢
    apply hquiet hstep.documentInvocation? (hhandler hstep)
    rw [hr]
    rfl
  | handlerFinishes hr hstep =>
    apply hquiet hstep.documentInvocation? (hhandler hstep)
    rw [hr]
    rfl
  | handlerEscapes _ hstep => exact hquiet hstep.documentInvocation? (hhandler hstep) rfl
  | notified hr =>
    apply hquiet (if_neg ?_) rfl
    · rw [hr]
      rfl
    · simp [hrouted.notifying _ hr]
  | notifyEscapes hr =>
    apply hquiet (if_neg ?_) rfl rfl
    simp [hrouted.notifying _ hr]
  | parseThrows | sendThrows | exitThrows => exact hquiet rfl rfl rfl
  | matched hr =>
    apply hquiet rfl rfl
    rw [hr]
    rfl
  | endOfInput hr | leave hr | send hr | insertToken hr | cancel hr | exited hr | unmatched hr
  | joinSync hr | joinWorkers hr =>
    apply hquiet rfl rfl
    rw [hr]
    rfl

lemma Step.execution (h : Step cfg s l s') (hphased : s.Phased)
    (hserial : s.syncExecutor_.Serial) (hrouted : s.Routed) :
    ∃ rest, s.execution ++ inTurn (documentNotification? (s, l)).toList =
      l.documentInvocation?.toList ++ rest ∧ (s'.terminated = false → rest = s'.execution) := by
  have hunread : l.ofReader = false → documentNotification? (s, l) = none := by
    intro hl
    cases l with
    | read => exact absurd hl (by simp [Label.ofReader])
    | _ => rfl
  cases h with
  | reader _ _ h =>
    rcases h.execution hphased hrouted with ⟨hl, heq⟩
    rw [hl, ← heq]
    exact ⟨_, rfl, fun _ => rfl⟩
  | worker e _ _ h =>
    rw [hunread h.label.1]
    show ∃ rest, s.execution ++ [] = _ ∧ _
    rw [List.append_nil]
    cases e with
    | worker =>
      rcases h.execution_worker hrouted with ⟨hl, heq⟩
      rw [hl, ← heq]
      exact ⟨_, rfl, fun _ => rfl⟩
    | sync => exact h.execution_sync hserial hrouted
  | sender _ h =>
    rw [hunread h.label]
    have hl : l.documentInvocation? = none := by cases h <;> rfl
    rcases h.frame with ⟨_, _, _, rfl⟩
    rw [hl]
    exact ⟨s.execution, List.append_nil _, fun _ => rfl⟩

/-- The recorded runs of a server from its start. -/
abbrev RecordedRuns (cfg : Config) (es : List (Server × Label)) (s : Server) : Prop :=
  Run (Recorded (Step cfg)) (Server.start cfg) es s

/-- What holds of the recorded runs holds of all runs. -/
theorem Runs.recorded (h : Runs cfg ls s) :
    ∃ es, es.map Prod.snd = ls ∧ RecordedRuns cfg es s :=
  Run.record h

/-- What has been shown and what is still to be shown are the invocations of what was accepted, one
after the other. -/
theorem RecordedRuns.execution (h : RecordedRuns cfg es s) :
    ∃ rest, inTurn (documentNotifications es) =
      documentInvocations (es.map Prod.snd) ++ rest ∧
        (s.terminated = false → rest = s.execution) := by
  induction h with
  | nil => exact ⟨[], rfl, fun _ => rfl⟩
  | @snoc es t u e hrun hstep ih =>
    cases hstep with
    | @intro l _ hstep =>
      rcases ih with ⟨before, hbefore, hlive⟩
      have hinv := Runs.in_order (Run.unrecord hrun)
      rcases hstep.execution hinv.phased hinv.serial hinv.routed with ⟨rest, hrest, hlive'⟩
      refine ⟨rest, ?_, hlive'⟩
      rw [documentNotifications_concat, inTurn_append, hbefore, hlive hstep.live, List.map_append,
        List.append_assoc, hrest]
      show _ = documentInvocations (es.map Prod.snd ++ [l]) ++ rest
      rw [documentInvocations_concat, List.append_assoc]

/-- Messages are numbered in the order they are read. -/
lemma RecordedRuns.numbers (h : RecordedRuns cfg es s) :
    (documentNotifications es).Pairwise (fun notif notif' => notif.1 < notif'.1) ∧
      ∀ notif ∈ documentNotifications es, notif.1 < s.messagesRead := by
  induction h with
  | nil => exact ⟨List.Pairwise.nil, by simp [documentNotifications]⟩
  | @snoc es t u e hrun hstep ih =>
    rcases ih with ⟨hpairwise, hbefore⟩
    cases hstep with
    | @intro l _ hstep =>
      have hnew : ∀ notif ∈ documentNotification? (t, l),
          notif.1 = t.messagesRead ∧ t.messagesRead < u.messagesRead := by
        intro notif hnotif
        rcases eq_read_of_documentNotification? hnotif with ⟨body, rfl⟩
        have hserial := hstep.serial_of_read
        rcases hstep.read_inv with ⟨-, -, -, -, rfl⟩
        exact ⟨hserial, Nat.lt_succ_self _⟩
      rw [documentNotifications_concat]
      refine ⟨?_, ?_⟩
      · apply List.pairwise_append.mpr
        refine ⟨hpairwise, ?_, ?_⟩
        · cases documentNotification? (t, l) <;> simp
        · intro notif hnotif notif' hnotif'
          rw [(hnew notif' (by simpa using hnotif')).1]
          exact hbefore notif hnotif
      · intro notif hnotif
        rcases List.mem_append.mp hnotif with hnotif | hnotif
        · exact lt_of_lt_of_le (hbefore notif hnotif) hstep.messagesRead_le
        · rcases hnew notif (by simpa using hnotif) with ⟨heq, hlt⟩
          omega

/-! ## The end of `run` -/

/-- Nothing ends the process once `run` has returned. -/
lemma Runs.live_of_returned (h : Runs cfg ls s) (hr : s.reader = .returned) :
    s.terminated = false := by
  cases h with
  | nil => rfl
  | snoc hrun hstep =>
    have hphased := hstep.phased (Runs.phased hrun)
    have hlive := hstep.live
    cases hstep with
    | reader _ _ h => exact h.terminated.trans hlive
    | worker e _ _ h =>
      -- the threads of the pools have been joined
      have hjoined := (Runs.phased hrun).joined e (by rw [← h.control.1, hr]; cases e <;> trivial)
      exact absurd hjoined h.not_joined
    | sender _ h =>
      rcases h.frame with ⟨_, _, _, rfl⟩
      exact hlive

/-- When `run` has returned nothing is left to be shown. -/
lemma Runs.execution_of_returned (h : Runs cfg ls s) (hr : s.reader = .returned) :
    s.execution = [] := by
  have hjoined : s.syncExecutor_.Joined := (Runs.phased h).joined .sync (by rw [hr]; trivial)
  rw [Server.execution, hjoined.remaining_eq_nil, hr]
  rfl

/-! ## The handlers -/

/-- The calls in the pools are those of the registered handlers. -/
lemma Runs.registered (h : Runs cfg ls s) {e : Executor} {call : NotificationCall}
    (htask : s.HasTask e (.notification call)) :
    cfg.notificationHandler call.method = some call.handler := by
  have hall : ∀ call', Task.notification call = .notification call' →
      cfg.notificationHandler call'.method = some call'.handler := by
    apply Runs.tasks (P := fun _ task => ∀ call', task = .notification call' →
      cfg.notificationHandler call'.method = some call'.handler) h _ htask
    intro t l u e task _ hnew call' htask'
    subst htask'
    cases hnew with
    | @read _ _ msg _ _ hr =>
      have houtcome := dispatch_outcome cfg t.state_ t.messagesRead t.flags.length msg
      generalize dispatch cfg t.state_ t.messagesRead t.flags.length msg = next at houtcome hr
      cases houtcome with
      | request h => cases h <;> exact absurd hr (by simp [ReaderPc.task?])
      | response h => cases h <;> exact absurd hr (by simp [ReaderPc.task?])
      | error => exact absurd hr (by simp [ReaderPc.task?])
      | notification h =>
        cases h with
        | sync _ hhandler | pooled _ hhandler =>
          have htask' := (Prod.mk.inj (Option.some.inj hr)).2
          rw [← Task.notification.inj htask']
          exact hhandler
        | _ => exact absurd hr (by simp [ReaderPc.task?])
  exact hall call rfl

/-- Only workers call handlers of document notifications, for a task of theirs. -/
lemma Step.hasTask_of_started {call : NotificationCall}
    (h : Step cfg s (.notificationStarted call) s') : ∃ e, s.HasTask e (.notification call) := by
  cases h with
  | reader _ _ h =>
    cases h with
    | handler _ _ hstep | handlerFinishes _ hstep | handlerEscapes _ hstep => cases hstep
  | worker e _ _ h => exact ⟨e, h.task? rfl⟩
  | sender _ h => cases h

/-- An idle worker of the executor can take the next task. -/
lemma exists_taken {w : ℕ} (hlive : s.terminated = false)
    (hidle : (s.pool .sync).workers_[w]? = some .idle) {task : Task} {rest : List Task}
    (htasks : (s.pool .sync).tasks_ = task :: rest) : ∃ s', Step cfg s (.taken .sync task) s' :=
  ⟨_, .worker .sync w hlive (.take htasks hidle)⟩

/-- Only workers leave handlers of document notifications. -/
lemma Step.worker_of_notificationEnded {call : NotificationCall} {outcome : Option Exn}
    (h : Step cfg s (.notificationEnded call outcome) s') (hrouted : s.Routed)
    (hsync : isSyncNotification call.method = true) :
    ∃ e w, WorkerStep cfg e w s (.notificationEnded call outcome) s' := by
  cases h with
  | reader _ _ h =>
    cases h with
    | notified hr | notifyEscapes hr =>
      rw [hrouted.notifying call hr] at hsync
      exact absurd hsync (by simp)
    | handler _ _ hstep | handlerFinishes _ hstep | handlerEscapes _ hstep => cases hstep
  | worker e w _ h => exact ⟨e, w, h⟩
  | sender _ h => cases h

/-- A handler of a document notification that throws a `std::exception` leaves the executor ready
for the next task. -/
lemma Step.goes_on {call : NotificationCall} {e : Exn}
    (h : Step cfg s (.notificationEnded call (some e)) s') (hserial : s.syncExecutor_.Serial)
    (hrouted : s.Routed) (hsync : isSyncNotification call.method = true) (he : e.isStd = true) :
    s'.terminated = false ∧ ∀ task rest, s'.syncExecutor_.tasks_ = task :: rest →
      ∃ s'', Step cfg s' (.taken .sync task) s'' := by
  have hlive := h.live
  rcases h.worker_of_notificationEnded hrouted hsync with ⟨executor, w, h⟩
  cases h with
  | handler _ hstep | handlerFinishes _ hstep | handlerEscapes _ hstep => cases hstep
  | callbackFinishes _ hstep | callbackEscapes _ hstep => cases hstep
  | notification _ hstep => cases hstep
  | @notificationFinishes call' pc _ documents hw hstep =>
    have hcall : call' = call := by cases hstep <;> rfl
    subst hcall
    have hexecutor : executor = .sync :=
      (hrouted.working executor call' pc (ThreadPool.working_of_getElem? hw)).mp hsync
    subst hexecutor
    refine ⟨hlive, ?_⟩
    intro task rest htasks
    have hidle : (s.syncExecutor_.workers_.set w .idle)[w]? = some .idle := by
      rcases hserial.workers_eq hw with ⟨rfl, heq⟩
      rw [heq]
      rfl
    exact exists_taken
      (s := { s.setPool .sync ((s.pool .sync).finish w) with documents_ := documents })
      hlive hidle htasks
  | notificationEscapes _ hstep =>
    cases hstep with
    | escapes hother => exact absurd (he.symm.trans hother) (by simp)

/-! ## The result -/

/-- What the runs of a server keep to with the document notifications. -/
structure HandledInTurn (cfg : Config) (es : List (Server × Label)) (s : Server) : Prop where
  /-- The notifications this is about have one of four methods. -/
  methods : ∀ method, isSyncNotification method = true ↔
    method ∈ [str "textDocument/didOpen", str "textDocument/didChange",
      str "textDocument/didClose", str "textDocument/didSave"]
  /-- A message is accepted once. -/
  once : (documentNotifications es).Pairwise fun notif notif' => notif.1 < notif'.1
  /-- Handlers are called and left one after the other, for the notifications that are accepted, in
  the order in which these are read. -/
  inOrder : documentInvocations (es.map Prod.snd) <+: inTurn (documentNotifications es)
  /-- They are the registered ones. -/
  registered : ∀ call, .notificationStarted call ∈ es.map Prod.snd →
    cfg.notificationHandler call.method = some call.handler
  /-- A `std::exception` does not keep the executor from its next task. -/
  goesOn : ∀ call e s', Step cfg s (.notificationEnded call (some e)) s' →
    isSyncNotification call.method = true → e.isStd = true →
    s'.terminated = false ∧ ∀ task rest, s'.syncExecutor_.tasks_ = task :: rest →
      ∃ s'', Step cfg s' (.taken .sync task) s''
  /-- When `run` has returned all of them have been handled. -/
  finished : ∀ code, .returned code ∈ es.map Prod.snd →
    documentInvocations (es.map Prod.snd) = inTurn (documentNotifications es)

/-- **Document notifications** are handled one at a time, in order, and all before `run` returns. -/
theorem handled_in_turn (cfg : Config) (es : List (Server × Label)) (s : Server)
    (h : RecordedRuns cfg es s) : HandledInTurn cfg es s := by
  have hrun : Runs cfg (es.map Prod.snd) s := Run.unrecord h
  have hinv := Runs.in_order hrun
  rcases RecordedRuns.execution h with ⟨rest, hrest, hlive⟩
  refine ⟨?_, (RecordedRuns.numbers h).1, ⟨rest, hrest.symm⟩, ?_, ?_, ?_⟩
  · intro method
    simp [isSyncNotification, or_assoc]
  · intro call hmem
    rcases List.append_of_mem hmem with ⟨ls₁, ls₂, hls⟩
    rw [hls] at hrun
    rcases hrun.split_at with ⟨t, t', ht, hstep, -⟩
    rcases hstep.hasTask_of_started with ⟨e, htask⟩
    exact Runs.registered ht htask
  · intro call e s' hstep hsync he
    exact hstep.goes_on hinv.serial hinv.routed hsync he
  · intro code hmem
    have hr := Runs.reader_of_returned hrun hmem
    rw [hrest, hlive (Runs.live_of_returned hrun hr), Runs.execution_of_returned hrun hr,
      List.append_nil]

end Steps

/-- A session with two document notifications: the second one waits until the hook of the first has
thrown. -/
theorem handled_in_turn_session :
    Reaches (Recorded (Step Session.config)) (Server.start Session.config) fun es s =>
      (∃ code, .returned code ∈ es.map Prod.snd) ∧ (documentNotifications es).length = 2 ∧
        HandledInTurn Session.config es s := by
  have hrun : Reaches (Recorded (Step Session.config)) (Server.start Session.config) fun es _ =>
      ∃ code notif, (es.map Prod.snd).getLast? = some (.returned code) ∧
        documentNotifications es = [(1, notif), (2, notif)] := by
    apply Reaches.step
      (.intro (.reader rfl rfl (.read Session.initializeRequest.json.print rfl (by decide) rfl)))
    apply Reaches.step (.intro (.reader rfl rfl (.handler ⟨none, none⟩ rfl (.start rfl))))
    apply Reaches.step (.intro (.reader rfl rfl (.handler ⟨none, none⟩ rfl (.returns .null))))
    apply Reaches.step (.intro (.reader rfl rfl (.handlerFinishes rfl (.send rfl))))
    apply Reaches.step
      (.intro (.reader rfl rfl (.read Session.didOpen.json.print rfl (by decide) rfl)))
    apply Reaches.step (.intro (.reader rfl rfl (.submit rfl)))
    apply Reaches.step (.intro (.worker .sync 0 rfl (.take rfl rfl)))
    apply Reaches.step
      (.intro (.reader rfl rfl (.read Session.didOpen.json.print rfl (by decide) rfl)))
    apply Reaches.step (.intro (.reader rfl rfl (.submit rfl)))
    apply Reaches.step
      (.intro (.reader rfl rfl (.read Session.exit.json.print rfl (by decide) rfl)))
    apply Reaches.step (.intro (.worker .sync 0 rfl (.notification rfl .start)))
    apply Reaches.step (.intro (.worker .sync 0 rfl (.notification rfl (.hook rfl))))
    apply Reaches.step (.intro (.reader rfl rfl (.exited rfl)))
    apply Reaches.step (.intro (.reader rfl rfl (.leave rfl rfl)))
    apply Reaches.step (.intro (.reader rfl rfl (.stop rfl)))
    apply Reaches.step (.intro (.worker .sync 0 rfl
      (.notificationFinishes rfl (.throws (e := .std (str "full")) rfl))))
    -- the second one, which is still queued
    apply Reaches.step (.intro (.worker .sync 0 rfl (.take rfl rfl)))
    apply Reaches.step (.intro (.worker .sync 0 rfl (.notification rfl .start)))
    apply Reaches.step (.intro (.worker .sync 0 rfl (.notification rfl (.hook rfl))))
    apply Reaches.step (.intro (.worker .sync 0 rfl (.notificationFinishes rfl .returns)))
    apply Reaches.step (.intro (.worker .sync 0 rfl (.exit ⟨rfl, rfl⟩ rfl)))
    apply Reaches.step (.intro (.reader rfl rfl (.joinSync rfl rfl)))
    apply Reaches.step (.intro (.reader rfl rfl (.stop rfl)))
    apply Reaches.step (.intro (.worker .worker 0 rfl (.exit ⟨rfl, rfl⟩ rfl)))
    apply Reaches.step (.intro (.worker .worker 1 rfl (.exit ⟨rfl, rfl⟩ rfl)))
    apply Reaches.step (.intro (.reader rfl rfl (.joinWorkers rfl rfl)))
    exact Reaches.here ⟨_, _, rfl, rfl⟩
  rcases hrun with ⟨es, s, hrun, code, notif, hlast, hnotifs⟩
  refine ⟨es, s, hrun, ⟨code, List.mem_of_getLast? hlast⟩, ?_,
    handled_in_turn Session.config es s hrun⟩
  rw [hnotifs]
  rfl

end CLSP
