import CLSP.Server.Hooks
import Mathlib.Data.List.Flatten

/-!
# The documents of a run

The read thread, the sync executor and the other threads run concurrently, but the documents are
those of a sequential server: the notifications that are accepted, served one after the other in the
order in which they are read.
-/

namespace CLSP

open Transition

/-! ## The sequential server -/

/-- What serving a document notification does to the documents. -/
def DocumentStore.notify (cfg : Config) (documents : DocumentStore) (notif : ParsedNotification) :
    DocumentStore :=
  match cfg.notificationHandler notif.method with
  | none => documents
  | some handler =>
    match handler.hook notif.params documents with
    | .ok (some hook) => hook.run documents
    | _ => documents

def DocumentStore.notifyAll (cfg : Config) (documents : DocumentStore)
    (notifs : List ParsedNotification) : DocumentStore :=
  notifs.foldl (notify cfg) documents

lemma DocumentStore.eq_of_eq {documents documents' : DocumentStore}
    (hdocuments : documents.documents_ = documents'.documents_)
    (hencoding : documents.encoding_ = documents'.encoding_) : documents = documents' := by
  cases documents
  cases documents'
  rw [DocumentStore.mk.injEq]
  exact ⟨hdocuments, hencoding⟩

lemma DocumentStore.notify_of_hook {cfg : Config} {documents : DocumentStore}
    (notif : ParsedNotification) {handler : NotificationHandler} (hook : Hook)
    (hhandler : cfg.notificationHandler notif.method = some handler)
    (h : handler.hook notif.params documents = .ok (some hook)) :
    documents.notify cfg notif = hook.run documents := by
  simp only [notify, hhandler, h]

lemma DocumentStore.notify_of_quiet {cfg : Config} {documents : DocumentStore}
    (notif : ParsedNotification) {handler : NotificationHandler}
    (hhandler : cfg.notificationHandler notif.method = some handler)
    (h : ∀ hook, handler.hook notif.params documents ≠ .ok (some hook)) :
    documents.notify cfg notif = documents := by
  unfold notify
  rw [hhandler]
  dsimp only
  split
  · next hook heq => exact absurd heq (h hook)
  · rfl

/-! ## What is still to be served -/

def Task.unserved : Task → List ParsedNotification
  | .notification call => [call.notif]
  | _ => []

/-- The hook is the step that serves a notification. -/
def Running.unserved : Running → List ParsedNotification
  | .notification _ .user => []
  | .notification call _ => [call.notif]
  | _ => []

def ReaderPc.unserved : ReaderPc → List ParsedNotification
  | .submitting .sync task => task.unserved
  | _ => []

def Server.unserved (s : Server) : List ParsedNotification :=
  s.syncExecutor_.remaining Task.unserved Running.unserved ++ s.reader.unserved

/-- The notification that an invocation is the start of. -/
def DocumentInvocation.started? : DocumentInvocation → Option ParsedNotification
  | .starts _ notif => some notif
  | .ends _ _ => none

lemma ReaderPc.unserved_eq (pc : ReaderPc) :
    pc.unserved = pc.execution.filterMap DocumentInvocation.started? := by
  cases pc with
  | submitting e task => cases e <;> cases task <;> rfl
  | _ => rfl

lemma started_inTurn (notifs : List (ℕ × ParsedNotification)) :
    (inTurn notifs).filterMap DocumentInvocation.started? = notifs.map Prod.snd := by
  induction notifs with
  | nil => rfl
  | cons notif notifs ih => exact congrArg (notif.2 :: ·) ih

lemma Task.unserved_start (task : Task) : task.start.unserved = task.unserved := by
  cases task <;> rfl

section Steps

variable {cfg : Config} {es : List (Server × Label)} {ls : List Label} {s s' : Server} {l : Label}

/-- What a task has still to serve after a step that leaves it so. -/
def Progress.unserved (call : NotificationCall) (pc : NotificationPc) :
    Progress NotificationPc → List ParsedNotification
  | .next pc' => (Running.notification call pc').unserved
  | .finished => []
  | .escaped => (Running.notification call pc).unserved

/-- A step of a task serves its notification, or nothing. -/
lemma NotificationStep.served {call : NotificationCall} {documents documents' : DocumentStore}
    {pc : NotificationPc} {r : Progress NotificationPc}
    (h : NotificationStep call documents pc l documents' r)
    (hhandler : cfg.notificationHandler call.method = some call.handler) :
    ∃ served, (Running.notification call pc).unserved = served ++ r.unserved call pc ∧
      documents' = documents.notifyAll cfg served := by
  have hquiet : (∀ hook, call.handler.hook call.params documents ≠ .ok (some hook)) →
      documents = documents.notifyAll cfg [call.notif] := fun hnone =>
    (DocumentStore.notify_of_quiet call.notif hhandler hnone).symm
  cases h with
  | start =>
    -- a handler of the user has no hook to come, so its notification counts as served
    by_cases huser : call.handler = .user
    · rw [if_pos huser]
      refine ⟨[call.notif], rfl, hquiet ?_⟩
      simp [huser, NotificationHandler.hook, pure, Except.pure]
    · rw [if_neg huser]
      exact ⟨[], rfl, rfl⟩
  | decodeThrows herror =>
    exact ⟨[call.notif], rfl, hquiet (by simp [herror])⟩
  | noHook hnone =>
    exact ⟨[call.notif], rfl, hquiet (by simp [hnone])⟩
  | @hook hook hhook =>
    refine ⟨[call.notif], rfl, ?_⟩
    exact (DocumentStore.notify_of_hook call.notif hook hhandler hhook).symm
  | returns | throws | escapes => exact ⟨[], rfl, rfl⟩

/-- The worker of the executor serves what is to be served next. -/
lemma WorkerStep.served_sync {w : ℕ} (h : WorkerStep cfg .sync w s l s')
    (hserial : s.syncExecutor_.Serial)
    (hregistered : ∀ call pc, s.syncExecutor_.Working (.notification call pc) →
      cfg.notificationHandler call.method = some call.handler) :
    ∃ served, s.unserved = served ++ s'.unserved ∧
      s'.documents_ = s.documents_.notifyAll cfg served := by
  have hmoved : ∀ {served : List ParsedNotification},
      s.syncExecutor_.remaining Task.unserved Running.unserved =
        served ++ s'.syncExecutor_.remaining Task.unserved Running.unserved →
      s'.documents_ = s.documents_.notifyAll cfg served →
      ∃ served, s.unserved = served ++ s'.unserved ∧
        s'.documents_ = s.documents_.notifyAll cfg served := by
    intro served hserved hdocuments
    refine ⟨served, ?_, hdocuments⟩
    rw [Server.unserved, Server.unserved, hserved, h.control.1, List.append_assoc]
  have hcall : ∀ {call : NotificationCall} {pc : NotificationPc},
      (s.pool .sync).workers_[w]? = some (.busy (.notification call pc)) →
      cfg.notificationHandler call.method = some call.handler := fun hw =>
    hregistered _ _ (ThreadPool.working_of_getElem? hw)
  have hfinish : ∀ {running : Running},
      (s.pool .sync).workers_[w]? = some (.busy running) →
      s.syncExecutor_.remaining Task.unserved Running.unserved =
        running.unserved ++
          ((s.pool .sync).finish w).remaining Task.unserved Running.unserved := fun hw =>
    ThreadPool.remaining_finish hserial hw
  have hquiet : s'.syncExecutor_.remaining Task.unserved Running.unserved =
        s.syncExecutor_.remaining Task.unserved Running.unserved →
      s'.documents_ = s.documents_ → ∃ served, s.unserved = served ++ s'.unserved ∧
        s'.documents_ = s.documents_.notifyAll cfg served := by
    intro hsame hdocuments
    have hnothing : s.syncExecutor_.remaining Task.unserved Running.unserved =
        [] ++ s'.syncExecutor_.remaining Task.unserved Running.unserved := hsame.symm
    exact hmoved hnothing hdocuments
  -- one worker takes the tasks in order, so what it serves is what was to be served first
  cases h with
  | @take task _ htasks hw =>
    exact hquiet (ThreadPool.remaining_take hserial htasks hw task.unserved_start) rfl
  | exit hdrained hw => exact hquiet (ThreadPool.remaining_exit hserial hw hdrained) rfl
  | handler hw hstep =>
    exact hquiet (ThreadPool.remaining_progress_of_eq hserial hw rfl) rfl
  | handlerFinishes hw hstep =>
    exact hquiet (ThreadPool.remaining_progress_of_eq hserial hw rfl) rfl
  | invoke hw => exact hquiet (ThreadPool.remaining_progress_of_eq hserial hw rfl) rfl
  | eraseToken hw | callbackFinishes hw => exact hquiet (hfinish hw).symm rfl
  | handlerEscapes | callbackEscapes => exact hquiet rfl rfl
  | notification hw hstep =>
    rcases hstep.served (hcall hw) with ⟨served, hserved, hdocuments⟩
    exact hmoved (ThreadPool.remaining_progress hserial hw hserved) hdocuments
  | notificationFinishes hw hstep =>
    rcases hstep.served (hcall hw) with ⟨served, hserved, hdocuments⟩
    have hleft := hfinish hw
    rw [hserved, List.append_assoc] at hleft
    exact hmoved hleft hdocuments
  | notificationEscapes hw hstep =>
    cases hstep with
    | escapes => exact hquiet rfl rfl

/-- The workers of the pool serve nothing. -/
lemma WorkerStep.served_worker {w : ℕ} (h : WorkerStep cfg .worker w s l s')
    (hrouted : s.Routed)
    (hregistered : ∀ call pc, s.workerPool_.Working (.notification call pc) →
      cfg.notificationHandler call.method = some call.handler) :
    s'.unserved = s.unserved ∧ s'.documents_ = s.documents_ := by
  have hpool : s'.syncExecutor_ = s.syncExecutor_ :=
    h.pool_of_ne (show Executor.sync ≠ .worker by simp)
  refine ⟨by rw [Server.unserved, Server.unserved, hpool, h.control.1], ?_⟩
  have hnotification : ∀ {call : NotificationCall} {pc : NotificationPc} {l : Label}
      {documents : DocumentStore} {r : Progress NotificationPc},
      (s.pool .worker).workers_[w]? = some (.busy (.notification call pc)) →
      NotificationStep call s.documents_ pc l documents r → documents = s.documents_ := by
    intro call pc l documents r hw hstep
    have hwork := ThreadPool.working_of_getElem? hw
    cases hstep with
    | hook hhook =>
      -- only document notifications have hooks, and they are not on this pool
      have hsync := (NotificationHandler.hook_inv hhook).isSyncNotification (hregistered _ _ hwork)
      exact absurd ((hrouted.working .worker _ _ hwork).mp hsync) (by simp)
    | _ => rfl
  cases h with
  | notification hw hstep | notificationFinishes hw hstep => exact hnotification hw hstep
  | _ => rfl

/-- What `dispatch` makes of a message is to be served exactly if it is a document notification
that is accepted. -/
lemma dispatch_unserved (hexited : s.state_ ≠ .Exited) (body : Bytes) (msg : ParsedMessage) :
    (dispatch cfg s.state_ s.messagesRead s.flags.length msg).2.unserved =
      (documentNotification? (s, .read s.messagesRead body msg)).toList.map Prod.snd := by
  rw [ReaderPc.unserved_eq, dispatch_execution hexited body msg, started_inTurn]

/-- The read thread serves nothing and adds to what is to be served. -/
lemma ReaderStep.served (h : ReaderStep cfg s l s') (hphased : s.Phased) :
    s'.unserved = s.unserved ++ (documentNotification? (s, l)).toList.map Prod.snd := by
  have hquiet : documentNotification? (s, l) = none → s'.unserved = s.unserved →
      s'.unserved = s.unserved ++ (documentNotification? (s, l)).toList.map Prod.snd := by
    intro hnone hsame
    rw [hsame, hnone]
    exact (List.append_nil _).symm
  have hhandler : ∀ {call : RequestCall} {flag : Bool} {pc : HandlerPc} {r : Progress HandlerPc},
      HandlerStep cfg.nl call flag pc l r → documentNotification? (s, l) = none := by
    intro call flag pc r hstep
    cases hstep <;> rfl
  unfold Server.unserved at hquiet ⊢
  cases h with
  | @read body msg hr hexited _ =>
    rw [← dispatch_unserved hexited body msg, hr]
    show s.syncExecutor_.remaining _ _ ++ _ = s.syncExecutor_.remaining _ _ ++ [] ++ _
    rw [List.append_nil]
    rfl
  | @submit e task hr =>
    apply hquiet rfl
    cases e with
    | worker =>
      rw [hr]
      rfl
    | sync =>
      -- before `shutdown` every task is accepted
      have hopen : s.syncExecutor_.stopping_ = false := hphased.opened .sync (by rw [hr]; trivial)
      have hmoved := ThreadPool.remaining_submit (f := Task.unserved) (g := Running.unserved)
        hopen task
      rw [hr]
      exact (List.append_nil _).trans hmoved
  | @stop e hr =>
    apply hquiet rfl
    rw [hr]
    cases e <;> rfl
  | handler capabilities hr hstep =>
    rcases s.lifecycleEffect_eq capabilities _ l with ⟨_, _, _, _, heq⟩
    rw [heq] at hquiet ⊢
    apply hquiet (hhandler hstep)
    rw [hr]
    rfl
  | handlerFinishes hr hstep =>
    apply hquiet (hhandler hstep)
    rw [hr]
    rfl
  | handlerEscapes _ hstep => exact hquiet (hhandler hstep) rfl
  | parseThrows | sendThrows | notifyEscapes | exitThrows => exact hquiet rfl rfl
  | matched hr | endOfInput hr | leave hr | send hr | insertToken hr | cancel hr | notified hr
  | exited hr | unmatched hr | joinSync hr | joinWorkers hr =>
    apply hquiet rfl
    rw [hr]
    rfl

/-- A step moves what it serves from what is to be served to the documents. -/
lemma Step.served (h : Step cfg s l s') (hrun : Runs cfg ls s) :
    ∃ served, s.unserved ++ (documentNotification? (s, l)).toList.map Prod.snd =
        served ++ s'.unserved ∧
      (l.setsEncoding = false → s'.documents_ = s.documents_.notifyAll cfg served) := by
  have hinv := Runs.in_order hrun
  have hregistered : ∀ e call pc, (s.pool e).Working (.notification call pc) →
      cfg.notificationHandler call.method = some call.handler := fun e call pc hwork =>
    Runs.registered hrun (Or.inr (Or.inr ⟨_, hwork, rfl⟩))
  have hunread : l.ofReader = false → documentNotification? (s, l) = none := by
    intro hl
    cases l with
    | read => exact absurd hl (by simp [Label.ofReader])
    | _ => rfl
  cases h with
  | reader hlive hthrew h =>
    have hstep : Step cfg s l s' := .reader hlive hthrew h
    have hhook : ∀ call hook, l ≠ .hook call hook := by
      intro call hook heq
      subst heq
      cases h with
      | handler _ _ hcalled | handlerFinishes _ hcalled | handlerEscapes _ hcalled => cases hcalled
    refine ⟨[], (h.served hinv.phased).symm, fun hl => ?_⟩
    exact DocumentStore.eq_of_eq (hstep.documents_eq hhook) (hstep.encoding hl)
  | worker e _ _ h =>
    rw [hunread h.label.1]
    show ∃ served, s.unserved ++ [] = _ ∧ _
    rw [List.append_nil]
    cases e with
    | worker =>
      rcases h.served_worker hinv.routed (hregistered .worker) with ⟨hsame, hdocuments⟩
      exact ⟨[], hsame.symm, fun _ => hdocuments⟩
    | sync =>
      rcases h.served_sync hinv.serial (hregistered .sync) with ⟨served, hserved, hdocuments⟩
      exact ⟨served, hserved, fun _ => hdocuments⟩
  | sender _ h =>
    rw [hunread h.label]
    rcases h.frame with ⟨_, _, _, rfl⟩
    exact ⟨[], List.append_nil _, fun _ => rfl⟩

/-! ## Until the encoding is written -/

/-- Until the handler of `initialize` has returned no document notification is accepted. -/
structure NoneAccepted (es : List (Server × Label)) (s : Server) : Prop where
  uninitialized : s.state_ = .Uninitialized → documentNotifications es = []
  initializing : ∀ call pc, s.reader = .inline call pc → call.handler = .initializeRequest →
    documentNotifications es = []

lemma NoneAccepted.step (hs : NoneAccepted es s) (h : Step cfg s l s') :
    NoneAccepted (es ++ [(s, l)]) s' := by
  by_cases hl : ∃ m body msg, l = .read m body msg
  · rcases hl with ⟨m, body, msg, rfl⟩
    rcases h.read_inv with ⟨-, -, -, -, rfl⟩
    have hinitialized :=
      (dispatch_outcome cfg s.state_ s.messagesRead s.flags.length msg).initialized
    -- the server was uninitialized before, and accepts nothing then
    have hnone : s.state_ = .Uninitialized →
        documentNotifications (es ++ [(s, .read m body msg)]) = [] := by
      intro hstate
      have hskipped : documentNotification? (s, .read m body msg) = none := by
        cases msg with
        | notification => exact if_neg fun hall => hall.2.1 hstate
        | _ => rfl
      rw [documentNotifications_concat, hs.uninitialized hstate, hskipped]
      rfl
    refine ⟨?_, ?_⟩
    · intro hstate
      by_contra hsome
      exact (hinitialized fun h => hsome (hnone h)).1 hstate
    · intro call pc hr hcall
      by_contra hsome
      exact (hinitialized fun h => hsome (hnone h)).2 call pc hr hcall
  · have hl' : ∀ m body msg, l ≠ .read m body msg := fun m body msg heq => hl ⟨m, body, msg, heq⟩
    have hskipped : documentNotification? (s, l) = none := by
      cases l with
      | read m body msg => exact absurd rfl (hl' m body msg)
      | _ => rfl
    have hsame : documentNotifications (es ++ [(s, l)]) = documentNotifications es := by
      rw [documentNotifications_concat, hskipped]
      exact List.append_nil _
    rcases h.earlier hl' with ⟨hstate, hinline⟩
    refine ⟨?_, ?_⟩
    · intro hstate'
      rw [hsame]
      exact hs.uninitialized (hstate hstate')
    · intro call pc hr hcall
      rcases hinline call pc hr with ⟨pc', hr'⟩
      rw [hsame]
      exact hs.initializing call pc' hr' hcall

lemma RecordedRuns.noneAccepted (h : RecordedRuns cfg es s) : NoneAccepted es s := by
  induction h with
  | nil => exact ⟨fun _ => rfl, fun _ _ _ _ => rfl⟩
  | snoc _ hstep ih =>
    cases hstep with
    | intro hstep => exact ih.step hstep

/-- Where the encoding is written no document notification has been accepted. -/
lemma Step.none_accepted (h : Step cfg s l s') (hrun : RecordedRuns cfg es s)
    (hl : l.setsEncoding = true) : documentNotifications es = [] := by
  rcases Label.task?_of_setsEncoding hl with ⟨call, value, rfl, hcall⟩
  rcases h.handler_inv rfl with ⟨pc, _, hreader | ⟨e, hwork⟩, -⟩
  · exact (RecordedRuns.noneAccepted hrun).initializing call pc hreader hcall
  · have huser := Runs.user (Run.unrecord hrun) (Or.inr (Or.inr ⟨_, hwork, rfl⟩))
    exact absurd (huser.symm.trans hcall) (by simp)

/-- Once a document notification has been accepted the encoding stays what it is. -/
lemma RecordedRuns.encoded (h : RecordedRuns cfg es s) :
    ∀ {es₁ es₂ : List (Server × Label)} {t : Server} {l : Label}, es = es₁ ++ (t, l) :: es₂ →
      documentNotifications es₁ ≠ [] → s.documents_.encoding_ = t.documents_.encoding_ := by
  induction h with
  | nil =>
    intro es₁ es₂ t l heq
    exact absurd heq.symm (by simp)
  | @snoc es u v e hrun hstep ih =>
    cases hstep with
    | @intro l' _ hstep =>
      intro es₁ es₂ t l heq hsome
      -- a step that wrote it would find none accepted
      have hkeeps : documentNotifications es ≠ [] →
          v.documents_.encoding_ = u.documents_.encoding_ := by
        intro hes
        apply hstep.encoding
        exact Bool.eq_false_of_not_eq_true fun hl => hes (hstep.none_accepted hrun hl)
      rcases List.eq_nil_or_concat es₂ with rfl | ⟨es₂, e', rfl⟩
      · rcases List.append_inj' heq rfl with ⟨rfl, hlast⟩
        obtain ⟨rfl, rfl⟩ := Prod.mk.inj (List.singleton_inj.mp hlast)
        exact hkeeps hsome
      · rw [List.concat_eq_append, ← List.cons_append, ← List.append_assoc] at heq
        rcases List.append_inj' heq rfl with ⟨rfl, -⟩
        refine (hkeeps ?_).trans (ih rfl hsome)
        unfold documentNotifications at hsome ⊢
        rw [List.filterMap_append]
        exact fun hnone => hsome (List.append_eq_nil_iff.mp hnone).1

/-! ## The result -/

/-- The notifications that have been served are a prefix of those that have been accepted, and the
documents are those a sequential server has after them. -/
theorem RecordedRuns.documents (h : RecordedRuns cfg es s) :
    ∃ served, (documentNotifications es).map Prod.snd = served ++ s.unserved ∧
      s.documents_ =
        DocumentStore.notifyAll cfg { encoding_ := s.documents_.encoding_ } served := by
  induction h with
  | nil => exact ⟨[], rfl, rfl⟩
  | @snoc es t u e hrun hstep ih =>
    cases hstep with
    | @intro l _ hstep =>
      rcases ih with ⟨served, hserved, hdocuments⟩
      rcases hstep.served (Run.unrecord hrun) with ⟨now, hnow, hdocuments'⟩
      refine ⟨served ++ now, ?_, ?_⟩
      · rw [documentNotifications_concat, List.map_append, hserved, List.append_assoc, hnow,
          List.append_assoc]
      cases hl : l.setsEncoding with
      | false =>
        have hencoding := hstep.encoding hl
        calc u.documents_ = t.documents_.notifyAll cfg now := hdocuments' hl
          _ = (DocumentStore.notifyAll cfg { encoding_ := t.documents_.encoding_ }
                served).notifyAll cfg now :=
              congrArg (fun documents => documents.notifyAll cfg now) hdocuments
          _ = DocumentStore.notifyAll cfg { encoding_ := u.documents_.encoding_ }
                (served ++ now) := by
              rw [hencoding]
              exact List.foldl_append.symm
      | true =>
        -- nothing has been served so far, nor is there anything to be served
        have hnone := hstep.none_accepted hrun hl
        rw [hnone] at hserved
        rcases List.append_eq_nil_iff.mp hserved.symm with ⟨rfl, hunserved⟩
        rcases Label.task?_of_setsEncoding hl with ⟨call, value, rfl, -⟩
        rw [hunserved] at hnow
        rcases List.append_eq_nil_iff.mp hnow.symm with ⟨rfl, -⟩
        have hempty := congrArg DocumentStore.documents_ hdocuments
        exact DocumentStore.eq_of_eq ((hstep.documents_eq (by simp)).trans hempty) rfl

/-! ## What has been left has been served -/

/-- The notification that an invocation is the end of. -/
def DocumentInvocation.ended? : DocumentInvocation → Option ParsedNotification
  | .starts _ _ => none
  | .ends _ notif => some notif

lemma ended_inTurn (notifs : List (ℕ × ParsedNotification)) :
    (inTurn notifs).filterMap DocumentInvocation.ended? = notifs.map Prod.snd := by
  induction notifs with
  | nil => rfl
  | cons notif notifs ih => exact congrArg (notif.2 :: ·) ih

/-- The document notifications whose handlers have been left. -/
def leftNotifications (ls : List Label) : List ParsedNotification :=
  (documentInvocations ls).filterMap DocumentInvocation.ended?

lemma Task.unserved_sublist (task : Task) :
    task.unserved.Sublist (task.execution.filterMap DocumentInvocation.ended?) := by
  cases task <;> exact List.Sublist.refl _

lemma Running.unserved_sublist (running : Running) :
    running.unserved.Sublist (running.execution.filterMap DocumentInvocation.ended?) := by
  cases running with
  | notification call pc =>
    cases pc with
    | user => exact List.nil_sublist _
    | _ => exact List.Sublist.refl _
  | _ => exact List.Sublist.refl _

/-- What is still to be served is still to be left. -/
lemma Server.unserved_sublist (s : Server) :
    s.unserved.Sublist (s.execution.filterMap DocumentInvocation.ended?) := by
  unfold Server.unserved Server.execution ThreadPool.remaining
  rw [List.filterMap_append, List.filterMap_append, List.filterMap_flatMap, List.filterMap_flatMap]
  refine (List.Sublist.append ?_ ?_).append ?_
  · apply List.Sublist.flatMap_right
    intro worker _
    cases worker with
    | busy running => exact running.unserved_sublist
    | _ => exact List.nil_sublist _
  · exact List.Sublist.flatMap_right _ fun task _ => task.unserved_sublist
  · cases s.reader with
    | submitting e task =>
      cases e with
      | sync => exact task.unserved_sublist
      | worker => exact List.nil_sublist _
    | _ => exact List.nil_sublist _

lemma RecordedRuns.left_served (h : RecordedRuns cfg es s) (hlive : s.terminated = false)
    {served : List ParsedNotification}
    (hserved : (documentNotifications es).map Prod.snd = served ++ s.unserved) :
    leftNotifications (es.map Prod.snd) <+: served := by
  rcases RecordedRuns.execution h with ⟨rest, hrest, hexecution⟩
  rw [hexecution hlive] at hrest
  have hleft := ended_inTurn (documentNotifications es)
  rw [hrest, List.filterMap_append, hserved] at hleft
  have hlength := congrArg List.length hleft
  have hle := s.unserved_sublist.length_le
  rw [List.length_append, List.length_append] at hlength
  have hleft' : leftNotifications (es.map Prod.snd) <+: served ++ s.unserved := ⟨_, hleft⟩
  -- both are prefixes of what has been accepted; compare their lengths
  apply List.prefix_of_prefix_length_le hleft' (List.prefix_append _ _)
  unfold leftNotifications
  omega

lemma Runs.unserved_of_returned (h : Runs cfg ls s) (hret : s.reader = .returned) :
    s.unserved = [] := by
  have hsublist := s.unserved_sublist
  rw [Runs.execution_of_returned h hret] at hsublist
  exact List.sublist_nil.mp hsublist

/-- What is expected of the documents of a run. -/
structure SequentialDocuments (cfg : Config) (es : List (Server × Label)) (s : Server) : Prop where
  /-- They are those of a sequential server that has served the first of the accepted
  notifications, among them all whose handlers have been left. -/
  served : s.terminated = false → ∃ served,
    served <+: (documentNotifications es).map Prod.snd ∧
      leftNotifications (es.map Prod.snd) <+: served ∧
      s.documents_ = DocumentStore.notifyAll cfg { encoding_ := s.documents_.encoding_ } served
  /-- When `run` has returned it has served them all. -/
  returned : s.reader = .returned → s.documents_ =
    DocumentStore.notifyAll cfg { encoding_ := s.documents_.encoding_ }
      ((documentNotifications es).map Prod.snd)
  /-- The position encoding does not change once the first of them has been accepted. -/
  encoded : ∀ es₁ es₂ t l, es = es₁ ++ (t, l) :: es₂ → documentNotifications es₁ ≠ [] →
    s.documents_.encoding_ = t.documents_.encoding_

/-- **The documents are sequential**, whatever the threads do. -/
theorem documents_sequential (cfg : Config) (es : List (Server × Label)) (s : Server)
    (h : RecordedRuns cfg es s) : SequentialDocuments cfg es s := by
  rcases RecordedRuns.documents h with ⟨served, hserved, hdocuments⟩
  refine ⟨?_, ?_, ?_⟩
  · intro hlive
    exact ⟨served, ⟨_, hserved.symm⟩, RecordedRuns.left_served h hlive hserved, hdocuments⟩
  · intro hret
    rw [hserved, Runs.unserved_of_returned (Run.unrecord h) hret, List.append_nil]
    exact hdocuments
  · intro es₁ es₂ t l heq hsome
    exact RecordedRuns.encoded h heq hsome

end Steps

/-- A session that has opened a document and is about to change it. -/
lemma Session.edits :
    Reaches (Recorded (Step editing)) (Server.start editing) fun es s =>
      s.documents_.encoding_ = .UTF16 ∧
        ∃ n m, parseMessage editing.nl didOpen.json.print = .ok (.notification n) ∧
          parseMessage editing.nl didChange.json.print = .ok (.notification m) ∧
          (documentNotifications es).map Prod.snd = [n, m] := by
  apply Reaches.step
    (.intro (.reader rfl rfl (.read Session.initializeRequest.json.print rfl (by decide) rfl)))
  apply Reaches.step (.intro (.reader rfl rfl (.handler ⟨none, none⟩ rfl (.start rfl))))
  apply Reaches.step (.intro (.reader rfl rfl (.handler ⟨none, none⟩ rfl (.returns .null))))
  apply Reaches.step (.intro (.reader rfl rfl (.handlerFinishes rfl (.send rfl))))
  apply Reaches.step (.intro (.reader rfl rfl (.read didOpen.json.print rfl (by decide) rfl)))
  apply Reaches.step (.intro (.reader rfl rfl (.submit rfl)))
  apply Reaches.step (.intro (.worker .sync 0 rfl (.take rfl rfl)))
  apply Reaches.step (.intro (.worker .sync 0 rfl (.notification rfl .start)))
  apply Reaches.step (.intro (.worker .sync 0 rfl (.notification rfl (.hook rfl))))
  apply Reaches.step (.intro (.reader rfl rfl (.read didChange.json.print rfl (by decide) rfl)))
  exact Reaches.here ⟨rfl, _, _, rfl, rfl, rfl⟩

theorem documents_sequential_session :
    ∃ es s, RecordedRuns Session.editing es s ∧ documentNotifications es ≠ [] ∧
      SequentialDocuments Session.editing es s := by
  rcases Session.edits with ⟨es, s, hrun, -, n, m, -, -, hnotifs⟩
  refine ⟨es, s, hrun, ?_, documents_sequential Session.editing es s hrun⟩
  intro hnone
  rw [hnone] at hnotifs
  exact absurd hnotifs (by simp)

/-! ## The documents of the client -/

/-- The handlers of the document notifications are the built-in ones. -/
def Config.SyncKept (cfg : Config) : Prop :=
  ∀ method, isSyncNotification method = true → method ∉ cfg.userNotifications

/-- What a notification tells of the documents of its client; `didSave` tells nothing. -/
inductive Tells (notif : ParsedNotification) : List ClientOperation → Prop
  | didOpen {uri : DocumentUri} {languageId : Bytes} {version : Int32} {text : List Char} :
      notif.method = str "textDocument/didOpen" →
      DidOpenParams.fromJson notif.params =
        .ok { textDocument := { uri, languageId, version, text := Utf8.encode text } } →
      Tells notif [.didOpen uri languageId version text]
  | didChange {uri : DocumentUri} {version : Int32} {changes : List ClientChange} :
      notif.method = str "textDocument/didChange" →
      DidChangeParams.fromJson notif.params =
        .ok { textDocument := { uri, version },
              contentChanges := changes.map ClientChange.event } →
      Tells notif [.didChange uri version changes]
  | didClose {uri : DocumentUri} : notif.method = str "textDocument/didClose" →
      DidCloseParams.fromJson notif.params = .ok { uri } → Tells notif [.didClose uri]
  | didSave : notif.method = str "textDocument/didSave" → Tells notif []

section Client

variable {cfg : Config} {notif : ParsedNotification} {ops : List ClientOperation}

/-- The handler of a document notification is the one it has without handlers of the user. -/
lemma Config.SyncKept.handler (hkept : cfg.SyncKept) {method method' : Bytes}
    {handler : Option NotificationHandler} (hmethod : method = method')
    (hsync : isSyncNotification method' = true)
    (hbuiltin : Config.notificationHandler { cfg with userNotifications := [] } method' = handler) :
    cfg.notificationHandler method = handler := by
  rw [hmethod, ← hbuiltin]
  unfold Config.notificationHandler
  rw [if_neg (hkept _ hsync), if_neg List.not_mem_nil]

lemma DocumentStore.notify_of_tells (hkept : cfg.SyncKept) (h : Tells notif ops)
    (documents : DocumentStore) :
    documents.notify cfg notif = ops.foldl ClientOperation.serve documents := by
  cases h with
  | didOpen hmethod hparams =>
    have hhandler : cfg.notificationHandler notif.method = some .didOpen :=
      hkept.handler hmethod rfl rfl
    refine DocumentStore.notify_of_hook notif (.opened _) hhandler ?_
    rw [NotificationHandler.hook, hparams]
    rfl
  | @didChange uri version changes hmethod hparams =>
    have hhandler : cfg.notificationHandler notif.method = some .didChange :=
      hkept.handler hmethod rfl rfl
    let document : TextDocumentItem := { uri, languageId := [], version, text := [] }
    refine DocumentStore.notify_of_hook notif (.changed document _) hhandler ?_
    rw [NotificationHandler.hook, hparams]
    rfl
  | didClose hmethod hparams =>
    have hhandler : cfg.notificationHandler notif.method = some .didClose :=
      hkept.handler hmethod rfl rfl
    refine DocumentStore.notify_of_hook notif (.closed _) hhandler ?_
    rw [NotificationHandler.hook, hparams]
    rfl
  | didSave hmethod =>
    have hhandler : cfg.notificationHandler notif.method = some .didSave :=
      hkept.handler hmethod rfl rfl
    unfold DocumentStore.notify
    rw [hhandler]
    dsimp only
    split
    · next hook hhook =>
      cases NotificationHandler.hook_inv hhook with
      | didSave => rfl
    · rfl

lemma DocumentStore.notifyAll_of_tells (hkept : cfg.SyncKept) {notifs : List ParsedNotification}
    {opss : List (List ClientOperation)} (h : List.Forall₂ Tells notifs opss)
    (documents : DocumentStore) :
    documents.notifyAll cfg notifs = opss.flatten.foldl ClientOperation.serve documents := by
  induction h generalizing documents with
  | nil => rfl
  | @cons notif ops notifs opss htells _ ih =>
    rw [List.flatten_cons, List.foldl_append, ← DocumentStore.notify_of_tells hkept htells]
    exact ih _

lemma historyInBounds_append {e : PositionEncoding} {docs : ClientDocuments}
    {ops ops' : List ClientOperation} (h : HistoryInBounds e docs (ops ++ ops')) :
    HistoryInBounds e docs ops := by
  induction ops generalizing docs with
  | nil => trivial
  | cons op ops ih => exact ⟨h.1, ih h.2⟩

/-- A store that has served the operations of a client has its documents. -/
lemma refines_of_served {documents : DocumentStore} {ops : List ClientOperation}
    (hops : HistoryInBounds documents.encoding_ (fun _ => none) ops)
    (hdocuments : documents =
      ops.foldl ClientOperation.serve { encoding_ := documents.encoding_ }) :
    Refines documents.encoding_ documents (clientRun documents.encoding_ ops) := by
  have hstart : Refines documents.encoding_
      ({ encoding_ := documents.encoding_ } : DocumentStore) fun _ => none := ⟨rfl, fun _ => rfl⟩
  have hfollows := refines_foldl ops hstart hops
  rw [← hdocuments] at hfollows
  exact hfollows

/-- Who has served the first notifications has served the first operations they tell. -/
lemma DocumentStore.eq_foldl_of_tells (hkept : cfg.SyncKept) {documents : DocumentStore}
    {served rest : List ParsedNotification} {opss : List (List ClientOperation)}
    (htells : List.Forall₂ Tells (served ++ rest) opss)
    (hdocuments : documents =
      DocumentStore.notifyAll cfg { encoding_ := documents.encoding_ } served) :
    ∃ ops later, opss.flatten = ops ++ later ∧
      documents = ops.foldl ClientOperation.serve { encoding_ := documents.encoding_ } ∧
      (rest = [] → ops = opss.flatten) := by
  have htold := List.forall₂_take served.length htells
  rw [List.take_left] at htold
  refine ⟨(opss.take served.length).flatten, (opss.drop served.length).flatten, ?_, ?_, ?_⟩
  · rw [← List.flatten_append, List.take_append_drop]
  · exact hdocuments.trans (DocumentStore.notifyAll_of_tells hkept htold _)
  · rintro rfl
    rw [List.append_nil] at htells
    rw [htells.length_eq, List.take_length]

/-- The documents of a run are those of a server that has served the first operations of the
client, and in the end all of them. -/
lemma RecordedRuns.client_served (hkept : cfg.SyncKept) {es : List (Server × Label)} {s : Server}
    (h : RecordedRuns cfg es s) {opss : List (List ClientOperation)}
    (htells : List.Forall₂ Tells ((documentNotifications es).map Prod.snd) opss) :
    ∃ ops rest, opss.flatten = ops ++ rest ∧
      s.documents_ = ops.foldl ClientOperation.serve { encoding_ := s.documents_.encoding_ } ∧
      (s.reader = .returned → ops = opss.flatten) := by
  rcases RecordedRuns.documents h with ⟨served, hserved, hdocuments⟩
  rw [hserved] at htells
  rcases DocumentStore.eq_foldl_of_tells hkept htells hdocuments with
    ⟨ops, rest, hflatten, hfollowed, hlast⟩
  exact ⟨ops, rest, hflatten, hfollowed, fun hret =>
    hlast (Runs.unserved_of_returned (Run.unrecord h) hret)⟩

/-- **The documents are the client's.** When the notifications that are accepted tell what a client
does to its documents, the server has at any time the documents that the client has had, and in the
end those that it has. -/
theorem documents_follow_client (cfg : Config) (hkept : cfg.SyncKept)
    (es : List (Server × Label)) (s : Server) (h : RecordedRuns cfg es s)
    (opss : List (List ClientOperation))
    (htells : List.Forall₂ Tells ((documentNotifications es).map Prod.snd) opss)
    (hbounds : HistoryInBounds s.documents_.encoding_ (fun _ => none) opss.flatten) :
    (∃ ops, ops <+: opss.flatten ∧
      Refines s.documents_.encoding_ s.documents_ (clientRun s.documents_.encoding_ ops)) ∧
    (s.reader = .returned →
      Refines s.documents_.encoding_ s.documents_
        (clientRun s.documents_.encoding_ opss.flatten)) := by
  rcases RecordedRuns.client_served hkept h htells with ⟨ops, rest, hflatten, hdocuments, hlast⟩
  refine ⟨⟨ops, ⟨rest, hflatten.symm⟩, ?_⟩, ?_⟩
  · rw [hflatten] at hbounds
    exact refines_of_served (historyInBounds_append hbounds) hdocuments
  · intro hret
    rw [hlast hret] at hdocuments
    exact refines_of_served hbounds hdocuments

end Client

theorem documents_follow_client_session :
    ∃ es s, RecordedRuns Session.editing es s ∧
      (documentNotifications es).length = 2 ∧
      ∃ ops, ops <+: [ClientOperation.didOpen (str "file:///a") (str "c") 1
          ['i', 'n', 't', ' ', 'x', ';'],
        .didChange (str "file:///a") 2 [.full ['i', 'n', 't', ' ', 'y', ';']]] ∧
        Refines .UTF16 s.documents_ (clientRun .UTF16 ops) := by
  rcases Session.edits with ⟨es, s, hrun, hencoding, n, m, hn, hm, hnotifs⟩
  have htells : List.Forall₂ Tells ((documentNotifications es).map Prod.snd)
      [[ClientOperation.didOpen (str "file:///a") (str "c") 1 ['i', 'n', 't', ' ', 'x', ';']],
        [.didChange (str "file:///a") 2 [.full ['i', 'n', 't', ' ', 'y', ';']]]] := by
    rw [hnotifs]
    cases hn
    cases hm
    exact .cons (.didOpen rfl rfl) (.cons (.didChange rfl rfl) .nil)
  have hkept : Session.editing.SyncKept := fun method _ => List.not_mem_nil
  have hbounds : HistoryInBounds s.documents_.encoding_ (fun _ => none)
      [ClientOperation.didOpen (str "file:///a") (str "c") 1 ['i', 'n', 't', ' ', 'x', ';'],
        .didChange (str "file:///a") 2 [.full ['i', 'n', 't', ' ', 'y', ';']]] :=
    ⟨trivial, ⟨trivial, trivial⟩, trivial⟩
  have hfollows := (documents_follow_client Session.editing hkept es s hrun _ htells hbounds).1
  rw [hencoding] at hfollows
  refine ⟨es, s, hrun, ?_, hfollows⟩
  have hlength := congrArg List.length hnotifs
  rw [List.length_map] at hlength
  exact hlength

end CLSP
