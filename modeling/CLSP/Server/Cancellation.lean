import CLSP.Server.Lifecycle
import CLSP.Server.Requests
import CLSP.Server.Responses

/-!
# Cancellation

`cancellationTokens_` maps the id of a pool request to its token. The read thread writes the entry
before it submits the request, and the worker erases it after the response has been sent, in a
critical section of its own. A client that has got the response may reuse the id in between, and
then the worker erases the entry of the new request. In the runs where that does not happen the
entry of a request is its own until its response is sent (`Registered`).
-/

namespace CLSP

open Transition (Run Reaches)

/-! ## Requests in pools -/

/-- A request has been submitted to a pool and its response has not been sent. -/
def Server.Pending (s : Server) (call : RequestCall) : Prop :=
  (∃ e, .request call ∈ (s.pool e).tasks_) ∨ ∃ e pc, (s.pool e).Working (.request call pc)

/-- The same from the moment its token has been put into the map. -/
def Server.Pooled (s : Server) (call : RequestCall) : Prop :=
  (∃ e, s.reader = .submitting e (.request call)) ∨ s.Pending call

/-- The response has been sent and the token is still to be erased. -/
def Server.Erasing (s : Server) (call : RequestCall) : Prop :=
  ∃ e, (s.pool e).Working (.erasing call)

section Hands

variable {s : Server} {call : RequestCall}

lemma Server.Pending.mem_held {α : Type} {r : ReaderPc → Multiset α} {f : Task → Multiset α}
    {g : Running → Multiset α} {x : α} (h : s.Pending call) (hf : x ∈ f (.request call))
    (hg : ∀ pc, x ∈ g (.request call pc)) : x ∈ s.held r f g := by
  rcases h with ⟨e, htask⟩ | ⟨e, pc, hwork⟩
  · exact Server.mem_held_of_pool (ThreadPool.mem_contents_of_task htask hf)
  · exact Server.mem_held_of_pool (ThreadPool.mem_contents_of_working hwork (hg pc))

lemma Server.Pooled.mem_held {α : Type} {r : ReaderPc → Multiset α} {f : Task → Multiset α}
    {g : Running → Multiset α} {x : α} (h : s.Pooled call)
    (hr : ∀ e, x ∈ r (.submitting e (.request call))) (hf : x ∈ f (.request call))
    (hg : ∀ pc, x ∈ g (.request call pc)) : x ∈ s.held r f g := by
  rcases h with ⟨e, hreader⟩ | h
  · apply Server.mem_held_of_reader
    rw [hreader]
    exact hr e
  · exact h.mem_held hf hg

lemma Server.Pooled.mem_owed (h : s.Pooled call) : call.id ∈ s.owed :=
  h.mem_held (fun _ => Multiset.mem_singleton_self _) (Multiset.mem_singleton_self _)
    fun _ => Multiset.mem_singleton_self _

lemma Server.Pooled.mem_calls (h : s.Pooled call) : call ∈ s.calls :=
  h.mem_held (fun _ => Multiset.mem_singleton_self _) (Multiset.mem_singleton_self _)
    fun _ => Multiset.mem_singleton_self _

/-- A request that is about to be registered is the only one with its id when no two responses are
owed to one id. -/
lemma Server.id_ne_of_registering (howed : s.owed.Nodup) {call' : RequestCall}
    (hr : s.reader = .registering call) (h : s.Pooled call') : call'.id ≠ call.id := by
  have hpending : s.Pending call' := by
    rcases h with ⟨e, hr'⟩ | h
    · exact absurd (hr.symm.trans hr') (by simp)
    · exact h
  intro heq
  -- with one id both would be owed a response under it
  have hmem : call.id ∈ s.held (fun _ => 0) Task.owed Running.owed := by
    rw [← heq]
    exact hpending.mem_held (Multiset.mem_singleton_self _) fun _ => Multiset.mem_singleton_self _
  unfold Server.owed at howed
  rw [Server.held_eq_add, hr] at howed
  exact (Multiset.nodup_cons.mp howed).1 hmem

end Hands

/-! ## What a step does to them -/

section Steps

variable {cfg : Config} {s s' : Server} {l : Label} {call : RequestCall}

lemma Outcome.not_submitting {state_ : ServerState} {serial token : ℕ} {msg : ParsedMessage}
    {next : ServerState × ReaderPc} (h : Outcome cfg state_ serial token msg next) (e : Executor) :
    next.2 ≠ .submitting e (.request call) := by
  cases h with
  | request h => cases h <;> simp
  | notification h => cases h <;> simp
  | response h => cases h <;> simp
  | error => simp

/-- A request gets to a pool by way of the map. -/
lemma Step.pooled (h : Step cfg s l s') (hpooled : s'.Pooled call) :
    s.Pooled call ∨ l = .tokenInserted call := by
  cases h with
  | reader _ _ h =>
    rcases hpooled with ⟨e, hr'⟩ | ⟨e, htask⟩ | ⟨e, pc, hwork⟩
    · cases h with
      | read => exact absurd hr' ((dispatch_outcome _ _ _ _ _).not_submitting e)
      | insertToken hr =>
        -- the token has just been put into the map
        rcases ReaderPc.submitting.inj hr' with ⟨-, htask⟩
        rw [Task.request.inj htask]
        exact Or.inr rfl
      | parseThrows | sendThrows | handlerEscapes | notifyEscapes | exitThrows =>
        exact Or.inl (Or.inl ⟨e, hr'⟩)
      | _ => exact absurd hr' (by simp)
    · rcases h.mem_tasks_ htask with htask' | hr
      · exact Or.inl (Or.inr (Or.inl ⟨e, htask'⟩))
      · exact Or.inl (Or.inl ⟨e, hr⟩)
    · exact Or.inl (Or.inr (Or.inr ⟨e, pc, h.working.mp hwork⟩))
  | worker _ _ _ h =>
    refine Or.inl ?_
    rcases hpooled with ⟨e, hr'⟩ | ⟨e, htask⟩ | ⟨e, pc, hwork⟩
    · exact Or.inl ⟨e, h.control.1 ▸ hr'⟩
    · exact Or.inr (Or.inl ⟨e, h.mem_tasks_ htask⟩)
    · generalize hrunning : Running.request call pc = running at hwork
      cases h.advanced hwork with
      | same hwork => exact Or.inr (Or.inr ⟨e, pc, hrunning ▸ hwork⟩)
      | @taken task rest htasks =>
        cases task with
        | request call' =>
          rw [(Running.request.inj hrunning).1]
          exact Or.inr (Or.inl ⟨e, by simp [htasks]⟩)
        | _ => exact absurd hrunning (by simp [Task.start])
      | @handler _ pc' _ hwork' =>
        rw [(Running.request.inj hrunning).1]
        exact Or.inr (Or.inr ⟨e, pc', hwork'⟩)
      | _ => exact absurd hrunning (by simp)
  | sender _ h =>
    refine Or.inl ?_
    have hpool := h.pool
    rcases hpooled with ⟨e, hr'⟩ | ⟨e, htask⟩ | ⟨e, pc, hwork⟩
    · rcases h.frame with ⟨_, _, _, rfl⟩
      exact Or.inl ⟨e, hr'⟩
    · exact Or.inr (Or.inl ⟨e, hpool e ▸ htask⟩)
    · exact Or.inr (Or.inr ⟨e, pc, hpool e ▸ hwork⟩)

/-- A worker gets to erase a token by sending the response. -/
lemma Step.erasing (h : Step cfg s l s') (herasing : s'.Erasing call) :
    s.Erasing call ∨ l.answered = {call.id} ∧ l.asked = 0 := by
  rcases herasing with ⟨e, hwork⟩
  cases h with
  | reader _ _ h => exact Or.inl ⟨e, h.working.mp hwork⟩
  | worker _ _ _ h =>
    generalize hrunning : Running.erasing call = running at hwork
    cases h.advanced hwork with
    | same hwork => exact Or.inl ⟨e, hrunning ▸ hwork⟩
    | answered _ hstep =>
      rw [Running.erasing.inj hrunning]
      exact Or.inr ⟨hstep.answered_finished, hstep.asked⟩
    | @taken task => cases task <;> exact absurd hrunning (by simp [Task.start])
    | _ => exact absurd hrunning (by simp)
  | sender _ h => exact Or.inl ⟨e, h.pool e ▸ hwork⟩

/-- The map changes where a token is put into it and where one is erased. -/
lemma Step.cancellationTokens_ (h : Step cfg s l s') :
    s'.cancellationTokens_ = s.cancellationTokens_ ∨
    (∃ call, l = .tokenInserted call ∧ s.reader = .registering call ∧
      s'.cancellationTokens_ = s.cancellationTokens_.insert call.id call.token) ∨
    ∃ call, s.Erasing call ∧ s'.cancellationTokens_ = s.cancellationTokens_.erase call.id := by
  cases h with
  | reader _ _ h =>
    cases h with
    | insertToken hr => exact Or.inr (Or.inl ⟨_, rfl, hr, rfl⟩)
    | handler capabilities =>
      rcases s.lifecycleEffect_eq capabilities _ l with ⟨_, _, _, _, heq⟩
      rw [heq]
      exact Or.inl rfl
    | submit | stop => exact Or.inl (Server.setPool_cancellationTokens_ s _ _)
    | _ => exact Or.inl rfl
  | worker e _ _ h =>
    cases h with
    | eraseToken hw =>
      exact Or.inr (Or.inr ⟨_, ⟨e, ThreadPool.working_of_getElem? hw⟩, rfl⟩)
    | notification | notificationFinishes => exact Or.inl (Server.setPool_cancellationTokens_ s _ _)
    | handlerEscapes | notificationEscapes | callbackEscapes => exact Or.inl rfl
    | _ => exact Or.inl (Server.setPool_cancellationTokens_ s _ _)
  | sender _ h =>
    rcases h.frame with ⟨_, _, _, rfl⟩
    exact Or.inl rfl

/-! ## The cancels that are read -/

/-- The notification cancels the request with the id in its params. -/
def ParsedNotification.Cancels (notif : ParsedNotification) (id : RequestId) : Prop :=
  notif.method = str "$/cancelRequest" ∧ ∃ members j, notif.params = .object members ∧
    members.lookup (str "id") = some j ∧ idFromJson j = some id

lemma ParsedNotification.Cancels.unique {notif : ParsedNotification} {id id' : RequestId}
    (h : notif.Cancels id) (h' : notif.Cancels id') : id = id' := by
  rcases h with ⟨-, members, j, hparams, hlookup, hid⟩
  rcases h' with ⟨-, members', j', hparams', hlookup', hid'⟩
  rw [hparams] at hparams'
  rw [← Json.object.inj hparams', hlookup] at hlookup'
  rw [← Option.some.inj hlookup', hid] at hid'
  exact Option.some.inj hid'

lemma cancelTarget_eq_some_iff {params : Json} {id : RequestId} :
    cancelTarget params = some id ↔ ∃ members j, params = .object members ∧
      members.lookup (str "id") = some j ∧ idFromJson j = some id := by
  unfold cancelTarget
  split
  · next members =>
    rw [Option.bind_eq_some_iff]
    constructor
    · rintro ⟨j, hlookup, hid⟩
      exact ⟨members, j, rfl, hlookup, hid⟩
    · rintro ⟨members', j, hparams, hlookup, hid⟩
      rw [← Json.object.inj hparams] at hlookup
      exact ⟨j, hlookup, hid⟩
  · next hobject =>
    constructor
    · intro h
      exact absurd h (by simp)
    · rintro ⟨members, j, hparams, -, -⟩
      exact absurd hparams (hobject members)

lemma method_of_cancelRequest {method : Bytes}
    (h : cfg.notificationHandler method = some .cancelRequest) :
    method = str "$/cancelRequest" := by
  unfold Config.notificationHandler at h
  split_ifs at h with _ _ _ hmethod <;> simp_all

/-- The read thread gets to a cancel by the notification that names the id. -/
lemma Outcome.cancelling {state_ : ServerState} {serial token : ℕ} {msg : ParsedMessage}
    {next : ServerState × ReaderPc} (h : Outcome cfg state_ serial token msg next) {id : RequestId}
    (hnext : next.2 = .cancelling id) : ∃ notif, msg = .notification notif ∧ notif.Cancels id := by
  cases h with
  | request h => cases h <;> exact absurd hnext (by simp)
  | @notification notif _ h =>
    cases h with
    | cancel _ hhandler htarget =>
      rw [← ReaderPc.cancelling.inj hnext]
      exact ⟨notif, rfl, method_of_cancelRequest hhandler, cancelTarget_eq_some_iff.mp htarget⟩
    | _ => exact absurd hnext (by simp)
  | response h => cases h <;> exact absurd hnext (by simp)
  | error => exact absurd hnext (by simp)

/-- The built-in handler takes a cancel to the map. -/
lemma dispatch_cancels {state_ : ServerState} {notif : ParsedNotification} {id : RequestId}
    (serial token : ℕ) (hcancels : notif.Cancels id) (hstate : state_ ≠ .Uninitialized)
    (hkept : str "$/cancelRequest" ∉ cfg.userNotifications) :
    (dispatch cfg state_ serial token (.notification notif)).2 = .cancelling id := by
  rcases hcancels with ⟨hmethod, hparams⟩
  have htarget := cancelTarget_eq_some_iff.mpr hparams
  have hhandler : cfg.notificationHandler notif.method = some .cancelRequest := by
    rw [hmethod, Config.notificationHandler, if_neg hkept, if_neg (by decide), if_neg (by decide),
      if_pos rfl]
  have hinline : isInlineNotification notif.method = true := by
    rw [hmethod]
    decide
  have hexit : notif.method ≠ str "exit" := by
    rw [hmethod]
    decide
  show (handleNotification cfg state_ serial notif).2 = _
  rw [handleNotification, if_neg hexit, if_neg hstate, hhandler]
  simp only [hinline, if_true, runInline, ParsedNotification.call, htarget]

/-- The last message that has been read is a cancel of the request. -/
def LastCancels (ls : List Label) (id : RequestId) : Prop :=
  ∃ notif, (messagesOf ls).getLast? = some (.notification notif) ∧ notif.Cancels id

lemma LastCancels.unique {ls : List Label} {id id' : RequestId} (h : LastCancels ls id)
    (h' : LastCancels ls id') : id = id' := by
  rcases h with ⟨notif, hlast, hcancels⟩
  rcases h' with ⟨notif', hlast', hcancels'⟩
  rw [hlast] at hlast'
  rw [← ParsedMessage.notification.inj (Option.some.inj hlast')] at hcancels'
  exact hcancels.unique hcancels'

/-- The read thread works at the cancel it has read last. -/
lemma Runs.lastCancels {ls : List Label} (h : Runs cfg ls s) {id : RequestId}
    (hr : s.reader = .cancelling id) : LastCancels ls id := by
  induction h with
  | nil => exact absurd hr (by simp [Server.start])
  | @snoc ls t u l hrun hstep ih =>
    have hother : t.reader = .cancelling id → l.message? = none →
        LastCancels (ls ++ [l]) id := by
      intro hr' hl
      unfold LastCancels
      rw [messagesOf_concat_none hl]
      exact ih hr'
    cases hstep with
    | reader _ _ h =>
      cases h with
      | read =>
        rcases (dispatch_outcome _ _ _ _ _).cancelling hr with ⟨notif, rfl, hcancels⟩
        refine ⟨notif, ?_, hcancels⟩
        rw [messagesOf_append]
        exact List.getLast?_concat
      | parseThrows | sendThrows | notifyEscapes | exitThrows => exact hother hr rfl
      | handlerEscapes hr' => exact absurd (hr'.symm.trans hr) (by simp)
      | _ => exact absurd hr (by simp)
    | worker _ _ _ h =>
      exact hother (h.control.1 ▸ hr) (Label.message?_eq_none h.label.1)
    | sender _ h =>
      have hl := Label.message?_eq_none h.label
      rcases h.frame with ⟨_, _, _, rfl⟩
      exact hother hr hl

/-! ## The invariant -/

/-- A step of a run in which the client reuses the id of a request only when its response has been
sent. -/
def ClientStep (cfg : Config) (s : Server) (l : Label) (s' : Server) : Prop :=
  Step cfg s l s' ∧ ∀ id ∈ l.asked, id ∉ s.owed

/-- In addition a token is put into the map only when none is still to be erased under its id. -/
def CarefulStep (cfg : Config) (s : Server) (l : Label) (s' : Server) : Prop :=
  ClientStep cfg s l s' ∧
    ∀ call, l = .tokenInserted call → ∀ call', s.Erasing call' → call'.id ≠ call.id

/-- The entry of a request is its own: ids are owed one response at a time, tokens are distinct, and
no entry is about to be erased under the id of a request in a pool. -/
structure Registered (s : Server) : Prop where
  owed : s.owed.Nodup
  tokens : (s.calls.map RequestCall.token).Nodup
  fresh : ∀ call ∈ s.calls, call.token < s.flags.length
  erasing : ∀ call call', s.Erasing call → s.Pooled call' → call'.id ≠ call.id
  mapped : ∀ call, s.Pooled call → s.cancellationTokens_.lookup call.id = some call.token

lemma registered_start (cfg : Config) : Registered (Server.start cfg) := by
  have howed : (Server.start cfg).owed = 0 := Server.held_start rfl cfg
  have hcalls : (Server.start cfg).calls = 0 := Server.held_start rfl cfg
  refine ⟨?_, ?_, ?_, ?_, ?_⟩
  · rw [howed]
    exact Multiset.nodup_zero
  · rw [hcalls]
    exact Multiset.nodup_zero
  · intro call hcall
    rw [hcalls] at hcall
    exact absurd hcall (Multiset.notMem_zero _)
  · intro call call' _ hpooled
    have hmem := hpooled.mem_calls
    rw [hcalls] at hmem
    exact absurd hmem (Multiset.notMem_zero _)
  · intro call hpooled
    have hmem := hpooled.mem_calls
    rw [hcalls] at hmem
    exact absurd hmem (Multiset.notMem_zero _)

/-- A client that waits for responses is owed one for an id at a time. -/
lemma ClientStep.owed_nodup (h : ClientStep cfg s l s') (hphased : s.Phased)
    (hs : s.owed.Nodup) : s'.owed.Nodup := by
  have hbalance := h.1.balance hphased
  have hless : l.asked = 0 → s'.owed.Nodup := by
    intro hasked
    apply Multiset.nodup_of_le _ hs
    rw [← zero_add s.owed, ← hasked, ← hbalance]
    exact Multiset.le_add_left _ _
  cases l with
  | read m body msg =>
    cases msg with
    | request req =>
      have heq : s'.owed = req.id ::ₘ s.owed := (zero_add _).symm.trans hbalance
      rw [heq]
      exact Multiset.nodup_cons.mpr ⟨h.2 req.id (Multiset.mem_singleton_self _), hs⟩
    | _ => exact hless rfl
  | _ => exact hless rfl

lemma Registered.step (hs : Registered s) (hphased : s.Phased) (h : CarefulStep cfg s l s') :
    Registered s' := by
  have hstep : Step cfg s l s' := h.1.1
  have howed := h.1.owed_nodup hphased hs.owed
  refine ⟨howed, ?_, ?_, ?_, ?_⟩
  · rcases hstep.calls hphased with ⟨hle, -⟩ | ⟨call, heq, -, htoken, -⟩
    · exact Multiset.nodup_of_le (Multiset.map_le_map hle) hs.tokens
    · rw [heq, Multiset.map_add, Multiset.map_singleton, add_comm]
      -- a fresh token is no token of another request
      refine Multiset.nodup_cons.mpr ⟨?_, hs.tokens⟩
      intro hmem
      rcases Multiset.mem_map.mp hmem with ⟨call', hcall', htoken'⟩
      have hfresh := hs.fresh call' hcall'
      omega
  · intro call hcall
    rcases hstep.calls hphased with ⟨hle, hflags⟩ | ⟨call', heq, -, htoken, -, hflags⟩
    · rw [hflags]
      exact hs.fresh call (Multiset.mem_of_le hle hcall)
    · rw [heq] at hcall
      rcases Multiset.mem_add.mp hcall with hcall | hcall
      · have hfresh := hs.fresh call hcall
        omega
      · rw [Multiset.mem_singleton.mp hcall]
        omega
  · intro call call' herasing hpooled
    rcases hstep.erasing herasing with herasing | ⟨hanswered, hasked⟩
    · rcases hstep.pooled hpooled with hpooled | hl
      · exact hs.erasing call call' herasing hpooled
      · exact Ne.symm (h.2 call' hl call herasing)
    · -- the response to `call` has just been sent, and none is owed to its id any more
      have hbalance := hstep.balance hphased
      rw [hanswered, hasked, zero_add] at hbalance
      have hnodup := hs.owed
      rw [← hbalance] at hnodup
      intro heq
      exact (Multiset.nodup_cons.mp hnodup).1 (heq ▸ hpooled.mem_owed)
  · intro call hpooled
    rcases hstep.pooled hpooled with hpooled | rfl
    · rcases hstep.cancellationTokens_ with heq | ⟨call', -, hr, heq⟩ | ⟨call', herasing, heq⟩
      · rw [heq]
        exact hs.mapped call hpooled
      · rw [heq, AList.lookup_insert_ne (Server.id_ne_of_registering hs.owed hr hpooled)]
        exact hs.mapped call hpooled
      · -- a token that is erased belongs to a request with another id
        rw [heq, AList.lookup_erase_ne (hs.erasing call' call herasing hpooled)]
        exact hs.mapped call hpooled
    · rcases hstep.of_reader rfl with ⟨-, hreader⟩
      cases hreader with
      | insertToken => exact AList.lookup_insert _
      | handler _ _ hhandler | handlerFinishes _ hhandler | handlerEscapes _ hhandler =>
        cases hhandler

/-! ## The result -/

/-- What is expected of a state: a request whose response has not been sent is found under its id,
and a cancel of that id flips the flag of its token and no other. -/
def CancelsReach (cfg : Config) (ls : List Label) (s : Server) : Prop :=
  ∀ call, s.Pending call →
    s.cancellationTokens_.lookup call.id = some call.token ∧
      ∀ id s', LastCancels ls call.id → Step cfg s (.cancelled id) s' →
        s'.flag call = true ∧ ∀ call' ∈ s.calls, call' ≠ call → s'.flag call' = s.flag call'

/-- The critical section of a cancel. -/
lemma Step.cancelled_inv {id : RequestId} (h : Step cfg s (.cancelled id) s') :
    s.reader = .cancelling id ∧ s' = { s.cancel id with reader := .loop } := by
  rcases h.of_reader rfl with ⟨-, hreader⟩
  cases hreader with
  | cancel hr => exact ⟨hr, rfl⟩
  | handler _ _ hstep | handlerFinishes _ hstep | handlerEscapes _ hstep => cases hstep

/-- A cancel of a request that has not been answered flips the flag of its token and no other. -/
lemma Registered.flags (hs : Registered s) (hpending : s.Pending call)
    (h : Step cfg s (.cancelled call.id) s') :
    s'.flag call = true ∧ ∀ call' ∈ s.calls, call' ≠ call → s'.flag call' = s.flag call' := by
  have hpooled : s.Pooled call := Or.inr hpending
  have hflags : s'.flags = s.flags.set call.token true := by
    rw [h.cancelled_inv.2]
    unfold Server.cancel
    rw [hs.mapped call hpooled]
  refine ⟨?_, ?_⟩
  · rw [Server.flag, hflags, List.getD_eq_getElem?_getD,
      List.getElem?_set_self (hs.fresh call hpooled.mem_calls)]
    rfl
  · intro call' hcall' hne
    -- tokens are not shared
    have htoken : call.token ≠ call'.token := by
      intro heq
      apply hne
      exact Multiset.inj_on_of_nodup_map hs.tokens call' hcall' call hpooled.mem_calls heq.symm
    rw [Server.flag, Server.flag, hflags, List.getD_eq_getElem?_getD,
      List.getD_eq_getElem?_getD, List.getElem?_set_ne htoken]

/-- The invariant holds in every run in which no request is registered under an id whose token is
still to be erased. -/
lemma registered_of_careful {ls : List Label} (h : Run (CarefulStep cfg) (Server.start cfg) ls s) :
    Registered s := by
  have hboth : Registered s ∧ s.Phased := by
    apply h.invariant (I := fun s => Registered s ∧ s.Phased)
    · exact ⟨registered_start cfg, phased_start cfg⟩
    · intro t l u ht hstep
      exact ⟨ht.1.step ht.2 hstep, hstep.1.1.phased ht.2⟩
  exact hboth.1

/-- In every state of a run in which no request is registered under an id whose token is still to be
erased, every cancel reaches the request it names. -/
theorem cancels_reach (cfg : Config) (ls : List Label) (s : Server)
    (h : Run (CarefulStep cfg) (Server.start cfg) ls s) : CancelsReach cfg ls s := by
  have hrun : Runs cfg ls s := h.map id fun _ _ _ hstep => hstep.1.1
  have hregistered := registered_of_careful h
  intro call hpending
  refine ⟨hregistered.mapped call (Or.inr hpending), ?_⟩
  intro id s' hlast hstep
  -- the read thread works at the cancel that was read last
  have hid := (Runs.lastCancels hrun hstep.cancelled_inv.1).unique hlast
  rw [hid] at hstep
  exact hregistered.flags hpending hstep

end Steps

/-- A session in which a request to a pool is cancelled. -/
theorem cancels_reach_session :
    Reaches (CarefulStep Session.config) (Server.start Session.config) fun ls s =>
      (∃ call, s.Pending call ∧ .tokenInserted call ∈ ls) ∧
        s.reader = .cancelling (.int 1) ∧ LastCancels ls (.int 1) ∧
          CancelsReach Session.config ls s := by
  have hrun : Reaches (CarefulStep Session.config) (Server.start Session.config) fun ls s =>
      (∃ call, s.Pending call ∧ .tokenInserted call ∈ ls) ∧ s.reader = .cancelling (.int 1) := by
    apply Reaches.step
      ⟨⟨.reader rfl rfl (.read Session.initializeRequest.json.print rfl (by decide) rfl),
        by decide⟩, by simp⟩
    apply Reaches.step
      ⟨⟨.reader rfl rfl (.handler ⟨none, none⟩ rfl (.start rfl)), by decide⟩, by simp⟩
    apply Reaches.step
      ⟨⟨.reader rfl rfl (.handler ⟨none, none⟩ rfl (.returns .null)), by decide⟩, by simp⟩
    apply Reaches.step
      ⟨⟨.reader rfl rfl (.handlerFinishes rfl (.send rfl)), by decide⟩, by simp⟩
    apply Reaches.step
      ⟨⟨.reader rfl rfl (.read Session.hover.json.print rfl (by decide) rfl), by decide⟩, by simp⟩
    refine Reaches.step ⟨⟨.reader rfl rfl (.insertToken rfl), by decide⟩, ?_⟩ ?_
    · intro call _ call' herasing
      rcases herasing with ⟨_ | _, herasing⟩
      · exact absurd herasing (ThreadPool.not_working_create 2)
      · exact absurd herasing (ThreadPool.not_working_create 1)
    · apply Reaches.step ⟨⟨.reader rfl rfl (.submit rfl), by decide⟩, by simp⟩
      apply Reaches.step
        ⟨⟨.reader rfl rfl (.read Session.cancel.json.print rfl (by decide) rfl), by decide⟩,
          by simp⟩
      refine Reaches.here ⟨⟨_, Or.inl ⟨.worker, List.mem_cons_self⟩, ?_⟩, rfl⟩
      simp
  rcases hrun with ⟨ls, s, hrun, hpending, hreader⟩
  have hlast := Runs.lastCancels (hrun.map id fun _ _ _ hstep => hstep.1.1) hreader
  exact ⟨ls, s, hrun, hpending, hreader, hlast, cancels_reach Session.config ls s hrun⟩

/-- A session in which `hover` is requested with an id, answered, and requested again with the same
id before the worker has erased the first token: the second request is not found any more. -/
theorem session_loses_cancel :
    Reaches (ClientStep Session.config) (Server.start Session.config) fun ls s =>
      ¬ CancelsReach Session.config ls s := by
  apply Reaches.step
    ⟨.reader rfl rfl (.read Session.initializeRequest.json.print rfl (by decide) rfl), by decide⟩
  apply Reaches.step ⟨.reader rfl rfl (.handler ⟨none, none⟩ rfl (.start rfl)), by decide⟩
  apply Reaches.step ⟨.reader rfl rfl (.handler ⟨none, none⟩ rfl (.returns .null)), by decide⟩
  apply Reaches.step ⟨.reader rfl rfl (.handlerFinishes rfl (.send rfl)), by decide⟩
  apply Reaches.step
    ⟨.reader rfl rfl (.read Session.hover.json.print rfl (by decide) rfl), by decide⟩
  apply Reaches.step ⟨.reader rfl rfl (.insertToken rfl), by decide⟩
  apply Reaches.step ⟨.reader rfl rfl (.submit rfl), by decide⟩
  apply Reaches.step ⟨.worker .worker 0 rfl (.take rfl rfl), by decide⟩
  apply Reaches.step ⟨.worker .worker 0 rfl (.handler rfl (.start rfl)), by decide⟩
  apply Reaches.step ⟨.worker .worker 0 rfl (.handler rfl (.returns .null)), by decide⟩
  apply Reaches.step ⟨.worker .worker 0 rfl (.handlerFinishes rfl (.send rfl)), by decide⟩
  apply Reaches.step
    ⟨.reader rfl rfl (.read Session.hover.json.print rfl (by decide) rfl), by decide⟩
  apply Reaches.step ⟨.reader rfl rfl (.insertToken rfl), by decide⟩
  apply Reaches.step ⟨.reader rfl rfl (.submit rfl), by decide⟩
  apply Reaches.step ⟨.worker .worker 0 rfl (.eraseToken rfl), by decide⟩
  refine Reaches.here ?_
  intro hreach
  have hlookup := (hreach _ (Or.inl ⟨.worker, List.mem_cons_self⟩)).1
  exact absurd hlookup (by decide)

end CLSP
