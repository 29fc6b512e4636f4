import CLSP.Server.Threads
import Mathlib.Data.List.Induction

/-!
# The lifecycle

`lifecycleAfter` is the state after a list of messages, as the handlers set it. The state of the
server is that of the messages read so far, in every interleaving, once a lifecycle request that
has been dispatched is taken to have started (`Server.settled`). A run therefore moves forward
exactly when its messages do not make the abstract lifecycle go back, which one kind of input does:
an `initialized` notification after a shutdown request.
-/

namespace CLSP

open Transition (Reaches)

/-! ## The abstract lifecycle -/

/-- The changes of state that are meant. -/
inductive ServerState.Forward : ServerState → ServerState → Prop
  | stay (state : ServerState) : Forward state state
  | begin : Forward .Uninitialized .Initializing
  | run : Forward .Initializing .Running
  | shutdown : Forward .Running .ShuttingDown
  | earlyShutdown : Forward .Initializing .ShuttingDown
  | exit (state : ServerState) : Forward state .Exited

/-- The state in which the read thread takes a shutdown request. -/
def ServerState.Active (state : ServerState) : Prop :=
  state = .Initializing ∨ state = .Running

instance (state : ServerState) : Decidable state.Active :=
  inferInstanceAs (Decidable (_ ∨ _))

/-- The effect of a request on the state. -/
def requestStep (state : ServerState) (method : Bytes) : ServerState :=
  if state = .Uninitialized ∧ method = str "initialize" then .Initializing
  else if state.Active ∧ method = str "shutdown" then .ShuttingDown
  else state

/-- The effect of a notification on the state. Nothing is read after `exit`. -/
def notificationStep (state : ServerState) (method : Bytes) : ServerState :=
  if method = str "exit" then .Exited
  else if method = str "initialized" ∧ state ≠ .Uninitialized ∧ state ≠ .Exited then .Running
  else state

/-- The effect of a message on the state. -/
def lifecycleStep (state : ServerState) : ParsedMessage → ServerState
  | .request req => requestStep state req.method
  | .notification notif => notificationStep state notif.method
  | _ => state

/-- The state after a list of messages. -/
def lifecycleAfter (msgs : List ParsedMessage) : ServerState :=
  msgs.foldl lifecycleStep .Uninitialized

@[simp] lemma lifecycleAfter_concat (msgs : List ParsedMessage) (msg : ParsedMessage) :
    lifecycleAfter (msgs ++ [msg]) = lifecycleStep (lifecycleAfter msgs) msg := by
  simp [lifecycleAfter]

/-- The message a step reads. -/
def Label.message? : Label → Option ParsedMessage
  | .read _ _ msg => some msg
  | _ => none

/-- The messages read in a run. -/
def messagesOf (ls : List Label) : List ParsedMessage :=
  ls.filterMap Label.message?

@[simp] lemma messagesOf_append (ls ms : List Label) :
    messagesOf (ls ++ ms) = messagesOf ls ++ messagesOf ms :=
  List.filterMap_append

lemma messagesOf_concat_none {l : Label} (h : l.message? = none) (ls : List Label) :
    messagesOf (ls ++ [l]) = messagesOf ls := by
  simp [messagesOf, h]

/-- The lifecycle handlers are the built-in ones. -/
structure Config.LifecycleKept (cfg : Config) : Prop where
  initialize_kept : str "initialize" ∉ cfg.userRequests
  shutdown_kept : str "shutdown" ∉ cfg.userRequests
  initialized_kept : str "initialized" ∉ cfg.userNotifications

lemma Config.LifecycleKept.initializeRequest {cfg : Config} (h : cfg.LifecycleKept) :
    cfg.requestHandler (str "initialize") = some .initializeRequest := by
  rw [Config.requestHandler, if_neg h.initialize_kept, if_pos rfl]

lemma Config.LifecycleKept.shutdownRequest {cfg : Config} (h : cfg.LifecycleKept) :
    cfg.requestHandler (str "shutdown") = some .shutdownRequest := by
  rw [Config.requestHandler, if_neg h.shutdown_kept, if_neg (by decide), if_pos rfl]

lemma Config.LifecycleKept.initialized {cfg : Config} (h : cfg.LifecycleKept) :
    cfg.notificationHandler (str "initialized") = some .initialized := by
  rw [Config.notificationHandler, if_neg h.initialized_kept, if_pos rfl]

lemma method_of_initialized {cfg : Config} {method : Bytes}
    (h : cfg.notificationHandler method = some .initialized) : method = str "initialized" := by
  unfold Config.notificationHandler at h
  split_ifs at h with _ hmethod <;> simp_all

lemma method_of_initializeRequest {cfg : Config} {method : Bytes}
    (h : cfg.requestHandler method = some .initializeRequest) : method = str "initialize" := by
  unfold Config.requestHandler at h
  split_ifs at h with _ hmethod <;> simp_all

lemma method_of_shutdownRequest {cfg : Config} {method : Bytes}
    (h : cfg.requestHandler method = some .shutdownRequest) : method = str "shutdown" := by
  unfold Config.requestHandler at h
  split_ifs at h with _ _ hmethod <;> simp_all

/-! ## The state of the server -/

/-- The state a handler sets when it starts. -/
def RequestHandler.starts (state : ServerState) : RequestHandler → ServerState
  | .initializeRequest => .Initializing
  | .shutdownRequest => .ShuttingDown
  | .user => state

lemma Server.state_lifecycleStarts (s : Server) (handler : RequestHandler) :
    (s.lifecycleStarts handler).state_ = handler.starts s.state_ := by
  cases handler <;> rfl

lemma Server.state_lifecycleReturns (s : Server) (capabilities : Server.Capabilities)
    (handler : RequestHandler) : (s.lifecycleReturns capabilities handler).state_ = s.state_ := by
  cases handler <;> rfl

/-- The state once a lifecycle request that is about to start has started. -/
def ReaderPc.settled (state : ServerState) : ReaderPc → ServerState
  | .inline call .checking => call.handler.starts state
  | _ => state

def Server.settled (s : Server) : ServerState :=
  s.reader.settled s.state_

/-- A shutdown request is accepted while the server is initializing or running. -/
lemma accepts_shutdown_iff {state : ServerState} (hexited : state ≠ .Exited) :
    Accepts state (str "shutdown") ↔ state.Active := by
  have hmethod : str "shutdown" ≠ str "initialize" := by decide
  unfold Accepts ServerState.Active
  cases state with
  | Exited => exact absurd rfl hexited
  | _ => simp [hmethod]

/-- A request that may start, on the read thread, has the effect of its method. -/
lemma starts_eq {cfg : Config} (hkept : cfg.LifecycleKept) {state : ServerState} {method : Bytes}
    {handler : RequestHandler} (hexited : state ≠ .Exited) (haccepts : Accepts state method)
    (hhandler : cfg.requestHandler method = some handler)
    (hlife : isLifecycleRequest method = true) :
    handler.starts state = requestStep state method := by
  unfold isLifecycleRequest at hlife
  rcases Bool.or_eq_true_iff.mp hlife with hmethod | hmethod
  · have hmethod' := of_decide_eq_true hmethod
    subst hmethod'
    have hinit : handler = .initializeRequest :=
      Option.some.inj (hhandler.symm.trans hkept.initializeRequest)
    subst hinit
    exact (if_pos ⟨haccepts.2.mpr rfl, rfl⟩).symm
  · have hmethod' := of_decide_eq_true hmethod
    subst hmethod'
    have hshutdown : handler = .shutdownRequest :=
      Option.some.inj (hhandler.symm.trans hkept.shutdownRequest)
    subst hshutdown
    have hactive := (accepts_shutdown_iff hexited).mp haccepts
    have hne : state ≠ .Uninitialized := fun h => absurd (haccepts.2.mp h) (by decide)
    rw [requestStep, if_neg fun h => hne h.1, if_pos ⟨hactive, rfl⟩]
    rfl

/-- A request that does not get to a lifecycle handler leaves the state. -/
lemma requestStep_eq {cfg : Config} (hkept : cfg.LifecycleKept) {state : ServerState}
    {method : Bytes}
    (h : isLifecycleRequest method = false ∨
      (Accepts state method → cfg.requestHandler method = none)) :
    requestStep state method = state := by
  unfold requestStep
  split
  · next hinit =>
    -- the request would have got to its handler, which is there
    rcases hinit with ⟨rfl, rfl⟩
    rcases h with h | h
    · exact absurd h (by decide)
    · have hnone := h ⟨by simp, by simp⟩
      rw [hkept.initializeRequest] at hnone
      exact absurd hnone (by simp)
  · split
    · next hshutdown =>
      rcases hshutdown with ⟨hactive, rfl⟩
      rcases h with h | h
      · exact absurd h (by decide)
      · have hexited : state ≠ .Exited := by
          rcases hactive with rfl | rfl <;> simp
        have hnone := h ((accepts_shutdown_iff hexited).mpr hactive)
        rw [hkept.shutdownRequest] at hnone
        exact absurd hnone (by simp)
    · rfl

lemma RequestOutcome.settled {cfg : Config} (hkept : cfg.LifecycleKept) {state : ServerState}
    {serial token : ℕ} {req : ParsedRequest} {pc : ReaderPc} (hexited : state ≠ .Exited)
    (h : RequestOutcome cfg state serial token req pc) :
    pc.settled state = requestStep state req.method := by
  cases h with
  | rejected _ _ hrejected => exact (requestStep_eq hkept (Or.inr hrejected)).symm
  | lifecycle haccepts hhandler hlife => exact starts_eq hkept hexited haccepts hhandler hlife
  | pooled _ _ hlife => exact (requestStep_eq hkept (Or.inl hlife)).symm

/-- Any other notification leaves the state. -/
lemma notificationStep_eq {cfg : Config} (hkept : cfg.LifecycleKept) {state : ServerState}
    {method : Bytes} (hexit : method ≠ str "exit")
    (h : state ≠ .Uninitialized → cfg.notificationHandler method ≠ some .initialized) :
    notificationStep state method = state := by
  rw [notificationStep, if_neg hexit]
  split
  · next hinit =>
    rcases hinit with ⟨rfl, hstate, -⟩
    exact absurd hkept.initialized (h hstate)
  · rfl

lemma not_initialized_of_not_inline {method : Bytes} (h : isInlineNotification method = false) :
    method ≠ str "exit" ∧ method ≠ str "initialized" := by
  unfold isInlineNotification at h
  constructor
  · intro hexit
    rw [hexit] at h
    exact absurd h (by decide)
  · intro hinitialized
    rw [hinitialized] at h
    exact absurd h (by decide)

lemma NotificationOutcome.settled {cfg : Config} (hkept : cfg.LifecycleKept) {state : ServerState}
    {serial : ℕ} {notif : ParsedNotification} {next : ServerState × ReaderPc}
    (hexited : state ≠ .Exited) (h : NotificationOutcome cfg state serial notif next) :
    next.2.settled next.1 = notificationStep state notif.method := by
  cases h with
  | exit hexit => exact (if_pos hexit).symm
  | dropped hexit hdropped => exact (notificationStep_eq hkept hexit hdropped).symm
  | initialized hexit hinit hhandler =>
    rw [notificationStep, if_neg hexit, if_pos ⟨method_of_initialized hhandler, hinit, hexited⟩]
    rfl
  | cancel hexit hhandler _ =>
    exact (notificationStep_eq hkept hexit fun _ => by simp [hhandler]).symm
  | inline hexit hhandler hne =>
    exact (notificationStep_eq hkept hexit fun _ => by simpa [hhandler] using hne).symm
  | sync _ _ hinline _ =>
    rcases not_initialized_of_not_inline hinline with ⟨hexit, hne⟩
    exact (notificationStep_eq hkept hexit fun _ h => hne (method_of_initialized h)).symm
  | pooled _ _ hinline _ =>
    rcases not_initialized_of_not_inline hinline with ⟨hexit, hne⟩
    exact (notificationStep_eq hkept hexit fun _ h => hne (method_of_initialized h)).symm

/-- Dispatch has the effect of the message on the state, at once or when the request starts. -/
lemma Outcome.settled {cfg : Config} (hkept : cfg.LifecycleKept) {state : ServerState}
    {serial token : ℕ} {msg : ParsedMessage} {next : ServerState × ReaderPc}
    (hexited : state ≠ .Exited) (h : Outcome cfg state serial token msg next) :
    next.2.settled next.1 = lifecycleStep state msg := by
  cases h with
  | request h => exact h.settled hkept hexited
  | notification h => exact h.settled hkept hexited
  | response h => cases h <;> rfl
  | error => rfl

/-- The state is that of the messages, and a lifecycle request about to start is one the state
lets through, with a token nobody has cancelled. -/
structure LifecycleInvariant (cfg : Config) (ls : List Label) (s : Server) : Prop where
  settled : s.settled = lifecycleAfter (messagesOf ls)
  starting : ∀ call, s.reader = .inline call .checking →
    Accepts s.state_ call.method ∧ cfg.requestHandler call.method = some call.handler ∧
      isLifecycleRequest call.method = true ∧ s.state_ ≠ .Exited ∧ s.flag call = false

section Steps

variable {cfg : Config} {ls : List Label} {s s' : Server} {l : Label}

lemma Label.message?_eq_none (h : l.ofReader = false) : l.message? = none := by
  cases l with
  | read => exact absurd h (by simp [Label.ofReader])
  | _ => rfl

/-- A lifecycle request sets the state when it starts, and only then. -/
lemma HandlerStep.settled {nl : Nlohmann} {call : RequestCall} {pc pc' : HandlerPc}
    (capabilities : Server.Capabilities) (h : HandlerStep nl call (s.flag call) pc l (.next pc'))
    (hflag : pc = .checking → s.flag call = false) :
    ReaderPc.settled (s.lifecycleEffect capabilities call.handler l).state_ (.inline call pc') =
        ReaderPc.settled s.state_ (.inline call pc) ∧ pc' ≠ .checking := by
  cases h with
  | cancelled htrue => exact absurd (hflag rfl) (by simp [htrue])
  | start => exact ⟨s.state_lifecycleStarts call.handler, by simp⟩
  | returns =>
    exact ⟨s.state_lifecycleReturns capabilities call.handler, by simp⟩
  | poll | throws | sendThrows => exact ⟨rfl, by simp⟩

lemma Outcome.starting {state : ServerState} {serial token : ℕ} {msg : ParsedMessage}
    {next : ServerState × ReaderPc} (h : Outcome cfg state serial token msg next)
    {call : RequestCall} (hnext : next.2 = .inline call .checking) :
    next.1 = state ∧ Accepts state call.method ∧
      cfg.requestHandler call.method = some call.handler ∧
      isLifecycleRequest call.method = true ∧ call.token = token := by
  cases h with
  | request h =>
    cases h with
    | lifecycle haccepts hhandler hlife =>
      rcases ReaderPc.inline.inj hnext with ⟨rfl, -⟩
      exact ⟨rfl, haccepts, hhandler, hlife, rfl⟩
    | _ => exact absurd hnext (by simp)
  | notification h => cases h <;> exact absurd hnext (by simp)
  | response h => cases h <;> exact absurd hnext (by simp)
  | error => exact absurd hnext (by simp)

lemma LifecycleInvariant.reader (hkept : cfg.LifecycleKept) (hs : LifecycleInvariant cfg ls s)
    (h : ReaderStep cfg s l s') : LifecycleInvariant cfg (ls ++ [l]) s' := by
  -- steps that read nothing and do not start a handler
  have hquiet : l.message? = none → s'.state_ = s.state_ →
      s'.reader.settled s.state_ = s.reader.settled s.state_ →
      (∀ call, s'.reader ≠ .inline call .checking) → LifecycleInvariant cfg (ls ++ [l]) s' := by
    intro hl hstate hreader hnot
    refine ⟨?_, fun call hcall => absurd hcall (hnot call)⟩
    rw [messagesOf_concat_none hl, ← hs.settled, Server.settled, hstate, hreader]
    rfl
  cases h with
  | @read body msg hr hexited _ =>
    have houtcome := dispatch_outcome cfg s.state_ s.messagesRead s.flags.length msg
    refine ⟨?_, ?_⟩
    · have hafter : s.state_ = lifecycleAfter (messagesOf ls) := by
        rw [← hs.settled, Server.settled, hr]
        rfl
      rw [messagesOf_append]
      show _ = lifecycleAfter (messagesOf ls ++ [msg])
      rw [lifecycleAfter_concat, ← hafter]
      exact houtcome.settled hkept hexited
    · intro call hcall
      rcases houtcome.starting hcall with ⟨hstate, haccepts, hhandler, hlife, htoken⟩
      have hstate' : (s.read (dispatch cfg s.state_ s.messagesRead s.flags.length msg)).state_
          = s.state_ := hstate
      rw [hstate']
      refine ⟨haccepts, hhandler, hlife, hexited, ?_⟩
      -- the token of the request is the flag that has just been added
      have hflags : (s.read (dispatch cfg s.state_ s.messagesRead s.flags.length msg)).flags
          = s.flags ++ [false] := by
        show s.flags ++ ReaderPc.newFlags _ = _
        rw [show (dispatch cfg s.state_ s.messagesRead s.flags.length msg).2 = _ from hcall]
        rfl
      rw [Server.flag, hflags, htoken]
      simp
  | @handler call pc pc' _ capabilities hr hstep =>
    have hflag : pc = .checking → s.flag call = false := by
      intro heq
      subst heq
      exact (hs.starting call hr).2.2.2.2
    -- the state is set when the handler starts, where `settled` had it already
    rcases hstep.settled capabilities hflag with ⟨hsettled, hpc⟩
    refine ⟨?_, ?_⟩
    · rw [messagesOf_concat_none (Label.message?_eq_none hstep.label.1), ← hs.settled,
        Server.settled, Server.settled, hr, ← hsettled]
    · intro call' hcall
      exact absurd (ReaderPc.inline.inj hcall).2 hpc
  | @handlerFinishes call pc _ hr hstep =>
    have hpc : ReaderPc.settled s.state_ (.inline call pc) = s.state_ := by cases hstep; rfl
    exact hquiet (Label.message?_eq_none hstep.label.1) rfl (by rw [hr, hpc]; rfl) (by simp)
  | @handlerEscapes call pc _ hr hstep =>
    have hpc : pc ≠ .checking := by cases hstep <;> simp
    refine hquiet (Label.message?_eq_none hstep.label.1) rfl rfl ?_
    intro call' hcall
    exact hpc (ReaderPc.inline.inj (hr.symm.trans hcall)).2
  | parseThrows _ hr | sendThrows hr | notifyEscapes hr | exitThrows _ hr =>
    refine hquiet rfl rfl rfl ?_
    intro call hcall
    exact absurd (hr.symm.trans hcall) (by simp)
  | submit hr | stop hr =>
    exact hquiet rfl (Server.setPool_state_ s _ _) (by rw [hr]; rfl) (by simp)
  | endOfInput hr | leave hr | send hr | insertToken hr | cancel hr | notified hr | exited hr
  | unmatched hr | matched hr | joinSync hr | joinWorkers hr =>
    exact hquiet rfl rfl (by rw [hr]; rfl) (by simp)

theorem LifecycleInvariant.step (hkept : cfg.LifecycleKept) (hs : LifecycleInvariant cfg ls s)
    (h : Step cfg s l s') : LifecycleInvariant cfg (ls ++ [l]) s' := by
  cases h with
  | reader _ _ h => exact hs.reader hkept h
  | worker _ _ _ h =>
    rcases h.control with ⟨hreader, -, -, hstate, -, hflags⟩
    refine ⟨?_, ?_⟩
    · rw [messagesOf_concat_none (Label.message?_eq_none h.label.1), ← hs.settled, Server.settled,
        hreader, hstate]
      rfl
    · intro call hcall
      rw [hstate, Server.flag, hflags]
      exact hs.starting call (hreader ▸ hcall)
  | sender _ h =>
    have hl := Label.message?_eq_none h.label
    rcases h.frame with ⟨_, _, _, rfl⟩
    refine ⟨?_, hs.starting⟩
    rw [messagesOf_concat_none hl, ← hs.settled]
    rfl

theorem Runs.lifecycle (hkept : cfg.LifecycleKept) (h : Runs cfg ls s) :
    LifecycleInvariant cfg ls s :=
  h.history ⟨rfl, fun _ hcall => absurd hcall (by simp [Server.start])⟩
    fun _ _ _ _ ht hstep => ht.step hkept hstep

/-- The state where the read thread reads. -/
lemma Runs.state_of_read (hkept : cfg.LifecycleKept) (h : Runs cfg ls s) {serial : ℕ}
    {body : Bytes} {msg : ParsedMessage} (hstep : Step cfg s (.read serial body msg) s') :
    s.reader = .loop ∧ s.state_ ≠ .Exited ∧ s.state_ = lifecycleAfter (messagesOf ls) ∧
      s' = s.read (dispatch cfg s.state_ s.messagesRead s.flags.length msg) := by
  rcases hstep.read_inv with ⟨hreader, -, hexited, -, hs'⟩
  refine ⟨hreader, hexited, ?_, hs'⟩
  rw [← (Runs.lifecycle hkept h).settled, Server.settled, hreader]
  rfl

end Steps

/-! ## Late `initialized` notifications -/

/-- The client initializes, asks for the shutdown, and then sends an `initialized` notification,
all before any exit. -/
def LateInitialized (msgs : List ParsedMessage) : Prop :=
  ∃ m₀ m₁ m₂ m₃ begin shutdown notif,
    msgs = m₀ ++ .request begin :: (m₁ ++ .request shutdown :: (m₂ ++ .notification notif :: m₃)) ∧
      begin.method = str "initialize" ∧ shutdown.method = str "shutdown" ∧
      notif.method = str "initialized" ∧
      ∀ n, .notification n ∈ m₀ ++ m₁ ++ m₂ → n.method ≠ str "exit"

/-- Somewhere an `initialized` notification meets the state `ShuttingDown`. -/
def GoesBack (msgs : List ParsedMessage) : Prop :=
  ∃ m₀ m₁ notif, msgs = m₀ ++ .notification notif :: m₁ ∧
    lifecycleAfter m₀ = .ShuttingDown ∧ notif.method = str "initialized"

/-- The client has initialized and not exited. -/
def ServerState.Started (state : ServerState) : Prop :=
  state.Active ∨ state = .ShuttingDown

/-- No exit notification. -/
def ParsedMessage.Stays (msg : ParsedMessage) : Prop :=
  ∀ n, msg = .notification n → n.method ≠ str "exit"

lemma started_or {state : ServerState} (h : state ≠ .Exited) :
    state = .Uninitialized ∨ state.Started := by
  cases state with
  | Uninitialized => exact Or.inl rfl
  | Initializing => exact Or.inr (Or.inl (Or.inl rfl))
  | Running => exact Or.inr (Or.inl (Or.inr rfl))
  | ShuttingDown => exact Or.inr (Or.inr rfl)
  | Exited => exact absurd rfl h

lemma ServerState.Started.ne {state : ServerState} (h : state.Started) :
    state ≠ .Uninitialized ∧ state ≠ .Exited := by
  rcases h with (rfl | rfl) | rfl <;> simp

/-- A message either leaves the state or changes it in one of four ways. -/
lemma lifecycleStep_cases (state : ServerState) (msg : ParsedMessage) :
    lifecycleStep state msg = state ∨
    (∃ req, msg = .request req ∧ state = .Uninitialized ∧ req.method = str "initialize" ∧
      lifecycleStep state msg = .Initializing) ∨
    (∃ req, msg = .request req ∧ state.Active ∧ req.method = str "shutdown" ∧
      lifecycleStep state msg = .ShuttingDown) ∨
    (∃ notif, msg = .notification notif ∧ notif.method = str "exit" ∧
      lifecycleStep state msg = .Exited) ∨
    ∃ notif, msg = .notification notif ∧ notif.method = str "initialized" ∧ state.Started ∧
      lifecycleStep state msg = .Running := by
  rcases msg with req | notif | err | resp
  · unfold lifecycleStep requestStep
    by_cases hinit : state = .Uninitialized ∧ req.method = str "initialize"
    · exact Or.inr (Or.inl ⟨req, rfl, hinit.1, hinit.2, if_pos hinit⟩)
    · by_cases hshutdown : state.Active ∧ req.method = str "shutdown"
      · refine Or.inr (Or.inr (Or.inl ⟨req, rfl, hshutdown.1, hshutdown.2, ?_⟩))
        show (if _ then _ else _) = _
        rw [if_neg hinit, if_pos hshutdown]
      · refine Or.inl ?_
        show (if _ then _ else _) = _
        rw [if_neg hinit, if_neg hshutdown]
  · unfold lifecycleStep notificationStep
    by_cases hexit : notif.method = str "exit"
    · exact Or.inr (Or.inr (Or.inr (Or.inl ⟨notif, rfl, hexit, if_pos hexit⟩)))
    · by_cases hinit : notif.method = str "initialized" ∧ state ≠ .Uninitialized ∧ state ≠ .Exited
      · have hstarted : state.Started := (started_or hinit.2.2).resolve_left hinit.2.1
        refine Or.inr (Or.inr (Or.inr (Or.inr ⟨notif, rfl, hinit.1, hstarted, ?_⟩)))
        show (if _ then _ else _) = _
        rw [if_neg hexit, if_pos hinit]
      · refine Or.inl ?_
        show (if _ then _ else _) = _
        rw [if_neg hexit, if_neg hinit]
  · exact Or.inl rfl
  · exact Or.inl rfl

lemma lifecycleStep_started {state : ServerState} (h : state.Started) {msg : ParsedMessage}
    (hstays : msg.Stays) : (lifecycleStep state msg).Started := by
  rcases lifecycleStep_cases state msg with heq | ⟨_, _, hstate, _, _⟩ | ⟨_, _, _, _, heq⟩ |
    ⟨n, hmsg, hexit, _⟩ | ⟨_, _, _, _, heq⟩
  · rwa [heq]
  · exact absurd hstate h.ne.1
  · exact Or.inr heq
  · exact absurd hexit (hstays n hmsg)
  · exact Or.inl (Or.inr heq)

lemma lifecycleStep_ne_exited {state : ServerState} (h : state ≠ .Exited) {msg : ParsedMessage}
    (hstays : msg.Stays) : lifecycleStep state msg ≠ .Exited := by
  rcases lifecycleStep_cases state msg with heq | ⟨_, _, _, _, heq⟩ | ⟨_, _, _, _, heq⟩ |
    ⟨n, hmsg, hexit, _⟩ | ⟨_, _, _, _, heq⟩
  · rwa [heq]
  · simp [heq]
  · simp [heq]
  · exact absurd hexit (hstays n hmsg)
  · simp [heq]

lemma lifecycleAfter_ne_exited {msgs : List ParsedMessage} (h : ∀ msg ∈ msgs, msg.Stays) :
    lifecycleAfter msgs ≠ .Exited := by
  induction msgs using List.reverseRecOn with
  | nil => simp [lifecycleAfter]
  | append_singleton msgs msg ih =>
    rw [lifecycleAfter_concat]
    exact lifecycleStep_ne_exited (ih fun m hm => h m (by simp [hm])) (h msg (by simp))

lemma lifecycleAfter_started {msgs ms : List ParsedMessage} (h : (lifecycleAfter msgs).Started)
    (hstays : ∀ msg ∈ ms, msg.Stays) : (lifecycleAfter (msgs ++ ms)).Started := by
  induction ms using List.reverseRecOn with
  | nil => rwa [List.append_nil]
  | append_singleton ms msg ih =>
    rw [← List.append_assoc, lifecycleAfter_concat]
    exact lifecycleStep_started (ih fun m hm => hstays m (by simp [hm])) (hstays msg (by simp))

/-- From the first `initialize` on the client has started. -/
lemma lifecycleAfter_initialize {m₀ m₁ : List ParsedMessage} {begin : ParsedRequest}
    (hbegin : begin.method = str "initialize") (hstays : ∀ msg ∈ m₀ ++ m₁, msg.Stays) :
    (lifecycleAfter (m₀ ++ [.request begin] ++ m₁)).Started := by
  have hrequest : (ParsedMessage.request begin).Stays := by
    intro n hn
    exact absurd hn (by simp)
  have hfirst : lifecycleAfter m₀ ≠ .Exited :=
    lifecycleAfter_ne_exited fun m hm => hstays m (List.mem_append_left _ hm)
  have hbegun : (lifecycleAfter (m₀ ++ [.request begin])).Started := by
    rw [lifecycleAfter_concat]
    rcases started_or hfirst with hs | hs
    · rw [hs]
      exact Or.inl (Or.inl (if_pos ⟨rfl, hbegin⟩))
    · exact lifecycleStep_started hs hrequest
  exact lifecycleAfter_started hbegun fun m hm => hstays m (List.mem_append_right _ hm)

/-- From a shutdown on, the first `initialized` notification meets `ShuttingDown`. -/
lemma goesBack_of_shuttingDown {msgs ms m₃ : List ParsedMessage} {notif : ParsedNotification}
    (h : lifecycleAfter msgs = .ShuttingDown) (hstays : ∀ msg ∈ ms, msg.Stays)
    (hnotif : notif.method = str "initialized") :
    GoesBack (msgs ++ (ms ++ .notification notif :: m₃)) := by
  -- on the messages up to `notif`: one of them may be late before it
  induction ms generalizing msgs with
  | nil => exact ⟨msgs, m₃, notif, rfl, h, hnotif⟩
  | cons msg ms ih =>
    have happ : msgs ++ (msg :: ms ++ .notification notif :: m₃)
        = msgs ++ [msg] ++ (ms ++ .notification notif :: m₃) := by simp
    rcases lifecycleStep_cases (lifecycleAfter msgs) msg with heq | ⟨_, _, hstate, _, _⟩ |
      ⟨_, _, hactive, _, _⟩ | ⟨n, hmsg, hexit, _⟩ | ⟨n, hmsg, hinit, _, _⟩
    · rw [happ]
      exact ih (by rw [lifecycleAfter_concat, heq, h]) fun m hm => hstays m (by simp [hm])
    · exact absurd (h.symm.trans hstate) (by simp)
    · rw [h] at hactive
      exact absurd hactive (by decide)
    · exact absurd hexit (hstays msg (by simp) n hmsg)
    · exact ⟨msgs, ms ++ .notification notif :: m₃, n, by rw [hmsg, List.cons_append], h, hinit⟩

lemma goesBack_of_lateInitialized {msgs : List ParsedMessage} (h : LateInitialized msgs) :
    GoesBack msgs := by
  rcases h with ⟨m₀, m₁, m₂, m₃, begin, shutdown, notif, rfl, hbegin, hshutdown, hnotif, hexit⟩
  have hstays : ∀ msg ∈ m₀ ++ m₁ ++ m₂, msg.Stays := by
    intro msg hmsg n hn
    rw [hn] at hmsg
    exact hexit n hmsg
  have hmiddle : (lifecycleAfter (m₀ ++ [.request begin] ++ m₁)).Started :=
    lifecycleAfter_initialize hbegin fun m hm => hstays m (List.mem_append_left _ hm)
  have hdown : lifecycleAfter (m₀ ++ [.request begin] ++ m₁ ++ [.request shutdown])
      = .ShuttingDown := by
    rw [lifecycleAfter_concat]
    show requestStep _ _ = _
    rw [requestStep, if_neg fun h => hmiddle.ne.1 h.1]
    rcases hmiddle with hactive | heq
    · rw [if_pos ⟨hactive, hshutdown⟩]
    · rw [heq]
      split <;> rfl
  have happ :
      m₀ ++ .request begin :: (m₁ ++ .request shutdown :: (m₂ ++ .notification notif :: m₃)) =
        m₀ ++ [.request begin] ++ m₁ ++ [.request shutdown] ++
          (m₂ ++ .notification notif :: m₃) := by
    simp
  rw [happ]
  exact goesBack_of_shuttingDown hdown (fun m hm => hstays m (by simp [hm])) hnotif

/-! Conversely the state tells what has been read. -/

lemma stays_of_ne_exited {msgs : List ParsedMessage} (h : lifecycleAfter msgs ≠ .Exited) :
    ∀ msg ∈ msgs, msg.Stays := by
  induction msgs using List.reverseRecOn with
  | nil => simp
  | append_singleton msgs msg ih =>
    rw [lifecycleAfter_concat] at h
    -- no message leads out of `Exited`
    have hbefore : lifecycleAfter msgs ≠ .Exited := by
      intro hexited
      rcases lifecycleStep_cases (lifecycleAfter msgs) msg with heq | ⟨_, _, hstate, _, _⟩ |
        ⟨_, _, hactive, _, _⟩ | ⟨_, _, _, heq⟩ | ⟨_, _, _, hs, _⟩
      · exact h (heq.trans hexited)
      · exact absurd (hexited.symm.trans hstate) (by simp)
      · rw [hexited] at hactive
        exact absurd hactive (by decide)
      · exact h heq
      · exact hs.ne.2 hexited
    intro m hm
    rcases List.mem_append.mp hm with hm | hm
    · exact ih hbefore m hm
    · rw [List.mem_singleton.mp hm]
      intro n hn hexit
      rw [hn] at h
      exact h (if_pos hexit)

lemma exists_initialize {msgs : List ParsedMessage} (h : (lifecycleAfter msgs).Started) :
    ∃ m₀ m₁ begin, msgs = m₀ ++ .request begin :: m₁ ∧ begin.method = str "initialize" := by
  induction msgs using List.reverseRecOn with
  | nil => exact absurd rfl h.ne.1
  | append_singleton msgs msg ih =>
    have hextend : (lifecycleAfter msgs).Started →
        ∃ m₀ m₁ begin, msgs ++ [msg] = m₀ ++ .request begin :: m₁ ∧
          begin.method = str "initialize" := by
      intro hs
      rcases ih hs with ⟨m₀, m₁, begin, rfl, hbegin⟩
      exact ⟨m₀, m₁ ++ [msg], begin, by simp, hbegin⟩
    rw [lifecycleAfter_concat] at h
    rcases lifecycleStep_cases (lifecycleAfter msgs) msg with heq | ⟨req, rfl, _, hinit, _⟩ |
      ⟨_, _, hactive, _, _⟩ | ⟨_, _, _, heq⟩ | ⟨_, _, _, hs, _⟩
    · exact hextend (heq ▸ h)
    · exact ⟨msgs, [], req, rfl, hinit⟩
    · exact hextend (Or.inl hactive)
    · exact absurd heq h.ne.2
    · exact hextend hs

lemma exists_shutdown {msgs : List ParsedMessage} (h : lifecycleAfter msgs = .ShuttingDown) :
    ∃ m₀ m₁ shutdown, msgs = m₀ ++ .request shutdown :: m₁ ∧
      shutdown.method = str "shutdown" ∧ (lifecycleAfter m₀).Active := by
  induction msgs using List.reverseRecOn with
  | nil => exact absurd h (by simp [lifecycleAfter])
  | append_singleton msgs msg ih =>
    rw [lifecycleAfter_concat] at h
    rcases lifecycleStep_cases (lifecycleAfter msgs) msg with heq | ⟨_, _, _, _, heq⟩ |
      ⟨req, rfl, hactive, hshutdown, _⟩ | ⟨_, _, _, heq⟩ | ⟨_, _, _, _, heq⟩
    · rcases ih (heq ▸ h) with ⟨m₀, m₁, shutdown, rfl, hshutdown, hactive⟩
      exact ⟨m₀, m₁ ++ [msg], shutdown, by simp, hshutdown, hactive⟩
    · exact absurd (h.symm.trans heq) (by simp)
    · exact ⟨msgs, [], req, rfl, hshutdown, hactive⟩
    · exact absurd (h.symm.trans heq) (by simp)
    · exact absurd (h.symm.trans heq) (by simp)

lemma lateInitialized_of_goesBack {msgs : List ParsedMessage} (h : GoesBack msgs) :
    LateInitialized msgs := by
  rcases h with ⟨p, m₃, notif, rfl, hdown, hnotif⟩
  have hstays : ∀ msg ∈ p, msg.Stays := stays_of_ne_exited (by simp [hdown])
  -- the state at the notification names the two requests before it
  rcases exists_shutdown hdown with ⟨q, m₂, shutdown, rfl, hshutdown, hactive⟩
  rcases exists_initialize (Or.inl hactive) with ⟨m₀, m₁, begin, rfl, hbegin⟩
  refine ⟨m₀, m₁, m₂, m₃, begin, shutdown, notif, by simp, hbegin, hshutdown, hnotif, ?_⟩
  intro n hn
  refine hstays (.notification n) ?_ n rfl
  simp only [List.mem_append, List.mem_cons] at hn ⊢
  tauto

/-! ## The result -/

variable {cfg : Config} {ls : List Label} {s s' : Server} {l : Label}

/-- What is expected of a run: its state only moves forward, and once a shutdown request has been
taken every later request is refused. -/
structure MovesForward (cfg : Config) (ls : List Label) : Prop where
  forward : ∀ ls₁ l ls₂ t t', ls = ls₁ ++ l :: ls₂ → Runs cfg ls₁ t → Step cfg t l t' →
    t.state_.Forward t'.state_
  refused : ∀ ls₁ ls₂ ls₃ m m' body body' shutdown req t t' u u',
    ls = ls₁ ++ .read m body (.request shutdown) :: (ls₂ ++ .read m' body' (.request req) :: ls₃) →
    shutdown.method = str "shutdown" →
    Runs cfg ls₁ t → t.state_.Active → Step cfg t (.read m body (.request shutdown)) t' →
    Runs cfg (ls₁ ++ .read m body (.request shutdown) :: ls₂) u →
    Step cfg u (.read m' body' (.request req)) u' →
    u'.reader = .sending (.error req.id .InvalidRequest (str "Server is shutting down"))

lemma requestStep_forward (state : ServerState) (method : Bytes) :
    state.Forward (requestStep state method) := by
  unfold requestStep
  split
  · next h => rw [h.1]; exact .begin
  · split
    · next h =>
      rcases h.1 with hstate | hstate <;> rw [hstate]
      · exact .earlyShutdown
      · exact .shutdown
    · exact .stay _

/-- What dispatch does to the state at once. -/
lemma Outcome.forward {state : ServerState} {serial token : ℕ} {msg : ParsedMessage}
    {next : ServerState × ReaderPc} (hexited : state ≠ .Exited)
    (h : Outcome cfg state serial token msg next) :
    state.Forward next.1 ∨
      ∃ notif, msg = .notification notif ∧ notif.method = str "initialized" ∧
        state = .ShuttingDown := by
  cases h with
  | @notification notif _ h =>
    cases h with
    | exit => exact Or.inl (.exit _)
    | initialized _ hinit hhandler =>
      cases state with
      | Uninitialized => exact absurd rfl hinit
      | Initializing => exact Or.inl .run
      | Running => exact Or.inl (.stay _)
      | ShuttingDown => exact Or.inr ⟨notif, rfl, method_of_initialized hhandler, rfl⟩
      | Exited => exact absurd rfl hexited
    | _ => exact Or.inl (.stay _)
  | _ => exact Or.inl (.stay _)

/-- A step goes forward, unless it reads an `initialized` notification while shutting down. -/
lemma Step.forward_or (hkept : cfg.LifecycleKept) (hrun : Runs cfg ls s) (h : Step cfg s l s') :
    s.state_.Forward s'.state_ ∨
      ∃ m body notif, l = .read m body (.notification notif) ∧ notif.method = str "initialized" ∧
        s.state_ = .ShuttingDown := by
  have hsame : s'.state_ = s.state_ → s.state_.Forward s'.state_ := by
    intro heq
    rw [heq]
    exact .stay _
  cases h with
  | reader _ _ h =>
    cases h with
    | @read body msg hr hexited _ =>
      rcases (dispatch_outcome cfg s.state_ s.messagesRead s.flags.length msg).forward hexited with
        h | ⟨notif, rfl, hnotif, hstate⟩
      · exact Or.inl h
      · exact Or.inr ⟨s.messagesRead, body, notif, rfl, hnotif, hstate⟩
    | @handler call pc pc' _ capabilities hr hstep =>
      refine Or.inl ?_
      cases hstep with
      | start =>
        -- what `handleRequest` has tested still holds when the handler starts
        rcases (Runs.lifecycle hkept hrun).starting call hr with
          ⟨haccepts, hhandler, hlife, hexited, -⟩
        have hstate := s.state_lifecycleStarts call.handler
        rw [starts_eq hkept hexited haccepts hhandler hlife] at hstate
        show s.state_.Forward (s.lifecycleStarts call.handler).state_
        rw [hstate]
        exact requestStep_forward _ _
      | returns => exact hsame (s.state_lifecycleReturns capabilities call.handler)
      | cancelled | poll | throws | sendThrows => exact .stay _
    | submit | stop => exact Or.inl (hsame (Server.setPool_state_ s _ _))
    | _ => exact Or.inl (.stay _)
  | worker _ _ _ h => exact Or.inl (hsame h.control.2.2.2.1)
  | sender _ h =>
    rcases h.frame with ⟨_, _, _, rfl⟩
    exact Or.inl (.stay _)

/-- A server becomes uninitialized by no step, and gets to a lifecycle handler by reading only. -/
lemma Step.earlier (h : Step cfg s l s') (hl : ∀ m body msg, l ≠ .read m body msg) :
    (s'.state_ = .Uninitialized → s.state_ = .Uninitialized) ∧
      ∀ call pc, s'.reader = .inline call pc → ∃ pc', s.reader = .inline call pc' := by
  have hsame : s'.state_ = s.state_ → s'.reader = s.reader →
      (s'.state_ = .Uninitialized → s.state_ = .Uninitialized) ∧
        ∀ call pc, s'.reader = .inline call pc → ∃ pc', s.reader = .inline call pc' := by
    intro hstate hreader
    rw [hstate, hreader]
    exact ⟨id, fun _ pc hr => ⟨pc, hr⟩⟩
  cases h with
  | reader _ _ h =>
    cases h with
    | read body => exact absurd rfl (hl _ body _)
    | @handler call pc pc' _ capabilities hr hstep =>
      refine ⟨?_, ?_⟩
      · show (s.lifecycleEffect capabilities call.handler l).state_ = _ → _
        -- `initialize` sets the state before its hook runs, and the encoding after it
        cases hstep with
        | start =>
          show (s.lifecycleStarts call.handler).state_ = _ → _
          rw [Server.state_lifecycleStarts]
          cases call.handler <;> simp [RequestHandler.starts]
        | returns =>
          show (s.lifecycleReturns capabilities call.handler).state_ = _ → _
          rw [Server.state_lifecycleReturns]
          exact id
        | _ => exact id
      · intro call' pc'' hr'
        rw [← (ReaderPc.inline.inj hr').1]
        exact ⟨pc, hr⟩
    | parseThrows | sendThrows | handlerEscapes | notifyEscapes | exitThrows => exact hsame rfl rfl
    | submit | stop =>
      refine ⟨?_, by simp⟩
      show (Server.setPool s _ _).state_ = _ → _
      rw [Server.setPool_state_]
      exact id
    | _ => exact ⟨id, by simp⟩
  | worker _ _ _ h => exact hsame h.control.2.2.2.1 h.control.1
  | sender _ h =>
    rcases h.frame with ⟨_, _, _, rfl⟩
    exact hsame rfl rfl

/-- Once initialized a server stays so, and does not call the handler of `initialize`. -/
lemma Outcome.initialized {state : ServerState} {serial token : ℕ} {msg : ParsedMessage}
    {next : ServerState × ReaderPc} (hstate : state ≠ .Uninitialized)
    (h : Outcome cfg state serial token msg next) :
    next.1 ≠ .Uninitialized ∧
      ∀ call pc, next.2 = .inline call pc → call.handler ≠ .initializeRequest := by
  cases h with
  | request h =>
    refine ⟨hstate, ?_⟩
    intro call pc hcall
    cases h with
    | lifecycle haccepts hhandler =>
      rcases ReaderPc.inline.inj hcall with ⟨rfl, -⟩
      intro hinit
      have hinit' : _ = RequestHandler.initializeRequest := hinit
      subst hinit'
      exact hstate (haccepts.2.mpr (method_of_initializeRequest hhandler))
    | _ => exact absurd hcall (by simp)
  | notification h => cases h <;> exact ⟨by first | exact hstate | simp, by simp⟩
  | response h => cases h <;> exact ⟨hstate, by simp⟩
  | error => exact ⟨hstate, by simp⟩

lemma Step.uninitialized (h : Step cfg s l s') (hstate : s'.state_ = .Uninitialized) :
    s.state_ = .Uninitialized := by
  have hother : (∀ m body msg, l ≠ .read m body msg) → s.state_ = .Uninitialized :=
    fun hl => (h.earlier hl).1 hstate
  cases l with
  | read m body msg =>
    rcases h.read_inv with ⟨-, -, -, -, rfl⟩
    by_contra hstarted
    exact ((dispatch_outcome _ _ _ _ _).initialized hstarted).1 hstate
  | _ => exact hother (by simp)

lemma messagesOf_read (ls ls' : List Label) (m : ℕ) (body : Bytes) (msg : ParsedMessage) :
    messagesOf (ls ++ .read m body msg :: ls') = messagesOf ls ++ msg :: messagesOf ls' := by
  simp [messagesOf, Label.message?]

/-- The read at which a message of the run was read. -/
lemma exists_read {ms ms' : List ParsedMessage} {msg : ParsedMessage}
    (h : messagesOf ls = ms ++ msg :: ms') :
    ∃ ls₁ ls₂ m body, ls = ls₁ ++ .read m body msg :: ls₂ ∧ messagesOf ls₁ = ms := by
  rcases List.filterMap_eq_append_iff.mp h with ⟨ls₁, ls', rfl, h₁, h'⟩
  rcases List.filterMap_eq_cons_iff.mp h' with ⟨ls₂, l, ls₃, rfl, hnone, hl, -⟩
  refine ⟨ls₁ ++ ls₂, ls₃, ?_⟩
  cases l with
  | read m body msg' =>
    have hmsg : msg' = msg := Option.some.inj hl
    subst hmsg
    refine ⟨m, body, by simp, ?_⟩
    have hfirst : messagesOf ls₁ = ms := h₁
    have hquiet : messagesOf ls₂ = [] := List.filterMap_eq_nil_iff.mpr hnone
    rw [messagesOf_append, hfirst, hquiet, List.append_nil]
  | _ => exact absurd hl (by simp [Label.message?])

lemma GoesBack.append {ms : List ParsedMessage} (h : GoesBack ms) (ms' : List ParsedMessage) :
    GoesBack (ms ++ ms') := by
  rcases h with ⟨m₀, m₁, notif, rfl, hdown, hnotif⟩
  exact ⟨m₀, m₁ ++ ms', notif, by simp, hdown, hnotif⟩

/-- Unless it goes back, the lifecycle stays at the shutdown until the exit. -/
lemma lifecycleAfter_shuttingDown {msgs ms : List ParsedMessage}
    (hdown : lifecycleAfter msgs = .ShuttingDown) (hback : ¬ GoesBack (msgs ++ ms))
    (hstays : ∀ msg ∈ ms, msg.Stays) : lifecycleAfter (msgs ++ ms) = .ShuttingDown := by
  induction ms using List.reverseRecOn with
  | nil => rwa [List.append_nil]
  | append_singleton ms msg ih =>
    rw [← List.append_assoc] at hback ⊢
    have hbefore : lifecycleAfter (msgs ++ ms) = .ShuttingDown :=
      ih (fun h => hback (h.append [msg])) fun m hm => hstays m (by simp [hm])
    rw [lifecycleAfter_concat]
    rcases lifecycleStep_cases (lifecycleAfter (msgs ++ ms)) msg with heq | ⟨_, _, hstate, _, _⟩ |
      ⟨_, _, _, _, heq⟩ | ⟨n, hmsg, hexit, _⟩ | ⟨n, rfl, hinit, _, _⟩
    · rw [heq, hbefore]
    · exact absurd (hbefore.symm.trans hstate) (by simp)
    · exact heq
    · exact absurd hexit (hstays msg (by simp) n hmsg)
    · exact absurd ⟨msgs ++ ms, [], n, rfl, hbefore, hinit⟩ hback

/-- An `initialized` notification while shutting down is taken. -/
lemma dispatch_late (hkept : cfg.LifecycleKept) {notif : ParsedNotification}
    (hnotif : notif.method = str "initialized") (serial token : ℕ) :
    dispatch cfg .ShuttingDown serial token (.notification notif) =
      (.Running, .notifying (notif.call serial .initialized)) := by
  show handleNotification cfg .ShuttingDown serial notif = _
  rw [handleNotification, hnotif, if_neg (by decide), if_neg (by simp), hkept.initialized]
  rfl

/-- In a run that does not go back the server is still shutting down where it reads a request after
an accepted shutdown. -/
lemma Runs.state_after_shutdown (hkept : cfg.LifecycleKept) {ls₁ ls₂ ls₃ : List Label}
    {m m' : ℕ} {body body' : Bytes} {shutdown req : ParsedRequest} {t t' u u' : Server}
    (hback : ¬ GoesBack (messagesOf
      (ls₁ ++ .read m body (.request shutdown) :: (ls₂ ++ .read m' body' (.request req) :: ls₃))))
    (hshutdown : shutdown.method = str "shutdown") (ht : Runs cfg ls₁ t) (hactive : t.state_.Active)
    (hstep : Step cfg t (.read m body (.request shutdown)) t')
    (hu : Runs cfg (ls₁ ++ .read m body (.request shutdown) :: ls₂) u)
    (hread : Step cfg u (.read m' body' (.request req)) u') : u.state_ = .ShuttingDown := by
  rcases Runs.state_of_read hkept ht hstep with ⟨-, -, hstate, -⟩
  rcases Runs.state_of_read hkept hu hread with ⟨-, hexited, hstate', -⟩
  have happ : messagesOf ls₁ ++ .request shutdown :: messagesOf ls₂
      = messagesOf ls₁ ++ [.request shutdown] ++ messagesOf ls₂ := by simp
  rw [messagesOf_read, happ] at hstate'
  have hdown : lifecycleAfter (messagesOf ls₁ ++ [.request shutdown]) = .ShuttingDown := by
    rw [lifecycleAfter_concat, ← hstate]
    show requestStep _ _ = _
    rw [requestStep, if_neg, if_pos ⟨hactive, hshutdown⟩]
    intro hinit
    rw [hinit.1] at hactive
    exact absurd hactive (by decide)
  -- nothing read since then was an exit, or `req` would not be read
  have hstays := stays_of_ne_exited (hstate' ▸ hexited)
  rw [hstate']
  apply lifecycleAfter_shuttingDown hdown _ fun m hm => hstays m (by simp [hm])
  intro h
  apply hback
  have happ' : messagesOf (ls₁ ++ .read m body (.request shutdown) ::
        (ls₂ ++ .read m' body' (.request req) :: ls₃))
      = messagesOf ls₁ ++ [.request shutdown] ++ messagesOf ls₂ ++
        (.request req :: messagesOf ls₃) := by
    rw [messagesOf_read, messagesOf_read]
    simp
  rw [happ']
  exact h.append _

lemma movesForward_of_not_late (hkept : cfg.LifecycleKept)
    (hlate : ¬ LateInitialized (messagesOf ls)) : MovesForward cfg ls := by
  have hback : ¬ GoesBack (messagesOf ls) := fun h => hlate (lateInitialized_of_goesBack h)
  refine ⟨?_, ?_⟩
  · intro ls₁ l ls₂ t t' hls hrun hstep
    subst hls
    rcases hstep.forward_or hkept hrun with h | ⟨m, body, notif, rfl, hnotif, hstate⟩
    · exact h
    · refine absurd ⟨messagesOf ls₁, messagesOf ls₂, notif, ?_, ?_, hnotif⟩ hback
      · exact messagesOf_read _ _ _ _ _
      · rw [← (Runs.state_of_read hkept hrun hstep).2.2.1, hstate]
  · intro ls₁ ls₂ ls₃ m m' body body' shutdown req t t' u u' hls hshutdown ht hactive hstep hu hread
    subst hls
    have hstill := Runs.state_after_shutdown hkept hback hshutdown ht hactive hstep hu hread
    rcases hread.read_inv with ⟨-, -, -, -, rfl⟩
    show (dispatch cfg u.state_ u.messagesRead u.flags.length (.request req)).2 = _
    rw [hstill]
    exact handleRequest_shuttingDown cfg u.messagesRead u.flags.length req

/-- A run moves forward exactly when its messages hold no late `initialized` notification. -/
theorem movesForward_iff (cfg : Config) (hkept : cfg.LifecycleKept) (ls : List Label) (s : Server)
    (h : Runs cfg ls s) : MovesForward cfg ls ↔ ¬ LateInitialized (messagesOf ls) := by
  constructor
  · intro hforward hlate
    rcases goesBack_of_lateInitialized hlate with ⟨ms, ms', notif, hmsgs, hdown, hnotif⟩
    rcases exists_read hmsgs with ⟨ls₁, ls₂, m, body, rfl, rfl⟩
    rcases h.split_at with ⟨t, t', hrun, hstep, -⟩
    have hgo := hforward.forward ls₁ _ ls₂ t t' rfl hrun hstep
    rcases Runs.state_of_read hkept hrun hstep with ⟨-, hexited, hstate, rfl⟩
    have hdown' : t.state_ = .ShuttingDown := hstate.trans hdown
    have hrunning : (t.read (dispatch cfg t.state_ t.messagesRead t.flags.length
        (.notification notif))).state_ = .Running := by
      rw [hdown', dispatch_late hkept hnotif]
      rfl
    rw [hrunning, hdown'] at hgo
    cases hgo
  · exact movesForward_of_not_late hkept

lemma session_kept : Session.config.LifecycleKept :=
  ⟨by decide, by decide, by decide⟩

/-- A session that is told so, shuts down, refuses a request, and exits. -/
theorem movesForward_session :
    Reaches (Step Session.config) (Server.start Session.config) fun ls s =>
      s.state_ = .Exited ∧
        .sent (.error (.int 1) .InvalidRequest (str "Server is shutting down")) ∈ ls ∧
        MovesForward Session.config ls := by
  have hrun : Reaches (Step Session.config) (Server.start Session.config) fun ls s =>
      s.state_ = .Exited ∧
        .sent (.error (.int 1) .InvalidRequest (str "Server is shutting down")) ∈ ls ∧
        ∃ begin told shutdown hover exit,
          messagesOf ls = [.request begin, .notification told, .request shutdown, .request hover,
            .notification exit] ∧
          lifecycleAfter [.request begin] = .Initializing ∧ exit.method = str "exit" := by
    apply Reaches.run Session.runs_handshake
    apply Reaches.step (.reader rfl rfl (.read Session.initialized.json.print rfl (by decide) rfl))
    apply Reaches.step (l := .notificationEnded _ none) (.reader rfl rfl (.notified rfl nofun))
    apply Reaches.step (.reader rfl rfl (.read Session.shutdown.json.print rfl (by decide) rfl))
    apply Reaches.step (.reader rfl rfl (.handler ⟨none, none⟩ rfl (.start rfl)))
    apply Reaches.step (.reader rfl rfl (.handler ⟨none, none⟩ rfl (.returns .null)))
    apply Reaches.step (.reader rfl rfl (.handlerFinishes rfl (.send rfl)))
    apply Reaches.step (.reader rfl rfl (.read Session.hover.json.print rfl (by decide) rfl))
    apply Reaches.step (.reader rfl rfl (.send rfl rfl))
    apply Reaches.step (.reader rfl rfl (.read Session.exit.json.print rfl (by decide) rfl))
    apply Reaches.step (.reader rfl rfl (.exited rfl))
    refine Reaches.here ⟨rfl, ?_, _, _, _, _, _, rfl, rfl, rfl⟩
    exact List.mem_of_getElem? (i := 11) rfl
  rcases hrun with ⟨ls, s, hrun, hstate, hsent, begin, told, shutdown, hover, exit, hmsgs, hbegun,
    hexit⟩
  refine ⟨ls, s, hrun, hstate, hsent, ?_⟩
  apply (movesForward_iff Session.config session_kept ls s hrun).mpr
  intro hlate
  rcases goesBack_of_lateInitialized hlate with ⟨m₀, m₁, notif, hmsgs', hdown, hnotif⟩
  rw [hmsgs] at hmsgs'
  -- the notification is one of two
  rcases m₀ with _ | ⟨a, _ | ⟨b, _ | ⟨c, _ | ⟨d, _ | ⟨e, m₀⟩⟩⟩⟩⟩ <;> simp at hmsgs'
  · rw [← hmsgs'.1, hbegun] at hdown
    exact absurd hdown (by decide)
  · rw [← hmsgs'.2.2.2.2.1, hexit] at hnotif
    exact absurd hnotif (by decide)

/-- A session in which `initialized` comes after the shutdown request: the server runs again. -/
theorem session_goes_back :
    Reaches (Step Session.config) (Server.start Session.config) fun ls s =>
      s.state_ = .Running ∧ ¬ MovesForward Session.config ls := by
  have hdown : Reaches (Step Session.config) (Server.start Session.config) fun _ s =>
      s.state_ = .ShuttingDown ∧ s.terminated = false ∧ s.threw = false ∧ s.reader = .loop := by
    apply Reaches.run Session.runs_handshake
    apply Reaches.step (.reader rfl rfl (.read Session.shutdown.json.print rfl (by decide) rfl))
    apply Reaches.step (.reader rfl rfl (.handler ⟨none, none⟩ rfl (.start rfl)))
    apply Reaches.step (.reader rfl rfl (.handler ⟨none, none⟩ rfl (.returns .null)))
    apply Reaches.step (.reader rfl rfl (.handlerFinishes rfl (.send rfl)))
    exact Reaches.here ⟨rfl, rfl, rfl, rfl⟩
  rcases hdown with ⟨ls, s, hrun, hstate, hterminated, hthrew, hreader⟩
  have hstep : Step Session.config s _ _ := .reader hterminated hthrew
    (.read Session.initialized.json.print hreader (by rw [hstate]; simp) rfl)
  have hrunning : (s.read (dispatch Session.config s.state_ s.messagesRead s.flags.length
      (classify Session.initialized.json))).state_ = .Running := by
    rw [hstate]
    rfl
  refine ⟨_, _, hrun.snoc hstep, hrunning, ?_⟩
  intro hforward
  have hgo := hforward.forward ls _ [] _ _ rfl hrun hstep
  rw [hrunning, hstate] at hgo
  cases hgo

end CLSP
