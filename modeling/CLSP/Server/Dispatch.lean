import CLSP.Server.Handlers

/-!
# Dispatch

What the read thread does with a message: `handleRequest`, `handleNotification` and
`handleResponse` of `src/ILanguageServer.cpp` up to their first side effect. The critical sections
and calls they lead to are steps of their own, at a `ReaderPc`.
-/

namespace CLSP

inductive ServerState
  | Uninitialized
  | Initializing
  | Running
  | ShuttingDown
  | Exited
deriving DecidableEq, Repr

/-- The two thread pools. -/
inductive Executor
  | worker
  | sync
deriving DecidableEq, Repr

/-- Where the read thread is in `run`. -/
inductive ReaderPc
  /-- At the test of the loop. -/
  | loop
  /-- In `sendFrame` of a rejection. -/
  | sending (frame : Frame)
  /-- In `runRequestHandler` of a lifecycle request. -/
  | inline (call : RequestCall) (pc : HandlerPc)
  /-- Before the token of a request is put into `cancellationTokens_`. -/
  | registering (call : RequestCall)
  /-- Before `submit`. -/
  | submitting (executor : Executor) (task : Task)
  /-- Before the critical section of `handleResponse`. -/
  | responding (resp : ParsedResponse) (id : Int32)
  /-- Before the critical section of the handler of `$/cancelRequest`. -/
  | cancelling (id : RequestId)
  /-- In user code called by an inline notification. -/
  | notifying (call : NotificationCall)
  /-- In `onExit`. -/
  | exiting
  /-- After the loop, before `shutdown` of a pool. -/
  | stopping (executor : Executor)
  /-- In `shutdown`, joining the threads. -/
  | joining (executor : Executor)
  | returned

/-! ## The functions -/

/-- The call of a handler for a request. -/
def ParsedRequest.call (req : ParsedRequest) (serial : ℕ) (handler : RequestHandler)
    (token : ℕ) : RequestCall :=
  { serial, id := req.id, method := req.method, params := req.params, handler, token }

/-- The call of a handler for a notification. -/
def ParsedNotification.call (notif : ParsedNotification) (serial : ℕ)
    (handler : NotificationHandler) : NotificationCall :=
  { serial, method := notif.method, params := notif.params, handler }

/-- `handleRequest` up to its first side effect: a rejection to send, or the call of the handler.
The call's token is number `token`. -/
def handleRequest (cfg : Config) (state_ : ServerState) (serial token : ℕ) (req : ParsedRequest) :
    ReaderPc :=
  if state_ = .Uninitialized ∧ req.method ≠ str "initialize" then
    .sending (.error req.id .ServerNotInitialized (str "Server not initialized"))
  else if state_ = .ShuttingDown then
    .sending (.error req.id .InvalidRequest (str "Server is shutting down"))
  else if state_ ≠ .Uninitialized ∧ req.method = str "initialize" then
    .sending (.error req.id .InvalidRequest (str "Server already initialized"))
  else
    match cfg.requestHandler req.method with
    | none =>
      .sending (.error req.id .MethodNotFound (str "Method not found: " ++ req.method))
    | some handler =>
      if isLifecycleRequest req.method then .inline (req.call serial handler token) .checking
      else .registering (req.call serial handler token)

/-- An inline notification runs on the read thread. -/
def runInline (state_ : ServerState) (call : NotificationCall) : ServerState × ReaderPc :=
  match call.handler with
  | .initialized => (.Running, .notifying call)
  | .cancelRequest =>
    match cancelTarget call.params with
    | none => (state_, .loop)
    | some id => (state_, .cancelling id)
  | _ => (state_, .notifying call)

/-- `handleNotification`: the state after it and where the read thread goes. `exit` is handled
before the table is searched. -/
def handleNotification (cfg : Config) (state_ : ServerState) (serial : ℕ)
    (notif : ParsedNotification) : ServerState × ReaderPc :=
  if notif.method = str "exit" then (.Exited, .exiting)
  else if state_ = .Uninitialized then (state_, .loop)
  else
    match cfg.notificationHandler notif.method with
    | none => (state_, .loop)
    | some handler =>
      if isInlineNotification notif.method then runInline state_ (notif.call serial handler)
      else if isSyncNotification notif.method then
        (state_, .submitting .sync (.notification (notif.call serial handler)))
      else (state_, .submitting .worker (.notification (notif.call serial handler)))

/-- `handleResponse` ignores string ids. -/
def handleResponse (resp : ParsedResponse) : ReaderPc :=
  match resp.id with
  | .int id => .responding resp id
  | .str _ => .loop

/-- The visitor of `run`. -/
def dispatch (cfg : Config) (state_ : ServerState) (serial token : ℕ) :
    ParsedMessage → ServerState × ReaderPc
  | .request req => (state_, handleRequest cfg state_ serial token req)
  | .notification notif => handleNotification cfg state_ serial notif
  | .response resp => (state_, handleResponse resp)
  | .error err => (state_, .sending (.errorNull err.code err.message))

/-- A call gets a token with a flag of its own. -/
def ReaderPc.newFlags : ReaderPc → List Bool
  | .inline _ _ => [false]
  | .registering _ => [false]
  | _ => []

/-! ## What they decide -/

/-- The states in which a request gets to its handler: `initialize` at the very start, the others
from then on until the shutdown. -/
def Accepts (state_ : ServerState) (method : Bytes) : Prop :=
  state_ ≠ .ShuttingDown ∧ (state_ = .Uninitialized ↔ method = str "initialize")

/-- What `handleRequest` makes of a request. -/
inductive RequestOutcome (cfg : Config) (state_ : ServerState) (serial token : ℕ)
    (req : ParsedRequest) : ReaderPc → Prop
  | rejected (code : ErrorCodes) (message : Bytes) :
      (Accepts state_ req.method → cfg.requestHandler req.method = none) →
      RequestOutcome cfg state_ serial token req (.sending (.error req.id code message))
  | lifecycle {handler : RequestHandler} : Accepts state_ req.method →
      cfg.requestHandler req.method = some handler → isLifecycleRequest req.method = true →
      RequestOutcome cfg state_ serial token req (.inline (req.call serial handler token) .checking)
  | pooled {handler : RequestHandler} : Accepts state_ req.method →
      cfg.requestHandler req.method = some handler → isLifecycleRequest req.method = false →
      RequestOutcome cfg state_ serial token req (.registering (req.call serial handler token))

theorem handleRequest_outcome (cfg : Config) (state_ : ServerState) (serial token : ℕ)
    (req : ParsedRequest) :
    RequestOutcome cfg state_ serial token req
      (handleRequest cfg state_ serial token req) := by
  unfold handleRequest
  split
  · next h => exact .rejected _ _ fun haccepts => absurd (haccepts.2.mp h.1) h.2
  next hinit =>
  split
  · next h => exact .rejected _ _ fun haccepts => absurd h haccepts.1
  next hdown =>
  split
  · next h => exact .rejected _ _ fun haccepts => absurd (haccepts.2.mpr h.2) h.1
  next hagain =>
  have haccepts : Accepts state_ req.method := by
    refine ⟨hdown, ?_, ?_⟩
    · intro hs
      by_contra hm
      exact hinit ⟨hs, hm⟩
    · intro hm
      by_contra hs
      exact hagain ⟨hs, hm⟩
  split
  · next hnone => exact .rejected _ _ fun _ => hnone
  next handler hhandler =>
  split
  · next hlife => exact .lifecycle haccepts hhandler hlife
  · next hlife => exact .pooled haccepts hhandler (by simpa using hlife)

/-- While shutting down every request is refused. -/
lemma handleRequest_shuttingDown (cfg : Config) (serial token : ℕ) (req : ParsedRequest) :
    handleRequest cfg .ShuttingDown serial token req =
      .sending (.error req.id .InvalidRequest (str "Server is shutting down")) := by
  rw [handleRequest, if_neg (by simp), if_pos rfl]

/-- What `handleNotification` makes of a notification. -/
inductive NotificationOutcome (cfg : Config) (state_ : ServerState) (serial : ℕ)
    (notif : ParsedNotification) : ServerState × ReaderPc → Prop
  | exit : notif.method = str "exit" →
      NotificationOutcome cfg state_ serial notif (.Exited, .exiting)
  | dropped : notif.method ≠ str "exit" →
      (state_ ≠ .Uninitialized → cfg.notificationHandler notif.method ≠ some .initialized) →
      NotificationOutcome cfg state_ serial notif (state_, .loop)
  | initialized : notif.method ≠ str "exit" → state_ ≠ .Uninitialized →
      cfg.notificationHandler notif.method = some .initialized →
      isInlineNotification notif.method = true →
      NotificationOutcome cfg state_ serial notif
        (.Running, .notifying (notif.call serial .initialized))
  | cancel {id : RequestId} : notif.method ≠ str "exit" →
      cfg.notificationHandler notif.method = some .cancelRequest →
      cancelTarget notif.params = some id →
      NotificationOutcome cfg state_ serial notif (state_, .cancelling id)
  | inline {handler : NotificationHandler} : notif.method ≠ str "exit" →
      cfg.notificationHandler notif.method = some handler → handler ≠ .initialized →
      isInlineNotification notif.method = true →
      NotificationOutcome cfg state_ serial notif
        (state_, .notifying (notif.call serial handler))
  | sync {handler : NotificationHandler} : state_ ≠ .Uninitialized →
      cfg.notificationHandler notif.method = some handler →
      isInlineNotification notif.method = false → isSyncNotification notif.method = true →
      NotificationOutcome cfg state_ serial notif
        (state_, .submitting .sync (.notification (notif.call serial handler)))
  | pooled {handler : NotificationHandler} : state_ ≠ .Uninitialized →
      cfg.notificationHandler notif.method = some handler →
      isInlineNotification notif.method = false → isSyncNotification notif.method = false →
      NotificationOutcome cfg state_ serial notif
        (state_, .submitting .worker (.notification (notif.call serial handler)))

theorem handleNotification_outcome (cfg : Config) (state_ : ServerState) (serial : ℕ)
    (notif : ParsedNotification) :
    NotificationOutcome cfg state_ serial notif
      (handleNotification cfg state_ serial notif) := by
  unfold handleNotification
  split
  · next hexit => exact .exit hexit
  next hexit =>
  split
  · next hinit => exact .dropped hexit fun h => absurd hinit h
  next hinit =>
  split
  · next hnone => exact .dropped hexit fun _ => by simp [hnone]
  next handler hhandler =>
  split
  · next hinline =>
    unfold runInline
    split
    · next heq =>
      have hinitialized : handler = .initialized := heq
      subst hinitialized
      exact .initialized hexit hinit hhandler hinline
    · next heq =>
      have hcancel : handler = .cancelRequest := heq
      subst hcancel
      split
      · exact .dropped hexit fun _ => by simp [hhandler]
      · next hid => exact .cancel hexit hhandler hid
    · next hne _ => exact .inline hexit hhandler hne hinline
  · next hinline =>
    have hinline' : isInlineNotification notif.method = false := by simpa using hinline
    split
    · next hsync => exact .sync hinit hhandler hinline' hsync
    · next hsync => exact .pooled hinit hhandler hinline' (by simpa using hsync)

/-- What `handleResponse` makes of a response. -/
inductive ResponseOutcome (resp : ParsedResponse) : ReaderPc → Prop
  | ignored : ResponseOutcome resp .loop
  | lookup {id : Int32} : resp.id = .int id → ResponseOutcome resp (.responding resp id)

lemma handleResponse_outcome (resp : ParsedResponse) :
    ResponseOutcome resp (handleResponse resp) := by
  unfold handleResponse
  split
  · next hid => exact .lookup hid
  · exact .ignored

/-- What `dispatch` makes of a message. -/
inductive Outcome (cfg : Config) (state_ : ServerState) (serial token : ℕ) :
    ParsedMessage → ServerState × ReaderPc → Prop
  | request {req : ParsedRequest} {pc : ReaderPc} :
      RequestOutcome cfg state_ serial token req pc →
      Outcome cfg state_ serial token (.request req) (state_, pc)
  | notification {notif : ParsedNotification} {next : ServerState × ReaderPc} :
      NotificationOutcome cfg state_ serial notif next →
      Outcome cfg state_ serial token (.notification notif) next
  | response {resp : ParsedResponse} {pc : ReaderPc} : ResponseOutcome resp pc →
      Outcome cfg state_ serial token (.response resp) (state_, pc)
  | error (err : ParsedError) :
      Outcome cfg state_ serial token (.error err)
        (state_, .sending (.errorNull err.code err.message))

theorem dispatch_outcome (cfg : Config) (state_ : ServerState) (serial token : ℕ)
    (msg : ParsedMessage) :
    Outcome cfg state_ serial token msg (dispatch cfg state_ serial token msg) := by
  rcases msg with req | notif | err | resp
  · exact .request (handleRequest_outcome cfg state_ serial token req)
  · exact .notification (handleNotification_outcome cfg state_ serial notif)
  · exact .error err
  · exact .response (handleResponse_outcome resp)

/-- Where a response is looked up, it is the message, and under its own id. -/
lemma Outcome.responding {cfg : Config} {state_ : ServerState} {serial token : ℕ}
    {msg : ParsedMessage} {next : ServerState × ReaderPc}
    (h : Outcome cfg state_ serial token msg next)
    {resp : ParsedResponse} {id : Int32} (hnext : next.2 = .responding resp id) :
    msg = .response resp ∧ resp.id = .int id := by
  cases h with
  | request h => cases h <;> exact absurd hnext (by simp)
  | notification h => cases h <;> exact absurd hnext (by simp)
  | response h =>
    cases h with
    | ignored => exact absurd hnext (by simp)
    | lookup hid =>
      rcases ReaderPc.responding.inj hnext with ⟨rfl, rfl⟩
      exact ⟨rfl, hid⟩
  | error => exact absurd hnext (by simp)

end CLSP
