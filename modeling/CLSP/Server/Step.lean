import CLSP.Lib.Transition
import CLSP.Rpc.Table
import CLSP.Server.Server

/-!
# The steps of the threads

A step is one critical section, one call into user code or back, or one `sendFrame`, of one thread:
the read thread, a worker of one of the pools, or any thread that is in `sendRequest` or
`sendNotification`. Runs interleave the threads arbitrarily.
-/

namespace CLSP

/-- What a step shows of itself. -/
inductive Label
  /-- Nothing of interest. -/
  | tau
  /-- `run` has read and parsed a body. -/
  | read (serial : ℕ) (body : Bytes) (msg : ParsedMessage)
  /-- An exception of `parseMessage` has left `run`. -/
  | parseThrew (body : Bytes) (e : ParseException)
  /-- `readMessage` has returned `nullopt`. -/
  | endOfInput
  /-- A frame has been sent. -/
  | sent (frame : Frame)
  /-- A request handler is called, polls its token, and returns or throws. -/
  | handlerStarted (call : RequestCall)
  | polled (call : RequestCall) (cancelled : Bool)
  | handlerEnded (call : RequestCall) (outcome : Except Exn Json)
  /-- The token of a request is put into `cancellationTokens_`, found by a cancel, and erased. -/
  | tokenInserted (call : RequestCall)
  | cancelled (id : RequestId)
  | tokenErased (call : RequestCall)
  /-- A task is put on a pool and taken from it. -/
  | submitted (executor : Executor) (task : Task)
  | taken (executor : Executor) (task : Task)
  /-- A notification handler is called, calls a hook, and returns or throws. -/
  | notificationStarted (call : NotificationCall)
  | hook (call : NotificationCall) (hook : Hook)
  | notificationEnded (call : NotificationCall) (outcome : Option Exn)
  /-- `onExit` has returned or thrown. -/
  | exitEnded (outcome : Option Exn)
  /-- `sendRequest` is called and draws its id, and registers its callback. -/
  | issued (call : ℕ) (id : Int32) (method : Bytes) (params : Json) (cb : ResponseCallback)
  | registered (call : ℕ) (id : Int32)
  /-- `handleResponse` has looked up the id of a response. -/
  | responseTaken (resp : ParsedResponse) (id : Int32) (found : Option ResponseCallback)
  /-- A response callback is called and returns, or an exception leaves its task: its own, or the
  one of decoding the payload. -/
  | callbackInvoked (call : ℕ) (payload : Json) (isError : Bool)
  | callbackReturned (call : ℕ)
  | callbackThrew (call : ℕ) (e : Exn)
  | decodeThrew (call : ℕ) (e : Exn)
  /-- `run` has returned. -/
  | returned (code : ℕ)

/-! ## Handlers -/

/-- How a step of a handler leaves its thread. -/
inductive Progress (π : Type)
  | next (pc : π)
  | finished
  /-- An exception leaves the handler. -/
  | escaped

/-- A step of `runRequestHandler`, on the flag of the request's token. -/
inductive HandlerStep (nl : Nlohmann) (call : RequestCall) (flag : Bool) :
    HandlerPc → Label → Progress HandlerPc → Prop
  | cancelled : flag = true →
      HandlerStep nl call flag .checking .tau (.next (.responding .cancelled false))
  | start : flag = false →
      HandlerStep nl call flag .checking (.handlerStarted call) (.next .running)
  | poll : HandlerStep nl call flag .running (.polled call flag) (.next .running)
  | returns (value : Json) :
      HandlerStep nl call flag .running (.handlerEnded call (.ok value))
        (.next (.responding (.result value) false))
  | throws {e : Exn} {reply : Reply} : e.reply = some reply →
      HandlerStep nl call flag .running (.handlerEnded call (.error e))
        (.next (.responding reply true))
  | escapes {e : Exn} : e.reply = none →
      HandlerStep nl call flag .running (.handlerEnded call (.error e)) .escaped
  | send {reply : Reply} {caught : Bool} {text : Bytes} :
      (reply.frame call.id).serialize nl = .ok text →
      HandlerStep nl call flag (.responding reply caught) (.sent (reply.frame call.id)) .finished
  /-- The exception of `dump` inside the `try` is answered like one of the handler. -/
  | sendThrows {reply : Reply} {what : Bytes} :
      (reply.frame call.id).serialize nl = .error what →
      HandlerStep nl call flag (.responding reply false) .tau
        (.next (.responding (.error .InternalError what) true))
  | sendEscapes {reply : Reply} {what : Bytes} :
      (reply.frame call.id).serialize nl = .error what →
      HandlerStep nl call flag (.responding reply true) .tau .escaped

/-- A step of a notification task on the documents. Its handler is called inside a `try` that
swallows every `std::exception`. -/
inductive NotificationStep (call : NotificationCall) (documents : DocumentStore) :
    NotificationPc → Label → DocumentStore → Progress NotificationPc → Prop
  | start :
      NotificationStep call documents .starting (.notificationStarted call) documents
        (.next (if call.handler = .user then .user else .running))
  | decodeThrows {error : JsonError} {e : Exn} :
      call.handler.hook call.params documents = .error error → e.isStd = true →
      NotificationStep call documents .running (.notificationEnded call (some e)) documents
        .finished
  | noHook : call.handler.hook call.params documents = .ok none →
      NotificationStep call documents .running (.notificationEnded call none) documents .finished
  | hook {hook : Hook} : call.handler.hook call.params documents = .ok (some hook) →
      NotificationStep call documents .running (.hook call hook) (hook.run documents) (.next .user)
  | returns :
      NotificationStep call documents .user (.notificationEnded call none) documents .finished
  | throws {e : Exn} : e.isStd = true →
      NotificationStep call documents .user (.notificationEnded call (some e)) documents .finished
  | escapes {e : Exn} : e.isStd = false →
      NotificationStep call documents .user (.notificationEnded call (some e)) documents .escaped

/-- A step of the task that runs a response callback. -/
inductive CallbackStep (payload : Json) (isError : Bool) :
    ResponseCallback → Label → Progress Unit → Prop
  | returns {call : ℕ} :
      CallbackStep payload isError (.raw call) (.callbackReturned call) .finished
  | throws {call : ℕ} (e : Exn) :
      CallbackStep payload isError (.raw call) (.callbackThrew call e) .escaped
  | error {call : ℕ} {get : Json → Except Exn Unit} : isError = true →
      CallbackStep payload isError (.typed call get) (.callbackReturned call) .finished
  | decodes {call : ℕ} {get : Json → Except Exn Unit} : isError = false →
      get payload = .ok () →
      CallbackStep payload isError (.typed call get) (.callbackReturned call) .finished
  | typedThrows {call : ℕ} {get : Json → Except Exn Unit} (e : Exn) : isError = false →
      get payload = .ok () →
      CallbackStep payload isError (.typed call get) (.callbackThrew call e) .escaped
  | decodeThrows {call : ℕ} {get : Json → Except Exn Unit} {e : Exn} : isError = false →
      get payload = .error e →
      CallbackStep payload isError (.typed call get) (.decodeThrew call e) .escaped

/-! ## The threads -/

namespace Server

/-- The flag a call's token shares. -/
def flag (s : Server) (call : RequestCall) : Bool :=
  s.flags.getD call.token false

/-- What a lifecycle handler does to the server when it starts and when it returns. -/
def lifecycleEffect (s : Server) (capabilities : Capabilities) (handler : RequestHandler) :
    Label → Server
  | .handlerStarted _ => s.lifecycleStarts handler
  | .handlerEnded _ (.ok _) => s.lifecycleReturns capabilities handler
  | _ => s

/-- The critical section of the handler of `$/cancelRequest`. -/
def cancel (s : Server) (id : RequestId) : Server :=
  { s with
    flags :=
      match s.cancellationTokens_.lookup id with
      | some token => s.flags.set token true
      | none => s.flags }

end Server

/-- A step of the read thread. -/
inductive ReaderStep (cfg : Config) (s : Server) : Label → Server → Prop
  | read (body : Bytes) {msg : ParsedMessage} : s.reader = .loop → s.state_ ≠ .Exited →
      parseMessage cfg.nl body = .ok msg →
      ReaderStep cfg s (.read s.messagesRead body msg)
        (s.read (dispatch cfg s.state_ s.messagesRead s.flags.length msg))
  | parseThrows (body : Bytes) {e : ParseException} : s.reader = .loop → s.state_ ≠ .Exited →
      parseMessage cfg.nl body = .error e →
      ReaderStep cfg s (.parseThrew body e) { s with threw := true }
  | endOfInput : s.reader = .loop → s.state_ ≠ .Exited →
      ReaderStep cfg s .endOfInput { s with reader := .stopping .sync }
  | leave : s.reader = .loop → s.state_ = .Exited →
      ReaderStep cfg s .tau { s with reader := .stopping .sync }
  | send {frame : Frame} {text : Bytes} : s.reader = .sending frame →
      frame.serialize cfg.nl = .ok text →
      ReaderStep cfg s (.sent frame) { s with reader := .loop }
  | sendThrows {frame : Frame} {what : Bytes} : s.reader = .sending frame →
      frame.serialize cfg.nl = .error what →
      ReaderStep cfg s .tau { s with threw := true }
  | handler {call : RequestCall} {pc pc' : HandlerPc} {l : Label}
      (capabilities : Server.Capabilities) : s.reader = .inline call pc →
      HandlerStep cfg.nl call (s.flag call) pc l (.next pc') →
      ReaderStep cfg s l
        { s.lifecycleEffect capabilities call.handler l with reader := .inline call pc' }
  | handlerFinishes {call : RequestCall} {pc : HandlerPc} {l : Label} :
      s.reader = .inline call pc → HandlerStep cfg.nl call (s.flag call) pc l .finished →
      ReaderStep cfg s l { s with reader := .loop }
  | handlerEscapes {call : RequestCall} {pc : HandlerPc} {l : Label} :
      s.reader = .inline call pc → HandlerStep cfg.nl call (s.flag call) pc l .escaped →
      ReaderStep cfg s l { s with threw := true }
  | insertToken {call : RequestCall} : s.reader = .registering call →
      ReaderStep cfg s (.tokenInserted call)
        { s with
          cancellationTokens_ := s.cancellationTokens_.insert call.id call.token,
          reader := .submitting .worker (.request call) }
  | submit {e : Executor} {task : Task} : s.reader = .submitting e task →
      ReaderStep cfg s (.submitted e task)
        { s.setPool e ((s.pool e).submit task) with reader := .loop }
  | cancel {id : RequestId} : s.reader = .cancelling id →
      ReaderStep cfg s (.cancelled id) { s.cancel id with reader := .loop }
  | notified {call : NotificationCall} {outcome : Option Exn} : s.reader = .notifying call →
      (∀ e ∈ outcome, e.isStd = true) →
      ReaderStep cfg s (.notificationEnded call outcome) { s with reader := .loop }
  | notifyEscapes {call : NotificationCall} {e : Exn} : s.reader = .notifying call →
      e.isStd = false →
      ReaderStep cfg s (.notificationEnded call (some e)) { s with threw := true }
  | exited : s.reader = .exiting →
      ReaderStep cfg s (.exitEnded none) { s with reader := .loop }
  | exitThrows (e : Exn) : s.reader = .exiting →
      ReaderStep cfg s (.exitEnded (some e)) { s with threw := true }
  | unmatched {resp : ParsedResponse} {id : Int32} : s.reader = .responding resp id →
      s.pendingRequests_.lookup id = none →
      ReaderStep cfg s (.responseTaken resp id none) { s with reader := .loop }
  | matched {resp : ParsedResponse} {id : Int32} {cb : ResponseCallback} :
      s.reader = .responding resp id → s.pendingRequests_.lookup id = some cb →
      ReaderStep cfg s (.responseTaken resp id (some cb))
        { s with
          pendingRequests_ := s.pendingRequests_.erase id,
          reader := .submitting .worker (.callback cb resp.payload resp.isError) }
  | stop {e : Executor} : s.reader = .stopping e →
      ReaderStep cfg s .tau { s.setPool e (s.pool e).stop with reader := .joining e }
  | joinSync : s.reader = .joining .sync → s.syncExecutor_.Joined →
      ReaderStep cfg s .tau { s with reader := .stopping .worker }
  | joinWorkers : s.reader = .joining .worker → s.workerPool_.Joined →
      ReaderStep cfg s (.returned s.exitCode) { s with reader := .returned }

/-- A step of worker `w` of a pool. -/
inductive WorkerStep (cfg : Config) (e : Executor) (w : ℕ) (s : Server) : Label → Server → Prop
  | take {task : Task} {rest : List Task} (htasks : (s.pool e).tasks_ = task :: rest) :
      (s.pool e).workers_[w]? = some .idle →
      WorkerStep cfg e w s (.taken e task)
        (s.setPool e ((s.pool e).take w htasks task.start))
  | exit (hdrained : (s.pool e).stopping_ = true ∧ (s.pool e).tasks_ = []) :
      (s.pool e).workers_[w]? = some .idle →
      WorkerStep cfg e w s .tau (s.setPool e ((s.pool e).exit w hdrained))
  | handler {call : RequestCall} {pc pc' : HandlerPc} {l : Label} :
      (s.pool e).workers_[w]? = some (.busy (.request call pc)) →
      HandlerStep cfg.nl call (s.flag call) pc l (.next pc') →
      WorkerStep cfg e w s l (s.setPool e ((s.pool e).progress w (.request call pc')))
  | handlerFinishes {call : RequestCall} {pc : HandlerPc} {l : Label} :
      (s.pool e).workers_[w]? = some (.busy (.request call pc)) →
      HandlerStep cfg.nl call (s.flag call) pc l .finished →
      WorkerStep cfg e w s l (s.setPool e ((s.pool e).progress w (.erasing call)))
  | handlerEscapes {call : RequestCall} {pc : HandlerPc} {l : Label} :
      (s.pool e).workers_[w]? = some (.busy (.request call pc)) →
      HandlerStep cfg.nl call (s.flag call) pc l .escaped →
      WorkerStep cfg e w s l { s with terminated := true }
  | eraseToken {call : RequestCall} :
      (s.pool e).workers_[w]? = some (.busy (.erasing call)) →
      WorkerStep cfg e w s (.tokenErased call)
        { s.setPool e ((s.pool e).finish w) with
          cancellationTokens_ := s.cancellationTokens_.erase call.id }
  | notification {call : NotificationCall} {pc pc' : NotificationPc} {l : Label}
      {documents : DocumentStore} :
      (s.pool e).workers_[w]? = some (.busy (.notification call pc)) →
      NotificationStep call s.documents_ pc l documents (.next pc') →
      WorkerStep cfg e w s l
        { s.setPool e ((s.pool e).progress w (.notification call pc')) with
          documents_ := documents }
  | notificationFinishes {call : NotificationCall} {pc : NotificationPc} {l : Label}
      {documents : DocumentStore} :
      (s.pool e).workers_[w]? = some (.busy (.notification call pc)) →
      NotificationStep call s.documents_ pc l documents .finished →
      WorkerStep cfg e w s l
        { s.setPool e ((s.pool e).finish w) with documents_ := documents }
  | notificationEscapes {call : NotificationCall} {pc : NotificationPc} {l : Label}
      {documents : DocumentStore} :
      (s.pool e).workers_[w]? = some (.busy (.notification call pc)) →
      NotificationStep call s.documents_ pc l documents .escaped →
      WorkerStep cfg e w s l { s with terminated := true }
  | invoke {cb : ResponseCallback} {payload : Json} {isError : Bool} :
      (s.pool e).workers_[w]? = some (.busy (.callback cb payload isError)) →
      WorkerStep cfg e w s (.callbackInvoked cb.call payload isError)
        (s.setPool e ((s.pool e).progress w (.invoked cb payload isError)))
  | callbackFinishes {cb : ResponseCallback} {payload : Json} {isError : Bool} {l : Label} :
      (s.pool e).workers_[w]? = some (.busy (.invoked cb payload isError)) →
      CallbackStep payload isError cb l .finished →
      WorkerStep cfg e w s l (s.setPool e ((s.pool e).finish w))
  | callbackEscapes {cb : ResponseCallback} {payload : Json} {isError : Bool} {l : Label} :
      (s.pool e).workers_[w]? = some (.busy (.invoked cb payload isError)) →
      CallbackStep payload isError cb l .escaped →
      WorkerStep cfg e w s l { s with terminated := true }

/-- A step of `sendRequest` or `sendNotification`, in any thread. -/
inductive SenderStep (cfg : Config) (s : Server) : Label → Server → Prop
  | issue (method : Bytes) (params : Json) (cb : ResponseCallback) :
      cb.call = s.senders.length →
      SenderStep cfg s (.issued s.senders.length s.nextOutgoingId_ method params cb)
        { s with
          nextOutgoingId_ := s.nextOutgoingId_ + 1,
          senders := s.senders ++ [.registering s.nextOutgoingId_ method params cb] }
  /-- `emplace` keeps an entry that is there already. -/
  | register (call : ℕ) {id : Int32} {method : Bytes} {params : Json} {cb : ResponseCallback} :
      s.senders[call]? = some (.registering id method params cb) →
      SenderStep cfg s (.registered call id)
        { s with
          pendingRequests_ :=
            if (s.pendingRequests_.lookup id).isSome then s.pendingRequests_
            else s.pendingRequests_.insert id cb,
          senders := s.senders.set call (.sending id method params) }
  | send (call : ℕ) {id : Int32} {method : Bytes} {params : Json} {text : Bytes} :
      s.senders[call]? = some (.sending id method params) →
      (Frame.request id method params).serialize cfg.nl = .ok text →
      SenderStep cfg s (.sent (.request id method params))
        { s with senders := s.senders.set call .finished }
  /-- The exception goes to the caller. -/
  | sendThrows (call : ℕ) {id : Int32} {method : Bytes} {params : Json} {what : Bytes} :
      s.senders[call]? = some (.sending id method params) →
      (Frame.request id method params).serialize cfg.nl = .error what →
      SenderStep cfg s .tau { s with senders := s.senders.set call .finished }
  | notify {method : Bytes} {params : Json} {text : Bytes} :
      (Frame.notification method params).serialize cfg.nl = .ok text →
      SenderStep cfg s (.sent (.notification method params)) s

/-- A step of the process: nothing moves once it has been terminated, and the read thread does not
once an exception has left `run`. -/
inductive Step (cfg : Config) (s : Server) (l : Label) (s' : Server) : Prop
  | reader : s.terminated = false → s.threw = false → ReaderStep cfg s l s' → Step cfg s l s'
  | worker (e : Executor) (w : ℕ) : s.terminated = false → WorkerStep cfg e w s l s' →
      Step cfg s l s'
  | sender : s.terminated = false → SenderStep cfg s l s' → Step cfg s l s'

/-- The runs of a server from its start. -/
abbrev Runs (cfg : Config) (ls : List Label) (s : Server) : Prop :=
  Transition.Run (Step cfg) (Server.start cfg) ls s

/-! ## A session

The messages of a client that the runs on fixed messages are made of. -/

namespace Session

def initializeRequest : Frame := .request 0 (str "initialize") .null
def initialized : Frame := .notification (str "initialized") .null
def hover : Frame := .request 1 (str "hover") .null
def cancel : Frame :=
  .notification (str "$/cancelRequest") (.ofMembers [(str "id", .integer 1)])
def shutdown : Frame := .request 2 (str "shutdown") .null
def exit : Frame := .notification (str "exit") .null

def didOpen : Frame :=
  .notification (str "textDocument/didOpen") (.ofMembers [(str "textDocument",
    .ofMembers [(str "uri", .string (str "file:///a")), (str "languageId", .string (str "c")),
      (str "version", .integer 1), (str "text", .string (str "int x;"))])])

/-- The answer of the client to the first request of the server. -/
def answer : Frame := .result (.int 1) (.string (str "yes"))

/-- A server with a handler for `hover` and two worker threads. -/
def config : Config where
  nl := .ofFrames [initializeRequest, initialized, hover, cancel, shutdown, exit, didOpen, answer]
  userRequests := [str "hover"]
  userNotifications := []
  workerThreads := 2

lemma documented : config.nl.Documented := by
  apply Nlohmann.documented_ofFrames
  intro frame hframe
  have hstr := valid_str
  have hid : ∀ n, (Json.ofMembers [(str "id", .integer n)]).ValidUtf8 := fun n =>
    Json.validUtf8_ofMembers ⟨hstr _, trivial, trivial⟩
  have hitem : (Json.ofMembers [(str "uri", .string (str "file:///a")),
      (str "languageId", .string (str "c")), (str "version", .integer 1),
      (str "text", .string (str "int x;"))]).ValidUtf8 :=
    Json.validUtf8_ofMembers
      ⟨hstr _, hstr _, hstr _, hstr _, hstr _, trivial, hstr _, hstr _, trivial⟩
  simp only [List.mem_cons, List.not_mem_nil, or_false] at hframe
  rcases hframe with rfl | rfl | rfl | rfl | rfl | rfl | rfl | rfl
  · exact ⟨hstr _, trivial⟩
  · exact ⟨hstr _, trivial⟩
  · exact ⟨hstr _, trivial⟩
  · exact ⟨hstr _, hid 1⟩
  · exact ⟨hstr _, trivial⟩
  · exact ⟨hstr _, trivial⟩
  · exact ⟨hstr _, Json.validUtf8_ofMembers ⟨hstr _, hitem, trivial⟩⟩
  · exact ⟨trivial, hstr _⟩

/-- The call of `initialize`. -/
def initializeCall : RequestCall :=
  { serial := 0, id := .int 0, method := str "initialize", params := .null,
    handler := .initializeRequest, token := 0 }

/-- The first request and its answer. -/
def handshake : List Label :=
  [.read 0 initializeRequest.json.print
      (.request { id := .int 0, method := str "initialize", params := .null }),
    .handlerStarted initializeCall, .handlerEnded initializeCall (.ok .null),
    .sent (.result (.int 0) .null)]

/-- The server that has answered it; its `onInitialize` has set no capability. -/
def greeted : Server :=
  { Server.start config with messagesRead := 1, state_ := .Initializing, flags := [false] }

lemma runs_handshake : Runs config handshake greeted := by
  have hread : Runs config _ _ := Transition.Run.single
    (.reader rfl rfl (.read initializeRequest.json.print rfl (by decide) rfl))
  have hstarted := hread.snoc (.reader rfl rfl (.handler ⟨none, none⟩ rfl (.start rfl)))
  have hended := hstarted.snoc (.reader rfl rfl (.handler ⟨none, none⟩ rfl (.returns .null)))
  have hsent := hended.snoc (.reader rfl rfl (.handlerFinishes rfl (.send rfl)))
  exact hsent

end Session

end CLSP
