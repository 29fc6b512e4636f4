import CLSP.DocumentStore.Store
import CLSP.Protocol.Sync
import CLSP.Rpc.JsonRpc

/-!
# Handlers

The handler tables of `src/ILanguageServer.cpp`, the classification of methods, and what running a
request handler, a notification handler or a response callback can do. Handlers and hooks of the
user are arbitrary: they return or throw anything.
-/

namespace CLSP

/-! ## Exceptions -/

/-- What leaves user code: the exceptions `runRequestHandler` tells apart, and anything that is no
`std::exception`. -/
inductive Exn
  | requestCancelled
  | jsonRpc (code : ErrorCodes) (what : Bytes)
  | std (what : Bytes)
  | other

/-- Caught by `catch (const std::exception&)`. -/
def Exn.isStd : Exn → Bool
  | .other => false
  | _ => true

/-! ## The tables -/

inductive RequestHandler
  | initializeRequest
  | shutdownRequest
  | user
deriving DecidableEq, Repr

inductive NotificationHandler
  | initialized
  | exit
  | cancelRequest
  | didOpen
  | didChange
  | didClose
  | didSave
  | user
deriving DecidableEq, Repr

/-- A server as it is constructed: the JSON library, the methods its user registers handlers for
(these replace built-in ones) and the number of worker threads. -/
structure Config where
  nl : Nlohmann
  userRequests : List Bytes
  userNotifications : List Bytes
  workerThreads : ℕ

/-- `requestHandlers_` -/
def Config.requestHandler (cfg : Config) (method : Bytes) : Option RequestHandler :=
  if method ∈ cfg.userRequests then some .user
  else if method = str "initialize" then some .initializeRequest
  else if method = str "shutdown" then some .shutdownRequest
  else none

/-- `notificationHandlers_` -/
def Config.notificationHandler (cfg : Config) (method : Bytes) : Option NotificationHandler :=
  if method ∈ cfg.userNotifications then some .user
  else if method = str "initialized" then some .initialized
  else if method = str "exit" then some .exit
  else if method = str "$/cancelRequest" then some .cancelRequest
  else if method = str "textDocument/didOpen" then some .didOpen
  else if method = str "textDocument/didChange" then some .didChange
  else if method = str "textDocument/didClose" then some .didClose
  else if method = str "textDocument/didSave" then some .didSave
  else none

/-- `isLifecycleRequest` -/
def isLifecycleRequest (method : Bytes) : Bool :=
  method = str "initialize" || method = str "shutdown"

/-- `isInlineNotification` -/
def isInlineNotification (method : Bytes) : Bool :=
  method = str "initialized" || method = str "exit" || method = str "$/cancelRequest"

/-- `isSyncNotification` -/
def isSyncNotification (method : Bytes) : Bool :=
  method = str "textDocument/didOpen" || method = str "textDocument/didChange" ||
    method = str "textDocument/didClose" || method = str "textDocument/didSave"

/-! ## Calls -/

/-- A request on its way to its handler. `serial` is the place of its message among the messages
read, `token` the index of the flag its `CancellationToken` shares. -/
structure RequestCall where
  serial : ℕ
  id : RequestId
  method : Bytes
  params : Json
  handler : RequestHandler
  token : ℕ

/-- A notification on its way to its handler. -/
structure NotificationCall where
  serial : ℕ
  method : Bytes
  params : Json
  handler : NotificationHandler

/-- The callback of the `call`-th `sendRequest`. The typed overload wraps the one of its user, which
only sees a result that `payload.get<Result>()` decodes. -/
inductive ResponseCallback
  | raw (call : ℕ)
  | typed (call : ℕ) (get : Json → Except Exn Unit)

/-- The callback `sendRequest<Params, Result>` registers for a `from_json` of `Result`. -/
def ResponseCallback.ofTyped {Result : Type} (call : ℕ) (fromJson : Json → Except Exn Result) :
    ResponseCallback :=
  .typed call fun payload => (fromJson payload).map fun _ => ()

/-- The call of `sendRequest` a callback belongs to. -/
def ResponseCallback.call : ResponseCallback → ℕ
  | .raw call => call
  | .typed call _ => call

/-! ## `runRequestHandler` -/

/-- What is sent for a request. -/
inductive Reply
  | result (value : Json)
  | error (code : ErrorCodes) (message : Bytes)

/-- `serializeResult` and `serializeError` take the id of the request. -/
def Reply.frame (id : RequestId) : Reply → Frame
  | .result value => .result id value
  | .error code message => .error id code message

@[simp] lemma Reply.answers_frame (id : RequestId) (reply : Reply) :
    (reply.frame id).answers = some id := by
  cases reply <;> rfl

/-- The reply to a cancelled request. -/
def Reply.cancelled : Reply :=
  .error .RequestCancelled (str "Request cancelled")

/-- The catch clauses; what is no `std::exception` passes them. -/
def Exn.reply : Exn → Option Reply
  | .requestCancelled => some .cancelled
  | .jsonRpc code what => some (.error code what)
  | .std what => some (.error .InternalError what)
  | .other => none

/-- Where a run of `runRequestHandler` is: before the test of the token, in the handler, or about
to send, inside the `try` or in a catch clause. -/
inductive HandlerPc
  | checking
  | running
  | responding (reply : Reply) (caught : Bool)

/-! ## Document notifications -/

/-- The hooks of the document notifications with their arguments. -/
inductive Hook
  | opened (document : TextDocumentItem)
  | changed (document : TextDocumentItem) (changes : List TextDocumentChangeEvent)
  | closed (uri : DocumentUri)
  | saved (document : TextDocumentItem) (text : Option Bytes)

/-- The base implementations of the hooks. An exception of `applyChange` leaves what it did. -/
def Hook.run (documents : DocumentStore) : Hook → DocumentStore
  | .opened document => documents.open document
  | .changed document changes =>
    (documents.applyChange { uri := document.uri, version := document.version } changes).1
  | .closed uri => (documents.close uri).1
  | .saved _ _ => documents

/-- The handlers of `registerSyncHandlers` up to the hook they call; `didSave` calls none for a
document that is not open. -/
def NotificationHandler.hook (handler : NotificationHandler) (params : Json)
    (documents : DocumentStore) : Except JsonError (Option Hook) := do
  match handler with
  | .didOpen =>
    let p ← DidOpenParams.fromJson params
    return some (.opened p.textDocument)
  | .didChange =>
    let p ← DidChangeParams.fromJson params
    let doc : TextDocumentItem :=
      { uri := p.textDocument.uri, languageId := [], version := p.textDocument.version, text := [] }
    return some (.changed doc p.contentChanges)
  | .didClose =>
    let p ← DidCloseParams.fromJson params
    return some (.closed p.uri)
  | .didSave =>
    let p ← DidSaveParams.fromJson params
    return (documents.get p.uri).map fun doc => .saved doc p.text
  | _ => return none

/-- Where a notification task is: before its handler, in a built-in handler before its hook, or in
user code, a hook or a handler of the user. -/
inductive NotificationPc
  | starting
  | running
  | user

/-- The id a `$/cancelRequest` names. -/
def cancelTarget : Json → Option RequestId
  | .object members => (members.lookup (str "id")).bind idFromJson
  | _ => none

/-! ## Tasks -/

/-- The three kinds of task put on a pool. -/
inductive Task
  | request (call : RequestCall)
  | notification (call : NotificationCall)
  | callback (cb : ResponseCallback) (payload : Json) (isError : Bool)

/-- How far a task is that a worker runs. A request task still has its token to erase after
`runRequestHandler`. -/
inductive Running
  | request (call : RequestCall) (pc : HandlerPc)
  | erasing (call : RequestCall)
  | notification (call : NotificationCall) (pc : NotificationPc)
  | callback (cb : ResponseCallback) (payload : Json) (isError : Bool)
  | invoked (cb : ResponseCallback) (payload : Json) (isError : Bool)

/-- A task that has just been taken from the queue. -/
def Task.start : Task → Running
  | .request call => .request call .checking
  | .notification call => .notification call .starting
  | .callback cb payload isError => .callback cb payload isError

end CLSP
