import CLSP.Pool.ThreadPool
import CLSP.Server.Dispatch

/-!
# The state of a running server

`Server` has the members of `ILanguageServer` and, for each thread, where it stands.
-/

namespace CLSP

/-- `TextDocumentSyncKind` -/
inductive TextDocumentSyncKind
  | None
  | Full
  | Incremental
deriving DecidableEq, Repr

abbrev TaskPool := ThreadPool Task Running

/-- Where a call of `sendRequest` is, in whatever thread makes it. -/
inductive SenderPc
  | registering (id : Int32) (method : Bytes) (params : Json) (cb : ResponseCallback)
  | sending (id : Int32) (method : Bytes) (params : Json)
  | finished

/-! ## The server -/

/-- `ILanguageServer` while it runs. `threw` and `terminated` say that an exception has left `run`,
or a worker thread, which ends the process. -/
structure Server where
  reader : ReaderPc := .loop
  threw : Bool := false
  terminated : Bool := false
  /-- How many messages have been read. -/
  messagesRead : ℕ := 0
  state_ : ServerState := .Uninitialized
  shutdownRequested_ : Bool := false
  syncKind_ : TextDocumentSyncKind := .None
  documents_ : DocumentStore := {}
  workerPool_ : TaskPool
  syncExecutor_ : TaskPool
  /-- The flags the cancellation tokens share, in the order the tokens were made. -/
  flags : List Bool := []
  cancellationTokens_ : AList (fun _ : RequestId => ℕ) := ∅
  nextOutgoingId_ : Int32 := 1
  pendingRequests_ : AList (fun _ : Int32 => ResponseCallback) := ∅
  /-- The calls of `sendRequest` so far, in the order they drew their ids. -/
  senders : List SenderPc := []

/-- A constructed server, about to enter `run`. -/
def Server.start (cfg : Config) : Server :=
  { workerPool_ := .create cfg.workerThreads, syncExecutor_ := .create 1 }

namespace Server

/-! ## The two pools -/

def pool (s : Server) : Executor → TaskPool
  | .worker => s.workerPool_
  | .sync => s.syncExecutor_

def setPool (s : Server) (e : Executor) (p : TaskPool) : Server :=
  match e with
  | .worker => { s with workerPool_ := p }
  | .sync => { s with syncExecutor_ := p }

section SetPool

variable (s : Server) (e : Executor) (p : TaskPool)

@[simp] lemma setPool_reader : (s.setPool e p).reader = s.reader := by cases e <;> rfl
@[simp] lemma setPool_threw : (s.setPool e p).threw = s.threw := by cases e <;> rfl
@[simp] lemma setPool_terminated : (s.setPool e p).terminated = s.terminated := by cases e <;> rfl
@[simp] lemma setPool_messagesRead : (s.setPool e p).messagesRead = s.messagesRead := by
  cases e <;> rfl
@[simp] lemma setPool_state_ : (s.setPool e p).state_ = s.state_ := by cases e <;> rfl
@[simp] lemma setPool_shutdownRequested_ :
    (s.setPool e p).shutdownRequested_ = s.shutdownRequested_ := by cases e <;> rfl
@[simp] lemma setPool_syncKind_ : (s.setPool e p).syncKind_ = s.syncKind_ := by cases e <;> rfl
@[simp] lemma setPool_documents_ : (s.setPool e p).documents_ = s.documents_ := by cases e <;> rfl
@[simp] lemma setPool_flags : (s.setPool e p).flags = s.flags := by cases e <;> rfl
@[simp] lemma setPool_cancellationTokens_ :
    (s.setPool e p).cancellationTokens_ = s.cancellationTokens_ := by cases e <;> rfl
@[simp] lemma setPool_nextOutgoingId_ :
    (s.setPool e p).nextOutgoingId_ = s.nextOutgoingId_ := by cases e <;> rfl
@[simp] lemma setPool_pendingRequests_ :
    (s.setPool e p).pendingRequests_ = s.pendingRequests_ := by cases e <;> rfl
@[simp] lemma setPool_senders : (s.setPool e p).senders = s.senders := by cases e <;> rfl

@[simp] lemma pool_setPool : (s.setPool e p).pool e = p := by cases e <;> rfl

lemma pool_setPool_of_ne {e' : Executor} (h : e' ≠ e) : (s.setPool e p).pool e' = s.pool e' := by
  cases e <;> cases e' <;> first | rfl | exact absurd rfl h

end SetPool

/-- The read thread has got a message and goes where `dispatch` sends it. -/
def read (s : Server) (next : ServerState × ReaderPc) : Server :=
  { s with
    messagesRead := s.messagesRead + 1,
    state_ := next.1,
    reader := next.2,
    flags := s.flags ++ next.2.newFlags }

/-! ## The lifecycle handlers -/

/-- What `onInitialize` leaves in the capabilities that the handler of `initialize` looks at. -/
structure Capabilities where
  textDocumentSync : Option TextDocumentSyncKind
  positionEncoding : Option Bytes

/-- The effect of a lifecycle handler when it starts. -/
def lifecycleStarts (s : Server) : RequestHandler → Server
  | .initializeRequest => { s with state_ := .Initializing }
  | .shutdownRequest => { s with shutdownRequested_ := true, state_ := .ShuttingDown }
  | .user => s

/-- The effect of the handler of `initialize` after `onInitialize` has returned. -/
def lifecycleReturns (s : Server) (capabilities : Capabilities) : RequestHandler → Server
  | .initializeRequest =>
    { s with
      syncKind_ := capabilities.textDocumentSync.getD s.syncKind_,
      documents_ :=
        match capabilities.positionEncoding.bind positionEncodingFromString with
        | some e => s.documents_.setPositionEncoding e
        | none => s.documents_ }
  | _ => s

/-- The exit code of `run`. -/
def exitCode (s : Server) : ℕ :=
  if s.shutdownRequested_ then 0 else 1

end Server

end CLSP
