import CLSP.Server.Threads

/-!
# Exceptions in the tasks of a pool

An exception that leaves a task ends the process. Tasks of requests and notifications catch what
their handlers throw, and the exceptions of `dump`; the task of a response does not, and the typed
`sendRequest` decodes the payload in it.
-/

namespace CLSP

open Transition (Reaches)

/-! ## What is asked of the user and of the client -/

/-- A `std::exception` whose `what()` can be printed. -/
def Exn.Printable : Exn → Prop
  | .requestCancelled => True
  | .jsonRpc _ what => Utf8.Valid what
  | .std what => Utf8.Valid what
  | .other => False

/-- The user's code does not throw in a step, other than what handlers may throw: request handlers
printable exceptions, and notification handlers any `std::exception`. -/
def Label.Contained : Label → Prop
  | .handlerEnded _ (.error e) => e.Printable
  | .notificationEnded _ (some e) => e.isStd = true
  | .callbackThrew _ _ => False
  | _ => True

/-- A callback can be called: a typed one needs an error, or a payload that decodes. -/
def ResponseCallback.Decodes (payload : Json) (isError : Bool) : ResponseCallback → Prop
  | .raw _ => True
  | .typed _ get => isError = true ∨ get payload = .ok ()

/-- The response that a step matches can be decoded. -/
def Label.Decodes : Label → Prop
  | .responseTaken resp _ (some cb) => cb.Decodes resp.payload resp.isError
  | _ => True

/-! ## Tasks that do not throw -/

/-- In a catch clause the frame about to be sent can be printed. -/
def HandlerPc.Tame (call : RequestCall) : HandlerPc → Prop
  | .responding reply true => (reply.frame call.id).ValidUtf8
  | _ => True

def Task.Tame : Task → Prop
  | .request call => call.id.ValidUtf8
  | .notification _ => True
  | .callback cb payload isError => cb.Decodes payload isError

def Running.Tame : Running → Prop
  | .request call pc => call.id.ValidUtf8 ∧ pc.Tame call
  | .callback cb payload isError => cb.Decodes payload isError
  | .invoked cb payload isError => cb.Decodes payload isError
  | _ => True

def ReaderPc.Tame : ReaderPc → Prop
  | .registering call => call.id.ValidUtf8
  | .submitting _ task => task.Tame
  | _ => True

/-- Every task, wherever it is, will not throw, and none has. -/
structure Server.Tame (s : Server) : Prop where
  running : s.terminated = false
  reading : s.reader.Tame
  queued : ∀ e, ∀ task ∈ (s.pool e).tasks_, task.Tame
  working : ∀ e running, (s.pool e).Working running → running.Tame

lemma Task.Tame.start {task : Task} (h : task.Tame) : task.start.Tame := by
  cases task with
  | request => exact ⟨h, trivial⟩
  | notification => trivial
  | callback => exact h

lemma tame_start (cfg : Config) : (Server.start cfg).Tame := by
  refine ⟨rfl, trivial, ?_, ?_⟩
  · intro e task htask
    cases e <;> exact absurd htask (by simp [Server.start, Server.pool, ThreadPool.create])
  · intro e running h
    cases e <;> exact absurd h (ThreadPool.not_working_create _)

section Handlers

variable {nl : Nlohmann} {call : RequestCall} {flag : Bool} {pc : HandlerPc} {l : Label}

lemma Exn.Printable.reply {e : Exn} (h : e.Printable) {id : RequestId} (hid : id.ValidUtf8)
    {reply : Reply} (hreply : e.reply = some reply) : (reply.frame id).ValidUtf8 := by
  cases e with
  | requestCancelled =>
    rw [← Option.some.inj hreply]
    exact ⟨hid, valid_str _⟩
  | jsonRpc =>
    rw [← Option.some.inj hreply]
    exact ⟨hid, h⟩
  | std =>
    rw [← Option.some.inj hreply]
    exact ⟨hid, h⟩
  | other => exact absurd hreply (by simp [Exn.reply])

/-- A handler run stays tame. -/
lemma HandlerStep.tame {pc' : HandlerPc} (h : HandlerStep nl call flag pc l (.next pc'))
    (hnl : nl.Documented) (hid : call.id.ValidUtf8) (hl : l.Contained) : pc'.Tame call := by
  cases h with
  | throws hreply => exact Exn.Printable.reply hl hid hreply
  | sendThrows hdump => exact ⟨hid, hnl.what_valid _ _ hdump⟩
  | _ => trivial

/-- No exception leaves a tame handler run. -/
lemma HandlerStep.not_escaped (h : HandlerStep nl call flag pc l .escaped) (hnl : nl.Documented)
    (htame : pc.Tame call) : ¬ l.Contained := by
  intro hl
  cases h with
  | @escapes e hreply =>
    have hprintable : e.Printable := hl
    cases e with
    | other => exact hprintable
    | _ => exact absurd hreply (by simp [Exn.reply])
  | sendEscapes hdump =>
    -- the frame of a catch clause can be printed
    rcases Frame.ValidUtf8.serialize hnl htame with ⟨text, htext⟩
    rw [htext] at hdump
    exact absurd hdump (by simp)

lemma NotificationStep.not_escaped {call : NotificationCall} {documents documents' : DocumentStore}
    {pc : NotificationPc} (h : NotificationStep call documents pc l documents' .escaped) :
    ¬ l.Contained := by
  intro hl
  cases h with
  | @escapes e hstd =>
    have hstd' : e.isStd = true := hl
    rw [hstd] at hstd'
    exact absurd hstd' (by simp)

lemma CallbackStep.not_escaped {payload : Json} {isError : Bool} {cb : ResponseCallback}
    (h : CallbackStep payload isError cb l .escaped) (hcb : cb.Decodes payload isError) :
    ¬ l.Contained := by
  intro hl
  cases h with
  | throws => exact hl
  | typedThrows => exact hl
  | decodeThrows herror hget =>
    -- the payload was to be decoded, and it can be
    rcases hcb with hcb | hcb
    · rw [herror] at hcb
      exact absurd hcb (by simp)
    · rw [hget] at hcb
      exact absurd hcb (by simp)

end Handlers

/-! ## The steps -/

variable {cfg : Config} {ls : List Label} {s s' : Server} {l : Label}

/-- Where a worker gets to is tame. -/
lemma Advanced.tame {e : Executor} {running : Running} (h : Advanced cfg e s l running)
    (hnl : cfg.nl.Documented) (hs : s.Tame) (hl : l.Contained) : running.Tame := by
  cases h with
  | same hwork => exact hs.working e _ hwork
  | taken htasks => exact (hs.queued e _ (by simp [htasks])).start
  | handler hwork hstep =>
    have hid := (hs.working e _ hwork).1
    exact ⟨hid, hstep.tame hnl hid hl⟩
  | answered => trivial
  | notification => trivial
  | @invoked cb payload isError hwork =>
    exact hs.working e (.callback cb payload isError) hwork

/-- No exception leaves a tame task. -/
lemma WorkerStep.not_terminated {e : Executor} {w : ℕ} (h : WorkerStep cfg e w s l s')
    (hnl : cfg.nl.Documented) (hs : s.Tame) (hl : l.Contained) : s'.terminated = false := by
  cases h with
  | handlerEscapes hw hstep =>
    have htame := hs.working e _ (ThreadPool.working_of_getElem? hw)
    exact absurd hl (hstep.not_escaped hnl htame.2)
  | notificationEscapes hw hstep => exact absurd hl hstep.not_escaped
  | callbackEscapes hw hstep =>
    have htame := hs.working e _ (ThreadPool.working_of_getElem? hw)
    exact absurd hl (hstep.not_escaped htame)
  | _ => exact (Server.setPool_terminated s e _).trans hs.running

/-- Dispatch makes tasks that do not throw. -/
lemma Outcome.tame {state_ : ServerState} {serial token : ℕ} {msg : ParsedMessage}
    {next : ServerState × ReaderPc} (h : Outcome cfg state_ serial token msg next)
    (hid : ∀ req, msg = .request req → req.id.ValidUtf8) : next.2.Tame := by
  cases h with
  | request h =>
    cases h with
    | pooled => exact hid _ rfl
    | _ => trivial
  | notification h => cases h <;> trivial
  | response h => cases h <;> trivial
  | error => trivial

lemma ReaderStep.reading (h : ReaderStep cfg s l s') (hnl : cfg.nl.Documented) (hs : s.Tame)
    (hdecodes : l.Decodes) : s'.reader.Tame := by
  cases h with
  | read _ _ _ hparse =>
    apply (dispatch_outcome _ _ _ _ _).tame
    intro req hreq
    subst hreq
    exact validUtf8_of_parseMessage hnl hparse
  | insertToken hr =>
    have htame := hs.reading
    rw [hr] at htame
    exact htame
  | matched => exact hdecodes
  | parseThrows | sendThrows | handlerEscapes | notifyEscapes | exitThrows => exact hs.reading
  | _ => trivial

/-- A step keeps the server tame when the user and the client do what is asked of them. -/
theorem Server.Tame.step (hs : s.Tame) (hnl : cfg.nl.Documented) (hl : l.Contained ∧ l.Decodes)
    (h : Step cfg s l s') : s'.Tame := by
  cases h with
  | reader _ _ h =>
    refine ⟨h.terminated.trans hs.running, h.reading hnl hs hl.2, ?_, ?_⟩
    · intro e task htask
      rcases h.mem_tasks_ htask with htask | hr
      · exact hs.queued e task htask
      · -- a task was tame in the hands of the read thread
        have htame := hs.reading
        rw [hr] at htame
        exact htame
    · intro e running hwork
      exact hs.working e running (h.working.mp hwork)
  | worker e w _ h =>
    refine ⟨h.not_terminated hnl hs hl.1, ?_, ?_, ?_⟩
    · rw [h.control.1]
      exact hs.reading
    · intro e' task htask
      exact hs.queued e' task (h.mem_tasks_ htask)
    · intro e' running hwork
      exact (h.advanced hwork).tame hnl hs hl.1
  | sender _ h =>
    have hpool := h.pool
    rcases h.frame with ⟨_, _, _, rfl⟩
    exact ⟨hs.running, hs.reading, fun e => hpool e ▸ hs.queued e, fun e => hpool e ▸ hs.working e⟩

/-! ## The result -/

/-- In a run in which the user's code does not throw, other than its handlers, no exception ends the
process as long as every response that is matched can be decoded. -/
theorem not_terminated_of_decodes (cfg : Config) (hnl : cfg.nl.Documented) (ls : List Label)
    (s : Server) (h : Runs cfg ls s) (huser : ∀ l ∈ ls, l.Contained)
    (hdecodes : ∀ l ∈ ls, l.Decodes) : s.terminated = false := by
  have htame : s.Tame := by
    apply h.invariant_of_labels (P := fun l => l.Contained ∧ l.Decodes) (tame_start cfg)
    · intro t l u ht hl hstep
      exact ht.step hnl hl hstep
    · intro l hl
      exact ⟨huser l hl, hdecodes l hl⟩
  exact htame.running

namespace Session

/-- The callbacks of `sendRequest` for a `std::string` and for an `int`. -/
def stringCallback : ResponseCallback :=
  .ofTyped 0 fun j => j.getString.mapError fun _ => .std (str "type must be string")

def intCallback : ResponseCallback :=
  .ofTyped 0 fun j => j.getInt32.mapError fun _ => .std (str "type must be number")

end Session

/-- A session in which a request is answered, up to the call of its callback. -/
lemma session_invokes (cb : ResponseCallback) (hcb : cb.call = 0) :
    Reaches (Step Session.config) (Server.start Session.config) fun ls s =>
      s.terminated = false ∧
        s.workerPool_.workers_[0]? = some (.busy (.invoked cb (.string (str "yes")) false)) ∧
        (∀ l ∈ ls, l.Contained) ∧
        (cb.Decodes (.string (str "yes")) false → ∀ l ∈ ls, l.Decodes) := by
  apply Reaches.step (.sender rfl (.issue (str "ask") .null cb hcb))
  apply Reaches.step (.sender rfl (.register 0 rfl))
  apply Reaches.step (.sender rfl (.send 0 rfl rfl))
  apply Reaches.step (.reader rfl rfl (.read Session.answer.json.print rfl nofun rfl))
  apply Reaches.step (.reader rfl rfl (.matched rfl rfl))
  apply Reaches.step (.reader rfl rfl (.submit rfl))
  apply Reaches.step (.worker .worker 0 rfl (.take rfl rfl))
  apply Reaches.step (.worker .worker 0 rfl (.invoke rfl))
  refine Reaches.here ⟨rfl, rfl, ?_, ?_⟩
  · simp [Label.Contained]
  · intro hdecodes
    simpa [Label.Decodes] using hdecodes

/-- A session in which the answer to a request decodes. -/
theorem not_terminated_session :
    Reaches (Step Session.config) (Server.start Session.config) fun ls s =>
      .callbackReturned 0 ∈ ls ∧ s.terminated = false := by
  rcases session_invokes Session.stringCallback rfl
    with ⟨ls, s, hrun, hlive, hworker, huser, hdecodes⟩
  have hstep : Step Session.config s (.callbackReturned 0) _ :=
    .worker .worker 0 hlive (.callbackFinishes hworker (.decodes rfl rfl))
  refine ⟨_, _, hrun.snoc hstep, by simp, ?_⟩
  apply not_terminated_of_decodes Session.config Session.documented _ _ (hrun.snoc hstep)
  · intro l hl
    rcases List.mem_append.mp hl with hl | hl
    · exact huser l hl
    · rw [List.mem_singleton.mp hl]
      trivial
  · intro l hl
    rcases List.mem_append.mp hl with hl | hl
    · exact hdecodes (Or.inr rfl) l hl
    · rw [List.mem_singleton.mp hl]
      trivial

/-- The same session with a callback for an `int`: a string as the result ends the process. -/
theorem session_terminates :
    Session.config.nl.Documented ∧
      Reaches (Step Session.config) (Server.start Session.config) fun ls s =>
        (∀ l ∈ ls, l.Contained) ∧ s.terminated = true := by
  refine ⟨Session.documented, ?_⟩
  rcases session_invokes Session.intCallback rfl with ⟨ls, s, hrun, hlive, hworker, huser, -⟩
  have hstep : Step Session.config s _ { s with terminated := true } :=
    .worker .worker 0 hlive (.callbackEscapes hworker (.decodeThrows rfl rfl))
  refine ⟨_, _, hrun.snoc hstep, ?_, rfl⟩
  intro l hl
  rcases List.mem_append.mp hl with hl | hl
  · exact huser l hl
  · rw [List.mem_singleton.mp hl]
    trivial

end CLSP
