import CLSP.Server.Requests

/-!
# Exactly one response

Every request that has been read is owed one response until it is sent: by the read thread, by a
queued task or by a worker. Each step keeps the balance of what was read, what was sent and what is
owed (`Step.balance`), and when `run` returns nothing is owed any more.
-/

namespace CLSP

open Transition (total Reaches)

/-! ## What is owed -/

/-- The request a frame answers, if any. -/
def Frame.answered (frame : Frame) : Multiset RequestId :=
  frame.answers.elim 0 fun id => {id}

def Task.owed : Task → Multiset RequestId
  | .request call => {call.id}
  | _ => 0

def Running.owed : Running → Multiset RequestId
  | .request call _ => {call.id}
  | _ => 0

def ReaderPc.owed : ReaderPc → Multiset RequestId
  | .sending frame => frame.answered
  | .inline call _ => {call.id}
  | .registering call => {call.id}
  | .submitting _ task => task.owed
  | _ => 0

/-- The requests whose response is still to be sent. -/
def Server.owed (s : Server) : Multiset RequestId :=
  s.held ReaderPc.owed Task.owed Running.owed

/-- The request a step reads. -/
def Label.asked : Label → Multiset RequestId
  | .read _ _ (.request req) => {req.id}
  | _ => 0

/-- The request a step answers. -/
def Label.answered : Label → Multiset RequestId
  | .sent frame => frame.answered
  | _ => 0

/-- The number of response frames with an id. -/
def responses (id : RequestId) (ls : List Label) : ℕ :=
  (total Label.answered ls).count id

/-- The number of requests read with an id. -/
def requests (id : RequestId) (ls : List Label) : ℕ :=
  (total Label.asked ls).count id

@[simp] lemma Task.owed_start (task : Task) : task.start.owed = task.owed := by
  cases task <;> rfl

@[simp] lemma Reply.answered_frame (id : RequestId) (reply : Reply) :
    (reply.frame id).answered = {id} := by
  simp [Frame.answered]

/-! ## The balance of one step -/

/-- `dispatch` owes the response to the request it was given. -/
lemma Outcome.owed {cfg : Config} {state_ : ServerState} {serial token : ℕ} {msg : ParsedMessage}
    {next : ServerState × ReaderPc} (h : Outcome cfg state_ serial token msg next) (body : Bytes) :
    next.2.owed = (Label.read serial body msg).asked := by
  cases h with
  | request h => cases h <;> rfl
  | notification h => cases h <;> rfl
  | response h => cases h <;> rfl
  | error => rfl

section Handlers

variable {nl : Nlohmann} {call : RequestCall} {flag : Bool} {pc : HandlerPc} {l : Label}

lemma HandlerStep.asked {r : Progress HandlerPc} (h : HandlerStep nl call flag pc l r) :
    l.asked = 0 := by
  cases h <;> rfl

lemma HandlerStep.answered_next {pc' : HandlerPc}
    (h : HandlerStep nl call flag pc l (.next pc')) : l.answered = 0 := by
  cases h <;> rfl

lemma HandlerStep.answered_finished (h : HandlerStep nl call flag pc l .finished) :
    l.answered = {call.id} := by
  cases h with
  | send => exact Reply.answered_frame _ _

lemma HandlerStep.answered_escaped (h : HandlerStep nl call flag pc l .escaped) :
    l.answered = 0 := by
  cases h <;> rfl

lemma NotificationStep.quiet {call : NotificationCall} {documents documents' : DocumentStore}
    {pc : NotificationPc} {r : Progress NotificationPc}
    (h : NotificationStep call documents pc l documents' r) : l.asked = 0 ∧ l.answered = 0 := by
  cases h <;> exact ⟨rfl, rfl⟩

lemma CallbackStep.quiet {payload : Json} {isError : Bool} {cb : ResponseCallback}
    {r : Progress Unit} (h : CallbackStep payload isError cb l r) :
    l.asked = 0 ∧ l.answered = 0 := by
  cases h <;> exact ⟨rfl, rfl⟩

end Handlers

variable {cfg : Config} {s s' : Server} {l : Label} {ls : List Label}

/-- A move in a worker's hands keeps the balance. -/
lemma Move.balance {before after : Option Running} (h : Move cfg s l before after) :
    l.answered + heldBy Running.owed after = l.asked + heldBy Running.owed before := by
  cases h with
  | handler hstep =>
    rw [hstep.asked, hstep.answered_next]
    rfl
  | answered hstep =>
    -- the run ends by sending its reply
    rw [hstep.asked, hstep.answered_finished]
    exact add_comm _ _
  | handlerEscapes hstep =>
    -- the process ends with the response still owed
    rw [hstep.asked, hstep.answered_escaped]
  | notification hstep =>
    rw [hstep.quiet.1, hstep.quiet.2]
    rfl
  | notificationFinishes hstep =>
    rw [hstep.quiet.1, hstep.quiet.2]
    rfl
  | notificationEscapes hstep =>
    rw [hstep.quiet.1, hstep.quiet.2]
  | callbackFinishes hstep =>
    rw [hstep.quiet.1, hstep.quiet.2]
    rfl
  | callbackEscapes hstep =>
    rw [hstep.quiet.1, hstep.quiet.2]
  | _ => rfl

/-- What a step of the read thread does to what it owes itself. -/
lemma ReaderStep.owed (h : ReaderStep cfg s l s') :
    l.answered + (s'.reader.owed + l.passed Task.owed) = l.asked + s.reader.owed := by
  cases h with
  | @read body msg hr _ _ =>
    -- a request is asked and owed in one step
    have howed := (dispatch_outcome cfg s.state_ s.messagesRead s.flags.length msg).owed body
    rw [hr]
    show 0 + ((dispatch cfg s.state_ s.messagesRead s.flags.length msg).2.owed + 0) = _ + 0
    rw [howed, zero_add]
  | send hr _ =>
    rw [hr]
    exact add_comm _ _
  | handler capabilities hr hstep =>
    rw [hr, hstep.asked, hstep.answered_next, hstep.passed]
    rfl
  | handlerFinishes hr hstep =>
    rw [hr, hstep.asked, hstep.answered_finished, hstep.passed]
    exact add_comm _ _
  | handlerEscapes hr hstep =>
    rw [hstep.asked, hstep.answered_escaped, hstep.passed, add_zero]
  | submit hr =>
    -- the debt goes into the queue with the task
    rw [hr]
    exact congrArg _ (zero_add _)
  | parseThrows | sendThrows | notifyEscapes | exitThrows => exact congrArg _ (add_zero _)
  | endOfInput hr | leave hr | insertToken hr | cancel hr | notified hr | exited hr
  | unmatched hr | matched hr | stop hr | joinSync hr | joinWorkers hr =>
    rw [hr]
    exact congrArg _ (add_zero _)

theorem Step.balance (h : Step cfg s l s') (hs : s.Phased) :
    l.answered + s'.owed = l.asked + s.owed := by
  apply h.balances hs Task.owed_start
  · intro h
    exact h.owed
  · intro before after h
    exact h.balance
  · intro h
    cases h <;> rfl

/-! ## The balance of a run -/

/-- What has been read has been answered or is owed. -/
theorem Runs.balance (h : Runs cfg ls s) :
    total Label.answered ls + s.owed = total Label.asked ls :=
  h.conserved (Server.held_start rfl cfg) fun _ _ _ _ hrun hstep =>
    hstep.balance (Runs.phased hrun)

/-! ## Rejections -/

/-- A rejection is about the request that was read. -/
lemma Outcome.rejected {state_ : ServerState} {serial token : ℕ} {msg : ParsedMessage}
    {next : ServerState × ReaderPc} (h : Outcome cfg state_ serial token msg next) {frame : Frame}
    {id : RequestId} (hnext : next.2 = .sending frame) (hframe : frame.answers = some id) :
    ∃ req, msg = .request req ∧ req.id = id := by
  cases h with
  | @request req _ h =>
    cases h with
    | rejected =>
      rw [← ReaderPc.sending.inj hnext] at hframe
      exact ⟨req, rfl, Option.some.inj hframe⟩
    | lifecycle | pooled => exact absurd hnext (by simp)
  | notification h => cases h <;> exact absurd hnext (by simp)
  | response h => cases h <;> exact absurd hnext (by simp)
  | error err =>
    rw [← ReaderPc.sending.inj hnext] at hframe
    exact absurd hframe (by simp [Frame.answers])

/-- The read thread gets to a rejection or a response where it reads the message. -/
lemma Step.handling (h : Step cfg s l s') (hl : ∀ m body msg, l ≠ .read m body msg) :
    (∀ frame, s'.reader = .sending frame → s.reader = .sending frame) ∧
      ∀ resp id, s'.reader = .responding resp id → s.reader = .responding resp id := by
  cases h with
  | reader _ _ h =>
    cases h with
    | read body _ _ _ => exact absurd rfl (hl _ body _)
    | parseThrows | sendThrows | handlerEscapes | notifyEscapes | exitThrows =>
      exact ⟨fun _ h => h, fun _ _ h => h⟩
    | _ => exact ⟨by simp, by simp⟩
  | worker _ _ _ h =>
    rw [h.control.1]
    exact ⟨fun _ h => h, fun _ _ h => h⟩
  | sender _ h =>
    rcases h.frame with ⟨_, _, _, rfl⟩
    exact ⟨fun _ h => h, fun _ _ h => h⟩

/-! ## Results come from handlers -/

/-- A thread is about to send a reply to a request. -/
def Server.Replying (s : Server) (call : RequestCall) (reply : Reply) : Prop :=
  (∃ caught, s.reader = .inline call (.responding reply caught)) ∨
    ∃ e caught, (s.pool e).Working (.request call (.responding reply caught))

/-- The results about to be sent and the results sent are values that handlers have returned. -/
structure ResultsReturned (ls : List Label) (s : Server) : Prop where
  replying : ∀ call value, s.Replying call (.result value) → .handlerEnded call (.ok value) ∈ ls
  sending : ∀ id value, s.reader ≠ .sending (.result id value)
  sent : ∀ id value, .sent (.result id value) ∈ ls →
    ∃ call, call.id = id ∧ .handlerEnded call (.ok value) ∈ ls

section Handlers

variable {nl : Nlohmann} {call : RequestCall} {flag : Bool} {pc : HandlerPc}

/-- A handler run comes to a result by the return of the handler. -/
lemma HandlerStep.result {value : Json} {caught : Bool}
    (h : HandlerStep nl call flag pc l (.next (.responding (.result value) caught))) :
    l = .handlerEnded call (.ok value) := by
  cases h with
  | returns => rfl
  | @throws e _ he => cases e <;> simp [Exn.reply, Reply.cancelled] at he

/-- What a handler run sends is its reply. -/
lemma HandlerStep.sent {r : Progress HandlerPc} {frame : Frame}
    (h : HandlerStep nl call flag pc (.sent frame) r) :
    r = .finished ∧
      ∃ reply caught, pc = .responding reply caught ∧ frame = reply.frame call.id := by
  cases h with
  | send => exact ⟨rfl, _, _, rfl, rfl⟩

end Handlers

lemma resultsReturned_start (cfg : Config) : ResultsReturned [] (Server.start cfg) := by
  refine ⟨?_, ?_, ?_⟩
  · intro call value hreply
    rcases hreply with ⟨caught, h⟩ | ⟨e, caught, h⟩
    · exact absurd h (by simp [Server.start])
    · cases e <;> exact absurd h (ThreadPool.not_working_create _)
  · intro id value h
    exact absurd h (by simp [Server.start])
  · intro id value h
    exact absurd h (by simp)

/-- Dispatch rejects with errors only. -/
lemma Outcome.not_result {state_ : ServerState} {serial token : ℕ} {msg : ParsedMessage}
    {next : ServerState × ReaderPc} (h : Outcome cfg state_ serial token msg next)
    (id : RequestId) (value : Json) : next.2 ≠ .sending (.result id value) := by
  cases h with
  | request h => cases h <;> simp
  | notification h => cases h <;> simp
  | response h => cases h <;> simp
  | error => simp

lemma Server.replying_iff {call : RequestCall} {reply : Reply} :
    s.Replying call reply ↔ ∃ caught, s.Handles call (.responding reply caught) := by
  constructor
  · intro h
    rcases h with ⟨caught, hr⟩ | ⟨e, caught, hwork⟩
    · exact ⟨caught, Or.inl hr⟩
    · exact ⟨caught, Or.inr ⟨e, hwork⟩⟩
  · intro h
    rcases h with ⟨caught, hr | ⟨e, hwork⟩⟩
    · exact Or.inl ⟨caught, hr⟩
    · exact Or.inr ⟨e, caught, hwork⟩

/-- A thread gets to send a reply by a step of the handler run. -/
lemma Step.replying (h : Step cfg s l s') {call : RequestCall} {reply : Reply}
    (hreply : s'.Replying call reply) :
    s.Replying call reply ∨ ∃ pc caught, s.Handles call pc ∧
      HandlerStep cfg.nl call (s.flag call) pc l (.next (.responding reply caught)) := by
  rcases Server.replying_iff.mp hreply with ⟨caught, hhandles⟩
  rcases h.handles hhandles with hhandles | hchecking | ⟨pc, hhandles, hstep⟩
  · exact Or.inl (Server.replying_iff.mpr ⟨caught, hhandles⟩)
  · exact absurd hchecking (by simp)
  · exact Or.inr ⟨pc, caught, hhandles, hstep⟩

/-- A frame is sent by the read thread in a rejection, in a handler run, or by a sender. -/
lemma Step.sent_cases {frame : Frame} (h : Step cfg s (.sent frame) s') :
    s.reader = .sending frame ∨
      (∃ call reply caught, s.Handles call (.responding reply caught) ∧
        frame = reply.frame call.id) ∨
      SenderStep cfg s (.sent frame) s' := by
  have hreply : ∀ {call : RequestCall} {flag : Bool} {pc : HandlerPc} {r : Progress HandlerPc},
      s.Handles call pc → HandlerStep cfg.nl call flag pc (.sent frame) r →
      ∃ call reply caught, s.Handles call (.responding reply caught) ∧
        frame = reply.frame call.id := by
    intro call flag pc r hhandles hstep
    rcases hstep.sent with ⟨-, reply, caught, rfl, heq⟩
    exact ⟨call, reply, caught, hhandles, heq⟩
  cases h with
  | reader _ _ h =>
    cases h with
    | send hr _ => exact Or.inl hr
    | handler _ hr hstep | handlerFinishes hr hstep | handlerEscapes hr hstep =>
      exact Or.inr (Or.inl (hreply (Or.inl hr) hstep))
  | worker e w _ h =>
    cases h with
    | handler hw hstep | handlerFinishes hw hstep | handlerEscapes hw hstep =>
      exact Or.inr (Or.inl (hreply (Or.inr ⟨e, ThreadPool.working_of_getElem? hw⟩) hstep))
    | notification _ hstep | notificationFinishes _ hstep | notificationEscapes _ hstep =>
      cases hstep
    | callbackFinishes _ hstep | callbackEscapes _ hstep => cases hstep
  | sender _ h => exact Or.inr (Or.inr h)

/-- A response that is sent is a rejection by the read thread or the reply of a handler run. -/
lemma Step.sent_inv (h : Step cfg s l s') {frame : Frame} (hl : l = .sent frame)
    {id : RequestId} (hframe : frame.answers = some id) :
    s.reader = .sending frame ∨
      ∃ call reply, s.Replying call reply ∧ frame = reply.frame call.id := by
  subst hl
  rcases h.sent_cases with hr | ⟨call, reply, caught, hhandles, heq⟩ | hsender
  · exact Or.inl hr
  · exact Or.inr ⟨call, reply, Server.replying_iff.mpr ⟨caught, hhandles⟩, heq⟩
  · cases hsender <;> exact absurd hframe (by simp [Frame.answers])

/-- The read thread does not come to send a result outside a handler run. -/
lemma Step.not_sending_result (h : Step cfg s l s')
    (hs : ∀ id value, s.reader ≠ .sending (.result id value)) (id : RequestId) (value : Json) :
    s'.reader ≠ .sending (.result id value) := by
  intro hr
  have hother : ¬ ∀ m body msg, l ≠ .read m body msg := fun hl =>
    hs id value ((h.handling hl).1 _ hr)
  cases l with
  | read m body msg =>
    rcases h.read_inv with ⟨-, -, -, -, rfl⟩
    exact (dispatch_outcome _ _ _ _ _).not_result id value hr
  | _ => exact hother (by simp)

lemma ResultsReturned.step (hs : ResultsReturned ls s) (h : Step cfg s l s') :
    ResultsReturned (ls ++ [l]) s' := by
  refine ⟨?_, h.not_sending_result hs.sending, ?_⟩
  · intro call value hreply
    rcases h.replying hreply with hreply | ⟨pc, caught, -, hstep⟩
    · exact List.mem_append_left _ (hs.replying call value hreply)
    · rw [hstep.result]
      simp
  · intro id value hsent
    rcases List.mem_append.mp hsent with hsent | hsent
    · rcases hs.sent id value hsent with ⟨call, hid, hmem⟩
      exact ⟨call, hid, List.mem_append_left _ hmem⟩
    · rcases h.sent_inv (List.mem_singleton.mp hsent).symm rfl with hr | ⟨call, reply, hreply, heq⟩
      · exact absurd hr (hs.sending id value)
      · cases reply with
        | result value' =>
          rcases Frame.result.inj heq with ⟨rfl, rfl⟩
          exact ⟨call, rfl, List.mem_append_left _ (hs.replying call value hreply)⟩
        | error => exact absurd heq (by simp [Reply.frame])

/-! ## The result -/

theorem Runs.resultsReturned (h : Runs cfg ls s) : ResultsReturned ls s :=
  h.history (resultsReturned_start cfg) fun _ _ _ _ ht hstep => ht.step hstep

/-- In every run no id gets more responses than it had requests so far, a response frame is the
result a handler for the id has returned, or an error, and when `run` has returned every request
has got its response. -/
theorem one_response_per_request (cfg : Config) (ls : List Label) (s : Server)
    (h : Runs cfg ls s) :
    (∀ id, responses id ls ≤ requests id ls) ∧
    (∀ frame id, .sent frame ∈ ls → frame.answers = some id →
      (∃ code message, frame = .error id code message) ∨
        ∃ call value, frame = .result id value ∧ call.id = id ∧
          .handlerEnded call (.ok value) ∈ ls) ∧
    (s.reader = .returned → ∀ id, responses id ls = requests id ls) := by
  have hbalance := Runs.balance h
  refine ⟨?_, ?_, ?_⟩
  · intro id
    unfold responses requests
    rw [← hbalance, Multiset.count_add]
    exact Nat.le_add_right _ _
  · intro frame id hsent hid
    have hresults : ResultsReturned ls s :=
      h.history (resultsReturned_start cfg) fun _ _ _ _ ht hstep => ht.step hstep
    cases frame with
    | result id' value =>
      have hid' : id' = id := Option.some.inj hid
      subst hid'
      rcases hresults.sent id' value hsent with ⟨call, hcall, hmem⟩
      exact Or.inr ⟨call, value, rfl, hcall, hmem⟩
    | error id' code message =>
      have hid' : id' = id := Option.some.inj hid
      subst hid'
      exact Or.inl ⟨code, message, rfl⟩
    | errorNull => exact absurd hid (by simp [Frame.answers])
    | request => exact absurd hid (by simp [Frame.answers])
    | notification => exact absurd hid (by simp [Frame.answers])
  · intro hret id
    unfold responses requests
    -- when `run` has returned the pools are joined and hold nothing
    have howed : s.owed = 0 := Runs.held_of_returned h hret
    rw [← hbalance, howed, add_zero]

/-- A session with one request to a pool, up to the return of `run`. -/
lemma session_returns :
    Reaches (Step Session.config) (Server.start Session.config) fun ls s =>
      s.reader = .returned ∧ requests (.int 1) ls = 1 := by
  apply Reaches.run Session.runs_handshake
  apply Reaches.step (.reader rfl rfl (.read Session.hover.json.print rfl (by decide) rfl))
  apply Reaches.step (.reader rfl rfl (.insertToken rfl))
  apply Reaches.step (.reader rfl rfl (.submit rfl))
  apply Reaches.step (.reader rfl rfl (.endOfInput rfl (by decide)))
  apply Reaches.step (.reader rfl rfl (.stop rfl))
  apply Reaches.step (.worker .sync 0 rfl (.exit ⟨rfl, rfl⟩ rfl))
  apply Reaches.step (.reader rfl rfl (.joinSync rfl rfl))
  apply Reaches.step (.reader rfl rfl (.stop rfl))
  apply Reaches.step (.worker .worker 1 rfl (.take rfl rfl))
  apply Reaches.step (.worker .worker 0 rfl (.exit ⟨rfl, rfl⟩ rfl))
  apply Reaches.step (.worker .worker 1 rfl (.handler rfl (.start rfl)))
  apply Reaches.step (.worker .worker 1 rfl (.handler rfl (.returns .null)))
  apply Reaches.step (.worker .worker 1 rfl (.handlerFinishes rfl (.send rfl)))
  apply Reaches.step (.worker .worker 1 rfl (.eraseToken rfl))
  apply Reaches.step (.worker .worker 1 rfl (.exit ⟨rfl, rfl⟩ rfl))
  apply Reaches.step (.reader rfl rfl (.joinWorkers rfl rfl))
  exact Reaches.here ⟨rfl, rfl⟩

theorem one_response_per_request_session :
    Reaches (Step Session.config) (Server.start Session.config) fun ls s =>
      s.reader = .returned ∧ requests (.int 1) ls = 1 ∧ responses (.int 1) ls = 1 := by
  rcases session_returns with ⟨ls, s, hrun, hret, hasked⟩
  refine ⟨ls, s, hrun, hret, hasked, ?_⟩
  rw [(one_response_per_request Session.config ls s hrun).2.2 hret, hasked]

end CLSP
