import CLSP.Server.Responses

/-!
# Error codes

The codes of JSON-RPC and of the protocol are in two ranges. The rejections, the replies to
cancelled requests and the answers to malformed messages have such codes, and so has what a handler
throws as a `JsonRpcException`; `ErrorCodes::InternalError`, with which every other exception inside
`runRequestHandler` is answered, lacks its sign.
-/

namespace CLSP

open Transition (Run Reaches)

/-- A code of one of the reserved ranges. -/
def ErrorCodes.Reserved (code : ErrorCodes) : Prop :=
  -32768 ≤ code.value.toInt ∧ code.value.toInt ≤ -32000 ∨
    -32899 ≤ code.value.toInt ∧ code.value.toInt ≤ -32800

instance (code : ErrorCodes) : Decidable code.Reserved :=
  inferInstanceAs (Decidable (_ ∨ _))

/-- The code of an error frame. -/
def Frame.code : Frame → Option ErrorCodes
  | .error _ code _ => some code
  | .errorNull code _ => some code
  | _ => none

/-- An error frame has a reserved code. -/
def Frame.CodeReserved (frame : Frame) : Prop :=
  ∀ code, frame.code = some code → code.Reserved

/-- What a handler throws: `RequestCancelled`, or a `JsonRpcException` with a reserved code. -/
def Exn.CodeReserved : Exn → Prop
  | .requestCancelled => True
  | .jsonRpc code _ => code.Reserved
  | .std _ => False
  | .other => True

/-! ## Malformed messages and rejections -/

lemma classifyResponse_error {members : List (Bytes × Json)} {err : ParsedError}
    (h : classifyResponse members = .error err) : err.code = .InvalidRequest := by
  unfold classifyResponse invalidRequest at h
  split at h
  · rw [← ParsedMessage.error.inj h]
  · split at h
    · rw [← ParsedMessage.error.inj h]
    · split at h
      · exact absurd h (by simp)
      · exact absurd h (by simp)
      · rw [← ParsedMessage.error.inj h]

lemma classifyCall_error {method : Bytes} {members : List (Bytes × Json)} {err : ParsedError}
    (h : classifyCall method members = .error err) : err.code = .InvalidRequest := by
  unfold classifyCall invalidRequest at h
  split at h
  · split at h
    · exact absurd h (by simp)
    · rw [← ParsedMessage.error.inj h]
  · exact absurd h (by simp)

lemma classify_error {j : Json} {err : ParsedError} (h : classify j = .error err) :
    err.code = .InvalidRequest := by
  unfold classify at h
  split at h
  · split at h
    · split at h
      · split at h
        · exact classifyCall_error h
        · exact classifyResponse_error h
      · rw [← ParsedMessage.error.inj h]
    · rw [← ParsedMessage.error.inj h]
  · rw [← ParsedMessage.error.inj h]

/-- The codes `parseMessage` reports. -/
lemma reserved_of_parseMessage {nl : Nlohmann} {rawJson : Bytes} {err : ParsedError}
    (h : parseMessage nl rawJson = .ok (.error err)) : err.code.Reserved := by
  unfold parseMessage at h
  split at h
  · rw [classify_error (Except.ok.inj h)]
    decide
  · rw [← ParsedMessage.error.inj (Except.ok.inj h)]
    decide
  · exact absurd h (by simp)

/-- The codes of the rejections of `handleRequest`. -/
lemma handleRequest_sending {cfg : Config} {state_ : ServerState} {serial token : ℕ}
    {req : ParsedRequest} {frame : Frame}
    (h : handleRequest cfg state_ serial token req = .sending frame) : frame.CodeReserved := by
  unfold handleRequest at h
  have herror : ∀ {code : ErrorCodes} {message : Bytes}, code.Reserved →
      ReaderPc.sending (.error req.id code message) = .sending frame → frame.CodeReserved := by
    intro code message hcode heq code' hcode'
    rw [← ReaderPc.sending.inj heq] at hcode'
    rw [← Option.some.inj hcode']
    exact hcode
  split at h
  · exact herror (by decide) h
  split at h
  · exact herror (by decide) h
  split at h
  · exact herror (by decide) h
  split at h
  · exact herror (by decide) h
  · split at h <;> exact absurd h (by simp)

/-- What the read thread comes to send. -/
lemma dispatch_sending {cfg : Config} {state_ : ServerState} {serial token : ℕ}
    {msg : ParsedMessage} {frame : Frame}
    (h : (dispatch cfg state_ serial token msg).2 = .sending frame)
    (herr : ∀ err, msg = .error err → err.code.Reserved) : frame.CodeReserved := by
  cases msg with
  | request req => exact handleRequest_sending h
  | notification notif =>
    have houtcome := handleNotification_outcome cfg state_ serial notif
    have heq : (handleNotification cfg state_ serial notif).2 = .sending frame := h
    generalize handleNotification cfg state_ serial notif = next at houtcome heq
    cases houtcome <;> exact absurd heq (by simp)
  | response resp =>
    have houtcome := handleResponse_outcome resp
    have heq : handleResponse resp = .sending frame := h
    rw [heq] at houtcome
    cases houtcome
  | error err =>
    intro code hcode
    have heq : ReaderPc.sending (.errorNull err.code err.message) = .sending frame := h
    rw [← ReaderPc.sending.inj heq] at hcode
    rw [← Option.some.inj hcode]
    exact herr err rfl

/-! ## Handler runs -/

/-- A handler ends with a value that can be sent or with an exception of the two kinds. -/
def Label.CodeReserved (nl : Nlohmann) : Label → Prop
  | .handlerEnded call (.ok value) => ∃ text, (Frame.result call.id value).serialize nl = .ok text
  | .handlerEnded _ (.error e) => e.CodeReserved
  | _ => True

/-- The reply a handler run has come to has a reserved code if it is an error, and inside the `try`
it can be sent. -/
def HandlerPc.CodeReserved (nl : Nlohmann) (call : RequestCall) : HandlerPc → Prop
  | .responding reply caught => (reply.frame call.id).CodeReserved ∧
      (caught = false → ∃ text, (reply.frame call.id).serialize nl = .ok text)
  | _ => True

lemma Frame.codeReserved_result (id : RequestId) (value : Json) :
    (Frame.result id value).CodeReserved :=
  fun _ hcode => absurd hcode (by simp [Frame.code])

lemma Frame.codeReserved_error {code : ErrorCodes} (h : code.Reserved) (id : RequestId)
    (message : Bytes) : (Frame.error id code message).CodeReserved := by
  intro code' hcode
  rw [← Option.some.inj hcode]
  exact h

/-- The reply to an exception. -/
lemma Exn.CodeReserved.reply {e : Exn} (h : e.CodeReserved) {reply : Reply}
    (hreply : e.reply = some reply) (id : RequestId) : (reply.frame id).CodeReserved := by
  cases e with
  | requestCancelled =>
    rw [← Option.some.inj hreply]
    exact Frame.codeReserved_error (by decide) _ _
  | jsonRpc code what =>
    rw [← Option.some.inj hreply]
    exact Frame.codeReserved_error h _ _
  | std what => exact h.elim
  | other => exact absurd hreply (by simp [Exn.reply])

section Steps

variable {cfg : Config} {ls : List Label} {s s' : Server} {l : Label}

lemma HandlerStep.codeReserved {call : RequestCall} {flag : Bool} {pc pc' : HandlerPc}
    (h : HandlerStep cfg.nl call flag pc l (.next pc')) (hpc : pc.CodeReserved cfg.nl call)
    (hl : l.CodeReserved cfg.nl) (hnl : cfg.nl.Documented) (hid : call.id.ValidUtf8) :
    pc'.CodeReserved cfg.nl call := by
  cases h with
  | cancelled =>
    have hvalid : (Reply.cancelled.frame call.id).ValidUtf8 := ⟨hid, valid_str _⟩
    exact ⟨Frame.codeReserved_error (by decide) _ _, fun _ => hvalid.serialize hnl⟩
  | start => trivial
  | poll => trivial
  | returns value => exact ⟨Frame.codeReserved_result _ _, fun _ => hl⟩
  | throws hreply => exact ⟨hl.reply hreply _, by simp⟩
  | sendThrows hwhat =>
    -- nothing that `dump` refuses is sent inside the `try`
    rcases hpc.2 rfl with ⟨text, htext⟩
    rw [htext] at hwhat
    cases hwhat

/-- What is about to be sent and what has been sent. -/
structure CodesReserved (cfg : Config) (ls : List Label) (s : Server) : Prop where
  handling : ∀ call pc, s.Handles call pc → pc.CodeReserved cfg.nl call
  sending : ∀ frame, s.reader = .sending frame → frame.CodeReserved
  sent : ∀ frame, .sent frame ∈ ls → frame.CodeReserved

lemma codesReserved_start (cfg : Config) : CodesReserved cfg [] (Server.start cfg) := by
  refine ⟨?_, ?_, by simp⟩
  · intro call pc hhandles
    rcases hhandles with hr | ⟨e, hwork⟩
    · exact absurd hr (by simp [Server.start])
    · cases e <;> exact absurd hwork (ThreadPool.not_working_create _)
  · intro frame hr
    exact absurd hr (by simp [Server.start])

/-- Step lemma: no handler ends in another way. -/
lemma CodesReserved.step (hs : CodesReserved cfg ls s) (h : Step cfg s l s')
    (hl : l.CodeReserved cfg.nl) (hnl : cfg.nl.Documented)
    (hids : ∀ call ∈ s.calls, call.id.ValidUtf8) : CodesReserved cfg (ls ++ [l]) s' := by
  refine ⟨?_, ?_, ?_⟩
  · intro call pc hhandles
    rcases h.handles hhandles with hhandles | rfl | ⟨pc₀, hhandles, hstep⟩
    · exact hs.handling call pc hhandles
    · trivial
    · exact hstep.codeReserved (hs.handling call pc₀ hhandles) hl hnl
        (hids call hhandles.mem_calls)
  · intro frame hr
    have hother : (∀ m body msg, l ≠ .read m body msg) → frame.CodeReserved := fun hread =>
      hs.sending frame ((h.handling hread).1 frame hr)
    cases l with
    | read m body msg =>
      rcases h.read_inv with ⟨-, -, -, hparse, rfl⟩
      refine dispatch_sending hr ?_
      intro err herr
      rw [herr] at hparse
      exact reserved_of_parseMessage hparse
    | _ => exact hother (by simp)
  · intro frame hsent
    rcases List.mem_append.mp hsent with hsent | hsent
    · exact hs.sent frame hsent
    · rw [← List.mem_singleton.mp hsent] at h
      rcases h.sent_cases with hr | ⟨call, reply, caught, hhandles, rfl⟩ | hsender
      · exact hs.sending frame hr
      · exact (hs.handling _ _ hhandles).1
      · cases hsender <;> exact fun _ hcode => absurd hcode (by simp [Frame.code])

/-- Run lemma. -/
lemma Runs.codesReserved (h : Runs cfg ls s) (hnl : cfg.nl.Documented)
    (hls : ∀ l ∈ ls, l.CodeReserved cfg.nl) : CodesReserved cfg ls s := by
  induction h with
  | nil => exact codesReserved_start cfg
  | @snoc ls t u l hrun hstep ih =>
    have hbefore := ih fun l' hl' => hls l' (List.mem_append_left _ hl')
    exact hbefore.step hstep (hls l (by simp)) hnl
      fun call hcall => Runs.validUtf8_id hrun hnl hcall

end Steps

/-! ## The result -/

/-- **Error frames carry reserved codes** in every run in which no request handler ends with a plain
`std::exception` or returns a value that cannot be sent. -/
theorem error_codes_reserved (cfg : Config) (hnl : cfg.nl.Documented) (ls : List Label)
    (s : Server) (h : Runs cfg ls s)
    (hthrows : ∀ call e, .handlerEnded call (.error e) ∈ ls → e.CodeReserved)
    (hvalues : ∀ call value, .handlerEnded call (.ok value) ∈ ls →
      ∃ text, (Frame.result call.id value).serialize cfg.nl = .ok text) :
    ∀ frame, .sent frame ∈ ls → frame.CodeReserved := by
  have hls : ∀ l ∈ ls, l.CodeReserved cfg.nl := by
    intro l hl
    cases l with
    | handlerEnded call outcome =>
      cases outcome with
      | ok value => exact hvalues call value hl
      | error e => exact hthrows call e hl
    | _ => trivial
  exact (Runs.codesReserved h hnl hls).sent

/-- A session in which `onInitialize` throws. -/
def initializeThrows (e : Exn) (reply : Reply) : List Label :=
  [.read 0 Session.initializeRequest.json.print
      (.request { id := .int 0, method := str "initialize", params := .null }),
    .handlerStarted Session.initializeCall, .handlerEnded Session.initializeCall (.error e),
    .sent (reply.frame (.int 0))]

lemma runs_initializeThrows {e : Exn} {reply : Reply} (h : e.reply = some reply) :
    ∃ s, Runs Session.config (initializeThrows e reply) s := by
  have hread : Runs Session.config _ _ := Run.single
    (.reader rfl rfl (.read Session.initializeRequest.json.print rfl (by decide) rfl))
  have hstarted := hread.snoc (.reader rfl rfl (.handler ⟨none, none⟩ rfl (.start rfl)))
  have hended := hstarted.snoc (.reader rfl rfl (.handler ⟨none, none⟩ rfl (.throws h)))
  exact ⟨_, hended.snoc (.reader rfl rfl (.handlerFinishes rfl (.send rfl)))⟩

/-- It throws a `JsonRpcException`. -/
theorem error_codes_reserved_session :
    Reaches (Step Session.config) (Server.start Session.config) fun ls _ =>
      .sent (.error (.int 0) .RequestFailed (str "no workspace")) ∈ ls ∧
        ∀ frame, .sent frame ∈ ls → frame.CodeReserved := by
  rcases runs_initializeThrows (e := .jsonRpc .RequestFailed (str "no workspace")) rfl
    with ⟨s, hruns⟩
  refine ⟨_, s, hruns, by simp [initializeThrows, Reply.frame], ?_⟩
  refine error_codes_reserved Session.config Session.documented _ s hruns ?_ ?_
  · intro call e hmem
    simp only [initializeThrows, List.mem_cons, Label.handlerEnded.injEq, Except.error.injEq,
      reduceCtorEq, List.not_mem_nil, or_false, false_or] at hmem
    rw [hmem.2]
    show ErrorCodes.RequestFailed.Reserved
    decide
  · intro call value hmem
    simp [initializeThrows] at hmem

/-- What the handlers of a server may throw: the two kinds, and other `std::exception`s. -/
def Exn.Expected : Exn → Prop
  | .std _ => True
  | .other => False
  | e => e.CodeReserved

/-- It throws another `std::exception`, and the client gets the code 32603. -/
theorem session_sends_unreserved_code :
    ¬ ∀ ls s, Runs Session.config ls s →
      (∀ call e, .handlerEnded call (.error e) ∈ ls → e.Expected) →
      ∀ frame, .sent frame ∈ ls → frame.CodeReserved := by
  intro hreserved
  rcases runs_initializeThrows (e := .std (str "no workspace")) rfl with ⟨s, hruns⟩
  have hexpected : ∀ call e, .handlerEnded call (.error e) ∈ initializeThrows
      (.std (str "no workspace")) (.error .InternalError (str "no workspace")) → e.Expected := by
    intro call e hmem
    simp only [initializeThrows, List.mem_cons, Label.handlerEnded.injEq, Except.error.injEq,
      reduceCtorEq, List.not_mem_nil, or_false, false_or] at hmem
    rw [hmem.2]
    trivial
  have hcode : ErrorCodes.InternalError.Reserved :=
    hreserved _ s hruns hexpected (.error (.int 0) .InternalError (str "no workspace"))
      (by simp [initializeThrows, Reply.frame]) _ rfl
  exact absurd hcode (by decide)

end CLSP
