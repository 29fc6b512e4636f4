import CLSP.Lib.Transition
import CLSP.Rpc.Table
import CLSP.Server.Containment
import CLSP.Server.Silence
import CLSP.Server.Tasks

/-!
# The answer to one request

`runRequestHandler` on its own, from the test of the token to its end, and the task of the pool
around it. The `dump` of a result is inside the `try`, so an exception of it is answered; the `dump`
of an error is in a catch clause. What the reply to an outcome comes to (`answer`) is therefore a
frame exactly when the id, and the text of an exception that is put into the reply, can be printed.
-/

namespace CLSP

open Transition (Run)

/-! ## The two runs -/

/-- A step of `runRequestHandler`; other threads may have set the flag of its token. -/
inductive HandlerRunStep (nl : Nlohmann) (call : RequestCall) :
    Progress HandlerPc → Label → Progress HandlerPc → Prop
  | intro (flag : Bool) {pc : HandlerPc} {l : Label} {p : Progress HandlerPc} :
      HandlerStep nl call flag pc l p → HandlerRunStep nl call (.next pc) l p

abbrev HandlerRuns (nl : Nlohmann) (call : RequestCall) (ls : List Label)
    (p : Progress HandlerPc) : Prop :=
  Run (HandlerRunStep nl call) (.next .checking) ls p

/-- A step of the task that `handleRequest` submits: `runRequestHandler`, and then the erase. -/
inductive RequestTaskStep (nl : Nlohmann) (call : RequestCall) :
    Progress Running → Label → Progress Running → Prop
  | handler {pc pc' : HandlerPc} {l : Label} :
      HandlerRunStep nl call (.next pc) l (.next pc') →
      RequestTaskStep nl call (.next (.request call pc)) l (.next (.request call pc'))
  | handlerFinishes {pc : HandlerPc} {l : Label} :
      HandlerRunStep nl call (.next pc) l .finished →
      RequestTaskStep nl call (.next (.request call pc)) l (.next (.erasing call))
  | handlerEscapes {pc : HandlerPc} {l : Label} :
      HandlerRunStep nl call (.next pc) l .escaped →
      RequestTaskStep nl call (.next (.request call pc)) l .escaped
  | eraseToken : RequestTaskStep nl call (.next (.erasing call)) (.tokenErased call) .finished

abbrev RequestTaskRuns (nl : Nlohmann) (call : RequestCall) (ls : List Label)
    (p : Progress Running) : Prop :=
  Run (RequestTaskStep nl call) (.next (.request call .checking)) ls p

/-- What is expected when the handler of a request has ended with an outcome: no exception leaves
`runRequestHandler` or its task, both come to an end, and then one frame has been sent, with the
id of the request, and the task has performed its erase. -/
structure AnsweredOnce (nl : Nlohmann) (call : RequestCall) (outcome : Except Exn Json) : Prop where
  contained : ∀ ls p, HandlerRuns nl call ls p → .handlerEnded call outcome ∈ ls →
    p ≠ .escaped ∧ ∃ ms, Run (HandlerRunStep nl call) p ms .finished
  answered : ∀ ls, HandlerRuns nl call ls .finished → .handlerEnded call outcome ∈ ls →
    ∃ frame, framesOf ls = [frame] ∧ frame.answers = some call.id
  taskContained : ∀ ls p, RequestTaskRuns nl call ls p → .handlerEnded call outcome ∈ ls →
    p ≠ .escaped ∧ ∃ ms, Run (RequestTaskStep nl call) p ms .finished
  erased : ∀ ls, RequestTaskRuns nl call ls .finished → .handlerEnded call outcome ∈ ls →
    .tokenErased call ∈ ls ∧ ∃ frame, framesOf ls = [frame] ∧ frame.answers = some call.id

/-! ## What a reply comes to -/

/-- The frame that is sent for a reply in a catch clause, if one is. -/
def answerCaught (nl : Nlohmann) (id : RequestId) (reply : Reply) : Option Frame :=
  match (reply.frame id).serialize nl with
  | .ok _ => some (reply.frame id)
  | .error _ => none

/-- The frame that is sent for a reply: inside the `try` an exception of `dump` is caught. -/
def answer (nl : Nlohmann) (id : RequestId) (reply : Reply) (caught : Bool) : Option Frame :=
  match (reply.frame id).serialize nl with
  | .ok _ => some (reply.frame id)
  | .error what => if caught then none else answerCaught nl id (.error .InternalError what)

/-- The reply to an outcome, and whether it is made in a catch clause. -/
def outcomeReply : Except Exn Json → Option (Reply × Bool)
  | .ok value => some (.result value, false)
  | .error e => e.reply.map fun reply => (reply, true)

/-- The text that an exception puts into its reply can be printed. -/
def OutcomePrintable : Except Exn Json → Prop
  | .ok _ => True
  | .error e => e.Printable

/-- The frame that is sent for an outcome. -/
def outcomeAnswer (nl : Nlohmann) (id : RequestId) (outcome : Except Exn Json) : Option Frame :=
  (outcomeReply outcome).bind fun reply => answer nl id reply.1 reply.2

section Answer

variable {nl : Nlohmann} {id : RequestId} {reply : Reply} {caught : Bool} {frame : Frame}
  {outcome : Except Exn Json}

lemma answer_caught : answer nl id reply true = answerCaught nl id reply := by
  unfold answer answerCaught
  split <;> rfl

lemma answer_of_ok {text : Bytes} (h : (reply.frame id).serialize nl = .ok text) :
    answer nl id reply caught = some (reply.frame id) := by
  unfold answer
  rw [h]

lemma answer_of_error {what : Bytes} (h : (reply.frame id).serialize nl = .error what) :
    answer nl id reply caught =
      if caught then none else answer nl id (.error .InternalError what) true := by
  rw [answer_caught]
  unfold answer
  rw [h]

lemma answers_of_answer (h : answer nl id reply caught = some frame) :
    frame.answers = some id := by
  have hframe : ∀ {reply' : Reply}, some (reply'.frame id) = some frame →
      frame.answers = some id := by
    intro reply' heq
    rw [← Option.some.inj heq]
    exact Reply.answers_frame id reply'
  rcases hdump : (reply.frame id).serialize nl with what | text
  · rw [answer_of_error hdump] at h
    cases caught with
    | true => exact absurd h (by simp)
    | false =>
      -- the text of the exception is the reply then
      rcases hdump' : (Reply.frame id (.error .InternalError what)).serialize nl with what' | text
      · rw [if_neg (by simp), answer_of_error hdump'] at h
        exact absurd h (by simp)
      · rw [if_neg (by simp), answer_of_ok hdump'] at h
        exact hframe h
  · rw [answer_of_ok hdump] at h
    exact hframe h

lemma serialize_iff (hnl : nl.Documented) (hstrict : nl.Strict) (frame : Frame) :
    (∃ text, frame.serialize nl = .ok text) ↔ frame.json.ValidUtf8 := by
  constructor
  · intro h
    rcases h with ⟨text, htext⟩
    by_contra hvalid
    rcases hstrict _ hvalid with ⟨what, hwhat⟩
    exact absurd (htext.symm.trans hwhat) (by simp)
  · exact hnl.dump_valid _

/-- The text or the value of a reply can be printed. -/
def Reply.Printable : Reply → Prop
  | .result value => value.ValidUtf8
  | .error _ message => Utf8.Valid message

lemma validUtf8_idToJson : (idToJson id).ValidUtf8 ↔ id.ValidUtf8 := by
  cases id <;> exact Iff.rfl

lemma Reply.validUtf8_json :
    (reply.frame id).json.ValidUtf8 ↔ id.ValidUtf8 ∧ reply.Printable := by
  cases reply with
  | result value =>
    constructor
    · intro h
      have hmembers : Json.MembersValidUtf8 [(str "id", idToJson id),
          (str "jsonrpc", .string JSONRPC_VERSION), (str "result", value)] := h
      exact ⟨validUtf8_idToJson.mp hmembers.2.1, hmembers.2.2.2.2.2.1⟩
    · intro h
      have hframe : (Frame.result id value).ValidUtf8 := h
      exact hframe.json
  | error code message =>
    constructor
    · intro h
      have hmembers : Json.MembersValidUtf8 [(str "error", Frame.errorObject code message),
          (str "id", idToJson id), (str "jsonrpc", .string JSONRPC_VERSION)] := h
      have herror : Json.MembersValidUtf8 [(str "code", .integer code.value.toInt),
          (str "message", .string message)] := hmembers.2.1
      exact ⟨validUtf8_idToJson.mp hmembers.2.2.2.1, herror.2.2.2.1⟩
    · intro h
      have hframe : (Frame.error id code message).ValidUtf8 := h
      exact hframe.json

/-- In a catch clause a frame is sent when the reply can be printed. -/
lemma answer_true_iff (hnl : nl.Documented) (hstrict : nl.Strict) :
    (∃ frame, answer nl id reply true = some frame) ↔ id.ValidUtf8 ∧ reply.Printable := by
  rw [← Reply.validUtf8_json, ← serialize_iff hnl hstrict]
  rcases hdump : (reply.frame id).serialize nl with what | text
  · rw [answer_of_error hdump]
    simp
  · rw [answer_of_ok hdump]
    simp

/-- Inside the `try` one is sent when the id can be. -/
lemma answer_false_iff (hnl : nl.Documented) (hstrict : nl.Strict) :
    (∃ frame, answer nl id reply false = some frame) ↔ id.ValidUtf8 := by
  rcases hdump : (reply.frame id).serialize nl with what | text
  · rw [answer_of_error hdump, if_neg (by simp), answer_true_iff hnl hstrict]
    -- the text of an exception of `dump` can be printed
    have hwhat : Utf8.Valid what := hnl.what_valid _ _ hdump
    exact ⟨fun h => h.1, fun h => ⟨h, hwhat⟩⟩
  · have hvalid := (serialize_iff hnl hstrict _).mp ⟨text, hdump⟩
    rw [answer_of_ok hdump]
    simp [(Reply.validUtf8_json.mp hvalid).1]

/-- When an outcome is answered. -/
theorem outcomeAnswer_iff (hnl : nl.Documented) (hstrict : nl.Strict) :
    (∃ frame, outcomeAnswer nl id outcome = some frame) ↔
      id.ValidUtf8 ∧ OutcomePrintable outcome := by
  cases outcome with
  | ok value =>
    have h : (∃ frame, answer nl id (.result value) false = some frame) ↔ id.ValidUtf8 :=
      answer_false_iff hnl hstrict
    exact h.trans (and_iff_left trivial).symm
  | error e =>
    cases e with
    | requestCancelled =>
      have h : (∃ frame, answer nl id .cancelled true = some frame) ↔ _ :=
        answer_true_iff hnl hstrict
      exact h.trans (and_congr_right fun _ => iff_of_true (valid_str _) trivial)
    | jsonRpc code what => exact answer_true_iff hnl hstrict
    | std what => exact answer_true_iff hnl hstrict
    | other => simp [outcomeAnswer, outcomeReply, Exn.reply, OutcomePrintable, Exn.Printable]

end Answer

/-! ## The run of a handler -/

section Runs

variable {nl : Nlohmann} {call : RequestCall} {outcome : Except Exn Json} {ls ks : List Label}
  {p p' : Progress HandlerPc} {l : Label}

/-- The frame that a step sends. -/
def Label.frame? : Label → Option Frame
  | .sent frame => some frame
  | _ => none

@[simp] lemma framesOf_snoc (ls : List Label) (l : Label) :
    framesOf (ls ++ [l]) = framesOf ls ++ l.frame?.toList := by
  unfold framesOf
  rw [List.filterMap_append]
  cases l <;> rfl

/-- Where a run is after its handler has ended, when `a` is what is sent for the outcome. -/
def Settled (nl : Nlohmann) (call : RequestCall) (a : Option Frame) (ks : List Label) :
    Progress HandlerPc → Prop
  | .next (.responding reply caught) => framesOf ks = [] ∧ answer nl call.id reply caught = a
  | .next _ => False
  | .finished => ∃ frame, framesOf ks = [frame] ∧ a = some frame
  | .escaped => a = none

lemma Settled.step {a : Option Frame} (h : Settled nl call a ks p)
    (hstep : HandlerRunStep nl call p l p') : Settled nl call a (ks ++ [l]) p' := by
  cases hstep with
  | intro flag hstep =>
    cases hstep with
    | send hdump =>
      rw [Settled, answer_of_ok hdump] at h
      exact ⟨_, by simp [h.1, Label.frame?], h.2.symm⟩
    | sendThrows hdump =>
      rw [Settled, answer_of_error hdump] at h
      exact ⟨by simp [h.1, Label.frame?], h.2⟩
    | sendEscapes hdump =>
      rw [Settled, answer_of_error hdump] at h
      exact h.2.symm
    | _ => exact absurd h (by simp [Settled])

/-- Where a run is at all: before the end of its handler no frame has been sent. -/
structure Traced (nl : Nlohmann) (call : RequestCall) (outcome : Except Exn Json)
    (ks : List Label) (p : Progress HandlerPc) : Prop where
  before : p = .next .checking ∨ p = .next .running →
    framesOf ks = [] ∧ .handlerEnded call outcome ∉ ks
  after : .handlerEnded call outcome ∈ ks →
    Settled nl call (outcomeAnswer nl call.id outcome) ks p

/-- A run whose handler has just ended. -/
lemma Traced.ended {o : Except Exn Json} (h : Traced nl call outcome ks (.next .running))
    (hp : p ≠ .next .checking ∧ p ≠ .next .running)
    (hsettled : framesOf ks = [] →
      Settled nl call (outcomeAnswer nl call.id o) (ks ++ [.handlerEnded call o]) p) :
    Traced nl call outcome (ks ++ [.handlerEnded call o]) p where
  before hpc := by
    rcases hpc with hpc | hpc
    · exact absurd hpc hp.1
    · exact absurd hpc hp.2
  after hmem := by
    rcases h.before (Or.inr rfl) with ⟨hframes, hnot⟩
    rcases List.mem_append.mp hmem with hmem | hmem
    · exact absurd hmem hnot
    · have ho : outcome = o := (Label.handlerEnded.inj (List.mem_singleton.mp hmem)).2
      subst ho
      exact hsettled hframes

lemma Traced.step (h : Traced nl call outcome ks p) (hstep : HandlerRunStep nl call p l p') :
    Traced nl call outcome (ks ++ [l]) p' := by
  -- a step that does not end the handler, from a run that has not, or has
  have hafter : (∀ o, l ≠ .handlerEnded call o) → .handlerEnded call outcome ∈ ks ++ [l] →
      Settled nl call (outcomeAnswer nl call.id outcome) (ks ++ [l]) p' := by
    intro hl hmem
    rcases List.mem_append.mp hmem with hmem | hmem
    · exact (h.after hmem).step hstep
    · exact absurd (List.mem_singleton.mp hmem).symm (hl outcome)
  cases hstep with
  | intro flag hstep =>
    cases hstep with
    | start =>
      have hbefore := h.before (Or.inl rfl)
      exact ⟨fun _ => ⟨by simp [hbefore.1, Label.frame?], by simp [hbefore.2]⟩, hafter (by simp)⟩
    | poll =>
      have hbefore := h.before (Or.inr rfl)
      exact ⟨fun _ => ⟨by simp [hbefore.1, Label.frame?], by simp [hbefore.2]⟩, hafter (by simp)⟩
    | returns value => exact h.ended (by simp) fun hframes => ⟨by simp [hframes, Label.frame?], rfl⟩
    | throws hreply =>
      refine h.ended (by simp) fun hframes => ⟨by simp [hframes, Label.frame?], ?_⟩
      simp [outcomeAnswer, outcomeReply, hreply]
    | escapes hreply =>
      refine h.ended (by simp) fun _ => ?_
      simp [Settled, outcomeAnswer, outcomeReply, hreply]
    | cancelled | send | sendThrows | sendEscapes => exact ⟨by simp, hafter (by simp)⟩

/-- After its handler has ended a run is about to send what is sent for the outcome, or has sent
it. -/
theorem HandlerRuns.settled (h : HandlerRuns nl call ls p)
    (hended : .handlerEnded call outcome ∈ ls) :
    Settled nl call (outcomeAnswer nl call.id outcome) ls p := by
  have htraced : Traced nl call outcome ls p := by
    apply h.history (I := Traced nl call outcome)
    · exact ⟨fun _ => ⟨rfl, by simp⟩, by simp⟩
    · intro ks t l u ht hstep
      exact ht.step hstep
  exact htraced.after hended

/-- A reply is sent, or an exception leaves the run. -/
lemma runs_of_responding (nl : Nlohmann) (call : RequestCall) (reply : Reply) (caught : Bool) :
    ∃ ms, Run (HandlerRunStep nl call) (.next (.responding reply caught)) ms
      (if (answer nl call.id reply caught).isSome then .finished else .escaped) := by
  have hcaught : ∀ reply, ∃ ms, Run (HandlerRunStep nl call) (.next (.responding reply true)) ms
      (if (answer nl call.id reply true).isSome then .finished else .escaped) := by
    intro reply
    rcases hdump : (reply.frame call.id).serialize nl with what | text
    · rw [answer_of_error hdump]
      exact ⟨_, Run.single (.intro false (.sendEscapes hdump))⟩
    · rw [answer_of_ok hdump]
      exact ⟨_, Run.single (.intro false (.send hdump))⟩
  cases caught with
  | true => exact hcaught reply
  | false =>
    rcases hdump : (reply.frame call.id).serialize nl with what | text
    · rw [answer_of_error hdump]
      rcases hcaught (.error .InternalError what) with ⟨ms, hrun⟩
      exact ⟨_, hrun.cons (.intro false (.sendThrows hdump))⟩
    · rw [answer_of_ok hdump]
      exact ⟨_, Run.single (.intro false (.send hdump))⟩

lemma Settled.finishes {frame : Frame} (h : Settled nl call (some frame) ks p) :
    p ≠ .escaped ∧ ∃ ms, Run (HandlerRunStep nl call) p ms .finished := by
  cases p with
  | finished => exact ⟨by simp, [], .nil⟩
  | escaped => exact absurd h (by simp [Settled])
  | next pc =>
    cases pc with
    | responding reply caught =>
      have hruns := runs_of_responding nl call reply caught
      rw [h.2] at hruns
      exact ⟨by simp, hruns⟩
    | _ => exact absurd h (by simp [Settled])

/-- The handler of any request can end with any outcome, and what is not answered escapes. -/
lemma exists_run_escaped (h : outcomeAnswer nl call.id outcome = none) :
    ∃ ls, .handlerEnded call outcome ∈ ls ∧ HandlerRuns nl call ls .escaped := by
  have hstart : HandlerRunStep nl call (.next .checking) (.handlerStarted call) (.next .running) :=
    .intro false (.start rfl)
  -- the end of the handler and what follows it
  have hend : ∃ ms, Run (HandlerRunStep nl call) (.next .running)
      (.handlerEnded call outcome :: ms) .escaped := by
    cases outcome with
    | ok value =>
      have hnone : answer nl call.id (.result value) false = none := h
      have hruns := runs_of_responding nl call (.result value) false
      rw [hnone] at hruns
      rcases hruns with ⟨ms, hrun⟩
      exact ⟨ms, hrun.cons (.intro false (.returns value))⟩
    | error e =>
      rcases hreply : e.reply with _ | reply
      · exact ⟨[], Run.single (.intro false (.escapes hreply))⟩
      · have hnone : answer nl call.id reply true = none := by
          simpa [outcomeAnswer, outcomeReply, hreply] using h
        have hruns := runs_of_responding nl call reply true
        rw [hnone] at hruns
        rcases hruns with ⟨ms, hrun⟩
        exact ⟨ms, hrun.cons (.intro false (.throws hreply))⟩
  rcases hend with ⟨ms, hrun⟩
  exact ⟨_, by simp, hrun.cons hstart⟩

/-! ## The run of a task -/

section Tasks

variable {q q' : Progress Running}

/-- Where the handler run is that a task contains. -/
def Contains (nl : Nlohmann) (call : RequestCall) (ks : List Label) : Progress Running → Prop
  | .next (.request call' pc) => call' = call ∧ HandlerRuns nl call ks (.next pc)
  | .next (.erasing call') => call' = call ∧ HandlerRuns nl call ks .finished
  | .next _ => False
  | .finished => ∃ ms, ks = ms ++ [.tokenErased call] ∧ HandlerRuns nl call ms .finished
  | .escaped => HandlerRuns nl call ks .escaped

lemma RequestTaskRuns.contains (h : RequestTaskRuns nl call ls q) : Contains nl call ls q := by
  apply h.history (I := Contains nl call)
  · exact ⟨rfl, .nil⟩
  · intro ks t l u ht hstep
    cases hstep with
    | handler hstep => exact ⟨rfl, ht.2.snoc hstep⟩
    | handlerFinishes hstep => exact ⟨rfl, ht.2.snoc hstep⟩
    | handlerEscapes hstep => exact ht.2.snoc hstep
    | eraseToken => exact ⟨ks, rfl, ht.2⟩

/-- A handler run in its task. -/
def inTask (call : RequestCall) : Progress HandlerPc → Progress Running
  | .next pc => .next (.request call pc)
  | .finished => .next (.erasing call)
  | .escaped => .escaped

lemma RequestTaskStep.of_handler (h : HandlerRunStep nl call p l p') :
    RequestTaskStep nl call (inTask call p) l (inTask call p') := by
  cases h with
  | intro flag hstep =>
    cases p' with
    | next pc => exact .handler (.intro flag hstep)
    | finished => exact .handlerFinishes (.intro flag hstep)
    | escaped => exact .handlerEscapes (.intro flag hstep)

lemma RequestTaskRuns.of_handler (h : Run (HandlerRunStep nl call) p ls p') :
    Run (RequestTaskStep nl call) (inTask call p) ls (inTask call p') :=
  h.map (inTask call) fun _ _ _ hstep => RequestTaskStep.of_handler hstep

/-- A task whose handler run finishes erases its token and finishes. -/
lemma RequestTaskRuns.finishes (h : Run (HandlerRunStep nl call) p ls .finished) :
    Run (RequestTaskStep nl call) (inTask call p) (ls ++ [.tokenErased call]) .finished :=
  (RequestTaskRuns.of_handler h).snoc .eraseToken

/-- A worker that has a request takes a step of its task. The erase is one of the table, and an
exception that leaves the task ends the process. -/
theorem WorkerStep.requestTask {cfg : Config} {e : Executor} {w : ℕ} {s s' : Server}
    {running : Running} (h : WorkerStep cfg e w s l s')
    (hw : (s.pool e).workers_[w]? = some (.busy running)) (htask : running.task = .request call) :
    ∃ q, RequestTaskStep cfg.nl call (.next running) l q ∧
      match q with
      | .next running' => (s'.pool e).workers_[w]? = some (.busy running')
      | .finished => s'.cancellationTokens_ = s.cancellationTokens_.erase call.id
      | .escaped => s'.terminated = true := by
  have hlt : w < (s.pool e).workers_.length := (List.getElem?_eq_some_iff.mp hw).1
  have hsame : ∀ {running' : Running}, (s.pool e).workers_[w]? = some (.busy running') →
      running = running' := by
    intro running' hw'
    exact Worker.busy.inj (Option.some.inj (hw.symm.trans hw'))
  cases h with
  | take _ hidle | exit _ hidle => exact absurd (hw.symm.trans hidle) (by simp)
  | handler hw' hstep =>
    obtain rfl := hsame hw'
    obtain rfl := Task.request.inj htask
    refine ⟨_, .handler (.intro _ hstep), ?_⟩
    rw [Server.pool_setPool]
    exact List.getElem?_set_self hlt
  | handlerFinishes hw' hstep =>
    obtain rfl := hsame hw'
    obtain rfl := Task.request.inj htask
    refine ⟨_, .handlerFinishes (.intro _ hstep), ?_⟩
    rw [Server.pool_setPool]
    exact List.getElem?_set_self hlt
  | handlerEscapes hw' hstep =>
    obtain rfl := hsame hw'
    obtain rfl := Task.request.inj htask
    exact ⟨_, .handlerEscapes (.intro _ hstep), rfl⟩
  | eraseToken hw' =>
    obtain rfl := hsame hw'
    obtain rfl := Task.request.inj htask
    exact ⟨_, .eraseToken, rfl⟩
  | notification hw' | notificationFinishes hw' | notificationEscapes hw' | invoke hw'
  | callbackFinishes hw' | callbackEscapes hw' =>
    obtain rfl := hsame hw'
    exact absurd htask (by simp [Running.task])

end Tasks

end Runs

/-! ## The result -/

section Result

variable {nl : Nlohmann} {call : RequestCall} {outcome : Except Exn Json}

lemma answeredOnce_of_answer {frame : Frame}
    (h : outcomeAnswer nl call.id outcome = some frame) : AnsweredOnce nl call outcome := by
  have hframe : frame.answers = some call.id := by
    rcases Option.bind_eq_some_iff.mp h with ⟨reply, -, hanswer⟩
    exact answers_of_answer hanswer
  have hsettled : ∀ {ls p}, HandlerRuns nl call ls p → .handlerEnded call outcome ∈ ls →
      Settled nl call (some frame) ls p := by
    intro ls p hrun hended
    rw [← h]
    exact hrun.settled hended
  have hsent : ∀ {ls}, HandlerRuns nl call ls .finished → .handlerEnded call outcome ∈ ls →
      framesOf ls = [frame] := by
    intro ls hrun hended
    rcases hsettled hrun hended with ⟨frame', hframes, heq⟩
    rw [hframes, Option.some.inj heq]
  refine ⟨?_, ?_, ?_, ?_⟩
  · intro ls p hrun hended
    exact (hsettled hrun hended).finishes
  · intro ls hrun hended
    exact ⟨frame, hsent hrun hended, hframe⟩
  · intro ls q hrun hended
    have hcontains := hrun.contains
    cases q with
    | escaped => exact absurd rfl (hsettled hcontains hended).finishes.1
    | finished => exact ⟨by simp, [], .nil⟩
    | next running =>
      refine ⟨by simp, ?_⟩
      cases running with
      | request call' pc =>
        rcases hcontains with ⟨rfl, hhandler⟩
        rcases (hsettled hhandler hended).finishes with ⟨-, ms, hms⟩
        exact ⟨_, RequestTaskRuns.finishes hms⟩
      | erasing call' =>
        rcases hcontains with ⟨rfl, -⟩
        exact ⟨_, Run.single .eraseToken⟩
      | _ => exact absurd hcontains id
  · intro ls hrun hended
    rcases hrun.contains with ⟨ms, rfl, hhandler⟩
    have hended' : .handlerEnded call outcome ∈ ms := by simpa using hended
    refine ⟨by simp, frame, ?_, hframe⟩
    simp [hsent hhandler hended', Label.frame?]

lemma not_answeredOnce_of_none (h : outcomeAnswer nl call.id outcome = none) :
    ¬ AnsweredOnce nl call outcome := by
  intro hanswered
  rcases exists_run_escaped h with ⟨ls, hended, hrun⟩
  exact (hanswered.contained ls .escaped hrun hended).1 rfl

/-- A handler's outcome is answered once exactly when the id of the request and the text that an
exception puts into the reply are valid UTF-8. -/
theorem answeredOnce_iff (nl : Nlohmann) (hnl : nl.Documented) (hstrict : nl.Strict)
    (call : RequestCall) (outcome : Except Exn Json) :
    AnsweredOnce nl call outcome ↔ call.id.ValidUtf8 ∧ OutcomePrintable outcome := by
  rw [← outcomeAnswer_iff hnl hstrict]
  constructor
  · intro hanswered
    rcases h : outcomeAnswer nl call.id outcome with _ | frame
    · exact absurd hanswered (not_answeredOnce_of_none h)
    · exact ⟨frame, rfl⟩
  · intro h
    rcases h with ⟨frame, hframe⟩
    exact answeredOnce_of_answer hframe

namespace Session

/-- The library of the session with a `dump` that refuses what is not valid. -/
def strictLibrary : Nlohmann := config.nl.strict

def hoverCall : RequestCall :=
  { serial := 1, id := .int 1, method := str "hover", params := .null, handler := .user,
    token := 1 }

end Session

/-- A handler that returns a string which is not valid UTF-8. -/
theorem answeredOnce_sample :
    AnsweredOnce Session.strictLibrary Session.hoverCall (.ok (.string [0xFF])) :=
  (answeredOnce_iff Session.strictLibrary Session.documented.strict (Nlohmann.strict_strict _)
    Session.hoverCall (.ok (.string [0xFF]))).mpr ⟨trivial, trivial⟩

/-- A handler that throws an exception with such a text. -/
theorem not_answeredOnce :
    ¬ AnsweredOnce Session.strictLibrary Session.hoverCall (.error (.std [0xFF])) := by
  apply not_answeredOnce_of_none
  have hvalid : ¬ (Reply.frame (.int 1) (.error .InternalError [0xFF])).json.ValidUtf8 := by
    intro h
    exact Utf8.not_valid_of_leadSize (by decide) [] (Reply.validUtf8_json.mp h).2
  rcases Nlohmann.strict_strict Session.config.nl _ hvalid with ⟨what, hwhat⟩
  have hdump : (Reply.frame (.int 1) (.error .InternalError [0xFF])).serialize
      Session.strictLibrary = .error what := hwhat
  have hnone : answer Session.strictLibrary (.int 1) (.error .InternalError [0xFF]) true = none :=
    answer_of_error hdump
  exact hnone

end Result

end CLSP
