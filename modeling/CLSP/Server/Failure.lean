import CLSP.Server.Startup

/-!
# Lifecycle requests that fail

The handlers of `initialize` and `shutdown` set the state when they start, before the params are
decoded and the hook is called, and `runRequestHandler` answers an exception of theirs without
setting it back. So an answer that is an error leaves the lifecycle as it was exactly if
`handleRequest` has refused the request.
-/

namespace CLSP

open Transition (Run Reaches)

/-- What the lifecycle requests may set: `state_`, `shutdownRequested_`, `syncKind_` and the
position encoding of the documents. -/
def Server.lifecycle (s : Server) : ServerState × Bool × TextDocumentSyncKind × PositionEncoding :=
  (s.state_, s.shutdownRequested_, s.syncKind_, s.documents_.encoding_)

/-- The read thread neither has a message nor runs anything. -/
def ReaderPc.Waits : ReaderPc → Prop
  | .loop => True
  | .stopping _ => True
  | .joining _ => True
  | .returned => True
  | _ => False

/-- Where the read thread is with a request that it refuses. -/
inductive Refusing (frame : Frame) (before : ServerState × Bool × TextDocumentSyncKind ×
    PositionEncoding) (s : Server) : Prop
  | sending : s.reader = .sending frame → s.lifecycle = before → Refusing frame before s
  | done : s.reader.Waits → Refusing frame before s

/-- Where the read thread is with a lifecycle request whose handler it calls. -/
inductive Serving (call : RequestCall) (before : ServerState) (s : Server) : Prop
  | checking : s.reader = .inline call .checking → s.state_ = before → Serving call before s
  | started {pc : HandlerPc} : s.reader = .inline call pc → pc ≠ .checking →
      s.state_ = call.handler.starts before → Serving call before s
  | done : s.reader.Waits → Serving call before s

section Steps

variable {cfg : Config} {ls : List Label} {s s' : Server} {l : Label}

/-- The other threads do not touch the lifecycle. -/
lemma WorkerStep.lifecycle {e : Executor} {w : ℕ} (h : WorkerStep cfg e w s l s') :
    s'.lifecycle = s.lifecycle := by
  have hkind : s'.syncKind_ = s.syncKind_ := by
    cases h <;> simp
  rcases h.control with ⟨-, -, -, hstate, hshutdown, -⟩
  unfold Server.lifecycle
  rw [hstate, hshutdown, hkind, h.encoding]

lemma SenderStep.lifecycle (h : SenderStep cfg s l s') : s'.lifecycle = s.lifecycle := by
  rcases h.frame with ⟨_, _, _, rfl⟩
  rfl

/-- A read thread that reads nothing goes on waiting, and sends nothing. -/
lemma ReaderStep.waits (h : ReaderStep cfg s l s') (hwaits : s.reader.Waits)
    (hl : l.message? = none) : s'.reader.Waits ∧ ∀ frame, l ≠ .sent frame := by
  cases h with
  | read => exact absurd hl (by simp [Label.message?])
  | parseThrows => exact ⟨hwaits, by simp⟩
  | endOfInput | leave | stop | joinSync | joinWorkers => exact ⟨trivial, by simp⟩
  | send hr | sendThrows hr | handler _ hr | handlerFinishes hr | handlerEscapes hr
  | insertToken hr | submit hr | cancel hr | notified hr | notifyEscapes hr | exited hr
  | exitThrows _ hr | unmatched hr | matched hr =>
    rw [hr] at hwaits
    exact absurd hwaits id

lemma Refusing.step {frame : Frame}
    {before : ServerState × Bool × TextDocumentSyncKind × PositionEncoding}
    (hs : Refusing frame before s) (h : Step cfg s l s') (hl : l.message? = none) :
    Refusing frame before s' := by
  cases h with
  | reader _ _ h =>
    cases hs with
    | done hwaits => exact .done (h.waits hwaits hl).1
    | sending hr hbefore =>
      rcases h.sending_inv hr with ⟨-, -, rfl⟩ | ⟨-, -, rfl⟩
      · exact .done trivial
      · exact .sending hr hbefore
  | worker _ _ _ h =>
    cases hs with
    | sending hr hbefore => exact .sending (h.control.1.trans hr) (h.lifecycle.trans hbefore)
    | done hwaits => exact .done (h.control.1 ▸ hwaits)
  | sender _ h =>
    have hlifecycle := h.lifecycle
    rcases h.frame with ⟨_, _, _, rfl⟩
    cases hs with
    | sending hr hbefore => exact .sending hr (hlifecycle.trans hbefore)
    | done hwaits => exact .done hwaits

lemma Serving.step (hkept : cfg.LifecycleKept) (hrun : Runs cfg ls s) {call : RequestCall}
    {before : ServerState} (hs : Serving call before s) (h : Step cfg s l s')
    (hl : l.message? = none) : Serving call before s' := by
  cases h with
  | reader _ _ h =>
    cases hs with
    | done hwaits => exact .done (h.waits hwaits hl).1
    | checking hr hbefore =>
      rcases h.inline_inv hr with ⟨r, hstep, hs'⟩
      have hflag := ((Runs.lifecycle hkept hrun).starting call hr).2.2.2.2
      cases hstep with
      | cancelled htrue => exact absurd (hflag.symm.trans htrue) (by simp)
      | start =>
        rcases hs' with ⟨capabilities, rfl⟩
        refine .started rfl (by simp) ?_
        rw [← hbefore]
        exact s.state_lifecycleStarts call.handler
    | started hr hpc hstate =>
      rcases h.inline_inv hr with ⟨r, hstep, hs'⟩
      cases hstep with
      | cancelled | start => exact absurd rfl hpc
      | returns value =>
        rcases hs' with ⟨capabilities, rfl⟩
        refine .started rfl (by simp) ?_
        exact (s.state_lifecycleReturns capabilities call.handler).trans hstate
      | poll | throws | sendThrows =>
        rcases hs' with ⟨capabilities, rfl⟩
        exact .started rfl (by simp) hstate
      | send =>
        subst hs'
        exact .done trivial
      | escapes | sendEscapes =>
        subst hs'
        exact .started hr hpc hstate
  | worker _ _ _ h =>
    rcases h.control with ⟨hreader, -, -, hstate', -, -⟩
    cases hs with
    | checking hr hbefore => exact .checking (hreader.trans hr) (hstate'.trans hbefore)
    | started hr hpc hstate => exact .started (hreader.trans hr) hpc (hstate'.trans hstate)
    | done hwaits => exact .done (hreader ▸ hwaits)
  | sender _ h =>
    rcases h.frame with ⟨_, _, _, rfl⟩
    cases hs with
    | checking hr hbefore => exact .checking hr hbefore
    | started hr hpc hstate => exact .started hr hpc hstate
    | done hwaits => exact .done hwaits

/-- A request that was refused has changed nothing when the refusal is sent. -/
lemma Refusing.sent {frame frame' : Frame}
    {before : ServerState × Bool × TextDocumentSyncKind × PositionEncoding}
    (hs : Refusing frame before s) (h : ReaderStep cfg s (.sent frame') s') :
    s'.lifecycle = before := by
  cases hs with
  | done hwaits => exact absurd rfl ((h.waits hwaits rfl).2 frame')
  | sending hr hbefore =>
    rcases h.sending_inv hr with ⟨-, -, rfl⟩ | ⟨-, hl, -⟩
    · exact hbefore
    · exact absurd hl (by simp)

/-- A request whose handler was called has set the state when its answer is sent. -/
lemma Serving.sent {call : RequestCall} {before : ServerState} {frame : Frame}
    (hs : Serving call before s) (h : ReaderStep cfg s (.sent frame) s') :
    s'.state_ = call.handler.starts before := by
  cases hs with
  | done hwaits => exact absurd rfl ((h.waits hwaits rfl).2 frame)
  | checking hr =>
    rcases h.inline_inv hr with ⟨r, hstep, -⟩
    cases hstep
  | started hr hpc hstate =>
    rcases h.inline_inv hr with ⟨r, hstep, hs'⟩
    cases hstep with
    | send =>
      subst hs'
      exact hstate

/-- A lifecycle request that `handleRequest` accepts leads to another state. -/
lemma requestStep_ne {state : ServerState} {method : Bytes} (hexited : state ≠ .Exited)
    (hlife : isLifecycleRequest method = true) (haccepts : Accepts state method) :
    requestStep state method ≠ state := by
  unfold isLifecycleRequest at hlife
  rcases Bool.or_eq_true_iff.mp hlife with hmethod | hmethod
  · have hmethod' := of_decide_eq_true hmethod
    have hstate := haccepts.2.mpr hmethod'
    rw [requestStep, if_pos ⟨hstate, hmethod'⟩, hstate]
    simp
  · have hmethod' := of_decide_eq_true hmethod
    subst hmethod'
    have hactive := (accepts_shutdown_iff hexited).mp haccepts
    have hne : state ≠ .Uninitialized := fun h => absurd (haccepts.2.mp h) (by decide)
    rw [requestStep, if_neg fun h => hne h.1, if_pos ⟨hactive, rfl⟩]
    exact haccepts.1.symm

/-- **A lifecycle request that is answered with an error** has left the lifecycle as it was exactly
if it was refused where it was read: a request whose handler is called has changed the state,
however the handler fails. -/
theorem lifecycle_unchanged_iff (cfg : Config) (hkept : cfg.LifecycleKept) {ls ms : List Label}
    {t t' u u' : Server} {m : ℕ} {body : Bytes} {req : ParsedRequest} {code : ErrorCodes}
    {message : Bytes} (ht : Runs cfg ls t) (hread : Step cfg t (.read m body (.request req)) t')
    (hlife : isLifecycleRequest req.method = true) (hrun : Run (Step cfg) t' ms u)
    (hms : messagesOf ms = []) (hsent : ReaderStep cfg u (.sent (.error req.id code message)) u') :
    u'.lifecycle = t.lifecycle ↔ ¬ Accepts t.state_ req.method := by
  have hrun₀ : Runs cfg (ls ++ [.read m body (.request req)]) t' := ht.snoc hread
  have hquiet : ∀ l ∈ ms, l.message? = none := fun l hl =>
    List.filterMap_eq_nil_iff.mp hms l hl
  rcases hread.read_inv with ⟨-, -, hexited, -, hread'⟩
  have houtcome : RequestOutcome cfg t.state_ t.messagesRead t.flags.length req t'.reader := by
    rw [hread']
    exact handleRequest_outcome cfg t.state_ t.messagesRead t.flags.length req
  have hsame : t'.lifecycle = t.lifecycle := by
    rw [hread']
    rfl
  have hstate : t'.state_ = t.state_ := congrArg Prod.fst hsame
  generalize hnext : t'.reader = next at houtcome
  cases houtcome with
  | rejected code message hrejected =>
    have hrefusing := hrun.invariant_of_labels (P := fun l => l.message? = none)
      (.sending hnext hsame) (fun _ _ _ hs hl hstep => Refusing.step hs hstep hl) hquiet
    refine iff_of_true (hrefusing.sent hsent) ?_
    -- a lifecycle request that is accepted has a handler
    intro haccepts
    have hnone := hrejected haccepts
    unfold isLifecycleRequest at hlife
    rcases Bool.or_eq_true_iff.mp hlife with hmethod | hmethod
    · rw [of_decide_eq_true hmethod, hkept.initializeRequest] at hnone
      exact absurd hnone (by simp)
    · rw [of_decide_eq_true hmethod, hkept.shutdownRequest] at hnone
      exact absurd hnone (by simp)
  | @lifecycle handler haccepts hhandler =>
    have hserving : (∃ ks, Runs cfg ks u) ∧
        Serving (req.call t.messagesRead handler t.flags.length) t.state_ u := by
      apply hrun.invariant_of_labels (P := fun l => l.message? = none)
        (I := fun s => (∃ ks, Runs cfg ks s) ∧
          Serving (req.call t.messagesRead handler t.flags.length) t.state_ s)
        ⟨⟨_, hrun₀⟩, .checking hnext hstate⟩ _ hquiet
      intro s l s' hs hl hstep
      rcases hs with ⟨⟨ks, hks⟩, hs⟩
      exact ⟨⟨_, hks.snoc hstep⟩, hs.step hkept hks hstep hl⟩
    refine iff_of_false ?_ (not_not_intro haccepts)
    intro heq
    have hstarts : u'.state_ = handler.starts t.state_ := hserving.2.sent hsent
    have hstate' : u'.state_ = t.state_ := congrArg Prod.fst heq
    rw [starts_eq hkept hexited haccepts hhandler hlife] at hstarts
    exact requestStep_ne hexited hlife haccepts (hstarts.symm.trans hstate')
  | pooled _ _ hnot => exact absurd (hlife.symm.trans hnot) (by simp)

end Steps

/-- What is expected of a lifecycle request that is answered with an error. -/
def FailuresUnchanged (cfg : Config) : Prop :=
  ∀ ls ms t t' u u' m body req code message, Runs cfg ls t →
    Step cfg t (.read m body (.request req)) t' → isLifecycleRequest req.method = true →
    Run (Step cfg) t' ms u → messagesOf ms = [] →
    ReaderStep cfg u (.sent (.error req.id code message)) u' → u'.lifecycle = t.lifecycle

/-- A shutdown request that is refused before `initialize` changes nothing. -/
theorem lifecycle_unchanged_session :
    ∃ ls s, Runs Session.config ls s ∧ ls.length = 2 ∧ s.state_ = .Uninitialized ∧
      s.lifecycle = (Server.start Session.config).lifecycle := by
  have hread : Step Session.config (Server.start Session.config) (.read _ _ (.request _)) _ :=
    .reader rfl rfl (.read Session.shutdown.json.print rfl (by decide) rfl)
  refine ⟨_, _, Run.snoc (Run.single hread) (.reader rfl rfl (.send rfl rfl)), rfl, rfl, ?_⟩
  apply (lifecycle_unchanged_iff Session.config session_kept .nil hread rfl .nil rfl
    (.send rfl rfl)).mpr
  intro haccepts
  exact absurd (haccepts.2.mp rfl) (by decide)

/-- A session in which `onInitialize` throws: the server takes itself for initialized, and refuses
the next `initialize`. -/
theorem session_fails_to_initialize :
    ¬ FailuresUnchanged Session.config ∧
      Reaches (Step Session.config) (Server.start Session.config) fun ls s =>
        encodingWrites ls = 0 ∧ s.state_ = .Initializing ∧
          s.reader =
            .sending (.error (.int 0) .InvalidRequest (str "Server already initialized")) := by
  refine ⟨?_, ?_⟩
  · intro h
    have hlifecycle := h [] _ _ _ _ _ _ _ _ _ _ .nil
      (.reader rfl rfl (.read Session.initializeRequest.json.print rfl (by decide) rfl)) rfl
      (Run.snoc (Run.single (.reader rfl rfl (.handler ⟨none, none⟩ rfl (.start rfl))))
        (.reader rfl rfl
          (.handler ⟨none, none⟩ rfl (.throws (e := .std (str "no workspace")) rfl))))
      rfl (.handlerFinishes rfl (.send rfl))
    have hstate : ServerState.Initializing = .Uninitialized := congrArg Prod.fst hlifecycle
    exact absurd hstate (by simp)
  · apply Reaches.step
      (.reader rfl rfl (.read Session.initializeRequest.json.print rfl (by decide) rfl))
    apply Reaches.step (.reader rfl rfl (.handler ⟨none, none⟩ rfl (.start rfl)))
    apply Reaches.step (.reader rfl rfl
      (.handler ⟨none, none⟩ rfl (.throws (e := .std (str "no workspace")) rfl)))
    apply Reaches.step (.reader rfl rfl (.handlerFinishes rfl (.send rfl)))
    apply Reaches.step
      (.reader rfl rfl (.read Session.initializeRequest.json.print rfl (by decide) rfl))
    exact Reaches.here ⟨rfl, rfl, rfl⟩

end CLSP
