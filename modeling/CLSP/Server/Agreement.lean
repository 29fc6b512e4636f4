import CLSP.Server.Initialize
import CLSP.Server.Peers

/-!
# Two ends agree on `initialize`

One of two servers initializes the other. When its call has come back with a result, the other end
counts positions in the encoding that the result tells.
-/

namespace CLSP

open Channel Transition

section Runs

variable {cfg : Config} {ls : List Label} {s : Server}

/-- A request in hand goes to the handler that is registered for its method. -/
lemma Outcome.registered {state_ : ServerState} {serial token : ℕ} {msg : ParsedMessage}
    {next : ServerState × ReaderPc} (h : Outcome cfg state_ serial token msg next)
    {call : RequestCall} (hcall : call ∈ next.2.calls) :
    cfg.requestHandler call.method = some call.handler := by
  cases h with
  | @request req _ h =>
    cases h with
    | rejected => exact absurd hcall (Multiset.notMem_zero _)
    | lifecycle _ hhandler | pooled _ hhandler =>
      rw [Multiset.mem_singleton.mp hcall]
      exact hhandler
  | notification h => cases h <;> exact absurd hcall (Multiset.notMem_zero _)
  | response h => cases h <;> exact absurd hcall (Multiset.notMem_zero _)
  | error => exact absurd hcall (Multiset.notMem_zero _)

lemma Runs.registered_of_call (h : Runs cfg ls s) {call : RequestCall} (hcall : call ∈ s.calls) :
    cfg.requestHandler call.method = some call.handler := by
  induction h with
  | nil =>
    have hnone : (Server.start cfg).calls = 0 := Server.held_start rfl cfg
    rw [hnone] at hcall
    exact absurd hcall (Multiset.notMem_zero _)
  | @snoc ls t u l hrun hstep ih =>
    rcases hstep.origin (Runs.phased hrun) hcall with hcall | ⟨body, req, handler, rfl, -⟩
    · exact ih hcall
    · rcases hstep.read_inv with ⟨hr, -, -, -, rfl⟩
      rw [Server.calls_read hr] at hcall
      rcases Multiset.mem_add.mp hcall with hcall | hcall
      · exact ih hcall
      · exact (dispatch_outcome _ _ _ _ _).registered hcall

lemma Runs.registered_of_handled (h : Runs cfg ls s) {call : RequestCall}
    {outcome : Except Exn Json} (hmem : .handlerEnded call outcome ∈ ls) :
    cfg.requestHandler call.method = some call.handler := by
  rcases List.append_of_mem hmem with ⟨ls₁, ls₂, rfl⟩
  rcases h.split_at with ⟨t, t', hrun, hstep, -⟩
  rcases hstep.handler_inv rfl with ⟨pc, r, hhandles, -⟩
  exact Runs.registered_of_call hrun hhandles.mem_calls

end Runs

/-- A step of one of two servers that talk to each other, with the handlers of `initialize`. -/
abbrev InitializingPeers (cfg : End → Config) (onInitialize : End → OnInitialize) :
    Linked Server Bytes → End × Label → Linked Server Bytes → Prop :=
  LinkStep (fun d => InitializingStep (cfg d) (onInitialize d)) (fun d => Label.texts (cfg d).nl)
    (FromFront Label.bodies)

/-- **The encoding is agreed.** When one of two servers has called `initialize` of the other and got
a result, it is what `onInitialize` at the other end has returned for the params, and the other end
counts in the encoding that it tells. -/
theorem encoding_agreed (cfg : End → Config) (onInitialize : End → OnInitialize)
    (ls : List (End × Label)) (p : Linked Server Bytes)
    (h : Run (InitializingPeers cfg onInitialize) (.start fun d => .start (cfg d)) ls p)
    (hwire : Understood cfg ls) (d : End) (hkept : (cfg d.other).LifecycleKept)
    (hcalls : (p.ends d).senders.length < 2 ^ 32) (k : ℕ) (params payload : Json)
    (hsent : (d, .sent (.request (callId k) (str "initialize") params)) ∈ ls)
    (hcalled : (d, .callbackInvoked k payload false) ∈ ls) :
    (p.ends d.other).GoesBy payload ∧ ∃ q r, InitializeParams.fromJson params = .ok q ∧
      onInitialize d.other q (.ok r) ∧ payload = r.toJson := by
  have hpeers : PeersRuns cfg ls p := by
    refine h.map id fun p l q hstep => ?_
    cases hstep with
    | intro d hstep hfront => exact .intro d hstep.step hfront
  rcases List.append_of_mem hcalled with ⟨ls₁, ls₂, hls⟩
  rcases (hls ▸ hpeers).result_of_called (hls ▸ hwire) hcalls with
    ⟨ls₃, ls₄, call, hls₁, -, hrequest⟩
  have hended : (d.other, .handlerEnded call (.ok payload)) ∈ ls := by
    rw [hls, hls₁]
    simp
  have hrequest' : (d, .sent (.request (callId k) call.method call.params)) ∈ ls := by
    rw [hls, hls₁]
    simp [hrequest]
  rcases hpeers.request_unique hcalls hsent hrequest' with ⟨hmethod, rfl⟩
  have hregistered := Runs.registered_of_handled (hpeers.each d.other) (mem_side.mpr hended)
  rw [hmethod, hkept.initializeRequest] at hregistered
  rcases (run_side h d.other).record with ⟨es, hes, hrun⟩
  rw [← mem_side, ← hes] at hended
  exact InitializingRuns.goesBy hkept hrun hended (Option.some.inj hregistered).symm

namespace Session

def countsInBytes : Frame := .result (.int 1) inBytes.toJson

def agreeing (_ : End) : Config where
  nl := .ofFrames [askInitialize, countsInBytes]
  userRequests := []
  userNotifications := []
  workerThreads := 1

/-- One server initializes the other, which counts in bytes. -/
lemma agrees :
    Reaches (InitializingPeers agreeing fun _ => onInitialize)
      (.start fun d => .start (agreeing d)) fun ls p =>
      Understood agreeing ls ∧ (p.ends .left).senders.length = 1 ∧
        (.left, .sent askInitialize) ∈ ls ∧
        (.left, .callbackInvoked 0 inBytes.toJson false) ∈ ls := by
  apply Reaches.step (.intro .left (.of_other (.sender rfl
    (.issue (str "initialize") .null (.raw 0) rfl)) rfl (by simp)) rfl)
  apply Reaches.step (.intro .left (.of_other (.sender rfl (.register 0 rfl)) rfl (by simp)) rfl)
  apply Reaches.step (.intro .left (.of_other (.sender rfl (.send 0 rfl rfl)) rfl (by simp)) rfl)
  apply Reaches.step (.intro .right (.of_other (.reader rfl rfl
    (.read askInitialize.json.print rfl (by decide) rfl)) rfl (by simp)) rfl)
  apply Reaches.step (.intro .right (.of_other (.reader rfl rfl
    (.handler ⟨none, none⟩ rfl (.start rfl))) rfl (by simp)) rfl)
  apply Reaches.step (.intro .right (.of_returns (.reader rfl rfl
    (.handler inBytes.announced rfl (.returns inBytes.toJson))) rfl rfl rfl rfl) rfl)
  apply Reaches.step (.intro .right (.of_other (.reader rfl rfl
    (.handlerFinishes rfl (.send rfl))) rfl (by simp)) rfl)
  apply Reaches.step (.intro .left (.of_other (.reader rfl rfl
    (.read countsInBytes.json.print rfl (by decide) rfl)) rfl (by simp)) rfl)
  apply Reaches.step (.intro .left (.of_other (.reader rfl rfl (.matched rfl rfl))
    rfl (by simp)) rfl)
  apply Reaches.step (.intro .left (.of_other (.reader rfl rfl (.submit rfl)) rfl (by simp)) rfl)
  apply Reaches.step (.intro .left (.of_other (.worker .worker 0 rfl (.take rfl rfl))
    rfl (by simp)) rfl)
  apply Reaches.step (.intro .left (.of_other (.worker .worker 0 rfl (.invoke rfl))
    rfl (by simp)) rfl)
  refine Reaches.here ⟨?_, rfl, ?_, ?_⟩
  · intro d frame text hmem hserialize
    simp at hmem
    have hframe : d = .left ∧ frame = askInitialize ∨ d = .right ∧ frame = countsInBytes := hmem
    rcases hframe with ⟨rfl, rfl⟩ | ⟨rfl, rfl⟩
    · rw [← Except.ok.inj hserialize]
      rfl
    · rw [← Except.ok.inj hserialize]
      rfl
  · exact List.mem_of_getElem? (i := 2) rfl
  · exact List.mem_of_getElem? (i := 11) rfl

end Session

theorem encoding_agreed_session :
    Reaches (InitializingPeers Session.agreeing fun _ => Session.onInitialize)
      (.start fun d => .start (Session.agreeing d)) fun _ p =>
      (p.ends .right).documents_.encoding_ = .UTF8 ∧
        (p.ends .right).GoesBy Session.inBytes.toJson := by
  rcases Session.agrees with ⟨ls, p, hrun, hwire, hlength, hsent, hcalled⟩
  have hagreed := (encoding_agreed Session.agreeing (fun _ => Session.onInitialize) ls p hrun hwire
    .left ⟨by decide, by decide, by decide⟩ (by omega) 0 .null _ hsent hcalled).1
  exact ⟨ls, p, hrun, hagreed .UTF8 (.utf8 rfl), hagreed⟩

end CLSP
