import CLSP.Protocol.Hover
import CLSP.Server.Peers

/-!
# Typed calls

`sendRequest<Params, Result>` at one end and `registerRequest<Params, Result>` at the other. The
callback that a call has drawn is the one its response is passed to, so a typed call gets back what
the function at the other end has returned.
-/

namespace CLSP

open Channel Transition

/-! ## The callback of a call -/

section Callbacks

variable {cfg : Config} {ls : List Label} {s s' : Server} {l : Label}

/-- The number of the call that draws its id. -/
def Label.issue? : Label → Option ℕ
  | .issued k _ _ _ _ => some k
  | _ => none

lemma numbers_issued (cfg : Config) :
    Numbers (Step cfg) (fun s => s.senders.length) Label.issue? where
  grows h := h.senders_length
  draws {t u l n} h hl := by
    cases l with
    | issued k id method params cb =>
      obtain rfl : k = n := Option.some.inj hl
      cases h.of_sender rfl with
      | issue => simp
    | _ => exact absurd hl (by simp [Label.issue?])

/-- A call has the number of the calls before it. -/
lemma Runs.issued_lt (h : Runs cfg ls s) {k : ℕ} {id : Int32} {method : Bytes} {params : Json}
    {cb : ResponseCallback} (hmem : .issued k id method params cb ∈ ls) : k < s.senders.length :=
  h.number_lt (numbers_issued cfg) hmem rfl

/-- No two calls have one number. -/
lemma Runs.issued_inj (h : Runs cfg ls s) {k : ℕ} {id id' : Int32} {method method' : Bytes}
    {params params' : Json} {cb cb' : ResponseCallback}
    (hmem : .issued k id method params cb ∈ ls)
    (hmem' : .issued k id' method' params' cb' ∈ ls) :
    method = method' ∧ params = params' ∧ cb = cb' := by
  have heq := h.number_inj (numbers_issued cfg) hmem hmem' rfl rfl
  injection heq with _ _ hmethod hparams hcb
  exact ⟨hmethod, hparams, hcb⟩

/-- The callback is one that a call has drawn its id with. -/
def Drawn (ls : List Label) (cb : ResponseCallback) : Prop :=
  ∃ id method params, .issued cb.call id method params cb ∈ ls

lemma Drawn.append {cb : ResponseCallback} (h : Drawn ls cb) (ms : List Label) :
    Drawn (ls ++ ms) cb := by
  rcases h with ⟨id, method, params, hmem⟩
  exact ⟨id, method, params, List.mem_append_left _ hmem⟩

/-- An entry of `pendingRequests_` was there, or is the callback of a call. -/
lemma Step.pending_moved (h : Step cfg s l s') {id : Int32} {cb : ResponseCallback}
    (hcb : s'.pendingRequests_.lookup id = some cb) :
    s.pendingRequests_.lookup id = some cb ∨
      ∃ (k : ℕ) (id' : Int32) (method : Bytes) (params : Json),
        s.senders[k]? = some (.registering id' method params cb) := by
  cases h with
  | reader _ _ h =>
    refine Or.inl ?_
    cases h with
    | @matched _ id' =>
      have hne : id ≠ id' := by
        rintro rfl
        rw [AList.lookup_erase] at hcb
        exact absurd hcb (by simp)
      exact (AList.lookup_erase_ne hne).symm.trans hcb
    | handler capabilities =>
      rcases s.lifecycleEffect_eq capabilities _ l with ⟨_, _, _, _, heq⟩
      rw [heq] at hcb
      exact hcb
    | submit | stop => simpa using hcb
    | _ => exact hcb
  | worker _ _ _ h => exact Or.inl (h.outgoing.2.1 ▸ hcb)
  | sender _ h =>
    cases h with
    | @register k id' method params cb' hk =>
      have hentry : (if (s.pendingRequests_.lookup id').isSome then s.pendingRequests_
          else s.pendingRequests_.insert id' cb').lookup id = some cb := hcb
      split at hentry
      · exact Or.inl hentry
      · by_cases hid : id = id'
        · subst hid
          rw [AList.lookup_insert] at hentry
          obtain rfl := Option.some.inj hentry
          exact Or.inr ⟨k, id, method, params, hk⟩
        · rw [AList.lookup_insert_ne hid] at hentry
          exact Or.inl hentry
    | _ => exact Or.inl hcb

/-- Dispatch hands out no callback: only a response that is matched does. -/
lemma Outcome.no_callback {state_ : ServerState} {serial token : ℕ} {msg : ParsedMessage}
    {next : ServerState × ReaderPc} (h : Outcome cfg state_ serial token msg next) {e : Executor}
    {cb : ResponseCallback} {payload : Json} {isError : Bool} :
    next.2.task? ≠ some (e, .callback cb payload isError) := by
  intro htask
  have hinvocations := h.invocations
  rcases next with ⟨_, pc⟩
  cases pc with
  | submitting =>
    rcases Prod.mk.inj (Option.some.inj htask) with ⟨rfl, rfl⟩
    exact absurd hinvocations (Multiset.singleton_ne_zero _)
  | _ => simp [ReaderPc.task?] at htask

/-- Where the callbacks of the calls are, as the labels of the run tell it. -/
structure CallbacksDrawn (ls : List Label) (s : Server) : Prop where
  pending : ∀ id cb, s.pendingRequests_.lookup id = some cb → Drawn ls cb
  tasks : ∀ e cb payload isError, s.HasTask e (.callback cb payload isError) → Drawn ls cb
  called : ∀ e cb payload isError, (s.pool e).Working (.invoked cb payload isError) →
    .callbackInvoked cb.call payload isError ∈ ls

lemma CallbacksDrawn.step (hs : CallbacksDrawn ls s) (hrun : Runs cfg ls s)
    (h : Step cfg s l s') : CallbacksDrawn (ls ++ [l]) s' := by
  refine ⟨?_, ?_, ?_⟩
  · intro id cb hcb
    rcases h.pending_moved hcb with hcb | ⟨k, id', method, params, hk⟩
    · exact (hs.pending id cb hcb).append _
    · rcases (Runs.registeredFirst hrun).registering k id' method params cb hk with
        ⟨rfl, hissued⟩
      exact Drawn.append ⟨id', method, params, hissued⟩ _
  · intro e cb payload isError htask
    rcases h.hasTask htask with htask | hnew
    · exact (hs.tasks e cb payload isError htask).append _
    · cases hnew with
      | read hread => exact absurd hread (dispatch_outcome _ _ _ _ _).no_callback
      | matched resp id cb => exact (hs.pending id cb h.responseTaken_inv.2.1.symm).append _
  · intro e cb payload isError hwork
    cases h with
    | reader _ _ h =>
      exact List.mem_append_left _ (hs.called e cb payload isError (h.working.mp hwork))
    | worker _ _ _ h =>
      generalize hrunning : Running.invoked cb payload isError = running at hwork
      cases h.advanced hwork with
      | same hwork =>
        subst hrunning
        exact List.mem_append_left _ (hs.called e cb payload isError hwork)
      | @taken task => cases task <;> simp [Task.start] at hrunning
      | invoked _ hl =>
        injection hrunning with hcb hpayload hisError
        subst hcb hpayload hisError
        simp [hl]
      | _ => simp at hrunning
    | sender _ h =>
      exact List.mem_append_left _ (hs.called e cb payload isError (h.pool e ▸ hwork))

theorem Runs.callbacksDrawn (h : Runs cfg ls s) : CallbacksDrawn ls s := by
  induction h with
  | nil =>
    refine ⟨?_, ?_, ?_⟩
    · intro id cb hcb
      exact absurd hcb (by simp [Server.start])
    · intro e cb payload isError htask
      exact absurd htask (not_hasTask_start cfg)
    · intro e cb payload isError hwork
      cases e <;> exact absurd hwork (ThreadPool.not_working_create _)
  | snoc hrun hstep ih => exact ih.step hrun hstep

/-- A payload that does not decode was passed to the callback of a typed call. -/
lemma Step.decodeThrew_inv (h : Step cfg s l s') {k : ℕ} {e : Exn} (hl : l = .decodeThrew k e) :
    ∃ d get payload, (s.pool d).Working (.invoked (.typed k get) payload false) ∧
      get payload = .error e := by
  subst hl
  cases h with
  | reader _ _ h =>
    cases h with
    | handler _ _ hstep | handlerFinishes _ hstep | handlerEscapes _ hstep => cases hstep
  | worker d _ _ h =>
    cases h with
    | handler _ hstep | handlerFinishes _ hstep | handlerEscapes _ hstep => cases hstep
    | notification _ hstep | notificationFinishes _ hstep | notificationEscapes _ hstep =>
      cases hstep
    | callbackFinishes _ hstep => cases hstep
    | callbackEscapes hw hstep =>
      cases hstep with
      | @decodeThrows _ get _ hisError hget =>
        subst hisError
        exact ⟨d, get, _, ThreadPool.working_of_getElem? hw, hget⟩
  | sender _ h => cases h

/-- What a callback is called with is what it is called with every time. -/
lemma Runs.payload_unique (h : Runs cfg ls s) (hcalls : s.senders.length < 2 ^ 32) {k : ℕ}
    {payload payload' : Json} {isError isError' : Bool}
    (hmem : .callbackInvoked k payload isError ∈ ls)
    (hmem' : .callbackInvoked k payload' isError' ∈ ls) : payload = payload' := by
  have hinvoked : ∀ {payload : Json} {isError : Bool}, .callbackInvoked k payload isError ∈ ls →
      (k, payload, isError) ∈ invocations k ls := by
    intro payload isError hmem
    exact Multiset.mem_filter.mpr
      ⟨mem_total.mpr ⟨_, hmem, Multiset.mem_singleton_self _⟩, rfl⟩
  have hle := Runs.invocations_le h hcalls k
  have hfirst := Multiset.mem_of_le hle (hinvoked hmem)
  have hsecond := Multiset.mem_of_le hle (hinvoked hmem')
  cases hphase : callPhase k ls with
  | answered resp =>
    rw [hphase] at hfirst hsecond
    have heq := (Multiset.mem_singleton.mp hfirst).trans (Multiset.mem_singleton.mp hsecond).symm
    exact (Prod.mk.inj (Prod.mk.inj heq).2).1
  | _ =>
    rw [hphase] at hfirst
    exact absurd hfirst (Multiset.notMem_zero _)

/-- A typed call whose result decodes does not throw when it is decoded. -/
theorem Runs.not_decodeThrew (h : Runs cfg ls s) (hcalls : s.senders.length < 2 ^ 32)
    {Result : Type} {fromJson : Json → Except Exn Result} {k : ℕ} {id : Int32} {method : Bytes}
    {params : Json} (hissued : .issued k id method params (.ofTyped k fromJson) ∈ ls)
    {payload : Json} {r : Result} (hcalled : .callbackInvoked k payload false ∈ ls)
    (hdecodes : fromJson payload = .ok r) (e : Exn) : .decodeThrew k e ∉ ls := by
  intro hthrew
  rcases List.append_of_mem hthrew with ⟨ls₁, ls₂, rfl⟩
  rcases h.split_at with ⟨t, t', hrun, hstep, -⟩
  rcases hstep.decodeThrew_inv rfl with ⟨d, get, payload', hwork, hget⟩
  have hdrawn := Runs.callbacksDrawn hrun
  have hcalled' := hdrawn.called d _ _ _ hwork
  rcases hdrawn.tasks d _ _ _ (Or.inr (Or.inr ⟨_, hwork, rfl⟩)) with
    ⟨id', method', params', hissued'⟩
  -- it is the callback of this call, with the payload it has been called with
  rcases Runs.issued_inj h hissued (List.mem_append_left _ hissued') with ⟨-, -, hcb⟩
  injection hcb with _ hcb
  subst hcb
  obtain rfl := Runs.payload_unique h hcalls hcalled (List.mem_append_left _ hcalled')
  simp [Except.map, hdecodes] at hget

end Callbacks

/-! ## Typed calls -/

/-- The handler that `registerRequest<Params, Result>` makes of a function of the user, which
returns or throws what `handle` says. -/
inductive TypedHandler {Params Result : Type} (fromJson : Json → Except Exn Params)
    (toJson : Result → Json) (handle : Params → Except Exn Result → Prop) (params : Json) :
    Except Exn Json → Prop
  | decodeThrows {e : Exn} : fromJson params = .error e →
      TypedHandler fromJson toJson handle params (.error e)
  | throws {p : Params} {e : Exn} : fromJson params = .ok p → handle p (.error e) →
      TypedHandler fromJson toJson handle params (.error e)
  | returns {p : Params} {r : Result} : fromJson params = .ok p → handle p (.ok r) →
      TypedHandler fromJson toJson handle params (.ok (toJson r))

/-- The two ends of a typed call: how parameters and results are written and read, and what the
function that is called may do. -/
structure TypedMethod (Params Result : Type) where
  method : Bytes
  paramsToJson : Params → Json
  paramsFromJson : Json → Except Exn Params
  resultToJson : Result → Json
  resultFromJson : Json → Except Exn Result
  handle : Params → Except Exn Result → Prop

section TypedCalls

variable {Params Result : Type} {cfg : End → Config} {ls : List (End × Label)}
  {p : Linked Server Bytes} {d : End}

/-- The handler of a method at one end is the typed one. -/
def TypedMethod.Serves (t : TypedMethod Params Result) (ls : List (End × Label)) (d : End) : Prop :=
  ∀ call outcome, (d, .handlerEnded call outcome) ∈ ls → call.method = t.method →
    TypedHandler t.paramsFromJson t.resultToJson t.handle call.params outcome

/-- The `k`-th call of an end is `sendRequest<Params, Result>` with these params. -/
def TypedMethod.Calls (t : TypedMethod Params Result) (ls : List (End × Label)) (d : End) (k : ℕ)
    (params : Params) : Prop :=
  ∃ id, (d, .issued k id t.method (t.paramsToJson params) (.ofTyped k t.resultFromJson)) ∈ ls

/-- The request frame of a call has the method and the params the call was made with. -/
lemma PeersRuns.request_of_issued (h : PeersRuns cfg ls p)
    (hcalls : (p.ends d).senders.length < 2 ^ 32) {k : ℕ} {id : Int32} {method method' : Bytes}
    {params params' : Json} {cb : ResponseCallback}
    (hissued : (d, .issued k id method params cb) ∈ ls)
    (hsent : (d, .sent (.request (callId k) method' params')) ∈ ls) :
    method' = method ∧ params' = params := by
  have hside := h.each d
  rcases (Runs.registeredFirst hside).sent _ _ _ (mem_side.mpr hsent) with
    ⟨k', ⟨cb', hissued'⟩, -⟩
  have hlt := Runs.issued_lt hside (mem_side.mpr hissued)
  have hlt' := Runs.issued_lt hside hissued'
  -- ids differ as long as the counter has not wrapped
  have hk : k = k' :=
    callId_injOn (by omega) (by omega) (Runs.id_of_issued hside hcalls hissued')
  subst hk
  rcases Runs.issued_inj hside (mem_side.mpr hissued) hissued' with ⟨hmethod, hparams, -⟩
  exact ⟨hmethod.symm, hparams.symm⟩

/-- What a typed call comes back with: the function has returned it for the params of the call, and
the callback gets it, since decoding the payload does not throw. -/
structure TypedMethod.Returned (t : TypedMethod Params Result) (ls : List (End × Label)) (d : End)
    (k : ℕ) (params : Params) (r : Result) (payload : Json) : Prop where
  handled : t.handle params (.ok r)
  decoded : t.resultFromJson payload = .ok r
  quiet : ∀ e, (d, .decodeThrew k e) ∉ ls

/-- **Typed calls.** When a typed call comes back with a result, the callback decodes it to what the
function at the other end has returned for the parameters of the call, as long as these round
trip. -/
theorem typed_call (t : TypedMethod Params Result) (cfg : End → Config) (ls : List (End × Label))
    (p : Linked Server Bytes) (h : PeersRuns cfg ls p) (hwire : Understood cfg ls) (d : End)
    (hcalls : (p.ends d).senders.length < 2 ^ 32) (hserves : t.Serves ls d.other) (k : ℕ)
    (params : Params) (hcall : t.Calls ls d k params)
    (hparams : t.paramsFromJson (t.paramsToJson params) = .ok params)
    (hresult : ∀ r, t.handle params (.ok r) → t.resultFromJson (t.resultToJson r) = .ok r)
    (payload : Json) (hcalled : (d, .callbackInvoked k payload false) ∈ ls) :
    ∃ r, t.Returned ls d k params r payload := by
  rcases hcall with ⟨id, hissued⟩
  rcases List.append_of_mem hcalled with ⟨ls₁, ls₂, hls⟩
  rcases (hls ▸ h).result_of_called (hls ▸ hwire) hcalls with ⟨ls₃, ls₄, call, hls₁, -, hrequest⟩
  have hrequest' : (d, .sent (.request (callId k) call.method call.params)) ∈ ls := by
    rw [hls, hls₁]
    simp [hrequest]
  have hended : (d.other, .handlerEnded call (.ok payload)) ∈ ls := by
    rw [hls, hls₁]
    simp
  rcases h.request_of_issued hcalls hissued hrequest' with ⟨hmethod, hcallParams⟩
  have htyped := hserves call _ hended hmethod
  rw [hcallParams] at htyped
  cases htyped with
  | @returns params' r hdecode hhandle =>
    rw [hparams] at hdecode
    rw [← Except.ok.inj hdecode] at hhandle
    have hdecoded := hresult r hhandle
    refine ⟨r, hhandle, hdecoded, ?_⟩
    intro e hthrew
    exact Runs.not_decodeThrew (h.each d) hcalls (mem_side.mpr hissued) (mem_side.mpr hcalled)
      hdecoded e (mem_side.mpr hthrew)

end TypedCalls

/-! ## A typed hover -/

namespace Session

def hoverParams : HoverParams where
  textDocument := { uri := str "file:///a" }
  position := { line := 0, character := 4 }

def hoverResult : Hover where
  contents := { kind := .PlainText, value := str "int" }
  range := none

/-- `textDocument/hover` with the types of the protocol. -/
def typedHover : TypedMethod HoverParams Hover where
  method := str "textDocument/hover"
  paramsToJson := HoverParams.toJson
  paramsFromJson j := (HoverParams.fromJson j).mapError fun _ => .std (str "invalid params")
  resultToJson := Hover.toJson
  resultFromJson j := (Hover.fromJson j).mapError fun _ => .std (str "invalid result")
  handle params outcome := params = hoverParams ∧ outcome = .ok hoverResult

lemma typedHover_params (params : HoverParams) :
    typedHover.paramsFromJson (typedHover.paramsToJson params) = .ok params := by
  simp [typedHover, HoverParams.fromJson_toJson, Except.mapError]

lemma typedHover_result (r : Hover) :
    typedHover.resultFromJson (typedHover.resultToJson r) = .ok r := by
  simp [typedHover, Hover.fromJson_toJson, Except.mapError]

def askHover : Frame := .request 2 (str "textDocument/hover") hoverParams.toJson
def hoverDone : Frame := .result (.int 2) hoverResult.toJson

def hoverConfig (_ : End) : Config where
  nl := .ofFrames [askInitialize, initializeDone, askHover, hoverDone]
  userRequests := [str "textDocument/hover"]
  userNotifications := []
  workerThreads := 1

/-- The two calls at the end that is asked. -/
def askedInitialize : RequestCall :=
  { serial := 0, id := .int 1, method := str "initialize", params := .null,
    handler := .initializeRequest, token := 0 }

def askedHover : RequestCall :=
  { serial := 1, id := .int 2, method := str "textDocument/hover", params := hoverParams.toJson,
    handler := .user, token := 1 }

/-- One server initializes the other and then asks it for a hover. -/
lemma hovers :
    Reaches (PeersStep hoverConfig) (.start fun d => .start (hoverConfig d)) fun ls p =>
      Understood hoverConfig ls ∧ (p.ends .left).senders.length = 2 ∧
        typedHover.Calls ls .left 1 hoverParams ∧ typedHover.Serves ls .right ∧
        (.left, .callbackInvoked 1 hoverResult.toJson false) ∈ ls ∧
        (.left, .callbackReturned 1) ∈ ls := by
  apply Reaches.step (.intro .left (.sender rfl (.issue (str "initialize") .null (.raw 0) rfl)) rfl)
  apply Reaches.step (.intro .left (.sender rfl (.register 0 rfl)) rfl)
  apply Reaches.step (.intro .left (.sender rfl (.send 0 rfl rfl)) rfl)
  apply Reaches.step (.intro .right (.reader rfl rfl
    (.read askInitialize.json.print rfl (by decide) rfl)) rfl)
  apply Reaches.step (.intro .right (.reader rfl rfl (.handler ⟨none, none⟩ rfl (.start rfl))) rfl)
  apply Reaches.step (.intro .right (.reader rfl rfl
    (.handler ⟨none, none⟩ rfl (.returns .null))) rfl)
  apply Reaches.step (.intro .right (.reader rfl rfl (.handlerFinishes rfl (.send rfl))) rfl)
  -- the answer and the typed call
  apply Reaches.step (.intro .left (.reader rfl rfl
    (.read initializeDone.json.print rfl (by decide) rfl)) rfl)
  apply Reaches.step (.intro .left (.reader rfl rfl (.matched rfl rfl)) rfl)
  apply Reaches.step (.intro .left (.reader rfl rfl (.submit rfl)) rfl)
  apply Reaches.step (.intro .left (.worker .worker 0 rfl (.take rfl rfl)) rfl)
  apply Reaches.step (.intro .left (.worker .worker 0 rfl (.invoke rfl)) rfl)
  apply Reaches.step (.intro .left (.worker .worker 0 rfl (.callbackFinishes rfl .returns)) rfl)
  apply Reaches.step (.intro .left (.sender rfl (.issue (str "textDocument/hover")
    hoverParams.toJson (.ofTyped 1 typedHover.resultFromJson) rfl)) rfl)
  apply Reaches.step (.intro .left (.sender rfl (.register 1 rfl)) rfl)
  apply Reaches.step (.intro .left (.sender rfl (.send 1 rfl rfl)) rfl)
  -- the hover, on a worker at the other end
  apply Reaches.step (.intro .right (.reader rfl rfl
    (.read askHover.json.print rfl (by decide) rfl)) rfl)
  apply Reaches.step (.intro .right (.reader rfl rfl (.insertToken rfl)) rfl)
  apply Reaches.step (.intro .right (.reader rfl rfl (.submit rfl)) rfl)
  apply Reaches.step (.intro .right (.worker .worker 0 rfl (.take rfl rfl)) rfl)
  apply Reaches.step (.intro .right (.worker .worker 0 rfl (.handler rfl (.start rfl))) rfl)
  apply Reaches.step (.intro .right (.worker .worker 0 rfl
    (.handler rfl (.returns hoverResult.toJson))) rfl)
  apply Reaches.step (.intro .right (.worker .worker 0 rfl
    (.handlerFinishes rfl (.send rfl))) rfl)
  apply Reaches.step (.intro .left (.reader rfl rfl
    (.read hoverDone.json.print rfl (by decide) rfl)) rfl)
  apply Reaches.step (.intro .left (.reader rfl rfl (.matched rfl rfl)) rfl)
  apply Reaches.step (.intro .left (.reader rfl rfl (.submit rfl)) rfl)
  apply Reaches.step (.intro .left (.worker .worker 0 rfl (.take rfl rfl)) rfl)
  apply Reaches.step (.intro .left (.worker .worker 0 rfl (.invoke rfl)) rfl)
  apply Reaches.step (.intro .left (.worker .worker 0 rfl
    (.callbackFinishes rfl (.decodes rfl rfl))) rfl)
  refine Reaches.here ⟨?_, rfl, ⟨2, ?_⟩, ?_, ?_, ?_⟩
  · intro d frame text hmem hserialize
    simp at hmem
    have hframe : d = .left ∧ frame = askInitialize ∨ d = .right ∧ frame = initializeDone ∨
        d = .left ∧ frame = askHover ∨ d = .right ∧ frame = hoverDone := hmem
    rcases hframe with ⟨rfl, rfl⟩ | ⟨rfl, rfl⟩ | ⟨rfl, rfl⟩ | ⟨rfl, rfl⟩
    all_goals
      rw [← Except.ok.inj hserialize]
      rfl
  · exact List.mem_of_getElem? (i := 13) rfl
  · intro call outcome hmem hmethod
    simp at hmem
    have hended : call = askedInitialize ∧ outcome = .ok .null ∨
        call = askedHover ∧ outcome = .ok hoverResult.toJson := hmem
    rcases hended with ⟨rfl, -⟩ | ⟨rfl, rfl⟩
    · exact absurd hmethod (by decide)
    · exact .returns (typedHover_params hoverParams) ⟨rfl, rfl⟩
  · exact List.mem_of_getElem? (i := 27) rfl
  · exact List.mem_of_getElem? (i := 28) rfl

end Session

theorem typed_call_session :
    Reaches (PeersStep Session.hoverConfig) (.start fun d => .start (Session.hoverConfig d))
      fun ls _ => (.left, .callbackReturned 1) ∈ ls ∧
        ∃ r, Session.typedHover.Returned ls .left 1 Session.hoverParams r
          Session.hoverResult.toJson := by
  rcases Session.hovers with ⟨ls, p, hrun, hwire, hlength, hcall, hserves, hcalled, hreturned⟩
  refine ⟨ls, p, hrun, hreturned, ?_⟩
  exact typed_call Session.typedHover Session.hoverConfig ls p hrun hwire .left (by omega) hserves
    1 Session.hoverParams hcall (Session.typedHover_params _)
    (fun r _ => Session.typedHover_result r) Session.hoverResult.toJson hcalled

end CLSP
