import CLSP.Lib.Channel
import CLSP.Rpc.Codec
import CLSP.Server.Outgoing
import CLSP.Server.Responses
import CLSP.Server.Silence
import CLSP.Server.Wire

/-!
# Two servers

Either end of the protocol may send requests, so both ends of a connection can be servers. `Peers`
links two of them by channels that carry the bodies they send. A remote call that comes back comes
back with what the handler at the other end has returned for it.
-/

namespace CLSP

open Channel Transition

/-! ## The pair -/

/-- A step of one of two servers that talk to each other. -/
abbrev PeersStep (cfg : End → Config) :
    Linked Server Bytes → End × Label → Linked Server Bytes → Prop :=
  LinkStep (fun d => Step (cfg d)) (fun d => Label.texts (cfg d).nl) (FromFront Label.bodies)

/-- The runs of two servers from their starts. -/
abbrev PeersRuns (cfg : End → Config) (ls : List (End × Label)) (p : Linked Server Bytes) : Prop :=
  Run (PeersStep cfg) (.start fun d => .start (cfg d)) ls p

/-- The library at the other end parses what the one at this end has printed of the frames that
are sent. -/
def Understood (cfg : End → Config) (ls : List (End × Label)) : Prop :=
  ∀ d frame text, (d, .sent frame) ∈ ls → frame.serialize (cfg d).nl = .ok text →
    (cfg d.other).nl.parse text = .ok frame.json

lemma Understood.of_append {cfg : End → Config} {ls ms : List (End × Label)}
    (h : Understood cfg (ls ++ ms)) : Understood cfg ls :=
  fun d frame text hmem => h d frame text (List.mem_append_left _ hmem)

/-! ## A call

One server asks the other to initialize, with a handler of the user for it. -/

namespace Session

def askInitialize : Frame := .request 1 (str "initialize") .null
def initializeDone : Frame := .result (.int 1) .null

def peersConfig (_ : End) : Config where
  nl := .ofFrames [askInitialize, initializeDone]
  userRequests := [str "initialize"]
  userNotifications := []
  workerThreads := 1

lemma peers_call :
    Reaches (PeersStep peersConfig) (.start fun d => .start (peersConfig d)) fun ls p =>
      Understood peersConfig ls ∧ (p.ends .left).senders.length = 1 ∧
        (.left, .sent askInitialize) ∈ ls ∧ (.left, .callbackInvoked 0 .null false) ∈ ls ∧
        ∀ call outcome, (.right, .handlerEnded call outcome) ∈ ls → outcome = .ok .null := by
  apply Reaches.step (.intro .left (.sender rfl (.issue (str "initialize") .null (.raw 0) rfl)) rfl)
  apply Reaches.step (.intro .left (.sender rfl (.register 0 rfl)) rfl)
  apply Reaches.step (.intro .left (.sender rfl (.send 0 rfl rfl)) rfl)
  apply Reaches.step (.intro .right (.reader rfl rfl
    (.read askInitialize.json.print rfl (by decide) rfl)) rfl)
  apply Reaches.step (.intro .right (.reader rfl rfl (.handler ⟨none, none⟩ rfl (.start rfl))) rfl)
  apply Reaches.step (.intro .right (.reader rfl rfl
    (.handler ⟨none, none⟩ rfl (.returns .null))) rfl)
  apply Reaches.step (.intro .right (.reader rfl rfl (.handlerFinishes rfl (.send rfl))) rfl)
  apply Reaches.step (.intro .left (.reader rfl rfl
    (.read initializeDone.json.print rfl (by decide) rfl)) rfl)
  apply Reaches.step (.intro .left (.reader rfl rfl (.matched rfl rfl)) rfl)
  apply Reaches.step (.intro .left (.reader rfl rfl (.submit rfl)) rfl)
  apply Reaches.step (.intro .left (.worker .worker 0 rfl (.take rfl rfl)) rfl)
  apply Reaches.step (.intro .left (.worker .worker 0 rfl (.invoke rfl)) rfl)
  refine Reaches.here ⟨?_, rfl, ?_, ?_, ?_⟩
  · intro d frame text hmem hserialize
    simp at hmem
    have hframe : d = .left ∧ frame = askInitialize ∨ d = .right ∧ frame = initializeDone := hmem
    rcases hframe with ⟨rfl, rfl⟩ | ⟨rfl, rfl⟩
    · rw [← Except.ok.inj hserialize]
      rfl
    · rw [← Except.ok.inj hserialize]
      rfl
  · exact List.mem_of_getElem? (i := 2) rfl
  · exact List.mem_of_getElem? (i := 11) rfl
  · intro call outcome hmem
    simp at hmem
    exact hmem.2

end Session

/-! ## What is read has been sent -/

/-- What the body that is read is parsed as. -/
def Label.parse? : Label → Option (Except ParseException ParsedMessage)
  | .read _ _ msg => some (.ok msg)
  | .parseThrew _ e => some (.error e)
  | _ => none

section Texts

variable {cfg : Config} {ls : List Label} {s : Server}

/-- A library that undoes the printing of the frames parses the texts as the frames. -/
lemma Runs.parse_texts (nl : Nlohmann) (h : Runs cfg ls s)
    (hparse : ∀ frame text, .sent frame ∈ ls → frame.serialize cfg.nl = .ok text →
      nl.parse text = .ok frame.json) :
    (ls.flatMap (Label.texts cfg.nl)).map (parseMessage nl) =
      (framesOf ls).map fun frame => .ok frame.parsed := by
  induction h with
  | nil => rfl
  | @snoc ls t u l _ hstep ih =>
    have hbefore := ih fun frame text hmem => hparse frame text (List.mem_append_left _ hmem)
    unfold framesOf at hbefore ⊢
    rw [List.flatMap_append, List.map_append, List.filterMap_append, List.map_append, hbefore,
      List.flatMap_singleton]
    refine congrArg _ ?_
    cases l with
    | sent frame =>
      rcases hstep.sent_printed.1 with ⟨text, htext⟩
      have hparsed := parseMessage_of_parse (hparse frame text (by simp) htext)
      rw [classify_json] at hparsed
      simp only [Label.texts, htext, List.map_singleton, hparsed]
      rfl
    | _ => rfl

lemma Runs.parse_bodies (h : Runs cfg ls s) :
    (ls.flatMap Label.bodies).map (parseMessage cfg.nl) = ls.filterMap Label.parse? := by
  induction h with
  | nil => rfl
  | @snoc ls t u l _ hstep ih =>
    rw [List.flatMap_append, List.map_append, List.filterMap_append, ih, List.flatMap_singleton]
    refine congrArg _ ?_
    cases l with
    | read m body msg =>
      have hparsed := hstep.read_inv.2.2.2.1
      simp only [Label.bodies, List.map_singleton, hparsed]
      rfl
    | parseThrew body e =>
      have hthrows := hstep.parseThrew_inv
      simp only [Label.bodies, List.map_singleton, hthrows]
      rfl
    | _ => rfl

end Texts

section Runs

variable {cfg : End → Config} {ls : List (End × Label)} {p : Linked Server Bytes} {d : End}

/-- Each end runs as a server does. -/
lemma PeersRuns.each (h : PeersRuns cfg ls p) (d : End) :
    Runs (cfg d) (side d ls) (p.ends d) :=
  run_side h d

/-- What one end has read, and what is on its way to it, is what the other end has sent. -/
theorem PeersRuns.parsed (h : PeersRuns cfg ls p) (hwire : Understood cfg ls) (d : End) :
    (side d ls).filterMap Label.parse? ++ (p.inFlight d).map (parseMessage (cfg d).nl) =
      (framesOf (side d.other ls)).map fun frame => .ok frame.parsed := by
  have hfifo := run_fifo h d
  have hempty : (.start fun d => .start (cfg d) : Linked Server Bytes).inFlight d = [] := rfl
  rw [hempty, List.nil_append] at hfifo
  have hsent := Runs.parse_texts (cfg d).nl (h.each d.other) fun frame text hmem htext => ?_
  · rw [← hsent, hfifo, List.map_append, Runs.parse_bodies (h.each d)]
  · have hparse := hwire d.other frame text (mem_side.mp hmem) htext
    rwa [End.other_other] at hparse

/-! ## What is sent, counted -/

/-- What a message that is read counts for. -/
def Label.received {α : Type} (f : ParsedMessage → Multiset α) : Label → Multiset α
  | .read _ _ msg => f msg
  | _ => 0

/-- What the message that a frame is parsed as counts for. -/
def Label.parsedAs {α : Type} (f : ParsedMessage → Multiset α) : Label → Multiset α
  | .sent frame => f frame.parsed
  | _ => 0

/-- What the result of parsing a body counts for. -/
def parsedCount {α : Type} (f : ParsedMessage → Multiset α) :
    Except ParseException ParsedMessage → Multiset α
  | .ok msg => f msg
  | .error _ => 0

/-- What the messages on their way to an end count for. -/
def inFlightCount {α : Type} (nl : Nlohmann) (f : ParsedMessage → Multiset α)
    (bodies : List Bytes) : Multiset α :=
  ((bodies.map (parseMessage nl)).map (parsedCount f)).sum

lemma total_received {α : Type} (f : ParsedMessage → Multiset α) (ks : List Label) :
    total (Label.received f) ks = ((ks.filterMap Label.parse?).map (parsedCount f)).sum := by
  induction ks with
  | nil => rfl
  | cons l ks ih =>
    rw [total_cons, ih]
    cases l with
    | read | parseThrew => rfl
    | _ => exact zero_add _

lemma total_parsedAs {α : Type} (f : ParsedMessage → Multiset α) (ks : List Label) :
    total (Label.parsedAs f) ks =
      (((framesOf ks).map fun frame => .ok frame.parsed).map (parsedCount f)).sum := by
  induction ks with
  | nil => rfl
  | cons l ks ih =>
    rw [total_cons, ih]
    cases l with
    | sent => rfl
    | _ => exact zero_add _

/-- Whatever is counted of the messages that one end has sent, the other has read as much, but for
what is on its way. -/
theorem PeersRuns.received {α : Type} (h : PeersRuns cfg ls p) (hwire : Understood cfg ls)
    (d : End) (f : ParsedMessage → Multiset α) :
    total (Label.received f) (side d ls) + inFlightCount (cfg d).nl f (p.inFlight d) =
      total (Label.parsedAs f) (side d.other ls) := by
  rw [total_received, total_parsedAs, ← h.parsed hwire d, List.map_append, List.sum_append]
  rfl

lemma PeersRuns.received_le {α : Type} (h : PeersRuns cfg ls p) (hwire : Understood cfg ls)
    (d : End) (f : ParsedMessage → Multiset α) :
    total (Label.received f) (side d ls) ≤ total (Label.parsedAs f) (side d.other ls) := by
  rw [← h.received hwire d f]
  exact Multiset.le_add_right _ _

/-- A message that is read is what a frame the other end has sent before is parsed as. -/
theorem PeersRuns.sent_of_read {ls₁ ls₂ : List (End × Label)} {m : ℕ} {body : Bytes}
    {msg : ParsedMessage} (h : PeersRuns cfg (ls₁ ++ (d, .read m body msg) :: ls₂) p)
    (hwire : Understood cfg (ls₁ ++ (d, .read m body msg) :: ls₂)) :
    ∃ frame, (d.other, .sent frame) ∈ ls₁ ∧ msg = frame.parsed := by
  have hparsed : parseMessage (cfg d).nl body = .ok msg :=
    Runs.parsed (m := m) (h.each d) (mem_side.mpr (by simp))
  rcases sent_of_received h rfl (List.mem_singleton_self body) with ⟨l, hmem, htext⟩
  rcases Label.mem_texts.mp htext with ⟨frame, rfl, hserialize⟩
  refine ⟨frame, mem_side.mp hmem, ?_⟩
  have hparse := hwire d.other frame body (List.mem_append_left _ (mem_side.mp hmem)) hserialize
  rw [End.other_other] at hparse
  rw [parseMessage_of_parse hparse, classify_json] at hparsed
  exact (Except.ok.inj hparsed).symm

/-! ## Requests and responses -/

/-- The id of a request. -/
def ParsedMessage.asks : ParsedMessage → Multiset RequestId
  | .request req => {req.id}
  | _ => 0

/-- The id of a response. -/
def ParsedMessage.responds : ParsedMessage → Multiset RequestId
  | .response resp => {resp.id}
  | _ => 0

lemma Label.received_asks : Label.received ParsedMessage.asks = Label.asked := by
  funext l
  cases l with
  | read m body msg => cases msg <;> rfl
  | _ => rfl

lemma Label.parsedAs_asks :
    Label.parsedAs ParsedMessage.asks = fun l => l.requested.map RequestId.int := by
  funext l
  cases l with
  | sent frame => cases frame <;> rfl
  | _ => rfl

lemma Label.parsedAs_responds : Label.parsedAs ParsedMessage.responds = Label.answered := by
  funext l
  cases l with
  | sent frame => cases frame <;> rfl
  | _ => rfl

lemma Label.responded_le (l : Label) :
    l.responded.map RequestId.int ≤ l.received ParsedMessage.responds := by
  cases l with
  | read m body msg =>
    cases msg with
    | response resp =>
      rcases resp with ⟨id, payload⟩
      cases id with
      | int id => exact le_refl _
      | str => exact Multiset.zero_le _
    | _ => exact Multiset.zero_le _
  | _ => exact Multiset.zero_le _

/-- The responses an end reads answer requests it has sent, one each: the other end does not answer
more than it has been asked. -/
theorem PeersRuns.received_responds_le (h : PeersRuns cfg ls p) (hwire : Understood cfg ls)
    (d : End) :
    total (Label.received ParsedMessage.responds) (side d ls) ≤
      (total Label.requested (side d ls)).map RequestId.int := by
  have hsent : total Label.answered (side d.other ls) ≤ total Label.asked (side d.other ls) := by
    rw [← Runs.balance (h.each d.other)]
    exact Multiset.le_add_right _ _
  have hread := h.received_le hwire d ParsedMessage.responds
  have hasked := h.received_le hwire d.other ParsedMessage.asks
  rw [Label.parsedAs_responds] at hread
  rw [Label.received_asks, Label.parsedAs_asks, End.other_other, ← map_total] at hasked
  exact hread.trans (hsent.trans hasked)

lemma PeersRuns.responded_le (h : PeersRuns cfg ls p) (hwire : Understood cfg ls) (d : End) :
    total Label.responded (side d ls) ≤ total Label.requested (side d ls) := by
  have hinj : Function.Injective RequestId.int := fun _ _ h => RequestId.int.inj h
  rw [← Multiset.map_le_map_iff hinj, map_total]
  exact (total_mono Label.responded_le _).trans (h.received_responds_le hwire d)

/-- A response that is read carries the id of a call that has registered its callback. -/
lemma PeersRuns.registered_of_response (h : PeersRuns cfg ls p) (hwire : Understood cfg ls)
    (hcalls : (p.ends d).senders.length < 2 ^ 32) {m : ℕ} {body : Bytes} {resp : ParsedResponse}
    (hmem : (d, .read m body (.response resp)) ∈ ls) :
    ∃ k, resp.id = .int (callId k) ∧ .registered k (callId k) ∈ side d ls ∧
      ∃ method params, (d, .sent (.request (callId k) method params)) ∈ ls := by
  have hreceived : resp.id ∈ total (Label.received ParsedMessage.responds) (side d ls) :=
    mem_total.mpr ⟨_, mem_side.mpr hmem, Multiset.mem_singleton_self _⟩
  have hrequested := Multiset.mem_of_le (h.received_responds_le hwire d) hreceived
  rcases Multiset.mem_map.mp hrequested with ⟨id, hid, heq⟩
  rcases mem_total.mp hid with ⟨l, hl, hlid⟩
  cases l with
  | sent frame =>
    cases frame with
    | request id' method params =>
      have hid' : id = id' := Multiset.mem_singleton.mp hlid
      subst hid'
      rcases (Runs.registeredFirst (h.each d)).sent id method params hl with ⟨k, -, hregistered⟩
      obtain rfl := Runs.id_of_registered (h.each d) hcalls hregistered
      exact ⟨k, heq.symm, hregistered, method, params, mem_side.mp hl⟩
    | _ => exact absurd hlid (Multiset.notMem_zero _)
  | _ => exact absurd hlid (Multiset.notMem_zero _)

/-! ## Calls across the channel -/

/-- Dispatch, handler and reply of the other end: a request frame is parsed as its own request. -/
lemma Frame.eq_request_of_parsed {frame : Frame} {req : ParsedRequest}
    (h : frame.parsed = .request req) :
    ∃ id, req.id = .int id ∧ frame = .request id req.method req.params := by
  cases frame with
  | request id method params =>
    rw [← ParsedMessage.request.inj h]
    exact ⟨id, rfl, rfl⟩
  | _ => exact absurd h (by simp [Frame.parsed, invalidRequest])

/-- A response is a result or an error frame with its id. -/
lemma Frame.eq_of_parsed_response {frame : Frame} {resp : ParsedResponse}
    (h : frame.parsed = .response resp) :
    (resp.isError = false ∧ frame = .result resp.id resp.payload) ∨
      resp.isError = true ∧ ∃ code message, resp.payload = Frame.errorObject code message ∧
        frame = .error resp.id code message := by
  cases frame with
  | result id value =>
    rw [← ParsedMessage.response.inj h]
    exact Or.inl ⟨rfl, rfl⟩
  | error id code message =>
    rw [← ParsedMessage.response.inj h]
    exact Or.inr ⟨rfl, code, message, rfl, rfl⟩
  | _ => exact absurd h (by simp [Frame.parsed, invalidRequest])

/-- A request that is read is one the other end has sent. -/
lemma PeersRuns.request_of_read (h : PeersRuns cfg ls p) (hwire : Understood cfg ls) {m : ℕ}
    {body : Bytes} {req : ParsedRequest} (hmem : (d, .read m body (.request req)) ∈ ls) :
    ∃ id, req.id = .int id ∧ (d.other, .sent (.request id req.method req.params)) ∈ ls := by
  rcases List.append_of_mem hmem with ⟨ls₁, ls₂, rfl⟩
  rcases h.sent_of_read hwire with ⟨frame, hframe, heq⟩
  rcases Frame.eq_request_of_parsed heq.symm with ⟨id, hid, rfl⟩
  exact ⟨id, hid, List.mem_append_left _ hframe⟩

/-- A value that a handler returns is returned for a request that the other end has sent. -/
lemma PeersRuns.request_of_handled {ls₁ ls₂ : List (End × Label)} {call : RequestCall}
    {outcome : Except Exn Json}
    (h : PeersRuns cfg (ls₁ ++ (d, .handlerEnded call outcome) :: ls₂) p)
    (hwire : Understood cfg (ls₁ ++ (d, .handlerEnded call outcome) :: ls₂)) :
    ∃ id, call.id = .int id ∧ (d.other, .sent (.request id call.method call.params)) ∈ ls₁ := by
  rcases h.split_at with ⟨q, q', hrun, hstep, -⟩
  have hrun : PeersRuns cfg ls₁ q := hrun
  have hcall : call ∈ (q.ends d).calls := by
    cases hstep with
    | intro _ hstep _ =>
      rcases hstep.handler_inv rfl with ⟨pc, r, hhandles, -⟩
      exact hhandles.mem_calls
  rcases Runs.request_of_call (hrun.each d) hcall with ⟨m, body, req, handler, token, hread, rfl⟩
  exact hrun.request_of_read hwire.of_append (mem_side.mp hread)

/-- A response that is sent answers a request that the other end has sent. -/
lemma PeersRuns.request_of_answered {ls₁ ls₂ : List (End × Label)} {frame : Frame} {id : RequestId}
    (h : PeersRuns cfg (ls₁ ++ (d, .sent frame) :: ls₂) p)
    (hwire : Understood cfg (ls₁ ++ (d, .sent frame) :: ls₂)) (hframe : frame.answers = some id) :
    ∃ id' method params, id = .int id' ∧
      (d.other, .sent (.request id' method params)) ∈ ls₁ := by
  rcases h.split_at with ⟨q, q', hrun, hstep, -⟩
  have hrun : PeersRuns cfg ls₁ q := hrun
  have hrun' : PeersRuns cfg (ls₁ ++ [(d, .sent frame)]) q' := hrun.snoc hstep
  have hanswered : id ∈ total Label.answered (side d (ls₁ ++ [(d, .sent frame)])) := by
    refine mem_total.mpr ⟨.sent frame, mem_side.mpr (by simp), ?_⟩
    show id ∈ frame.answered
    unfold Frame.answered
    rw [hframe]
    exact Multiset.mem_singleton_self id
  have hasked : id ∈ total Label.asked (side d (ls₁ ++ [(d, .sent frame)])) := by
    rw [← Runs.balance (hrun'.each d)]
    exact Multiset.mem_add.mpr (Or.inl hanswered)
  rcases mem_total.mp hasked with ⟨l, hl, hid⟩
  rcases List.mem_append.mp (mem_side.mp hl) with hmem | hmem
  · cases l with
    | read m body msg =>
      cases msg with
      | request req =>
        have hid' : id = req.id := Multiset.mem_singleton.mp hid
        rcases hrun.request_of_read hwire.of_append hmem with ⟨id', hreq, hsent⟩
        exact ⟨id', req.method, req.params, hid'.trans hreq, hsent⟩
      | _ => exact absurd hid (Multiset.notMem_zero _)
    | _ => exact absurd hid (Multiset.notMem_zero _)
  · rw [(Prod.mk.inj (List.mem_singleton.mp hmem)).2] at hid
    exact absurd hid (Multiset.notMem_zero _)

/-- One request frame for each id. -/
lemma PeersRuns.request_unique (h : PeersRuns cfg ls p)
    (hcalls : (p.ends d).senders.length < 2 ^ 32) {id : Int32} {method method' : Bytes}
    {params params' : Json}
    (hmem : (d, .sent (.request id method params)) ∈ ls)
    (hmem' : (d, .sent (.request id method' params')) ∈ ls) :
    method' = method ∧ params' = params := by
  have heq : Label.sent (.request id method params) = .sent (.request id method' params') :=
    eq_of_total_nodup (Runs.requested_nodup (h.each d) hcalls) (mem_side.mpr hmem)
      (mem_side.mpr hmem') (Multiset.mem_singleton_self id) (Multiset.mem_singleton_self id)
  injection heq with heq
  injection heq with _ hmethod hparams
  exact ⟨hmethod.symm, hparams.symm⟩

/-- A callback is called with a response the other end has sent under the id of its call. -/
lemma PeersRuns.response_of_called {ls₁ ls₂ : List (End × Label)} {k : ℕ} {payload : Json}
    {isError : Bool} (h : PeersRuns cfg (ls₁ ++ (d, .callbackInvoked k payload isError) :: ls₂) p)
    (hwire : Understood cfg (ls₁ ++ (d, .callbackInvoked k payload isError) :: ls₂))
    (hcalls : (p.ends d).senders.length < 2 ^ 32) :
    ∃ frame resp, (d.other, .sent frame) ∈ ls₁ ∧ frame.parsed = .response resp ∧
      resp.id = .int (callId k) ∧ resp.payload = payload ∧ resp.isError = isError := by
  have hside := h.each d
  rw [side_append, side_cons_self] at hside
  rcases Runs.called_first hside hcalls with ⟨resp, hfirst, hpayload, hisError⟩
  rcases hside.split with ⟨s, hbefore, hrest⟩
  have hlength := senders_length_of_run hrest
  rcases hfirst with ⟨ms₁, ms₂, ms₃, id, found, heq, -⟩
  rw [heq] at hbefore
  have hregistered : .registered k id ∈
      ms₁ ++ .registered k id :: (ms₂ ++ .responseTaken resp id found :: ms₃) := by simp
  have htaken : .responseTaken resp id found ∈
      ms₁ ++ .registered k id :: (ms₂ ++ .responseTaken resp id found :: ms₃) := by simp
  have hid := Runs.id_of_registered hbefore (by omega) hregistered
  subst hid
  rcases Runs.read_of_lookedUp hbefore htaken with ⟨hrespId, m, body, hread⟩
  rw [← heq] at hread
  rcases List.append_of_mem (mem_side.mp hread) with ⟨ls₃, ls₄, rfl⟩
  rcases h.split with ⟨q, hrun, -⟩
  rcases PeersRuns.sent_of_read hrun hwire.of_append with ⟨frame, hframe, hparsed⟩
  exact ⟨frame, resp, List.mem_append_left _ hframe, hparsed.symm, hrespId, hpayload, hisError⟩

/-- A result that a callback gets has been returned by the handler at the other end, for the request
of the call. -/
lemma PeersRuns.result_of_called {ls₁ ls₂ : List (End × Label)} {k : ℕ} {payload : Json}
    (h : PeersRuns cfg (ls₁ ++ (d, .callbackInvoked k payload false) :: ls₂) p)
    (hwire : Understood cfg (ls₁ ++ (d, .callbackInvoked k payload false) :: ls₂))
    (hcalls : (p.ends d).senders.length < 2 ^ 32) :
    ∃ ls₃ ls₄ call, ls₁ = ls₃ ++ (d.other, .handlerEnded call (.ok payload)) :: ls₄ ∧
      call.id = .int (callId k) ∧
      (d, .sent (.request (callId k) call.method call.params)) ∈ ls₃ := by
  rcases h.response_of_called hwire hcalls with
    ⟨frame, resp, hframe, hparsed, hid, rfl, hisError⟩
  rcases Frame.eq_of_parsed_response hparsed with ⟨-, rfl⟩ | ⟨htrue, -⟩
  · rcases h.split with ⟨q, hrun, -⟩
    have hrun : PeersRuns cfg ls₁ q := hrun
    rcases (Runs.resultsReturned (hrun.each d.other)).sent _ _ (mem_side.mpr hframe) with
      ⟨call, hcall, hended⟩
    rcases List.append_of_mem (mem_side.mp hended) with ⟨ls₃, ls₄, rfl⟩
    rcases hrun.request_of_handled hwire.of_append with ⟨id, hcallId, hsent⟩
    rw [End.other_other] at hsent
    have hid' : callId k = id := RequestId.int.inj (hid.symm.trans (hcall.symm.trans hcallId))
    subst hid'
    exact ⟨ls₃, ls₄, call, rfl, hcallId, hsent⟩
  · exact absurd (hisError.symm.trans htrue) (by simp)

/-- An error that a callback gets has been sent by the other end, for the request of the call. -/
lemma PeersRuns.error_of_called {ls₁ ls₂ : List (End × Label)} {k : ℕ} {payload : Json}
    (h : PeersRuns cfg (ls₁ ++ (d, .callbackInvoked k payload true) :: ls₂) p)
    (hwire : Understood cfg (ls₁ ++ (d, .callbackInvoked k payload true) :: ls₂))
    (hcalls : (p.ends d).senders.length < 2 ^ 32) :
    ∃ ls₃ ls₄ code message,
      ls₁ = ls₃ ++ (d.other, .sent (.error (.int (callId k)) code message)) :: ls₄ ∧
      payload = Frame.errorObject code message ∧
      ∃ method params, (d, .sent (.request (callId k) method params)) ∈ ls₃ := by
  rcases h.response_of_called hwire hcalls with
    ⟨frame, resp, hframe, hparsed, hid, rfl, hisError⟩
  rcases Frame.eq_of_parsed_response hparsed with ⟨hfalse, -⟩ | ⟨-, code, message, hpayload, rfl⟩
  · exact absurd (hisError.symm.trans hfalse) (by simp)
  · rcases List.append_of_mem hframe with ⟨ls₃, ls₄, rfl⟩
    rcases h.split with ⟨q, hrun, -⟩
    rcases PeersRuns.request_of_answered hrun hwire.of_append rfl with
      ⟨id, method, params, hid', hsent⟩
    rw [End.other_other] at hsent
    rw [hid] at hid' ⊢
    rw [← RequestId.int.inj hid'] at hsent
    exact ⟨ls₃, ls₄, code, message, rfl, hpayload, method, params, hsent⟩

/-- What is expected of the calls that one of two servers makes of the other. -/
structure RemoteCalls (ls : List (End × Label)) (d : End) : Prop where
  once : ∀ k, (invocations k (side d ls)).card ≤ 1
  /-- A result is what the handler at the other end has returned for the request of the call, which
  was sent before. -/
  result : ∀ ls₁ ls₂ k payload, ls = ls₁ ++ (d, .callbackInvoked k payload false) :: ls₂ →
    ∃ ls₃ ls₄ call, ls₁ = ls₃ ++ (d.other, .handlerEnded call (.ok payload)) :: ls₄ ∧
      call.id = .int (callId k) ∧
      (d, .sent (.request (callId k) call.method call.params)) ∈ ls₃
  /-- An error is one that the other end has sent for the request of the call. -/
  error : ∀ ls₁ ls₂ k payload, ls = ls₁ ++ (d, .callbackInvoked k payload true) :: ls₂ →
    ∃ ls₃ ls₄ code message,
      ls₁ = ls₃ ++ (d.other, .sent (.error (.int (callId k)) code message)) :: ls₄ ∧
      payload = Frame.errorObject code message ∧
      ∃ method params, (d, .sent (.request (callId k) method params)) ∈ ls₃

/-- **Remote calls.** In every run of two servers, whatever they send each other in either
direction, the callback of a call is called once at most, and with the outcome of that call. -/
theorem remote_calls (cfg : End → Config) (ls : List (End × Label)) (p : Linked Server Bytes)
    (h : PeersRuns cfg ls p) (hwire : Understood cfg ls) (d : End)
    (hcalls : (p.ends d).senders.length < 2 ^ 32) : RemoteCalls ls d := by
  refine ⟨fun k => Runs.called_once (h.each d) hcalls k, ?_, ?_⟩
  · rintro ls₁ ls₂ k payload rfl
    exact h.result_of_called hwire hcalls
  · rintro ls₁ ls₂ k payload rfl
    exact h.error_of_called hwire hcalls

/-- The call of the session. -/
theorem remote_calls_session :
    Reaches (PeersStep Session.peersConfig) (.start fun d => .start (Session.peersConfig d))
      fun ls _ => (.left, .callbackInvoked 0 .null false) ∈ ls ∧ RemoteCalls ls .left := by
  rcases Session.peers_call with ⟨ls, p, hrun, hwire, hlength, -, hcalled, -⟩
  refine ⟨ls, p, hrun, hcalled, ?_⟩
  exact remote_calls Session.peersConfig ls p hrun hwire .left (by omega)

/-! ## No response is lost -/

lemma lookedUp_le_of_mem {ms : List Label} {resp : ParsedResponse} {id : Int32}
    {found : Option ResponseCallback} (hmem : .responseTaken resp id found ∈ ms) :
    {id} ≤ total Label.lookedUp ms :=
  Multiset.singleton_le.mpr (mem_total.mpr ⟨_, hmem, Multiset.mem_singleton_self _⟩)

/-- What is looked up once is not looked up before. -/
lemma notMem_of_lookedUp_nodup {ks₁ ks₂ : List Label} {resp resp' : ParsedResponse} {id : Int32}
    {found found' : Option ResponseCallback}
    (h : (total Label.lookedUp (ks₁ ++ .responseTaken resp id found :: ks₂)).Nodup) :
    .responseTaken resp' id found' ∉ ks₁ := by
  intro hmem
  rw [total_append] at h
  have htwice : ({id} + {id} : Multiset Int32) ≤ total Label.lookedUp ks₁ +
      total Label.lookedUp (.responseTaken resp id found :: ks₂) :=
    add_le_add (lookedUp_le_of_mem hmem) (lookedUp_le_of_mem List.mem_cons_self)
  exact absurd (Multiset.nodup_of_le htwice h) (by simp)

lemma PeersRuns.lookedUp_nodup (h : PeersRuns cfg ls p) (hwire : Understood cfg ls)
    (hcalls : (p.ends d).senders.length < 2 ^ 32) :
    (total Label.lookedUp (side d ls)).Nodup := by
  have hlooked := le_of_le_of_eq (Multiset.le_add_right _ _) (Runs.lookedUp (h.each d))
  exact Multiset.nodup_of_le (hlooked.trans (h.responded_le hwire d))
    (Runs.requested_nodup (h.each d) hcalls)

/-- A response is read after the callback of its call has been registered, and the first one that
is looked up after that is itself. -/
lemma PeersRuns.first_of_read {ls₁ ls₂ : List (End × Label)} {m : ℕ} {body : Bytes}
    {resp : ParsedResponse} (h : PeersRuns cfg (ls₁ ++ (d, .read m body (.response resp)) :: ls₂) p)
    (hwire : Understood cfg (ls₁ ++ (d, .read m body (.response resp)) :: ls₂))
    (hcalls : (p.ends d).senders.length < 2 ^ 32) (hret : (p.ends d).reader = .returned) :
    ∃ k, resp.id = .int (callId k) ∧
      FirstResponse k resp (side d (ls₁ ++ (d, .read m body (.response resp)) :: ls₂)) := by
  have hnodup := h.lookedUp_nodup hwire hcalls
  have hside := h.each d
  have happ : ls₁ ++ (d, .read m body (.response resp)) :: ls₂ =
      (ls₁ ++ [(d, .read m body (.response resp))]) ++ ls₂ := by simp
  rcases (happ ▸ h).split with ⟨q, hrun, hrest⟩
  have hrun : PeersRuns cfg (ls₁ ++ [(d, .read m body (.response resp))]) q := hrun
  have hlength := senders_length_of_run (run_side hrest d)
  rw [happ] at hwire
  rcases hrun.registered_of_response hwire.of_append (by omega)
    (List.mem_append_right _ List.mem_cons_self) with ⟨k, hid, hregistered, -⟩
  rw [side_append, side_cons_self] at hregistered hside hnodup ⊢
  have hregistered : .registered k (callId k) ∈ side d ls₁ := by simpa using hregistered
  rcases Runs.processed_of_returned hside hret hid with ⟨found, htaken⟩
  rcases List.append_of_mem hregistered with ⟨ns₁, ns₂, hns⟩
  rcases List.append_of_mem htaken with ⟨ms₁, ms₂, hms⟩
  rw [hns, hms] at hnodup ⊢
  refine ⟨k, hid, ns₁, ns₂ ++ .read m body (.response resp) :: ms₁, ms₂, callId k, found,
    by simp, ?_⟩
  intro resp' found' hmem
  have hall : ns₁ ++ .registered k (callId k) :: ns₂ ++ .read m body (.response resp) ::
      (ms₁ ++ .responseTaken resp (callId k) found :: ms₂) =
      (ns₁ ++ .registered k (callId k) :: (ns₂ ++ .read m body (.response resp) :: ms₁)) ++
        .responseTaken resp (callId k) found :: ms₂ := by simp
  rw [hall] at hnodup
  exact notMem_of_lookedUp_nodup hnodup
    (List.mem_append_right _ (List.mem_cons_of_mem _ hmem))

/-- A response that is looked up finds the callback of its call. -/
lemma PeersRuns.found_of_taken (h : PeersRuns cfg ls p) (hwire : Understood cfg ls)
    (hcalls : (p.ends d).senders.length < 2 ^ 32) {resp : ParsedResponse} {id : Int32}
    {found : Option ResponseCallback} (hmem : (d, .responseTaken resp id found) ∈ ls) :
    ∃ cb, found = some cb ∧ id = callId cb.call := by
  rcases List.append_of_mem hmem with ⟨ls₁, ls₂, rfl⟩
  have hnodup := h.lookedUp_nodup hwire hcalls
  rw [side_append, side_cons_self] at hnodup
  have hnone : ∀ resp' found', .responseTaken resp' id found' ∉ side d ls₁ :=
    fun resp' found' => notMem_of_lookedUp_nodup hnodup
  rcases h.split_at with ⟨q, q', hrun, hstep, hrest⟩
  have hrun : PeersRuns cfg ls₁ q := hrun
  have hlength := senders_length_of_run (run_side hrest d)
  have hstep := hstep.of_end.1
  have hbefore := hstep.senders_length
  rcases (Runs.origins (hrun.each d)).responding resp id hstep.responseTaken_inv.1 with
    ⟨m, body, hread, hid, -⟩
  rcases hrun.registered_of_response hwire.of_append (by omega) (mem_side.mp hread) with
    ⟨k, hk, hregistered, -⟩
  have hid' : id = callId k := RequestId.int.inj (hid.symm.trans hk)
  subst hid'
  rcases Runs.found_of_first (hrun.each d) (by omega) hregistered hnone hstep with
    ⟨cb, hfound, hcb⟩
  exact ⟨cb, hfound, by rw [hcb]⟩

/-- What is expected of the responses to the calls of one of two servers. -/
structure ResponsesMatched (ls : List (End × Label)) (p : Linked Server Bytes) (d : End) :
    Prop where
  /-- Every response that is looked up finds the callback of its call. -/
  found : ∀ resp id found, (d, .responseTaken resp id found) ∈ ls →
    ∃ cb, found = some cb ∧ id = callId cb.call
  /-- When `run` has returned, every response it has read has been passed to a callback. -/
  called : (p.ends d).reader = .returned → ∀ m body resp, (d, .read m body (.response resp)) ∈ ls →
    ∃ k, resp.id = .int (callId k) ∧ (d, .callbackInvoked k resp.payload resp.isError) ∈ ls

/-- **No response is lost.** In every run of two servers each response that comes back finds the
callback it is for, and is passed to it by the time `run` returns. -/
theorem responses_matched (cfg : End → Config) (ls : List (End × Label)) (p : Linked Server Bytes)
    (h : PeersRuns cfg ls p) (hwire : Understood cfg ls) (d : End)
    (hcalls : (p.ends d).senders.length < 2 ^ 32) : ResponsesMatched ls p d := by
  refine ⟨fun resp id found => h.found_of_taken hwire hcalls, ?_⟩
  intro hret m body resp hmem
  rcases List.append_of_mem hmem with ⟨ls₁, ls₂, rfl⟩
  rcases h.first_of_read hwire hcalls hret with ⟨k, hid, hfirst⟩
  exact ⟨k, hid, mem_side.mp (Runs.called_of_returned (h.each d) hcalls hret hfirst)⟩

theorem responses_matched_session :
    Reaches (PeersStep Session.peersConfig) (.start fun d => .start (Session.peersConfig d))
      fun ls p => (.left, .callbackInvoked 0 .null false) ∈ ls ∧ ResponsesMatched ls p .left := by
  rcases Session.peers_call with ⟨ls, p, hrun, hwire, hlength, -, hcalled, -⟩
  refine ⟨ls, p, hrun, hcalled, ?_⟩
  exact responses_matched Session.peersConfig ls p hrun hwire .left (by omega)

end Runs

end CLSP
