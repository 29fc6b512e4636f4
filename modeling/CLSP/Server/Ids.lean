import CLSP.Rpc.Codec
import CLSP.Server.Requests
import CLSP.Server.Responses

/-!
# Ids on the wire

The integers of a JSON text have 64 bits and the ids of the server 32. Each id that comes in is cast
without a range check, so that ids beyond 32 bits are folded: a response then carries another id
than its request, and two requests, or two outgoing requests, may be taken for one. A run carries
its ids unchanged exactly when no such id is used.
-/

namespace CLSP

open Transition (total total_congr map_total mem_total Run Reaches)

/-! ## The ids of frames -/

/-- The `"id"` member. -/
def Json.idMember : Json → Option Json
  | .object members => members.lookup (str "id")
  | _ => none

/-- The id of a frame that was read, as the frame has it. -/
def frameId (nl : Nlohmann) (body : Bytes) : Option Json :=
  match nl.parse body with
  | .ok j => j.idMember
  | .error _ => none

/-- The id of a request is cast from the one in its frame. -/
lemma frameId_of_request {nl : Nlohmann} {body : Bytes} {req : ParsedRequest}
    (h : parseMessage nl body = .ok (.request req)) :
    ∃ j, frameId nl body = some j ∧ idFromJson j = some req.id := by
  unfold parseMessage at h
  split at h
  · next j hparse =>
    rcases classify_eq_request (Except.ok.inj h) with ⟨members, id, rfl, hid, hfrom⟩
    refine ⟨id, ?_, hfrom⟩
    simp only [frameId, hparse]
    exact hid
  · exact absurd (Except.ok.inj h) (by simp)
  · exact absurd h (by simp)

lemma frameId_of_response {nl : Nlohmann} {body : Bytes} {resp : ParsedResponse}
    (h : parseMessage nl body = .ok (.response resp)) :
    ∃ j, frameId nl body = some j ∧ idFromJson j = some resp.id := by
  unfold parseMessage at h
  split at h
  · next j hparse =>
    rcases classify_eq_response (Except.ok.inj h) with ⟨members, id, rfl, hid, hfrom⟩
    refine ⟨id, ?_, hfrom⟩
    simp only [frameId, hparse]
    exact hid
  · exact absurd (Except.ok.inj h) (by simp)
  · exact absurd h (by simp)

/-- The id a response frame is sent with. -/
lemma idMember_of_answers {frame : Frame} {id : RequestId} (h : frame.answers = some id) :
    frame.json.idMember = some (idToJson id) := by
  cases frame with
  | result id' value =>
    rw [← Option.some.inj h]
    rfl
  | error id' code message =>
    rw [← Option.some.inj h]
    rfl
  | _ => exact absurd h (by simp [Frame.answers])

/-- Whatever a server writes as an id fits. -/
lemma fitsId_of_idMember {frame : Frame} {j : Json} (h : frame.json.idMember = some j) :
    j.FitsId := by
  cases frame with
  | result id value =>
    rw [← Option.some.inj h]
    exact fitsId_idToJson id
  | error id code message =>
    rw [← Option.some.inj h]
    exact fitsId_idToJson id
  | errorNull code message =>
    rw [← Option.some.inj h]
    trivial
  | request id method params =>
    rw [← Option.some.inj h]
    exact fitsId_idToJson (.int id)
  | notification method params => exact absurd h.symm (Option.some_ne_none j)

/-! ## The ids of a run -/

/-- The body of the message a step reads. -/
def Label.readBody? : Label → Option Bytes
  | .read _ body _ => some body
  | _ => none

/-- The bodies of the messages read in a run. -/
def readsOf (ls : List Label) : List Bytes :=
  ls.filterMap Label.readBody?

/-- The id in the frame of a message, by its place. -/
def idOf (nl : Nlohmann) (ls : List Label) (serial : ℕ) : Option Json :=
  (readsOf ls)[serial]?.bind (frameId nl)

/-- The id in the frame of the last message. -/
def lastId (nl : Nlohmann) (ls : List Label) : Option Json :=
  (readsOf ls).getLast?.bind (frameId nl)

/-- The id in the frame of a request that a step reads. -/
def Label.askedId (nl : Nlohmann) : Label → Multiset Json
  | .read _ body (.request _) => (frameId nl body).elim 0 fun j => {j}
  | _ => 0

/-- The id in the response frame that a step sends. -/
def Label.answeredId : Label → Multiset Json
  | .sent frame => if frame.answers.isSome then frame.json.idMember.elim 0 fun j => {j} else 0
  | _ => 0

lemma readsOf_concat_read (ls : List Label) (m : ℕ) (body : Bytes) (msg : ParsedMessage) :
    readsOf (ls ++ [.read m body msg]) = readsOf ls ++ [body] := by
  simp [readsOf, Label.readBody?]

lemma readsOf_concat {l : Label} (hl : ∀ m body msg, l ≠ .read m body msg) (ls : List Label) :
    readsOf (ls ++ [l]) = readsOf ls := by
  cases l with
  | read m body msg => exact absurd rfl (hl m body msg)
  | _ => simp [readsOf, Label.readBody?]

lemma Label.askedId_of_request {nl : Nlohmann} {body : Bytes} {j : Json}
    (h : frameId nl body = some j) (m : ℕ) (req : ParsedRequest) :
    (Label.read m body (.request req)).askedId nl = {j} := by
  simp only [Label.askedId, h, Option.elim]

lemma Label.answeredId_eq (l : Label) : l.answeredId = l.answered.map idToJson := by
  cases l with
  | sent frame =>
    show (if frame.answers.isSome then _ else _) = frame.answered.map idToJson
    unfold Frame.answered
    rcases h : frame.answers with _ | id
    · rfl
    · rw [idMember_of_answers h]
      rfl
  | _ => rfl

/-! ## Whose id a frame carries -/

section Steps

variable {cfg : Config} {ls : List Label} {s s' : Server} {l : Label}

/-- The messages that the threads are busy with. -/
structure Origins (ls : List Label) (s : Server) : Prop where
  numbered : (readsOf ls).length = s.messagesRead
  calls : ∀ call ∈ s.calls, ∃ body req, .read call.serial body (.request req) ∈ ls ∧
    req.id = call.id ∧ (readsOf ls)[call.serial]? = some body
  sending : ∀ frame id, s.reader = .sending frame → frame.answers = some id →
    ∃ m body req, .read m body (.request req) ∈ ls ∧ req.id = id ∧
      (readsOf ls).getLast? = some body
  responding : ∀ resp id, s.reader = .responding resp id →
    ∃ m body, .read m body (.response resp) ∈ ls ∧ resp.id = .int id ∧
      (readsOf ls).getLast? = some body

/-- A step that reads nothing leaves the threads busy with the messages they had. -/
lemma Origins.quiet (hs : Origins ls s) (hphased : s.Phased) (h : Step cfg s l s')
    (hl : ∀ m body msg, l ≠ .read m body msg) : Origins (ls ++ [l]) s' := by
  have hreads := readsOf_concat hl ls
  refine ⟨?_, ?_, ?_, ?_⟩
  · rw [hreads, h.messagesRead_eq hl]
    exact hs.numbered
  · intro call hcall
    rw [hreads]
    rcases h.origin hphased hcall with hcall | ⟨body, req, _, rfl, -⟩
    · rcases hs.calls call hcall with ⟨body, req, hmem, hid, hbody⟩
      exact ⟨body, req, List.mem_append_left _ hmem, hid, hbody⟩
    · exact absurd rfl (hl _ body _)
  · intro frame id hr hframe
    rw [hreads]
    rcases hs.sending frame id ((h.handling hl).1 frame hr) hframe with
      ⟨m, body, req, hmem, hid, hbody⟩
    exact ⟨m, body, req, List.mem_append_left _ hmem, hid, hbody⟩
  · intro resp id hr
    rw [hreads]
    rcases hs.responding resp id ((h.handling hl).2 resp id hr) with ⟨m, body, hmem, hid, hbody⟩
    exact ⟨m, body, List.mem_append_left _ hmem, hid, hbody⟩

/-- The message that is read is the last one. -/
lemma Origins.read (hs : Origins ls s) (hphased : s.Phased) {m : ℕ} {body : Bytes}
    {msg : ParsedMessage} (h : Step cfg s (.read m body msg) s') :
    Origins (ls ++ [.read m body msg]) s' := by
  have hreads := readsOf_concat_read ls m body msg
  have hserial := h.serial_of_read
  have horigin : ∀ call ∈ s'.calls, call ∈ s.calls ∨ ∃ body' req handler,
      Label.read m body msg = .read s.messagesRead body' (.request req) ∧
        call = req.call s.messagesRead handler s.flags.length :=
    fun call hcall => h.origin hphased hcall
  rcases h.read_inv with ⟨-, -, -, -, rfl⟩
  have houtcome := dispatch_outcome cfg s.state_ s.messagesRead s.flags.length msg
  refine ⟨?_, ?_, ?_, ?_⟩
  · rw [hreads, List.length_append, hs.numbered]
    rfl
  · intro call hcall
    rw [hreads]
    rcases horigin call hcall with hcall | ⟨body', req, handler, heq, rfl⟩
    · rcases hs.calls call hcall with ⟨body', req, hmem, hid, hbody⟩
      rcases List.getElem?_eq_some_iff.mp hbody with ⟨hlt, -⟩
      refine ⟨body', req, List.mem_append_left _ hmem, hid, ?_⟩
      rw [List.getElem?_append_left hlt]
      exact hbody
    · -- the request that has just been read
      rcases Label.read.inj heq with ⟨-, rfl, rfl⟩
      refine ⟨body, req, ?_, rfl, ?_⟩
      · show Label.read s.messagesRead body (.request req) ∈ _
        rw [← hserial]
        simp
      · show (readsOf ls ++ [body])[s.messagesRead]? = some body
        rw [← hs.numbered]
        exact List.getElem?_concat_length
  · intro frame id hr hframe
    rw [hreads, List.getLast?_concat]
    rcases houtcome.rejected hr hframe with ⟨req, rfl, hid⟩
    exact ⟨m, body, req, by simp, hid, rfl⟩
  · intro resp id hr
    rw [hreads, List.getLast?_concat]
    rcases houtcome.responding hr with ⟨rfl, hid⟩
    exact ⟨m, body, by simp, hid, rfl⟩

theorem Runs.origins (h : Runs cfg ls s) : Origins ls s := by
  have hboth : Origins ls s ∧ s.Phased := by
    apply h.history (I := fun ls s => Origins ls s ∧ s.Phased)
    · refine ⟨⟨rfl, ?_, ?_, ?_⟩, phased_start cfg⟩
      · intro call hcall
        have hnone : (Server.start cfg).calls = 0 := Server.held_start rfl cfg
        rw [hnone] at hcall
        exact absurd hcall (Multiset.notMem_zero _)
      · intro frame id hr
        exact absurd hr (by simp [Server.start])
      · intro resp id hr
        exact absurd hr (by simp [Server.start])
    · intro ls t l u ht hstep
      refine ⟨?_, hstep.phased ht.2⟩
      cases l with
      | read m body msg => exact ht.1.read ht.2 hstep
      | _ => exact ht.1.quiet ht.2 hstep (by simp)
  exact hboth.1

/-! ## The result -/

/-- What is expected of a run: the ids of its responses are those of its requests, each response is
sent with the id of its own request, a request is known by the id in its frame, and a response is
matched with an outgoing request only by the id that was sent. -/
structure IdsCarried (cfg : Config) (ls : List Label) (s : Server) : Prop where
  /-- What has been sent and what is still owed is what was asked, frame by frame. -/
  answered : total Label.answeredId ls + s.owed.map idToJson = total (Label.askedId cfg.nl) ls
  /-- A rejection carries the id of the message that was read last, which it answers. -/
  rejected : ∀ frame id, s.reader = .sending frame → frame.answers = some id →
    frame.json.idMember = lastId cfg.nl ls
  /-- A reply carries the id of the request it is the reply to. -/
  replied : ∀ call reply, s.Replying call reply →
    (reply.frame call.id).json.idMember = idOf cfg.nl ls call.serial
  /-- Requests with two ids have two entries in `cancellationTokens_`, and two response ids. -/
  distinct : ∀ call ∈ s.calls, ∀ call' ∈ s.calls,
    idOf cfg.nl ls call.serial ≠ idOf cfg.nl ls call'.serial → call.id ≠ call'.id
  /-- The response that is matched carries the id of the outgoing request. -/
  matched : ∀ ls₁ ls₂ resp id cb, ls = ls₁ ++ .responseTaken resp id (some cb) :: ls₂ →
    lastId cfg.nl ls₁ = some (.integer id.toInt)

/-- The ids that are cast in a run fit: those of the requests, and those of the responses that,
cast, meet an outgoing request that is pending. -/
structure IdsFit (cfg : Config) (ls : List Label) : Prop where
  requests : ∀ m body req j, .read m body (.request req) ∈ ls → frameId cfg.nl body = some j →
    j.FitsId
  responses : ∀ ls₁ ls₂ resp id found t t' j, ls = ls₁ ++ .responseTaken resp id found :: ls₂ →
    Runs cfg ls₁ t → Step cfg t (.responseTaken resp id found) t' → lastId cfg.nl ls₁ = some j →
    (t.pendingRequests_.lookup id).isSome → j.FitsId

/-- A request whose reply is about to be sent is in hand. -/
lemma Server.Replying.mem_calls {call : RequestCall} {reply : Reply}
    (hreply : s.Replying call reply) : call ∈ s.calls := by
  rcases hreply with ⟨caught, hr⟩ | ⟨e, caught, hwork⟩
  · apply Server.mem_held_of_reader
    rw [hr]
    exact Multiset.mem_singleton_self _
  · apply Server.mem_held_of_pool
    apply ThreadPool.mem_contents_of_working hwork
    exact Multiset.mem_singleton_self _

/-- A message that was read is parsed from its body. -/
lemma Runs.parsed (h : Runs cfg ls s) {m : ℕ} {body : Bytes} {msg : ParsedMessage}
    (hmem : .read m body msg ∈ ls) : parseMessage cfg.nl body = .ok msg := by
  rcases List.append_of_mem hmem with ⟨ls₁, ls₂, rfl⟩
  rcases h.split_at with ⟨t, t', -, hstep, -⟩
  exact hstep.read_inv.2.2.2.1

/-- The ids of requests fit exactly when those of their responses are the same. -/
lemma Runs.answered_iff (h : Runs cfg ls s) :
    total Label.answeredId ls + s.owed.map idToJson = total (Label.askedId cfg.nl) ls ↔
      ∀ m body req j, .read m body (.request req) ∈ ls → frameId cfg.nl body = some j →
        j.FitsId := by
  have hbalance : total Label.answeredId ls + s.owed.map idToJson =
      total (fun l => l.asked.map idToJson) ls := by
    rw [← map_total, ← Runs.balance h, Multiset.map_add, map_total]
    rw [total_congr fun l _ => Label.answeredId_eq l]
  rw [hbalance]
  constructor
  · intro heq m body req j hmem hj
    -- the id is one of those that were sent, and these fit
    have hasked : j ∈ total (Label.askedId cfg.nl) ls := by
      refine mem_total.mpr ⟨_, hmem, ?_⟩
      rw [Label.askedId_of_request hj]
      exact Multiset.mem_singleton_self j
    rw [← heq] at hasked
    rcases mem_total.mp hasked with ⟨l, -, hl⟩
    rcases Multiset.mem_map.mp hl with ⟨id, -, rfl⟩
    exact fitsId_idToJson id
  · intro hfits
    apply total_congr
    intro l hl
    cases l with
    | read m body msg =>
      cases msg with
      | request req =>
        rcases frameId_of_request (Runs.parsed h hl) with ⟨j, hj, hid⟩
        have hasked : (Label.read m body (.request req)).asked = {req.id} := rfl
        rw [Label.askedId_of_request hj, hasked, Multiset.map_singleton,
          (idToJson_eq_iff hid).mpr (hfits m body req j hl hj)]
      | _ => rfl
    | _ => rfl

/-- The id of a response that is looked up is cast from the one in its frame. -/
lemma Runs.lastId_of_responding (h : Runs cfg ls s) {resp : ParsedResponse} {id : Int32}
    (hr : s.reader = .responding resp id) :
    ∃ j, lastId cfg.nl ls = some j ∧ idFromJson j = some (.int id) := by
  rcases (Runs.origins h).responding resp id hr with ⟨m, body, hmem, hid, hbody⟩
  rcases frameId_of_response (Runs.parsed h hmem) with ⟨j, hj, hfrom⟩
  rw [hid] at hfrom
  refine ⟨j, ?_, hfrom⟩
  unfold lastId
  rw [hbody]
  exact hj

/-- The id of a request in hand, where it fits, is the one in its frame. -/
lemma Runs.idOf_call (h : Runs cfg ls s) (hfits : IdsFit cfg ls) {call : RequestCall}
    (hcall : call ∈ s.calls) : idOf cfg.nl ls call.serial = some (idToJson call.id) := by
  rcases (Runs.origins h).calls call hcall with ⟨body, req, hmem, hid, hbody⟩
  rcases frameId_of_request (Runs.parsed h hmem) with ⟨j, hj, hfrom⟩
  have hsame : idToJson req.id = j := (idToJson_eq_iff hfrom).mpr (hfits.requests _ _ _ _ hmem hj)
  unfold idOf
  rw [hbody, ← hid, hsame]
  exact hj

/-- A run carries its ids exactly when they fit. -/
theorem idsCarried_iff (cfg : Config) (ls : List Label) (s : Server) (h : Runs cfg ls s) :
    IdsCarried cfg ls s ↔ IdsFit cfg ls := by
  constructor
  · intro hcarried
    refine ⟨(Runs.answered_iff h).mp hcarried.answered, ?_⟩
    intro ls₁ ls₂ resp id found t t' j hls ht hstep hj hpending
    rcases hstep.responseTaken_inv with ⟨-, hfound, -⟩
    rcases Option.isSome_iff_exists.mp hpending with ⟨cb, hcb⟩
    have hsome : found = some cb := hfound.trans hcb
    subst hsome
    -- the response is matched, so its id is one that was sent
    have hid := hcarried.matched ls₁ ls₂ resp id cb hls
    rw [Option.some.inj (hj.symm.trans hid)]
    exact fitsId_idToJson (.int id)
  · intro hfits
    refine ⟨(Runs.answered_iff h).mpr hfits.requests, ?_, ?_, ?_, ?_⟩
    · intro frame id hr hframe
      rcases (Runs.origins h).sending frame id hr hframe with ⟨m, body, req, hmem, hid, hbody⟩
      rcases frameId_of_request (Runs.parsed h hmem) with ⟨j, hj, hfrom⟩
      have hsame : idToJson req.id = j :=
        (idToJson_eq_iff hfrom).mpr (hfits.requests _ _ _ _ hmem hj)
      unfold lastId
      rw [idMember_of_answers hframe, hbody, ← hid, hsame]
      exact hj.symm
    · intro call reply hreply
      rw [idMember_of_answers (reply.answers_frame call.id),
        Runs.idOf_call h hfits hreply.mem_calls]
    · intro call hcall call' hcall' hne heq
      apply hne
      rw [Runs.idOf_call h hfits hcall, Runs.idOf_call h hfits hcall', heq]
    · intro ls₁ ls₂ resp id cb hls
      subst hls
      rcases h.split_at with ⟨t, t', ht, hstep, -⟩
      rcases hstep.responseTaken_inv with ⟨hr, hfound, -⟩
      rcases Runs.lastId_of_responding ht hr with ⟨j, hj, hfrom⟩
      have hfit : j.FitsId :=
        hfits.responses ls₁ ls₂ resp id _ t t' j rfl ht hstep hj (by simp [← hfound])
      have hsame : idToJson (.int id) = j := (idToJson_eq_iff hfrom).mpr hfit
      rw [hj, ← hsame]
      rfl

end Steps

/-! ## Sessions -/

lemma session_fits {body : Bytes} {j : Json} (h : frameId Session.config.nl body = some j) :
    j.FitsId := by
  unfold frameId at h
  split at h
  · next hparse =>
    rcases Nlohmann.exists_of_parse_ofFrames hparse with ⟨frame, -, rfl⟩
    exact fitsId_of_idMember h
  · exact absurd h (by simp)

/-- A session in which a request is answered, and a response matched. -/
theorem idsCarried_session :
    Reaches (Step Session.config) (Server.start Session.config) fun ls s =>
      (∃ id code message, .sent (.error id code message) ∈ ls) ∧
        (∃ resp id cb, .responseTaken resp id (some cb) ∈ ls) ∧ IdsCarried Session.config ls s := by
  have hrun : Reaches (Step Session.config) (Server.start Session.config) fun ls _ =>
      ∃ a b c d e id code message resp n cb,
        ls = [a, b, c, d, .sent (.error id code message), e, .responseTaken resp n (some cb)] := by
    apply Reaches.step (.sender rfl (.issue (str "ask") .null (.raw 0) rfl))
    apply Reaches.step (.sender rfl (.register 0 rfl))
    apply Reaches.step (.sender rfl (.send 0 rfl rfl))
    apply Reaches.step (.reader rfl rfl (.read Session.hover.json.print rfl (by decide) rfl))
    apply Reaches.step (.reader rfl rfl (.send rfl rfl))
    apply Reaches.step (.reader rfl rfl (.read Session.answer.json.print rfl (by decide) rfl))
    apply Reaches.step (.reader rfl rfl (.matched rfl rfl))
    exact Reaches.here ⟨_, _, _, _, _, _, _, _, _, _, _, rfl⟩
  rcases hrun with ⟨_, s, hrun, _, _, _, _, _, id, code, message, resp, n, cb, rfl⟩
  refine ⟨_, s, hrun, ⟨id, code, message, by simp⟩, ⟨resp, n, cb, by simp⟩, ?_⟩
  apply (idsCarried_iff Session.config _ s hrun).mpr
  refine ⟨?_, ?_⟩
  · intro m body req j _ hj
    exact session_fits hj
  · intro ls₁ ls₂ resp id found t t' j _ _ _ hj _
    rcases Option.bind_eq_some_iff.mp hj with ⟨body, -, hid⟩
    exact session_fits hid

/-- A request with an id of more than 32 bits. -/
def Session.wideRequest : Json :=
  .ofMembers [(str "jsonrpc", .string JSONRPC_VERSION), (str "id", .integer 4294967297),
    (str "method", .string (str "hover")), (str "params", .null)]

/-- A server whose library knows this request. -/
def Session.wide : Config where
  nl := .ofTable [(Session.wideRequest.print, .ok Session.wideRequest)]
  userRequests := []
  userNotifications := []
  workerThreads := 1

/-- A session in which the request 4294967297 is answered under the id 1. -/
theorem session_folds_id :
    Reaches (Step Session.wide) (Server.start Session.wide) fun ls s =>
      (readsOf ls).map (frameId Session.wide.nl) = [some (.integer 4294967297)] ∧
        (∃ frame, .sent frame ∈ ls ∧ frame.json.idMember = some (.integer 1)) ∧
        ¬ IdsCarried Session.wide ls s := by
  have hrun : Reaches (Step Session.wide) (Server.start Session.wide) fun ls _ =>
      ∃ req frame, ls = [.read 0 Session.wideRequest.print (.request req), .sent frame] ∧
        frame.json.idMember = some (.integer 1) := by
    apply Reaches.step (.reader rfl rfl (.read Session.wideRequest.print rfl (by decide) rfl))
    apply Reaches.step (.reader rfl rfl (.send rfl rfl))
    exact Reaches.here ⟨_, _, rfl, rfl⟩
  rcases hrun with ⟨_, s, hrun, req, frame, rfl, hframe⟩
  have hid : frameId Session.wide.nl Session.wideRequest.print = some (.integer 4294967297) := rfl
  refine ⟨_, s, hrun, congrArg (fun id => [id]) hid, ⟨frame, by simp, hframe⟩, ?_⟩
  intro hcarried
  have hfits := (Runs.answered_iff hrun).mp hcarried.answered 0 _ req _ (by simp) hid
  exact absurd hfits.2 (by decide)

end CLSP
