import CLSP.Server.Callbacks
import CLSP.Server.Ids

/-!
# Requests of the server on the wire

The frames that `sendRequest` sends: one for each call at most, with the id the call has drawn, and
only after its callback has been registered. And the responses that come back: each is looked up
once.
-/

namespace CLSP

open Transition

section Steps

variable {cfg : Config} {ls : List Label} {s s' : Server} {l : Label}

/-- The read thread leaves the calls alone. -/
lemma ReaderStep.senders (h : ReaderStep cfg s l s') : s'.senders = s.senders := by
  cases h with
  | handler capabilities =>
    rcases s.lifecycleEffect_eq capabilities _ l with ⟨_, _, _, _, heq⟩
    rw [heq]
  | submit | stop => exact Server.setPool_senders s _ _
  | _ => rfl

/-! ## What the read thread sends -/

/-- Dispatch rejects with errors only. -/
lemma Outcome.not_request {state_ : ServerState} {serial token : ℕ} {msg : ParsedMessage}
    {next : ServerState × ReaderPc} (h : Outcome cfg state_ serial token msg next)
    (id : Int32) (method : Bytes) (params : Json) :
    next.2 ≠ .sending (.request id method params) := by
  cases h with
  | request h => cases h <;> simp
  | notification h => cases h <;> simp
  | response h => cases h <;> simp
  | error => simp

/-- The read thread never sends a request of its own. -/
lemma Runs.not_sending_request (h : Runs cfg ls s) (id : Int32) (method : Bytes) (params : Json) :
    s.reader ≠ .sending (.request id method params) := by
  apply h.invariant (I := fun s => s.reader ≠ .sending (.request id method params))
  · simp [Server.start]
  · intro t l u ht hstep
    cases l with
    | read m body msg =>
      rcases hstep.read_inv with ⟨-, -, -, -, rfl⟩
      exact (dispatch_outcome _ _ _ _ _).not_request id method params
    | _ => exact fun hu => ht ((hstep.handling (by simp)).1 _ hu)

/-- A request frame is sent by a call of `sendRequest`. -/
lemma Step.sent_request_inv (h : Step cfg s l s') {id : Int32} {method : Bytes} {params : Json}
    (hl : l = .sent (.request id method params)) (hrun : Runs cfg ls s) :
    ∃ k, s.senders[k]? = some (.sending id method params) ∧
      s' = { s with senders := s.senders.set k .finished } := by
  subst hl
  rcases h.sent_cases with hr | ⟨call, reply, caught, -, hframe⟩ | hsender
  · exact absurd hr (Runs.not_sending_request hrun id method params)
  · cases reply <;> exact absurd hframe (by simp [Reply.frame])
  · cases hsender with
    | send k hk _ => exact ⟨k, hk, rfl⟩

/-! ## One frame for each call -/

/-- The id in the request frame that a step sends. -/
def Label.requested : Label → Multiset Int32
  | .sent (.request id _ _) => {id}
  | _ => 0

/-- The id of a call whose request is still to be sent. -/
def SenderPc.outgoing : SenderPc → Multiset Int32
  | .registering id _ _ _ => {id}
  | .sending id _ _ => {id}
  | .finished => 0

/-- The ids of the requests still to be sent. -/
def Server.outgoing (s : Server) : Multiset Int32 :=
  (s.senders.map SenderPc.outgoing).sum

lemma Label.requested_eq_zero (h : ∀ id method params, l ≠ .sent (.request id method params)) :
    l.requested = 0 := by
  cases l with
  | sent frame =>
    cases frame with
    | request id method params => exact absurd rfl (h id method params)
    | _ => rfl
  | _ => rfl

lemma Server.outgoing_set {k : ℕ} {pc : SenderPc} (h : s.senders[k]? = some pc) (pc' : SenderPc) :
    ((s.senders.set k pc').map SenderPc.outgoing).sum + pc.outgoing =
      s.outgoing + pc'.outgoing :=
  ThreadPool.sum_map_set SenderPc.outgoing pc' h

/-- A step moves an id from the calls to the wire, or draws one. -/
lemma Step.requested_le (h : Step cfg s l s') (hrun : Runs cfg ls s) :
    l.requested + s'.outgoing ≤ s.outgoing + l.issuedId?.elim 0 fun id => {id} := by
  by_cases hl : ∃ id method params, l = .sent (.request id method params)
  · rcases hl with ⟨id, method, params, rfl⟩
    rcases h.sent_request_inv rfl hrun with ⟨k, hk, rfl⟩
    have hset := Server.outgoing_set hk .finished
    have hpc : (SenderPc.sending id method params).outgoing = {id} := rfl
    show {id} + ((s.senders.set k .finished).map SenderPc.outgoing).sum ≤ s.outgoing + 0
    rw [add_comm, ← hpc, hset]
    rfl
  · have hl' : ∀ id method params, l ≠ .sent (.request id method params) :=
      fun id method params heq => hl ⟨id, method, params, heq⟩
    rw [Label.requested_eq_zero hl', zero_add]
    have hsame : s'.senders = s.senders →
        s'.outgoing ≤ s.outgoing + l.issuedId?.elim 0 fun id => {id} := by
      intro heq
      unfold Server.outgoing
      rw [heq]
      exact Multiset.le_add_right _ _
    cases h with
    | reader _ _ h => exact hsame h.senders
    | worker _ _ _ h => exact hsame h.outgoing.2.2
    | sender _ h =>
      cases h with
      | issue =>
        show ((s.senders ++ [_]).map SenderPc.outgoing).sum ≤ s.outgoing + _
        simp [Server.outgoing, SenderPc.outgoing, Label.issuedId?]
      | @register k id method params cb hk =>
        have hset := Server.outgoing_set hk (.sending id method params)
        show ((s.senders.set k _).map SenderPc.outgoing).sum ≤ s.outgoing + 0
        rw [add_zero]
        exact le_of_eq (add_right_cancel hset)
      | send k hk => exact absurd rfl (hl' _ _ _)
      | sendThrows k hk =>
        have hset := Server.outgoing_set hk .finished
        -- the id is drawn but never sent
        show ((s.senders.set k .finished).map SenderPc.outgoing).sum ≤ s.outgoing + 0
        rw [add_zero, ← add_zero s.outgoing]
        exact hset ▸ Multiset.le_add_right _ _
      | notify => exact hsame rfl

/-- What has been sent, or is still to be, has been issued. -/
theorem Runs.requested_le (h : Runs cfg ls s) :
    total Label.requested ls + s.outgoing ≤ (issuedIds ls : Multiset Int32) := by
  induction h with
  | nil => exact le_refl _
  | @snoc ls t u l hrun hstep ih =>
    rw [total_append, total_singleton, issuedIds_concat, add_assoc, ← Multiset.coe_add]
    refine le_trans (add_le_add_right (hstep.requested_le hrun) _) ?_
    rw [← add_assoc]
    refine le_trans (add_le_add_left ih _) (le_of_eq (congrArg _ ?_))
    cases l.issuedId? <;> rfl

/-- No two request frames have the same id. -/
lemma Runs.requested_nodup (h : Runs cfg ls s) (hcalls : s.senders.length < 2 ^ 32) :
    (total Label.requested ls).Nodup := by
  apply Multiset.nodup_of_le (le_trans (Multiset.le_add_right _ _) (Runs.requested_le h))
  exact Multiset.coe_nodup.mpr (Runs.issuedIds_nodup h hcalls)

/-! ## Registration comes first -/

/-- How a call gets to where it is after a step. -/
inductive SenderMoved (s : Server) (k : ℕ) : Label → SenderPc → Prop
  | same {l : Label} {pc : SenderPc} : s.senders[k]? = some pc → SenderMoved s k l pc
  | issued {id : Int32} {method : Bytes} {params : Json} {cb : ResponseCallback} : cb.call = k →
      SenderMoved s k (.issued k id method params cb) (.registering id method params cb)
  | registered {id : Int32} {method : Bytes} {params : Json} {cb : ResponseCallback} :
      s.senders[k]? = some (.registering id method params cb) →
      SenderMoved s k (.registered k id) (.sending id method params)
  | finished {l : Label} : SenderMoved s k l .finished

lemma Step.sender_moved (h : Step cfg s l s') {k : ℕ} {pc : SenderPc}
    (hk : s'.senders[k]? = some pc) : SenderMoved s k l pc := by
  cases h with
  | reader _ _ h => exact .same (h.senders ▸ hk)
  | worker _ _ _ h => exact .same (h.outgoing.2.2 ▸ hk)
  | sender _ h =>
    cases h with
    | issue method params cb hcb =>
      rw [List.getElem?_append] at hk
      split at hk
      · exact .same hk
      · next hlast =>
        -- the new call is the last one
        have hlt := (List.getElem?_eq_some_iff.mp hk).1
        rw [List.length_singleton] at hlt
        have hzero : k - s.senders.length = 0 := by omega
        have hk' : k = s.senders.length := by omega
        rw [hzero] at hk
        obtain rfl := Option.some.inj hk
        rw [← hk'] at hcb ⊢
        exact .issued hcb
    | @register call _ _ _ _ hcall =>
      by_cases hkcall : call = k
      · subst hkcall
        rw [List.getElem?_set_self (List.getElem?_eq_some_iff.mp hcall).1] at hk
        obtain rfl := Option.some.inj hk
        exact .registered hcall
      · rw [List.getElem?_set_ne hkcall] at hk
        exact .same hk
    | send call _ _ | sendThrows call _ _ =>
      by_cases hkcall : call = k
      · subst hkcall
        rw [List.getElem?_set, if_pos rfl] at hk
        split at hk
        · obtain rfl := Option.some.inj hk
          exact .finished
        · exact absurd hk (by simp)
      · rw [List.getElem?_set_ne hkcall] at hk
        exact .same hk
    | notify => exact .same hk

/-- What the calls do is tied to the id, the method and the params they have drawn, as the labels of
the run tell it. -/
structure RegisteredFirst (ls : List Label) (s : Server) : Prop where
  registering : ∀ k id method params cb,
    s.senders[k]? = some (.registering id method params cb) →
      cb.call = k ∧ .issued k id method params cb ∈ ls
  sending : ∀ k id method params, s.senders[k]? = some (.sending id method params) →
    (∃ cb, .issued k id method params cb ∈ ls) ∧ .registered k id ∈ ls
  sent : ∀ id method params, .sent (.request id method params) ∈ ls →
    ∃ k, (∃ cb, .issued k id method params cb ∈ ls) ∧ .registered k id ∈ ls

lemma RegisteredFirst.step (hs : RegisteredFirst ls s) (hrun : Runs cfg ls s)
    (h : Step cfg s l s') : RegisteredFirst (ls ++ [l]) s' := by
  refine ⟨?_, ?_, ?_⟩
  · intro k id method params cb hk
    cases h.sender_moved hk with
    | same hk =>
      rcases hs.registering k id method params cb hk with ⟨hcb, hissued⟩
      exact ⟨hcb, List.mem_append_left _ hissued⟩
    | issued hcb => exact ⟨hcb, by simp⟩
  · intro k id method params hk
    cases h.sender_moved hk with
    | same hk =>
      rcases hs.sending k id method params hk with ⟨⟨cb, hissued⟩, hregistered⟩
      exact ⟨⟨cb, List.mem_append_left _ hissued⟩, List.mem_append_left _ hregistered⟩
    | registered hk =>
      exact ⟨⟨_, List.mem_append_left _ (hs.registering _ _ _ _ _ hk).2⟩, by simp⟩
  · intro id method params hmem
    rcases List.mem_append.mp hmem with hmem | hmem
    · rcases hs.sent id method params hmem with ⟨k, ⟨cb, hissued⟩, hregistered⟩
      exact ⟨k, ⟨cb, List.mem_append_left _ hissued⟩, List.mem_append_left _ hregistered⟩
    · rcases h.sent_request_inv (List.mem_singleton.mp hmem).symm hrun with ⟨k, hk, -⟩
      rcases hs.sending k id method params hk with ⟨⟨cb, hissued⟩, hregistered⟩
      exact ⟨k, ⟨cb, List.mem_append_left _ hissued⟩, List.mem_append_left _ hregistered⟩

/-- A callback registers after its call has drawn an id, and a request goes out after its callback
has been registered. -/
theorem Runs.registeredFirst (h : Runs cfg ls s) : RegisteredFirst ls s := by
  induction h with
  | nil =>
    refine ⟨?_, ?_, ?_⟩
    · intro k id method params cb hk
      exact absurd hk (by simp [Server.start])
    · intro k id method params hk
      exact absurd hk (by simp [Server.start])
    · intro id method params hmem
      exact absurd hmem (by simp)
  | snoc hrun hstep ih => exact ih.step hrun hstep

/-- The id a call draws. -/
lemma Runs.id_of_issued (h : Runs cfg ls s) (hcalls : s.senders.length < 2 ^ 32) {k : ℕ}
    {id : Int32} {method : Bytes} {params : Json} {cb : ResponseCallback}
    (hmem : .issued k id method params cb ∈ ls) : id = callId k := by
  rcases List.append_of_mem hmem with ⟨ls₁, ls₂, rfl⟩
  rcases h.split_at with ⟨t, t', hrun, hstep, hrest⟩
  have hlength := hstep.senders_length
  have hlength' := senders_length_of_run hrest
  cases hstep.of_sender rfl with
  | issue => exact (Runs.calls hrun (by omega)).next

/-! ## Responses are looked up once -/

/-- The id of the response that a step reads, where it is a number. -/
def Label.responded : Label → Multiset Int32
  | .read _ _ (.response resp) =>
    match resp.id with
    | .int id => {id}
    | .str _ => 0
  | _ => 0

/-- The id that a step looks up. -/
def Label.lookedUp : Label → Multiset Int32
  | .responseTaken _ id _ => {id}
  | _ => 0

/-- The id the read thread is about to look up. -/
def ReaderPc.lookingUp : ReaderPc → Multiset Int32
  | .responding _ id => {id}
  | _ => 0

/-- A response with a number for its id is about to be looked up. -/
lemma dispatch_lookingUp (cfg : Config) (state_ : ServerState) (serial token : ℕ)
    (msg : ParsedMessage) (body : Bytes) :
    (dispatch cfg state_ serial token msg).2.lookingUp =
      (Label.read serial body msg).responded := by
  have houtcome := dispatch_outcome cfg state_ serial token msg
  generalize hnext : dispatch cfg state_ serial token msg = next at houtcome
  cases houtcome with
  | request h => cases h <;> rfl
  | notification h => cases h <;> rfl
  | @response resp _ h =>
    have hpc : handleResponse resp = _ := congrArg Prod.snd hnext
    rw [← hpc]
    rcases resp with ⟨id, _, _⟩
    cases id <;> rfl
  | error => rfl

/-- A response that is looked up has been read, and is looked up once. -/
lemma Step.lookedUp (h : Step cfg s l s') :
    l.lookedUp + s'.reader.lookingUp = l.responded + s.reader.lookingUp := by
  have hsame : l.lookedUp = 0 → l.responded = 0 → s'.reader = s.reader →
      l.lookedUp + s'.reader.lookingUp = l.responded + s.reader.lookingUp := by
    intro hl hl' hreader
    rw [hl, hl', hreader]
  have hhandler : ∀ {call : RequestCall} {pc : HandlerPc} {r : Progress HandlerPc},
      HandlerStep cfg.nl call (s.flag call) pc l r → l.lookedUp = 0 ∧ l.responded = 0 := by
    intro call pc r hstep
    cases hstep <;> exact ⟨rfl, rfl⟩
  cases h with
  | reader _ _ h =>
    cases h with
    | read body hr =>
      rw [hr]
      show 0 + (dispatch _ _ _ _ _).2.lookingUp = _ + 0
      rw [zero_add, add_zero]
      exact dispatch_lookingUp _ _ _ _ _ body
    | parseThrows | sendThrows | notifyEscapes | exitThrows => exact hsame rfl rfl rfl
    | handlerEscapes _ hstep => exact hsame (hhandler hstep).1 (hhandler hstep).2 rfl
    | handler _ hr hstep | handlerFinishes hr hstep =>
      rw [hr, (hhandler hstep).1, (hhandler hstep).2]
      rfl
    | unmatched hr | matched hr =>
      rw [hr]
      exact add_comm _ _
    | endOfInput hr | leave hr | send hr | insertToken hr | submit hr | cancel hr | notified hr
    | exited hr | stop hr | joinSync hr | joinWorkers hr =>
      rw [hr]
      rfl
  | worker _ _ _ h =>
    have hquiet : l.lookedUp = 0 ∧ l.responded = 0 := by
      rcases h.move with ⟨_, _, hmove, -, -⟩
      cases hmove with
      | handler h | answered h | handlerEscapes h => exact hhandler h
      | notification h | notificationFinishes h | notificationEscapes h =>
        cases h <;> exact ⟨rfl, rfl⟩
      | callbackFinishes h | callbackEscapes h => cases h <;> exact ⟨rfl, rfl⟩
      | _ => exact ⟨rfl, rfl⟩
    exact hsame hquiet.1 hquiet.2 h.control.1
  | sender _ h =>
    have hquiet : l.lookedUp = 0 ∧ l.responded = 0 := by cases h <;> exact ⟨rfl, rfl⟩
    rcases h.frame with ⟨_, _, _, rfl⟩
    exact hsame hquiet.1 hquiet.2 rfl

/-- What has been looked up, or is about to be, is what has come in responses. -/
theorem Runs.lookedUp (h : Runs cfg ls s) :
    total Label.lookedUp ls + s.reader.lookingUp = total Label.responded ls :=
  h.conserved rfl fun _ _ _ _ _ hstep => hstep.lookedUp

/-- A response that is looked up has been read. -/
lemma Runs.read_of_lookedUp (h : Runs cfg ls s) {resp : ParsedResponse} {id : Int32}
    {found : Option ResponseCallback} (hmem : .responseTaken resp id found ∈ ls) :
    resp.id = .int id ∧ ∃ m body, .read m body (.response resp) ∈ ls := by
  rcases List.append_of_mem hmem with ⟨ls₁, ls₂, rfl⟩
  rcases h.split_at with ⟨t, t', hrun, hstep, -⟩
  rcases (Runs.origins hrun).responding resp id hstep.responseTaken_inv.1 with
    ⟨m, body, hread, hid, -⟩
  exact ⟨hid, m, body, List.mem_append_left _ hread⟩

/-- A callback registers under the id its call has drawn. -/
lemma Runs.id_of_registered (h : Runs cfg ls s) (hcalls : s.senders.length < 2 ^ 32) {k : ℕ}
    {id : Int32} (hmem : .registered k id ∈ ls) : id = callId k := by
  rcases List.append_of_mem hmem with ⟨ls₁, ls₂, rfl⟩
  rcases h.split_at with ⟨t, t', hrun, hstep, hrest⟩
  have hlength := hstep.senders_length
  have hlength' := senders_length_of_run hrest
  cases hstep.of_sender rfl with
  | register _ hcall => exact ((Runs.calls hrun (by omega)).registering _ _ _ _ _ hcall).1

/-- The first response to a call that has registered finds its callback. -/
lemma Runs.found_of_first (h : Runs cfg ls s) (hcalls : s.senders.length < 2 ^ 32) {k : ℕ}
    {resp : ParsedResponse} {id : Int32} {found : Option ResponseCallback}
    (hregistered : .registered k id ∈ ls) (hnone : ∀ resp found, .responseTaken resp id found ∉ ls)
    (hstep : Step cfg s (.responseTaken resp id found) s') :
    ∃ cb, found = some cb ∧ cb.call = k := by
  rcases List.append_of_mem hregistered with ⟨ls₁, ls₂, rfl⟩
  rcases h.split_at with ⟨t, t', hrun, hregisters, hrest⟩
  have hlength := hregisters.senders_length
  have hlength' := senders_length_of_run hrest
  have hunregistered : callPhase k ls₁ = .unregistered := by
    cases hregisters.of_sender rfl with
    | register _ hcall => exact ((Runs.calls hrun (by omega)).registering _ _ _ _ _ hcall).2.2
  have hwaiting : callPhase k (ls₁ ++ [.registered k id]) = .waiting id := by
    rw [callPhase_concat, hunregistered]
    exact if_pos rfl
  have happ : ls₁ ++ .registered k id :: ls₂ = (ls₁ ++ [.registered k id]) ++ ls₂ := by simp
  -- no response to it has been taken since, so it waits still
  have hstill : callPhase k (ls₁ ++ .registered k id :: ls₂) = .waiting id := by
    rw [happ]
    apply callPhase_waiting hwaiting
    intro resp' found' hmem
    exact hnone resp' found' (by simp [hmem])
  rcases (Runs.calls h hcalls).waiting k id hstill with ⟨cb, hlookup, hcb⟩
  exact ⟨cb, hstep.responseTaken_inv.2.1.trans hlookup, hcb⟩

end Steps

/-! ## The result -/

/-- What is expected of a run with the callbacks of `sendRequest`. -/
structure CallbacksServed (cfg : Config) (ls : List Label) (s : Server) : Prop where
  distinct : (issuedIds ls).Nodup
  /-- A call draws one id, its callback is registered under that id, -/
  drawn : ∀ k id id' method method' params params' cb cb', .issued k id method params cb ∈ ls →
    .issued k id' method' params' cb' ∈ ls → id = id'
  registered : ∀ ls₁ ls₂ k id, ls = ls₁ ++ .registered k id :: ls₂ →
    ∃ method params cb, .issued k id method params cb ∈ ls₁
  /-- and its request goes out with that id afterwards. -/
  sent : ∀ ls₁ ls₂ id method params, ls = ls₁ ++ .sent (.request id method params) :: ls₂ →
    ∃ k, (∃ cb, .issued k id method params cb ∈ ls₁) ∧ .registered k id ∈ ls₁
  once : ∀ k, (invocations k ls).card ≤ 1
  /-- A callback is called with the first response that is processed once it is registered. -/
  first : ∀ ls₁ ls₂ k payload isError, ls = ls₁ ++ .callbackInvoked k payload isError :: ls₂ →
    ∃ resp, FirstResponse k resp ls₁ ∧ resp.payload = payload ∧ resp.isError = isError
  /-- It has been called when `run` has returned. -/
  served : s.reader = .returned → ∀ k resp, FirstResponse k resp ls →
    .callbackInvoked k resp.payload resp.isError ∈ ls
  /-- By then every response that was read has been processed, by its own id. -/
  processed : s.reader = .returned → ∀ ls₁ ls₂ m body resp id,
    ls = ls₁ ++ .read m body (.response resp) :: ls₂ → resp.id = .int id →
    ∃ found, .responseTaken resp id found ∈ ls₂
  genuine : ∀ resp id found, .responseTaken resp id found ∈ ls → resp.id = .int id
  /-- A response that matches no pending id only sends the read thread back to its loop. -/
  unmatched : ∀ resp id found t t', Step cfg t (.responseTaken resp id found) t' →
    found = t.pendingRequests_.lookup id ∧ (found = none → t' = { t with reader := .loop })
  /-- So does one with a string for an id. -/
  ignored : ∀ m body resp text t t', Step cfg t (.read m body (.response resp)) t' →
    resp.id = .str text →
    t'.reader = .loop ∧ t'.pendingRequests_ = t.pendingRequests_ ∧ ∀ e, t'.pool e = t.pool e

/-- In every run with fewer than `2 ^ 32` calls of `sendRequest` the responses reach the right
callbacks, once. -/
theorem callbacks_served (cfg : Config) (ls : List Label) (s : Server) (h : Runs cfg ls s)
    (hcalls : s.senders.length < 2 ^ 32) : CallbacksServed cfg ls s := by
  refine ⟨Runs.issuedIds_nodup h hcalls, ?_, ?_, ?_, Runs.called_once h hcalls, ?_, ?_, ?_, ?_, ?_,
    ?_⟩
  · intro k id id' method method' params params' cb cb' hissued hissued'
    rw [Runs.id_of_issued h hcalls hissued, Runs.id_of_issued h hcalls hissued']
  · intro ls₁ ls₂ k id hls
    subst hls
    rcases h.split_at with ⟨t, t', hrun, hstep, -⟩
    cases hstep.of_sender rfl with
    | register _ hcall =>
      exact ⟨_, _, _, ((Runs.registeredFirst hrun).registering _ _ _ _ _ hcall).2⟩
  · intro ls₁ ls₂ id method params hls
    subst hls
    rcases h.split_at with ⟨t, t', hrun, hstep, -⟩
    rcases hstep.sent_request_inv rfl hrun with ⟨k, hk, -⟩
    exact ⟨k, (Runs.registeredFirst hrun).sending k id method params hk⟩
  · intro ls₁ ls₂ k payload isError hls
    subst hls
    exact Runs.called_first h hcalls
  · intro hret k resp hfirst
    exact Runs.called_of_returned h hcalls hret hfirst
  · intro hret ls₁ ls₂ m body resp id hls hid
    subst hls
    exact Runs.processed_of_returned h hret hid
  · intro resp id found hmem
    rcases List.append_of_mem hmem with ⟨ls₁, ls₂, rfl⟩
    rcases h.split_at with ⟨t, t', hrun, hstep, -⟩
    exact Runs.responding_id hrun resp id hstep.responseTaken_inv.1
  · intro resp id found t t' hstep
    exact hstep.responseTaken_inv.2
  · intro m body resp text t t' hstep hid
    exact hstep.read_string_response hid

/-- A session in which the answer to a request comes twice. -/
theorem callbacks_served_session :
    Reaches (Step Session.config) (Server.start Session.config) fun ls s =>
      s.reader = .returned ∧ issuedIds ls = [1] ∧
        .callbackInvoked 0 (.string (str "yes")) false ∈ ls ∧
        CallbacksServed Session.config ls s := by
  have hrun : Reaches (Step Session.config) (Server.start Session.config) fun ls s =>
      s.reader = .returned ∧ issuedIds ls = [1] ∧
        .callbackInvoked 0 (.string (str "yes")) false ∈ ls ∧ s.senders.length = 1 := by
    apply Reaches.step (.sender rfl (.issue (str "ask") .null (.raw 0) rfl))
    apply Reaches.step (.sender rfl (.register 0 rfl))
    apply Reaches.step (.sender rfl (.send 0 rfl rfl))
    apply Reaches.step (.reader rfl rfl (.read Session.answer.json.print rfl (by decide) rfl))
    apply Reaches.step (.reader rfl rfl (.matched rfl rfl))
    apply Reaches.step (.reader rfl rfl (.submit rfl))
    apply Reaches.step (.reader rfl rfl (.read Session.answer.json.print rfl (by decide) rfl))
    apply Reaches.step (.reader rfl rfl (.unmatched rfl rfl))
    apply Reaches.step (.reader rfl rfl (.endOfInput rfl (by decide)))
    apply Reaches.step (.reader rfl rfl (.stop rfl))
    apply Reaches.step (.worker .sync 0 rfl (.exit ⟨rfl, rfl⟩ rfl))
    apply Reaches.step (.reader rfl rfl (.joinSync rfl rfl))
    apply Reaches.step (.reader rfl rfl (.stop rfl))
    apply Reaches.step (.worker .worker 1 rfl (.take rfl rfl))
    apply Reaches.step (.worker .worker 0 rfl (.exit ⟨rfl, rfl⟩ rfl))
    apply Reaches.step (.worker .worker 1 rfl (.invoke rfl))
    apply Reaches.step (.worker .worker 1 rfl (.callbackFinishes rfl .returns))
    apply Reaches.step (.worker .worker 1 rfl (.exit ⟨rfl, rfl⟩ rfl))
    apply Reaches.step (.reader rfl rfl (.joinWorkers rfl rfl))
    refine Reaches.here ⟨rfl, rfl, ?_, rfl⟩
    simp [ResponseCallback.call]
  rcases hrun with ⟨ls, s, hrun, hret, hissued, hinvoked, hlength⟩
  refine ⟨ls, s, hrun, hret, hissued, hinvoked, ?_⟩
  exact callbacks_served Session.config ls s hrun (by omega)

end CLSP
