import CLSP.Server.Threads
import Mathlib.Data.List.Induction

/-!
# Responses to the requests of the server

Each call of `sendRequest` draws an id, registers its callback and sends. `callPhase` follows one
call through the labels of a run: its callback waits from the registration on for the first response
with its id that is processed. The entries of `pendingRequests_` are the callbacks that wait
(`CallInvariant`), and every response taken from there reaches its callback (`Runs.callbacks`).
-/

namespace CLSP

open Transition (Run Reaches total total_append total_singleton)

/-! ## Ids -/

/-- The id of the `k`-th call of `sendRequest`. -/
def callId (k : ℕ) : Int32 :=
  Int32.ofNat (k + 1)

lemma callId_succ (k : ℕ) : callId (k + 1) = callId k + 1 :=
  Int32.ofNat_add (k + 1) 1

lemma callId_injOn {j k : ℕ} (hj : j < 2 ^ 32) (hk : k < 2 ^ 32) (h : callId j = callId k) :
    j = k := by
  have hbits := congrArg (fun n : Int32 => n.toBitVec.toNat) h
  simp only [callId, Int32.toBitVec_ofNat', BitVec.toNat_ofNat] at hbits
  omega

/-- The id a step draws. -/
def Label.issuedId? : Label → Option Int32
  | .issued _ id _ _ _ => some id
  | _ => none

/-- The ids drawn in a run. -/
def issuedIds (ls : List Label) : List Int32 :=
  ls.filterMap Label.issuedId?

/-! ## The phases of a call -/

/-- Where a call is: its callback is not registered yet, waits for a response with its id, or has
got one. -/
inductive CallPhase
  | unregistered
  | waiting (id : Int32)
  | answered (resp : ParsedResponse)

def callStep (k : ℕ) : CallPhase → Label → CallPhase
  | .unregistered, .registered k' id => if k' = k then .waiting id else .unregistered
  | .waiting id, .responseTaken resp id' _ => if id' = id then .answered resp else .waiting id
  | phase, _ => phase

/-- The phase of the `k`-th call after a run. -/
def callPhase (k : ℕ) (ls : List Label) : CallPhase :=
  ls.foldl (callStep k) .unregistered

@[simp] lemma callPhase_nil (k : ℕ) : callPhase k [] = .unregistered := rfl

@[simp] lemma callPhase_concat (k : ℕ) (ls : List Label) (l : Label) :
    callPhase k (ls ++ [l]) = callStep k (callPhase k ls) l := by
  simp [callPhase]

/-- The first response with the id of the `k`-th call that is processed once its callback is
registered. -/
def FirstResponse (k : ℕ) (resp : ParsedResponse) (ls : List Label) : Prop :=
  ∃ ls₁ ls₂ ls₃ id found,
    ls = ls₁ ++ .registered k id :: (ls₂ ++ .responseTaken resp id found :: ls₃) ∧
      ∀ resp' found', .responseTaken resp' id found' ∉ ls₂

lemma FirstResponse.append {k : ℕ} {resp : ParsedResponse} {ls : List Label}
    (h : FirstResponse k resp ls) (l : Label) : FirstResponse k resp (ls ++ [l]) := by
  rcases h with ⟨ls₁, ls₂, ls₃, id, found, rfl, hnone⟩
  exact ⟨ls₁, ls₂, ls₃ ++ [l], id, found, by simp, hnone⟩

/-- The phase tells what the run has passed. -/
lemma callPhase_spec (k : ℕ) (ls : List Label) :
    match callPhase k ls with
    | .unregistered => True
    | .waiting id => ∃ ls₁ ls₂, ls = ls₁ ++ .registered k id :: ls₂ ∧
        ∀ resp found, .responseTaken resp id found ∉ ls₂
    | .answered resp => FirstResponse k resp ls := by
  -- on the labels from the end, by the phase before the last one
  induction ls using List.reverseRecOn with
  | nil => trivial
  | append_singleton ls l ih =>
    rw [callPhase_concat]
    cases hphase : callPhase k ls with
    | unregistered =>
      cases l with
      | registered k' id =>
        by_cases hk : k' = k
        · subst hk
          rw [callStep, if_pos rfl]
          exact ⟨ls, [], rfl, by simp⟩
        · rw [callStep, if_neg hk]
          trivial
      | _ => trivial
    | waiting id =>
      rw [hphase] at ih
      rcases ih with ⟨ls₁, ls₂, rfl, hnone⟩
      have hstays : (∀ resp found, l ≠ .responseTaken resp id found) →
          ∃ ls₁' ls₂', ls₁ ++ .registered k id :: ls₂ ++ [l] = ls₁' ++ .registered k id :: ls₂' ∧
            ∀ resp found, .responseTaken resp id found ∉ ls₂' := by
        intro hl
        refine ⟨ls₁, ls₂ ++ [l], by simp, ?_⟩
        intro resp found hmem
        rcases List.mem_append.mp hmem with hmem | hmem
        · exact hnone resp found hmem
        · exact hl resp found (List.mem_singleton.mp hmem).symm
      cases l with
      | responseTaken resp id' found =>
        by_cases hid : id' = id
        · subst hid
          rw [callStep, if_pos rfl]
          exact ⟨ls₁, ls₂, [], id', found, by simp, hnone⟩
        · rw [callStep, if_neg hid]
          exact hstays (by simp [hid])
      | _ => exact hstays (by simp)
    | answered resp =>
      rw [hphase] at ih
      exact FirstResponse.append ih l

/-- Nothing happens to a call that waits but for a response with its id, and nothing to one that has
been answered. -/
lemma callPhase_waiting {k : ℕ} {id : Int32} {ls ms : List Label}
    (h : callPhase k ls = .waiting id) (hnone : ∀ resp found, .responseTaken resp id found ∉ ms) :
    callPhase k (ls ++ ms) = .waiting id := by
  induction ms using List.reverseRecOn with
  | nil => rwa [List.append_nil]
  | append_singleton ms m ih =>
    have hbefore := ih fun resp found hmem => hnone resp found (by simp [hmem])
    rw [← List.append_assoc, callPhase_concat, hbefore]
    cases m with
    | responseTaken resp id' found =>
      have hid : id' ≠ id := by
        intro heq
        subst heq
        exact hnone resp found (by simp)
      exact if_neg hid
    | _ => rfl

lemma callPhase_answered {k : ℕ} {resp : ParsedResponse} {ls : List Label}
    (h : callPhase k ls = .answered resp) (ms : List Label) :
    callPhase k (ls ++ ms) = .answered resp := by
  induction ms using List.reverseRecOn with
  | nil => rwa [List.append_nil]
  | append_singleton ms m ih =>
    rw [← List.append_assoc, callPhase_concat, ih]
    cases m <;> rfl

/-! ## Callbacks in tasks -/

/-- What a callback is called with: the number of its call and the two arguments. -/
abbrev Invocation := ℕ × Json × Bool

def Task.invocations : Task → Multiset Invocation
  | .callback cb payload isError => {(cb.call, payload, isError)}
  | _ => 0

def Running.invocations : Running → Multiset Invocation
  | .callback cb payload isError => {(cb.call, payload, isError)}
  | _ => 0

def ReaderPc.invocations : ReaderPc → Multiset Invocation
  | .submitting _ task => task.invocations
  | _ => 0

/-- The callbacks about to be called. -/
def Server.invocations (s : Server) : Multiset Invocation :=
  s.held ReaderPc.invocations Task.invocations Running.invocations

/-- The callback a step takes from `pendingRequests_`. -/
def Label.matched : Label → Multiset Invocation
  | .responseTaken resp _ (some cb) => {(cb.call, resp.payload, resp.isError)}
  | _ => 0

/-- The callback a step calls. -/
def Label.invoked : Label → Multiset Invocation
  | .callbackInvoked call payload isError => {(call, payload, isError)}
  | _ => 0

/-- The calls of the callback of one `sendRequest`. -/
def invocations (k : ℕ) (ls : List Label) : Multiset Invocation :=
  (total Label.invoked ls).filter fun i => i.1 = k

section Steps

variable {cfg : Config} {ls : List Label} {s s' : Server} {l : Label}

/-- Steps that have to do with the calls of `sendRequest`. -/
def Label.ofCalls : Label → Bool
  | .issued _ _ _ _ _ => true
  | .registered _ _ => true
  | .responseTaken _ _ _ => true
  | _ => false

lemma Label.matched_eq_zero (h : l.ofCalls = false) : l.matched = 0 := by
  cases l with
  | responseTaken => exact absurd h (by simp [Label.ofCalls])
  | _ => rfl

lemma HandlerStep.calls {nl : Nlohmann} {call : RequestCall} {flag : Bool} {pc : HandlerPc}
    {r : Progress HandlerPc} (h : HandlerStep nl call flag pc l r) :
    l.ofCalls = false ∧ l.invoked = 0 := by
  cases h <;> exact ⟨rfl, rfl⟩

lemma NotificationStep.calls {call : NotificationCall} {documents documents' : DocumentStore}
    {pc : NotificationPc} {r : Progress NotificationPc}
    (h : NotificationStep call documents pc l documents' r) :
    l.ofCalls = false ∧ l.invoked = 0 := by
  cases h <;> exact ⟨rfl, rfl⟩

lemma CallbackStep.calls {payload : Json} {isError : Bool} {cb : ResponseCallback}
    {r : Progress Unit} (h : CallbackStep payload isError cb l r) :
    l.ofCalls = false ∧ l.invoked = 0 := by
  cases h <;> exact ⟨rfl, rfl⟩

/-- A move of a worker calls the callback it has in hand. -/
lemma Move.calls {before after : Option Running} (h : Move cfg s l before after) :
    l.ofCalls = false ∧
      l.invoked + heldBy Running.invocations after = heldBy Running.invocations before := by
  cases h with
  | handler h | answered h | handlerEscapes h =>
    rw [h.calls.1, h.calls.2]
    exact ⟨rfl, rfl⟩
  | notification h | notificationFinishes h | notificationEscapes h =>
    rw [h.calls.1, h.calls.2]
    exact ⟨rfl, rfl⟩
  | callbackFinishes h | callbackEscapes h =>
    rw [h.calls.1, h.calls.2]
    exact ⟨rfl, rfl⟩
  | take | exit | erase | invoke => exact ⟨rfl, rfl⟩

lemma Outcome.invocations {state_ : ServerState} {serial token : ℕ} {msg : ParsedMessage}
    {next : ServerState × ReaderPc} (h : Outcome cfg state_ serial token msg next) :
    next.2.invocations = 0 := by
  cases h with
  | request h => cases h <;> rfl
  | notification h => cases h <;> rfl
  | response h => cases h <;> rfl
  | error => rfl

/-- The read thread passes on the callbacks it takes. -/
lemma ReaderStep.invocations (h : ReaderStep cfg s l s') :
    l.invoked + (s'.reader.invocations + l.passed Task.invocations) =
      l.matched + s.reader.invocations := by
  cases h with
  | @read body msg hr _ _ =>
    have hnone := (dispatch_outcome cfg s.state_ s.messagesRead s.flags.length msg).invocations
    rw [hr]
    show 0 + ((dispatch cfg s.state_ s.messagesRead s.flags.length msg).2.invocations + 0) = 0 + 0
    simp [hnone]
  | handler capabilities hr hstep =>
    rw [hr, Label.matched_eq_zero hstep.calls.1, hstep.calls.2, hstep.passed]
    rfl
  | handlerFinishes hr hstep =>
    rw [hr, Label.matched_eq_zero hstep.calls.1, hstep.calls.2, hstep.passed]
    rfl
  | handlerEscapes hr hstep =>
    rw [Label.matched_eq_zero hstep.calls.1, hstep.calls.2, hstep.passed, add_zero]
  | submit hr =>
    rw [hr]
    exact congrArg _ (zero_add _)
  | matched hr =>
    rw [hr]
    exact add_comm _ _
  | parseThrows | sendThrows | notifyEscapes | exitThrows => exact congrArg _ (add_zero _)
  | endOfInput hr | leave hr | send hr | insertToken hr | cancel hr | notified hr | exited hr
  | unmatched hr | stop hr | joinSync hr | joinWorkers hr =>
    rw [hr]
    rfl

theorem Step.invocations (h : Step cfg s l s') (hs : s.Phased) :
    l.invoked + s'.invocations = l.matched + s.invocations := by
  apply h.balances hs
  · intro task
    cases task <;> rfl
  · intro h
    exact h.invocations
  · intro before after h
    rw [h.calls.2, Label.matched_eq_zero h.calls.1, zero_add]
  · intro h
    cases h <;> rfl

/-- A callback that was taken from `pendingRequests_` has been called or is about to be. -/
theorem Runs.callbacks (h : Runs cfg ls s) :
    total Label.invoked ls + s.invocations = total Label.matched ls :=
  h.conserved (Server.held_start rfl cfg) fun _ _ _ _ hrun hstep =>
    hstep.invocations (Runs.phased hrun)

/-! ## `pendingRequests_` -/

/-- The call of the callback of an answered call. -/
def CallPhase.invocations (k : ℕ) : CallPhase → Multiset Invocation
  | .answered resp => {(k, resp.payload, resp.isError)}
  | _ => 0

/-- The state of the outgoing requests, as the labels of the run tell it. -/
structure CallInvariant (ls : List Label) (s : Server) : Prop where
  next : s.nextOutgoingId_ = callId s.senders.length
  issued : issuedIds ls = (List.range s.senders.length).map callId
  later : ∀ k, s.senders.length ≤ k → callPhase k ls = .unregistered
  registering : ∀ k id method params cb,
    s.senders[k]? = some (.registering id method params cb) →
      id = callId k ∧ cb.call = k ∧ callPhase k ls = .unregistered
  pending : ∀ id cb, s.pendingRequests_.lookup id = some cb →
    id = callId cb.call ∧ callPhase cb.call ls = .waiting id
  waiting : ∀ k id, callPhase k ls = .waiting id →
    ∃ cb, s.pendingRequests_.lookup id = some cb ∧ cb.call = k
  matched : ∀ k, (total Label.matched ls).filter (fun i => i.1 = k) =
    (callPhase k ls).invocations k

lemma callInvariant_start (cfg : Config) : CallInvariant [] (Server.start cfg) := by
  refine ⟨rfl, rfl, fun _ _ => rfl, ?_, ?_, ?_, fun _ => rfl⟩
  · intro k id method params cb h
    exact absurd h (by simp [Server.start])
  · intro id cb h
    exact absurd h (by simp [Server.start])
  · intro k id h
    exact absurd h (by simp)

lemma issuedIds_concat (ls : List Label) (l : Label) :
    issuedIds (ls ++ [l]) = issuedIds ls ++ l.issuedId?.toList := by
  cases h : l.issuedId? <;> simp [issuedIds, h]

lemma callStep_of_not_calls (h : l.ofCalls = false) (k : ℕ) (phase : CallPhase) :
    callStep k phase l = phase := by
  cases l with
  | issued | registered | responseTaken => exact absurd h (by simp [Label.ofCalls])
  | _ => cases phase <;> rfl

/-- A step that changes the phase of no call and touches no entry. -/
lemma CallInvariant.congr (hs : CallInvariant ls s)
    (hphase : ∀ k, callPhase k (ls ++ [l]) = callPhase k ls) (hissued : l.issuedId? = none)
    (hmatched : l.matched = 0) (hnext : s'.nextOutgoingId_ = s.nextOutgoingId_)
    (hpending : s'.pendingRequests_ = s.pendingRequests_)
    (hlength : s'.senders.length = s.senders.length)
    (hsenders : ∀ (k : ℕ) id method params cb,
      s'.senders[k]? = some (SenderPc.registering id method params cb) →
        s.senders[k]? = some (SenderPc.registering id method params cb)) :
    CallInvariant (ls ++ [l]) s' := by
  refine ⟨?_, ?_, ?_, ?_, ?_, ?_, ?_⟩
  · rw [hnext, hlength]
    exact hs.next
  · rw [issuedIds_concat, hissued, hlength, hs.issued]
    exact List.append_nil _
  · intro k hk
    rw [hphase]
    exact hs.later k (hlength ▸ hk)
  · intro k id method params cb hk
    rw [hphase]
    exact hs.registering k id method params cb (hsenders k id method params cb hk)
  · intro id cb hcb
    rw [hphase]
    exact hs.pending id cb (hpending ▸ hcb)
  · intro k id hk
    rw [hphase] at hk
    rw [hpending]
    exact hs.waiting k id hk
  · intro k
    rw [total_append, total_singleton, hmatched, add_zero, hphase]
    exact hs.matched k

/-- Steps that have nothing to do with the outgoing requests. -/
lemma CallInvariant.of_not_calls (hs : CallInvariant ls s) (hl : l.ofCalls = false)
    (hnext : s'.nextOutgoingId_ = s.nextOutgoingId_)
    (hpending : s'.pendingRequests_ = s.pendingRequests_)
    (hlength : s'.senders.length = s.senders.length)
    (hsenders : ∀ (k : ℕ) id method params cb,
      s'.senders[k]? = some (SenderPc.registering id method params cb) →
        s.senders[k]? = some (SenderPc.registering id method params cb)) :
    CallInvariant (ls ++ [l]) s' := by
  have hphase : ∀ k, callPhase k (ls ++ [l]) = callPhase k ls := by
    intro k
    rw [callPhase_concat, callStep_of_not_calls hl]
  have hissued : l.issuedId? = none := by
    cases l with
    | issued => exact absurd hl (by simp [Label.ofCalls])
    | _ => rfl
  exact hs.congr hphase hissued (Label.matched_eq_zero hl) hnext hpending hlength hsenders

/-- A call draws the next id. -/
lemma CallInvariant.issue (hs : CallInvariant ls s) {method : Bytes} {params : Json}
    {cb : ResponseCallback} (hcb : cb.call = s.senders.length) :
    CallInvariant (ls ++ [.issued s.senders.length s.nextOutgoingId_ method params cb])
      { s with
        nextOutgoingId_ := s.nextOutgoingId_ + 1,
        senders := s.senders ++ [.registering s.nextOutgoingId_ method params cb] } := by
  have hphase : ∀ k, callPhase k
      (ls ++ [.issued s.senders.length s.nextOutgoingId_ method params cb]) = callPhase k ls := by
    intro k
    rw [callPhase_concat]
    cases callPhase k ls <;> rfl
  have hlength : (s.senders ++ [SenderPc.registering s.nextOutgoingId_ method params cb]).length =
      s.senders.length + 1 := by simp
  refine ⟨?_, ?_, ?_, ?_, ?_, ?_, ?_⟩
  · show s.nextOutgoingId_ + 1 = callId _
    rw [hlength, callId_succ, hs.next]
  · show issuedIds _ = (List.range (s.senders ++ _).length).map callId
    rw [issuedIds_concat, hlength, List.range_succ, List.map_append, hs.issued]
    exact congrArg _ (congrArg (fun id => [id]) hs.next)
  · intro k hk
    rw [hphase]
    apply hs.later k
    rw [hlength] at hk
    omega
  · intro k id method' params' cb' hk
    rw [hphase]
    by_cases hlast : k < s.senders.length
    · rw [List.getElem?_append_left hlast] at hk
      exact hs.registering k id method' params' cb' hk
    · -- the new call is the last one
      rw [List.getElem?_append_right (by omega)] at hk
      rcases Nat.eq_zero_or_pos (k - s.senders.length) with hzero | hpos
      · rw [hzero] at hk
        have hk' : k = s.senders.length := by omega
        rcases SenderPc.registering.inj (Option.some.inj hk) with ⟨rfl, -, -, rfl⟩
        rw [hk']
        exact ⟨hs.next, hcb, hs.later _ (le_refl _)⟩
      · rw [List.getElem?_eq_none (by rw [List.length_singleton]; omega)] at hk
        exact absurd hk (by simp)
  · intro id cb' hcb'
    rw [hphase]
    exact hs.pending id cb' hcb'
  · intro k id hk
    rw [hphase] at hk
    exact hs.waiting k id hk
  · intro k
    rw [hphase, total_append, total_singleton]
    show Multiset.filter _ (_ + 0) = _
    rw [add_zero]
    exact hs.matched k

/-- The id of a call that is about to register has no entry yet. -/
lemma CallInvariant.lookup_eq_none (hs : CallInvariant ls s) (hcalls : s.senders.length < 2 ^ 32)
    {k : ℕ} {id : Int32} {method : Bytes} {params : Json} {cb : ResponseCallback}
    (hk : s.senders[k]? = some (.registering id method params cb)) :
    s.pendingRequests_.lookup id = none := by
  rcases hs.registering k id method params cb hk with ⟨hid, -, hphase⟩
  rcases hlookup : s.pendingRequests_.lookup id with _ | cb'
  · rfl
  · rcases hs.pending id cb' hlookup with ⟨hid', hphase'⟩
    have hlast : cb'.call < s.senders.length := by
      by_contra hge
      rw [hs.later cb'.call (by omega)] at hphase'
      exact absurd hphase' (by simp)
    have hlast' : k < s.senders.length := (List.getElem?_eq_some_iff.mp hk).1
    -- an entry under this id would belong to the same call, which is not registered
    have heq : k = cb'.call := callId_injOn (by omega) (by omega) (hid.symm.trans hid')
    rw [← heq, hphase] at hphase'
    exact absurd hphase' (by simp)

/-- Registration makes a call wait. -/
lemma CallInvariant.register (hs : CallInvariant ls s) (hcalls : s.senders.length < 2 ^ 32)
    {call : ℕ} {id : Int32} {method : Bytes} {params : Json} {cb : ResponseCallback}
    (hcall : s.senders[call]? = some (.registering id method params cb)) :
    CallInvariant (ls ++ [.registered call id])
      { s with
        pendingRequests_ := s.pendingRequests_.insert id cb,
        senders := s.senders.set call (.sending id method params) } := by
  have hnone := hs.lookup_eq_none hcalls hcall
  rcases hs.registering call id method params cb hcall with ⟨hid, hcb, hunregistered⟩
  have hself : callPhase call (ls ++ [.registered call id]) = .waiting id := by
    rw [callPhase_concat, hunregistered]
    exact if_pos rfl
  -- the other calls do not see the registration
  have hother : ∀ k ≠ call, callPhase k (ls ++ [.registered call id]) = callPhase k ls := by
    intro k hk
    rw [callPhase_concat]
    cases callPhase k ls with
    | unregistered => exact if_neg (Ne.symm hk)
    | _ => rfl
  have hlast : call < s.senders.length := (List.getElem?_eq_some_iff.mp hcall).1
  refine ⟨?_, ?_, ?_, ?_, ?_, ?_, ?_⟩
  · show _ = callId (s.senders.set call _).length
    rw [List.length_set]
    exact hs.next
  · show _ = (List.range (s.senders.set call _).length).map callId
    rw [issuedIds_concat, List.length_set, ← hs.issued]
    exact List.append_nil _
  · intro k hk
    have hk' : s.senders.length ≤ k := by simpa using hk
    rw [hother k (by omega)]
    exact hs.later k hk'
  · intro k id' method' params' cb' hk
    have hne : k ≠ call := by
      intro heq
      subst heq
      rw [List.getElem?_set_self hlast] at hk
      exact absurd hk (by simp)
    rw [List.getElem?_set_ne (Ne.symm hne)] at hk
    rw [hother k hne]
    exact hs.registering k id' method' params' cb' hk
  · intro id' cb' hlookup
    by_cases hid' : id' = id
    · subst hid'
      have hcb' : cb = cb' := Option.some.inj ((AList.lookup_insert _).symm.trans hlookup)
      subst hcb'
      rw [hcb]
      exact ⟨hid, hself⟩
    · have hbefore : s.pendingRequests_.lookup id' = some cb' :=
        (AList.lookup_insert_ne hid').symm.trans hlookup
      rcases hs.pending id' cb' hbefore with ⟨heq, hphase⟩
      have hne : cb'.call ≠ call := by
        intro h
        rw [h, hunregistered] at hphase
        exact absurd hphase (by simp)
      rw [hother _ hne]
      exact ⟨heq, hphase⟩
  · intro k id' hk
    by_cases hkcall : k = call
    · subst hkcall
      have hid' : id = id' := CallPhase.waiting.inj (hself.symm.trans hk)
      subst hid'
      exact ⟨cb, AList.lookup_insert _, hcb⟩
    · rw [hother k hkcall] at hk
      rcases hs.waiting k id' hk with ⟨cb', hlookup, hcb'⟩
      have hne : id' ≠ id := by
        intro heq
        subst heq
        rw [hnone] at hlookup
        exact absurd hlookup (by simp)
      exact ⟨cb', (AList.lookup_insert_ne hne).trans hlookup, hcb'⟩
  · intro k
    rw [total_append, total_singleton]
    show Multiset.filter _ (_ + 0) = _
    rw [add_zero, hs.matched k]
    by_cases hkcall : k = call
    · subst hkcall
      rw [hself, hunregistered]
      rfl
    · rw [hother k hkcall]

/-- A response that finds no callback answers no call. -/
lemma CallInvariant.unmatched (hs : CallInvariant ls s) {resp : ParsedResponse} {id : Int32}
    (hnone : s.pendingRequests_.lookup id = none) :
    CallInvariant (ls ++ [.responseTaken resp id none]) { s with reader := .loop } := by
  have hphase : ∀ k, callPhase k (ls ++ [.responseTaken resp id none]) = callPhase k ls := by
    intro k
    rw [callPhase_concat]
    rcases hk : callPhase k ls with _ | id' | _
    · rfl
    · have hne : id ≠ id' := by
        intro heq
        subst heq
        rcases hs.waiting k id hk with ⟨cb, hlookup, -⟩
        rw [hnone] at hlookup
        exact absurd hlookup (by simp)
      exact if_neg hne
    · rfl
  exact hs.congr hphase rfl rfl rfl rfl rfl fun _ _ _ _ _ h => h

/-- A response that finds a callback answers its call, and no other. -/
lemma CallInvariant.matches (hs : CallInvariant ls s) {resp : ParsedResponse} {id : Int32}
    {cb : ResponseCallback} (hcb : s.pendingRequests_.lookup id = some cb) (reader : ReaderPc) :
    CallInvariant (ls ++ [.responseTaken resp id (some cb)])
      { s with pendingRequests_ := s.pendingRequests_.erase id, reader := reader } := by
  rcases hs.pending id cb hcb with ⟨hid, hwaiting⟩
  have hself : callPhase cb.call (ls ++ [.responseTaken resp id (some cb)]) = .answered resp := by
    rw [callPhase_concat, hwaiting]
    exact if_pos rfl
  -- no other call waits for this id
  have hother : ∀ k ≠ cb.call,
      callPhase k (ls ++ [.responseTaken resp id (some cb)]) = callPhase k ls := by
    intro k hk
    rw [callPhase_concat]
    rcases hphase : callPhase k ls with _ | id' | _
    · rfl
    · have hne : id ≠ id' := by
        intro heq
        subst heq
        rcases hs.waiting k id hphase with ⟨cb', hlookup, hcall⟩
        have heq : cb' = cb := Option.some.inj (hlookup.symm.trans hcb)
        exact hk (heq ▸ hcall.symm)
      exact if_neg hne
    · rfl
  have hlookup : ∀ id' cb', (s.pendingRequests_.erase id).lookup id' = some cb' →
      id' ≠ id ∧ s.pendingRequests_.lookup id' = some cb' := by
    intro id' cb' h
    have hne : id' ≠ id := by
      intro heq
      subst heq
      rw [AList.lookup_erase] at h
      exact absurd h (by simp)
    exact ⟨hne, (AList.lookup_erase_ne hne).symm.trans h⟩
  refine ⟨hs.next, ?_, ?_, ?_, ?_, ?_, ?_⟩
  · rw [issuedIds_concat, hs.issued]
    exact List.append_nil _
  · intro k hk
    have hne : k ≠ cb.call := by
      intro heq
      subst heq
      rw [hs.later _ hk] at hwaiting
      exact absurd hwaiting (by simp)
    rw [hother k hne]
    exact hs.later k hk
  · intro k id' method params cb' hk
    rcases hs.registering k id' method params cb' hk with ⟨heq, hcall, hphase⟩
    have hne : k ≠ cb.call := by
      intro h
      rw [h, hwaiting] at hphase
      exact absurd hphase (by simp)
    rw [hother k hne]
    exact ⟨heq, hcall, hphase⟩
  · intro id' cb' h
    rcases hlookup id' cb' h with ⟨hne, hbefore⟩
    rcases hs.pending id' cb' hbefore with ⟨heq, hphase⟩
    have hcall : cb'.call ≠ cb.call := by
      intro h
      rw [h, hwaiting] at hphase
      exact hne (CallPhase.waiting.inj hphase).symm
    rw [hother _ hcall]
    exact ⟨heq, hphase⟩
  · intro k id' hk
    have hne : k ≠ cb.call := by
      intro heq
      subst heq
      rw [hself] at hk
      exact absurd hk (by simp)
    rw [hother k hne] at hk
    rcases hs.waiting k id' hk with ⟨cb', hbefore, hcall⟩
    have hid' : id' ≠ id := by
      intro heq
      subst heq
      have heq : cb' = cb := Option.some.inj (hbefore.symm.trans hcb)
      exact hne (heq ▸ hcall.symm)
    exact ⟨cb', (AList.lookup_erase_ne hid').trans hbefore, hcall⟩
  · intro k
    rw [total_append, total_singleton, Multiset.filter_add, hs.matched k]
    by_cases hk : k = cb.call
    · subst hk
      rw [hself, hwaiting]
      show 0 + Multiset.filter _ {_} = {_}
      rw [Multiset.filter_singleton, if_pos rfl, zero_add]
    · rw [hother k hk]
      show _ + Multiset.filter _ {_} = _
      rw [Multiset.filter_singleton, if_neg (Ne.symm hk)]
      exact add_zero _

lemma CallInvariant.step (hs : CallInvariant ls s) (hcalls : s.senders.length < 2 ^ 32)
    (h : Step cfg s l s') : CallInvariant (ls ++ [l]) s' := by
  cases h with
  | reader _ _ h =>
    cases h with
    | unmatched _ hnone => exact hs.unmatched hnone
    | matched _ hcb => exact hs.matches hcb _
    | handler capabilities _ hstep =>
      rcases s.lifecycleEffect_eq capabilities _ l with ⟨_, _, _, _, heq⟩
      rw [heq]
      exact hs.of_not_calls hstep.calls.1 rfl rfl rfl fun _ _ _ _ _ h => h
    | handlerFinishes _ hstep | handlerEscapes _ hstep =>
      exact hs.of_not_calls hstep.calls.1 rfl rfl rfl fun _ _ _ _ _ h => h
    | @submit e | @stop e =>
      cases e <;> exact hs.of_not_calls rfl rfl rfl rfl fun _ _ _ _ _ h => h
    | _ => exact hs.of_not_calls rfl rfl rfl rfl fun _ _ _ _ _ h => h
  | worker _ _ _ h =>
    rcases h.move with ⟨_, _, hmove, -, -⟩
    rcases h.outgoing with ⟨hnext, hpending, hsenders⟩
    apply hs.of_not_calls hmove.calls.1 hnext hpending (congrArg _ hsenders)
    intro k id method params cb hk
    rwa [← hsenders]
  | sender _ h =>
    cases h with
    | issue _ _ _ hcb => exact hs.issue hcb
    | register call hcall =>
      -- `emplace` finds no entry, so it makes one
      rw [hs.lookup_eq_none hcalls hcall]
      exact hs.register hcalls hcall
    | send call | sendThrows call =>
      refine hs.of_not_calls rfl rfl rfl (List.length_set) ?_
      intro k id method params cb hk
      by_cases hkcall : call = k
      · subst hkcall
        rw [List.getElem?_set, if_pos rfl] at hk
        split at hk <;> exact absurd hk (by simp)
      · rwa [List.getElem?_set_ne hkcall] at hk
    | notify => exact hs.of_not_calls rfl rfl rfl rfl fun _ _ _ _ _ h => h

/-- Calls are never forgotten. -/
lemma Step.senders_length (h : Step cfg s l s') : s.senders.length ≤ s'.senders.length := by
  cases h with
  | reader _ _ h =>
    cases h with
    | handler capabilities =>
      rcases s.lifecycleEffect_eq capabilities _ l with ⟨_, _, _, _, heq⟩
      rw [heq]
    | submit | stop => exact le_of_eq (congrArg _ (Server.setPool_senders s _ _).symm)
    | _ => exact le_refl _
  | worker _ _ _ h => exact le_of_eq (congrArg _ h.outgoing.2.2.symm)
  | sender _ h =>
    cases h with
    | issue => simp
    | register | send | sendThrows => exact le_of_eq (List.length_set).symm
    | notify => exact le_refl _

theorem Runs.calls (h : Runs cfg ls s) (hcalls : s.senders.length < 2 ^ 32) :
    CallInvariant ls s := by
  have hinv : s.senders.length < 2 ^ 32 → CallInvariant ls s := by
    apply h.history (I := fun ls s => s.senders.length < 2 ^ 32 → CallInvariant ls s)
    · exact fun _ => callInvariant_start cfg
    · -- the bound at the end holds all along, since calls are never forgotten
      intro ks t l u ht hstep hu
      have hbefore := hstep.senders_length
      exact (ht (by omega)).step (by omega) hstep
  exact hinv hcalls

lemma senders_length_of_run {ms : List Label} {u : Server} (h : Run (Step cfg) s ms u) :
    s.senders.length ≤ u.senders.length :=
  h.invariant (I := fun t => s.senders.length ≤ t.senders.length) (le_refl _)
    fun _ _ _ ht hstep => ht.trans hstep.senders_length

/-! ## Processing a response -/

/-- A read thread that is about to process a response does that next. -/
lemma Step.responding (h : Step cfg s l s') {resp : ParsedResponse} {id : Int32}
    (hs : s.reader = .responding resp id) :
    s'.reader = .responding resp id ∨ ∃ found, l = .responseTaken resp id found := by
  cases h with
  | reader _ _ h =>
    cases h with
    | unmatched hr =>
      rcases ReaderPc.responding.inj (hr.symm.trans hs) with ⟨rfl, rfl⟩
      exact Or.inr ⟨none, rfl⟩
    | @matched _ _ cb hr =>
      rcases ReaderPc.responding.inj (hr.symm.trans hs) with ⟨rfl, rfl⟩
      exact Or.inr ⟨some cb, rfl⟩
    | read _ hr | parseThrows _ hr | exitThrows _ hr | handler _ hr =>
      exact absurd (hr.symm.trans hs) (by simp)
    | endOfInput hr | leave hr | send hr | sendThrows hr | handlerFinishes hr | handlerEscapes hr
    | insertToken hr | submit hr | cancel hr | notified hr | notifyEscapes hr | exited hr
    | stop hr | joinSync hr | joinWorkers hr =>
      exact absurd (hr.symm.trans hs) (by simp)
  | worker _ _ _ h => exact Or.inl (h.control.1.trans hs)
  | sender _ h =>
    rcases h.frame with ⟨_, _, _, rfl⟩
    exact Or.inl hs

lemma responding_of_run {ms : List Label} {u : Server} (h : Run (Step cfg) s ms u)
    {resp : ParsedResponse} {id : Int32} (hs : s.reader = .responding resp id) :
    u.reader = .responding resp id ∨ ∃ found, .responseTaken resp id found ∈ ms := by
  rcases h.until_step (P := fun t => t.reader = .responding resp id)
    (Q := fun _ l _ => ∃ found, l = .responseTaken resp id found) hs
    (fun _ _ _ ht hstep => hstep.responding ht) with
    hreader | ⟨ms₁, _, ms₂, _, _, rfl, -, -, ⟨found, rfl⟩, -⟩
  · exact Or.inl hreader
  · exact Or.inr ⟨found, by simp⟩

/-- The id that is looked up is that of the response. -/
lemma Step.responding_id (h : Step cfg s l s')
    (hs : ∀ resp id, s.reader = .responding resp id → resp.id = .int id) :
    ∀ resp id, s'.reader = .responding resp id → resp.id = .int id := by
  intro resp id hreader
  cases h with
  | reader _ _ h =>
    cases h with
    | read => exact ((dispatch_outcome _ _ _ _ _).responding hreader).2
    | parseThrows | sendThrows | handlerEscapes | notifyEscapes | exitThrows =>
      exact hs resp id hreader
    | _ => exact absurd hreader (by simp)
  | worker _ _ _ h => exact hs resp id (h.control.1 ▸ hreader)
  | sender _ h =>
    rcases h.frame with ⟨_, _, _, rfl⟩
    exact hs resp id hreader

lemma Runs.responding_id (h : Runs cfg ls s) :
    ∀ resp id, s.reader = .responding resp id → resp.id = .int id :=
  h.invariant (fun _ _ hreader => absurd hreader (by simp [Server.start]))
    fun _ _ _ ht hstep => hstep.responding_id ht

end Steps

/-! ## First responses -/

variable {cfg : Config} {ls : List Label} {s : Server}

/-- The calls of a callback are those of its phase, but for what is about to be called. -/
lemma Runs.invocations_le (h : Runs cfg ls s) (hcalls : s.senders.length < 2 ^ 32) (k : ℕ) :
    invocations k ls ≤ (callPhase k ls).invocations k := by
  rw [← (Runs.calls h hcalls).matched k, ← Runs.callbacks h, Multiset.filter_add]
  exact Multiset.le_add_right _ _

lemma Runs.first_response (h : Runs cfg ls s) (hcalls : s.senders.length < 2 ^ 32) {k : ℕ}
    {payload : Json} {isError : Bool} (hmem : (k, payload, isError) ∈ total Label.matched ls) :
    ∃ resp, FirstResponse k resp ls ∧ resp.payload = payload ∧ resp.isError = isError := by
  have hfilter : (k, payload, isError) ∈ (total Label.matched ls).filter fun i => i.1 = k :=
    Multiset.mem_filter.mpr ⟨hmem, rfl⟩
  rw [(Runs.calls h hcalls).matched k] at hfilter
  have hspec := callPhase_spec k ls
  cases hphase : callPhase k ls with
  | answered resp =>
    rw [hphase] at hfilter hspec
    rcases Prod.mk.inj (Multiset.mem_singleton.mp hfilter) with ⟨-, hargs⟩
    rcases Prod.mk.inj hargs with ⟨hpayload, hisError⟩
    exact ⟨resp, hspec, hpayload.symm, hisError.symm⟩
  | _ =>
    rw [hphase] at hfilter
    exact absurd hfilter (Multiset.notMem_zero _)

/-- The phase of a call whose first response has been processed. -/
lemma FirstResponse.callPhase (h : Runs cfg ls s) (hcalls : s.senders.length < 2 ^ 32) {k : ℕ}
    {resp : ParsedResponse} (hfirst : FirstResponse k resp ls) :
    callPhase k ls = .answered resp := by
  rcases hfirst with ⟨ls₁, ls₂, ls₃, id, found, rfl, hnone⟩
  rcases h.split_at with ⟨t, t', hrun, hstep, hrest⟩
  have hlength := hstep.senders_length
  have hlength' := senders_length_of_run hrest
  -- a call registers but once, so it had not before
  have hunregistered : CLSP.callPhase k ls₁ = .unregistered := by
    have hregisters := hstep.of_sender rfl
    cases hregisters with
    | register _ hcall => exact ((Runs.calls hrun (by omega)).registering _ _ _ _ _ hcall).2.2
  have hwaiting : CLSP.callPhase k (ls₁ ++ [.registered k id]) = .waiting id := by
    rw [callPhase_concat, hunregistered]
    exact if_pos rfl
  have hanswered : CLSP.callPhase k
      (ls₁ ++ [.registered k id] ++ ls₂ ++ [.responseTaken resp id found]) = .answered resp := by
    rw [callPhase_concat, callPhase_waiting hwaiting hnone]
    exact if_pos rfl
  have happ : ls₁ ++ .registered k id :: (ls₂ ++ .responseTaken resp id found :: ls₃) =
      ls₁ ++ [.registered k id] ++ ls₂ ++ [.responseTaken resp id found] ++ ls₃ := by simp
  rw [happ]
  exact callPhase_answered hanswered ls₃

lemma Runs.issuedIds_nodup (h : Runs cfg ls s) (hcalls : s.senders.length < 2 ^ 32) :
    (issuedIds ls).Nodup := by
  rw [(Runs.calls h hcalls).issued]
  apply List.Nodup.map_on _ List.nodup_range
  intro j hj k hk heq
  rw [List.mem_range] at hj hk
  exact callId_injOn (by omega) (by omega) heq

lemma Runs.called_once (h : Runs cfg ls s) (hcalls : s.senders.length < 2 ^ 32) (k : ℕ) :
    (invocations k ls).card ≤ 1 := by
  have hle := Multiset.card_le_card (Runs.invocations_le h hcalls k)
  cases hphase : callPhase k ls with
  | answered resp =>
    rw [hphase] at hle
    exact hle
  | _ =>
    rw [hphase] at hle
    exact hle.trans (by simp [CallPhase.invocations])

/-- Where a callback is called, the first response of its call has been processed. -/
lemma Runs.called_first {ls₁ ls₂ : List Label} {k : ℕ} {payload : Json} {isError : Bool}
    (h : Runs cfg (ls₁ ++ .callbackInvoked k payload isError :: ls₂) s)
    (hcalls : s.senders.length < 2 ^ 32) :
    ∃ resp, FirstResponse k resp ls₁ ∧ resp.payload = payload ∧ resp.isError = isError := by
  rcases h.split_at with ⟨t, t', hrun, hstep, hrest⟩
  have hlength := hstep.senders_length
  have hlength' := senders_length_of_run hrest
  -- the balance after the call, in which it is counted
  have hbalance := Runs.callbacks (hrun.snoc hstep)
  rw [total_append, total_append, total_singleton, total_singleton] at hbalance
  have hmem : (k, payload, isError) ∈ total Label.matched ls₁ + 0 := by
    show _ ∈ total Label.matched ls₁ + (Label.callbackInvoked k payload isError).matched
    rw [← hbalance]
    simp [Label.invoked]
  rw [add_zero] at hmem
  exact Runs.first_response hrun (by omega) hmem

/-- When `run` has returned, the callbacks whose first response has been processed have been
called: no task is left that could hold one back. -/
lemma Runs.called_of_returned (h : Runs cfg ls s) (hcalls : s.senders.length < 2 ^ 32)
    (hret : s.reader = .returned) {k : ℕ} {resp : ParsedResponse}
    (hfirst : FirstResponse k resp ls) :
    .callbackInvoked k resp.payload resp.isError ∈ ls := by
  have hphase := hfirst.callPhase h hcalls
  have hbalance := Runs.callbacks h
  have hheld : s.invocations = 0 := Runs.held_of_returned h hret
  rw [hheld, add_zero] at hbalance
  have hmatched := (Runs.calls h hcalls).matched k
  rw [← hbalance, hphase] at hmatched
  have hmem : (k, resp.payload, resp.isError) ∈ total Label.invoked ls := by
    apply Multiset.mem_of_mem_filter (p := fun i => i.1 = k)
    rw [hmatched]
    exact Multiset.mem_singleton_self _
  rcases Transition.mem_total.mp hmem with ⟨l, hl, hinvoked⟩
  cases l with
  | callbackInvoked =>
    rcases Prod.mk.inj (Multiset.mem_singleton.mp hinvoked) with ⟨rfl, hargs⟩
    rcases Prod.mk.inj hargs with ⟨rfl, rfl⟩
    exact hl
  | _ => exact absurd hinvoked (Multiset.notMem_zero _)

/-- When `run` has returned, the responses with integer ids have been processed. -/
lemma Runs.processed_of_returned {ls₁ ls₂ : List Label} {m : ℕ} {body : Bytes}
    {resp : ParsedResponse} {id : Int32}
    (h : Runs cfg (ls₁ ++ .read m body (.response resp) :: ls₂) s) (hret : s.reader = .returned)
    (hid : resp.id = .int id) : ∃ found, .responseTaken resp id found ∈ ls₂ := by
  rcases h.split_at with ⟨t, t', hrun, hstep, hrest⟩
  rcases hstep.read_inv with ⟨-, -, -, -, rfl⟩
  have hreader : (t.read (dispatch cfg t.state_ t.messagesRead t.flags.length
      (.response resp))).reader = .responding resp id := by
    show handleResponse resp = _
    unfold handleResponse
    rw [hid]
  rcases responding_of_run hrest hreader with hresponding | htaken
  · rw [hret] at hresponding
    exact absurd hresponding (by simp)
  · exact htaken

/-- A response with a string for an id leaves no trace. -/
lemma Step.read_string_response {s' : Server} {m : ℕ} {body : Bytes} {resp : ParsedResponse}
    {text : Bytes} (h : Step cfg s (.read m body (.response resp)) s') (hid : resp.id = .str text) :
    s'.reader = .loop ∧ s'.pendingRequests_ = s.pendingRequests_ ∧ ∀ e, s'.pool e = s.pool e := by
  rcases h.read_inv with ⟨-, -, -, -, rfl⟩
  have hreader : handleResponse resp = .loop := by
    unfold handleResponse
    rw [hid]
  refine ⟨hreader, rfl, ?_⟩
  intro e
  cases e <;> rfl

end CLSP
