import CLSP.Server.Cancellation
import CLSP.Server.ExitCode
import Mathlib.Data.List.GetD

/-!
# Cancels hit their targets

In a run whose requests have distinct ids the token of a request is in `cancellationTokens_` under
its own id until its response has been sent. A request that is cancelled while it waits for a worker
is answered without its handler (`Doomed`), and the flag of one that no cancel names stays down
(`Uncancelled`).
-/

namespace CLSP

open Transition (Run Reaches total)

section Steps

variable {cfg : Config} {ls : List Label} {s s' : Server} {l : Label} {call : RequestCall}

/-! ## Distinct ids -/

/-- A request that `dispatch` takes in hand has the id of the request that is read. -/
lemma Outcome.ids_le {state_ : ServerState} {serial token : ℕ} {msg : ParsedMessage}
    {next : ServerState × ReaderPc} (h : Outcome cfg state_ serial token msg next) (body : Bytes) :
    next.2.calls.map RequestCall.id ≤ (Label.read serial body msg).asked := by
  cases h with
  | request h =>
    cases h with
    | rejected => exact Multiset.zero_le _
    | lifecycle | pooled => exact le_refl _
  | notification h => cases h <;> exact Multiset.zero_le _
  | response h => cases h <;> exact Multiset.zero_le _
  | error => exact Multiset.zero_le _

lemma Step.ids_le (h : Step cfg s l s') (hs : s.Phased) :
    s'.calls.map RequestCall.id ≤ s.calls.map RequestCall.id + l.asked := by
  have hother : (∀ m body msg, l ≠ .read m body msg) →
      s'.calls.map RequestCall.id ≤ s.calls.map RequestCall.id + l.asked := by
    intro hl
    rcases h.calls hs with ⟨hle, -⟩ | ⟨call', -, -, -, hread, -⟩
    · exact le_trans (Multiset.map_le_map hle) (Multiset.le_add_right _ _)
    · have hsame := h.messagesRead_eq hl
      omega
  cases l with
  | read m body msg =>
    have hserial := h.serial_of_read
    subst hserial
    rcases h.read_inv with ⟨hr, -, -, -, rfl⟩
    have houtcome := dispatch_outcome cfg s.state_ s.messagesRead s.flags.length msg
    rw [Server.calls_read hr, Multiset.map_add]
    exact add_le_add_right (houtcome.ids_le body) _
  | _ => exact hother (by simp)

/-- The ids of the requests in hand have been asked. -/
lemma Runs.ids_le (h : Runs cfg ls s) :
    s.calls.map RequestCall.id ≤ total Label.asked ls := by
  induction h with
  | nil =>
    have hnone : (Server.start cfg).calls = 0 := Server.held_start rfl cfg
    rw [hnone]
    exact Multiset.zero_le _
  | snoc hrun hstep ih =>
    rw [Transition.total_append, Transition.total_singleton]
    exact le_trans (hstep.ids_le (Runs.phased hrun)) (add_le_add_left ih _)

/-- With distinct ids, a request that is about to be registered has another id than one whose token
is still to be erased. -/
lemma Server.id_ne_of_erasing (hids : (s.calls.map RequestCall.id).Nodup) {call' : RequestCall}
    (hr : s.reader = .registering call) (herasing : s.Erasing call') : call'.id ≠ call.id := by
  rcases herasing with ⟨e, hwork⟩
  have hmem : call' ∈ s.held (fun _ => 0) Task.calls Running.calls :=
    Server.mem_held_of_pool
      (ThreadPool.mem_contents_of_working hwork (Multiset.mem_singleton_self _))
  intro heq
  unfold Server.calls at hids
  rw [Server.held_eq_add, hr, Multiset.map_add] at hids
  have hnot := (Multiset.nodup_cons.mp hids).1
  exact hnot (heq ▸ Multiset.mem_map_of_mem RequestCall.id hmem)

/-- In a run whose requests have distinct ids no request is registered under an id that is still in
use. -/
theorem Runs.careful (h : Runs cfg ls s) (hdistinct : (total Label.asked ls).Nodup) :
    Run (CarefulStep cfg) (Server.start cfg) ls s := by
  induction h with
  | nil => exact .nil
  | @snoc ls t u l hrun hstep ih =>
    rw [Transition.total_append, Transition.total_singleton] at hdistinct
    rcases Multiset.nodup_add.mp hdistinct with ⟨hbefore, -, hdisjoint⟩
    have howed : t.owed ≤ total Label.asked ls := by
      rw [← Runs.balance hrun]
      exact Multiset.le_add_left _ _
    refine (ih hbefore).snoc ⟨⟨hstep, ?_⟩, ?_⟩
    · intro id hid hmem
      exact Multiset.disjoint_left.mp hdisjoint (Multiset.mem_of_le howed hmem) hid
    · intro call hl call' herasing
      subst hl
      have hr : t.reader = .registering call := by
        cases (hstep.of_reader rfl).2 with
        | insertToken hr => exact hr
        | handler _ _ h | handlerFinishes _ h | handlerEscapes _ h => cases h
      exact Server.id_ne_of_erasing (Multiset.nodup_of_le (Runs.ids_le hrun) hbefore) hr herasing

/-- In such a run the entry of a request is its own. -/
lemma Runs.registered_of_distinct (h : Runs cfg ls s) (hdistinct : (total Label.asked ls).Nodup) :
    Registered s :=
  registered_of_careful (Runs.careful h hdistinct)

/-! ## Flags -/

lemma ReaderPc.newFlags_eq (reader : ReaderPc) : ∃ n, reader.newFlags = List.replicate n false := by
  cases reader with
  | inline | registering => exact ⟨1, rfl⟩
  | _ => exact ⟨0, rfl⟩

/-- A cancel that finds a token sets its flag, and new flags are down. -/
lemma Step.flags (h : Step cfg s l s') :
    (∃ id token, s.reader = .cancelling id ∧ s.cancellationTokens_.lookup id = some token ∧
      s'.flags = s.flags.set token true) ∨ ∃ n, s'.flags = s.flags ++ List.replicate n false := by
  have hsame : s'.flags = s.flags → ∃ n, s'.flags = s.flags ++ List.replicate n false := by
    intro heq
    exact ⟨0, heq.trans (List.append_nil _).symm⟩
  cases h with
  | reader _ _ h =>
    cases h with
    | @read body msg =>
      have hnew := (dispatch cfg s.state_ s.messagesRead s.flags.length msg).2.newFlags_eq
      rcases hnew with ⟨n, hnew⟩
      exact Or.inr ⟨n, congrArg (s.flags ++ ·) hnew⟩
    | @cancel id hr =>
      rcases hlookup : s.cancellationTokens_.lookup id with _ | token
      · refine Or.inr (hsame ?_)
        show (s.cancel id).flags = s.flags
        unfold Server.cancel
        rw [hlookup]
      · refine Or.inl ⟨id, token, hr, hlookup, ?_⟩
        show (s.cancel id).flags = _
        unfold Server.cancel
        rw [hlookup]
    | handler capabilities =>
      rcases s.lifecycleEffect_eq capabilities _ l with ⟨_, _, _, _, heq⟩
      rw [heq] at hsame ⊢
      exact Or.inr (hsame rfl)
    | submit | stop => exact Or.inr (hsame (Server.setPool_flags s _ _))
    | _ => exact Or.inr (hsame rfl)
  | worker _ _ _ h => exact Or.inr (hsame h.control.2.2.2.2.2)
  | sender _ h =>
    rcases h.frame with ⟨_, _, _, rfl⟩
    exact Or.inr (hsame rfl)

/-- A flag that is up stays up. -/
lemma Step.flag_of_flag (h : Step cfg s l s') (hflag : s.flag call = true) :
    s'.flag call = true := by
  have hlt : call.token < s.flags.length := by
    by_contra hge
    have hnone : s.flag call = false := List.getD_eq_default _ _ (by omega)
    exact absurd (hflag.symm.trans hnone) (by simp)
  unfold Server.flag at hflag ⊢
  rcases h.flags with ⟨id, token, -, -, heq⟩ | ⟨n, heq⟩
  · rw [heq]
    by_cases htoken : token = call.token
    · rw [htoken, List.getD_eq_getElem?_getD, List.getElem?_set_self hlt]
      rfl
    · rw [List.getD_eq_getElem?_getD, List.getElem?_set_ne htoken, ← List.getD_eq_getElem?_getD]
      exact hflag
  · rw [heq, List.getD_append _ _ _ _ hlt]
    exact hflag

/-- A flag that is down stays down unless the cancel finds its token. -/
lemma Step.not_flag_of_not_flag (h : Step cfg s l s') (hflag : s.flag call = false)
    (htoken : ∀ id, s.reader = .cancelling id →
      s.cancellationTokens_.lookup id ≠ some call.token) : s'.flag call = false := by
  unfold Server.flag at hflag ⊢
  rcases h.flags with ⟨id, token, hr, hlookup, heq⟩ | ⟨n, heq⟩
  · have hne : token ≠ call.token := by
      intro htoken'
      exact htoken id hr (htoken' ▸ hlookup)
    rw [heq, List.getD_eq_getElem?_getD, List.getElem?_set_ne hne, ← List.getD_eq_getElem?_getD]
    exact hflag
  · rw [heq]
    rcases Nat.lt_or_ge call.token s.flags.length with hlt | hge
    · rw [List.getD_append _ _ _ _ hlt]
      exact hflag
    · -- a new flag, or none
      rw [List.getD_append_right _ _ _ _ hge, List.getD_eq_getElem?_getD, List.getElem?_replicate]
      split <;> rfl

/-! ## The entries of the map -/

/-- The entry under an id is a token of a request with that id. -/
structure Owned (s : Server) : Prop where
  bounded : ∀ id token, s.cancellationTokens_.lookup id = some token → token < s.flags.length
  owned : ∀ id, ∀ call ∈ s.calls, s.cancellationTokens_.lookup id = some call.token → call.id = id

/-- An entry of the map was there before a step, or the step puts it there. -/
lemma Step.lookup (h : Step cfg s l s') {id : RequestId} {token : ℕ}
    (hlookup : s'.cancellationTokens_.lookup id = some token) :
    s.cancellationTokens_.lookup id = some token ∨
      ∃ call ∈ s.calls, call.id = id ∧ call.token = token := by
  rcases h.cancellationTokens_ with heq | ⟨call, -, hr, heq⟩ | ⟨call, -, heq⟩
  · rw [heq] at hlookup
    exact Or.inl hlookup
  · rw [heq] at hlookup
    by_cases hid : id = call.id
    · rw [hid, AList.lookup_insert] at hlookup
      refine Or.inr ⟨call, ?_, hid.symm, Option.some.inj hlookup⟩
      apply Server.mem_held_of_reader
      rw [hr]
      exact Multiset.mem_singleton_self _
    · rw [AList.lookup_insert_ne hid] at hlookup
      exact Or.inl hlookup
  · rw [heq] at hlookup
    by_cases hid : id = call.id
    · rw [hid, AList.lookup_erase] at hlookup
      exact absurd hlookup (by simp)
    · rw [AList.lookup_erase_ne hid] at hlookup
      exact Or.inl hlookup

lemma Step.flags_length_le (h : Step cfg s l s') : s.flags.length ≤ s'.flags.length := by
  rcases h.flags with ⟨id, token, -, -, heq⟩ | ⟨n, heq⟩
  · rw [heq, List.length_set]
  · rw [heq, List.length_append]
    omega

lemma Owned.step (hs : Owned s) (hregistered : Registered s) (hphased : s.Phased)
    (h : Step cfg s l s') : Owned s' := by
  have hbounded : ∀ id token, s'.cancellationTokens_.lookup id = some token →
      token < s.flags.length := by
    intro id token hlookup
    rcases h.lookup hlookup with hbefore | ⟨call, hcall, -, rfl⟩
    · exact hs.bounded id token hbefore
    · exact hregistered.fresh call hcall
  refine ⟨?_, ?_⟩
  · intro id token hlookup
    exact lt_of_lt_of_le (hbounded id token hlookup) h.flags_length_le
  · intro id call hcall hlookup
    rcases h.origin hphased hcall with hcall | ⟨_, _, _, -, rfl⟩
    · rcases h.lookup hlookup with hbefore | ⟨call', hcall', hid, htoken⟩
      · exact hs.owned id call hcall hbefore
      · -- tokens are not shared
        have heq := Multiset.inj_on_of_nodup_map hregistered.tokens call' hcall' call hcall htoken
        rw [← heq]
        exact hid
    · -- no entry is a token that is still to be made
      exact absurd (hbounded id _ hlookup) (lt_irrefl _)

lemma Runs.owned (h : Runs cfg ls s) (hdistinct : (total Label.asked ls).Nodup) : Owned s := by
  induction h with
  | nil => exact ⟨fun id token h => absurd h (by simp [Server.start]),
      fun id call _ h => absurd h (by simp [Server.start])⟩
  | @snoc ls t u l hrun hstep ih =>
    rw [Transition.total_append] at hdistinct
    have hbefore := (Multiset.nodup_add.mp hdistinct).1
    exact (ih hbefore).step (Runs.registered_of_distinct hrun hbefore) (Runs.phased hrun) hstep

/-! ## Requests that no cancel names -/

/-- A cancel that names the id has been read. -/
def Named (ls : List Label) (id : RequestId) : Prop :=
  ∃ m body notif, .read m body (.notification notif) ∈ ls ∧ notif.Cancels id

lemma Named.append {id : RequestId} (h : Named ls id) (ms : List Label) : Named (ls ++ ms) id := by
  rcases h with ⟨m, body, notif, hmem, hcancels⟩
  exact ⟨m, body, notif, List.mem_append_left _ hmem, hcancels⟩

lemma LastCancels.named {id : RequestId} (h : LastCancels ls id) : Named ls id := by
  rcases h with ⟨notif, hlast, hcancels⟩
  rcases List.mem_filterMap.mp (List.mem_of_getLast? hlast) with ⟨l, hl, hmessage⟩
  cases l with
  | read m body msg =>
    rw [Option.some.inj hmessage] at hl
    exact ⟨m, body, notif, hl, hcancels⟩
  | _ => exact absurd hmessage (by simp [Label.message?])

/-- The flag of a request that no cancel names is down. -/
def Uncancelled (ls : List Label) (s : Server) : Prop :=
  ∀ call ∈ s.calls, ¬ Named ls call.id → s.flag call = false

lemma Uncancelled.step (hs : Uncancelled ls s) (hrun : Runs cfg ls s) (howned : Owned s)
    (h : Step cfg s l s') : Uncancelled (ls ++ [l]) s' := by
  intro call hcall hnot
  have hnot' : ¬ Named ls call.id := fun hnamed => hnot (hnamed.append [l])
  rcases h.origin (Runs.phased hrun) hcall with hcall | ⟨_, _, _, -, rfl⟩
  · apply h.not_flag_of_not_flag (hs call hcall hnot')
    intro id hr hlookup
    -- the cancel would name the request
    have hid := howned.owned id call hcall hlookup
    exact hnot' (hid ▸ (Runs.lastCancels hrun hr).named)
  · -- the request has just been read, and has a new flag
    apply h.not_flag_of_not_flag (List.getD_eq_default _ _ (le_refl _))
    intro id hr hlookup
    exact absurd (howned.bounded id _ hlookup) (lt_irrefl _)

theorem Runs.uncancelled (h : Runs cfg ls s) (hdistinct : (total Label.asked ls).Nodup) :
    Uncancelled ls s := by
  induction h with
  | nil =>
    intro call hcall
    have hnone : (Server.start cfg).calls = 0 := Server.held_start rfl cfg
    rw [hnone] at hcall
    exact absurd hcall (Multiset.notMem_zero _)
  | @snoc ls t u l hrun hstep ih =>
    rw [Transition.total_append] at hdistinct
    have hbefore := (Multiset.nodup_add.mp hdistinct).1
    exact (ih hbefore).step hrun (Runs.owned hrun hbefore) hstep

/-! ## Who is answered `RequestCancelled` -/

/-- What a handler throws to be answered `RequestCancelled`. -/
def Exn.AsksCancelled : Exn → Prop
  | .requestCancelled => True
  | .jsonRpc code _ => code = .RequestCancelled
  | _ => False

/-- The handler of a request with the id has asked for that answer. -/
def AskedCancelled (ls : List Label) (id : RequestId) : Prop :=
  ∃ call e, call.id = id ∧ .handlerEnded call (.error e) ∈ ls ∧ e.AsksCancelled

lemma AskedCancelled.append {id : RequestId} (h : AskedCancelled ls id) (ms : List Label) :
    AskedCancelled (ls ++ ms) id := by
  rcases h with ⟨call, e, hid, hmem, he⟩
  exact ⟨call, e, hid, List.mem_append_left _ hmem, he⟩

/-- A handler run comes to that answer where its flag is up or its handler asks for it. -/
lemma HandlerStep.flag_or_asks {nl : Nlohmann} {flag : Bool} {pc : HandlerPc} {message : Bytes}
    {caught : Bool} (h : HandlerStep nl call flag pc l
      (.next (.responding (.error .RequestCancelled message) caught))) :
    flag = true ∨ ∃ e, l = .handlerEnded call (.error e) ∧ e.AsksCancelled := by
  cases h with
  | cancelled htrue => exact Or.inl htrue
  | @throws e _ he =>
    refine Or.inr ⟨e, rfl, ?_⟩
    cases e with
    | requestCancelled => trivial
    | jsonRpc code what => exact (Reply.error.inj (Option.some.inj he)).1
    | std what =>
      have hcode := (Reply.error.inj (Option.some.inj he)).1
      exact absurd hcode (by decide)
    | other => exact absurd he (by simp [Exn.reply])

/-- No rejection is that answer. -/
lemma handleRequest_ne_cancelled (state_ : ServerState) (serial token : ℕ) (req : ParsedRequest)
    (id : RequestId) (message : Bytes) :
    handleRequest cfg state_ serial token req ≠
      .sending (.error id .RequestCancelled message) := by
  have hcode : ∀ {code : ErrorCodes} {text : Bytes}, code ≠ .RequestCancelled →
      ReaderPc.sending (.error req.id code text) ≠
        .sending (.error id .RequestCancelled message) := by
    intro code text hne heq
    exact hne (Frame.error.inj (ReaderPc.sending.inj heq)).2.1
  unfold handleRequest
  split
  · exact hcode (by decide)
  split
  · exact hcode (by decide)
  split
  · exact hcode (by decide)
  split
  · exact hcode (by decide)
  · split <;> simp

lemma dispatch_ne_cancelled (state_ : ServerState) (serial token : ℕ) (msg : ParsedMessage)
    (id : RequestId) (message : Bytes) :
    (dispatch cfg state_ serial token msg).2 ≠ .sending (.error id .RequestCancelled message) := by
  have houtcome := dispatch_outcome cfg state_ serial token msg
  generalize hnext : dispatch cfg state_ serial token msg = next at houtcome
  cases houtcome with
  | request =>
    rw [← (Prod.mk.inj hnext).2]
    exact handleRequest_ne_cancelled state_ serial token _ id message
  | notification h => cases h <;> simp
  | response h => cases h <;> simp
  | error => simp

/-- Where a thread is about to send that answer, or has sent it, a cancel names the id or the
handler has asked for it. -/
structure Justified (ls : List Label) (s : Server) : Prop where
  replying : ∀ call message, s.Replying call (.error .RequestCancelled message) →
    Named ls call.id ∨ AskedCancelled ls call.id
  sending : ∀ id message, s.reader ≠ .sending (.error id .RequestCancelled message)
  sent : ∀ id message, .sent (.error id .RequestCancelled message) ∈ ls →
    Named ls id ∨ AskedCancelled ls id

lemma Justified.step (hs : Justified ls s) (huncancelled : Uncancelled ls s)
    (h : Step cfg s l s') : Justified (ls ++ [l]) s' := by
  have happend : ∀ {id : RequestId}, Named ls id ∨ AskedCancelled ls id →
      Named (ls ++ [l]) id ∨ AskedCancelled (ls ++ [l]) id := fun h =>
    h.imp (fun h => h.append [l]) fun h => h.append [l]
  refine ⟨?_, ?_, ?_⟩
  · intro call message hreply
    rcases h.replying hreply with hreply | ⟨pc, caught, hhandles, hstep⟩
    · exact happend (hs.replying call message hreply)
    · rcases hstep.flag_or_asks with hflag | ⟨e, rfl, he⟩
      · -- the flag is up, so the id has been named
        refine Or.inl (Named.append ?_ [l])
        by_contra hnot
        have hdown := huncancelled call hhandles.mem_calls hnot
        exact absurd (hflag.symm.trans hdown) (by simp)
      · exact Or.inr ⟨call, e, rfl, by simp, he⟩
  · intro id message hr
    have hother : ¬ ∀ m body msg, l ≠ .read m body msg := fun hl =>
      hs.sending id message ((h.handling hl).1 _ hr)
    cases l with
    | read m body msg =>
      rcases h.read_inv with ⟨-, -, -, -, rfl⟩
      exact dispatch_ne_cancelled _ _ _ msg id message hr
    | _ => exact hother (by simp)
  · intro id message hsent
    rcases List.mem_append.mp hsent with hsent | hsent
    · exact happend (hs.sent id message hsent)
    · rcases h.sent_inv (List.mem_singleton.mp hsent).symm rfl with hr | ⟨call, reply, hreply, heq⟩
      · exact absurd hr (hs.sending id message)
      · cases reply with
        | error code message' =>
          rcases Frame.error.inj heq with ⟨rfl, rfl, rfl⟩
          exact happend (hs.replying call message hreply)
        | result => exact absurd heq (by simp [Reply.frame])

theorem Runs.justified (h : Runs cfg ls s) (hdistinct : (total Label.asked ls).Nodup) :
    Justified ls s := by
  induction h with
  | nil =>
    refine ⟨?_, fun id message hr => absurd hr (by simp [Server.start]), by simp⟩
    intro call message hreply
    rcases hreply with ⟨caught, hr⟩ | ⟨e, caught, hwork⟩
    · exact absurd hr (by simp [Server.start])
    · cases e <;> exact absurd hwork (ThreadPool.not_working_create _)
  | @snoc ls t u l hrun hstep ih =>
    rw [Transition.total_append] at hdistinct
    have hbefore := (Multiset.nodup_add.mp hdistinct).1
    exact (ih hbefore).step (Runs.uncancelled hrun hbefore) hstep

/-! ## Requests that are cancelled in the queue -/

/-- Lifecycle requests are handled by the read thread, and the others by the pool. -/
lemma Outcome.method {state_ : ServerState} {serial token : ℕ} {msg : ParsedMessage}
    {next : ServerState × ReaderPc} (h : Outcome cfg state_ serial token msg next) :
    (∀ pc, next.2 = .inline call pc → isLifecycleRequest call.method = true) ∧
      ∀ e, next.2.task? = some (e, .request call) →
        e = .worker ∧ isLifecycleRequest call.method = false := by
  cases h with
  | request h =>
    cases h with
    | rejected => exact ⟨by simp, by simp [ReaderPc.task?]⟩
    | lifecycle _ _ hlife =>
      refine ⟨?_, by simp [ReaderPc.task?]⟩
      intro pc hcall
      rw [← (ReaderPc.inline.inj hcall).1]
      exact hlife
    | pooled _ _ hlife =>
      refine ⟨by simp, ?_⟩
      intro e htask
      rcases Prod.mk.inj (Option.some.inj htask) with ⟨rfl, hcall⟩
      rw [← Task.request.inj hcall]
      exact ⟨rfl, hlife⟩
  | notification h => cases h <;> exact ⟨by simp, by simp [ReaderPc.task?]⟩
  | response h => cases h <;> exact ⟨by simp, by simp [ReaderPc.task?]⟩
  | error => exact ⟨by simp, by simp [ReaderPc.task?]⟩

lemma Runs.method_of_inline (h : Runs cfg ls s) {pc : HandlerPc} (hr : s.reader = .inline call pc) :
    isLifecycleRequest call.method = true := by
  induction h generalizing pc with
  | nil => exact absurd hr (by simp [Server.start])
  | @snoc ls t u l hrun hstep ih =>
    cases hstep with
    | reader _ _ h =>
      cases h with
      | read => exact (dispatch_outcome _ _ _ _ _).method.1 pc hr
      | handler _ hr' =>
        have hcall := (ReaderPc.inline.inj hr).1
        subst hcall
        exact ih hr'
      | parseThrows | sendThrows | handlerEscapes | notifyEscapes | exitThrows => exact ih hr
      | _ => exact absurd hr (by simp)
    | worker _ _ _ h => exact ih (h.control.1 ▸ hr)
    | sender _ h =>
      rcases h.frame with ⟨_, _, _, rfl⟩
      exact ih hr

lemma Runs.method_of_task (h : Runs cfg ls s) {e : Executor} (htask : s.HasTask e (.request call)) :
    e = .worker ∧ isLifecycleRequest call.method = false := by
  refine Runs.tasks (P := fun e task => ∀ call, task = .request call →
    e = .worker ∧ isLifecycleRequest call.method = false) h ?_ htask call rfl
  intro t l u e task _ hnew call' hcall
  subst hcall
  cases hnew with
  | read hdispatch => exact (dispatch_outcome _ _ _ _ _).method.2 e hdispatch

/-- A request in the handler run of a worker has been taken by it. -/
lemma Runs.taken_of_handles (h : Runs cfg ls s) {pc : HandlerPc} (hhandles : s.Handles call pc) :
    isLifecycleRequest call.method = true ∨ .taken .worker (.request call) ∈ ls := by
  rcases hhandles with hr | ⟨e, hwork⟩
  · exact Or.inl (Runs.method_of_inline h hr)
  · have htask : s.HasTask e (.request call) := Or.inr (Or.inr ⟨_, hwork, rfl⟩)
    have htaken := Runs.taken_of_working h hwork
    rw [(Runs.method_of_task h htask).1] at htaken
    exact Or.inr htaken

/-- A request with its flag up that no worker has started, and no thread with the same id. -/
structure Doomed (call : RequestCall) (s : Server) : Prop where
  flagged : s.flag call = true
  own : ∀ call' ∈ s.calls, call'.id = call.id → call' = call
  rejected : ∀ frame, s.reader = .sending frame → frame.answers ≠ some call.id
  waiting : ∀ pc, s.Handles call pc → pc = .checking ∨ pc = .responding .cancelled false

lemma Doomed.step (hs : Doomed call s) (hnl : cfg.nl.Documented) (hid : call.id.ValidUtf8)
    (hphased : s.Phased) (h : Step cfg s l s') (hl : call.id ∉ l.asked) : Doomed call s' := by
  refine ⟨h.flag_of_flag hs.flagged, ?_, ?_, ?_⟩
  · intro call' hcall' heq
    rcases h.origin hphased hcall' with hcall' | ⟨body, req, handler, rfl, rfl⟩
    · exact hs.own call' hcall' heq
    · -- a new request has another id
      exact absurd (Multiset.mem_singleton.mpr heq.symm) hl
  · intro frame hr hframe
    have hother : ¬ ∀ m body msg, l ≠ .read m body msg := fun hread =>
      hs.rejected frame ((h.handling hread).1 frame hr) hframe
    cases l with
    | read m body msg =>
      rcases h.read_inv with ⟨-, -, -, -, rfl⟩
      rcases (dispatch_outcome _ _ _ _ _).rejected hr hframe with ⟨req, rfl, heq⟩
      exact hl (Multiset.mem_singleton.mpr heq.symm)
    | _ => exact hother (by simp)
  · intro pc hhandles
    rcases h.handles hhandles with hhandles | hchecking | ⟨pc₀, hhandles, hstep⟩
    · exact hs.waiting pc hhandles
    · exact Or.inl hchecking
    · rw [hs.flagged] at hstep
      rcases hs.waiting pc₀ hhandles with rfl | rfl
      · cases hstep with
        | cancelled => exact Or.inr rfl
        | start hflag => exact absurd hflag (by simp)
      · cases hstep with
        | sendThrows hwhat => exact absurd hwhat (serialize_cancelled hnl hid _)

/-- The handler of such a request is not called. -/
lemma Doomed.not_started (hs : Doomed call s) (h : Step cfg s l s') {call' : RequestCall}
    (hid : call'.id = call.id) : l ≠ .handlerStarted call' := by
  intro hl
  subst hl
  rcases h.handler_inv rfl with ⟨pc, r, hhandles, hstep⟩
  rw [hs.own call' hhandles.mem_calls hid, hs.flagged] at hstep
  cases hstep with
  | start hflag => exact absurd hflag (by simp)

/-- A response with its id is the one to a cancelled request. -/
lemma Doomed.sent (hs : Doomed call s) (h : Step cfg s l s') {frame : Frame} (hl : l = .sent frame)
    (hframe : frame.answers = some call.id) : frame = Reply.cancelled.frame call.id := by
  rcases h.sent_inv hl hframe with hr | ⟨call', reply, hreply, rfl⟩
  · exact absurd hframe (hs.rejected frame hr)
  · rcases Server.replying_iff.mp hreply with ⟨caught, hhandles⟩
    rw [Reply.answers_frame] at hframe
    have hcall := hs.own call' hhandles.mem_calls (Option.some.inj hframe)
    subst hcall
    rcases hs.waiting _ hhandles with hpc | hpc
    · exact absurd hpc (by simp)
    · rw [(HandlerPc.responding.inj hpc).1]

/-- It stays so in the rest of the run. -/
lemma Doomed.run (hs : Doomed call s) (hnl : cfg.nl.Documented) (hid : call.id.ValidUtf8)
    (hphased : s.Phased) (h : Run (Step cfg) s ls s') (hls : ∀ l ∈ ls, call.id ∉ l.asked) :
    Doomed call s' := by
  have hboth : Doomed call s' ∧ s'.Phased := by
    apply h.invariant_of_labels (I := fun s => Doomed call s ∧ s.Phased) ⟨hs, hphased⟩ _ hls
    intro t l u ht hl hstep
    exact ⟨ht.1.step hnl hid ht.2 hstep hl, hstep.phased ht.2⟩
  exact hboth.1

/-- A cancel of a request that no worker has taken dooms it. -/
lemma Runs.doomed (h : Runs cfg ls s) (hdistinct : (total Label.asked ls).Nodup)
    (hsubmitted : .submitted .worker (.request call) ∈ ls)
    (htaken : .taken .worker (.request call) ∉ ls) (hstep : Step cfg s (.cancelled call.id) s') :
    Doomed call s' := by
  have hqueued := Runs.mem_tasks_of_submitted h hsubmitted htaken
  have hpending : s.Pending call := Or.inl ⟨.worker, hqueued⟩
  have hcall : call ∈ s.calls := Server.Pooled.mem_calls (Or.inr hpending)
  have hids := Multiset.nodup_of_le (Runs.ids_le h) hdistinct
  have hflags := (Runs.registered_of_distinct h hdistinct).flags hpending hstep
  have hread : ∀ m body msg, Label.cancelled call.id ≠ .read m body msg := by simp
  rcases hstep.cancelled_inv with ⟨hr, hs'⟩
  refine ⟨hflags.1, ?_, ?_, ?_⟩
  · intro call' hcall' heq
    rcases hstep.origin (Runs.phased h) hcall' with hcall' | ⟨_, _, _, hl, -⟩
    · exact Multiset.inj_on_of_nodup_map hids call' hcall' call hcall heq
    · exact absurd hl (hread _ _ _)
  · intro frame hsending
    have hbefore := (hstep.handling hread).1 frame hsending
    exact absurd (hr.symm.trans hbefore) (by simp)
  · intro pc hhandles
    rcases hstep.handles hhandles with hhandles | hchecking | ⟨_, _, hhandler⟩
    · -- no thread has it yet
      have htask : s.HasTask .worker (.request call) := Or.inr (Or.inl hqueued)
      rcases Runs.taken_of_handles h hhandles with hlife | hmem
      · exact absurd (hlife.symm.trans (Runs.method_of_task h htask).2) (by simp)
      · exact absurd hmem htaken
    · exact Or.inl hchecking
    · cases hhandler

/-! ## Cancels are processed -/

/-- A request gets to a pool when the client has initialized. -/
lemma Outcome.not_pooled {serial token : ℕ} {msg : ParsedMessage} {next : ServerState × ReaderPc}
    (h : Outcome cfg .Uninitialized serial token msg next) (e : Executor) :
    next.2.task? ≠ some (e, .request call) := by
  cases h with
  | request h =>
    cases h with
    | pooled haccepts _ hlife =>
      rw [haccepts.2.mp rfl] at hlife
      exact absurd hlife (by decide)
    | _ => simp [ReaderPc.task?]
  | notification h => cases h <;> simp [ReaderPc.task?]
  | response h => cases h <;> simp [ReaderPc.task?]
  | error => simp [ReaderPc.task?]

/-- No request has come to a pool. -/
structure Unopened (ls : List Label) (s : Server) : Prop where
  tasks : ∀ e call, ¬ s.HasTask e (.request call)
  submitted : ∀ e call, .submitted e (.request call) ∉ ls

lemma Unopened.step (hs : Unopened ls s) (hstate : s.state_ = .Uninitialized)
    (h : Step cfg s l s') : Unopened (ls ++ [l]) s' := by
  refine ⟨?_, ?_⟩
  · intro e call htask
    rcases h.hasTask htask with hold | hnew
    · exact hs.tasks e call hold
    · generalize htask' : Task.request call = task at hnew
      cases hnew with
      | read hdispatch =>
        rw [hstate, ← htask'] at hdispatch
        exact (dispatch_outcome _ _ _ _ _).not_pooled e hdispatch
      | matched => exact absurd htask' (by simp)
  · intro e call hmem
    rcases List.mem_append.mp hmem with hmem | hmem
    · exact hs.submitted e call hmem
    · rw [← List.mem_singleton.mp hmem] at h
      have hr : s.reader = .submitting e (.request call) := by
        rcases h.of_reader rfl with ⟨-, hreader⟩
        cases hreader with
        | submit hr => exact hr
        | handler _ _ hstep | handlerFinishes _ hstep | handlerEscapes _ hstep => cases hstep
      exact hs.tasks e call (Or.inl (by rw [hr]; rfl))

/-- A server that has put a request on a pool has been initialized. -/
lemma Runs.initialized_of_submitted (h : Runs cfg ls s) {e : Executor}
    (hmem : .submitted e (.request call) ∈ ls) : s.state_ ≠ .Uninitialized := by
  have hunopened : s.state_ = .Uninitialized → Unopened ls s := by
    apply h.history (I := fun ls s => s.state_ = .Uninitialized → Unopened ls s)
    · exact fun _ => ⟨fun e call => not_hasTask_start cfg, fun e call => by simp⟩
    · intro ks t l u ht hstep hstate
      have hbefore := hstep.uninitialized hstate
      exact (ht hbefore).step hbefore hstep
  exact fun hstate => (hunopened hstate).submitted e call hmem

/-- The read thread stays at a cancel until it has processed it. -/
lemma Step.of_cancelling {id : RequestId} (h : Step cfg s l s') (hr : s.reader = .cancelling id) :
    l = .cancelled id ∨
      s'.reader = .cancelling id ∧ l.message? = none ∧ ∀ code, l ≠ .returned code := by
  have hother : l.ofReader = false → l.message? = none ∧ ∀ code, l ≠ .returned code := by
    intro hl
    refine ⟨Label.message?_eq_none hl, ?_⟩
    rintro code rfl
    exact absurd hl (by simp [Label.ofReader])
  cases h with
  | reader _ _ h =>
    cases h with
    | cancel hr' =>
      exact Or.inl (congrArg Label.cancelled (ReaderPc.cancelling.inj (hr'.symm.trans hr)))
    | read _ hr' | parseThrows _ hr' | endOfInput hr' | leave hr' | send hr' | sendThrows hr'
    | handler _ hr' | handlerFinishes hr' | handlerEscapes hr' | insertToken hr' | submit hr'
    | notified hr' | notifyEscapes hr' | exited hr' | exitThrows _ hr' | unmatched hr'
    | matched hr' | stop hr' | joinSync hr' | joinWorkers hr' =>
      exact absurd (hr'.symm.trans hr) (by simp)
  | worker _ _ _ h => exact Or.inr ⟨h.control.1.trans hr, hother h.label.1⟩
  | sender _ h =>
    have hl := hother h.label
    rcases h.frame with ⟨_, _, _, rfl⟩
    exact Or.inr ⟨hr, hl⟩

/-- Nothing is read and `run` does not return before that. -/
lemma Run.of_cancelling {id : RequestId} (h : Run (Step cfg) s ls s')
    (hr : s.reader = .cancelling id) :
    (s'.reader = .cancelling id ∧ messagesOf ls = [] ∧ ∀ code, .returned code ∉ ls) ∨
      ∃ ls₁ ls₂, ls = ls₁ ++ .cancelled id :: ls₂ ∧ messagesOf ls₁ = [] := by
  apply h.history (I := fun ls s' =>
    (s'.reader = .cancelling id ∧ messagesOf ls = [] ∧ ∀ code, .returned code ∉ ls) ∨
      ∃ ls₁ ls₂, ls = ls₁ ++ Label.cancelled id :: ls₂ ∧ messagesOf ls₁ = [])
  · exact Or.inl ⟨hr, rfl, by simp⟩
  · intro ks t l u ht hstep
    rcases ht with ⟨hr, hnone, hreturned⟩ | ⟨ls₁, ls₂, rfl, hnone⟩
    · rcases hstep.of_cancelling hr with rfl | ⟨hr', hl, hne⟩
      · exact Or.inr ⟨ks, [], rfl, hnone⟩
      · refine Or.inl ⟨hr', (messagesOf_concat_none hl ks).trans hnone, ?_⟩
        intro code hmem
        rcases List.mem_append.mp hmem with hmem | hmem
        · exact hreturned code hmem
        · exact hne code (List.mem_singleton.mp hmem).symm
    · exact Or.inr ⟨ls₁, ls₂ ++ [l], by simp, hnone⟩

/-! ## The result -/

/-- What is expected of a cancel that finds its request in the queue. -/
structure Hit (ls : List Label) (serial : ℕ) (id : RequestId) : Prop where
  notStarted : ∀ call, call.serial = serial → .handlerStarted call ∉ ls
  /-- Its only response is the error for cancelled requests. -/
  sent : ∀ frame, .sent frame ∈ ls → frame.answers = some id →
    frame = .error id .RequestCancelled (str "Request cancelled")
  once : responses id ls ≤ 1
  answered : (∃ code, .returned code ∈ ls) → responses id ls = 1

/-- What is expected of a request that no cancel names. -/
structure Spared (ls : List Label) (serial : ℕ) (id : RequestId) : Prop where
  unobserved : ∀ call, call.serial = serial → .polled call true ∉ ls
  /-- It is only answered `RequestCancelled` when its handler throws that. -/
  asked : ∀ message, .sent (.error id .RequestCancelled message) ∈ ls →
    ∃ call e, call.serial = serial ∧ .handlerEnded call (.error e) ∈ ls ∧ e.AsksCancelled

/-- Cancels hit their targets and nothing else. -/
structure CancelsHit (cfg : Config) (ls : List Label) : Prop where
  /-- The cancel is processed before the next message is read. -/
  processed : ∀ ls₁ m body notif id ls₂ call,
    ls = ls₁ ++ .read m body (.notification notif) :: ls₂ → notif.Cancels id →
    str "$/cancelRequest" ∉ cfg.userNotifications → .submitted .worker (.request call) ∈ ls₁ →
    (messagesOf ls₂ ≠ [] ∨ ∃ code, .returned code ∈ ls₂) →
    ∃ ls₃ id' ls₄, ls₂ = ls₃ ++ .cancelled id' :: ls₄ ∧ messagesOf ls₃ = []
  hit : ∀ ls₁ id ls₂ call body req, ls = ls₁ ++ .cancelled id :: ls₂ →
    .read call.serial body (.request req) ∈ ls₁ → LastCancels ls₁ req.id →
    .submitted .worker (.request call) ∈ ls₁ → .taken .worker (.request call) ∉ ls₁ →
    Hit ls call.serial req.id
  spared : ∀ m body req, .read m body (.request req) ∈ ls → ¬ Named ls req.id →
    Spared ls m req.id

/-- A request whose id is not asked any more is not new. -/
lemma Runs.mem_calls_of_later (hphased : s.Phased) (hrest : Run (Step cfg) s ls s')
    (hls : ∀ l ∈ ls, call.id ∉ l.asked) (hcall : call ∈ s'.calls) : call ∈ s.calls := by
  have hboth : (call ∈ s'.calls → call ∈ s.calls) ∧ s'.Phased := by
    apply hrest.invariant_of_labels (I := fun u => (call ∈ u.calls → call ∈ s.calls) ∧ u.Phased)
      ⟨id, hphased⟩ _ hls
    intro t l u ht hl hstep
    refine ⟨?_, hstep.phased ht.2⟩
    intro hcall
    rcases hstep.origin ht.2 hcall with hcall | ⟨_, _, _, rfl, rfl⟩
    · exact ht.1 hcall
    · exact absurd (Multiset.mem_singleton_self _) hl
  exact hboth.1 hcall

/-- With distinct ids there is one request in hand for an id at all times. -/
lemma Runs.call_unique {ls₁ ls₂ : List Label} (h : Runs cfg ls₁ s)
    (hrest : Run (Step cfg) s ls₂ s') (hdistinct : (total Label.asked (ls₁ ++ ls₂)).Nodup)
    {call' : RequestCall} (hcall' : call' ∈ s.calls) (hcall : call ∈ s'.calls)
    (hid : call'.id = call.id) : call' = call := by
  rw [Transition.total_append] at hdistinct
  rcases Multiset.nodup_add.mp hdistinct with ⟨hbefore, -, hdisjoint⟩
  have hasked : call.id ∈ total Label.asked ls₁ := by
    rw [← hid]
    exact Multiset.mem_of_le (Runs.ids_le h) (Multiset.mem_map_of_mem _ hcall')
  have hlater : ∀ l ∈ ls₂, call.id ∉ l.asked := fun l hl hagain =>
    Multiset.disjoint_left.mp hdisjoint hasked (Transition.mem_total.mpr ⟨l, hl, hagain⟩)
  have hold := Runs.mem_calls_of_later (Runs.phased h) hrest hlater hcall
  have hids := Multiset.nodup_of_le (Runs.ids_le h) hbefore
  exact Multiset.inj_on_of_nodup_map hids call' hcall' call hold hid

/-- A request in hand has the id of the request that was read under its number. -/
lemma Runs.id_of_call (h : Runs cfg ls s) (hcall : call ∈ s.calls) {body : Bytes}
    {req : ParsedRequest} (hread : .read call.serial body (.request req) ∈ ls) :
    call.id = req.id := by
  rcases Runs.request_of_call h hcall with ⟨m, body', req', handler, token, hread', heq⟩
  subst heq
  rw [ParsedMessage.request.inj (Runs.read_inj h hread hread')]
  rfl

/-- A handler is called for a request that has been read. -/
lemma Runs.read_of_handled (h : Runs cfg ls s) (hmem : l ∈ ls)
    (hl : l.task? = some (.request call)) :
    ∃ body req, .read call.serial body (.request req) ∈ ls ∧ req.id = call.id := by
  rcases List.append_of_mem hmem with ⟨ls₁, ls₂, rfl⟩
  rcases h.split_at with ⟨t, t', ht, hstep, -⟩
  rcases hstep.handler_inv hl with ⟨pc, r, hhandles, -⟩
  rcases Runs.request_of_call ht hhandles.mem_calls with ⟨m, body, req, _, _, hread, rfl⟩
  exact ⟨body, req, List.mem_append_left _ hread, rfl⟩

lemma Runs.id_of_handled (h : Runs cfg ls s) (hmem : l ∈ ls) (hl : l.task? = some (.request call))
    {body : Bytes} {req : ParsedRequest} (hread : .read call.serial body (.request req) ∈ ls) :
    call.id = req.id := by
  rcases Runs.read_of_handled h hmem hl with ⟨body', req', hread', hid⟩
  rw [← hid, ParsedMessage.request.inj (Runs.read_inj h hread' hread)]

/-- Up to a cancel that finds its request in the queue the handler has not been called and nothing
has been sent. -/
lemma Runs.quiet_of_queued (h : Runs cfg ls s) (hdistinct : (total Label.asked ls).Nodup)
    (hsubmitted : .submitted .worker (.request call) ∈ ls)
    (htaken : .taken .worker (.request call) ∉ ls) :
    call.id ∈ total Label.asked ls ∧ (∀ call', call'.id = call.id → .handlerStarted call' ∉ ls) ∧
      ∀ frame, .sent frame ∈ ls → frame.answers ≠ some call.id := by
  have hqueued := Runs.mem_tasks_of_submitted h hsubmitted htaken
  have hpooled : s.Pooled call := Or.inr (Or.inl ⟨.worker, hqueued⟩)
  have hbalance := Runs.balance h
  have hdistinct' := hdistinct
  rw [← hbalance] at hdistinct' ⊢
  refine ⟨Multiset.mem_add.mpr (Or.inr hpooled.mem_owed), ?_, ?_⟩
  · intro call' hid hmem
    rcases List.append_of_mem hmem with ⟨ls₁, ls₂, rfl⟩
    rcases h.split_at with ⟨t, t', ht, hstep, hrest⟩
    rcases hstep.handler_inv rfl with ⟨pc, r, hhandles, -⟩
    -- it is the request that is queued at the end
    have heq := Runs.call_unique ht (hrest.cons hstep) hdistinct hhandles.mem_calls
      hpooled.mem_calls hid
    subst heq
    have htask : s.HasTask .worker (.request call') := Or.inr (Or.inl hqueued)
    rcases Runs.taken_of_handles ht hhandles with hlife | hbefore
    · exact absurd (hlife.symm.trans (Runs.method_of_task h htask).2) (by simp)
    · exact htaken (List.mem_append_left _ hbefore)
  · intro frame hmem hframe
    -- the response is still owed, so none has been sent
    have hanswered : call.id ∈ total Label.answered ls := by
      apply Transition.mem_total.mpr
      refine ⟨_, hmem, ?_⟩
      show call.id ∈ frame.answered
      unfold Frame.answered
      rw [hframe]
      exact Multiset.mem_singleton_self _
    exact Multiset.disjoint_left.mp (Multiset.nodup_add.mp hdistinct').2.2 hanswered
      hpooled.mem_owed

/-- What a cancelled request shows after it has been cancelled. -/
lemma Doomed.later (hs : Doomed call s) (hnl : cfg.nl.Documented) (hid : call.id.ValidUtf8)
    (hphased : s.Phased) (h : Run (Step cfg) s ls s') (hls : ∀ l ∈ ls, call.id ∉ l.asked) :
    (∀ call', call'.id = call.id → .handlerStarted call' ∉ ls) ∧
      ∀ frame, .sent frame ∈ ls → frame.answers = some call.id →
        frame = Reply.cancelled.frame call.id := by
  -- the request is doomed up to every step
  have hsteps : ∀ l ∈ ls, ∃ t t', Doomed call t ∧ Step cfg t l t' := by
    intro l hl
    rcases List.append_of_mem hl with ⟨ls₁, ls₂, rfl⟩
    rcases h.split_at with ⟨t, t', ht, hstep, -⟩
    have hbefore := hs.run hnl hid hphased ht fun l' hl' => hls l' (List.mem_append_left _ hl')
    exact ⟨t, t', hbefore, hstep⟩
  refine ⟨?_, ?_⟩
  · intro call' hid' hmem
    rcases hsteps _ hmem with ⟨t, t', ht, hstep⟩
    exact ht.not_started hstep hid' rfl
  · intro frame hmem hframe
    rcases hsteps _ hmem with ⟨t, t', ht, hstep⟩
    exact ht.sent hstep rfl hframe

lemma total_asked_of_cancelled (ls₁ ls₂ : List Label) (id : RequestId) :
    total Label.asked (ls₁ ++ .cancelled id :: ls₂) =
      total Label.asked ls₁ + total Label.asked ls₂ := by
  rw [List.append_cons, Transition.total_append, Transition.total_append,
    Transition.total_singleton]
  exact congrArg (· + _) (add_zero _)

lemma Runs.hit {ls₁ ls₂ : List Label} (h : Runs cfg (ls₁ ++ .cancelled call.id :: ls₂) s)
    (hnl : cfg.nl.Documented)
    (hdistinct : (total Label.asked (ls₁ ++ .cancelled call.id :: ls₂)).Nodup) {body : Bytes}
    {req : ParsedRequest} (hread : .read call.serial body (.request req) ∈ ls₁)
    (hsubmitted : .submitted .worker (.request call) ∈ ls₁)
    (htaken : .taken .worker (.request call) ∉ ls₁) :
    Hit (ls₁ ++ .cancelled call.id :: ls₂) call.serial call.id := by
  have hbalance := Runs.balance h
  have hmem : ∀ l, l ∈ ls₁ ++ .cancelled call.id :: ls₂ →
      l ∈ ls₁ ∨ l = .cancelled call.id ∨ l ∈ ls₂ := by
    intro l hl
    rwa [List.mem_append, List.mem_cons] at hl
  rcases h.split_at with ⟨t, t', ht, hstep, hrest⟩
  have hparts := hdistinct
  rw [total_asked_of_cancelled] at hparts
  rcases Multiset.nodup_add.mp hparts with ⟨hbefore, -, hdisjoint⟩
  rcases Runs.quiet_of_queued ht hbefore hsubmitted htaken with ⟨hid, hnotStarted, hnotSent⟩
  have hcall : call ∈ t.calls := by
    have hqueued := Runs.mem_tasks_of_submitted ht hsubmitted htaken
    exact Server.Pooled.mem_calls (Or.inr (Or.inl ⟨.worker, hqueued⟩))
  have hlater : ∀ l ∈ ls₂, call.id ∉ l.asked := fun l hl hasked =>
    Multiset.disjoint_left.mp hdisjoint hid (Transition.mem_total.mpr ⟨l, hl, hasked⟩)
  have hdoomed := Runs.doomed ht hbefore hsubmitted htaken hstep
  rcases hdoomed.later hnl (Runs.validUtf8_id ht hnl hcall) (hstep.phased (Runs.phased ht)) hrest
    hlater with ⟨hnotStarted', hsent⟩
  refine ⟨?_, ?_, ?_, ?_⟩
  · intro call' hserial hstarted
    have hid' : call'.id = call.id := by
      rw [Runs.id_of_call ht hcall hread]
      apply Runs.id_of_handled h hstarted rfl
      rw [hserial]
      exact List.mem_append_left _ hread
    rcases hmem _ hstarted with hstarted | hstarted | hstarted
    · exact hnotStarted call' hid' hstarted
    · exact absurd hstarted (by simp)
    · exact hnotStarted' call' hid' hstarted
  · intro frame hframe hanswers
    rcases hmem _ hframe with hframe | hframe | hframe
    · exact absurd hanswers (hnotSent frame hframe)
    · exact absurd hframe (by simp)
    · exact hsent frame hframe hanswers
  · unfold responses
    refine le_trans ?_ (Multiset.nodup_iff_count_le_one.mp hdistinct call.id)
    rw [← hbalance, Multiset.count_add]
    exact Nat.le_add_right _ _
  · intro hreturned
    rcases hreturned with ⟨code, hreturned⟩
    have howed : s.owed = 0 := Runs.held_of_returned h (Runs.reader_of_returned h hreturned)
    rw [howed, add_zero] at hbalance
    unfold responses
    rw [hbalance]
    apply Multiset.count_eq_one_of_mem hdistinct
    rw [total_asked_of_cancelled]
    exact Multiset.mem_add.mpr (Or.inl hid)

lemma Runs.spared (h : Runs cfg ls s) (hdistinct : (total Label.asked ls).Nodup) {m : ℕ}
    {body : Bytes} {req : ParsedRequest} (hread : .read m body (.request req) ∈ ls)
    (hnot : ¬ Named ls req.id) : Spared ls m req.id := by
  refine ⟨?_, ?_⟩
  · intro call hserial hmem
    have hid : call.id = req.id := Runs.id_of_handled h hmem rfl (hserial ▸ hread)
    rcases List.append_of_mem hmem with ⟨ls₁, ls₂, rfl⟩
    rcases h.split_at with ⟨t, t', ht, hstep, -⟩
    rw [Transition.total_append] at hdistinct
    have huncancelled := Runs.uncancelled ht (Multiset.nodup_add.mp hdistinct).1
    rcases hstep.handler_inv rfl with ⟨pc, r, hhandles, hhandler⟩
    have hdown : t.flag call = false := by
      apply huncancelled call hhandles.mem_calls
      intro hnamed
      exact hnot (hid ▸ hnamed.append _)
    rw [hdown] at hhandler
    cases hhandler
  · intro message hmem
    rcases (Runs.justified h hdistinct).sent req.id message hmem with hnamed | hasked
    · exact absurd hnamed hnot
    · rcases hasked with ⟨call, e, hid, hended, he⟩
      rcases Runs.read_of_handled h hended rfl with ⟨body', req', hread', hid'⟩
      -- the id was asked once
      have hsame := Transition.eq_of_total_nodup hdistinct hread' hread
        (Multiset.mem_singleton.mpr (hid.symm.trans hid'.symm)) (Multiset.mem_singleton_self _)
      exact ⟨call, e, (Label.read.inj hsame).1, hended, he⟩

/-- A cancel that is read is processed before the next message is, and before `run` returns. -/
lemma Runs.processed {ls₁ ls₂ : List Label} {m : ℕ} {body : Bytes} {notif : ParsedNotification}
    {id : RequestId} (h : Runs cfg (ls₁ ++ .read m body (.notification notif) :: ls₂) s)
    (hcancels : notif.Cancels id) (hkept : str "$/cancelRequest" ∉ cfg.userNotifications)
    (hsubmitted : .submitted .worker (.request call) ∈ ls₁)
    (hlater : messagesOf ls₂ ≠ [] ∨ ∃ code, .returned code ∈ ls₂) :
    ∃ ls₃ id' ls₄, ls₂ = ls₃ ++ .cancelled id' :: ls₄ ∧ messagesOf ls₃ = [] := by
  rcases h.split_at with ⟨t, t', ht, hstep, hrest⟩
  have hr : t'.reader = .cancelling id := by
    rw [hstep.read_inv.2.2.2.2]
    exact dispatch_cancels _ _ hcancels (Runs.initialized_of_submitted ht hsubmitted) hkept
  rcases Run.of_cancelling hrest hr with ⟨-, hnone, hreturned⟩ | ⟨ls₃, ls₄, heq, hnone⟩
  · rcases hlater with hsome | ⟨code, hmem⟩
    · exact absurd hnone hsome
    · exact absurd hmem (hreturned code)
  · exact ⟨ls₃, id, ls₄, heq, hnone⟩

/-- **Cancellation.** In a run whose requests have distinct ids, a request that is cancelled before
a worker takes it is answered `RequestCancelled` without its handler, and one that no cancel names
sees no cancellation. -/
theorem cancels_hit (cfg : Config) (hnl : cfg.nl.Documented) (ls : List Label) (s : Server)
    (h : Runs cfg ls s) (hdistinct : (total Label.asked ls).Nodup) : CancelsHit cfg ls := by
  refine ⟨?_, ?_, fun m body req hread hnot => Runs.spared h hdistinct hread hnot⟩
  · intro ls₁ m body notif id ls₂ call hls hcancels hkept hsubmitted hlater
    subst hls
    exact Runs.processed h hcancels hkept hsubmitted hlater
  · intro ls₁ id ls₂ call body req hls hread hlast hsubmitted htaken
    subst hls
    rcases h.split_at with ⟨t, t', ht, hstep, -⟩
    have hcall : call ∈ t.calls := by
      have hqueued := Runs.mem_tasks_of_submitted ht hsubmitted htaken
      exact Server.Pooled.mem_calls (Or.inr (Or.inl ⟨.worker, hqueued⟩))
    have hreq := Runs.id_of_call ht hcall hread
    -- the cancel that is processed is the one that was read last, and names the request
    have hid : id = call.id := by
      rw [hreq]
      exact (Runs.lastCancels ht hstep.cancelled_inv.1).unique hlast
    subst hid
    rw [← hreq]
    exact Runs.hit h hnl hdistinct hread hsubmitted htaken

end Steps

/-- A session in which a request is cancelled in the queue before `run` returns. -/
theorem cancels_hit_session :
    Reaches (Step Session.config) (Server.start Session.config) fun ls _ =>
      (∃ (call : RequestCall) (body : Bytes) (req : ParsedRequest),
        .read call.serial body (.request req) ∈ ls ∧ .cancelled req.id ∈ ls ∧
        responses req.id ls = 1 ∧ Hit ls call.serial req.id) ∧ CancelsHit Session.config ls := by
  have hrun : Reaches (Step Session.config) (Server.start Session.config) fun ls _ =>
      total Label.asked ls = {.int 0, .int 1} ∧
        ∃ ls₁ ls₂ id, ∃ call : RequestCall, ∃ body req notif code,
          ls = ls₁ ++ .cancelled id :: ls₂ ∧
          ls₁[4]? = some (.read call.serial body (.request req)) ∧
          ls₁[6]? = some (.submitted .worker (.request call)) ∧
          (messagesOf ls₁).getLast? = some (.notification notif) ∧ notif.Cancels req.id ∧
          req.id = id ∧ .taken .worker (.request call) ∉ ls₁ ∧
          ls₂.getLast? = some (.returned code) := by
    apply Reaches.run Session.runs_handshake
    apply Reaches.step (.reader rfl rfl (.read Session.hover.json.print rfl (by decide) rfl))
    apply Reaches.step (.reader rfl rfl (.insertToken rfl))
    apply Reaches.step (.reader rfl rfl (.submit rfl))
    apply Reaches.step (.reader rfl rfl (.read Session.cancel.json.print rfl (by decide) rfl))
    apply Reaches.step (.reader rfl rfl (.cancel rfl))
    apply Reaches.step (.reader rfl rfl (.endOfInput rfl (by decide)))
    apply Reaches.step (.worker .worker 1 rfl (.take rfl rfl))
    apply Reaches.step (.worker .worker 1 rfl (.handler rfl (.cancelled rfl)))
    apply Reaches.step (.worker .worker 1 rfl (.handlerFinishes rfl (.send rfl)))
    apply Reaches.step (.worker .worker 1 rfl (.eraseToken rfl))
    apply Reaches.step (.reader rfl rfl (.stop rfl))
    apply Reaches.step (.worker .sync 0 rfl (.exit ⟨rfl, rfl⟩ rfl))
    apply Reaches.step (.reader rfl rfl (.joinSync rfl rfl))
    apply Reaches.step (.reader rfl rfl (.stop rfl))
    apply Reaches.step (.worker .worker 0 rfl (.exit ⟨rfl, rfl⟩ rfl))
    apply Reaches.step (.worker .worker 1 rfl (.exit ⟨rfl, rfl⟩ rfl))
    apply Reaches.step (.reader rfl rfl (.joinWorkers rfl rfl))
    exact Reaches.here ⟨rfl, [_, _, _, _, _, _, _, _], _, _, _, _, _, _, _, rfl, rfl, rfl, rfl,
      ⟨rfl, _, _, rfl, rfl, rfl⟩, rfl, by simp, rfl⟩
  rcases hrun with ⟨_, s, hrun, hasked, ls₁, ls₂, _, call, body, req, notif, code, rfl, hat, hat',
    hlast, hcancels, rfl, htaken, hend⟩
  have hread : .read call.serial body (.request req) ∈ ls₁ := List.mem_of_getElem? hat
  have hsubmitted : .submitted .worker (.request call) ∈ ls₁ := List.mem_of_getElem? hat'
  have hhit := cancels_hit Session.config Session.documented _ s hrun (by rw [hasked]; decide)
  have hcall := hhit.hit ls₁ req.id ls₂ call body req rfl hread ⟨notif, hlast, hcancels⟩ hsubmitted
    htaken
  have hreturned : .returned code ∈ ls₁ ++ .cancelled req.id :: ls₂ :=
    List.mem_append_right _ (List.mem_cons_of_mem _ (List.mem_of_getLast? hend))
  exact ⟨_, s, hrun, ⟨call, body, req, List.mem_append_left _ hread, by simp,
    hcall.answered ⟨code, hreturned⟩, hcall⟩, hhit⟩

end CLSP
