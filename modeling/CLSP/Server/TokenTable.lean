import CLSP.Server.Cancellation

/-!
# The table of cancellation tokens

`cancellationTokens_` has one entry for all the requests that share an id, and the first of them
that is done erases it. What is conserved is the requests themselves (`Runs.tabled`): those that
have been given a token are those that have erased and those that have still to erase, and each key
is the id of one of the latter (`table_kept`).
-/

namespace CLSP

open Transition (total Reaches)

/-! ## The requests that have still to erase -/

def ReaderPc.tabled : ReaderPc → Multiset RequestCall
  | .submitting _ task => task.calls
  | _ => 0

/-- The requests that have been given a token and have not performed their erase. -/
def Server.tabled (s : Server) : Multiset RequestCall :=
  s.held ReaderPc.tabled Task.calls Running.calls

/-- The request whose token a step inserts. -/
def Label.inserted : Label → Multiset RequestCall
  | .tokenInserted call => {call}
  | _ => 0

/-- The request that performs its erase in a step. -/
def Label.erased : Label → Multiset RequestCall
  | .tokenErased call => {call}
  | _ => 0

section Steps

variable {cfg : Config} {ls : List Label} {s s' : Server} {l : Label}

lemma HandlerStep.untabled {nl : Nlohmann} {call : RequestCall} {flag : Bool} {pc : HandlerPc}
    {r : Progress HandlerPc} (h : HandlerStep nl call flag pc l r) :
    l.inserted = 0 ∧ l.erased = 0 := by
  cases h <;> exact ⟨rfl, rfl⟩

lemma NotificationStep.untabled {call : NotificationCall} {documents documents' : DocumentStore}
    {pc : NotificationPc} {r : Progress NotificationPc}
    (h : NotificationStep call documents pc l documents' r) : l.inserted = 0 ∧ l.erased = 0 := by
  cases h <;> exact ⟨rfl, rfl⟩

lemma CallbackStep.untabled {payload : Json} {isError : Bool} {cb : ResponseCallback}
    {r : Progress Unit} (h : CallbackStep payload isError cb l r) :
    l.inserted = 0 ∧ l.erased = 0 := by
  cases h <;> exact ⟨rfl, rfl⟩

/-- A worker keeps a request until it has erased. -/
lemma Move.tabled {before after : Option Running} (h : Move cfg s l before after) :
    l.erased + heldBy Running.calls after = l.inserted + heldBy Running.calls before := by
  cases h with
  | handler hstep | answered hstep =>
    rw [hstep.untabled.1, hstep.untabled.2]
    rfl
  | notification hstep | notificationFinishes hstep =>
    rw [hstep.untabled.1, hstep.untabled.2]
    rfl
  | callbackFinishes hstep =>
    rw [hstep.untabled.1, hstep.untabled.2]
    rfl
  | handlerEscapes hstep | notificationEscapes hstep | callbackEscapes hstep =>
    rw [hstep.untabled.1, hstep.untabled.2]
  | erase => exact add_comm _ _
  | take | exit | invoke => rfl

/-- `dispatch` inserts no token. -/
lemma Outcome.tabled {state_ : ServerState} {serial token : ℕ} {msg : ParsedMessage}
    {next : ServerState × ReaderPc} (h : Outcome cfg state_ serial token msg next) :
    next.2.tabled = 0 := by
  cases h with
  | request h => cases h <;> rfl
  | notification h => cases h <;> rfl
  | response h => cases h <;> rfl
  | error => rfl

/-- The read thread has such a request between the insertion and `submit`. -/
lemma ReaderStep.tabled (h : ReaderStep cfg s l s') :
    l.erased + (s'.reader.tabled + l.passed Task.calls) = l.inserted + s.reader.tabled := by
  cases h with
  | @read body msg hr =>
    have hnext := (dispatch_outcome cfg s.state_ s.messagesRead s.flags.length msg).tabled
    rw [hr]
    exact congrArg (0 + ·) (congrArg (· + 0) hnext)
  | handler capabilities hr hstep =>
    rw [hr, hstep.untabled.1, hstep.untabled.2, hstep.passed]
    rfl
  | handlerFinishes hr hstep =>
    rw [hr, hstep.untabled.1, hstep.untabled.2, hstep.passed]
    rfl
  | handlerEscapes hr hstep =>
    rw [hstep.untabled.1, hstep.untabled.2, hstep.passed, add_zero]
  | insertToken hr =>
    rw [hr]
    exact add_comm 0 _
  | submit hr =>
    rw [hr]
    exact congrArg _ (zero_add _)
  | parseThrows | sendThrows | notifyEscapes | exitThrows => exact congrArg _ (add_zero _)
  | endOfInput hr | leave hr | send hr | cancel hr | notified hr | exited hr | unmatched hr
  | matched hr | stop hr | joinSync hr | joinWorkers hr =>
    rw [hr]
    rfl

lemma Step.tabled (h : Step cfg s l s') (hs : s.Phased) :
    l.erased + s'.tabled = l.inserted + s.tabled := by
  apply h.balances hs
  · intro task
    cases task <;> rfl
  · intro h
    exact h.tabled
  · intro before after h
    exact h.tabled
  · intro h
    cases h <;> rfl

/-- Every token that has been inserted has been erased by its request, or will be. -/
theorem Runs.tabled (h : Runs cfg ls s) :
    total Label.erased ls + s.tabled = total Label.inserted ls :=
  h.conserved (Server.held_start rfl cfg) fun _ _ _ _ hrun hstep =>
    hstep.tabled (Runs.phased hrun)

lemma Server.of_mem_tabled {call : RequestCall} (h : call ∈ s.tabled) :
    s.Pooled call ∨ s.Erasing call := by
  have htask : ∀ {task : Task}, call ∈ task.calls → task = .request call := by
    intro task hmem
    cases task with
    | request call' => rw [Multiset.mem_singleton.mp hmem]
    | _ => exact absurd hmem (Multiset.notMem_zero call)
  rcases Server.mem_held h with hr | ⟨e, ⟨task, hqueued, hmem⟩ | ⟨running, hwork, hmem⟩⟩
  · generalize hreader : s.reader = pc at hr
    cases pc with
    | submitting e task => exact Or.inl (Or.inl ⟨e, by rw [hreader, htask hr]⟩)
    | _ => exact absurd hr (Multiset.notMem_zero call)
  · exact Or.inl (Or.inr (Or.inl ⟨e, htask hmem ▸ hqueued⟩))
  · cases running with
    | request call' pc =>
      rw [Multiset.mem_singleton.mp hmem]
      exact Or.inl (Or.inr (Or.inr ⟨e, pc, hwork⟩))
    | erasing call' =>
      rw [Multiset.mem_singleton.mp hmem]
      exact Or.inr ⟨e, hwork⟩
    | _ => exact absurd hmem (Multiset.notMem_zero call)

/-! ## The table -/

lemma Step.tokenErased_inv {call : RequestCall} (h : Step cfg s (.tokenErased call) s') :
    s'.cancellationTokens_ = s.cancellationTokens_.erase call.id := by
  cases h with
  | reader _ _ h =>
    cases h with
    | handler _ _ hstep | handlerFinishes _ hstep | handlerEscapes _ hstep => cases hstep
  | worker _ _ _ h =>
    cases h with
    | eraseToken => rfl
    | handler _ hstep | handlerFinishes _ hstep | handlerEscapes _ hstep => cases hstep
    | notification _ hstep | notificationFinishes _ hstep | notificationEscapes _ hstep =>
      cases hstep
    | callbackFinishes _ hstep | callbackEscapes _ hstep => cases hstep
  | sender _ h => cases h

/-- Each key is the id of a request that has still to erase it. -/
def Server.Tabled (s : Server) : Prop :=
  ∀ id ∈ s.cancellationTokens_, ∃ call ∈ s.tabled, call.id = id

lemma Server.Tabled.step (hs : s.Tabled) (hphased : s.Phased) (h : Step cfg s l s') :
    s'.Tabled := by
  have hbalance := h.tabled hphased
  intro id hid
  by_cases herased : ∃ call, l = .tokenErased call
  · rcases herased with ⟨call, rfl⟩
    rw [h.tokenErased_inv] at hid
    rcases AList.mem_erase.mp hid with ⟨hne, hid⟩
    rcases hs id hid with ⟨call', hmem, rfl⟩
    -- a request with another id than the one that erases
    have hmem' : call' ∈ Label.erased (.tokenErased call) + s'.tabled := by
      rw [hbalance]
      exact Multiset.mem_add.mpr (Or.inr hmem)
    rcases Multiset.mem_add.mp hmem' with heq | hmem'
    · exact absurd (congrArg RequestCall.id (Multiset.mem_singleton.mp heq)) hne
    · exact ⟨call', hmem', rfl⟩
  · have hnone : l.erased = 0 := by
      cases l with
      | tokenErased call => exact absurd ⟨call, rfl⟩ herased
      | _ => rfl
    rw [hnone, zero_add] at hbalance
    have hold : id ∈ s.cancellationTokens_ → ∃ call ∈ s'.tabled, call.id = id := by
      intro hid
      rcases hs id hid with ⟨call, hmem, heq⟩
      rw [hbalance]
      exact ⟨call, Multiset.mem_add.mpr (Or.inr hmem), heq⟩
    rcases h.cancellationTokens_ with heq | ⟨call, rfl, -, heq⟩ | ⟨call, -, heq⟩
    · exact hold (heq ▸ hid)
    · rw [heq] at hid
      rcases AList.mem_insert _ |>.mp hid with rfl | hid
      · rw [hbalance]
        exact ⟨call, Multiset.mem_add.mpr (Or.inl (Multiset.mem_singleton_self call)), rfl⟩
      · exact hold hid
    · rw [heq] at hid
      exact hold (AList.mem_erase.mp hid).2

lemma Runs.keys (h : Runs cfg ls s) : s.Tabled := by
  have hboth : s.Tabled ∧ s.Phased := by
    apply h.invariant (I := fun s => s.Tabled ∧ s.Phased)
    · exact ⟨fun id hid => absurd hid (AList.notMem_empty id), phased_start cfg⟩
    · intro t l u ht hstep
      exact ⟨ht.1.step ht.2 hstep, hstep.phased ht.2⟩
  exact hboth.1

/-! ## The result -/

/-- A request to the pool has been given its token, and its task has not performed its erase. -/
def Server.Unerased (s : Server) (call : RequestCall) : Prop :=
  s.Pooled call ∨ s.Erasing call

/-- The table has no entry without a request that will erase it. -/
structure TableKept (s : Server) : Prop where
  keys : ∀ id ∈ s.cancellationTokens_, ∃ call, call.id = id ∧ s.Unerased call
  idle : (∀ call, ¬ s.Unerased call) → s.cancellationTokens_ = ∅
  returned : s.reader = .returned → s.cancellationTokens_ = ∅

/-- A table that has no key is empty. -/
lemma tokens_eq_empty (h : ∀ id, id ∉ s.cancellationTokens_) : s.cancellationTokens_ = ∅ := by
  apply AList.ext
  apply List.map_eq_nil_iff.mp
  exact List.eq_nil_iff_forall_not_mem.mpr fun id hid => h id (AList.mem_keys.mpr hid)

/-- The table of cancellation tokens does not leak. -/
theorem table_kept (cfg : Config) (ls : List Label) (s : Server) (h : Runs cfg ls s) :
    TableKept s := by
  refine ⟨?_, ?_, ?_⟩
  · intro id hid
    rcases Runs.keys h id hid with ⟨call, hmem, heq⟩
    exact ⟨call, heq, Server.of_mem_tabled hmem⟩
  · intro hidle
    apply tokens_eq_empty
    intro id hid
    rcases Runs.keys h id hid with ⟨call, hmem, -⟩
    exact hidle call (Server.of_mem_tabled hmem)
  · intro hreturned
    apply tokens_eq_empty
    intro id hid
    rcases Runs.keys h id hid with ⟨call, hmem, -⟩
    have hnone : s.tabled = 0 := Runs.held_of_returned h hreturned
    rw [hnone] at hmem
    exact Multiset.notMem_zero call hmem

end Steps

/-- A session in which `hover` is requested twice with one id, and the first request has erased the
entry before the second has been taken. -/
theorem table_kept_session :
    Reaches (Step Session.config) (Server.start Session.config) fun _ s =>
      (∃ call, s.Unerased call) ∧ s.cancellationTokens_ = ∅ ∧ TableKept s := by
  have hrun : Reaches (Step Session.config) (Server.start Session.config) fun _ s =>
      (∃ call, s.Unerased call) ∧ s.cancellationTokens_ = ∅ := by
    apply Reaches.run Session.runs_handshake
    apply Reaches.step (.reader rfl rfl (.read Session.hover.json.print rfl (by decide) rfl))
    apply Reaches.step (.reader rfl rfl (.insertToken rfl))
    apply Reaches.step (.reader rfl rfl (.submit rfl))
    apply Reaches.step (.reader rfl rfl (.read Session.hover.json.print rfl (by decide) rfl))
    apply Reaches.step (.reader rfl rfl (.insertToken rfl))
    apply Reaches.step (.reader rfl rfl (.submit rfl))
    apply Reaches.step (.worker .worker 0 rfl (.take rfl rfl))
    apply Reaches.step (.worker .worker 0 rfl (.handler rfl (.start rfl)))
    apply Reaches.step (.worker .worker 0 rfl (.handler rfl (.returns .null)))
    apply Reaches.step (.worker .worker 0 rfl (.handlerFinishes rfl (.send rfl)))
    apply Reaches.step (.worker .worker 0 rfl (.eraseToken rfl))
    refine Reaches.here ⟨⟨_, Or.inl (Or.inr (Or.inl ⟨.worker, List.mem_cons_self⟩))⟩, ?_⟩
    exact AList.ext (by decide)
  rcases hrun with ⟨ls, s, hrun, hpending, hempty⟩
  exact ⟨ls, s, hrun, hpending, hempty, table_kept Session.config ls s hrun⟩

end CLSP
