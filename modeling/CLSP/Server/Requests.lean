import CLSP.Server.Tasks

/-!
# The requests in hand

The requests that are on their way: in the read thread, in a queue or with a worker. A request is
taken in hand where it is read, with the place of its message and a fresh token.
-/

namespace CLSP

open Transition (Numbers)

def Task.calls : Task → Multiset RequestCall
  | .request call => {call}
  | _ => 0

def Running.calls : Running → Multiset RequestCall
  | .request call _ => {call}
  | .erasing call => {call}
  | _ => 0

def ReaderPc.calls : ReaderPc → Multiset RequestCall
  | .inline call _ => {call}
  | .registering call => {call}
  | .submitting _ task => task.calls
  | _ => 0

/-- The requests that some thread or queue has. -/
def Server.calls (s : Server) : Multiset RequestCall :=
  s.held ReaderPc.calls Task.calls Running.calls

section Steps

variable {cfg : Config} {s s' : Server} {l : Label}

/-- A worker lets go of a request, at most. -/
lemma Move.calls_le {before after : Option Running} (h : Move cfg s l before after) :
    heldBy Running.calls after ≤ heldBy Running.calls before := by
  cases h with
  | handler | answered | take | exit | handlerEscapes | notificationEscapes | callbackEscapes
  | notification | notificationFinishes | invoke | callbackFinishes => exact le_refl _
  | erase => exact Multiset.zero_le _

/-- A request that `dispatch` takes in hand has the place of its message and a fresh token. -/
lemma Outcome.calls {state_ : ServerState} {serial token : ℕ} {msg : ParsedMessage}
    {next : ServerState × ReaderPc} (h : Outcome cfg state_ serial token msg next) :
    next.2.calls = 0 ∧ next.2.newFlags = [] ∨
      ∃ call, next.2.calls = {call} ∧ call.serial = serial ∧ call.token = token ∧
        next.2.newFlags = [false] := by
  cases h with
  | request h =>
    cases h with
    | rejected => exact Or.inl ⟨rfl, rfl⟩
    | lifecycle => exact Or.inr ⟨_, rfl, rfl, rfl, rfl⟩
    | pooled => exact Or.inr ⟨_, rfl, rfl, rfl, rfl⟩
  | notification h => cases h <;> exact Or.inl ⟨rfl, rfl⟩
  | response h => cases h <;> exact Or.inl ⟨rfl, rfl⟩
  | error => exact Or.inl ⟨rfl, rfl⟩

/-- The read thread only takes a request in hand where it reads it. -/
lemma ReaderStep.calls (h : ReaderStep cfg s l s') :
    s'.reader.calls + l.passed Task.calls ≤ s.reader.calls ∧ s'.flags.length = s.flags.length ∨
      ∃ call, s'.reader.calls + l.passed Task.calls = s.reader.calls + {call} ∧
        call.serial = s.messagesRead ∧ call.token = s.flags.length ∧
        s'.messagesRead = s.messagesRead + 1 ∧ s'.flags.length = s.flags.length + 1 := by
  cases h with
  | @read body msg hr _ _ =>
    have hpassed : (Label.read s.messagesRead body msg).passed Task.calls = 0 := rfl
    rw [hr, hpassed, add_zero]
    -- a message is read: it may be a request, which gets the next flag
    rcases (dispatch_outcome cfg s.state_ s.messagesRead s.flags.length msg).calls with
      ⟨hcalls, hflags⟩ | ⟨call, hcalls, hserial, htoken, hflags⟩
    · refine Or.inl ⟨le_of_eq hcalls, ?_⟩
      show (s.flags ++ ReaderPc.newFlags _).length = _
      rw [hflags, List.append_nil]
    · refine Or.inr ⟨call, hcalls.trans (zero_add _).symm, hserial, htoken, rfl, ?_⟩
      show (s.flags ++ ReaderPc.newFlags _).length = _
      rw [hflags, List.length_append]
      rfl
  | handler capabilities hr hstep =>
    rcases s.lifecycleEffect_eq capabilities _ l with ⟨_, _, _, _, heq⟩
    rw [heq, hr, hstep.passed]
    exact Or.inl ⟨le_refl _, rfl⟩
  | handlerFinishes hr hstep =>
    rw [hr, hstep.passed]
    exact Or.inl ⟨Multiset.zero_le _, rfl⟩
  | handlerEscapes hr hstep =>
    rw [hstep.passed, add_zero]
    exact Or.inl ⟨le_refl _, rfl⟩
  | submit hr =>
    -- the request goes on to the queue
    rw [hr]
    refine Or.inl ⟨le_of_eq (zero_add _), ?_⟩
    exact congrArg List.length (Server.setPool_flags s _ _)
  | stop hr =>
    rw [hr]
    exact Or.inl ⟨le_refl _, congrArg List.length (Server.setPool_flags s _ _)⟩
  | @cancel id hr =>
    rw [hr]
    refine Or.inl ⟨le_refl _, ?_⟩
    show (s.cancel id).flags.length = _
    unfold Server.cancel
    cases s.cancellationTokens_.lookup id with
    | none => rfl
    | some token => exact List.length_set
  | parseThrows | sendThrows | notifyEscapes | exitThrows =>
    exact Or.inl ⟨le_of_eq (add_zero _), rfl⟩
  | endOfInput hr | leave hr | send hr | insertToken hr | notified hr | exited hr
  | unmatched hr | matched hr | joinSync hr | joinWorkers hr =>
    rw [hr]
    exact Or.inl ⟨le_refl _, rfl⟩

/-- A step lets go of requests, or takes one in hand with a fresh token. -/
theorem Step.calls (h : Step cfg s l s') (hs : s.Phased) :
    s'.calls ≤ s.calls ∧ s'.flags.length = s.flags.length ∨
      ∃ call, s'.calls = s.calls + {call} ∧ call.serial = s.messagesRead ∧
        call.token = s.flags.length ∧ s'.messagesRead = s.messagesRead + 1 ∧
        s'.flags.length = s.flags.length + 1 := by
  unfold Server.calls
  cases h with
  | reader _ _ h =>
    have hheld := h.held (r := ReaderPc.calls) (f := Task.calls) (g := Running.calls) hs
    rcases h.calls with ⟨hle, hflags⟩ | ⟨call, heq, hserial, htoken, hcounts⟩
    · refine Or.inl ⟨?_, hflags⟩
      apply le_of_add_le_add_right (a := s.reader.calls)
      rw [hheld]
      exact add_le_add_right hle _
    · -- the request that is read is held in addition
      refine Or.inr ⟨call, ?_, hserial, htoken, hcounts⟩
      rw [heq, ← add_assoc, add_right_comm] at hheld
      exact add_right_cancel hheld
  | worker _ _ _ h =>
    refine Or.inl ⟨?_, congrArg List.length h.control.2.2.2.2.2⟩
    rcases h.held (r := ReaderPc.calls) (f := Task.calls) (g := Running.calls)
      (fun task => by cases task <;> rfl) with ⟨before, after, hmove, -, hheld⟩
    apply le_of_add_le_add_right (a := heldBy Running.calls before)
    rw [hheld]
    exact add_le_add_right hmove.calls_le _
  | sender _ h =>
    rw [h.held]
    rcases h.frame with ⟨_, _, _, rfl⟩
    exact Or.inl ⟨le_refl _, rfl⟩

/-! ## Where they come from -/

/-- A request that `dispatch` takes in hand is the one it was given. -/
lemma Outcome.origin {state_ : ServerState} {serial token : ℕ} {msg : ParsedMessage}
    {next : ServerState × ReaderPc} (h : Outcome cfg state_ serial token msg next)
    {call : RequestCall} (hcall : call ∈ next.2.calls) :
    ∃ req handler, msg = .request req ∧ call = req.call serial handler token := by
  cases h with
  | @request req _ h =>
    cases h with
    | rejected => exact absurd hcall (Multiset.notMem_zero _)
    | @lifecycle handler => exact ⟨req, handler, rfl, Multiset.mem_singleton.mp hcall⟩
    | @pooled handler => exact ⟨req, handler, rfl, Multiset.mem_singleton.mp hcall⟩
  | notification h => cases h <;> exact absurd hcall (Multiset.notMem_zero _)
  | response h => cases h <;> exact absurd hcall (Multiset.notMem_zero _)
  | error => exact absurd hcall (Multiset.notMem_zero _)

lemma Server.calls_read (hr : s.reader = .loop) (next : ServerState × ReaderPc) :
    (s.read next).calls = s.calls + next.2.calls := by
  have hheld : (s.read next).calls + ReaderPc.calls s.reader = s.calls + next.2.calls :=
    Server.held_of_reader rfl rfl
  rw [hr] at hheld
  exact (add_zero _).symm.trans hheld

lemma Step.messagesRead_eq (h : Step cfg s l s') (hl : ∀ m body msg, l ≠ .read m body msg) :
    s'.messagesRead = s.messagesRead := by
  cases h with
  | reader _ _ h =>
    cases h with
    | read body _ _ _ => exact absurd rfl (hl _ body _)
    | handler capabilities =>
      rcases s.lifecycleEffect_eq capabilities _ l with ⟨_, _, _, _, heq⟩
      rw [heq]
    | submit | stop => exact Server.setPool_messagesRead s _ _
    | _ => rfl
  | worker _ _ _ h => exact h.control.2.2.1
  | sender _ h =>
    rcases h.frame with ⟨_, _, _, rfl⟩
    rfl

lemma Step.messagesRead_le (h : Step cfg s l s') : s.messagesRead ≤ s'.messagesRead := by
  have hother : (∀ m body msg, l ≠ .read m body msg) → s.messagesRead ≤ s'.messagesRead :=
    fun hl => le_of_eq (h.messagesRead_eq hl).symm
  cases l with
  | read m body msg =>
    rw [h.read_inv.2.2.2.2]
    exact Nat.le_succ _
  | _ => exact hother (by simp)

/-- The place of the message that is read. -/
def Label.serial? : Label → Option ℕ
  | .read m _ _ => some m
  | _ => none

lemma numbers_read (cfg : Config) : Numbers (Step cfg) Server.messagesRead Label.serial? where
  grows h := h.messagesRead_le
  draws {t u l n} h hl := by
    cases l with
    | read m body msg =>
      obtain rfl : m = n := Option.some.inj hl
      rw [h.read_inv.2.2.2.2, h.serial_of_read]
      exact ⟨rfl, Nat.lt_succ_self _⟩
    | _ => exact absurd hl (by simp [Label.serial?])

/-- No two messages have one number. -/
lemma Runs.read_inj {ls : List Label} (h : Runs cfg ls s) {m : ℕ} {body body' : Bytes}
    {msg msg' : ParsedMessage} (hmem : .read m body msg ∈ ls) (hmem' : .read m body' msg' ∈ ls) :
    msg = msg' := by
  have heq := h.number_inj (numbers_read cfg) hmem hmem' rfl rfl
  exact (Label.read.inj heq).2.2

/-- A request in hand was in hand before the step, or the step has read it. -/
theorem Step.origin (h : Step cfg s l s') (hs : s.Phased) {call : RequestCall}
    (hcall : call ∈ s'.calls) :
    call ∈ s.calls ∨ ∃ body req handler, l = .read s.messagesRead body (.request req) ∧
      call = req.call s.messagesRead handler s.flags.length := by
  have hother : (∀ m body msg, l ≠ .read m body msg) → call ∈ s.calls := by
    intro hl
    rcases h.calls hs with ⟨hle, -⟩ | ⟨call', -, -, -, hread, -⟩
    · exact Multiset.mem_of_le hle hcall
    · have hsame := h.messagesRead_eq hl
      omega
  cases l with
  | read m body msg =>
    have hserial := h.serial_of_read
    rcases h.read_inv with ⟨hr, -, -, -, rfl⟩
    rw [Server.calls_read hr] at hcall
    rcases Multiset.mem_add.mp hcall with hcall | hcall
    · exact Or.inl hcall
    · rcases (dispatch_outcome _ _ _ _ _).origin hcall with ⟨req, handler, rfl, hcall'⟩
      exact Or.inr ⟨body, req, handler, by rw [hserial], hcall'⟩
  | _ => exact Or.inl (hother (by simp))

/-- A request in hand is one that has been read. -/
lemma Runs.request_of_call {ls : List Label} (h : Runs cfg ls s) {call : RequestCall}
    (hcall : call ∈ s.calls) : ∃ m body req handler token, .read m body (.request req) ∈ ls ∧
      call = req.call m handler token := by
  induction h with
  | nil =>
    have hnone : (Server.start cfg).calls = 0 := Server.held_start rfl cfg
    rw [hnone] at hcall
    exact absurd hcall (Multiset.notMem_zero _)
  | @snoc ls t u l hrun hstep ih =>
    rcases hstep.origin (Runs.phased hrun) hcall with hcall | ⟨body, req, handler, rfl, rfl⟩
    · rcases ih hcall with ⟨m, body, req, handler, token, hmem, heq⟩
      exact ⟨m, body, req, handler, token, List.mem_append_left _ hmem, heq⟩
    · exact ⟨_, body, req, handler, _, by simp, rfl⟩

/-- The ids of the requests in hand can be printed. -/
lemma Runs.validUtf8_id {ls : List Label} (h : Runs cfg ls s) (hnl : cfg.nl.Documented)
    {call : RequestCall} (hcall : call ∈ s.calls) : call.id.ValidUtf8 := by
  induction h with
  | nil =>
    have hnone : (Server.start cfg).calls = 0 := Server.held_start rfl cfg
    rw [hnone] at hcall
    exact absurd hcall (Multiset.notMem_zero _)
  | @snoc ls t u l hrun hstep ih =>
    rcases hstep.origin (Runs.phased hrun) hcall with hcall | ⟨body, req, handler, rfl, rfl⟩
    · exact ih hcall
    · exact validUtf8_of_parseMessage hnl hstep.read_inv.2.2.2.1

/-- The reply of a request that has been read can be sent. -/
lemma serialize_cancelled (hnl : cfg.nl.Documented) {call : RequestCall}
    (hid : call.id.ValidUtf8) (what : Bytes) :
    (Reply.cancelled.frame call.id).serialize cfg.nl ≠ .error what := by
  have hvalid : (Reply.cancelled.frame call.id).ValidUtf8 := ⟨hid, valid_str _⟩
  rcases Frame.ValidUtf8.serialize hnl hvalid with ⟨text, htext⟩
  rw [htext]
  simp

/-! ## Who handles them -/

/-- Some thread is in the handler run of a request. -/
def Server.Handles (s : Server) (call : RequestCall) (pc : HandlerPc) : Prop :=
  s.reader = .inline call pc ∨ ∃ e, (s.pool e).Working (.request call pc)

lemma Server.Handles.mem_calls {call : RequestCall} {pc : HandlerPc} (h : s.Handles call pc) :
    call ∈ s.calls := by
  rcases h with hr | ⟨e, hwork⟩
  · apply Server.mem_held_of_reader
    rw [hr]
    exact Multiset.mem_singleton_self _
  · exact Server.mem_held_of_pool
      (ThreadPool.mem_contents_of_working hwork (Multiset.mem_singleton_self _))

/-- `dispatch` leaves a request before its token is tested. -/
lemma Outcome.checking {state_ : ServerState} {serial token : ℕ} {msg : ParsedMessage}
    {next : ServerState × ReaderPc} (h : Outcome cfg state_ serial token msg next)
    {call : RequestCall} {pc : HandlerPc} (hnext : next.2 = .inline call pc) : pc = .checking := by
  cases h with
  | request h =>
    cases h with
    | lifecycle => exact (ReaderPc.inline.inj hnext).2.symm
    | rejected | pooled => exact absurd hnext (by simp)
  | notification h => cases h <;> exact absurd hnext (by simp)
  | response h => cases h <;> exact absurd hnext (by simp)
  | error => exact absurd hnext (by simp)

/-- A handler run starts at the test of the token and goes on by its own steps. -/
theorem Step.handles (h : Step cfg s l s') {call : RequestCall} {pc : HandlerPc}
    (hs' : s'.Handles call pc) :
    s.Handles call pc ∨ pc = .checking ∨ ∃ pc₀, s.Handles call pc₀ ∧
      HandlerStep cfg.nl call (s.flag call) pc₀ l (.next pc) := by
  cases h with
  | reader _ _ h =>
    rcases hs' with hreader | ⟨e, hwork⟩
    · cases h with
      | read => exact Or.inr (Or.inl ((dispatch_outcome _ _ _ _ _).checking hreader))
      | handler capabilities hr hstep =>
        rcases ReaderPc.inline.inj hreader with ⟨rfl, rfl⟩
        exact Or.inr (Or.inr ⟨_, Or.inl hr, hstep⟩)
      | parseThrows | sendThrows | handlerEscapes | notifyEscapes | exitThrows =>
        exact Or.inl (Or.inl hreader)
      | _ => exact absurd hreader (by simp)
    · exact Or.inl (Or.inr ⟨e, h.working.mp hwork⟩)
  | worker _ _ _ h =>
    rcases hs' with hreader | ⟨e, hwork⟩
    · exact Or.inl (Or.inl (h.control.1 ▸ hreader))
    · generalize hrunning : Running.request call pc = running at hwork
      cases h.advanced hwork with
      | same hwork => exact Or.inl (Or.inr ⟨e, hrunning ▸ hwork⟩)
      | handler hwork' hstep =>
        rcases Running.request.inj hrunning with ⟨rfl, rfl⟩
        exact Or.inr (Or.inr ⟨_, Or.inr ⟨e, hwork'⟩, hstep⟩)
      | @taken task =>
        cases task with
        | request => exact Or.inr (Or.inl (Running.request.inj hrunning).2)
        | _ => exact absurd hrunning (by simp [Task.start])
      | _ => exact absurd hrunning (by simp)
  | sender _ h =>
    rcases hs' with hreader | ⟨e, hwork⟩
    · rcases h.frame with ⟨_, _, _, rfl⟩
      exact Or.inl (Or.inl hreader)
    · exact Or.inl (Or.inr ⟨e, h.pool e ▸ hwork⟩)

/-- A handler is called, goes on and is left in its run. -/
theorem Step.handler_inv (h : Step cfg s l s') {call : RequestCall}
    (hl : l.task? = some (.request call)) :
    ∃ pc r, s.Handles call pc ∧ HandlerStep cfg.nl call (s.flag call) pc l r := by
  have hsame : ∀ {call' : RequestCall} {pc : HandlerPc} {r : Progress HandlerPc},
      s.Handles call' pc → HandlerStep cfg.nl call' (s.flag call') pc l r →
      ∃ pc r, s.Handles call pc ∧ HandlerStep cfg.nl call (s.flag call) pc l r := by
    intro call' pc r hhandles hstep
    rw [Task.request.inj (hstep.task? hl)]
    exact ⟨pc, r, hhandles, hstep⟩
  have hother : ∀ {call' : NotificationCall}, l.task? ≠ some (.notification call') := by
    intro call' hcall'
    exact absurd (Option.some.inj (hl.symm.trans hcall')) (by simp)
  cases h with
  | reader _ _ h =>
    cases h with
    | handler _ hr hstep | handlerFinishes hr hstep | handlerEscapes hr hstep =>
      exact hsame (Or.inl hr) hstep
    | notified | notifyEscapes => exact absurd rfl hother
    | _ => exact absurd hl (by simp [Label.task?])
  | worker e w _ h =>
    cases h with
    | handler hw hstep | handlerFinishes hw hstep | handlerEscapes hw hstep =>
      exact hsame (Or.inr ⟨e, ThreadPool.working_of_getElem? hw⟩) hstep
    | notification _ hstep | notificationFinishes _ hstep | notificationEscapes _ hstep =>
      exact absurd hstep.task? hother
    | callbackFinishes _ hstep | callbackEscapes _ hstep =>
      cases hstep <;> exact absurd hl (by simp [Label.task?])
    | take | exit | eraseToken | invoke => exact absurd hl (by simp [Label.task?])
  | sender _ h => cases h <;> exact absurd hl (by simp [Label.task?])

end Steps

end CLSP
