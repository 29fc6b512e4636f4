import CLSP.Server.Lifecycle

/-!
# The exit code

`run` returns 0 exactly if the client has initialized the server and asked for the shutdown after
that. The flag `shutdownRequested_` is set when the handler of `shutdown` starts, on the read
thread, so where `run` returns it tells what has been read.
-/

namespace CLSP

open Transition (Reaches)

/-! ## Messages -/

/-- The client initializes and then asks for the shutdown, before any exit. -/
def ShutdownAsked (msgs : List ParsedMessage) : Prop :=
  ∃ m₀ m₁ m₂ begin shutdown,
    msgs = m₀ ++ .request begin :: (m₁ ++ .request shutdown :: m₂) ∧
      begin.method = str "initialize" ∧ shutdown.method = str "shutdown" ∧
      ∀ n, .notification n ∈ m₀ ++ m₁ → n.method ≠ str "exit"

/-- A shutdown request that is read while the server is initializing or running. -/
def ParsedMessage.AsksShutdown (state : ServerState) (msg : ParsedMessage) : Prop :=
  ∃ req, msg = .request req ∧ req.method = str "shutdown" ∧ state.Active

/-- One of the messages is such a request. -/
def TakesShutdown (msgs : List ParsedMessage) : Prop :=
  ∃ m₀ msg m₁, msgs = m₀ ++ msg :: m₁ ∧ msg.AsksShutdown (lifecycleAfter m₀)

lemma takesShutdown_concat {msgs : List ParsedMessage} {msg : ParsedMessage} :
    TakesShutdown (msgs ++ [msg]) ↔
      TakesShutdown msgs ∨ msg.AsksShutdown (lifecycleAfter msgs) := by
  constructor
  · intro h
    rcases h with ⟨m₀, asking, m₁, hmsgs, hasks⟩
    rcases List.eq_nil_or_concat m₁ with rfl | ⟨m₁, last, rfl⟩
    · rcases List.append_inj' hmsgs rfl with ⟨rfl, heq⟩
      rw [List.singleton_inj.mp heq]
      exact Or.inr hasks
    · rw [List.concat_eq_append, ← List.cons_append, ← List.append_assoc] at hmsgs
      rcases List.append_inj' hmsgs rfl with ⟨rfl, -⟩
      exact Or.inl ⟨m₀, asking, m₁, rfl, hasks⟩
  · intro h
    rcases h with ⟨m₀, asking, m₁, rfl, hasks⟩ | hasks
    · exact ⟨m₀, asking, m₁ ++ [msg], by simp, hasks⟩
    · exact ⟨msgs, msg, [], rfl, hasks⟩

/-- A shutdown request is taken exactly if one comes after an `initialize` request. -/
lemma takesShutdown_iff {msgs : List ParsedMessage} : TakesShutdown msgs ↔ ShutdownAsked msgs := by
  constructor
  · intro h
    rcases h with ⟨q, msg, m₂, rfl, shutdown, rfl, hshutdown, hactive⟩
    have hstarted : (lifecycleAfter q).Started := Or.inl hactive
    have hstays := stays_of_ne_exited hstarted.ne.2
    rcases exists_initialize hstarted with ⟨m₀, m₁, begin, rfl, hbegin⟩
    refine ⟨m₀, m₁, m₂, begin, shutdown, by simp, hbegin, hshutdown, ?_⟩
    intro n hn
    apply hstays (.notification n) _ n rfl
    simp only [List.mem_append, List.mem_cons] at hn ⊢
    tauto
  · intro h
    rcases h with ⟨m₀, m₁, m₂, begin, shutdown, rfl, hbegin, hshutdown, hexit⟩
    have hstays : ∀ msg ∈ m₀ ++ m₁, msg.Stays := by
      intro msg hmsg n hn
      rw [hn] at hmsg
      exact hexit n hmsg
    have happ : m₀ ++ .request begin :: (m₁ ++ .request shutdown :: m₂)
        = m₀ ++ [.request begin] ++ m₁ ++ .request shutdown :: m₂ := by simp
    rw [happ]
    -- the shutdown request is taken, or an earlier one was
    rcases lifecycleAfter_initialize hbegin hstays with hactive | hdown
    · exact ⟨_, _, _, rfl, shutdown, rfl, hshutdown, hactive⟩
    · rcases exists_shutdown hdown with ⟨q, m, first, hq, hfirst, hactive⟩
      rw [hq]
      exact ⟨q, .request first, m ++ .request shutdown :: m₂, by simp, first, rfl, hfirst,
        hactive⟩

/-! ## The flag -/

/-- A handler of `shutdown` that is about to start. -/
def ReaderPc.startsShutdown : ReaderPc → Prop
  | .inline call .checking => call.handler = .shutdownRequest
  | _ => False

/-- The flag is set, or about to be. -/
def Server.shutdownTaken (s : Server) : Prop :=
  s.shutdownRequested_ = true ∨ s.reader.startsShutdown

/-- Dispatch starts the handler of `shutdown` for these requests only. -/
lemma Outcome.startsShutdown {cfg : Config} (hkept : cfg.LifecycleKept) {state : ServerState}
    {serial token : ℕ} {msg : ParsedMessage} {next : ServerState × ReaderPc}
    (hexited : state ≠ .Exited) (h : Outcome cfg state serial token msg next) :
    next.2.startsShutdown ↔ msg.AsksShutdown state := by
  have hno : ∀ req, msg = .request req →
      ¬ (Accepts state req.method ∧ cfg.requestHandler req.method = some .shutdownRequest) →
      ¬ msg.AsksShutdown state := by
    intro req hreq hnot hasks
    rcases hasks with ⟨req', hreq', hmethod, hactive⟩
    have heq : req' = req := ParsedMessage.request.inj (hreq'.symm.trans hreq)
    subst heq
    apply hnot
    rw [hmethod]
    exact ⟨(accepts_shutdown_iff hexited).mpr hactive, hkept.shutdownRequest⟩
  cases h with
  | @request req _ h =>
    cases h with
    | rejected code message hnone =>
      refine iff_of_false id (hno req rfl ?_)
      intro hboth
      rw [hnone hboth.1] at hboth
      exact absurd hboth.2 (by simp)
    | @lifecycle handler haccepts hhandler hlife =>
      constructor
      · intro hstarts
        have hshutdown : handler = .shutdownRequest := hstarts
        subst hshutdown
        have hmethod := method_of_shutdownRequest hhandler
        rw [hmethod] at haccepts
        exact ⟨req, rfl, hmethod, (accepts_shutdown_iff hexited).mp haccepts⟩
      · intro hasks
        by_contra hnot
        refine hno req rfl ?_ hasks
        intro hboth
        exact hnot (Option.some.inj (hhandler.symm.trans hboth.2))
    | pooled haccepts hhandler hlife =>
      refine iff_of_false id (hno req rfl ?_)
      intro hboth
      rw [method_of_shutdownRequest hboth.2] at hlife
      exact absurd hlife (by decide)
  | notification h =>
    refine iff_of_false ?_ ?_
    · cases h <;> exact id
    · intro hasks
      rcases hasks with ⟨_, hreq, -⟩
      exact absurd hreq (by simp)
  | response h =>
    refine iff_of_false ?_ ?_
    · cases h <;> exact id
    · intro hasks
      rcases hasks with ⟨_, hreq, -⟩
      exact absurd hreq (by simp)
  | error =>
    refine iff_of_false id ?_
    intro hasks
    rcases hasks with ⟨_, hreq, -⟩
    exact absurd hreq (by simp)

section Steps

variable {cfg : Config} {ls : List Label} {s s' : Server} {l : Label}

/-- A handler of the read thread that goes on keeps the flag, and starting sets it. -/
lemma HandlerStep.shutdownTaken {nl : Nlohmann} {call : RequestCall} {pc pc' : HandlerPc}
    (capabilities : Server.Capabilities) (h : HandlerStep nl call (s.flag call) pc l (.next pc'))
    (hr : s.reader = .inline call pc) (hflag : pc = .checking → s.flag call = false) :
    Server.shutdownTaken
        { s.lifecycleEffect capabilities call.handler l with reader := .inline call pc' } ↔
      s.shutdownTaken := by
  unfold Server.shutdownTaken
  rw [hr]
  cases h with
  | cancelled htrue => exact absurd (hflag rfl) (by simp [htrue])
  | start =>
    show (s.lifecycleStarts call.handler).shutdownRequested_ = true ∨ False ↔
      s.shutdownRequested_ = true ∨ call.handler = .shutdownRequest
    cases call.handler <;> simp [Server.lifecycleStarts]
  | returns =>
    show (s.lifecycleReturns capabilities call.handler).shutdownRequested_ = true ∨ False ↔ _
    cases call.handler <;> simp [Server.lifecycleReturns, ReaderPc.startsShutdown]
  | poll | throws | sendThrows => exact Iff.rfl

/-- The flag is that of the messages read. -/
lemma ReaderStep.shutdownTaken (hkept : cfg.LifecycleKept) (hs : LifecycleInvariant cfg ls s)
    (hflag : s.shutdownTaken ↔ TakesShutdown (messagesOf ls)) (h : ReaderStep cfg s l s') :
    s'.shutdownTaken ↔ TakesShutdown (messagesOf (ls ++ [l])) := by
  -- steps that read nothing, set nothing and do not start a handler
  have hquiet : l.message? = none → (s'.shutdownTaken ↔ s.shutdownTaken) →
      (s'.shutdownTaken ↔ TakesShutdown (messagesOf (ls ++ [l]))) := by
    intro hl hsame
    rw [messagesOf_concat_none hl, hsame, hflag]
  cases h with
  | @read body msg hr hexited _ =>
    have hloop : s.shutdownTaken ↔ s.shutdownRequested_ = true := by
      unfold Server.shutdownTaken
      rw [hr]
      exact or_iff_left id
    have hstate : s.state_ = lifecycleAfter (messagesOf ls) := by
      rw [← hs.settled, Server.settled, hr]
      rfl
    have hstarts := (dispatch_outcome cfg s.state_ s.messagesRead s.flags.length msg).startsShutdown
      hkept hexited
    rw [messagesOf_append]
    show _ ↔ TakesShutdown (messagesOf ls ++ [msg])
    rw [takesShutdown_concat, ← hflag, hloop, ← hstate, ← hstarts]
    exact Iff.rfl
  | @handler call pc pc' _ capabilities hr hstep =>
    apply hquiet (Label.message?_eq_none hstep.label.1)
    apply hstep.shutdownTaken capabilities hr
    intro heq
    subst heq
    exact (hs.starting call hr).2.2.2.2
  | @handlerFinishes call pc _ hr hstep =>
    apply hquiet (Label.message?_eq_none hstep.label.1)
    unfold Server.shutdownTaken
    rw [hr]
    cases hstep with
    | send => exact Iff.rfl
  | @handlerEscapes call pc _ hr hstep =>
    exact hquiet (Label.message?_eq_none hstep.label.1) Iff.rfl
  | parseThrows | sendThrows | notifyEscapes | exitThrows => exact hquiet rfl Iff.rfl
  | submit hr | stop hr =>
    apply hquiet rfl
    unfold Server.shutdownTaken
    rw [hr]
    show (Server.setPool s _ _).shutdownRequested_ = true ∨ False ↔ _
    rw [Server.setPool_shutdownRequested_]
    exact Iff.rfl
  | endOfInput hr | leave hr | send hr | insertToken hr | cancel hr | notified hr | exited hr
  | unmatched hr | matched hr | joinSync hr | joinWorkers hr =>
    apply hquiet rfl
    unfold Server.shutdownTaken
    rw [hr]
    exact Iff.rfl

theorem Runs.shutdownTaken (hkept : cfg.LifecycleKept) (h : Runs cfg ls s) :
    s.shutdownTaken ↔ TakesShutdown (messagesOf ls) := by
  induction h with
  | nil =>
    refine iff_of_false ?_ ?_
    · intro h
      rcases h with h | h
      · exact absurd h (by simp [Server.start])
      · exact h
    · intro h
      rcases h with ⟨m₀, msg, m₁, hnil, -⟩
      exact absurd hnil (by simp [messagesOf])
  | @snoc ls t u l hrun hstep ih =>
    have hs := Runs.lifecycle hkept hrun
    cases hstep with
    | reader _ _ h => exact h.shutdownTaken hkept hs ih
    | worker _ _ _ h =>
      rcases h.control with ⟨hreader, -, -, -, hflag, -⟩
      rw [messagesOf_concat_none (Label.message?_eq_none h.label.1), ← ih]
      unfold Server.shutdownTaken
      rw [hreader, hflag]
    | sender _ h =>
      have hl := Label.message?_eq_none h.label
      rcases h.frame with ⟨_, _, _, rfl⟩
      rw [messagesOf_concat_none hl, ← ih]
      exact Iff.rfl

/-- Once `run` has returned its thread takes no step. -/
lemma not_readerStep_of_returned (hr : s.reader = .returned) : ¬ ReaderStep cfg s l s' := by
  intro h
  cases h with
  | read _ hr' | parseThrows _ hr' | endOfInput hr' | leave hr' | send hr' | sendThrows hr'
  | handler _ hr' | handlerFinishes hr' | handlerEscapes hr' | insertToken hr' | submit hr'
  | cancel hr' | notified hr' | notifyEscapes hr' | exited hr' | exitThrows _ hr' | unmatched hr'
  | matched hr' | stop hr' | joinSync hr' | joinWorkers hr' =>
    exact absurd (hr.symm.trans hr') (by simp)

lemma Step.reader_of_returned (h : Step cfg s l s') (hr : s.reader = .returned) :
    s'.reader = .returned ∧ l.message? = none := by
  cases h with
  | reader _ _ h => exact absurd h (not_readerStep_of_returned hr)
  | worker _ _ _ h => exact ⟨h.control.1.trans hr, Label.message?_eq_none h.label.1⟩
  | sender _ h =>
    have hl := Label.message?_eq_none h.label
    rcases h.frame with ⟨_, _, _, rfl⟩
    exact ⟨hr, hl⟩

/-- Nothing is read after `run` has returned. -/
lemma messagesOf_of_returned (h : Transition.Run (Step cfg) s ls s') (hr : s.reader = .returned) :
    messagesOf ls = [] := by
  have hboth : s'.reader = .returned ∧ messagesOf ls = [] := by
    apply h.history (I := fun ls s => s.reader = .returned ∧ messagesOf ls = []) ⟨hr, rfl⟩
    intro ks t l u ht hstep
    rcases hstep.reader_of_returned ht.1 with ⟨hreader, hl⟩
    exact ⟨hreader, (messagesOf_concat_none hl ks).trans ht.2⟩
  exact hboth.2

lemma Step.returned_inv {code : ℕ} (h : Step cfg s (.returned code) s') :
    s.reader = .joining .worker ∧ code = s.exitCode ∧ s'.reader = .returned := by
  cases (h.of_reader rfl).2 with
  | joinWorkers hr _ => exact ⟨hr, rfl, rfl⟩
  | handler _ _ hstep | handlerFinishes _ hstep | handlerEscapes _ hstep => cases hstep

/-- `run` stays returned. -/
lemma Runs.reader_of_returned {code : ℕ} (h : Runs cfg ls s) (hmem : .returned code ∈ ls) :
    s.reader = .returned := by
  rcases List.append_of_mem hmem with ⟨ls₁, ls₂, rfl⟩
  rcases h.split_at with ⟨t, t', -, hstep, hrest⟩
  exact hrest.invariant (I := fun s => s.reader = .returned) hstep.returned_inv.2.2
    fun _ _ _ hr hstep => (hstep.reader_of_returned hr).1

/-- **The exit code.** `run` returns 0 if the client has initialized the server and then asked for
the shutdown before the exit or the end of the input, and 1 otherwise. -/
theorem exitCode_eq (cfg : Config) (hkept : cfg.LifecycleKept) (ls : List Label) (s : Server)
    (h : Runs cfg ls s) (code : ℕ) (hreturned : .returned code ∈ ls) :
    (ShutdownAsked (messagesOf ls) → code = 0) ∧ (¬ ShutdownAsked (messagesOf ls) → code = 1) := by
  rcases List.append_of_mem hreturned with ⟨ls₁, ls₂, rfl⟩
  rcases h.split_at with ⟨t, t', ht, hstep, hrest⟩
  rcases hstep.returned_inv with ⟨hreader, rfl, hreader'⟩
  have hmessages : messagesOf (ls₁ ++ .returned t.exitCode :: ls₂) = messagesOf ls₁ := by
    rw [messagesOf_append]
    show messagesOf ls₁ ++ messagesOf ls₂ = _
    rw [messagesOf_of_returned hrest hreader', List.append_nil]
  have hflag : t.shutdownRequested_ = true ↔ ShutdownAsked (messagesOf ls₁) := by
    rw [← takesShutdown_iff, ← Runs.shutdownTaken hkept ht]
    unfold Server.shutdownTaken
    rw [hreader]
    exact (or_iff_left id).symm
  rw [hmessages, ← hflag]
  unfold Server.exitCode
  exact ⟨fun h => if_pos h, fun h => if_neg h⟩

end Steps

/-- A session that is initialized, shut down and left returns 0. -/
theorem exitCode_session :
    Reaches (Step Session.config) (Server.start Session.config) fun ls _ =>
      ∃ code, .returned code ∈ ls ∧ code = 0 := by
  have hrun : Reaches (Step Session.config) (Server.start Session.config) fun ls _ =>
      ∃ begin shutdown exit code,
        messagesOf ls = [.request begin, .request shutdown, .notification exit] ∧
          begin.method = str "initialize" ∧ shutdown.method = str "shutdown" ∧
          ls.getLast? = some (.returned code) := by
    apply Reaches.run Session.runs_handshake
    apply Reaches.step (.reader rfl rfl (.read Session.shutdown.json.print rfl (by decide) rfl))
    apply Reaches.step (.reader rfl rfl (.handler ⟨none, none⟩ rfl (.start rfl)))
    apply Reaches.step (.reader rfl rfl (.handler ⟨none, none⟩ rfl (.returns .null)))
    apply Reaches.step (.reader rfl rfl (.handlerFinishes rfl (.send rfl)))
    apply Reaches.step (.reader rfl rfl (.read Session.exit.json.print rfl (by decide) rfl))
    apply Reaches.step (.reader rfl rfl (.exited rfl))
    apply Reaches.step (.reader rfl rfl (.leave rfl rfl))
    apply Reaches.step (.reader rfl rfl (.stop rfl))
    apply Reaches.step (.worker .sync 0 rfl (.exit ⟨rfl, rfl⟩ rfl))
    apply Reaches.step (.reader rfl rfl (.joinSync rfl rfl))
    apply Reaches.step (.reader rfl rfl (.stop rfl))
    apply Reaches.step (.worker .worker 0 rfl (.exit ⟨rfl, rfl⟩ rfl))
    apply Reaches.step (.worker .worker 1 rfl (.exit ⟨rfl, rfl⟩ rfl))
    apply Reaches.step (.reader rfl rfl (.joinWorkers rfl rfl))
    exact Reaches.here ⟨_, _, _, _, rfl, rfl, rfl, rfl⟩
  rcases hrun with ⟨ls, s, hrun, begin, shutdown, exit, code, hmsgs, hbegin, hshutdown, hlast⟩
  have hreturned : .returned code ∈ ls := List.mem_of_getLast? hlast
  refine ⟨ls, s, hrun, code, hreturned, ?_⟩
  apply (exitCode_eq Session.config session_kept ls s hrun code hreturned).1
  rw [hmsgs]
  exact ⟨[], [], [.notification exit], begin, shutdown, rfl, hbegin, hshutdown, by simp⟩

end CLSP
