import CLSP.Server.Threads

/-!
# Bodies that do not parse

A body on which `json::parse` reports a syntax error is answered and the read thread goes on to the
next message. The other exception of `json::parse`, for a number out of the range of `double`, is
not caught by `parseMessage` and leaves `run`.
-/

namespace CLSP

open Transition (Run Reaches)

/-! ## The answer -/

/-- What `parseMessage` makes of a syntax error. -/
def ParsedError.invalidJson : ParsedError :=
  { code := .ParseError, message := str "Invalid JSON" }

/-- The frame `run` sends for it. -/
def Frame.invalidJson : Frame :=
  .errorNull .ParseError (str "Invalid JSON")

lemma parseMessage_of_error {nl : Nlohmann} {body : Bytes} {msg : ParsedMessage}
    {e : ParseException} (hparse : nl.parse body = .error e)
    (h : parseMessage nl body = .ok msg) : msg = .error .invalidJson := by
  unfold parseMessage at h
  rw [hparse] at h
  cases e with
  | parseError => exact (Except.ok.inj h).symm
  | outOfRange => exact absurd h (by simp)

/-- The one exception that leaves `parseMessage`. -/
lemma parseMessage_eq_error_iff {nl : Nlohmann} {body : Bytes} {e : ParseException} :
    parseMessage nl body = .error e ↔ nl.parse body = .error e ∧ e = .outOfRange := by
  unfold parseMessage
  rcases hparse : nl.parse body with e' | j
  · cases e' with
    | parseError =>
      constructor
      · intro h
        exact absurd h (by simp)
      · intro h
        rw [h.2] at h
        exact absurd h.1 (by simp)
    | outOfRange =>
      constructor
      · intro h
        rw [← Except.error.inj h]
        exact ⟨rfl, rfl⟩
      · intro h
        rw [h.2]
  · simp

/-! ## Sending it -/

variable {cfg : Config} {ls : List Label} {s s' : Server} {l : Label}

/-- The read thread is about to send a frame: it can, and it does nothing else before it is back in
its loop, which it does not leave. -/
structure Server.Sends (cfg : Config) (s : Server) (frame : Frame) : Prop where
  sending : s.reader = .sending frame
  goesOn : s.state_ ≠ .Exited ∧ s.threw = false
  able : s.terminated = false → Step cfg s (.sent frame) { s with reader := .loop }
  only : ∀ l s', ReaderStep cfg s l s' → l = .sent frame ∧ s' = { s with reader := .loop }

lemma sends_of_serialize {frame : Frame} {text : Bytes} (hreader : s.reader = .sending frame)
    (hstate : s.state_ ≠ .Exited) (hthrew : s.threw = false)
    (htext : frame.serialize cfg.nl = .ok text) : s.Sends cfg frame := by
  refine ⟨hreader, ⟨hstate, hthrew⟩, ?_, ?_⟩
  · intro hterminated
    exact .reader hterminated hthrew (.send hreader htext)
  · intro l s' hstep
    rcases hstep.sending_inv hreader with ⟨-, hsent⟩ | ⟨⟨what, hthrows⟩, -⟩
    · exact hsent
    · exact absurd (htext.symm.trans hthrows) (by simp)

/-- Either the frame is still to be sent after a run, or the run has passed the point where it was
sent and the read thread went back to its loop. -/
def Answered (cfg : Config) (frame : Frame) (t : Server) (ms : List Label) (u : Server) : Prop :=
  u.Sends cfg frame ∨
    ∃ ms₁ ms₂ v, ms = ms₁ ++ .sent frame :: ms₂ ∧ Run (Step cfg) t ms₁ v ∧ v.Sends cfg frame ∧
      Run (Step cfg) { v with reader := .loop } ms₂ u

/-- The other threads leave the read thread where it is. -/
lemma Server.Sends.step {frame : Frame} {text : Bytes} (hs : s.Sends cfg frame)
    (htext : frame.serialize cfg.nl = .ok text) (h : Step cfg s l s') :
    s'.Sends cfg frame ∨ (l = .sent frame ∧ s' = { s with reader := .loop }) := by
  cases h with
  | reader _ _ h => exact Or.inr (hs.only l s' h)
  | worker _ _ _ h =>
    rcases h.control with ⟨hreader, hthrew, -, hstate, -, -⟩
    refine Or.inl (sends_of_serialize (hreader.trans hs.sending) ?_ ?_ htext)
    · rw [hstate]
      exact hs.goesOn.1
    · rw [hthrew]
      exact hs.goesOn.2
  | sender _ h =>
    rcases h.frame with ⟨_, _, _, rfl⟩
    exact Or.inl (sends_of_serialize hs.sending hs.goesOn.1 hs.goesOn.2 htext)

lemma Server.Sends.answered {frame : Frame} {text : Bytes} {ms : List Label} {u : Server}
    (hs : s.Sends cfg frame) (htext : frame.serialize cfg.nl = .ok text)
    (h : Run (Step cfg) s ms u) : Answered cfg frame s ms u := by
  rcases h.until_step (P := fun t => t.Sends cfg frame)
    (Q := fun t l t' => l = .sent frame ∧ t' = { t with reader := .loop }) hs
    (fun _ _ _ ht hstep => ht.step htext hstep) with
    hsends | ⟨ms₁, _, ms₂, v, _, rfl, h₁, hv, ⟨rfl, rfl⟩, h₂⟩
  · exact Or.inl hsends
  · exact Or.inr ⟨ms₁, ms₂, v, rfl, h₁, hv, h₂⟩

/-! ## The result -/

/-- The body a step gives to `parseMessage`. -/
def Label.body? : Label → Option Bytes
  | .read _ body _ => some body
  | .parseThrew body _ => some body
  | _ => none

/-- The bodies the transport has returned in a run. -/
def bodiesOf (ls : List Label) : List Bytes :=
  ls.filterMap Label.body?

/-- What is expected of a run: no exception leaves `parseMessage`, and a body that does not parse
becomes a `ParseError` that is answered before the read thread goes on. -/
structure ReadsOn (cfg : Config) (ls : List Label) : Prop where
  contained : ∀ body e, .parseThrew body e ∉ ls
  answered : ∀ ls₁ ls₂ m body msg e t t', ls = ls₁ ++ .read m body msg :: ls₂ →
    cfg.nl.parse body = .error e → Runs cfg ls₁ t → Step cfg t (.read m body msg) t' →
    msg = .error .invalidJson ∧
      ∀ ms u, Run (Step cfg) t' ms u → Answered cfg .invalidJson t' ms u

lemma Step.parseThrew_inv {body : Bytes} {e : ParseException}
    (h : Step cfg s (.parseThrew body e) s') : parseMessage cfg.nl body = .error e := by
  rcases h.of_reader rfl with ⟨-, hreader⟩
  cases hreader with
  | parseThrows _ _ _ hparse => exact hparse
  | handler _ _ hstep | handlerFinishes _ hstep | handlerEscapes _ hstep => cases hstep

lemma Runs.parseThrew {body : Bytes} {e : ParseException} (h : Runs cfg ls s)
    (hmem : .parseThrew body e ∈ ls) :
    body ∈ bodiesOf ls ∧ cfg.nl.parse body = .error .outOfRange := by
  refine ⟨List.mem_filterMap.mpr ⟨_, hmem, rfl⟩, ?_⟩
  rcases List.append_of_mem hmem with ⟨ls₁, ls₂, rfl⟩
  rcases h.split_at with ⟨t, t', -, hstep, -⟩
  rcases parseMessage_eq_error_iff.mp hstep.parseThrew_inv with ⟨hparse, rfl⟩
  exact hparse

/-- A run reads on exactly when no body makes `json::parse` throw `out_of_range`. -/
theorem readsOn_iff (cfg : Config) (hnl : cfg.nl.Documented) (ls : List Label) (s : Server)
    (h : Runs cfg ls s) :
    ReadsOn cfg ls ↔ ∀ body ∈ bodiesOf ls, cfg.nl.parse body ≠ .error .outOfRange := by
  constructor
  · intro hreads body hbody hparse
    rcases List.mem_filterMap.mp hbody with ⟨l, hl, hlbody⟩
    cases l with
    | read m body' msg =>
      have hbody' : body' = body := Option.some.inj hlbody
      subst hbody'
      rcases List.append_of_mem hl with ⟨ls₁, ls₂, rfl⟩
      rcases h.split_at with ⟨t, t', -, hstep, -⟩
      -- the body was parsed, so it did not make `parse` throw
      have hthrows := parseMessage_eq_error_iff.mpr ⟨hparse, rfl⟩
      rw [hstep.read_inv.2.2.2.1] at hthrows
      exact absurd hthrows (by simp)
    | parseThrew body' e => exact hreads.contained body' e hl
    | _ => exact absurd hlbody (by simp [Label.body?])
  · intro hbodies
    refine ⟨?_, ?_⟩
    · intro body e hmem
      rcases Runs.parseThrew h hmem with ⟨hbody, hparse⟩
      exact hbodies body hbody hparse
    · intro ls₁ ls₂ m body msg e t t' _ hparse _ hstep
      rcases hstep.read_inv with ⟨-, hthrew, hexited, hmsg, rfl⟩
      have hinvalid := parseMessage_of_error hparse hmsg
      subst hinvalid
      refine ⟨rfl, ?_⟩
      -- the text of the error can be printed, so it is sent
      have hvalid : Frame.invalidJson.ValidUtf8 := valid_str _
      rcases hvalid.serialize hnl with ⟨text, htext⟩
      intro ms u hrun
      refine Server.Sends.answered ?_ htext hrun
      exact sends_of_serialize rfl hexited hthrew htext

/-- A server whose library knows one text, a number out of range. -/
def Session.overflow : Config where
  nl := .ofTable [(str "1e999", .error .outOfRange)]
  userRequests := []
  userNotifications := []
  workerThreads := 1

lemma Session.documented_overflow : Session.overflow.nl.Documented := by
  apply Nlohmann.documented_ofTable
  intro entry hentry j hj
  rw [List.mem_singleton.mp hentry] at hj
  exact absurd hj (by simp)

/-- A session in which a body that is no JSON is answered. -/
theorem readsOn_session :
    Reaches (Step Session.overflow) (Server.start Session.overflow) fun ls s =>
      s.reader = .loop ∧ bodiesOf ls = [str "\x7b"] ∧ .sent .invalidJson ∈ ls ∧
        ReadsOn Session.overflow ls := by
  have hrun : Reaches (Step Session.overflow) (Server.start Session.overflow) fun ls s =>
      s.reader = .loop ∧ bodiesOf ls = [str "\x7b"] ∧ ∃ l, ls = [l, .sent .invalidJson] := by
    apply Reaches.step (.reader rfl rfl (.read (str "\x7b") rfl (by decide) rfl))
    apply Reaches.step (.reader rfl rfl (.send rfl rfl))
    exact Reaches.here ⟨rfl, rfl, _, rfl⟩
  rcases hrun with ⟨ls, s, hrun, hreader, hbodies, l, rfl⟩
  refine ⟨_, s, hrun, hreader, hbodies, by simp, ?_⟩
  apply (readsOn_iff Session.overflow Session.documented_overflow _ s hrun).mpr
  intro body hbody
  rw [hbodies] at hbody
  have hsyntax : Session.overflow.nl.parse (str "\x7b") = .error .parseError := rfl
  rw [List.mem_singleton.mp hbody, hsyntax]
  simp

/-- The body `1e999` ends `run` by an exception. -/
theorem session_overflows :
    Session.overflow.nl.Documented ∧
      Reaches (Step Session.overflow) (Server.start Session.overflow) fun ls s =>
        s.threw = true ∧ bodiesOf ls = [str "1e999"] ∧ ¬ ReadsOn Session.overflow ls := by
  refine ⟨Session.documented_overflow, ?_⟩
  apply Reaches.step (.reader rfl rfl (.parseThrows (str "1e999") rfl (by decide) rfl))
  refine Reaches.here ⟨rfl, rfl, ?_⟩
  intro hreads
  exact hreads.contained (str "1e999") .outOfRange (by simp)

end CLSP
