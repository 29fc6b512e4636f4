import CLSP.Lib.Locked
import CLSP.Server.Ids
import CLSP.Stdio.Theorems

/-!
# The server over its streams

`sendFrame` writes a message piece by piece, under `sendMutex_`, while the other threads go on, and
the read thread gets its messages out of the bytes of an input stream. The streams carry whole
messages all the same.
-/

namespace CLSP

open Transition

/-! ## The threads -/

/-- The threads of the process: the read thread, the workers, and those that are in `sendRequest` or
`sendNotification`. -/
inductive Thread
  | reader
  | worker (executor : Executor) (w : ℕ)
  | sender (call : ℕ)
  | notifier
deriving DecidableEq

/-- A step of one thread. -/
inductive ThreadStep (cfg : Config) (s : Server) (l : Label) (s' : Server) : Thread → Prop
  | reader : s.terminated = false → s.threw = false → ReaderStep cfg s l s' →
      ThreadStep cfg s l s' .reader
  | worker (e : Executor) (w : ℕ) : s.terminated = false → WorkerStep cfg e w s l s' →
      ThreadStep cfg s l s' (.worker e w)
  | sender (call : ℕ) : s.terminated = false → SenderStep cfg s l s' →
      (∀ k ≠ call, s'.senders[k]? = s.senders[k]?) → ThreadStep cfg s l s' (.sender call)
  | notifier : s.terminated = false → SenderStep cfg s l s' → s' = s →
      ThreadStep cfg s l s' .notifier

lemma ThreadStep.step {cfg : Config} {s s' : Server} {l : Label} {t : Thread}
    (h : ThreadStep cfg s l s' t) : Step cfg s l s' := by
  cases h with
  | reader hlive hthrew h => exact .reader hlive hthrew h
  | worker e w hlive h => exact .worker e w hlive h
  | sender _ hlive h | notifier hlive h => exact .sender hlive h

/-- Every step of the process is one of a thread. -/
lemma Step.threadStep {cfg : Config} {s s' : Server} {l : Label} (h : Step cfg s l s') :
    ∃ t, ThreadStep cfg s l s' t := by
  cases h with
  | reader hlive hthrew h => exact ⟨_, .reader hlive hthrew h⟩
  | worker e w hlive h => exact ⟨_, .worker e w hlive h⟩
  | sender hlive h =>
    cases h with
    | issue method params cb hcb =>
      refine ⟨_, .sender s.senders.length hlive (.issue method params cb hcb) ?_⟩
      intro k hk
      show (s.senders ++ [_])[k]? = _
      rw [List.getElem?_append]
      split
      · rfl
      · rw [List.getElem?_eq_none (by simp; omega), List.getElem?_eq_none (by omega)]
    | register call hcall =>
      refine ⟨_, .sender call hlive (.register call hcall) ?_⟩
      exact fun k hk => List.getElem?_set_ne (Ne.symm hk)
    | send call hcall htext =>
      refine ⟨_, .sender call hlive (.send call hcall htext) ?_⟩
      exact fun k hk => List.getElem?_set_ne (Ne.symm hk)
    | sendThrows call hcall hwhat =>
      refine ⟨_, .sender call hlive (.sendThrows call hcall hwhat) ?_⟩
      exact fun k hk => List.getElem?_set_ne (Ne.symm hk)
    | notify htext => exact ⟨_, .notifier hlive (.notify htext) rfl⟩

/-! ## What goes in and out -/

/-- The bodies that a step sends. -/
def Label.texts (nl : Nlohmann) : Label → List Bytes
  | .sent frame =>
    match frame.serialize nl with
    | .ok text => [text]
    | .error _ => []
  | _ => []

/-- The bodies that a step gets from the transport. -/
def Label.bodies : Label → List Bytes
  | .read _ body _ => [body]
  | .parseThrew body _ => [body]
  | _ => []

/-- What a step writes to the output stream. -/
def Label.wire (nl : Nlohmann) (l : Label) : Option Bytes :=
  (l.texts nl).head?.map frame

lemma Label.mem_texts {nl : Nlohmann} {l : Label} {text : Bytes} :
    text ∈ l.texts nl ↔ ∃ frame, l = .sent frame ∧ frame.serialize nl = .ok text := by
  cases l with
  | sent frame =>
    show text ∈ (match frame.serialize nl with
      | .ok text => [text]
      | .error _ => []) ↔ _
    split
    · next text' htext =>
      rw [List.mem_singleton]
      constructor
      · rintro rfl
        exact ⟨frame, rfl, htext⟩
      · rintro ⟨frame', heq, hserialize⟩
        rw [← Label.sent.inj heq] at hserialize
        exact Except.ok.inj (hserialize.symm.trans htext)
    · next what hwhat =>
      constructor
      · exact fun hmem => absurd hmem (by simp)
      · rintro ⟨frame', heq, hserialize⟩
        rw [← Label.sent.inj heq] at hserialize
        exact absurd (hserialize.symm.trans hwhat) (by simp)
  | _ => simp [texts]

lemma Label.texts_length (nl : Nlohmann) (l : Label) : (l.texts nl).length ≤ 1 := by
  cases l with
  | sent frame =>
    show (match frame.serialize nl with
      | .ok text => [text]
      | .error _ => []).length ≤ 1
    split <;> simp
  | _ => simp [texts]

lemma Label.wire_getD (nl : Nlohmann) (l : Label) :
    (l.wire nl).getD [] = (l.texts nl).flatMap frame := by
  have hlength := l.texts_length nl
  unfold wire
  cases htexts : l.texts nl with
  | nil => rfl
  | cons text rest =>
    rw [htexts, List.length_cons] at hlength
    rw [List.length_eq_zero_iff.mp (by omega : rest.length = 0)]
    exact (List.append_nil _).symm

lemma writtenBy_wire (nl : Nlohmann) (ls : List Label) :
    Locked.writtenBy (Label.wire nl) ls = (ls.flatMap (Label.texts nl)).flatMap frame := by
  unfold Locked.writtenBy
  rw [List.flatMap_assoc]
  exact congrArg (fun f => ls.flatMap f) (funext fun l => l.wire_getD nl)

/-! ## Over the streams -/

/-- A step of a thread of the process whose transport reads from `in_`. The `length_error` of a
negative length leaves `run` like any exception. -/
inductive StdioStep (cfg : Config) : Thread → Server × IStream → Label → Server × IStream → Prop
  | own {t : Thread} {s s' : Server} {in_ : IStream} {l : Label} : l.bodies = [] →
      l ≠ .endOfInput → ThreadStep cfg s l s' t → StdioStep cfg t (s, in_) l (s', in_)
  | body {t : Thread} {s s' : Server} {in_ in' : IStream} {l : Label} {fuel : ℕ} {c : UInt8}
      {body : Bytes} : readMessage fuel c in_ = some (.body body, in') → l.bodies = [body] →
      ThreadStep cfg s l s' t → StdioStep cfg t (s, in_) l (s', in')
  | nullopt {t : Thread} {s s' : Server} {in_ in' : IStream} {fuel : ℕ} {c : UInt8} :
      readMessage fuel c in_ = some (.nullopt, in') → ThreadStep cfg s .endOfInput s' t →
      StdioStep cfg t (s, in_) .endOfInput (s', in')
  | threw {s : Server} {in_ in' : IStream} {fuel : ℕ} {c : UInt8} {e : StringError} :
      readMessage fuel c in_ = some (.threw e, in') → s.terminated = false → s.threw = false →
      s.reader = .loop → s.state_ ≠ .Exited →
      StdioStep cfg .reader (s, in_) .tau ({ s with threw := true }, in')

/-- The process over its two streams. -/
abbrev Wire := Locked.State Thread (Server × IStream) UInt8

abbrev WireEvent := Locked.Event Label UInt8

abbrev WireStep (cfg : Config) : Wire → WireEvent → Wire → Prop :=
  Locked.Step (StdioStep cfg) (fun s => s.1.terminated = false) (Label.wire cfg.nl)

/-- The runs of the process on an input. -/
abbrev WireRuns (cfg : Config) (input : Bytes) (es : List WireEvent) (w : Wire) : Prop :=
  Run (WireStep cfg) (.start (.start cfg, .ofBytes input)) es w

/-! ## The input -/

lemma returns_frame {body : Bytes} (hlen : body.length < 2 ^ 31) (rest : Bytes) :
    Returns (.ofBytes (frame body ++ rest)) (.body body) (.ofBytes rest) :=
  ⟨_, fun _ hfuel c => readMessage_frame hlen hfuel c rest⟩

/-- What is left of an input of framed messages: some of them, and what comes after. -/
def Unread (bodies : List Bytes) (trailing : Bytes) (in_ : IStream) : Prop :=
  in_ = .ofBytes (bodies.flatMap frame ++ trailing)

/-- A call that comes back has got the next message. -/
lemma Unread.read {bodies : List Bytes} {trailing : Bytes} {in_ in' : IStream} {fuel : ℕ}
    {c : UInt8} {r : ReadResult} (h : Unread bodies trailing in_)
    (hlen : ∀ b ∈ bodies, b.length < 2 ^ 31) (htrailing : ¬ crlfcrlf <:+: trailing)
    (hread : readMessage fuel c in_ = some (r, in')) :
    ∃ b rest, bodies = b :: rest ∧ r = .body b ∧ Unread rest trailing in' := by
  subst h
  cases bodies with
  | nil => exact absurd (hread.symm.trans (readMessage_eq_none htrailing fuel c)) (by simp)
  | cons b rest =>
    rw [List.flatMap_cons, List.append_assoc] at hread
    have hreturns := returns_frame (hlen b (by simp)) (rest.flatMap frame ++ trailing)
    rcases hreturns.eq hread with ⟨hr, hin⟩
    exact ⟨b, rest, rfl, hr, hin⟩

section Runs

variable {cfg : Config} {bodies : List Bytes} {trailing : Bytes}

lemma StdioStep.unread {t : Thread} {s s' : Server × IStream} {l : Label}
    (h : StdioStep cfg t s l s') {rest : List Bytes} (hlen : ∀ b ∈ rest, b.length < 2 ^ 31)
    (htrailing : ¬ crlfcrlf <:+: trailing) (hrest : Unread rest trailing s.2) :
    Step cfg s.1 l s'.1 ∧ l ≠ .endOfInput ∧
      ∃ rest', rest = l.bodies ++ rest' ∧ Unread rest' trailing s'.2 := by
  cases h with
  | own hquiet hgoes hstep => exact ⟨hstep.step, hgoes, rest, by rw [hquiet]; rfl, hrest⟩
  | body hread hbody hstep =>
    rcases hrest.read hlen htrailing hread with ⟨b, rest', rfl, hr, hrest'⟩
    refine ⟨hstep.step, ?_, rest', ?_, hrest'⟩
    · rintro rfl
      exact absurd hbody (by simp [Label.bodies])
    · rw [hbody, ReadResult.body.inj hr]
      rfl
  | nullopt hread _ =>
    rcases hrest.read hlen htrailing hread with ⟨_, _, _, hr, _⟩
    exact absurd hr (by simp)
  | threw hread =>
    rcases hrest.read hlen htrailing hread with ⟨_, _, _, hr, _⟩
    exact absurd hr (by simp)

/-- The server behaves as over an abstract transport, and gets what was framed. -/
lemma WireRuns.unread {es : List WireEvent} {w : Wire} (hlen : ∀ b ∈ bodies, b.length < 2 ^ 31)
    (htrailing : ¬ crlfcrlf <:+: trailing)
    (h : WireRuns cfg (bodies.flatMap frame ++ trailing) es w) :
    Runs cfg (Locked.moves es) w.inner.1 ∧ .endOfInput ∉ Locked.moves es ∧
      ∃ rest, bodies = (Locked.moves es).flatMap Label.bodies ++ rest ∧
        Unread rest trailing w.inner.2 := by
  have hrun := Locked.run_inner h
  generalize Locked.moves es = ls at hrun
  generalize w.inner = u at hrun
  induction hrun with
  | nil => exact ⟨.nil, List.not_mem_nil, bodies, rfl, rfl⟩
  | snoc _ hstep ih =>
    rcases ih with ⟨hrun, hgoes, rest, rfl, hrest⟩
    rcases hstep with ⟨t, hstep⟩
    have hlen' : ∀ b ∈ rest, b.length < 2 ^ 31 := fun b hb =>
      hlen b (List.mem_append_right _ hb)
    rcases hstep.unread hlen' htrailing hrest with ⟨hmove, hl, rest', rfl, hrest'⟩
    refine ⟨hrun.snoc hmove, ?_, rest', ?_, hrest'⟩
    · rw [List.mem_append, List.mem_singleton]
      rintro (hmem | hmem)
      · exact hgoes hmem
      · exact hl hmem.symm
    · rw [List.flatMap_append, List.flatMap_singleton, List.append_assoc]

/-! ## What the streams allow -/

/-- What is sent has been printed, and the process goes on. -/
lemma Step.sent_printed {frame : Frame} {s s' : Server} (h : Step cfg s (.sent frame) s') :
    (∃ text, frame.serialize cfg.nl = .ok text) ∧ s'.terminated = false := by
  cases h with
  | reader hlive _ h =>
    cases h with
    | send _ htext => exact ⟨⟨_, htext⟩, hlive⟩
    | handler _ _ hstep | handlerEscapes _ hstep => cases hstep
    | handlerFinishes _ hstep =>
      cases hstep with
      | send htext => exact ⟨⟨_, htext⟩, hlive⟩
  | worker e w hlive h =>
    cases h with
    | handler _ hstep | handlerEscapes _ hstep => cases hstep
    | notification _ hstep | notificationFinishes _ hstep | notificationEscapes _ hstep =>
      cases hstep
    | callbackFinishes _ hstep | callbackEscapes _ hstep => cases hstep
    | handlerFinishes _ hstep =>
      rw [Server.setPool_terminated]
      cases hstep with
      | send htext => exact ⟨⟨_, htext⟩, hlive⟩
  | sender hlive h =>
    cases h with
    | send _ _ htext | notify htext => exact ⟨⟨_, htext⟩, hlive⟩

lemma StdioStep.live_of_wire {t : Thread} {s s' : Server × IStream} {l : Label}
    (h : StdioStep cfg t s l s') (hwire : l.wire cfg.nl ≠ none) : s'.1.terminated = false := by
  have hsent : ∃ frame, l = .sent frame := by
    cases l with
    | sent frame => exact ⟨frame, rfl⟩
    | _ => exact absurd rfl hwire
  rcases hsent with ⟨frame, rfl⟩
  cases h with
  | own _ _ hstep => exact hstep.step.sent_printed.2
  | body _ hbody _ => exact absurd hbody (by simp [Label.bodies])

/-- A step that reads or does not, over a stream that holds what it reads. -/
lemma Step.stdioStep {s s' : Server} {l : Label} (h : Step cfg s l s') (hgoes : l ≠ .endOfInput)
    (hlen : ∀ b ∈ l.bodies, b.length < 2 ^ 31) (rest : Bytes) :
    ∃ t, StdioStep cfg t (s, .ofBytes (l.bodies.flatMap frame ++ rest)) l
      (s', .ofBytes rest) := by
  rcases h.threadStep with ⟨t, hstep⟩
  have hbodies : l.bodies = [] ∨ ∃ body, l.bodies = [body] := by
    cases l with
    | read _ body => exact Or.inr ⟨body, rfl⟩
    | parseThrew body => exact Or.inr ⟨body, rfl⟩
    | _ => exact Or.inl rfl
  rcases hbodies with hquiet | ⟨body, hbody⟩
  · rw [hquiet]
    exact ⟨t, .own hquiet hgoes hstep⟩
  · rw [hbody, List.flatMap_singleton]
    have hread := readMessage_frame (hlen body (by simp [hbody])) (le_refl _) 0 rest
    exact ⟨t, .body hread hbody hstep⟩

/-- Whatever the server can do over an abstract transport, it can do over its streams. -/
lemma Runs.exists_wire {ls : List Label} {s : Server} (h : Runs cfg ls s)
    (hgoes : .endOfInput ∉ ls) (hlen : ∀ b ∈ ls.flatMap Label.bodies, b.length < 2 ^ 31)
    (rest : Bytes) :
    ∃ es, WireRuns cfg ((ls.flatMap Label.bodies).flatMap frame ++ rest) es
      (.start (s, .ofBytes rest)) ∧ Locked.moves es = ls := by
  -- each write in one piece, so it is enough to read the messages one by one
  refine Locked.exists_run (fun hstep => hstep.live_of_wire) ?_
  induction h generalizing rest with
  | nil => exact .nil
  | @snoc ls t u l _ hstep ih =>
    rw [List.mem_append, not_or, List.mem_singleton] at hgoes
    rw [List.flatMap_append, List.flatMap_singleton] at hlen ⊢
    rw [List.flatMap_append, List.append_assoc]
    have hbefore := ih hgoes.1 (fun b hb => hlen b (List.mem_append_left _ hb))
      (l.bodies.flatMap frame ++ rest)
    refine hbefore.snoc (hstep.stdioStep (fun hl => hgoes.2 hl.symm) ?_ rest)
    exact fun b hb => hlen b (List.mem_append_right _ hb)

/-! ## The output -/

/-- The messages that have been sent. -/
def sentTexts (nl : Nlohmann) (ls : List Label) : List Bytes :=
  ls.flatMap (Label.texts nl)

lemma Label.texts_of_wire {nl : Nlohmann} {l : Label} {bytes : Bytes}
    (h : l.wire nl = some bytes) : ∃ text, l.texts nl = [text] ∧ bytes = frame text := by
  have hlength := l.texts_length nl
  unfold Label.wire at h
  cases htexts : l.texts nl with
  | nil =>
    rw [htexts] at h
    exact absurd h (by simp)
  | cons text rest =>
    rw [htexts, List.length_cons] at hlength
    rw [htexts] at h
    refine ⟨text, ?_, (Option.some.inj h).symm⟩
    rw [List.length_eq_zero_iff.mp (by omega : rest.length = 0)]

lemma Label.texts_of_quiet {nl : Nlohmann} {l : Label} (h : l.wire nl = none) :
    l.texts nl = [] := by
  unfold Label.wire at h
  rw [Option.map_eq_none_iff] at h
  exact List.head?_eq_none_iff.mp h

/-- The output is whole messages, up to the one that is being written. -/
lemma WireRuns.output {input : Bytes} {es : List WireEvent} {w : Wire}
    (h : WireRuns cfg input es w) :
    (w.holder = none ∧ Locked.output es = (sentTexts cfg.nl (Locked.moves es)).flatMap frame) ∨
      ∃ done text now rest, sentTexts cfg.nl (Locked.moves es) = done ++ [text] ∧
        Locked.output es = done.flatMap frame ++ now ∧ frame text = now ++ rest ∧
        w.pending = rest := by
  cases hholder : w.holder with
  | none =>
    have houtput := Locked.run_output h rfl
    rw [Locked.State.pending, hholder, writtenBy_wire] at houtput
    exact Or.inl ⟨rfl, (List.append_nil _).symm.trans houtput⟩
  | some held =>
    rcases held with ⟨t, rest⟩
    rcases Locked.run_holder h rfl hholder with ⟨ls₁, l, ls₂, now, hmoves, hquiet, hwrites, hout⟩
    rcases Label.texts_of_wire hwrites with ⟨text, htexts, htext⟩
    -- nobody else has sent since that thread took the lock
    have hnone : ls₂.flatMap (Label.texts cfg.nl) = [] :=
      List.flatMap_eq_nil_iff.mpr fun l' hmem => Label.texts_of_quiet (hquiet l' hmem)
    refine Or.inr ⟨sentTexts cfg.nl ls₁, text, now, rest, ?_, ?_, htext.symm, ?_⟩
    · rw [sentTexts, hmoves, List.flatMap_append, List.flatMap_cons, htexts, hnone]
      rfl
    · rw [hout, writtenBy_wire]
      rfl
    · rw [Locked.State.pending, hholder]
      rfl

/-! ## The result -/

/-- What is expected of a server over its streams, whose client frames the messages `bodies`. -/
structure WholeMessages (cfg : Config) (bodies : List Bytes) (es : List WireEvent) (w : Wire) :
    Prop where
  /-- It runs as over a transport that takes and gives whole messages. -/
  runs : Runs cfg (Locked.moves es) w.inner.1
  /-- It gets the messages of the client, in order. -/
  input : (Locked.moves es).flatMap Label.bodies <+: bodies
  /-- The client gets the messages of the server, in order: all of them, or all but the last one
  when a thread is still writing that one. -/
  output : ∃ done part, Locked.output es = done.flatMap frame ++ part ∧
    (done = sentTexts cfg.nl (Locked.moves es) ∧ part = [] ∨
      ∃ text, sentTexts cfg.nl (Locked.moves es) = done ++ [text] ∧
        frame text = part ++ w.pending) ∧
    ((∀ text ∈ done, text.length < 2 ^ 31) → ∀ cs : List UInt8, cs.length = done.length →
      ∃ fuel₀, ∀ fuel ≥ fuel₀, readMessages fuel cs (.ofBytes (Locked.output es)) =
        some (done.map .body, .ofBytes part))
  /-- A thread that is writing can go on until it gives the lock back. -/
  released : ∀ t rest, w.holder = some (t, rest) → w.inner.1.terminated = false →
    Run (WireStep cfg) w [.wrote rest, .released] { w with holder := none }

/-- **Whole messages** go in and out, however the threads take turns and in whatever pieces a
message is written. -/
theorem whole_messages (cfg : Config) (bodies : List Bytes) (trailing : Bytes)
    (hlen : ∀ b ∈ bodies, b.length < 2 ^ 31) (htrailing : ¬ crlfcrlf <:+: trailing)
    (es : List WireEvent) (w : Wire)
    (h : WireRuns cfg (bodies.flatMap frame ++ trailing) es w) : WholeMessages cfg bodies es w := by
  rcases WireRuns.unread hlen htrailing h with ⟨hrun, -, rest, hrest, -⟩
  have hclient : ∀ (done : List Bytes) (part : Bytes),
      Locked.output es = done.flatMap frame ++ part →
      (∀ text ∈ done, text.length < 2 ^ 31) → ∀ cs : List UInt8, cs.length = done.length →
      ∃ fuel₀, ∀ fuel ≥ fuel₀, readMessages fuel cs (.ofBytes (Locked.output es)) =
        some (done.map .body, .ofBytes part) := by
    intro done part hout htexts cs hcs
    refine ⟨(done.flatMap frame).length, fun fuel hfuel => ?_⟩
    rw [hout]
    exact readMessages_frames htexts hcs hfuel part
  refine ⟨hrun, ⟨rest, hrest.symm⟩, ?_, fun t rest hholder hlive =>
    Locked.exists_release hlive hholder⟩
  rcases WireRuns.output h with ⟨-, hout⟩ | ⟨done, text, now, rest, hsent, hout, htext, hpending⟩
  · rw [← List.append_nil ((sentTexts cfg.nl (Locked.moves es)).flatMap frame)] at hout
    exact ⟨_, [], hout, Or.inl ⟨rfl, rfl⟩, hclient _ _ hout⟩
  · rw [← hpending] at htext
    exact ⟨done, now, hout, Or.inr ⟨text, hsent, htext⟩, hclient _ _ hout⟩

/-- **The streams are transparent.** What a server does over the bytes of its input is what it does
when it is given the messages one by one, some first ones of those that are framed there: nothing is
lost to the framing and the lock, and nothing else becomes possible. -/
theorem streams_transparent (cfg : Config) (bodies : List Bytes) (trailing : Bytes)
    (hlen : ∀ b ∈ bodies, b.length < 2 ^ 31) (htrailing : ¬ crlfcrlf <:+: trailing)
    (ls : List Label) (s : Server) :
    (∃ es w, WireRuns cfg (bodies.flatMap frame ++ trailing) es w ∧ Locked.moves es = ls ∧
        w.inner.1 = s) ↔
      Runs cfg ls s ∧ .endOfInput ∉ ls ∧ ls.flatMap Label.bodies <+: bodies := by
  constructor
  · rintro ⟨es, w, h, rfl, rfl⟩
    rcases WireRuns.unread hlen htrailing h with ⟨hrun, hgoes, rest, hrest, -⟩
    exact ⟨hrun, hgoes, rest, hrest.symm⟩
  · rintro ⟨hrun, hgoes, rest, rfl⟩
    have hread : ∀ b ∈ ls.flatMap Label.bodies, b.length < 2 ^ 31 := fun b hb =>
      hlen b (List.mem_append_left _ hb)
    rcases Runs.exists_wire hrun hgoes hread (rest.flatMap frame ++ trailing) with ⟨es, h, hmoves⟩
    rw [List.flatMap_append, List.append_assoc]
    exact ⟨es, _, h, hmoves, rfl⟩

end Runs

/-- The first request and its answer, over the streams. -/
theorem streams_transparent_session :
    ∃ es w, WireRuns Session.config ([Session.initializeRequest.json.print].flatMap frame ++ []) es
      w ∧ Locked.moves es = Session.handshake ∧ w.inner.1 = Session.greeted := by
  have hlen : ∀ b ∈ [Session.initializeRequest.json.print], b.length < 2 ^ 31 := by
    intro b hb
    rw [List.mem_singleton.mp hb]
    decide
  refine (streams_transparent Session.config _ [] hlen (by decide) _ _).mpr
    ⟨Session.runs_handshake, ?_, List.prefix_refl _⟩
  simp [Session.handshake]

/-- A session in which the answer to `initialize` is being written. -/
theorem whole_messages_session :
    ∃ es w, w.holder.isSome = true ∧ contentLengthKey <+: Locked.output es ∧
      WholeMessages Session.config [Session.initializeRequest.json.print] es w := by
  have hlen : ∀ b ∈ [Session.initializeRequest.json.print], b.length < 2 ^ 31 := by
    intro b hb
    rw [List.mem_singleton.mp hb]
    decide
  have hinput : ∃ fuel, readMessage fuel 0
      (.ofBytes ([Session.initializeRequest.json.print].flatMap frame ++ [])) =
        some (.body Session.initializeRequest.json.print, .ofBytes []) := by
    rw [List.flatMap_singleton]
    exact ⟨_, readMessage_frame (hlen _ (by simp)) (le_refl _) 0 []⟩
  rcases hinput with ⟨fuel, hinput⟩
  have hrun : Reaches (WireStep Session.config) (.start (.start Session.config,
      .ofBytes ([Session.initializeRequest.json.print].flatMap frame ++ []))) fun es w =>
      w.holder.isSome = true ∧ contentLengthKey <+: Locked.output es := by
    apply Reaches.step (.free (by simp [Locked.State.start]) rfl (.body hinput rfl (.reader rfl rfl
      (.read Session.initializeRequest.json.print rfl (by decide) rfl))))
    apply Reaches.step (.free (by simp [Locked.State.start]) rfl (.own rfl (by simp)
      (.reader rfl rfl (.handler ⟨none, none⟩ rfl (.start rfl)))))
    apply Reaches.step (.free (by simp [Locked.State.start]) rfl (.own rfl (by simp)
      (.reader rfl rfl (.handler ⟨none, none⟩ rfl (.returns .null)))))
    apply Reaches.step (.acquire rfl rfl (.own rfl (by simp) (.reader rfl rfl
      (.handlerFinishes rfl (.send rfl)))))
    apply Reaches.step (.write rfl rfl)
    exact Reaches.here ⟨rfl, _, rfl⟩
  rcases hrun with ⟨es, w, hrun, hholder, hout⟩
  exact ⟨es, w, hholder, hout, whole_messages Session.config _ [] hlen (by decide) es w hrun⟩

end CLSP
