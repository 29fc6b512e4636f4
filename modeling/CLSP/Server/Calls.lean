import CLSP.Server.Liveness
import CLSP.Server.Messages

/-!
# Remote calls come back

Two servers call each other. As long as both serve, the user's code returns and the scheduler is
fair, each request that is sent arrives, is answered, and the callback of the call is called.
-/

namespace CLSP

open Channel Transition

/-- The process runs, and `run` is in its loop. -/
def Server.Serves (s : Server) : Prop :=
  s.terminated = false ∧ s.threw = false ∧ s.state_ ≠ .Exited ∧
    (s.reader = .loop ∨ s.reader.active = true)

/-- The steps of two servers, each with its thread. -/
abbrev PeersThreads (cfg : End → Config) :
    Linked Server Bytes → End × Thread × Label → Linked Server Bytes → Prop :=
  LinkStep (fun d => Threads (cfg d)) (fun d l => l.2.texts (cfg d).nl)
    (FromFront fun l => l.2.bodies)

section Receiving

variable {cfg : Config} {s s' : Server} {l : Label}

/-! ## A server that serves reads what comes -/

lemma ReaderPc.work_le (pc : ReaderPc) : pc.work ≤ 4 := by
  cases pc with
  | inline _ pc =>
    cases pc with
    | responding _ caught => cases caught <;> simp [ReaderPc.work, HandlerPc.work]
    | _ => simp [ReaderPc.work, HandlerPc.work]
  | _ => simp [ReaderPc.work]

lemma ReaderPc.active_of_work {pc : ReaderPc} (h : pc.work ≠ 0)
    (hpc : pc = .loop ∨ pc.active = true) : pc.active = true := by
  rcases hpc with rfl | hpc
  · exact absurd rfl h
  · exact hpc

lemma ReaderPc.eq_loop_of_work {pc : ReaderPc} (h : pc.work = 0) : pc = .loop := by
  cases pc with
  | loop => rfl
  | inline _ pc =>
    have hpos := pc.work_pos
    exact absurd h hpos.ne'
  | _ => exact absurd h (by simp [ReaderPc.work])

lemma Label.bodies_of_promised (h : l.promised = true) : l.bodies = [] := by
  cases l with
  | read | parseThrew => exact absurd h (by simp [Label.promised])
  | _ => rfl

/-- The read thread reads a message, or has less to do until it is back in its loop. -/
lemma ReaderStep.gets_ready (h : ReaderStep cfg s l s') (hs : s.Serves) (hs' : s'.Serves) :
    l.bodies = [] ∧ s'.reader.work + l.promised.toNat ≤ s.reader.work ∨
      ∃ body, l.bodies = [body] := by
  have hle := Bool.toNat_le l.promised
  cases h with
  | read body => exact Or.inr ⟨body, rfl⟩
  | parseThrows body => exact Or.inr ⟨body, rfl⟩
  | endOfInput => exact absurd hs'.2.2.2 (by simp [ReaderPc.active])
  | leave _ hexited => exact absurd hexited hs.2.2.1
  | stop hr | joinSync hr | joinWorkers hr =>
    exact absurd hs.2.2.2 (by simp [hr, ReaderPc.active])
  | sendThrows | handlerEscapes | notifyEscapes | exitThrows => exact absurd hs'.2.1 (by simp)
  | @handler call pc pc' l capabilities hr hstep =>
    have hwork := hstep.work
    left
    rw [hr]
    refine ⟨?_, hwork⟩
    cases hstep with
    | _ => rfl
  | @handlerFinishes call pc l hr hstep =>
    have hpos := pc.work_pos
    left
    rw [hr]
    refine ⟨?_, ?_⟩
    · cases hstep with
      | send => rfl
    · show 0 + _ ≤ pc.work
      omega
  | send hr | insertToken hr | submit hr | cancel hr | notified hr | exited hr | unmatched hr
  | matched hr =>
    left
    rw [hr]
    exact ⟨rfl, by simp [ReaderPc.work, Label.promised]⟩

lemma Label.bodies_of_ofReader (h : l.ofReader = false) : l.bodies = [] := by
  cases l with
  | read | parseThrew => exact absurd h (by simp [Label.ofReader])
  | _ => rfl

lemma ThreadStep.bodies_of_ne {t : Thread} (h : ThreadStep cfg s l s' t) (ht : t ≠ .reader) :
    l.bodies = [] := by
  cases h with
  | reader => exact absurd rfl ht
  | worker _ _ _ h => exact Label.bodies_of_ofReader h.label.1
  | sender _ _ h | notifier _ h => exact Label.bodies_of_ofReader h.label

/-- A server as the receiver of its messages. -/
def Server.receiver (cfg : Config) :
    Receiver (Threads cfg) (fun l : Thread × Label => l.2.bodies) where
  up := Server.Serves
  left s := s.reader.work
  bound := 4
  own := Thread.reader.Own
  own_quiet := by
    rintro s ⟨t, l⟩ s' ⟨-, -, hl⟩
    exact Label.bodies_of_promised hl
  own_enabled := by
    rintro s ⟨hlive, hthrew, -, hreader⟩ hwork
    exact ReaderStep.enabled hlive hthrew (ReaderPc.active_of_work hwork hreader)
  ready := by
    rintro s body ⟨hlive, hthrew, hstate, -⟩ hwork
    have hloop := ReaderPc.eq_loop_of_work hwork
    cases hparse : parseMessage cfg.nl body with
    | ok msg => exact ⟨(.reader, _), _, rfl, .reader hlive hthrew (.read body hloop hstate hparse)⟩
    | error e =>
      exact ⟨(.reader, _), _, rfl, .reader hlive hthrew (.parseThrows body hloop hstate hparse)⟩
  steps := by
    rintro s ⟨t, l⟩ s' hs hstep hs'
    have hbound := s'.reader.work_le
    by_cases ht : t = .reader
    · subst ht
      cases hstep with
      | reader _ _ hstep =>
        rcases hstep.gets_ready hs hs' with ⟨hquiet, hwork⟩ | hread
        · refine Or.inl ⟨hquiet, ?_⟩
          rcases (Nat.le_of_add_right_le hwork).lt_or_eq with hlt | heq
          · exact Or.inl hlt
          · refine Or.inr ⟨heq, fun hown => ?_⟩
            rw [hown.2.2, heq] at hwork
            exact absurd hwork (Nat.not_succ_le_self _)
        · exact Or.inr ⟨hread, hbound⟩
    · refine Or.inl ⟨hstep.bodies_of_ne ht, Or.inr ⟨?_, fun hown => ht hown.1⟩⟩
      rw [(hstep.reader_of_ne ht).1]

/-- The read thread looks up the response it has read. -/
lemma goesOn_responding (resp : ParsedResponse) (id : Int32) :
    GoesOn cfg (· = .responding resp id) fun l _ => ∃ found, l = .responseTaken resp id found := by
  intro s l s' hstep hr _
  cases hstep with
  | unmatched hr' | matched hr' =>
    rcases ReaderPc.responding.inj (hr'.symm.trans hr) with ⟨rfl, rfl⟩
    exact Or.inr ⟨⟨_, rfl⟩, rfl⟩
  | read _ hr' | parseThrows _ hr' | endOfInput hr' | leave hr' | send hr' | sendThrows hr'
  | handler _ hr' | handlerFinishes hr' | handlerEscapes hr' | insertToken hr' | submit hr'
  | cancel hr' | notified hr' | notifyEscapes hr' | exited hr' | exitThrows _ hr' | stop hr'
  | joinSync hr' | joinWorkers hr' => exact absurd (hr'.symm.trans hr) (by simp)

end Receiving

/-! ## From the call to its callback -/

section Calls

variable {cfg : End → Config} {x : Execution (PeersThreads cfg)} {d : End} {n : ℕ}

/-- What the two ends have done before time `n`. -/
def exchanged (x : Execution (PeersThreads cfg)) (n : ℕ) : List (End × Label) :=
  (x.history n).map fun e => (e.2.1, e.2.2.2)

lemma exchanged_runs (hstart : x.state 0 = .start fun d => .start (cfg d)) (n : ℕ) :
    PeersRuns cfg (exchanged x n) (x.state n) := by
  have hrun : Run (PeersStep cfg) (x.state 0) (exchanged x n) (x.state n) := by
    refine (x.history_run n).relabel (fun e => (e.2.1, e.2.2.2)) ?_
    rintro p ⟨_, d, t, l⟩ q ⟨hstep⟩
    cases hstep with
    | intro _ hstep hfront => exact .intro d hstep.step hfront
  rwa [hstart] at hrun

lemma mem_exchanged {k : ℕ} {t : Thread} {l : Label} (hl : x.label k = some (d, t, l))
    (h : k < n) : (d, l) ∈ exchanged x n :=
  List.mem_map.mpr ⟨(x.state k, d, t, l), x.mem_history.mpr ⟨k, h, hl, rfl⟩, rfl⟩

/-- What two servers that call each other may count on: each thread gets its turn, the user's code
returns at both ends, the bytes in the pipes are delivered, and each end parses what the other
prints. -/
structure Connected (x : Execution (PeersThreads cfg)) : Prop where
  start : x.state 0 = .start fun d => .start (cfg d)
  scheduled : ∀ d (t : Thread), x.Fair (AtEnd d t.Scheduled)
  returns : ∀ d, UserCodeReturns (sideOf x d)
  delivers : ∀ d, x.Fair (AtEnd d (Receives fun l : Thread × Label => l.2.bodies))
  understood : ∀ n, Understood cfg (exchanged x n)

/-- One of the servers does not serve any more. -/
def Stopped (p : Linked Server Bytes) : Prop :=
  ∃ d, ¬ (p.ends d).Serves

lemma Thread.Own.bodies {s s' : Server} {t : Thread} {l : Thread × Label} (h : t.Own s l s') :
    l.2.bodies = [] :=
  Label.bodies_of_promised h.2.2

lemma Connected.side (h : Connected x) (d : End) :
    (sideOf x d).state 0 = .start (cfg d) ∧ ∀ t : Thread, (sideOf x d).Fair t.Own := by
  refine ⟨?_, fun t => ?_⟩
  · show (x.state 0).ends d = _
    rw [h.start]
    rfl
  · have hscheduled : (sideOf x d).Fair t.Scheduled :=
      (fair_atEnd_iff fun _ _ _ hown => hown.1.bodies).mp (h.scheduled d t)
    exact fair_of_scheduled hscheduled (h.returns d)

lemma Connected.fair (h : Connected x) (d : End) (t : Thread) : x.Fair (AtEnd d t.Own) :=
  (fair_atEnd_iff fun _ _ _ hown => hown.bodies).mpr ((h.side d).2 t)

/-- A frame that is sent is read at the other end as what it is. -/
lemma Connected.arrives (h : Connected x) {t : Thread} {frame : Frame}
    (hl : x.label n = some (d, t, .sent frame)) :
    ∃ k > n, Stopped (x.state k) ∨
      ∃ m body, x.label k = some (d.other, .reader, .read m body frame.parsed) := by
  have hsent := x.steps n _ hl
  rcases hsent.of_end.1.step.sent_printed.1 with ⟨text, htext⟩
  have hflight : text ∈ (x.state (n + 1)).inFlight d.other := by
    rw [(hsent.of_other (End.ne_other d)).2]
    exact List.mem_append_right _ (Label.mem_texts.mpr ⟨frame, rfl, htext⟩)
  by_cases hserves : ((x.state (n + 1)).ends d.other).Serves
  swap
  · exact ⟨n + 1, Nat.lt_succ_self n, Or.inl ⟨_, hserves⟩⟩
  rcases delivered (Server.receiver (cfg d.other)) (h.fair _ _) (h.delivers _) hserves hflight with
    ⟨k, hk, hstopped | ⟨⟨t', l⟩, hlabel, hbody⟩⟩
  · exact ⟨k + 1, by omega, Or.inl ⟨_, hstopped⟩⟩
  · have hstep := (x.steps k _ hlabel).of_end.1
    obtain rfl : t' = .reader := by
      by_contra ht
      exact absurd (hstep.bodies_of_ne ht) (by simp [hbody])
    -- only the read thread takes what comes, and it reads what has been printed
    have hparse := h.understood _ d frame text (mem_exchanged hl (Nat.lt_succ_self n)) htext
    have hparsed := parseMessage_of_parse hparse
    rw [classify_json] at hparsed
    cases l with
    | read m body msg =>
      obtain rfl := (List.cons.inj hbody).1
      have hmsg := hstep.step.read_inv.2.2.2.1
      rw [hparsed] at hmsg
      rw [← Except.ok.inj hmsg] at hlabel
      exact ⟨k, by omega, Or.inr ⟨m, body, hlabel⟩⟩
    | parseThrew body e =>
      obtain rfl := (List.cons.inj hbody).1
      exact absurd (hstep.step.parseThrew_inv.symm.trans hparsed) (by simp)
    | _ => exact absurd hbody (by simp [Label.bodies])

/-- A request that is sent is answered. -/
lemma Connected.answered (h : Connected x) {t : Thread} {id : Int32} {method : Bytes}
    {params : Json} (hl : x.label n = some (d, t, .sent (.request id method params))) :
    ∃ k > n, Stopped (x.state k) ∨ ∃ t' frame, frame.answers = some (.int id) ∧
      x.label k = some (d.other, t', .sent frame) := by
  rcases h.arrives hl with ⟨k, hk, hstopped | ⟨m, body, hread⟩⟩
  · exact ⟨k, hk, Or.inl hstopped⟩
  rcases h.side d.other with ⟨hstart, hfair⟩
  rcases request_served hstart hfair (sideOf_label.mpr hread) with ⟨k', hk', hfailed | hreplied⟩
  · refine ⟨k' + 1, by omega, Or.inl ⟨d.other, ?_⟩⟩
    rintro ⟨hlive, hthrew, -⟩
    rcases hfailed with hdead | ⟨hthrew', -⟩
    · exact absurd (hdead.symm.trans hlive) (by simp)
    · exact absurd (hthrew'.symm.trans hthrew) (by simp)
  · rcases hreplied with ⟨l, hlabel, hreplied⟩
    have hlabel := sideOf_label.mp hlabel
    cases hreplied with
    | byReader hanswers => exact ⟨k', by omega, Or.inr ⟨_, _, hanswers, hlabel⟩⟩
    | byWorker hanswers => exact ⟨k', by omega, Or.inr ⟨_, _, hanswers, hlabel⟩⟩

/-- A frame that answers is parsed as a response with its id. -/
lemma Frame.parsed_of_answers {frame : Frame} {id : RequestId} (h : frame.answers = some id) :
    ∃ resp : ParsedResponse, frame.parsed = .response resp ∧ resp.id = id := by
  cases frame with
  | result | error => exact ⟨_, rfl, Option.some.inj h⟩
  | _ => exact absurd h (by simp [Frame.answers])

/-- A response that is read is passed to the callback of its call. -/
lemma Connected.called (h : Connected x)
    (hcalls : ∀ n, ((x.state n).ends d).senders.length < 2 ^ 32) {m : ℕ} {body : Bytes}
    {resp : ParsedResponse} {id : Int32} (hid : resp.id = .int id)
    (hl : x.label n = some (d, .reader, .read m body (.response resp))) :
    ∃ k > n, Stopped (x.state k) ∨ ∃ call t, id = callId call ∧
      x.label k = some (d, t, .callbackInvoked call resp.payload resp.isError) := by
  rcases h.side d with ⟨hstart, hfair⟩
  rcases ReaderStep.read_live (sideOf_label.mpr hl) with ⟨hlive, hthrew, -, hnext⟩
  have hpc : ((sideOf x d).state (n + 1)).reader = .responding resp id := by
    rw [hnext]
    show handleResponse resp = _
    rw [handleResponse, hid]
  have hreading : ((sideOf x d).state (n + 1)).Reading (· = .responding resp id) _ _ :=
    ⟨hlive, hthrew, rfl, hpc, rfl⟩
  rcases reader_serves (sideOf x d) (hfair _) (by simp [ReaderPc.active])
    (goesOn_responding resp id) hreading with ⟨k, hk, hdead | ⟨_, htaken, ⟨found, rfl⟩, -⟩⟩
  · refine ⟨k + 1, by omega, Or.inl ⟨d, fun hserves => ?_⟩⟩
    exact absurd (hdead.symm.trans hserves.1) (by simp)
  have hmem := mem_exchanged (sideOf_label.mp htaken) (Nat.lt_succ_self k)
  -- the response belongs to a call that has registered
  rcases (exchanged_runs h.start _).found_of_taken (h.understood _) (hcalls _) hmem with
    ⟨cb, rfl, rfl⟩
  rcases response_served hstart hfair htaken with ⟨k', hk', hdead | ⟨w, hcalled⟩⟩
  · refine ⟨k' + 1, by omega, Or.inl ⟨d, fun hserves => ?_⟩⟩
    exact absurd (hdead.symm.trans hserves.1) (by simp)
  · exact ⟨k', by omega, Or.inr ⟨cb.call, _, rfl, sideOf_label.mp hcalled⟩⟩

/-- **Remote calls come back.** When one of two servers has sent the request of a call, the callback
of the call is called, unless a server stops serving. -/
theorem remote_calls_return (cfg : End → Config) (x : Execution (PeersThreads cfg))
    (h : Connected x) (d : End) (hcalls : ∀ n, ((x.state n).ends d).senders.length < 2 ^ 32) (n : ℕ)
    (t : Thread) (id : Int32) (method : Bytes) (params : Json)
    (hsent : x.label n = some (d, t, .sent (.request id method params))) :
    ∃ m > n, Stopped (x.state m) ∨ ∃ call t' payload isError, id = callId call ∧
      x.label m = some (d, t', .callbackInvoked call payload isError) := by
  -- the request is answered, the answer arrives, and the callback is called
  rcases h.answered hsent with ⟨k₁, hk₁, hstopped | ⟨t₁, frame, hanswers, hanswer⟩⟩
  · exact ⟨k₁, hk₁, Or.inl hstopped⟩
  rcases Frame.parsed_of_answers hanswers with ⟨resp, hparsed, hid⟩
  rcases h.arrives hanswer with ⟨k₂, hk₂, hstopped | ⟨m, body, hread⟩⟩
  · exact ⟨k₂, by omega, Or.inl hstopped⟩
  rw [End.other_other, hparsed] at hread
  rcases h.called hcalls hid hread with ⟨k₃, hk₃, hstopped | ⟨call, t₃, hcall, hcalled⟩⟩
  · exact ⟨k₃, by omega, Or.inl hstopped⟩
  · exact ⟨k₃, by omega, Or.inr ⟨call, t₃, _, _, hcall, hcalled⟩⟩

end Calls

/-! ## A call that comes back -/

/-- The read thread waits for a message, and the workers for a task. -/
structure Server.Quiet (s : Server) : Prop where
  loop : s.reader = .loop
  stays : s.state_ ≠ .Exited
  queues : ∀ e, (s.pool e).tasks_ = [] ∧ (s.pool e).stopping_ = false
  idle : ∀ e, (s.pool e).workers_ = List.replicate (s.pool e).workers_.length .idle

lemma Server.Quiet.not_enabled {cfg : Config} {s : Server} (h : s.Quiet) (t : Thread) :
    ¬ Enabled (Threads cfg) t.Own s := by
  rintro henabled
  cases t with
  | reader =>
    rcases henabled with ⟨⟨_, l⟩, s', ⟨rfl, -, hl⟩, hstep⟩
    cases hstep with
    | reader _ _ hstep =>
      cases hstep with
      | read | parseThrows | endOfInput => exact absurd hl (by simp [Label.promised])
      | leave _ hexited => exact h.stays hexited
      | send hr | sendThrows hr | handler _ hr | handlerFinishes hr | handlerEscapes hr
      | insertToken hr | submit hr | cancel hr | notified hr | notifyEscapes hr | exited hr
      | exitThrows _ hr | unmatched hr | matched hr | stop hr | joinSync hr | joinWorkers hr =>
        exact absurd (hr.symm.trans h.loop) (by simp)
  | worker e w =>
    rcases enabled_iff.mp henabled with ⟨-, worker, hw, -, hgoes⟩
    have hmem := List.mem_of_getElem? hw
    rw [h.idle e] at hmem
    rcases hgoes (List.eq_of_mem_replicate hmem) with htasks | hstopping
    · exact htasks (h.queues e).1
    · exact absurd ((h.queues e).2.symm.trans hstopping) (by simp)
  | sender | notifier =>
    rcases henabled with ⟨_, _, ⟨-, hserves, -⟩, -⟩
    exact absurd hserves (by simp [Thread.serves])

lemma Session.getElem?_of_ne_zero {pcs pcs' : List SenderPc} (h : pcs.length ≤ 1)
    (h' : pcs'.length ≤ 1) (k : ℕ) (hk : k ≠ 0) : pcs[k]? = pcs'[k]? := by
  rw [List.getElem?_eq_none (by omega), List.getElem?_eq_none (by omega)]

/-- The call of the session, with what the threads do until both servers wait again. -/
lemma Session.peers_visit :
    Reaches (Recorded (PeersThreads peersConfig)) (.start fun d => .start (peersConfig d))
      fun es p => (∀ d, (p.ends d).Quiet ∧ (p.ends d).Serves ∧ (p.ends d).senders.length ≤ 1 ∧
          p.inFlight d = []) ∧
        Understood peersConfig (es.map fun e => (e.2.1, e.2.2.2)) ∧
        (es.map Prod.snd)[2]? = some (.left, .sender 0, .sent askInitialize) := by
  apply Reaches.step (l := (_, .left, .sender 0, _))
    (.intro (.intro .left (.sender 0 rfl (.issue (str "initialize") .null (.raw 0) rfl)
      (getElem?_of_ne_zero (le_refl 1) (Nat.zero_le 1))) rfl))
  apply Reaches.step (l := (_, .left, .sender 0, _))
    (.intro (.intro .left (.sender 0 rfl (.register 0 rfl)
      (getElem?_of_ne_zero (le_refl 1) (le_refl 1))) rfl))
  apply Reaches.step (l := (_, .left, .sender 0, _))
    (.intro (.intro .left (.sender 0 rfl (.send 0 rfl rfl)
      (getElem?_of_ne_zero (le_refl 1) (le_refl 1))) rfl))
  apply Reaches.step (l := (_, .right, .reader, _)) (.intro (.intro .right (.reader rfl rfl
    (.read askInitialize.json.print rfl (by decide) rfl)) rfl))
  apply Reaches.step (l := (_, .right, .reader, _)) (.intro (.intro .right (.reader rfl rfl
    (.handler ⟨none, none⟩ rfl (.start rfl))) rfl))
  apply Reaches.step (l := (_, .right, .reader, _)) (.intro (.intro .right (.reader rfl rfl
    (.handler ⟨none, none⟩ rfl (.returns .null))) rfl))
  apply Reaches.step (l := (_, .right, .reader, _)) (.intro (.intro .right (.reader rfl rfl
    (.handlerFinishes rfl (.send rfl))) rfl))
  apply Reaches.step (l := (_, .left, .reader, _)) (.intro (.intro .left (.reader rfl rfl
    (.read initializeDone.json.print rfl (by decide) rfl)) rfl))
  apply Reaches.step (l := (_, .left, .reader, _)) (.intro (.intro .left (.reader rfl rfl
    (.matched rfl rfl)) rfl))
  apply Reaches.step (l := (_, .left, .reader, _)) (.intro (.intro .left (.reader rfl rfl
    (.submit rfl)) rfl))
  apply Reaches.step (l := (_, .left, .worker .worker 0, _)) (.intro (.intro .left
    (.worker .worker 0 rfl (.take rfl rfl)) rfl))
  apply Reaches.step (l := (_, .left, .worker .worker 0, _)) (.intro (.intro .left
    (.worker .worker 0 rfl (.invoke rfl)) rfl))
  apply Reaches.step (l := (_, .left, .worker .worker 0, _)) (.intro (.intro .left
    (.worker .worker 0 rfl (.callbackFinishes rfl .returns)) rfl))
  refine Reaches.here ⟨?_, ?_, rfl⟩
  · rintro (_ | _)
    · refine ⟨⟨rfl, by decide, ?_, ?_⟩, ⟨rfl, rfl, by decide, Or.inl rfl⟩, le_refl 1, rfl⟩
      · rintro (_ | _) <;> exact ⟨rfl, rfl⟩
      · rintro (_ | _) <;> rfl
    · refine ⟨⟨rfl, by decide, ?_, ?_⟩, ⟨rfl, rfl, by decide, Or.inl rfl⟩, Nat.zero_le 1, rfl⟩
      · rintro (_ | _) <;> exact ⟨rfl, rfl⟩
      · rintro (_ | _) <;> rfl
  · intro d frame text hmem hserialize
    simp at hmem
    have hframe : d = .left ∧ frame = askInitialize ∨ d = .right ∧ frame = initializeDone := hmem
    rcases hframe with ⟨rfl, rfl⟩ | ⟨rfl, rfl⟩
    · rw [← Except.ok.inj hserialize]
      rfl
    · rw [← Except.ok.inj hserialize]
      rfl

/-- A run after which both servers wait is the beginning of an execution that goes on as they may
count on. -/
lemma exists_connected {cfg : End → Config} {es : List (Linked Server Bytes × End × Thread × Label)}
    {p : Linked Server Bytes}
    (h : Run (Recorded (PeersThreads cfg)) (.start fun d => .start (cfg d)) es p)
    (hquiet : ∀ d, (p.ends d).Quiet ∧ p.inFlight d = [])
    (hwire : Understood cfg (es.map fun e => (e.2.1, e.2.2.2))) :
    ∃ x : Execution (PeersThreads cfg), Connected x ∧ x.history es.length = es ∧
      ∀ n ≥ es.length, x.state n = p ∧ x.label n = none := by
  rcases h.exists_execution with ⟨x, hstart, hhistory, hrests⟩
  -- nothing is possible from then on, so nobody waits for the scheduler or for the user
  refine ⟨x, ⟨hstart, ?_, ?_, ?_, ?_⟩, hhistory, hrests⟩
  · refine fun d t => x.fair_of_rests (n := es.length) fun n hn henabled => ?_
    rw [(hrests n hn).1] at henabled
    rcases enabled_of_atEnd henabled with ⟨l, s', hown, hstep⟩
    exact (hquiet d).1.not_enabled t ⟨l, s', hown.1, hstep⟩
  · intro d t n
    refine ⟨max n es.length, le_max_left _ _, fun huser => ?_⟩
    have hstate : (sideOf x d).state (max n es.length) = p.ends d := by
      show (x.state _).ends d = _
      rw [(hrests _ (le_max_right _ _)).1]
    rw [hstate] at huser
    have hidle : ¬ Enabled (Threads (cfg d)) t.Own (p.ends d) := (hquiet d).1.not_enabled t
    exact hidle huser.enabled
  · refine fun d => x.fair_of_rests (n := es.length) fun n hn henabled => ?_
    rw [(hrests n hn).1] at henabled
    exact not_enabled_receives (hquiet d).2 henabled
  · intro n
    have hlater := x.history_mono (le_max_left n es.length)
    rw [x.history_of_rests (fun k hk => (hrests k hk).2) (le_max_right n es.length), hhistory]
      at hlater
    rcases hlater with ⟨rest, hrest⟩
    rw [← hrest, List.map_append] at hwire
    exact hwire.of_append

/-- The call of the session, after which both servers go on serving. -/
theorem remote_calls_return_session :
    ∃ x : Execution (PeersThreads Session.peersConfig), Connected x ∧
      (∃ k, ∀ n ≥ k, ¬ Stopped (x.state n)) ∧ ∃ n t,
        x.label n = some (.left, t, .sent Session.askInitialize) ∧
        ∃ m > n, Stopped (x.state m) ∨ ∃ call t' payload isError, (1 : Int32) = callId call ∧
          x.label m = some (.left, t', .callbackInvoked call payload isError) := by
  rcases Session.peers_visit with ⟨es, p, hrun, hfinal, hwire, hsent⟩
  rcases exists_connected hrun (fun d => ⟨(hfinal d).1, (hfinal d).2.2.2⟩) hwire with
    ⟨x, hconnected, hhistory, hrests⟩
  rcases List.mem_map.mp (List.mem_of_getElem? hsent) with ⟨⟨q, _⟩, hmem, rfl⟩
  rw [← hhistory] at hmem
  rcases x.mem_history.mp hmem with ⟨n, -, hlabel, -⟩
  have hcalls : ∀ n, ((x.state n).ends .left).senders.length < 2 ^ 32 := by
    intro n
    have hmono := (sideOf x .left).mono (f := fun s => s.senders.length)
      (fun _ _ _ h => h.step.senders_length) (le_max_left n es.length)
    have hlast : ((x.state (max n es.length)).ends .left).senders.length ≤ 1 := by
      rw [(hrests _ (le_max_right n es.length)).1]
      exact (hfinal .left).2.2.1
    exact (hmono.trans hlast).trans_lt (by norm_num)
  refine ⟨x, hconnected, ⟨es.length, ?_⟩, n, _, hlabel, ?_⟩
  · rintro k hk ⟨d, hstopped⟩
    rw [(hrests k hk).1] at hstopped
    exact hstopped (hfinal d).2.1
  · exact remote_calls_return Session.peersConfig x hconnected .left hcalls n _ _ _ _ hlabel

end CLSP
