import CLSP.Server.Documents
import CLSP.Server.ExitCode
import CLSP.Server.Messages

/-!
# What the input decides

The threads of a server take turns in many ways. Which documents it ends with and which code `run`
returns is nevertheless decided by the messages that its client writes.
-/

namespace CLSP

open Transition

/-! ## The notifications that count -/

/-- A document notification that counts in a state. -/
def ParsedMessage.accepted? (state : ServerState) : ParsedMessage → Option ParsedNotification
  | .notification notif =>
    if isSyncNotification notif.method ∧ state ≠ .Uninitialized ∧ state ≠ .Exited then some notif
    else none
  | _ => none

/-- Those among the messages that come from a state on. -/
def acceptedFrom : ServerState → List ParsedMessage → List ParsedNotification
  | _, [] => []
  | state, msg :: msgs =>
    (msg.accepted? state).toList ++ acceptedFrom (lifecycleStep state msg) msgs

lemma acceptedFrom_append (state : ServerState) (msgs ms : List ParsedMessage) :
    acceptedFrom state (msgs ++ ms) =
      acceptedFrom state msgs ++ acceptedFrom (msgs.foldl lifecycleStep state) ms := by
  induction msgs generalizing state with
  | nil => rfl
  | cons msg msgs ih =>
    show _ ++ acceptedFrom _ (msgs ++ ms) = (_ ++ acceptedFrom _ msgs) ++ _
    rw [ih, List.append_assoc]
    rfl

lemma lifecycleStep_exited (msg : ParsedMessage) : lifecycleStep .Exited msg = .Exited := by
  rcases lifecycleStep_cases .Exited msg with heq | ⟨_, _, hstate, _⟩ | ⟨_, _, hactive, _⟩ |
    ⟨_, _, _, heq⟩ | ⟨_, _, _, hstarted, _⟩
  · exact heq
  · exact absurd hstate (by simp)
  · exact absurd hactive (by simp [ServerState.Active])
  · exact heq
  · exact absurd rfl hstarted.ne.2

/-- Nothing counts after `exit`. -/
lemma acceptedFrom_exited (ms : List ParsedMessage) : acceptedFrom .Exited ms = [] := by
  induction ms with
  | nil => rfl
  | cons msg ms ih =>
    have hnone : msg.accepted? .Exited = none := by
      cases msg with
      | notification notif => exact if_neg fun h => h.2.2 rfl
      | _ => rfl
    show (msg.accepted? .Exited).toList ++ acceptedFrom (lifecycleStep .Exited msg) ms = []
    rw [hnone, lifecycleStep_exited, ih]
    rfl

/-- Nor does a shutdown that is asked for after it. -/
lemma takesShutdown_append {msgs ms : List ParsedMessage} (h : lifecycleAfter msgs = .Exited) :
    TakesShutdown (msgs ++ ms) ↔ TakesShutdown msgs := by
  have hexited : ∀ ms, lifecycleAfter (msgs ++ ms) = .Exited ∧
      (TakesShutdown (msgs ++ ms) ↔ TakesShutdown msgs) := by
    intro ms
    induction ms using List.reverseRecOn with
    | nil =>
      rw [List.append_nil]
      exact ⟨h, Iff.rfl⟩
    | append_singleton ms msg ih =>
      rw [← List.append_assoc, lifecycleAfter_concat, takesShutdown_concat, ih.1]
      refine ⟨lifecycleStep_exited msg, ?_⟩
      rw [ih.2]
      refine or_iff_left ?_
      rintro ⟨_, _, _, hactive⟩
      exact absurd hactive (by simp [ServerState.Active])
  exact (hexited ms).2

section Steps

variable {cfg : Config} {ls : List Label} {es : List (Server × Label)} {s s' : Server} {l : Label}

/-- What a run accepts is decided by what it reads. -/
lemma RecordedRuns.acceptedFrom (hkept : cfg.LifecycleKept) (h : RecordedRuns cfg es s) :
    (documentNotifications es).map Prod.snd =
      acceptedFrom .Uninitialized (messagesOf (es.map Prod.snd)) := by
  induction h with
  | nil => rfl
  | @snoc es t u e hrun hstep ih =>
    cases hstep with
    | @intro l _ hstep =>
      have hlast : (documentNotification? (t, l)).map Prod.snd =
          l.message?.bind (ParsedMessage.accepted?
            (lifecycleAfter (messagesOf (es.map Prod.snd)))) := by
        cases l with
        | read m body msg =>
          rw [← (Runs.state_of_read hkept (Run.unrecord hrun) hstep).2.2.1]
          cases msg with
          | notification notif =>
            show (if _ then some (m, notif) else none).map Prod.snd = if _ then _ else _
            split <;> rfl
          | _ => rfl
        | _ => rfl
      rw [documentNotifications_concat, List.map_append, ih, List.map_append, messagesOf_append,
        acceptedFrom_append, ← Option.toList_map, hlast]
      refine congrArg _ ?_
      cases l with
      | read m body msg => exact (List.append_nil _).symm
      | _ => rfl

/-! ## `run` leaves at `exit` -/

/-- `run` has left its loop. -/
def ReaderPc.Left : ReaderPc → Prop
  | .stopping _ => True
  | .joining _ => True
  | .returned => True
  | _ => False

lemma Outcome.not_left {state : ServerState} {serial token : ℕ} {msg : ParsedMessage}
    {next : ServerState × ReaderPc} (h : Outcome cfg state serial token msg next) :
    ¬ next.2.Left := by
  cases h with
  | request h => cases h <;> exact id
  | notification h => cases h <;> exact id
  | response h => cases h <;> exact id
  | error => exact id

lemma Step.exited (h : Step cfg s l s') (hl : l ≠ .endOfInput) (hleft : s'.reader.Left)
    (hs : s.reader.Left → s.state_ = .Exited) : s'.state_ = .Exited := by
  cases h with
  | reader _ _ h =>
    cases h with
    | read => exact absurd hleft (dispatch_outcome _ _ _ _ _).not_left
    | endOfInput => exact absurd rfl hl
    | leave _ hexited => exact hexited
    | stop hr =>
      show (Server.setPool s _ _).state_ = _
      rw [Server.setPool_state_]
      exact hs (by rw [hr]; trivial)
    | joinSync hr | joinWorkers hr => exact hs (by rw [hr]; trivial)
    | parseThrows _ hr | sendThrows hr | handlerEscapes hr | notifyEscapes hr | exitThrows _ hr =>
      have hpc : s.reader.Left := hleft
      rw [hr] at hpc
      exact absurd hpc id
    | _ => exact absurd hleft id
  | worker _ _ _ h =>
    rw [h.control.2.2.2.1]
    rw [h.control.1] at hleft
    exact hs hleft
  | sender _ h =>
    rcases h.frame with ⟨_, _, _, rfl⟩
    exact hs hleft

lemma Runs.exited (h : Runs cfg ls s) (hgoes : .endOfInput ∉ ls) (hleft : s.reader.Left) :
    s.state_ = .Exited := by
  induction h with
  | nil => exact absurd hleft id
  | snoc _ hstep ih =>
    rw [List.mem_append, not_or, List.mem_singleton] at hgoes
    exact hstep.exited (fun hl => hgoes.2 hl.symm) hleft (ih hgoes.1)

end Steps

/-! ## The result -/

/-- What is expected of a server whose client writes the messages `msgs`. -/
structure InputDecides (cfg : Config) (msgs : List ParsedMessage) (ls : List Label) (s : Server) :
    Prop where
  /-- The documents are those of a sequential server that has served the first of the
  notifications that count. -/
  served : ∃ served, served <+: acceptedFrom .Uninitialized msgs ∧
    s.documents_ = DocumentStore.notifyAll cfg { encoding_ := s.documents_.encoding_ } served
  /-- When `run` has returned it has served them all, and its code tells whether the client has
  asked for the shutdown. -/
  returned : ∀ code, .returned code ∈ ls →
    s.documents_ = DocumentStore.notifyAll cfg { encoding_ := s.documents_.encoding_ }
      (acceptedFrom .Uninitialized msgs) ∧ code ≤ 1 ∧ (code = 0 ↔ ShutdownAsked msgs)
  /-- When the notifications tell what the client does to its documents, the server has at any
  time the documents that the client has had, and in the end those that it has. -/
  client : cfg.SyncKept → ∀ opss : List (List ClientOperation),
    List.Forall₂ Tells (acceptedFrom .Uninitialized msgs) opss →
    HistoryInBounds s.documents_.encoding_ (fun _ => none) opss.flatten →
    ∃ ops, ops <+: opss.flatten ∧
      Refines s.documents_.encoding_ s.documents_ (clientRun s.documents_.encoding_ ops) ∧
      ∀ code, .returned code ∈ ls → ops = opss.flatten

section Wire

variable {cfg : Config} {msgs : List ParsedMessage} {ls : List Label} {s : Server}

/-- Where `run` has left its loop, the messages it has read end with `exit`. -/
lemma Runs.lifecycleAfter_left (hkept : cfg.LifecycleKept) (h : Runs cfg ls s)
    (hgoes : .endOfInput ∉ ls) (hleft : s.reader.Left) :
    lifecycleAfter (messagesOf ls) = .Exited := by
  rw [← (Runs.lifecycle hkept h).settled, ← Runs.exited h hgoes hleft]
  unfold Server.settled
  cases hr : s.reader with
  | inline call pc =>
    rw [hr] at hleft
    exact absurd hleft id
  | _ => rfl

lemma Runs.code_returned (hkept : cfg.LifecycleKept) (h : Runs cfg ls s)
    (hgoes : .endOfInput ∉ ls) (hread : messagesOf ls <+: msgs) {code : ℕ}
    (hmem : .returned code ∈ ls) : code ≤ 1 ∧ (code = 0 ↔ ShutdownAsked msgs) := by
  rcases List.append_of_mem hmem with ⟨ls₁, ls₂, rfl⟩
  rcases h.split_at with ⟨t, t', hrun, hstep, -⟩
  rcases hstep.returned_inv with ⟨hreader, rfl, -⟩
  have hgoes₁ : .endOfInput ∉ ls₁ := fun hl => hgoes (List.mem_append_left _ hl)
  have hexited := Runs.lifecycleAfter_left hkept hrun hgoes₁ (by rw [hreader]; trivial)
  rw [messagesOf_append] at hread
  rcases (List.prefix_append _ _).trans hread with ⟨ms, rfl⟩
  have hflag : t.shutdownRequested_ = true ↔ ShutdownAsked (messagesOf ls₁ ++ ms) := by
    rw [← takesShutdown_iff, takesShutdown_append hexited, ← Runs.shutdownTaken hkept hrun]
    unfold Server.shutdownTaken
    rw [hreader]
    exact (or_iff_left id).symm
  rw [← hflag]
  unfold Server.exitCode
  split
  · next hset => exact ⟨Nat.zero_le 1, iff_of_true rfl hset⟩
  · next hset => exact ⟨le_refl 1, iff_of_false one_ne_zero hset⟩

lemma Runs.served_returned (hkept : cfg.LifecycleKept) (h : Runs cfg ls s)
    (hgoes : .endOfInput ∉ ls) (hread : messagesOf ls <+: msgs) :
    ∃ served, served <+: acceptedFrom .Uninitialized msgs ∧
      s.documents_ = DocumentStore.notifyAll cfg { encoding_ := s.documents_.encoding_ } served ∧
      ∀ code, .returned code ∈ ls → served = acceptedFrom .Uninitialized msgs := by
  rcases h.record with ⟨es, rfl, hrun⟩
  rcases RecordedRuns.documents hrun with ⟨served, hserved, hdocuments⟩
  rw [RecordedRuns.acceptedFrom hkept hrun] at hserved
  rcases hread with ⟨ms, rfl⟩
  rw [acceptedFrom_append, hserved]
  refine ⟨served, ?_, hdocuments, ?_⟩
  · rw [List.append_assoc]
    exact List.prefix_append _ _
  · intro code hmem
    have hreader := Runs.reader_of_returned h hmem
    have hexited := Runs.lifecycleAfter_left hkept h hgoes (by rw [hreader]; trivial)
    show _ = _ ++ acceptedFrom (lifecycleAfter _) ms
    rw [hexited, acceptedFrom_exited, Runs.unserved_of_returned h hreader, List.append_nil,
      List.append_nil]

/-- **The input decides.** Over the bytes of its input, in every run, the documents of a server and
the code it returns are those of the messages that its client has framed. -/
theorem input_decides (cfg : Config) (hkept : cfg.LifecycleKept) (bodies : List Bytes)
    (trailing : Bytes) (hlen : ∀ b ∈ bodies, b.length < 2 ^ 31)
    (htrailing : ¬ crlfcrlf <:+: trailing) (msgs : List ParsedMessage)
    (hmsgs : bodies.map (parseMessage cfg.nl) = msgs.map .ok) (es : List WireEvent) (w : Wire)
    (h : WireRuns cfg (bodies.flatMap frame ++ trailing) es w) :
    InputDecides cfg msgs (Locked.moves es) w.inner.1 := by
  rcases WireRuns.unread hlen htrailing h with ⟨hrun, hgoes, rest, hrest, -⟩
  have hread : messagesOf (Locked.moves es) <+: msgs := by
    have hparsed := Runs.parse_bodies hrun
    rw [hrest, List.map_append] at hmsgs
    rcases List.append_eq_map_iff.mp hmsgs with ⟨read, unread, rfl, hread, -⟩
    rw [← hread] at hparsed
    rw [messagesOf_eq hparsed.symm]
    exact List.prefix_append _ _
  rcases Runs.served_returned hkept hrun hgoes hread with ⟨served, hserved, hdocuments, hlast⟩
  refine ⟨⟨served, hserved, hdocuments⟩, ?_, ?_⟩
  · intro code hmem
    rw [hlast code hmem] at hdocuments
    exact ⟨hdocuments, Runs.code_returned hkept hrun hgoes hread hmem⟩
  · intro hsync opss htells hbounds
    rcases hserved with ⟨later, hserved⟩
    rw [← hserved] at htells hlast
    rcases DocumentStore.eq_foldl_of_tells hsync htells hdocuments with
      ⟨ops, rest, hflatten, hfollowed, hall⟩
    rw [hflatten] at hbounds
    refine ⟨ops, ⟨rest, hflatten.symm⟩, ?_, ?_⟩
    · exact refines_of_served (historyInBounds_append hbounds) hfollowed
    · exact fun code hmem => hall (List.self_eq_append_right.mp (hlast code hmem))

end Wire

/-! ## A document that is open in the end -/

/-- The client opens a document, asks for the shutdown and exits. -/
lemma Session.opens :
    Reaches (Step Session.config) (Server.start Session.config) fun ls s =>
      ls.flatMap Label.bodies = [Session.initializeRequest, Session.didOpen, Session.shutdown,
          Session.exit].map (·.json.print) ∧
        .endOfInput ∉ ls ∧ (∃ msgs : List ParsedMessage, ls.filterMap Label.parse? = msgs.map .ok) ∧
        ls.getLast? = some (.returned 0) ∧ s.documents_.uris = [str "file:///a"] := by
  apply Reaches.run Session.runs_handshake
  apply Reaches.step (.reader rfl rfl (.read Session.didOpen.json.print rfl (by decide) rfl))
  apply Reaches.step (.reader rfl rfl (.submit rfl))
  apply Reaches.step (.worker .sync 0 rfl (.take rfl rfl))
  apply Reaches.step (.worker .sync 0 rfl (.notification rfl .start))
  apply Reaches.step (.worker .sync 0 rfl (.notification rfl (.hook rfl)))
  apply Reaches.step (.worker .sync 0 rfl (.notificationFinishes rfl .returns))
  apply Reaches.step (.reader rfl rfl (.read Session.shutdown.json.print rfl (by decide) rfl))
  apply Reaches.step (.reader rfl rfl (.handler ⟨none, none⟩ rfl (.start rfl)))
  apply Reaches.step (.reader rfl rfl (.handler ⟨none, none⟩ rfl (.returns .null)))
  apply Reaches.step (.reader rfl rfl (.handlerFinishes rfl (.send rfl)))
  apply Reaches.step (.reader rfl rfl (.read Session.exit.json.print rfl (by decide) rfl))
  apply Reaches.step (.reader rfl rfl (.exited rfl))
  apply Reaches.step (.reader rfl rfl (.leave rfl rfl))
  apply Reaches.step (.reader rfl rfl (.stop rfl))
  apply Reaches.step (.worker .sync 0 rfl (.exit ⟨rfl, rfl⟩ rfl))
  apply Reaches.step (.reader rfl rfl (.joinSync rfl rfl))
  apply Reaches.step (.reader rfl rfl (.stop rfl))
  apply Reaches.step (.worker .worker 0 rfl (.exit ⟨rfl, rfl⟩ rfl))
  apply Reaches.step (.worker .worker 1 rfl (.exit ⟨rfl, rfl⟩ rfl))
  apply Reaches.step (.reader rfl rfl (.joinWorkers rfl rfl))
  exact Reaches.here ⟨rfl, by simp [handshake], ⟨[_, _, _, _], rfl⟩, rfl, rfl⟩

theorem input_decides_session :
    ∃ (msgs : List ParsedMessage) (es : List WireEvent) (w : Wire), .returned 0 ∈ Locked.moves es ∧
      w.inner.1.documents_.uris = [str "file:///a"] ∧
      InputDecides Session.config msgs (Locked.moves es) w.inner.1 := by
  rcases Session.opens with ⟨ls, s, hrun, hbodies, hgoes, ⟨msgs, hmsgs⟩, hlast, huris⟩
  have hlen : ∀ b ∈ ls.flatMap Label.bodies, b.length < 2 ^ 31 := by
    rw [hbodies]
    intro b hb
    rcases List.mem_map.mp hb with ⟨frame, hframe, rfl⟩
    simp only [List.mem_cons, List.not_mem_nil, or_false] at hframe
    set_option maxRecDepth 4096 in
    rcases hframe with rfl | rfl | rfl | rfl <;> decide
  rcases Runs.exists_wire hrun hgoes hlen [] with ⟨es, h, rfl⟩
  refine ⟨msgs, es, .start (s, .ofBytes []), List.mem_of_getLast? hlast, huris, ?_⟩
  exact input_decides Session.config session_kept _ [] hlen (by decide) msgs
    ((Runs.parse_bodies hrun).trans hmsgs) es _ h

end CLSP
