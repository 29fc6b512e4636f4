import CLSP.Server.Peers

/-!
# Two servers over pipes

Two servers whose transports are connected by pipes: each writes its messages into a pipe piece by
piece, and reads the messages of the other out of the bytes that have come. A run of the two is one
of `Peers`, which pass whole messages.
-/

namespace CLSP

open Channel Search Transition

/-! ## The pair -/

/-- The process at one end of the pipes. -/
abbrev PipedServer := Locked.State Thread Server UInt8

/-- The bodies that an event gets from the transport. -/
def eventBodies : WireEvent → List Bytes
  | .moved l => l.bodies
  | _ => []

/-- What an event leaves of the pipe it reads from. `readMessage` comes back when it has got all
of a message. -/
inductive ReadsPipe (e : WireEvent) : Bytes → Bytes → Prop
  | nothing (queue : Bytes) : eventBodies e = [] → ReadsPipe e queue queue
  | body {queue rest body : Bytes} {fuel : ℕ} {c : UInt8} : eventBodies e = [body] →
      readMessage fuel c (.ofBytes queue) = some (.body body, .ofBytes rest) →
      ReadsPipe e queue rest

/-- A step of a process that writes under the lock. -/
abbrev PipedStep (cfg : Config) : PipedServer → WireEvent → PipedServer → Prop :=
  Locked.Step (fun t s l s' => ThreadStep cfg s l s' t) (fun s => s.terminated = false)
    (Label.wire cfg.nl)

/-- A step of one of two servers over pipes. -/
abbrev PipesStep (cfg : End → Config) :
    Linked PipedServer UInt8 → End × WireEvent → Linked PipedServer UInt8 → Prop :=
  LinkStep (fun d => PipedStep (cfg d)) (fun _ => Locked.Event.written) ReadsPipe

/-- The runs of two servers over pipes from their starts. -/
abbrev PipesRuns (cfg : End → Config) (es : List (End × WireEvent))
    (p : Linked PipedServer UInt8) : Prop :=
  Run (PipesStep cfg) (.start fun d => .start (.start (cfg d))) es p

/-- The steps of the threads of both ends. -/
def peersMoves (es : List (End × WireEvent)) : List (End × Label) :=
  es.filterMap fun e => e.2.moved?.map fun l => (e.1, l)

/-! ## Reading -/

lemma not_infix_of_terminated {pat block queue missing : Bytes} (h : Terminated pat block)
    (hblock : block = queue ++ missing) (hne : missing ≠ []) : ¬ pat <:+: queue := by
  rintro ⟨before, after, hqueue⟩
  have hprefix : before ++ pat <+: block := by
    rw [hblock, ← hqueue]
    exact ⟨after ++ missing, by simp⟩
  have heq := h.2 _ hprefix (List.suffix_append _ _)
  rw [hblock, ← hqueue] at heq
  have hlength := congrArg List.length heq
  have hpos := List.length_pos_iff.mpr hne
  simp only [List.length_append] at hlength
  omega

/-- No message is read out of a part of its frame. -/
lemma not_body_of_part {text queue missing body : Bytes} (hlen : text.length < 2 ^ 31)
    (hframe : frame text = queue ++ missing) (hne : missing ≠ []) {fuel : ℕ} {c : UInt8}
    {in' : IStream} : readMessage fuel c (.ofBytes queue) ≠ some (.body body, in') := by
  intro hread
  have hpos := List.length_pos_iff.mpr hne
  rcases List.append_eq_append_iff.mp hframe with ⟨part, hqueue, htext⟩ | ⟨part, hheader, hmissing⟩
  · -- the header has come, and a part of the body
    subst hqueue
    have hshort : part.length < text.length % 2 ^ 32 := by
      have hlength := congrArg List.length htext
      rw [List.length_append] at hlength
      omega
    have hreturns := returns_short (terminated_frame_header text.length)
      (announced_frame_header text.length) (by omega) hshort
    exact absurd (hreturns.eq hread).1 (by simp)
  · -- the header has not come, or nothing but the header
    by_cases hpart : part = []
    · subst hpart
      rw [List.append_nil] at hheader
      rw [List.nil_append] at hmissing
      have hshort : ([] : Bytes).length < text.length % 2 ^ 32 := by
        rw [hmissing] at hpos
        simp only [List.length_nil]
        omega
      have hreturns := returns_short (terminated_frame_header text.length)
        (announced_frame_header text.length) (by omega) hshort
      rw [List.append_nil, hheader] at hreturns
      exact absurd (hreturns.eq hread).1 (by simp)
    · have hnone := not_infix_of_terminated (terminated_frame_header text.length) hheader hpart
      exact absurd (hread.symm.trans (readMessage_eq_none hnone fuel c)) (by simp)

/-- What is read out of the first bytes of framed messages is the first message. -/
lemma read_of_prefix {texts : List Bytes} (hlen : ∀ text ∈ texts, text.length < 2 ^ 31)
    {queue pending rest body : Bytes} {fuel : ℕ} {c : UInt8}
    (hqueue : queue ++ pending = texts.flatMap frame)
    (hread : readMessage fuel c (.ofBytes queue) = some (.body body, .ofBytes rest)) :
    ∃ texts', texts = body :: texts' ∧ rest ++ pending = texts'.flatMap frame := by
  cases texts with
  | nil =>
    rcases List.append_eq_nil_iff.mp hqueue with ⟨rfl, -⟩
    have hnone : ¬ crlfcrlf <:+: [] := by decide
    exact absurd (hread.symm.trans (readMessage_eq_none hnone fuel c)) (by simp)
  | cons text texts =>
    have htext := hlen text (by simp)
    rw [List.flatMap_cons] at hqueue
    have hwhole : ∀ more, queue = frame text ++ more → more ++ pending = texts.flatMap frame →
        ∃ texts', text :: texts = body :: texts' ∧ rest ++ pending = texts'.flatMap frame := by
      intro more hmore hrest
      rw [hmore] at hread
      rcases (returns_frame htext more).eq hread with ⟨hbody, hin⟩
      have hmore' : rest = more := congrArg IStream.rest hin
      rw [ReadResult.body.inj hbody, hmore']
      exact ⟨texts, rfl, hrest⟩
    rcases List.append_eq_append_iff.mp hqueue with
      ⟨missing, hframe, hpending⟩ | ⟨more, hmore, hrest⟩
    · by_cases hmissing : missing = []
      · subst hmissing
        rw [List.append_nil] at hframe
        exact hwhole [] (by rw [hframe, List.append_nil]) hpending
      · exact absurd hread (not_body_of_part htext hframe hmissing)
    · exact hwhole more hmore hrest.symm

/-! ## The refinement -/

/-- What a pipe and a writer at its end hold of the messages in flight. -/
structure Carries (p : Linked PipedServer UInt8) (q : Linked Server Bytes) : Prop where
  ends : ∀ d, q.ends d = (p.ends d).inner
  bytes : ∀ d, p.inFlight d ++ (p.ends d.other).pending = (q.inFlight d).flatMap frame
  short : ∀ d, ∀ text ∈ q.inFlight d, text.length < 2 ^ 31

lemma carries_start (cfg : End → Config) :
    Carries (.start fun d => .start (.start (cfg d))) (.start fun d => .start (cfg d)) :=
  ⟨fun _ => rfl, fun _ => rfl, fun _ _ hmem => absurd hmem List.not_mem_nil⟩

section Steps

variable {cfg : End → Config} {p p' : Linked PipedServer UInt8} {q : Linked Server Bytes} {d : End}

/-- What is left of the messages in flight to an end that reads. -/
lemma Carries.read (hq : Carries p q) {e : WireEvent} {rest : Bytes}
    (h : ReadsPipe e (p.inFlight d) rest) : ∃ texts, q.inFlight d = eventBodies e ++ texts ∧
      rest ++ (p.ends d.other).pending = texts.flatMap frame := by
  generalize hqueue : p.inFlight d = queue at h
  cases h with
  | nothing hnone =>
    rw [hnone, ← hqueue]
    exact ⟨q.inFlight d, rfl, hq.bytes d⟩
  | body hbody hread =>
    have hbytes := hq.bytes d
    rw [hqueue] at hbytes
    rw [hbody]
    exact read_of_prefix (hq.short d) hbytes hread

/-- One end reads `texts'` less and sends `sent`, of which it writes the bytes `now`. -/
lemma Carries.move (hq : Carries p q) {s : PipedServer} {rest now : Bytes} {u : Server}
    {texts sent : List Bytes} (hinner : u = s.inner)
    (hrest : rest ++ (p.ends d.other).pending = texts.flatMap frame)
    (htexts : texts.Sublist (q.inFlight d))
    (hpending : now ++ s.pending = (p.ends d).pending ++ sent.flatMap frame)
    (hlen : ∀ text ∈ sent, text.length < 2 ^ 31) :
    Carries
      { ends := Function.update p.ends d s
        inFlight := fun d' => if d' = d then rest else p.inFlight d' ++ now }
      { ends := Function.update q.ends d u
        inFlight := fun d' => if d' = d then texts else q.inFlight d' ++ sent } := by
  refine ⟨?_, ?_, ?_⟩
  · intro d'
    by_cases hd : d' = d
    · subst hd
      simp only [Function.update_self]
      exact hinner
    · simp only [Function.update_of_ne hd]
      exact hq.ends d'
  · intro d'
    by_cases hd : d' = d
    · subst hd
      simp only [if_true, Function.update_of_ne (End.other_ne d')]
      exact hrest
    · -- what is written now goes to the pipe, the rest stays with the writer
      have hd' := End.eq_other_of_ne hd
      subst hd'
      simp only [if_neg hd, End.other_other, Function.update_self]
      have hbytes := hq.bytes d.other
      rw [End.other_other] at hbytes
      rw [List.append_assoc, hpending, ← List.append_assoc, hbytes, List.flatMap_append]
  · intro d' text hmem
    by_cases hd : d' = d
    · subst hd
      simp only [if_true] at hmem
      exact hq.short d' text (htexts.subset hmem)
    · simp only [if_neg hd] at hmem
      rcases List.mem_append.mp hmem with hmem | hmem
      · exact hq.short d' text hmem
      · exact hlen text hmem

/-- A piece of output moves from the writer to the pipe, and a step of a thread is one of the
pair. -/
lemma Carries.step (hq : Carries p q) {e : WireEvent} (h : PipesStep cfg p (d, e) p')
    (hlen : ∀ text ∈ ((Locked.moves [e]).flatMap (Label.texts (cfg d).nl)), text.length < 2 ^ 31) :
    ∃ q', Run (PeersStep cfg) q (peersMoves [(d, e)]) q' ∧ Carries p' q' := by
  cases h with
  | @intro _ _ s rest hstep hreads =>
    rcases hq.read hreads with ⟨texts, hflight, hrest⟩
    have htexts : texts.Sublist (q.inFlight d) := hflight ▸ List.sublist_append_right _ _
    have hpending := hstep.pending
    rw [writtenBy_wire] at hpending
    rcases hstep.inner with ⟨t, l, rfl, hmove⟩ | ⟨hquiet, hinner⟩
    · have hsingle : (Locked.moves [(.moved l : WireEvent)]).flatMap (Label.texts (cfg d).nl) =
          l.texts (cfg d).nl := List.append_nil _
      rw [hsingle] at hpending hlen
      have hstep' : PeersStep cfg q (d, l) _ :=
        LinkStep.intro d ((hq.ends d).symm ▸ hmove.step) hflight
      exact ⟨_, Run.single hstep', hq.move rfl hrest htexts hpending hlen⟩
    · -- the pair of servers does not move
      have hnone : peersMoves [(d, e)] = [] ∧ eventBodies e = [] := by
        cases e with
        | moved l => exact absurd hquiet (by simp [Locked.moves, Locked.Event.moved?])
        | _ => exact ⟨rfl, rfl⟩
      rw [hquiet, List.flatMap_nil] at hpending
      rw [hnone.2, List.nil_append] at hflight
      have hcarries := hq.move (u := q.ends d) ((hq.ends d).trans hinner.symm) hrest htexts
        hpending (by simp)
      have hq' : ∀ d', (if d' = d then texts else q.inFlight d' ++ []) = q.inFlight d' := by
        intro d'
        split
        · next hd => rw [hd, hflight]
        · exact List.append_nil _
      rw [Function.update_eq_self, funext hq'] at hcarries
      rw [hnone.1]
      exact ⟨q, .nil, hcarries⟩

lemma peersMoves_append (es es' : List (End × WireEvent)) :
    peersMoves (es ++ es') = peersMoves es ++ peersMoves es' :=
  List.filterMap_append

end Steps

/-- **Pipes refine channels.** A run of two servers over pipes is one of two servers that pass whole
messages: the bytes in a pipe, with those that a thread has still to write, are the messages in
flight. -/
theorem pipes_refine_peers (cfg : End → Config) (es : List (End × WireEvent))
    (p : Linked PipedServer UInt8) (h : PipesRuns cfg es p)
    (hlen : ∀ d l text, (d, .moved l) ∈ es → text ∈ l.texts (cfg d).nl → text.length < 2 ^ 31) :
    ∃ q, PeersRuns cfg (peersMoves es) q ∧ (∀ d, q.ends d = (p.ends d).inner) ∧
      ∀ d, p.inFlight d ++ (p.ends d.other).pending = (q.inFlight d).flatMap frame := by
  have hcarries : ∃ q, PeersRuns cfg (peersMoves es) q ∧ Carries p q := by
    induction h with
    | nil => exact ⟨_, .nil, carries_start cfg⟩
    | @snoc es t u e _ hstep ih =>
      -- each step over the pipes is one step of the pair, or none
      rcases ih fun d l text hmem => hlen d l text (List.mem_append_left _ hmem) with
        ⟨q, hrun, hq⟩
      have hshort : ∀ text ∈ (Locked.moves [e.2]).flatMap (Label.texts (cfg e.1).nl),
          text.length < 2 ^ 31 := by
        intro text hmem
        rcases List.mem_flatMap.mp hmem with ⟨l, hl, htext⟩
        have he : .moved l = e.2 := List.mem_singleton.mp (Locked.mem_moves.mp hl)
        exact hlen e.1 l text (by rw [he]; simp) htext
      rcases hq.step hstep hshort with ⟨q', hmove, hq'⟩
      rw [peersMoves_append]
      exact ⟨q', hrun.append hmove, hq'⟩
  rcases hcarries with ⟨q, hrun, hq⟩
  exact ⟨q, hrun, hq.ends, hq.bytes⟩

/-- A request that is read while its sender still has the lock. -/
theorem pipes_refine_peers_session :
    Reaches (PipesStep Session.peersConfig)
      (.start fun d => .start (.start (Session.peersConfig d))) fun es p =>
      (p.ends .left).holder.isSome = true ∧
        (∃ m body msg, (.right, .read m body msg) ∈ peersMoves es) ∧
        ∃ q, PeersRuns Session.peersConfig (peersMoves es) q ∧
          (∀ d, q.ends d = (p.ends d).inner) ∧
          ∀ d, p.inFlight d ++ (p.ends d.other).pending = (q.inFlight d).flatMap frame := by
  have hread : ∃ fuel, readMessage fuel 0 (.ofBytes (frame Session.askInitialize.json.print)) =
      some (.body Session.askInitialize.json.print, .ofBytes []) := by
    have hshort : Session.askInitialize.json.print.length < 2 ^ 31 := by decide
    have hframe := readMessage_frame hshort (le_refl _) 0 []
    rw [List.append_nil] at hframe
    exact ⟨_, hframe⟩
  rcases hread with ⟨fuel, hread⟩
  have hbody : some (Thread.sender 0, Session.askInitialize.json.print) =
      some (.sender 0, Session.askInitialize.json.print ++ []) := by rw [List.append_nil]
  have hrun : Reaches (PipesStep Session.peersConfig)
      (.start fun d => .start (.start (Session.peersConfig d))) fun es p =>
      (p.ends .left).holder.isSome = true ∧
        (∃ m body msg, (.right, .read m body msg) ∈ peersMoves es) ∧
        ∀ d frame, (d, .moved (.sent frame)) ∈ es → frame = Session.askInitialize := by
    have hnotHeld : ∀ h ∈ (none : Option (Thread × Bytes)), h.1 ≠ .reader := by simp
    apply Reaches.step (.intro .left (.free (by simp [Linked.start, Locked.State.start]) rfl
      (.sender 0 rfl (.issue (str "initialize") .null (.raw 0) rfl)
        (by simp [Linked.start, Locked.State.start, Server.start]))) (.nothing _ rfl))
    apply Reaches.step (.intro .left (.free (by simp [Linked.start, Locked.State.start]) rfl
      (.sender 0 rfl (.register 0 rfl) fun k hk => List.getElem?_set_ne (Ne.symm hk)))
      (.nothing _ rfl))
    apply Reaches.step (.intro .left (.acquire rfl rfl
      (.sender 0 rfl (.send 0 rfl rfl) fun k hk => List.getElem?_set_ne (Ne.symm hk)))
      (.nothing _ rfl))
    apply Reaches.step (.intro .left (.write rfl rfl) (.nothing _ rfl))
    apply Reaches.step (.intro .left (.write rfl hbody) (.nothing _ rfl))
    apply Reaches.step (.intro .right (.free hnotHeld rfl (.reader rfl rfl
      (.read Session.askInitialize.json.print rfl (by decide) rfl))) (.body rfl hread))
    refine Reaches.here ⟨rfl, ⟨_, _, _, List.mem_of_getElem? (i := 3) rfl⟩, ?_⟩
    intro d frame hmem
    simp at hmem
    exact hmem.2
  rcases hrun with ⟨es, p, hrun, hholder, hreads, hsent⟩
  have hlen : ∀ d l text, (d, .moved l) ∈ es → text ∈ l.texts (Session.peersConfig d).nl →
      text.length < 2 ^ 31 := by
    intro d l text hmem htext
    rcases Label.mem_texts.mp htext with ⟨frame, rfl, hserialize⟩
    rw [hsent d frame hmem] at hserialize
    rw [← Except.ok.inj hserialize]
    decide
  exact ⟨es, p, hrun, hholder, hreads, pipes_refine_peers Session.peersConfig es p hrun hlen⟩

end CLSP
