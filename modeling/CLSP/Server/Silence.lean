import CLSP.Rpc.Codec
import CLSP.Server.ReadLoop

/-!
# Responses are not answered

A response that comes in is looked up, handed to its callback or dropped. The exception is the one
with a null id, the form in which errors about unreadable messages are sent: `parseMessage` takes it
for an invalid request, and `run` answers it with a frame of the same form.
-/

namespace CLSP

open Transition (Run Reaches)

/-! ## Response objects -/

/-- The members of a JSON-RPC 2.0 response with this id. -/
structure IsResponse (members : List (Bytes × Json)) (id : Json) : Prop where
  version : members.lookup (str "jsonrpc") = some (.string JSONRPC_VERSION)
  no_method : members.lookup (str "method") = none
  outcome : (members.lookup (str "result")).isSome ∨ (members.lookup (str "error")).isSome
  id_eq : members.lookup (str "id") = some id
  id_kind : (∃ n, id = .integer n) ∨ (∃ s, id = .string s) ∨ id = .null

section IsResponse

variable {members : List (Bytes × Json)} {id : Json}

/-- With an id that is not null it is classified as a response. -/
lemma IsResponse.classify_of_ne_null (h : IsResponse members id) (hid : id ≠ .null) :
    ∃ resp, classify (.object members) = .response resp := by
  have hfrom : ∃ rid, idFromJson id = some rid := by
    rcases h.id_kind with ⟨n, rfl⟩ | ⟨s, rfl⟩ | hnull
    · exact ⟨_, rfl⟩
    · exact ⟨_, rfl⟩
    · exact absurd hnull hid
  rcases hfrom with ⟨rid, hrid⟩
  rw [classify_of_no_method h.version h.no_method, classifyResponse_of_id h.id_eq hrid]
  split
  · exact ⟨_, rfl⟩
  · exact ⟨_, rfl⟩
  · next herror hresult =>
    -- one of the two members is there
    rcases h.outcome with hsome | hsome
    · rw [hresult] at hsome
      exact absurd hsome (by simp)
    · rw [herror] at hsome
      exact absurd hsome (by simp)

/-- With a null id it is taken for an invalid request. -/
lemma IsResponse.classify_of_null (h : IsResponse members .null) :
    classify (.object members) = invalidRequest "Invalid id type" := by
  rw [classify_of_no_method h.version h.no_method]
  exact classifyResponse_of_no_id h.id_eq rfl

/-- The frames of `serializeError` are responses. -/
lemma isResponse_error (id : RequestId) (code : ErrorCodes) (message : Bytes) :
    ∃ members, (Frame.error id code message).json = .object members ∧
      IsResponse members (idToJson id) := by
  refine ⟨_, rfl, rfl, rfl, Or.inr rfl, rfl, ?_⟩
  cases id with
  | int n => exact Or.inl ⟨_, rfl⟩
  | str s => exact Or.inr (Or.inl ⟨s, rfl⟩)

lemma isResponse_errorNull (code : ErrorCodes) (message : Bytes) :
    ∃ members, (Frame.errorNull code message).json = .object members ∧
      IsResponse members .null :=
  ⟨_, rfl, rfl, rfl, Or.inr rfl, rfl, Or.inr (Or.inr rfl)⟩

end IsResponse

/-! ## Silence -/

/-- Until it reads the next message the read thread sends nothing, whatever the other threads do. -/
def Server.KeepsSilent (cfg : Config) (s : Server) : Prop :=
  ∀ ms u l u', Run (Step cfg) s ms u → (∀ m body msg, .read m body msg ∉ ms) →
    u.terminated = false → u.threw = false → ReaderStep cfg u l u' → ∀ frame, l ≠ .sent frame

/-- Where the read thread has nothing to send before the next message. -/
def ReaderPc.Quiet : ReaderPc → Prop
  | .loop => True
  | .responding _ _ => True
  | .submitting _ (.callback _ _ _) => True
  | .stopping _ => True
  | .joining _ => True
  | .returned => True
  | _ => False

section Steps

variable {cfg : Config} {s s' : Server} {l : Label}

/-- From there the read thread goes on without sending. -/
lemma ReaderStep.quiet (h : ReaderStep cfg s l s') (hs : s.reader.Quiet)
    (hl : ∀ m body msg, l ≠ .read m body msg) : s'.reader.Quiet ∧ ∀ frame, l ≠ .sent frame := by
  cases h with
  | read body _ _ _ => exact absurd rfl (hl _ body _)
  | submit hr | stop hr => exact ⟨trivial, by simp⟩
  | parseThrows => exact ⟨hs, by simp⟩
  | endOfInput | leave | unmatched | matched | joinSync | joinWorkers => exact ⟨trivial, by simp⟩
  | send hr | sendThrows hr | handler _ hr | handlerFinishes hr | handlerEscapes hr
  | insertToken hr | cancel hr | notified hr | notifyEscapes hr | exited hr | exitThrows _ hr =>
    -- the read thread is not there
    rw [hr] at hs
    exact absurd hs id

lemma Step.quiet (h : Step cfg s l s') (hs : s.reader.Quiet)
    (hl : ∀ m body msg, l ≠ .read m body msg) : s'.reader.Quiet := by
  cases h with
  | reader _ _ h => exact (h.quiet hs hl).1
  | worker _ _ _ h =>
    rw [h.control.1]
    exact hs
  | sender _ h =>
    rcases h.frame with ⟨_, _, _, rfl⟩
    exact hs

lemma Server.keepsSilent_of_quiet (hs : s.reader.Quiet) : s.KeepsSilent cfg := by
  intro ms u l u' hrun hms _ _ hstep
  have hquiet : u.reader.Quiet := by
    apply hrun.invariant_of_labels (I := fun t => t.reader.Quiet)
      (P := fun l => ∀ m body msg, l ≠ .read m body msg) hs
    · intro t l v ht hl hst
      exact hst.quiet ht hl
    · intro l hl m body msg heq
      rw [heq] at hl
      exact hms m body msg hl
  intro frame hsent
  subst hsent
  exact (hstep.quiet hquiet (by simp)).2 frame rfl

lemma handleResponse_quiet (resp : ParsedResponse) : (handleResponse resp).Quiet := by
  unfold handleResponse
  split
  · trivial
  · trivial

/-! ## The result -/

/-- What is expected of every run: no response that is read is answered. -/
def ResponsesUnanswered (cfg : Config) : Prop :=
  ∀ (ls : List Label) (s s' : Server) (m : ℕ) (body : Bytes) (msg : ParsedMessage)
    (members : List (Bytes × Json)) (id : Json),
    Runs cfg ls s → Step cfg s (.read m body msg) s' → cfg.nl.parse body = .ok (.object members) →
    IsResponse members id → s'.KeepsSilent cfg

/-- The read thread reacts to a response without a frame exactly when its id is not null. -/
theorem keepsSilent_iff (cfg : Config) (hnl : cfg.nl.Documented) {s s' : Server} {m : ℕ}
    {body : Bytes} {msg : ParsedMessage} {members : List (Bytes × Json)} {id : Json}
    (hread : Step cfg s (.read m body msg) s') (hparse : cfg.nl.parse body = .ok (.object members))
    (hresp : IsResponse members id) : s'.KeepsSilent cfg ↔ id ≠ .null := by
  have hlive := hread.live
  rcases hread.read_inv with ⟨-, hthrew, -, hmsg, rfl⟩
  have hclass : msg = classify (.object members) :=
    Except.ok.inj (hmsg.symm.trans (parseMessage_of_parse hparse))
  constructor
  · intro hsilent hnull
    subst hnull
    -- the answer can be printed, and the next step of the read thread sends it
    have hvalid : (Frame.errorNull .InvalidRequest (str "Invalid id type")).ValidUtf8 := valid_str _
    rcases hvalid.serialize hnl with ⟨text, htext⟩
    rw [hclass, hresp.classify_of_null] at hsilent
    exact hsilent [] _ _ _ .nil (by simp) hlive hthrew (.send rfl htext) _ rfl
  · intro hid
    rcases hresp.classify_of_ne_null hid with ⟨resp, heq⟩
    rw [hclass, heq]
    apply Server.keepsSilent_of_quiet
    exact handleResponse_quiet resp

end Steps

/-! ## Two endpoints -/

/-- The frame that answers a response with a null id. -/
def Frame.invalidId : Frame :=
  .errorNull .InvalidRequest (str "Invalid id type")

/-- A server whose library knows this frame, and one with an id. -/
def Session.echo : Config where
  nl := .ofFrames [.invalidId, .error (.int 1) .InternalError (str "no")]
  userRequests := []
  userNotifications := []
  workerThreads := 1

lemma Session.documented_echo : Session.echo.nl.Documented := by
  apply Nlohmann.documented_ofFrames
  intro frame hframe
  simp only [List.mem_cons, List.not_mem_nil, or_false] at hframe
  rcases hframe with rfl | rfl
  · exact valid_str _
  · exact ⟨trivial, valid_str _⟩

/-- An error with an id is not answered. -/
theorem keepsSilent_session :
    Reaches (Step Session.echo) (Server.start Session.echo) fun _ s =>
      s.KeepsSilent Session.echo := by
  have hread : Step Session.echo (Server.start Session.echo) _ _ :=
    .reader rfl rfl (.read (Frame.error (.int 1) .InternalError (str "no")).json.print rfl
      (by decide) rfl)
  rcases isResponse_error (.int 1) .InternalError (str "no") with ⟨members, hmembers, hresp⟩
  apply Reaches.step hread
  apply Reaches.here
  apply (keepsSilent_iff Session.echo Session.documented_echo hread ?_ hresp).mpr
  · exact fun h => absurd h (by simp [idToJson])
  · rw [← hmembers]
    rfl

/-- The frames sent in a run. -/
def framesOf (ls : List Label) : List Frame :=
  ls.filterMap fun l => match l with
    | .sent frame => some frame
    | _ => none

/-- A round: the server reads the null-id error and sends the same frame. -/
lemma echo_round {ls : List Label} {s : Server} (h : Runs Session.echo ls s)
    (hs : s.reader = .loop ∧ s.state_ ≠ .Exited ∧ s.threw = false ∧ s.terminated = false) :
    ∃ l s', Runs Session.echo (ls ++ [l] ++ [.sent .invalidId]) s' ∧
      l.body? = some Frame.invalidId.json.print ∧ framesOf [l] = [] ∧
      s'.reader = .loop ∧ s'.state_ ≠ .Exited ∧ s'.threw = false ∧ s'.terminated = false := by
  rcases hs with ⟨hreader, hstate, hthrew, hlive⟩
  have hread : Step Session.echo s _ _ :=
    .reader hlive hthrew (.read Frame.invalidId.json.print hreader hstate rfl)
  have hafter : Runs Session.echo _ _ := h.snoc hread
  exact ⟨_, _, hafter.snoc (.reader hlive hthrew (.send rfl rfl)), rfl, rfl, rfl, hstate, hthrew,
    hlive⟩

/-- Every response with a null id is answered by a frame that is itself such a response: two
servers that are connected go on for as many rounds as one likes. -/
theorem session_echoes :
    Session.echo.nl.Documented ∧ ¬ ResponsesUnanswered Session.echo ∧
      ∀ n, Reaches (Step Session.echo) (Server.start Session.echo) fun ls _ =>
        bodiesOf ls = List.replicate n Frame.invalidId.json.print ∧
          framesOf ls = List.replicate n .invalidId := by
  refine ⟨Session.documented_echo, ?_, ?_⟩
  · intro h
    have hread : Step Session.echo (Server.start Session.echo) _ _ :=
      .reader rfl rfl (.read Frame.invalidId.json.print rfl (by decide) rfl)
    rcases isResponse_errorNull .InvalidRequest (str "Invalid id type") with
      ⟨members, hmembers, hresp⟩
    have hparse : Session.echo.nl.parse Frame.invalidId.json.print = .ok (.object members) := by
      rw [← hmembers]
      rfl
    have hsilent := h [] _ _ _ _ _ members .null .nil hread hparse hresp
    exact hsilent [] _ _ _ .nil (by simp) rfl rfl (.send rfl rfl) _ rfl
  · intro n
    -- on the number of rounds, the server being back in its loop after each
    have hrounds : ∃ ls s, Runs Session.echo ls s ∧
        bodiesOf ls = List.replicate n Frame.invalidId.json.print ∧
        framesOf ls = List.replicate n .invalidId ∧
        s.reader = .loop ∧ s.state_ ≠ .Exited ∧ s.threw = false ∧ s.terminated = false := by
      induction n with
      | zero => exact ⟨[], _, .nil, rfl, rfl, rfl, by decide, rfl, rfl⟩
      | succ n ih =>
        rcases ih with ⟨ls, s, hrun, hbodies, hframes, hs⟩
        rcases echo_round hrun hs with ⟨l, s', hrun', hbody, hframe, hs'⟩
        refine ⟨_, s', hrun', ?_, ?_, hs'⟩
        · have hlast : bodiesOf [l] = [Frame.invalidId.json.print] := by simp [bodiesOf, hbody]
          have hsent : bodiesOf [.sent .invalidId] = [] := rfl
          unfold bodiesOf at hbodies hlast hsent ⊢
          rw [List.filterMap_append, List.filterMap_append, hbodies, hlast, hsent, List.append_nil,
            List.replicate_succ']
        · have hsent : framesOf [.sent .invalidId] = [.invalidId] := rfl
          unfold framesOf at hframes hframe hsent ⊢
          rw [List.filterMap_append, List.filterMap_append, hframes, hframe, hsent,
            List.append_nil, List.replicate_succ']
    rcases hrounds with ⟨ls, s, hrun, hbodies, hframes, -⟩
    exact ⟨ls, s, hrun, hbodies, hframes⟩

end CLSP
