import CLSP.Protocol.Diagnostics
import CLSP.Server.Answers
import CLSP.Server.Lifecycle
import CLSP.Server.Peers

/-!
# Messages in order

Each of two servers reads what the other one has sent, in order and nothing twice, and so the
notifications of one method, among them the diagnostics that are published.
-/

namespace CLSP

open Channel Transition

/-! ## Sent and read -/

/-- Messages that have been parsed without an exception. -/
lemma messagesOf_eq {ls : List Label} {msgs : List ParsedMessage}
    (h : ls.filterMap Label.parse? = msgs.map Except.ok) : messagesOf ls = msgs := by
  have hmessage : ∀ l : Label, l.message? = l.parse?.bind Except.toOption := by
    intro l
    cases l <;> rfl
  calc messagesOf ls = (ls.filterMap Label.parse?).filterMap Except.toOption := by
        rw [List.filterMap_filterMap]
        exact List.filterMap_congr fun l _ => hmessage l
    _ = msgs := by
        rw [h, List.filterMap_map]
        exact List.filterMap_some

/-! ## Notifications of one method -/

def Frame.paramsOf (method : Bytes) : Frame → Option Json
  | .notification method' params => if method' = method then some params else none
  | _ => none

def ParsedMessage.paramsOf (method : Bytes) : ParsedMessage → Option Json
  | .notification notif => if notif.method = method then some notif.params else none
  | _ => none

lemma Frame.paramsOf_parsed (method : Bytes) (frame : Frame) :
    frame.parsed.paramsOf method = frame.paramsOf method := by
  cases frame <;> rfl

/-- The params of the notifications of a method that are sent, or read. -/
def paramsSent (method : Bytes) (ls : List Label) : List Json :=
  (framesOf ls).filterMap (Frame.paramsOf method)

def paramsRead (method : Bytes) (ls : List Label) : List Json :=
  (messagesOf ls).filterMap (ParsedMessage.paramsOf method)

/-- The frame that `publishDiagnostics` sends. -/
def publishDiagnostics (uri : DocumentUri) (diagnostics : List Diagnostic)
    (version : Option Int32) : Frame :=
  .notification (str "textDocument/publishDiagnostics")
    ({ uri, version, diagnostics } : PublishDiagnosticsParams).toJson

/-- The params of the diagnostics that are published. -/
lemma paramsSent_of_published {ls : List Label} {ps : List PublishDiagnosticsParams}
    (h : (framesOf ls).filter (fun frame =>
        (frame.paramsOf (str "textDocument/publishDiagnostics")).isSome) =
      ps.map fun p => publishDiagnostics p.uri p.diagnostics p.version) :
    paramsSent (str "textDocument/publishDiagnostics") ls =
      ps.map PublishDiagnosticsParams.toJson := by
  have hfilter :=
    congrArg (List.filterMap (Frame.paramsOf (str "textDocument/publishDiagnostics"))) h
  rw [List.filterMap_filter, List.filterMap_map] at hfilter
  unfold paramsSent
  rw [← List.filterMap_eq_map]
  refine Eq.trans (List.filterMap_congr fun frame _ => ?_) hfilter
  cases frame.paramsOf (str "textDocument/publishDiagnostics") with
  | none => rfl
  | some params => rfl

/-! ## The result -/

/-- What is expected of the messages that end `d` of two servers reads. -/
structure MessagesInOrder (ls : List (End × Label)) (p : Linked Server Bytes) (d : End) :
    Prop where
  /-- They are the frames that the other end has sent, but for those still on their way. -/
  read : ∃ pending : List Frame, (framesOf (side d.other ls)).map Frame.parsed =
      messagesOf (side d ls) ++ pending.map Frame.parsed ∧
    pending.length = (p.inFlight d).length
  parsed : ∀ body e, (d, .parseThrew body e) ∉ ls
  /-- The notifications of a method are read in the order in which they are sent. -/
  notified : ∀ method, paramsRead method (side d ls) <+: paramsSent method (side d.other ls)
  /-- The diagnostics that are published are decoded one after the other. -/
  diagnosed : ∀ ps : List PublishDiagnosticsParams,
    (framesOf (side d.other ls)).filter (fun frame =>
      (frame.paramsOf (str "textDocument/publishDiagnostics")).isSome) =
      ps.map (fun p => publishDiagnostics p.uri p.diagnostics p.version) →
    ∃ qs, qs <+: ps ∧
      (paramsRead (str "textDocument/publishDiagnostics") (side d ls)).map
        PublishDiagnosticsParams.fromJson =
      qs.map fun p => .ok { p with diagnostics := p.diagnostics.map Diagnostic.received }

section Peers

variable {cfg : End → Config} {ls : List (End × Label)} {p : Linked Server Bytes} {d : End}

/-- What is read has been sent, and what has been sent and not read is on its way. -/
lemma PeersRuns.messages (h : PeersRuns cfg ls p) (hwire : Understood cfg ls) (d : End) :
    ∃ n, (side d ls).filterMap Label.parse? =
        ((framesOf (side d.other ls)).take n).map (fun frame => .ok frame.parsed) ∧
      ((framesOf (side d.other ls)).drop n).length = (p.inFlight d).length := by
  have hparsed := h.parsed hwire d
  refine ⟨((side d ls).filterMap Label.parse?).length, ?_, ?_⟩
  · rw [List.map_take, ← hparsed, List.take_left]
  · have hlength := congrArg List.length hparsed
    rw [List.length_append, List.length_map, List.length_map] at hlength
    rw [List.length_drop]
    omega

/-- **Messages arrive in order.** Each of two servers reads the messages the other one sends, in
order, each once and as what it is, and decodes the diagnostics that are published. -/
theorem messages_in_order (cfg : End → Config) (ls : List (End × Label))
    (p : Linked Server Bytes) (h : PeersRuns cfg ls p) (hwire : Understood cfg ls) (d : End) :
    MessagesInOrder ls p d := by
  rcases h.messages hwire d with ⟨n, hread, hpending⟩
  have hmessages : messagesOf (side d ls) =
      ((framesOf (side d.other ls)).take n).map Frame.parsed := by
    refine messagesOf_eq ?_
    rw [hread, List.map_map]
    rfl
  have hparams : ∀ method, paramsRead method (side d ls) =
      ((framesOf (side d.other ls)).take n).filterMap (Frame.paramsOf method) := by
    intro method
    unfold paramsRead
    rw [hmessages, List.filterMap_map]
    exact List.filterMap_congr fun frame _ => frame.paramsOf_parsed method
  have hnotified : ∀ method,
      paramsRead method (side d ls) <+: paramsSent method (side d.other ls) := by
    intro method
    rw [hparams]
    exact (List.take_prefix _ _).filterMap _
  refine ⟨⟨_, ?_, hpending⟩, ?_, hnotified, ?_⟩
  · rw [hmessages, ← List.map_append, List.take_append_drop]
  · intro body e hmem
    have herror : Except.error e ∈ (side d ls).filterMap Label.parse? :=
      List.mem_filterMap.mpr ⟨_, mem_side.mpr hmem, rfl⟩
    rw [hread] at herror
    rcases List.mem_map.mp herror with ⟨frame, -, hframe⟩
    exact absurd hframe (by simp)
  · intro ps hps
    have hinit := hnotified (str "textDocument/publishDiagnostics")
    rw [paramsSent_of_published hps] at hinit
    rw [List.prefix_iff_eq_take.mp hinit, ← List.map_take, List.map_map]
    exact ⟨_, List.take_prefix _ _, List.map_congr_left fun p _ => p.fromJson_toJson⟩

end Peers

/-! ## Diagnostics that are published twice -/

namespace Session

def published : Frame :=
  publishDiagnostics (str "file:///a") [diagnostic (.integer 7)] (some 1)

def publishing (_ : End) : Config where
  nl := .ofFrames [published]
  userRequests := []
  userNotifications := []
  workerThreads := 1

lemma parse_published (d : End) :
    (publishing d).nl.parse published.json.print = .ok published.json := by
  simp [publishing, Nlohmann.ofFrames, Nlohmann.ofTable]

end Session

/-- They have been read once, and are on their way again. -/
theorem messages_in_order_session :
    Reaches (PeersStep Session.publishing) (.start fun d => .start (Session.publishing d))
      fun ls p => (paramsRead (str "textDocument/publishDiagnostics") (side .right ls)).length = 1 ∧
        (p.inFlight .right).length = 1 ∧ MessagesInOrder ls p .right := by
  have hrun : Reaches (PeersStep Session.publishing)
      (.start fun d => .start (Session.publishing d)) fun ls p =>
      (paramsRead (str "textDocument/publishDiagnostics") (side .right ls)).length = 1 ∧
        (p.inFlight .right).length = 1 ∧ Understood Session.publishing ls := by
    have hparse := parseMessage_of_parse (Session.parse_published .right)
    rw [classify_json] at hparse
    apply Reaches.step (l := (.left, .sent Session.published))
      (.intro .left (.sender rfl (.notify rfl)) rfl)
    apply Reaches.step (l := (.left, .sent Session.published))
      (.intro .left (.sender rfl (.notify rfl)) rfl)
    apply Reaches.step (.intro .right (.reader rfl rfl
      (.read Session.published.json.print rfl (by decide) hparse)) rfl)
    refine Reaches.here ⟨rfl, rfl, ?_⟩
    intro d frame text hmem hserialize
    simp at hmem
    rcases hmem with ⟨rfl, rfl⟩
    rw [← Except.ok.inj hserialize]
    exact Session.parse_published .right
  rcases hrun with ⟨ls, p, hrun, hread, hpending, hwire⟩
  refine ⟨ls, p, hrun, hread, hpending, ?_⟩
  exact messages_in_order Session.publishing ls p hrun hwire .right

end CLSP
