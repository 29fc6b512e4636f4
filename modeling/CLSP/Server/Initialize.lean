import CLSP.Protocol.Capabilities
import CLSP.Protocol.Lifecycle
import CLSP.Server.Documents
import CLSP.Server.Failure

/-!
# What `initialize` announces

The handler of `initialize` looks at two of the capabilities it returns to the client, the kind of
synchronization and the position encoding. The encoding that the client reads in the result is the
one the server counts in from then on, as long as it is one of the three of the protocol.
-/

namespace CLSP

open Json (find? find?_ofFields)
open Transition

/-! ## The handler -/

/-- The capabilities that the handler looks at. -/
def InitializeResult.announced (r : InitializeResult) : Server.Capabilities where
  textDocumentSync := r.capabilities.textDocumentSync
  positionEncoding := r.capabilities.positionEncoding

/-- What `onInitialize` of the user may do with some params. -/
abbrev OnInitialize := InitializeParams → Except Exn InitializeResult → Prop

/-- The handler of `initialize` in `registerLifecycleHandlers`: what it returns or throws, and the
server it leaves. -/
inductive InitializeHandler (onInitialize : OnInitialize) (params : Json) (s : Server) :
    Except Exn Json → Server → Prop
  | decodeThrows {error : JsonError} {e : Exn} : InitializeParams.fromJson params = .error error →
      e.isStd = true → InitializeHandler onInitialize params s (.error e) s
  | throws {p : InitializeParams} {e : Exn} : InitializeParams.fromJson params = .ok p →
      onInitialize p (.error e) → InitializeHandler onInitialize params s (.error e) s
  | returns {p : InitializeParams} {r : InitializeResult} :
      InitializeParams.fromJson params = .ok p → onInitialize p (.ok r) →
      InitializeHandler onInitialize params s (.ok r.toJson)
        (s.lifecycleReturns r.announced .initializeRequest)

/-- A step of a server, where the handler of `initialize` is that one. -/
structure InitializingStep (cfg : Config) (onInitialize : OnInitialize) (s : Server) (l : Label)
    (s' : Server) : Prop where
  step : Step cfg s l s'
  handler : ∀ call outcome, l = .handlerEnded call outcome → call.handler = .initializeRequest →
    ∃ u, InitializeHandler onInitialize call.params s outcome u ∧ s'.syncKind_ = u.syncKind_ ∧
      s'.documents_ = u.documents_

/-! ## The client -/

/-- A member of the capabilities in the result of `initialize`. -/
def announcedMember (result : Json) (key : Bytes) : Option Json :=
  (find? result (str "capabilities")).bind fun capabilities => find? capabilities key

/-- The encoding that the result tells the client to count in: UTF-16 unless it names one. A name
that is none of the three tells it nothing. -/
inductive Announces (result : Json) : PositionEncoding → Prop
  | unstated : announcedMember result (str "positionEncoding") = none → Announces result .UTF16
  | utf8 : announcedMember result (str "positionEncoding") = some (.string (str "utf-8")) →
      Announces result .UTF8
  | utf16 : announcedMember result (str "positionEncoding") = some (.string (str "utf-16")) →
      Announces result .UTF16
  | utf32 : announcedMember result (str "positionEncoding") = some (.string (str "utf-32")) →
      Announces result .UTF32

lemma announcedMember_toJson (r : InitializeResult) (key : Bytes) :
    announcedMember r.toJson key = find? r.capabilities.toJson key := by
  have hfind : find? r.toJson (str "capabilities") = some r.capabilities.toJson :=
    find?_ofFields (i := 0) r.nodup_keys rfl
  rw [announcedMember, hfind]
  rfl

lemma announcedMember_positionEncoding (r : InitializeResult) :
    announcedMember r.toJson (str "positionEncoding") =
      r.capabilities.positionEncoding.map .string := by
  rw [announcedMember_toJson]
  exact find?_ofFields (i := 1) ServerCapabilities.nodup_keys rfl

/-- The handler parses the encoding that the client reads. -/
lemma Announces.parsed {r : InitializeResult} {e : PositionEncoding} (h : Announces r.toJson e) :
    (r.capabilities.positionEncoding.bind positionEncodingFromString).getD .UTF16 = e := by
  have hname : ∀ {name : Bytes}, announcedMember r.toJson (str "positionEncoding") =
      some (.string name) → r.capabilities.positionEncoding = some name := by
    intro name hmember
    rw [announcedMember_positionEncoding] at hmember
    rcases Option.map_eq_some_iff.mp hmember with ⟨name', hname', heq⟩
    rw [hname', Json.string.inj heq]
  cases h with
  | unstated hnone =>
    rw [announcedMember_positionEncoding, Option.map_eq_none_iff] at hnone
    rw [hnone]
    rfl
  | utf8 hmember | utf16 hmember | utf32 hmember =>
    rw [hname hmember]
    decide

/-- The server counts in the encoding that the result tells. -/
def Server.GoesBy (s : Server) (result : Json) : Prop :=
  ∀ e, Announces result e → s.documents_.encoding_ = e

/-! ## Steps -/

section Steps

variable {cfg : Config} {onInitialize : OnInitialize} {s s' : Server} {l : Label} {ls : List Label}

/-- Where the handler has returned the server goes by its result. -/
lemma InitializingStep.goesBy {call : RequestCall} {value : Json}
    (h : InitializingStep cfg onInitialize s (.handlerEnded call (.ok value)) s')
    (hcall : call.handler = .initializeRequest) (hencoding : s.documents_.encoding_ = .UTF16) :
    s'.GoesBy value ∧ ∃ p r, InitializeParams.fromJson call.params = .ok p ∧
      onInitialize p (.ok r) ∧ value = r.toJson := by
  rcases h.handler call _ rfl hcall with ⟨u, hreturns, -, hdocuments⟩
  cases hreturns with
  | @returns p r hparams hresult =>
    refine ⟨fun e hannounces => ?_, p, r, hparams, hresult, rfl⟩
    rw [hdocuments, ← hannounces.parsed]
    show (s.lifecycleReturns r.announced .initializeRequest).documents_.encoding_ = _
    unfold Server.lifecycleReturns
    simp only [InitializeResult.announced]
    cases hparsed : r.capabilities.positionEncoding.bind positionEncodingFromString with
    | none => exact hencoding
    | some e => rfl

/-! ## Runs -/

/-- The runs of a server, with their states. -/
abbrev InitializingRuns (cfg : Config) (onInitialize : OnInitialize) (es : List (Server × Label))
    (s : Server) : Prop :=
  Run (Recorded (InitializingStep cfg onInitialize)) (.start cfg) es s

variable {es : List (Server × Label)}

lemma InitializingRuns.recorded (h : InitializingRuns cfg onInitialize es s) :
    RecordedRuns cfg es s := by
  induction h with
  | nil => exact .nil
  | snoc _ hstep ih =>
    cases hstep with
    | intro hstep => exact ih.snoc (.intro hstep.step)

/-- Nothing else writes the encoding. -/
lemma keeps_encoding {t u : Server} {ms : List (Server × Label)}
    (h : Run (Recorded (InitializingStep cfg onInitialize)) t ms u)
    (hms : encodingWrites (ms.map Prod.snd) = 0) :
    u.documents_.encoding_ = t.documents_.encoding_ := by
  refine h.invariant_of_labels (I := fun u => u.documents_.encoding_ = t.documents_.encoding_)
    (P := fun e => e.2.setsEncoding = false) rfl ?_ ?_
  · rintro u ⟨_, l⟩ u' hencoding hl hstep
    cases hstep with
    | intro hstep => exact (hstep.step.encoding hl).trans hencoding
  · intro e he
    have hnot := List.countP_eq_zero.mp hms e.2 (List.mem_map_of_mem he)
    simpa using hnot

lemma Runs.encodingWrites_le (hkept : cfg.LifecycleKept) (h : Runs cfg ls s) :
    encodingWrites ls ≤ 1 := by
  cases Runs.startup hkept h with
  | before _ hnone =>
    rw [hnone]
    exact Nat.zero_le 1
  | during _ hle => exact hle
  | after _ hle => exact hle

/-- A server goes by the result of its one `initialize`. -/
lemma InitializingRuns.goesBy (hkept : cfg.LifecycleKept)
    (h : InitializingRuns cfg onInitialize es s) {call : RequestCall} {value : Json}
    (hended : .handlerEnded call (.ok value) ∈ es.map Prod.snd)
    (hcall : call.handler = .initializeRequest) :
    s.GoesBy value ∧ ∃ p r, InitializeParams.fromJson call.params = .ok p ∧
      onInitialize p (.ok r) ∧ value = r.toJson := by
  rcases List.mem_map.mp hended with ⟨⟨t, l⟩, hmem, rfl⟩
  rcases List.append_of_mem hmem with ⟨es₁, es₂, rfl⟩
  have hsets : (Label.handlerEnded call (.ok value)).setsEncoding = true := decide_eq_true hcall
  have hwrites := Runs.encodingWrites_le hkept (Run.unrecord (InitializingRuns.recorded h))
  unfold encodingWrites at hwrites
  rw [List.map_append, List.map_cons, List.countP_append, List.countP_cons, if_pos hsets]
    at hwrites
  rcases h.split_at with ⟨t, t', hrun, hstep, hrest⟩
  cases hstep with
  | intro hstep =>
    -- nothing has been written before, and nothing is after
    have hbefore := keeps_encoding hrun (by unfold encodingWrites; omega)
    have hafter := keeps_encoding hrest (by unfold encodingWrites; omega)
    rcases hstep.goesBy hcall hbefore with ⟨hgoesBy, hresult⟩
    exact ⟨fun e hannounces => hafter.trans (hgoesBy e hannounces), hresult⟩

end Steps

/-! ## The result -/

/-- What is expected of a server once its handler of `initialize` has returned `value` for the
request of `call`. -/
structure InitializeAnnounces (cfg : Config) (onInitialize : OnInitialize)
    (es : List (Server × Label)) (s : Server) (call : RequestCall) (value : Json) : Prop where
  /-- It is the result of `onInitialize` for the params of the request. -/
  result : ∃ p r, InitializeParams.fromJson call.params = .ok p ∧ onInitialize p (.ok r) ∧
    value = r.toJson
  goesBy : s.GoesBy value
  /-- A client that counts in the encoding it reads there finds its documents on the server. -/
  follows : cfg.SyncKept → ∀ e, Announces value e → ∀ opss : List (List ClientOperation),
    List.Forall₂ Tells ((documentNotifications es).map Prod.snd) opss →
    HistoryInBounds e (fun _ => none) opss.flatten →
    ∃ ops, ops <+: opss.flatten ∧ (s.reader = .returned → ops = opss.flatten) ∧
      Refines e s.documents_ (clientRun e ops)

/-- **The encoding that is announced is the one that is used.** In every run the server counts in
the encoding that the result of `initialize` tells from the moment it is there, and a client that
does so as well and the server have the same documents. -/
theorem initialize_announces (cfg : Config) (hkept : cfg.LifecycleKept)
    (onInitialize : OnInitialize) (es : List (Server × Label)) (s : Server)
    (h : InitializingRuns cfg onInitialize es s) (call : RequestCall) (value : Json)
    (hended : .handlerEnded call (.ok value) ∈ es.map Prod.snd)
    (hcall : call.handler = .initializeRequest) :
    InitializeAnnounces cfg onInitialize es s call value := by
  rcases InitializingRuns.goesBy hkept h hended hcall with ⟨hgoesBy, hresult⟩
  refine ⟨hresult, hgoesBy, fun hsync e hannounces opss htells hbounds => ?_⟩
  rcases RecordedRuns.client_served hsync (InitializingRuns.recorded h) htells with
    ⟨ops, rest, hflatten, hdocuments, hlast⟩
  rw [← hgoesBy e hannounces] at hbounds ⊢
  rw [hflatten] at hbounds
  exact ⟨ops, ⟨rest, hflatten.symm⟩, hlast,
    refines_of_served (historyInBounds_append hbounds) hdocuments⟩

/-! ## A session in UTF-8 -/

lemma InitializingStep.of_other {cfg : Config} {onInitialize : OnInitialize} {s s' : Server}
    {l : Label} (h : Step cfg s l s') (hl : l.setsEncoding = false)
    (hfailed : ∀ call e, l ≠ .handlerEnded call (.error e)) :
    InitializingStep cfg onInitialize s l s' := by
  refine ⟨h, ?_⟩
  rintro call (e | value) rfl hcall
  · exact absurd rfl (hfailed call e)
  · exact absurd hl (by simp [Label.setsEncoding, hcall])

lemma InitializingStep.of_returns {cfg : Config} {onInitialize : OnInitialize} {s s' : Server}
    {call : RequestCall} {p : InitializeParams} {r : InitializeResult}
    (h : Step cfg s (.handlerEnded call (.ok r.toJson)) s')
    (hparams : InitializeParams.fromJson call.params = .ok p) (hresult : onInitialize p (.ok r))
    (hkind : s'.syncKind_ = (s.lifecycleReturns r.announced .initializeRequest).syncKind_)
    (hdocuments : s'.documents_ = (s.lifecycleReturns r.announced .initializeRequest).documents_) :
    InitializingStep cfg onInitialize s (.handlerEnded call (.ok r.toJson)) s' := by
  refine ⟨h, ?_⟩
  rintro call' outcome heq -
  cases heq
  exact ⟨_, .returns hparams hresult, hkind, hdocuments⟩

/-- The server counts in bytes. -/
def Session.inBytes : InitializeResult where
  capabilities :=
    { textDocumentSync := some .Incremental, positionEncoding := some (str "utf-8") }

def Session.onInitialize : OnInitialize :=
  fun _ outcome => outcome = .ok Session.inBytes

lemma Session.edits_in_bytes :
    Reaches (Recorded (InitializingStep editing onInitialize)) (Server.start editing) fun es _ =>
      (∃ call, call.handler = .initializeRequest ∧
        (es.map Prod.snd)[2]? = some (.handlerEnded call (.ok inBytes.toJson))) ∧
      ∃ n m, parseMessage editing.nl didOpen.json.print = .ok (.notification n) ∧
        parseMessage editing.nl didChange.json.print = .ok (.notification m) ∧
        (documentNotifications es).map Prod.snd = [n, m] := by
  apply Reaches.step (.intro (.of_other (.reader rfl rfl
    (.read initializeRequest.json.print rfl (by decide) rfl)) rfl (by simp)))
  apply Reaches.step (.intro (.of_other (.reader rfl rfl
    (.handler ⟨none, none⟩ rfl (.start rfl))) rfl (by simp)))
  apply Reaches.step (.intro (.of_returns (.reader rfl rfl
    (.handler inBytes.announced rfl (.returns inBytes.toJson))) rfl rfl rfl rfl))
  apply Reaches.step (.intro (.of_other (.reader rfl rfl (.handlerFinishes rfl (.send rfl)))
    rfl (by simp)))
  apply Reaches.step (.intro (.of_other (.reader rfl rfl
    (.read didOpen.json.print rfl (by decide) rfl)) rfl (by simp)))
  apply Reaches.step (.intro (.of_other (.reader rfl rfl (.submit rfl)) rfl (by simp)))
  apply Reaches.step (.intro (.of_other (.worker .sync 0 rfl (.take rfl rfl)) rfl (by simp)))
  apply Reaches.step (.intro (.of_other (.worker .sync 0 rfl (.notification rfl .start))
    rfl (by simp)))
  apply Reaches.step (.intro (.of_other (.worker .sync 0 rfl (.notification rfl (.hook rfl)))
    rfl (by simp)))
  apply Reaches.step (.intro (.of_other (.reader rfl rfl
    (.read didChange.json.print rfl (by decide) rfl)) rfl (by simp)))
  exact Reaches.here ⟨⟨_, rfl, rfl⟩, _, _, rfl, rfl, rfl⟩

theorem initialize_announces_session :
    ∃ es s call, InitializingRuns Session.editing Session.onInitialize es s ∧
      (documentNotifications es).length = 2 ∧ s.documents_.encoding_ = .UTF8 ∧
      InitializeAnnounces Session.editing Session.onInitialize es s call
        Session.inBytes.toJson := by
  rcases Session.edits_in_bytes with ⟨es, s, hrun, ⟨call, hcall, hended⟩, n, m, -, -, hnotifs⟩
  have hannounces := initialize_announces Session.editing ⟨by decide, by decide, by decide⟩
    Session.onInitialize es s hrun call _ (List.mem_of_getElem? hended) hcall
  refine ⟨es, s, call, hrun, ?_, hannounces.goesBy .UTF8 (.utf8 rfl), hannounces⟩
  have hlength := congrArg List.length hnotifs
  rw [List.length_map] at hlength
  exact hlength

end CLSP
