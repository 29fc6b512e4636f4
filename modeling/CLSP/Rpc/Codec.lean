import CLSP.Rpc.Table

/-!
# The round trip of the codec

`parseMessage` undoes the four serializers of frames with an id or a method, for every id, method
and payload on whose frame the JSON library undoes its own printing. The fifth form, the error with
a null id, is not read back as the response it is.
-/

namespace CLSP

/-- `parse` undoes `dump` on a value. -/
def Nlohmann.Undoes (nl : Nlohmann) (j : Json) : Prop :=
  ∃ text, nl.dump j = .ok text ∧ nl.parse text = .ok j

/-! ## Ids -/

@[simp] lemma idFromJson_idToJson (id : RequestId) : idFromJson (idToJson id) = some id := by
  cases id with
  | int n =>
    show some (RequestId.int (Int32.ofInt n.toInt)) = _
    rw [Int32.ofInt_toInt]
  | str => rfl

/-- The ids that an `int` or a string holds. -/
def Json.FitsId : Json → Prop
  | .integer n => -2147483648 ≤ n ∧ n < 2147483648
  | _ => True

/-- The cast to `int` leaves the numbers of 32 bits alone, and no others. -/
lemma toInt_ofInt_eq_iff (n : ℤ) :
    (Int32.ofInt n).toInt = n ↔ -2147483648 ≤ n ∧ n < 2147483648 := by
  constructor
  · intro h
    have hle := Int32.le_toInt (Int32.ofInt n)
    have hlt := Int32.toInt_lt (Int32.ofInt n)
    rw [h] at hle hlt
    omega
  · intro h
    have hsize : Int32.size = 4294967296 := rfl
    rw [Int32.toInt_ofInt]
    apply Int.bmod_eq_of_le
    · omega
    · omega

/-- An id is carried unchanged exactly when it fits. -/
lemma idToJson_eq_iff {j : Json} {id : RequestId} (h : idFromJson j = some id) :
    idToJson id = j ↔ j.FitsId := by
  cases j with
  | integer n =>
    rw [← Option.some.inj h]
    show Json.integer (Int32.ofInt n).toInt = .integer n ↔ _
    rw [Json.integer.injEq]
    exact toInt_ofInt_eq_iff n
  | string s =>
    rw [← Option.some.inj h]
    exact ⟨fun _ => trivial, fun _ => rfl⟩
  | _ => exact absurd h (by simp [idFromJson])

lemma fitsId_idToJson (id : RequestId) : (idToJson id).FitsId :=
  (idToJson_eq_iff (idFromJson_idToJson id)).mp rfl

/-! ## The branches of `parseMessage` -/

/-- The branch for messages without a method. -/
lemma classify_of_no_method {members : List (Bytes × Json)}
    (hversion : members.lookup (str "jsonrpc") = some (.string JSONRPC_VERSION))
    (hmethod : members.lookup (str "method") = none) :
    classify (.object members) = classifyResponse members := by
  simp only [classify, hversion, if_true, hmethod]

/-- The branch for messages with one. -/
lemma classify_of_method {members : List (Bytes × Json)} {method : Bytes}
    (hversion : members.lookup (str "jsonrpc") = some (.string JSONRPC_VERSION))
    (hmethod : members.lookup (str "method") = some (.string method)) :
    classify (.object members) = classifyCall method members := by
  simp only [classify, hversion, if_true, hmethod]

/-- A message without a method and with a usable id is a response, by its `"error"` member if there
is one. -/
lemma classifyResponse_of_id {members : List (Bytes × Json)} {j : Json} {id : RequestId}
    (hlookup : members.lookup (str "id") = some j) (hid : idFromJson j = some id) :
    classifyResponse members =
      match members.lookup (str "error"), members.lookup (str "result") with
      | some error, _ => .response { id, payload := error, isError := true }
      | none, some result => .response { id, payload := result, isError := false }
      | none, none => invalidRequest "Response missing both result and error" := by
  rcases herror : members.lookup (str "error") with _ | error
  · rcases hresult : members.lookup (str "result") with _ | result
    · simp only [classifyResponse, hlookup, hid, herror, hresult]
    · simp only [classifyResponse, hlookup, hid, herror, hresult]
  · simp only [classifyResponse, hlookup, hid, herror]

/-- An id that is neither a number nor a string makes a message without a method invalid. -/
lemma classifyResponse_of_no_id {members : List (Bytes × Json)} {j : Json}
    (hlookup : members.lookup (str "id") = some j) (hid : idFromJson j = none) :
    classifyResponse members = invalidRequest "Invalid id type" := by
  simp only [classifyResponse, hlookup, hid]

/-- A message with a method and a usable id is a request. -/
lemma classifyCall_of_id {method : Bytes} {members : List (Bytes × Json)} {j : Json}
    {id : RequestId} (hlookup : members.lookup (str "id") = some j)
    (hid : idFromJson j = some id) :
    classifyCall method members = .request
      { id, method, params := (members.lookup (str "params")).getD .null } := by
  simp only [classifyCall, hlookup, hid]

/-! The branches that make a response. -/

lemma invalidRequest_ne_response (message : String) (resp : ParsedResponse) :
    invalidRequest message ≠ .response resp := by
  simp [invalidRequest]

lemma classifyCall_ne_response (method : Bytes) (members : List (Bytes × Json))
    (resp : ParsedResponse) : classifyCall method members ≠ .response resp := by
  unfold classifyCall
  split
  · split
    · simp
    · exact invalidRequest_ne_response _ resp
  · simp

lemma classifyResponse_eq_response {members : List (Bytes × Json)} {resp : ParsedResponse}
    (h : classifyResponse members = .response resp) :
    ∃ id, members.lookup (str "id") = some id ∧ idFromJson id = some resp.id := by
  unfold classifyResponse at h
  split at h
  · exact absurd h (invalidRequest_ne_response _ resp)
  next id hid =>
  split at h
  · exact absurd h (invalidRequest_ne_response _ resp)
  next rid hrid =>
  refine ⟨id, hid, ?_⟩
  split at h
  · rw [← ParsedMessage.response.inj h, hrid]
  · rw [← ParsedMessage.response.inj h, hrid]
  · exact absurd h (invalidRequest_ne_response _ resp)

/-- A response is an object with an id that is a number or a string. -/
lemma classify_eq_response {j : Json} {resp : ParsedResponse} (h : classify j = .response resp) :
    ∃ members id, j = .object members ∧ members.lookup (str "id") = some id ∧
      idFromJson id = some resp.id := by
  unfold classify at h
  split at h
  · next members =>
    split at h
    · split at h
      · split at h
        · exact absurd h (classifyCall_ne_response _ _ resp)
        · rcases classifyResponse_eq_response h with ⟨id, hid, hfrom⟩
          exact ⟨members, id, rfl, hid, hfrom⟩
      · exact absurd h (invalidRequest_ne_response _ resp)
    · exact absurd h (invalidRequest_ne_response _ resp)
  · exact absurd h (invalidRequest_ne_response _ resp)

/-! ## What a frame is parsed as -/

/-- The message that the value of a frame is classified as. -/
def Frame.parsed : Frame → ParsedMessage
  | .result id value => .response { id, payload := value, isError := false }
  | error id code message =>
    .response { id, payload := errorObject code message, isError := true }
  | errorNull _ _ => invalidRequest "Invalid id type"
  | request id method params => .request { id := .int id, method, params }
  | notification method params => .notification { method, params }

/-- Every frame takes its own branch of the classification, whatever its payload is. -/
theorem classify_json (frame : Frame) : classify frame.json = frame.parsed := by
  cases frame with
  | result id value =>
    refine (classify_of_no_method rfl rfl).trans ?_
    exact classifyResponse_of_id rfl (idFromJson_idToJson id)
  | error id code message =>
    refine (classify_of_no_method rfl rfl).trans ?_
    exact classifyResponse_of_id rfl (idFromJson_idToJson id)
  | errorNull code message =>
    refine (classify_of_no_method rfl rfl).trans ?_
    exact classifyResponse_of_no_id rfl rfl
  | request id method params =>
    refine (classify_of_method rfl rfl).trans ?_
    exact classifyCall_of_id rfl (idFromJson_idToJson (.int id))
  | notification method params => rfl

lemma parseMessage_of_parse {nl : Nlohmann} {rawJson : Bytes} {j : Json}
    (h : nl.parse rawJson = .ok j) : parseMessage nl rawJson = .ok (classify j) := by
  unfold parseMessage
  rw [h]

/-- A frame that is fed back is parsed as what it is. -/
lemma parseMessage_serialize {nl : Nlohmann} {frame : Frame} (h : nl.Undoes frame.json) :
    ∃ text, frame.serialize nl = .ok text ∧ parseMessage nl text = .ok frame.parsed := by
  rcases h with ⟨text, hdump, hparse⟩
  refine ⟨text, hdump, ?_⟩
  rw [parseMessage_of_parse hparse, classify_json]

/-! ## Distinct frames have distinct texts -/

lemma errorObject_injective {code code' : ErrorCodes} {message message' : Bytes}
    (h : Frame.errorObject code message = Frame.errorObject code' message') :
    code = code' ∧ message = message' := by
  have hmembers : [(str "code", Json.integer code.value.toInt), (str "message", .string message)] =
      [(str "code", Json.integer code'.value.toInt), (str "message", .string message')] :=
    Json.object.inj h
  simp only [List.cons.injEq, Prod.mk.injEq, true_and, and_true, Json.integer.injEq,
    Json.string.injEq] at hmembers
  refine ⟨?_, hmembers.2⟩
  have hvalue : code.value = code'.value := Int32.toInt_inj.mp hmembers.1
  cases code
  cases code'
  exact congrArg ErrorCodes.mk hvalue

/-- The `"error"` member of a null-id error. -/
lemma errorNull_injective {code code' : ErrorCodes} {message message' : Bytes}
    (h : (Frame.errorNull code message).json = (Frame.errorNull code' message').json) :
    code = code' ∧ message = message' := by
  have hmembers : [(str "error", Frame.errorObject code message), (str "id", Json.null),
        (str "jsonrpc", .string JSONRPC_VERSION)] =
      [(str "error", Frame.errorObject code' message'), (str "id", Json.null),
        (str "jsonrpc", .string JSONRPC_VERSION)] :=
    Json.object.inj h
  simp only [List.cons.injEq, Prod.mk.injEq, true_and, and_true] at hmembers
  exact errorObject_injective hmembers

theorem Frame.json_injective {frame frame' : Frame} (h : frame.json = frame'.json) :
    frame = frame' := by
  have hparsed : frame.parsed = frame'.parsed := by
    rw [← classify_json, ← classify_json, h]
  -- frames of two kinds are parsed as different messages
  cases frame with
  | result id value =>
    cases frame' with
    | result id' value' =>
      have hresp := ParsedResponse.mk.inj (ParsedMessage.response.inj hparsed)
      rw [hresp.1, hresp.2.1]
    | _ => exact absurd hparsed (by simp [Frame.parsed, invalidRequest])
  | error id code message =>
    cases frame' with
    | error id' code' message' =>
      have hresp := ParsedResponse.mk.inj (ParsedMessage.response.inj hparsed)
      rcases errorObject_injective hresp.2.1 with ⟨rfl, rfl⟩
      rw [hresp.1]
    | _ => exact absurd hparsed (by simp [Frame.parsed, invalidRequest])
  | errorNull code message =>
    cases frame' with
    | errorNull code' message' =>
      rcases errorNull_injective h with ⟨rfl, rfl⟩
      rfl
    | _ => exact absurd hparsed (by simp [Frame.parsed, invalidRequest])
  | request id method params =>
    cases frame' with
    | request id' method' params' =>
      have hreq := ParsedRequest.mk.inj (ParsedMessage.request.inj hparsed)
      rw [RequestId.int.inj hreq.1, hreq.2.1, hreq.2.2]
    | _ => exact absurd hparsed (by simp [Frame.parsed, invalidRequest])
  | notification method params =>
    cases frame' with
    | notification method' params' =>
      have hnotif := ParsedNotification.mk.inj (ParsedMessage.notification.inj hparsed)
      rw [hnotif.1, hnotif.2]
    | _ => exact absurd hparsed (by simp [Frame.parsed, invalidRequest])

lemma serialize_injective {nl : Nlohmann} {frame frame' : Frame} (h : nl.Undoes frame.json)
    (h' : nl.Undoes frame'.json) (heq : frame.serialize nl = frame'.serialize nl) :
    frame = frame' := by
  rcases h with ⟨text, hdump, hparse⟩
  rcases h' with ⟨text', hdump', hparse'⟩
  have htext : text = text' := Except.ok.inj (hdump.symm.trans (heq.trans hdump'))
  rw [← htext, hparse] at hparse'
  exact Frame.json_injective (Except.ok.inj hparse')

/-! ## The round trip -/

/-- **The codec round trip.** On frames whose values the library parses back from their own
printing, each of the four serializers is undone by `parseMessage`, and no two frames have the same
text. -/
theorem codec_round_trip (nl : Nlohmann) (frames : Set Frame)
    (hnl : ∀ frame ∈ frames, nl.Undoes frame.json) :
    (∀ id method params, .request id method params ∈ frames →
      ∃ text, (Frame.request id method params).serialize nl = .ok text ∧
        parseMessage nl text = .ok (.request { id := .int id, method, params })) ∧
    (∀ method params, .notification method params ∈ frames →
      ∃ text, (Frame.notification method params).serialize nl = .ok text ∧
        parseMessage nl text = .ok (.notification { method, params })) ∧
    (∀ id value, .result id value ∈ frames →
      ∃ text, (Frame.result id value).serialize nl = .ok text ∧
        parseMessage nl text = .ok (.response { id, payload := value, isError := false })) ∧
    (∀ id code message, .error id code message ∈ frames →
      ∃ text, (Frame.error id code message).serialize nl = .ok text ∧
        parseMessage nl text = .ok (.response
          { id
            payload := .ofMembers
              [(str "code", .integer code.value.toInt), (str "message", .string message)]
            isError := true })) ∧
    (∀ frame ∈ frames, ∀ frame' ∈ frames, frame.serialize nl = frame'.serialize nl →
      frame = frame') := by
  refine ⟨?_, ?_, ?_, ?_, ?_⟩
  · intro id method params hframe
    exact parseMessage_serialize (hnl _ hframe)
  · intro method params hframe
    exact parseMessage_serialize (hnl _ hframe)
  · intro id value hframe
    exact parseMessage_serialize (hnl _ hframe)
  · intro id code message hframe
    exact parseMessage_serialize (hnl _ hframe)
  · intro frame hframe frame' hframe' heq
    exact serialize_injective (hnl _ hframe) (hnl _ hframe') heq

/-- A result that looks like a request, a request without params, and an error. -/
def sampleFrames : List Frame :=
  [.result (.str (str "a")) (.ofMembers [(str "id", .integer 7), (str "method", .string (str "m")),
      (str "error", .null)]),
    .request 1 (str "shutdown") .null,
    .error (.int 3) .InternalError (str "no")]

/-- The frames of the sample are parsed as what they are. -/
theorem codec_round_trip_sample :
    (∃ text, (Frame.request 1 (str "shutdown") .null).serialize (.ofFrames sampleFrames) =
        .ok text ∧
      parseMessage (.ofFrames sampleFrames) text =
        .ok (.request { id := .int 1, method := str "shutdown", params := .null })) ∧
    ∀ frame ∈ sampleFrames, ∀ frame' ∈ sampleFrames,
      frame.serialize (.ofFrames sampleFrames) = frame'.serialize (.ofFrames sampleFrames) →
        frame = frame' := by
  have hnl : ∀ frame ∈ {frame | frame ∈ sampleFrames},
      (Nlohmann.ofFrames sampleFrames).Undoes frame.json := by
    intro frame hframe
    have hmem : frame ∈ sampleFrames := hframe
    simp only [sampleFrames, List.mem_cons, List.not_mem_nil, or_false] at hmem
    rcases hmem with rfl | rfl | rfl
    · exact ⟨_, rfl, rfl⟩
    · exact ⟨_, rfl, rfl⟩
    · exact ⟨_, rfl, rfl⟩
  refine ⟨?_, ?_⟩
  · apply (codec_round_trip (.ofFrames sampleFrames) {frame | frame ∈ sampleFrames} hnl).1
    simp [sampleFrames]
  · exact (codec_round_trip (.ofFrames sampleFrames) {frame | frame ∈ sampleFrames} hnl).2.2.2.2

end CLSP
