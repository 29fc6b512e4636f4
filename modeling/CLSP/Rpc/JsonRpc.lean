import CLSP.Rpc.Json

/-!
# `JsonRpc`

The messages of `src/JsonRpc.cpp`: the classification of a body that was read and the five frames
that are written.
-/

namespace CLSP

/-- `std::variant<int, std::string>` -/
inductive RequestId
  | int (n : Int32)
  | str (s : Bytes)
deriving DecidableEq, Repr

/-- `idToJson` -/
def idToJson : RequestId → Json
  | .int n => .integer n.toInt
  | .str s => .string s

/-- The conversion of an `"id"` member; an integer is cast to `int` without a range check. -/
def idFromJson : Json → Option RequestId
  | .integer n => some (.int (Int32.ofInt n))
  | .string s => some (.str s)
  | _ => none

/-- A string id that can be printed. -/
def RequestId.ValidUtf8 : RequestId → Prop
  | .int _ => True
  | .str s => Utf8.Valid s

lemma RequestId.ValidUtf8.json {id : RequestId} (h : id.ValidUtf8) : (idToJson id).ValidUtf8 := by
  cases id with
  | int => trivial
  | str => exact h

lemma validUtf8_of_idFromJson {j : Json} {id : RequestId} (hj : j.ValidUtf8)
    (h : idFromJson j = some id) : id.ValidUtf8 := by
  cases j with
  | integer =>
    rw [← Option.some.inj h]
    trivial
  | string =>
    rw [← Option.some.inj h]
    exact hj
  | _ => exact absurd h (by simp [idFromJson])

/-- The enumeration `ErrorCodes`; a value of it may be any `int`. -/
structure ErrorCodes where
  value : Int32
deriving DecidableEq, Repr

namespace ErrorCodes

def ParseError : ErrorCodes := ⟨-32700⟩
def InvalidRequest : ErrorCodes := ⟨-32600⟩
def MethodNotFound : ErrorCodes := ⟨-32601⟩
def InvalidParams : ErrorCodes := ⟨-32602⟩
def InternalError : ErrorCodes := ⟨32603⟩
def ServerNotInitialized : ErrorCodes := ⟨-32002⟩
def RequestFailed : ErrorCodes := ⟨-32803⟩
def ServerCancelled : ErrorCodes := ⟨-32802⟩
def ContentModified : ErrorCodes := ⟨-32801⟩
def RequestCancelled : ErrorCodes := ⟨-32800⟩

end ErrorCodes

def JSONRPC_VERSION : Bytes := str "2.0"

/-! ## `parseMessage` -/

structure ParsedRequest where
  id : RequestId
  method : Bytes
  params : Json

structure ParsedNotification where
  method : Bytes
  params : Json

structure ParsedError where
  code : ErrorCodes
  message : Bytes

/-- The payload is the result or the error object. -/
structure ParsedResponse where
  id : RequestId
  payload : Json
  isError : Bool

inductive ParsedMessage
  | request (req : ParsedRequest)
  | notification (notif : ParsedNotification)
  | error (err : ParsedError)
  | response (resp : ParsedResponse)

def invalidRequest (message : String) : ParsedMessage :=
  .error { code := .InvalidRequest, message := str message }

/-- The branch without a method: a response that comes back to us. -/
def classifyResponse (members : List (Bytes × Json)) : ParsedMessage :=
  match members.lookup (str "id") with
  | none => invalidRequest "Missing method and id"
  | some j =>
    match idFromJson j with
    | none => invalidRequest "Invalid id type"
    | some id =>
      match members.lookup (str "error"), members.lookup (str "result") with
      | some error, _ => .response { id, payload := error, isError := true }
      | none, some result => .response { id, payload := result, isError := false }
      | none, none => invalidRequest "Response missing both result and error"

/-- The branch with a method: a request when there is an id. -/
def classifyCall (method : Bytes) (members : List (Bytes × Json)) : ParsedMessage :=
  let params := (members.lookup (str "params")).getD .null
  match members.lookup (str "id") with
  | some j =>
    match idFromJson j with
    | some id => .request { id, method, params }
    | none => invalidRequest "Invalid id type"
  | none => .notification { method, params }

/-- `parseMessage` after the parse of the text. -/
def classify : Json → ParsedMessage
  | .object members =>
    match members.lookup (str "jsonrpc") with
    | some (.string version) =>
      if version = JSONRPC_VERSION then
        match members.lookup (str "method") with
        | some (.string method) => classifyCall method members
        | _ => classifyResponse members
      else invalidRequest "Missing or invalid jsonrpc version"
    | _ => invalidRequest "Missing or invalid jsonrpc version"
  | _ => invalidRequest "Message must be an object"

/-- `parseMessage`: only a `parse_error` is caught. -/
def parseMessage (nl : Nlohmann) (rawJson : Bytes) : Except ParseException ParsedMessage :=
  match nl.parse rawJson with
  | .ok j => .ok (classify j)
  | .error .parseError => .ok (.error { code := .ParseError, message := str "Invalid JSON" })
  | .error .outOfRange => .error .outOfRange

/-! The branches that make a request. -/

lemma invalidRequest_ne_request (message : String) (req : ParsedRequest) :
    invalidRequest message ≠ .request req := by
  simp [invalidRequest]

lemma classifyResponse_ne_request (members : List (Bytes × Json)) (req : ParsedRequest) :
    classifyResponse members ≠ .request req := by
  unfold classifyResponse
  split
  · exact invalidRequest_ne_request _ req
  · split
    · exact invalidRequest_ne_request _ req
    · split
      · simp
      · simp
      · exact invalidRequest_ne_request _ req

lemma classifyCall_eq_request {method : Bytes} {members : List (Bytes × Json)}
    {req : ParsedRequest} (h : classifyCall method members = .request req) :
    ∃ id, members.lookup (str "id") = some id ∧ idFromJson id = some req.id := by
  unfold classifyCall at h
  split at h
  · next id hid =>
    split at h
    · next hfrom =>
      rw [← ParsedMessage.request.inj h]
      exact ⟨id, hid, hfrom⟩
    · exact absurd h (invalidRequest_ne_request _ req)
  · exact absurd h (by simp)

/-- A request is an object with an id that is a number or a string. -/
lemma classify_eq_request {j : Json} {req : ParsedRequest} (h : classify j = .request req) :
    ∃ members id, j = .object members ∧ members.lookup (str "id") = some id ∧
      idFromJson id = some req.id := by
  unfold classify at h
  split at h
  · next members =>
    split at h
    · split at h
      · split at h
        · rcases classifyCall_eq_request h with ⟨id, hid, hfrom⟩
          exact ⟨members, id, rfl, hid, hfrom⟩
        · exact absurd h (classifyResponse_ne_request _ req)
      · exact absurd h (invalidRequest_ne_request _ req)
    · exact absurd h (invalidRequest_ne_request _ req)
  · exact absurd h (invalidRequest_ne_request _ req)

/-- The id of a request that was parsed can be printed. -/
lemma validUtf8_of_parseMessage {nl : Nlohmann} (hnl : nl.Documented) {rawJson : Bytes}
    {req : ParsedRequest} (h : parseMessage nl rawJson = .ok (.request req)) :
    req.id.ValidUtf8 := by
  unfold parseMessage at h
  split at h
  · next j hparse =>
    have hj : j.ValidUtf8 := hnl.parse_valid _ _ hparse
    rcases classify_eq_request (Except.ok.inj h) with ⟨members, id, rfl, hid, hfrom⟩
    exact validUtf8_of_idFromJson (Json.MembersValidUtf8.lookup hj hid) hfrom
  · exact absurd (Except.ok.inj h) (by simp)
  · exact absurd h (by simp)

/-! ## The serializers -/

/-- A frame, by the serializer that writes it. -/
inductive Frame
  | result (id : RequestId) (value : Json)
  | error (id : RequestId) (code : ErrorCodes) (message : Bytes)
  | errorNull (code : ErrorCodes) (message : Bytes)
  | request (id : Int32) (method : Bytes) (params : Json)
  | notification (method : Bytes) (params : Json)

namespace Frame

/-- The `"error"` member. -/
def errorObject (code : ErrorCodes) (message : Bytes) : Json :=
  .ofMembers [(str "code", .integer code.value.toInt), (str "message", .string message)]

/-- The value a serializer builds. -/
def json : Frame → Json
  | .result id value =>
    .ofMembers [(str "jsonrpc", .string JSONRPC_VERSION), (str "id", idToJson id),
      (str "result", value)]
  | error id code message =>
    .ofMembers [(str "jsonrpc", .string JSONRPC_VERSION), (str "id", idToJson id),
      (str "error", errorObject code message)]
  | errorNull code message =>
    .ofMembers [(str "jsonrpc", .string JSONRPC_VERSION), (str "id", .null),
      (str "error", errorObject code message)]
  | request id method params =>
    .ofMembers [(str "jsonrpc", .string JSONRPC_VERSION), (str "id", .integer id.toInt),
      (str "method", .string method), (str "params", params)]
  | notification method params =>
    .ofMembers [(str "jsonrpc", .string JSONRPC_VERSION), (str "method", .string method),
      (str "params", params)]

/-- `serializeResult`, `serializeError`, `serializeRequest` or `serializeNotification`; the
`dump` at their end may throw. -/
def serialize (nl : Nlohmann) (frame : Frame) : Except Bytes Bytes :=
  nl.dump frame.json

/-- The strings of a frame are valid UTF-8. -/
def ValidUtf8 : Frame → Prop
  | result id value => id.ValidUtf8 ∧ value.ValidUtf8
  | error id _ message => id.ValidUtf8 ∧ Utf8.Valid message
  | errorNull _ message => Utf8.Valid message
  | request _ method params => Utf8.Valid method ∧ params.ValidUtf8
  | notification method params => Utf8.Valid method ∧ params.ValidUtf8

lemma validUtf8_errorObject {message : Bytes} (h : Utf8.Valid message) (code : ErrorCodes) :
    (errorObject code message).ValidUtf8 :=
  Json.validUtf8_ofMembers ⟨valid_str _, trivial, valid_str _, h, trivial⟩

lemma ValidUtf8.json {frame : Frame} (h : frame.ValidUtf8) : frame.json.ValidUtf8 := by
  cases frame with
  | result id value =>
    exact Json.validUtf8_ofMembers
      ⟨valid_str _, valid_str _, valid_str _, h.1.json, valid_str _, h.2, trivial⟩
  | error id code message =>
    exact Json.validUtf8_ofMembers ⟨valid_str _, valid_str _, valid_str _, h.1.json, valid_str _,
      validUtf8_errorObject h.2 code, trivial⟩
  | errorNull code message =>
    exact Json.validUtf8_ofMembers ⟨valid_str _, valid_str _, valid_str _, trivial, valid_str _,
      validUtf8_errorObject h code, trivial⟩
  | request id method params =>
    exact Json.validUtf8_ofMembers ⟨valid_str _, valid_str _, valid_str _, trivial, valid_str _,
      h.1, valid_str _, h.2, trivial⟩
  | notification method params =>
    exact Json.validUtf8_ofMembers ⟨valid_str _, valid_str _, valid_str _, h.1, valid_str _, h.2,
      trivial⟩

/-- The `dump` at the end of a serializer only throws on strings that are not valid. -/
lemma ValidUtf8.serialize {nl : Nlohmann} (hnl : nl.Documented) {frame : Frame}
    (h : frame.ValidUtf8) : ∃ text, frame.serialize nl = .ok text :=
  hnl.dump_valid _ h.json

/-- The request a response frame answers. -/
def answers : Frame → Option RequestId
  | result id _ => some id
  | error id _ _ => some id
  | _ => none

end Frame

end CLSP
