import CLSP.Protocol.Positions

/-!
# Diagnostics on the wire

`protocol/Diagnostics.hpp`: the `to_json` and `from_json` functions of the diagnostics. A diagnostic
is read back as it was written but for a `data` member that is `null` (`Diagnostic.received`).
-/

namespace CLSP

open Json (ofFields getString getInt32 getList readAt readOpt readAt_ofFields readOpt_ofFields
  getList_array getList_array_self getInt32_integer enumToJson enumFromJson
  enumFromJson_enumToJson member? member?_ofFields notNull notNull_eq_iff)

/-! ## The structures -/

/-- `DiagnosticSeverity` -/
structure DiagnosticSeverity where
  value : Int32
deriving DecidableEq, Repr

/-- `DiagnosticTag` -/
structure DiagnosticTag where
  value : Int32
deriving DecidableEq, Repr

structure Location where
  uri : DocumentUri
  range : Range
deriving DecidableEq, Repr

structure DiagnosticRelatedInformation where
  location : Location
  message : Bytes
deriving DecidableEq, Repr

structure CodeDescription where
  href : Bytes
deriving DecidableEq, Repr

/-- `std::variant<int32_t, std::string>` -/
inductive DiagnosticCode
  | int (n : Int32)
  | str (s : Bytes)
deriving DecidableEq, Repr

structure Diagnostic where
  range : Range
  severity : Option DiagnosticSeverity
  code : Option DiagnosticCode
  codeDescription : Option CodeDescription
  source : Option Bytes
  message : Bytes
  tags : Option (List DiagnosticTag)
  relatedInformation : Option (List DiagnosticRelatedInformation)
  data : Option Json

structure PublishDiagnosticsParams where
  uri : DocumentUri
  version : Option Int32
  diagnostics : List Diagnostic

/-! ## `to_json` and `from_json` -/

def Location.fields (l : Location) : List (Bytes × Option Json) :=
  [(str "uri", some (.string l.uri)), (str "range", some l.range.toJson)]

def Location.toJson (l : Location) : Json :=
  ofFields l.fields

def Location.fromJson (j : Json) : Except JsonError Location := do
  let uri ← readAt getString j (str "uri")
  let range ← readAt Range.fromJson j (str "range")
  return { uri, range }

def DiagnosticRelatedInformation.fields (r : DiagnosticRelatedInformation) :
    List (Bytes × Option Json) :=
  [(str "location", some r.location.toJson), (str "message", some (.string r.message))]

def DiagnosticRelatedInformation.toJson (r : DiagnosticRelatedInformation) : Json :=
  ofFields r.fields

def DiagnosticRelatedInformation.fromJson (j : Json) :
    Except JsonError DiagnosticRelatedInformation := do
  let location ← readAt Location.fromJson j (str "location")
  let message ← readAt getString j (str "message")
  return { location, message }

def CodeDescription.fields (c : CodeDescription) : List (Bytes × Option Json) :=
  [(str "href", some (.string c.href))]

def CodeDescription.toJson (c : CodeDescription) : Json :=
  ofFields c.fields

def CodeDescription.fromJson (j : Json) : Except JsonError CodeDescription := do
  let href ← readAt getString j (str "href")
  return { href }

/-- The `std::visit` of the code. -/
def DiagnosticCode.toJson : DiagnosticCode → Json
  | .int n => .integer n.toInt
  | .str s => .string s

/-- A code that is neither an integer nor a string is left out. -/
def DiagnosticCode.fromJson : Json → Option DiagnosticCode
  | .integer n => some (.int (Int32.ofInt n))
  | .string s => some (.str s)
  | _ => none

def DiagnosticSeverity.toJson : DiagnosticSeverity → Json :=
  enumToJson DiagnosticSeverity.value

def DiagnosticSeverity.fromJson : Json → Except JsonError DiagnosticSeverity :=
  enumFromJson DiagnosticSeverity.mk

def DiagnosticTag.toJson : DiagnosticTag → Json :=
  enumToJson DiagnosticTag.value

def DiagnosticTag.fromJson : Json → Except JsonError DiagnosticTag :=
  enumFromJson DiagnosticTag.mk

/-- The loop over `j["tags"]`. -/
def readTags (j : Json) : Except JsonError (List DiagnosticTag) :=
  j.elements.mapM DiagnosticTag.fromJson

def Diagnostic.fields (d : Diagnostic) : List (Bytes × Option Json) :=
  [(str "range", some d.range.toJson),
    (str "message", some (.string d.message)),
    (str "severity", d.severity.map DiagnosticSeverity.toJson),
    (str "code", d.code.map DiagnosticCode.toJson),
    (str "codeDescription", d.codeDescription.map CodeDescription.toJson),
    (str "source", d.source.map .string),
    (str "tags", d.tags.map fun tags => .array (tags.map DiagnosticTag.toJson)),
    (str "relatedInformation", d.relatedInformation.map fun related =>
      .array (related.map DiagnosticRelatedInformation.toJson)),
    (str "data", d.data)]

def Diagnostic.toJson (d : Diagnostic) : Json :=
  ofFields d.fields

def Diagnostic.fromJson (j : Json) : Except JsonError Diagnostic := do
  let range ← readAt Range.fromJson j (str "range")
  let message ← readAt getString j (str "message")
  let severity ← readOpt DiagnosticSeverity.fromJson j (str "severity")
  let code := (member? j (str "code")).bind DiagnosticCode.fromJson
  let codeDescription ← readOpt CodeDescription.fromJson j (str "codeDescription")
  let source ← readOpt getString j (str "source")
  let tags ← readOpt readTags j (str "tags")
  let relatedInformation ←
    readOpt (getList DiagnosticRelatedInformation.fromJson) j (str "relatedInformation")
  let data := member? j (str "data")
  return { range, message, severity, code, codeDescription, source, tags, relatedInformation, data }

def PublishDiagnosticsParams.fields (p : PublishDiagnosticsParams) : List (Bytes × Option Json) :=
  [(str "uri", some (.string p.uri)),
    (str "diagnostics", some (.array (p.diagnostics.map Diagnostic.toJson))),
    (str "version", p.version.map fun version => .integer version.toInt)]

def PublishDiagnosticsParams.toJson (p : PublishDiagnosticsParams) : Json :=
  ofFields p.fields

def PublishDiagnosticsParams.fromJson (j : Json) : Except JsonError PublishDiagnosticsParams := do
  let uri ← readAt getString j (str "uri")
  let diagnostics ← readAt (getList Diagnostic.fromJson) j (str "diagnostics")
  let version ← readOpt getInt32 j (str "version")
  return { uri, diagnostics, version }

/-! ## Round trips -/

lemma Location.nodup_keys (l : Location) : (l.fields.map Prod.fst).Nodup :=
  have hkeys : [str "uri", str "range"].Nodup := by decide
  hkeys

@[simp] lemma Location.fromJson_toJson (l : Location) : Location.fromJson l.toJson = .ok l := by
  have huri : readAt getString l.toJson (str "uri") = .ok l.uri :=
    readAt_ofFields (i := 0) l.nodup_keys rfl rfl
  have hrange : readAt Range.fromJson l.toJson (str "range") = .ok l.range :=
    readAt_ofFields (i := 1) l.nodup_keys rfl l.range.fromJson_toJson
  rw [Location.fromJson, huri, hrange]
  rfl

lemma DiagnosticRelatedInformation.nodup_keys (r : DiagnosticRelatedInformation) :
    (r.fields.map Prod.fst).Nodup :=
  have hkeys : [str "location", str "message"].Nodup := by decide
  hkeys

@[simp] lemma DiagnosticRelatedInformation.fromJson_toJson (r : DiagnosticRelatedInformation) :
    DiagnosticRelatedInformation.fromJson r.toJson = .ok r := by
  have hlocation : readAt Location.fromJson r.toJson (str "location") = .ok r.location :=
    readAt_ofFields (i := 0) r.nodup_keys rfl r.location.fromJson_toJson
  have hmessage : readAt getString r.toJson (str "message") = .ok r.message :=
    readAt_ofFields (i := 1) r.nodup_keys rfl rfl
  rw [DiagnosticRelatedInformation.fromJson, hlocation, hmessage]
  rfl

@[simp] lemma CodeDescription.fromJson_toJson (c : CodeDescription) :
    CodeDescription.fromJson c.toJson = .ok c :=
  rfl

lemma DiagnosticSeverity.fromJson_toJson (s : DiagnosticSeverity) :
    DiagnosticSeverity.fromJson s.toJson = .ok s :=
  enumFromJson_enumToJson _ _ rfl

lemma DiagnosticTag.fromJson_toJson (t : DiagnosticTag) :
    DiagnosticTag.fromJson t.toJson = .ok t :=
  enumFromJson_enumToJson _ _ rfl

lemma readTags_array (tags : List DiagnosticTag) :
    readTags (.array (tags.map DiagnosticTag.toJson)) = .ok tags :=
  getList_array_self DiagnosticTag.fromJson_toJson tags

/-! ### A diagnostic -/

/-- The code, which `from_json` reads without a conversion that throws. -/
lemma DiagnosticCode.fromJson_toJson (c : DiagnosticCode) :
    DiagnosticCode.fromJson c.toJson = some c := by
  cases c with
  | int n => exact congrArg (fun m => some (DiagnosticCode.int m)) (Int32.ofInt_toInt n)
  | str s => rfl

/-- A diagnostic after its way over the wire: data that is `null` is taken for absent. -/
def Diagnostic.received (d : Diagnostic) : Diagnostic :=
  { d with data := notNull d.data }

lemma Diagnostic.received_eq_iff {d : Diagnostic} : d.received = d ↔ d.data ≠ some .null := by
  rw [← notNull_eq_iff]
  constructor
  · exact congrArg Diagnostic.data
  · intro h
    rw [Diagnostic.received, h]

lemma Diagnostic.nodup_keys (d : Diagnostic) : (d.fields.map Prod.fst).Nodup :=
  have hkeys : [str "range", str "message", str "severity", str "code", str "codeDescription",
    str "source", str "tags", str "relatedInformation", str "data"].Nodup := by decide
  hkeys

theorem Diagnostic.fromJson_toJson (d : Diagnostic) :
    Diagnostic.fromJson d.toJson = .ok d.received := by
  have hkeys := d.nodup_keys
  have hrange : readAt Range.fromJson d.toJson (str "range") = .ok d.range :=
    readAt_ofFields (i := 0) hkeys rfl d.range.fromJson_toJson
  have hmessage : readAt getString d.toJson (str "message") = .ok d.message :=
    readAt_ofFields (i := 1) hkeys rfl rfl
  have hseverity : readOpt DiagnosticSeverity.fromJson d.toJson (str "severity") = .ok d.severity :=
    readOpt_ofFields (i := 2) hkeys rfl nofun DiagnosticSeverity.fromJson_toJson
  have hcode : (member? d.toJson (str "code")).bind DiagnosticCode.fromJson = d.code := by
    have hmember : member? d.toJson (str "code") = notNull (d.code.map DiagnosticCode.toJson) :=
      member?_ofFields (i := 3) hkeys rfl
    rw [hmember]
    cases hd : d.code with
    | none => rfl
    | some c =>
      have hpresent : notNull (some c.toJson) = some c.toJson := by cases c <;> rfl
      rw [Option.map_some, hpresent]
      exact c.fromJson_toJson
  have hdescription :
      readOpt CodeDescription.fromJson d.toJson (str "codeDescription") = .ok d.codeDescription :=
    readOpt_ofFields (i := 4) hkeys rfl nofun CodeDescription.fromJson_toJson
  have hsource : readOpt getString d.toJson (str "source") = .ok d.source :=
    readOpt_ofFields (i := 5) hkeys rfl nofun fun _ => rfl
  have htags : readOpt readTags d.toJson (str "tags") = .ok d.tags :=
    readOpt_ofFields (i := 6) hkeys rfl nofun readTags_array
  have hrelated : readOpt (getList DiagnosticRelatedInformation.fromJson) d.toJson
      (str "relatedInformation") = .ok d.relatedInformation :=
    readOpt_ofFields (i := 7) hkeys rfl nofun
      (getList_array_self DiagnosticRelatedInformation.fromJson_toJson)
  have hdata : member? d.toJson (str "data") = notNull d.data :=
    member?_ofFields (i := 8) hkeys rfl
  simp only [Diagnostic.fromJson, hrange, hmessage, hseverity, hcode, hdescription, hsource, htags,
    hrelated, hdata]
  rfl

/-! ## The result -/

lemma PublishDiagnosticsParams.nodup_keys (p : PublishDiagnosticsParams) :
    (p.fields.map Prod.fst).Nodup :=
  have hkeys : [str "uri", str "diagnostics", str "version"].Nodup := by decide
  hkeys

/-- What is decoded from the params that were written. -/
theorem PublishDiagnosticsParams.fromJson_toJson (p : PublishDiagnosticsParams) :
    PublishDiagnosticsParams.fromJson p.toJson =
      .ok { p with diagnostics := p.diagnostics.map Diagnostic.received } := by
  have huri : readAt getString p.toJson (str "uri") = .ok p.uri :=
    readAt_ofFields (i := 0) p.nodup_keys rfl rfl
  have hdiagnostics : readAt (getList Diagnostic.fromJson) p.toJson (str "diagnostics") =
      .ok (p.diagnostics.map Diagnostic.received) :=
    readAt_ofFields (i := 1) p.nodup_keys rfl (getList_array Diagnostic.fromJson_toJson _)
  have hversion : readOpt getInt32 p.toJson (str "version") = .ok p.version :=
    readOpt_ofFields (i := 2) p.nodup_keys rfl nofun getInt32_integer
  rw [PublishDiagnosticsParams.fromJson, huri, hdiagnostics, hversion]
  rfl

/-- Diagnostics survive the wire exactly when none of them has data that is `null`. -/
theorem diagnostics_survive_iff (p : PublishDiagnosticsParams) :
    PublishDiagnosticsParams.fromJson p.toJson = .ok p ↔
      ∀ d ∈ p.diagnostics, d.data ≠ some .null := by
  rw [PublishDiagnosticsParams.fromJson_toJson, Except.ok.injEq]
  have hreceived : p.diagnostics.map Diagnostic.received = p.diagnostics ↔
      ∀ d ∈ p.diagnostics, d.data ≠ some .null := by
    rw [← List.map_id p.diagnostics, List.map_map, List.map_inj_left, List.map_id]
    exact forall₂_congr fun d _ => Diagnostic.received_eq_iff
  rw [← hreceived]
  constructor
  · exact congrArg PublishDiagnosticsParams.diagnostics
  · intro h
    rw [h]

namespace Session

/-- A diagnostic with all its optional members. -/
def diagnostic (data : Json) : Diagnostic where
  range := { start := ⟨0, 0⟩, «end» := ⟨0, 3⟩ }
  severity := some ⟨1⟩
  code := some (.str (str "E0"))
  codeDescription := some ⟨str "https"⟩
  source := some (str "lint")
  message := str "unused"
  tags := some [⟨1⟩]
  relatedInformation := some []
  data := some data

end Session

/-- The data of this diagnostic is lost. -/
theorem not_diagnostics_survive :
    PublishDiagnosticsParams.fromJson (PublishDiagnosticsParams.toJson
      { uri := str "file:///a", version := some 1, diagnostics := [Session.diagnostic .null] }) ≠
      .ok { uri := str "file:///a", version := some 1,
            diagnostics := [Session.diagnostic .null] } := by
  rw [PublishDiagnosticsParams.fromJson_toJson]
  intro h
  have hdiagnostics := congrArg PublishDiagnosticsParams.diagnostics (Except.ok.inj h)
  have hdata := congrArg (List.map Diagnostic.data) hdiagnostics
  exact absurd hdata (by simp [Diagnostic.received, Session.diagnostic, notNull])

end CLSP
