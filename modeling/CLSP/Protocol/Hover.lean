import CLSP.Protocol.Positions

/-!
# Hover on the wire

`protocol/Hover.hpp`, and the `TextDocumentIdentifier` of `protocol/Documents.hpp` that the params
of requests hold.
-/

namespace CLSP

open Json (find? ofFields getString readAt readOpt readAt_ofFields readOpt_ofFields find?_ofFields)

/-! ## The structures -/

structure TextDocumentIdentifier where
  uri : DocumentUri
deriving DecidableEq, Repr

inductive MarkupKind
  | PlainText
  | Markdown
deriving DecidableEq, Repr

/-- `to_string` -/
def MarkupKind.toString : MarkupKind → Bytes
  | .PlainText => str "plaintext"
  | .Markdown => str "markdown"

def markupKindFromString (s : Bytes) : Option MarkupKind :=
  if s = str "plaintext" then some .PlainText
  else if s = str "markdown" then some .Markdown
  else none

structure MarkupContent where
  kind : MarkupKind
  value : Bytes
deriving DecidableEq, Repr

structure HoverParams where
  textDocument : TextDocumentIdentifier
  position : Position
deriving DecidableEq, Repr

structure Hover where
  contents : MarkupContent
  range : Option Range
deriving DecidableEq, Repr

/-! ## `to_json` and `from_json` -/

def TextDocumentIdentifier.fields (id : TextDocumentIdentifier) : List (Bytes × Option Json) :=
  [(str "uri", some (.string id.uri))]

def TextDocumentIdentifier.toJson (id : TextDocumentIdentifier) : Json :=
  ofFields id.fields

def TextDocumentIdentifier.fromJson (j : Json) : Except JsonError TextDocumentIdentifier := do
  let uri ← readAt getString j (str "uri")
  return { uri }

def MarkupContent.fields (m : MarkupContent) : List (Bytes × Option Json) :=
  [(str "kind", some (.string m.kind.toString)), (str "value", some (.string m.value))]

def MarkupContent.toJson (m : MarkupContent) : Json :=
  ofFields m.fields

/-- A kind that is missing or not known is left at `PlainText`. -/
def readMarkupKind (j : Json) : MarkupKind :=
  match find? j (str "kind") with
  | some (.string s) => (markupKindFromString s).getD .PlainText
  | _ => .PlainText

def MarkupContent.fromJson (j : Json) : Except JsonError MarkupContent := do
  let value ← readAt getString j (str "value")
  return { kind := readMarkupKind j, value }

def HoverParams.fields (p : HoverParams) : List (Bytes × Option Json) :=
  [(str "textDocument", some p.textDocument.toJson), (str "position", some p.position.toJson)]

def HoverParams.toJson (p : HoverParams) : Json :=
  ofFields p.fields

def HoverParams.fromJson (j : Json) : Except JsonError HoverParams := do
  let textDocument ← readAt TextDocumentIdentifier.fromJson j (str "textDocument")
  let position ← readAt Position.fromJson j (str "position")
  return { textDocument, position }

def Hover.fields (h : Hover) : List (Bytes × Option Json) :=
  [(str "contents", some h.contents.toJson), (str "range", h.range.map Range.toJson)]

def Hover.toJson (h : Hover) : Json :=
  ofFields h.fields

def Hover.fromJson (j : Json) : Except JsonError Hover := do
  let contents ← readAt MarkupContent.fromJson j (str "contents")
  let range ← readOpt Range.fromJson j (str "range")
  return { contents, range }

/-! ## Round trips -/

@[simp] lemma TextDocumentIdentifier.fromJson_toJson (id : TextDocumentIdentifier) :
    TextDocumentIdentifier.fromJson id.toJson = .ok id :=
  rfl

lemma markupKindFromString_toString (k : MarkupKind) :
    markupKindFromString k.toString = some k := by
  cases k <;> decide

lemma MarkupContent.nodup_keys (m : MarkupContent) : (m.fields.map Prod.fst).Nodup :=
  have hkeys : [str "kind", str "value"].Nodup := by decide
  hkeys

@[simp] lemma MarkupContent.fromJson_toJson (m : MarkupContent) :
    MarkupContent.fromJson m.toJson = .ok m := by
  have hkind : readMarkupKind m.toJson = m.kind := by
    have hfind : find? m.toJson (str "kind") = some (.string m.kind.toString) :=
      find?_ofFields (i := 0) m.nodup_keys rfl
    simp only [readMarkupKind, hfind, markupKindFromString_toString]
    rfl
  have hvalue : readAt getString m.toJson (str "value") = .ok m.value :=
    readAt_ofFields (i := 1) m.nodup_keys rfl rfl
  rw [MarkupContent.fromJson, hvalue, hkind]
  rfl

lemma MarkupContent.toJson_ne_null (m : MarkupContent) : m.toJson ≠ .null :=
  nofun

lemma HoverParams.nodup_keys (p : HoverParams) : (p.fields.map Prod.fst).Nodup :=
  have hkeys : [str "textDocument", str "position"].Nodup := by decide
  hkeys

theorem HoverParams.fromJson_toJson (p : HoverParams) : HoverParams.fromJson p.toJson = .ok p := by
  have hdocument : readAt TextDocumentIdentifier.fromJson p.toJson (str "textDocument") =
      .ok p.textDocument :=
    readAt_ofFields (i := 0) p.nodup_keys rfl p.textDocument.fromJson_toJson
  have hposition : readAt Position.fromJson p.toJson (str "position") = .ok p.position :=
    readAt_ofFields (i := 1) p.nodup_keys rfl p.position.fromJson_toJson
  rw [HoverParams.fromJson, hdocument, hposition]
  rfl

lemma Hover.nodup_keys (h : Hover) : (h.fields.map Prod.fst).Nodup :=
  have hkeys : [str "contents", str "range"].Nodup := by decide
  hkeys

theorem Hover.fromJson_toJson (h : Hover) : Hover.fromJson h.toJson = .ok h := by
  have hcontents : readAt MarkupContent.fromJson h.toJson (str "contents") = .ok h.contents :=
    readAt_ofFields (i := 0) h.nodup_keys rfl h.contents.fromJson_toJson
  have hrange : readOpt Range.fromJson h.toJson (str "range") = .ok h.range :=
    readOpt_ofFields (i := 1) h.nodup_keys rfl nofun Range.fromJson_toJson
  rw [Hover.fromJson, hcontents, hrange]
  rfl

end CLSP
