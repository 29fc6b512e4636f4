import CLSP.Protocol.Hover

/-!
# Completion on the wire

`protocol/Completion.hpp`. The optional members of an item are tested in three ways: by "not null",
by "is an array", and `data` by its presence alone. What is written passes its own test, so every
combination of them is read back (`CompletionItem.fromJson_toJson`).
-/

namespace CLSP

open Json (find? ofFields getString getBool getList readAt readOpt readArray enumToJson enumFromJson
  enumFromJson_enumToJson getList_array_self readAt_ofFields readOpt_ofFields readArray_ofFields
  find?_ofFields)

/-! ## The structures -/

/-- `CompletionTriggerKind` -/
structure CompletionTriggerKind where
  value : Int32
deriving DecidableEq, Repr

/-- `CompletionItemKind` -/
structure CompletionItemKind where
  value : Int32
deriving DecidableEq, Repr

/-- `InsertTextFormat` -/
structure InsertTextFormat where
  value : Int32
deriving DecidableEq, Repr

/-- `CompletionItemTag` -/
structure CompletionItemTag where
  value : Int32
deriving DecidableEq, Repr

structure CompletionContext where
  triggerKind : CompletionTriggerKind
  triggerCharacter : Option Bytes
deriving DecidableEq, Repr

structure CompletionParams where
  textDocument : TextDocumentIdentifier
  position : Position
  context : Option CompletionContext
deriving DecidableEq, Repr

structure TextEdit where
  range : Range
  newText : Bytes
deriving DecidableEq, Repr

/-- `std::variant<std::string, MarkupContent>` -/
inductive CompletionDocumentation
  | string (s : Bytes)
  | markup (m : MarkupContent)
deriving DecidableEq, Repr

structure CompletionItem where
  label : Bytes
  kind : Option CompletionItemKind
  tags : Option (List CompletionItemTag)
  detail : Option Bytes
  documentation : Option CompletionDocumentation
  preselect : Option Bool
  sortText : Option Bytes
  filterText : Option Bytes
  insertText : Option Bytes
  insertTextFormat : Option InsertTextFormat
  textEdit : Option TextEdit
  additionalTextEdits : Option (List TextEdit)
  commitCharacters : Option (List Bytes)
  data : Option Json

structure CompletionList where
  isIncomplete : Bool
  items : List CompletionItem

/-! ## `to_json` and `from_json` -/

def CompletionTriggerKind.toJson : CompletionTriggerKind → Json :=
  enumToJson CompletionTriggerKind.value

def CompletionTriggerKind.fromJson : Json → Except JsonError CompletionTriggerKind :=
  enumFromJson CompletionTriggerKind.mk

def CompletionItemKind.toJson : CompletionItemKind → Json :=
  enumToJson CompletionItemKind.value

def CompletionItemKind.fromJson : Json → Except JsonError CompletionItemKind :=
  enumFromJson CompletionItemKind.mk

def InsertTextFormat.toJson : InsertTextFormat → Json :=
  enumToJson InsertTextFormat.value

def InsertTextFormat.fromJson : Json → Except JsonError InsertTextFormat :=
  enumFromJson InsertTextFormat.mk

def CompletionItemTag.toJson : CompletionItemTag → Json :=
  enumToJson CompletionItemTag.value

def CompletionItemTag.fromJson : Json → Except JsonError CompletionItemTag :=
  enumFromJson CompletionItemTag.mk

def CompletionContext.fields (c : CompletionContext) : List (Bytes × Option Json) :=
  [(str "triggerKind", some c.triggerKind.toJson),
    (str "triggerCharacter", c.triggerCharacter.map .string)]

def CompletionContext.toJson (c : CompletionContext) : Json :=
  ofFields c.fields

def CompletionContext.fromJson (j : Json) : Except JsonError CompletionContext := do
  let triggerKind ← readAt CompletionTriggerKind.fromJson j (str "triggerKind")
  let triggerCharacter ← readOpt getString j (str "triggerCharacter")
  return { triggerKind, triggerCharacter }

def CompletionParams.fields (p : CompletionParams) : List (Bytes × Option Json) :=
  [(str "textDocument", some p.textDocument.toJson), (str "position", some p.position.toJson),
    (str "context", p.context.map CompletionContext.toJson)]

def CompletionParams.toJson (p : CompletionParams) : Json :=
  ofFields p.fields

def CompletionParams.fromJson (j : Json) : Except JsonError CompletionParams := do
  let textDocument ← readAt TextDocumentIdentifier.fromJson j (str "textDocument")
  let position ← readAt Position.fromJson j (str "position")
  let context ← readOpt CompletionContext.fromJson j (str "context")
  return { textDocument, position, context }

def TextEdit.fields (e : TextEdit) : List (Bytes × Option Json) :=
  [(str "range", some e.range.toJson), (str "newText", some (.string e.newText))]

def TextEdit.toJson (e : TextEdit) : Json :=
  ofFields e.fields

def TextEdit.fromJson (j : Json) : Except JsonError TextEdit := do
  let range ← readAt Range.fromJson j (str "range")
  let newText ← readAt getString j (str "newText")
  return { range, newText }

/-- The `std::visit` of the documentation. -/
def CompletionDocumentation.toJson : CompletionDocumentation → Json
  | .string s => .string s
  | .markup m => m.toJson

/-- A string, or else a `MarkupContent`. -/
def CompletionDocumentation.fromJson : Json → Except JsonError CompletionDocumentation
  | .string s => .ok (.string s)
  | j => CompletionDocumentation.markup <$> MarkupContent.fromJson j

def CompletionItem.fields (i : CompletionItem) : List (Bytes × Option Json) :=
  [(str "label", some (.string i.label)),
    (str "kind", i.kind.map CompletionItemKind.toJson),
    (str "tags", i.tags.map fun tags => .array (tags.map CompletionItemTag.toJson)),
    (str "detail", i.detail.map .string),
    (str "documentation", i.documentation.map CompletionDocumentation.toJson),
    (str "preselect", i.preselect.map .boolean),
    (str "sortText", i.sortText.map .string),
    (str "filterText", i.filterText.map .string),
    (str "insertText", i.insertText.map .string),
    (str "insertTextFormat", i.insertTextFormat.map InsertTextFormat.toJson),
    (str "textEdit", i.textEdit.map TextEdit.toJson),
    (str "additionalTextEdits", i.additionalTextEdits.map fun edits =>
      .array (edits.map TextEdit.toJson)),
    (str "commitCharacters", i.commitCharacters.map fun characters =>
      .array (characters.map .string)),
    (str "data", i.data)]

def CompletionItem.toJson (i : CompletionItem) : Json :=
  ofFields i.fields

def CompletionItem.fromJson (j : Json) : Except JsonError CompletionItem := do
  let label ← readAt getString j (str "label")
  let kind ← readOpt CompletionItemKind.fromJson j (str "kind")
  let tags ← readArray CompletionItemTag.fromJson j (str "tags")
  let detail ← readOpt getString j (str "detail")
  let documentation ← readOpt CompletionDocumentation.fromJson j (str "documentation")
  let preselect ← readOpt getBool j (str "preselect")
  let sortText ← readOpt getString j (str "sortText")
  let filterText ← readOpt getString j (str "filterText")
  let insertText ← readOpt getString j (str "insertText")
  let insertTextFormat ← readOpt InsertTextFormat.fromJson j (str "insertTextFormat")
  let textEdit ← readOpt TextEdit.fromJson j (str "textEdit")
  let additionalTextEdits ← readArray TextEdit.fromJson j (str "additionalTextEdits")
  let commitCharacters ← readArray getString j (str "commitCharacters")
  return {
    label, kind, tags, detail, documentation, preselect, sortText, filterText, insertText,
    insertTextFormat, textEdit, additionalTextEdits, commitCharacters,
    data := find? j (str "data") }

def CompletionList.fields (l : CompletionList) : List (Bytes × Option Json) :=
  [(str "isIncomplete", some (.boolean l.isIncomplete)),
    (str "items", some (.array (l.items.map CompletionItem.toJson)))]

def CompletionList.toJson (l : CompletionList) : Json :=
  ofFields l.fields

def CompletionList.fromJson (j : Json) : Except JsonError CompletionList := do
  let isIncomplete ← readAt getBool j (str "isIncomplete")
  let items ← readAt (getList CompletionItem.fromJson) j (str "items")
  return { isIncomplete, items }

/-! ## Round trips -/

lemma CompletionTriggerKind.fromJson_toJson (k : CompletionTriggerKind) :
    CompletionTriggerKind.fromJson k.toJson = .ok k :=
  enumFromJson_enumToJson _ _ rfl

lemma CompletionItemKind.fromJson_toJson (k : CompletionItemKind) :
    CompletionItemKind.fromJson k.toJson = .ok k :=
  enumFromJson_enumToJson _ _ rfl

lemma InsertTextFormat.fromJson_toJson (f : InsertTextFormat) :
    InsertTextFormat.fromJson f.toJson = .ok f :=
  enumFromJson_enumToJson _ _ rfl

lemma CompletionItemTag.fromJson_toJson (t : CompletionItemTag) :
    CompletionItemTag.fromJson t.toJson = .ok t :=
  enumFromJson_enumToJson _ _ rfl

lemma CompletionContext.nodup_keys (c : CompletionContext) : (c.fields.map Prod.fst).Nodup :=
  have hkeys : [str "triggerKind", str "triggerCharacter"].Nodup := by decide
  hkeys

lemma CompletionContext.fromJson_toJson (c : CompletionContext) :
    CompletionContext.fromJson c.toJson = .ok c := by
  have hkind : readAt CompletionTriggerKind.fromJson c.toJson (str "triggerKind") =
      .ok c.triggerKind :=
    readAt_ofFields (i := 0) c.nodup_keys rfl c.triggerKind.fromJson_toJson
  have hcharacter : readOpt getString c.toJson (str "triggerCharacter") = .ok c.triggerCharacter :=
    readOpt_ofFields (i := 1) c.nodup_keys rfl nofun fun _ => rfl
  rw [CompletionContext.fromJson, hkind, hcharacter]
  rfl

lemma CompletionParams.nodup_keys (p : CompletionParams) : (p.fields.map Prod.fst).Nodup :=
  have hkeys : [str "textDocument", str "position", str "context"].Nodup := by decide
  hkeys

theorem CompletionParams.fromJson_toJson (p : CompletionParams) :
    CompletionParams.fromJson p.toJson = .ok p := by
  have hdocument : readAt TextDocumentIdentifier.fromJson p.toJson (str "textDocument") =
      .ok p.textDocument :=
    readAt_ofFields (i := 0) p.nodup_keys rfl p.textDocument.fromJson_toJson
  have hposition : readAt Position.fromJson p.toJson (str "position") = .ok p.position :=
    readAt_ofFields (i := 1) p.nodup_keys rfl p.position.fromJson_toJson
  have hcontext : readOpt CompletionContext.fromJson p.toJson (str "context") = .ok p.context :=
    readOpt_ofFields (i := 2) p.nodup_keys rfl nofun CompletionContext.fromJson_toJson
  rw [CompletionParams.fromJson, hdocument, hposition, hcontext]
  rfl

lemma TextEdit.nodup_keys (e : TextEdit) : (e.fields.map Prod.fst).Nodup :=
  have hkeys : [str "range", str "newText"].Nodup := by decide
  hkeys

lemma TextEdit.fromJson_toJson (e : TextEdit) : TextEdit.fromJson e.toJson = .ok e := by
  have hrange : readAt Range.fromJson e.toJson (str "range") = .ok e.range :=
    readAt_ofFields (i := 0) e.nodup_keys rfl e.range.fromJson_toJson
  have htext : readAt getString e.toJson (str "newText") = .ok e.newText :=
    readAt_ofFields (i := 1) e.nodup_keys rfl rfl
  rw [TextEdit.fromJson, hrange, htext]
  rfl

/-- A `MarkupContent` is no string. -/
lemma CompletionDocumentation.fromJson_toJson (d : CompletionDocumentation) :
    CompletionDocumentation.fromJson d.toJson = .ok d := by
  cases d with
  | string s => rfl
  | markup m =>
    show CompletionDocumentation.markup <$> MarkupContent.fromJson m.toJson = _
    rw [m.fromJson_toJson]
    rfl

lemma CompletionDocumentation.toJson_ne_null (d : CompletionDocumentation) : d.toJson ≠ .null := by
  cases d with
  | string s => nofun
  | markup m => exact m.toJson_ne_null

lemma CompletionItem.nodup_keys (i : CompletionItem) : (i.fields.map Prod.fst).Nodup :=
  have hkeys : [str "label", str "kind", str "tags", str "detail", str "documentation",
    str "preselect", str "sortText", str "filterText", str "insertText", str "insertTextFormat",
    str "textEdit", str "additionalTextEdits", str "commitCharacters", str "data"].Nodup := by
    decide
  hkeys

theorem CompletionItem.fromJson_toJson (i : CompletionItem) :
    CompletionItem.fromJson i.toJson = .ok i := by
  have hkeys := i.nodup_keys
  have hlabel : readAt getString i.toJson (str "label") = .ok i.label :=
    readAt_ofFields (i := 0) hkeys rfl rfl
  have hkind : readOpt CompletionItemKind.fromJson i.toJson (str "kind") = .ok i.kind :=
    readOpt_ofFields (i := 1) hkeys rfl nofun CompletionItemKind.fromJson_toJson
  have htags : readArray CompletionItemTag.fromJson i.toJson (str "tags") = .ok i.tags :=
    readArray_ofFields (i := 2) hkeys rfl CompletionItemTag.fromJson_toJson
  have hdetail : readOpt getString i.toJson (str "detail") = .ok i.detail :=
    readOpt_ofFields (i := 3) hkeys rfl nofun fun _ => rfl
  have hdocumentation : readOpt CompletionDocumentation.fromJson i.toJson (str "documentation") =
      .ok i.documentation :=
    readOpt_ofFields (i := 4) hkeys rfl CompletionDocumentation.toJson_ne_null
      CompletionDocumentation.fromJson_toJson
  have hpreselect : readOpt getBool i.toJson (str "preselect") = .ok i.preselect :=
    readOpt_ofFields (i := 5) hkeys rfl nofun fun _ => rfl
  have hsort : readOpt getString i.toJson (str "sortText") = .ok i.sortText :=
    readOpt_ofFields (i := 6) hkeys rfl nofun fun _ => rfl
  have hfilter : readOpt getString i.toJson (str "filterText") = .ok i.filterText :=
    readOpt_ofFields (i := 7) hkeys rfl nofun fun _ => rfl
  have hinsert : readOpt getString i.toJson (str "insertText") = .ok i.insertText :=
    readOpt_ofFields (i := 8) hkeys rfl nofun fun _ => rfl
  have hformat : readOpt InsertTextFormat.fromJson i.toJson (str "insertTextFormat") =
      .ok i.insertTextFormat :=
    readOpt_ofFields (i := 9) hkeys rfl nofun InsertTextFormat.fromJson_toJson
  have hedit : readOpt TextEdit.fromJson i.toJson (str "textEdit") = .ok i.textEdit :=
    readOpt_ofFields (i := 10) hkeys rfl nofun TextEdit.fromJson_toJson
  have hedits : readArray TextEdit.fromJson i.toJson (str "additionalTextEdits") =
      .ok i.additionalTextEdits :=
    readArray_ofFields (i := 11) hkeys rfl TextEdit.fromJson_toJson
  have hcharacters : readArray getString i.toJson (str "commitCharacters") =
      .ok i.commitCharacters :=
    readArray_ofFields (i := 12) hkeys rfl fun _ => rfl
  have hdata : find? i.toJson (str "data") = i.data :=
    find?_ofFields (i := 13) hkeys rfl
  simp only [CompletionItem.fromJson, hlabel, hkind, htags, hdetail, hdocumentation, hpreselect,
    hsort, hfilter, hinsert, hformat, hedit, hedits, hcharacters, hdata]
  rfl

lemma CompletionList.nodup_keys (l : CompletionList) : (l.fields.map Prod.fst).Nodup :=
  have hkeys : [str "isIncomplete", str "items"].Nodup := by decide
  hkeys

theorem CompletionList.fromJson_toJson (l : CompletionList) :
    CompletionList.fromJson l.toJson = .ok l := by
  have hincomplete : readAt getBool l.toJson (str "isIncomplete") = .ok l.isIncomplete :=
    readAt_ofFields (i := 0) l.nodup_keys rfl rfl
  have hitems : readAt (getList CompletionItem.fromJson) l.toJson (str "items") = .ok l.items :=
    readAt_ofFields (i := 1) l.nodup_keys rfl (getList_array_self CompletionItem.fromJson_toJson _)
  rw [CompletionList.fromJson, hincomplete, hitems]
  rfl

/-! ## The result -/

/-- What is read back as it was written is written in one way. -/
lemma injective_of_fromJson_toJson {α : Type} {toJson : α → Json}
    {fromJson : Json → Except JsonError α} (h : ∀ x, fromJson (toJson x) = .ok x) :
    Function.Injective toJson := by
  intro x y heq
  have hx := h x
  rw [heq, h y] at hx
  exact (Except.ok.inj hx).symm

/-- Completion and hover messages survive the wire, and distinct ones are written differently. -/
theorem completion_hover_survive :
    (∀ l : CompletionList, CompletionList.fromJson l.toJson = .ok l) ∧
    (∀ p : CompletionParams, CompletionParams.fromJson p.toJson = .ok p) ∧
    (∀ p : HoverParams, HoverParams.fromJson p.toJson = .ok p) ∧
    (∀ h : Hover, Hover.fromJson h.toJson = .ok h) ∧
    Function.Injective CompletionList.toJson ∧ Function.Injective CompletionParams.toJson ∧
    Function.Injective HoverParams.toJson ∧ Function.Injective Hover.toJson :=
  ⟨CompletionList.fromJson_toJson, CompletionParams.fromJson_toJson, HoverParams.fromJson_toJson,
    Hover.fromJson_toJson, injective_of_fromJson_toJson CompletionList.fromJson_toJson,
    injective_of_fromJson_toJson CompletionParams.fromJson_toJson,
    injective_of_fromJson_toJson HoverParams.fromJson_toJson,
    injective_of_fromJson_toJson Hover.fromJson_toJson⟩

end CLSP
