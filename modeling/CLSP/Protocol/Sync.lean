import CLSP.Protocol.Documents
import CLSP.Rpc.Json

/-!
# Decoding the document notifications

The `from_json` functions of `protocol/Basic.hpp`, `protocol/Documents.hpp` and
`protocol/Sync.hpp` that the handlers of the document notifications run on their params.
-/

namespace CLSP

open Json (at_ member? getString getInt32 getUInt32 getArray)

structure DidOpenParams where
  textDocument : TextDocumentItem

structure DidChangeParams where
  textDocument : VersionedTextDocumentIdentifier
  contentChanges : List TextDocumentChangeEvent

structure DidCloseParams where
  uri : DocumentUri

structure DidSaveParams where
  uri : DocumentUri
  text : Option Bytes

def Position.fromJson (j : Json) : Except JsonError Position := do
  let line ← (← at_ j (str "line")).getUInt32
  let character ← (← at_ j (str "character")).getUInt32
  return { line, character }

def Range.fromJson (j : Json) : Except JsonError Range := do
  let start ← Position.fromJson (← at_ j (str "start"))
  let stop ← Position.fromJson (← at_ j (str "end"))
  return { start, «end» := stop }

def TextDocumentItem.fromJson (j : Json) : Except JsonError TextDocumentItem := do
  let uri ← (← at_ j (str "uri")).getString
  let languageId ← (← at_ j (str "languageId")).getString
  let version ← (← at_ j (str "version")).getInt32
  let text ← (← at_ j (str "text")).getString
  return { uri, languageId, version, text }

def VersionedTextDocumentIdentifier.fromJson (j : Json) :
    Except JsonError VersionedTextDocumentIdentifier := do
  let uri ← (← at_ j (str "uri")).getString
  let version ← (← at_ j (str "version")).getInt32
  return { uri, version }

def TextDocumentChangeEvent.fromJson (j : Json) : Except JsonError TextDocumentChangeEvent := do
  let range ← match member? j (str "range") with
    | some r => some <$> Range.fromJson r
    | none => pure none
  let text ← (← at_ j (str "text")).getString
  return { range, text }

def DidOpenParams.fromJson (j : Json) : Except JsonError DidOpenParams := do
  let textDocument ← TextDocumentItem.fromJson (← at_ j (str "textDocument"))
  return { textDocument }

def DidChangeParams.fromJson (j : Json) : Except JsonError DidChangeParams := do
  let textDocument ← VersionedTextDocumentIdentifier.fromJson (← at_ j (str "textDocument"))
  let changes ← (← at_ j (str "contentChanges")).getArray
  let contentChanges ← changes.mapM TextDocumentChangeEvent.fromJson
  return { textDocument, contentChanges }

def DidCloseParams.fromJson (j : Json) : Except JsonError DidCloseParams := do
  let uri ← (← at_ (← at_ j (str "textDocument")) (str "uri")).getString
  return { uri }

def DidSaveParams.fromJson (j : Json) : Except JsonError DidSaveParams := do
  let uri ← (← at_ (← at_ j (str "textDocument")) (str "uri")).getString
  let text ← match member? j (str "text") with
    | some t => some <$> t.getString
    | none => pure none
  return { uri, text }

end CLSP
