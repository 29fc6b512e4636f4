import CLSP.Lib.LineText
import CLSP.DocumentStore.Store

/-!
# The client's documents

What the document store is for: it follows the documents of a client. The client's own view is
a list of Unicode scalars per open document, edited by splices between positions and by full
replacements. `ClientOperation.serve` sends the same operation, texts encoded in UTF-8, to the
store.
-/

namespace CLSP

open LineText

/-- The units one scalar takes of its line. -/
def PositionEncoding.units : PositionEncoding → Char → ℕ
  | .UTF8 => Char.utf8Size
  | .UTF16 => Utf8.utf16Size
  | .UTF32 => fun _ => 1

lemma PositionEncoding.units_pos (e : PositionEncoding) (c : Char) : 0 < e.units c := by
  cases e
  · exact Char.utf8Size_pos c
  · exact Utf8.utf16Size_pos c
  · exact Nat.one_pos

/-- The order of positions in a text. -/
def Position.Le (a b : Position) : Prop :=
  a.line < b.line ∨ a.line = b.line ∧ a.character ≤ b.character

instance (a b : Position) : Decidable (a.Le b) :=
  inferInstanceAs (Decidable (_ ∨ _))

/-- A document as its client has it. -/
structure ClientDocument where
  text : List Char
  version : Int32
  languageId : Bytes

inductive ClientChange
  | full (new : List Char)
  | ranged (range : Range) (new : List Char)

inductive ClientOperation
  | didOpen (uri : DocumentUri) (languageId : Bytes) (version : Int32) (text : List Char)
  | didChange (uri : DocumentUri) (version : Int32) (changes : List ClientChange)
  | didClose (uri : DocumentUri)

/-- The documents a client has open. -/
abbrev ClientDocuments := DocumentUri → Option ClientDocument

/-! ## Changes of one text -/

/-- The index of a position on a scalar boundary of one of the lines. -/
def clientIndex (e : PositionEncoding) (text : List Char) (pos : Position) : Option ℕ :=
  locate '\n' e.units text pos.line.toNat pos.character.toNat

/-- The index a position addresses is the one whose prefix ends at that position. -/
lemma clientIndex_eq_some_iff {e : PositionEncoding} {text : List Char} {pos : Position} {i : ℕ} :
    clientIndex e text pos = some i ↔ i ≤ text.length ∧
      positionOf '\n' e.units (text.take i) = (pos.line.toNat, pos.character.toNat) :=
  locate_eq_some_iff e.units_pos

namespace ClientChange

/-- A change addresses its text: the range is ordered and both ends are boundaries of lines. -/
def InBounds (e : PositionEncoding) (text : List Char) : ClientChange → Prop
  | full _ => True
  | ranged range _ =>
    range.start.Le range.end ∧ (clientIndex e text range.start).isSome ∧
      (clientIndex e text range.end).isSome

/-- The text after a change. -/
def apply (e : PositionEncoding) (text : List Char) : ClientChange → List Char
  | full new => new
  | ranged range new =>
    splice text ((clientIndex e text range.start).getD 0) ((clientIndex e text range.end).getD 0)
      new

/-- The change on the wire. -/
def event : ClientChange → TextDocumentChangeEvent
  | full new => { range := none, text := Utf8.encode new }
  | ranged range new => { range := some range, text := Utf8.encode new }

/-- The changes of a batch address, each, the text left by the ones before. -/
def AllInBounds (e : PositionEncoding) : List Char → List ClientChange → Prop
  | _, [] => True
  | text, change :: changes =>
    change.InBounds e text ∧ AllInBounds e (change.apply e text) changes

/-- The text after a batch. -/
def applyAll (e : PositionEncoding) (text : List Char) (changes : List ClientChange) :
    List Char :=
  changes.foldl (apply e) text

end ClientChange

/-! ## Histories of many documents -/

namespace ClientOperation

/-- The document an operation is about. -/
def uri : ClientOperation → DocumentUri
  | didOpen uri _ _ _ => uri
  | didChange uri _ _ => uri
  | didClose uri => uri

/-- What the operation does to the document it is about. -/
def update (e : PositionEncoding) (doc : Option ClientDocument) :
    ClientOperation → Option ClientDocument
  | didOpen _ languageId version text => some { text, version, languageId }
  | didChange _ version changes =>
    doc.map fun d => { d with text := ClientChange.applyAll e d.text changes, version }
  | didClose _ => none

/-- The client's documents after an operation. -/
def apply (e : PositionEncoding) (docs : ClientDocuments) (op : ClientOperation) :
    ClientDocuments :=
  Function.update docs op.uri (op.update e (docs op.uri))

/-- The changes of a didChange for an open document are in bounds. -/
def InBounds (e : PositionEncoding) (doc : Option ClientDocument) : ClientOperation → Prop
  | didChange _ _ changes =>
    match doc with
    | some d => ClientChange.AllInBounds e d.text changes
    | none => True
  | _ => True

/-- The operation on the wire. An exception of `applyChange` is swallowed by its caller. -/
def serve (store : DocumentStore) : ClientOperation → DocumentStore
  | didOpen uri languageId version text =>
    store.open { uri, languageId, version, text := Utf8.encode text }
  | didChange uri version changes =>
    (store.applyChange { uri, version } (changes.map ClientChange.event)).1
  | didClose uri => (store.close uri).1

end ClientOperation

/-- The client's documents after a history. -/
def clientRun (e : PositionEncoding) (ops : List ClientOperation) : ClientDocuments :=
  ops.foldl (ClientOperation.apply e) fun _ => none

/-- Every operation of a history is in bounds where it is issued. -/
def HistoryInBounds (e : PositionEncoding) : ClientDocuments → List ClientOperation → Prop
  | _, [] => True
  | docs, op :: ops =>
    op.InBounds e (docs op.uri) ∧ HistoryInBounds e (op.apply e docs) ops

/-- The store after a history, from an empty store with encoding `e`. -/
def serveAll (e : PositionEncoding) (ops : List ClientOperation) : DocumentStore :=
  ops.foldl ClientOperation.serve { encoding_ := e }

/-- The version of the last didOpen or didChange of a document. -/
def lastVersion (uri : DocumentUri) (ops : List ClientOperation) : Option Int32 :=
  ops.reverse.findSome? fun
    | .didOpen uri' _ version _ => if uri' = uri then some version else none
    | .didChange uri' version _ => if uri' = uri then some version else none
    | .didClose _ => none

/-- The language of the last didOpen of a document. -/
def lastLanguageId (uri : DocumentUri) (ops : List ClientOperation) : Option Bytes :=
  ops.reverse.findSome? fun
    | .didOpen uri' languageId _ _ => if uri' = uri then some languageId else none
    | _ => none

/-- The item the store should hold for a document of the client. -/
def ClientDocument.item (uri : DocumentUri) (d : ClientDocument) : TextDocumentItem :=
  { uri, languageId := d.languageId, version := d.version, text := Utf8.encode d.text }

end CLSP
