import CLSP.Protocol.Documents
import Mathlib.Data.List.AList

/-!
# `DocumentStore`

The store of `src/DocumentStore.cpp`: the map from URIs to documents, the conversion of a
position to a byte offset, and the in-place application of a batch of changes. Scans over
`text[offset]` run over the rest of the text from `offset` on.
-/

namespace CLSP

/-! ## `decodeUtf8` and `positionToOffset` -/

/-- The branches of `decodeUtf8` on the lead byte: `byteLen` and `utf16Units`. -/
def leadUnits (b0 : UInt8) : ℕ × ℕ :=
  if b0 < 0x80 then (1, 1)
  else if b0 &&& 0xE0 = 0xC0 then (2, 1)
  else if b0 &&& 0xF0 = 0xE0 then (3, 1)
  else if b0 &&& 0xF8 = 0xF0 then (4, 2)
  else (1, 1)

/-- `decodeUtf8` at the first byte of `rest`: the bytes consumed, cut at the end of the text,
and the UTF-16 code units. -/
def decodeUtf8 (rest : Bytes) : ℕ × ℕ :=
  let (byteLen, utf16Units) := leadUnits (rest.headD 0)
  if byteLen > rest.length then
    (if rest.length = 0 then 1 else rest.length, utf16Units)
  else (byteLen, utf16Units)

lemma leadUnits_fst_pos (b0 : UInt8) : 0 < (leadUnits b0).1 := by
  unfold leadUnits
  split_ifs <;> decide

lemma decodeUtf8_fst_pos (rest : Bytes) : 0 < (decodeUtf8 rest).1 := by
  have hlead := leadUnits_fst_pos (rest.headD 0)
  simp only [decodeUtf8]
  split_ifs
  · exact Nat.one_pos
  · exact Nat.pos_of_ne_zero ‹_›
  · exact hlead

/-- First loop of `positionToOffset`: the rest of the text after `target` newlines, and its
offset. The counter stops at `pos.line`, so its 32 bits never wrap. -/
def skipLines (target : ℕ) : Bytes → ℕ → ℕ → Bytes × ℕ
  | [], _, offset => ([], offset)
  | b :: rest, line, offset =>
    if line < target then
      skipLines target rest (if b = newline then line + 1 else line) (offset + 1)
    else (b :: rest, offset)

/-- Second loop: walk code points until `consumed` reaches `target` or the line ends. The
counter is a `uint32_t` and steps by two over a surrogate pair. -/
def walkLine (encoding : PositionEncoding) (target : UInt32) : Bytes → UInt32 → ℕ → ℕ
  | [], _, offset => offset
  | b :: tail, consumed, offset =>
    if consumed < target ∧ b ≠ newline then
      let byteLen := (decodeUtf8 (b :: tail)).1
      let units := (decodeUtf8 (b :: tail)).2
      walkLine encoding target ((b :: tail).drop byteLen)
        (consumed + if encoding = .UTF16 then UInt32.ofNat units else 1) (offset + byteLen)
    else offset
termination_by rest => rest.length
decreasing_by
  have := decodeUtf8_fst_pos (b :: tail)
  simp only [List.length_drop, List.length_cons]
  omega

/-- `DocumentStore::positionToOffset`. In UTF-8 mode the character is added unchecked. -/
def positionToOffset (encoding : PositionEncoding) (text : Bytes) (pos : Position) : ℕ :=
  let (rest, offset) := skipLines pos.line.toNat text 0 0
  if encoding = .UTF8 then offset + pos.character.toNat
  else walkLine encoding pos.character rest 0 offset

/-! ## `applyChange` -/

/-- One iteration of the loop of `applyChange`. -/
def applyEvent (encoding : PositionEncoding) (text : Bytes) (change : TextDocumentChangeEvent) :
    Except StringError Bytes :=
  match change.range with
  | some range =>
    let start := positionToOffset encoding text range.start
    let stop := positionToOffset encoding text range.end
    replace text start (sizeSub stop start) change.text
  | none => .ok change.text

/-- The loop of `applyChange`. Edits are made in place, so an exception leaves the text of the
events before it. -/
def applyEvents (encoding : PositionEncoding) :
    Bytes → List TextDocumentChangeEvent → Bytes × Option StringError
  | text, [] => (text, none)
  | text, change :: changes =>
    match applyEvent encoding text change with
    | .ok text' => applyEvents encoding text' changes
    | .error e => (text, some e)

/-! ## The store -/

/-- `DocumentStore` with the members of `IDocumentStore` it uses. -/
structure DocumentStore where
  documents_ : AList (fun _ : DocumentUri => TextDocumentItem) := ∅
  encoding_ : PositionEncoding := .UTF16

namespace DocumentStore

/-- `open`: insert or replace the document. -/
def «open» (store : DocumentStore) (item : TextDocumentItem) : DocumentStore :=
  { store with
    documents_ := store.documents_.insert item.uri
      { uri := item.uri, languageId := item.languageId, version := item.version,
        text := item.text } }

/-- `applyChange`: `none` for an unknown URI. After an exception the text keeps the edits made
and the version is not set. -/
def applyChange (store : DocumentStore) (id : VersionedTextDocumentIdentifier)
    (changes : List TextDocumentChangeEvent) :
    DocumentStore × Except StringError (Option TextDocumentItem) :=
  match store.documents_.lookup id.uri with
  | none => (store, .ok none)
  | some item =>
    match applyEvents store.encoding_ item.text changes with
    | (text, some e) =>
      ({ store with documents_ := store.documents_.insert id.uri { item with text := text } },
        .error e)
    | (text, none) =>
      let item' := { item with text := text, version := id.version }
      ({ store with documents_ := store.documents_.insert id.uri item' }, .ok (some item'))

/-- `close`: whether there was a document to erase. -/
def close (store : DocumentStore) (uri : DocumentUri) : DocumentStore × Bool :=
  ({ store with documents_ := store.documents_.erase uri },
    (store.documents_.lookup uri).isSome)

/-- `get`: a null pointer is `none`. -/
def get (store : DocumentStore) (uri : DocumentUri) : Option TextDocumentItem :=
  store.documents_.lookup uri

/-- `setPositionEncoding` -/
def setPositionEncoding (store : DocumentStore) (e : PositionEncoding) : DocumentStore :=
  { store with encoding_ := e }

def uris (store : DocumentStore) : List DocumentUri :=
  store.documents_.keys

end DocumentStore

end CLSP
