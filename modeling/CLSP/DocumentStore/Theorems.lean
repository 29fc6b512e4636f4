import CLSP.DocumentStore.Conversion
import Mathlib.Data.List.Induction

/-!
# The store follows the client

A position in bounds is converted to the byte offset of the client's index
(`positionToOffset_encode`), so a ranged change is the client's splice, and `refines_foldl` carries
the relation through every history.
-/

namespace CLSP

open LineText

/-! ## Positions in bounds -/

/-- A position in bounds is converted to the byte offset of the client's index. -/
theorem positionToOffset_encode {e : PositionEncoding} {text : List Char} {pos : Position} {i : ℕ}
    (h : clientIndex e text pos = some i) :
    positionToOffset e (Utf8.encode text) pos = (Utf8.encode (text.take i)).length := by
  by_cases he : e = .UTF8
  · -- the UTF-8 units of the line are the bytes themselves
    subst he
    rcases locate_eq_add_lineStart h with ⟨k, rfl, hk⟩
    have hbytes : (Utf8.encode ((text.drop (lineStart '\n' text pos.line.toNat)).take k)).length
        = pos.character.toNat :=
      (Utf8.length_encode _).trans (sum_take_of_locate_zero hk)
    rw [positionToOffset_utf8, byteOffset, lineStart_encode, List.take_add, Utf8.encode_append,
      List.length_append, hbytes]
  · -- the scan of the line stops at the index
    rw [positionToOffset_eq he, scanIndex_of_locate h (reached_self pos.character)
      fun k hk => not_reached hk]

/-! ## Changes -/

/-- Replacing between the offsets of two ordered indices is the splice between them. -/
lemma replace_encode {text new : List Char} {i j : ℕ} (hij : i ≤ j) :
    replace (Utf8.encode text) (Utf8.encode (text.take i)).length
        (sizeSub (Utf8.encode (text.take j)).length (Utf8.encode (text.take i)).length)
        (Utf8.encode new)
      = .ok (Utf8.encode (splice text i j new)) := by
  have hle := length_encode_take_mono text hij
  rw [replace_of_le hle (length_encode_take_le text i), take_encode, drop_encode, splice,
    Utf8.encode_append, Utf8.encode_append]

/-- One change in bounds: the store's text stays the encoding of the client's. -/
lemma applyEvent_event {e : PositionEncoding} {text : List Char} {change : ClientChange}
    (h : change.InBounds e text) :
    applyEvent e (Utf8.encode text) change.event = .ok (Utf8.encode (change.apply e text)) := by
  cases change with
  | full new => rfl
  | ranged range new =>
    rcases h with ⟨hle, hstart, hend⟩
    rcases Option.isSome_iff_exists.mp hstart with ⟨i, hi⟩
    rcases Option.isSome_iff_exists.mp hend with ⟨j, hj⟩
    -- `replace` gets a length, so the ends have to be in order
    have hij : i ≤ j := by
      apply locate_le_locate hi hj
      rcases hle with hlt | ⟨heq, hchar⟩
      · exact Or.inl (UInt32.lt_iff_toNat_lt.mp hlt)
      · exact Or.inr ⟨by rw [heq], UInt32.le_iff_toNat_le.mp hchar⟩
    simp only [ClientChange.event, ClientChange.apply, applyEvent, positionToOffset_encode hi,
      positionToOffset_encode hj, hi, hj, Option.getD_some]
    exact replace_encode hij

/-- A batch in bounds is applied to its end. -/
lemma applyEvents_event {e : PositionEncoding} (changes : List ClientChange) {text : List Char}
    (h : ClientChange.AllInBounds e text changes) :
    applyEvents e (Utf8.encode text) (changes.map ClientChange.event)
      = (Utf8.encode (ClientChange.applyAll e text changes), none) := by
  induction changes generalizing text with
  | nil => rfl
  | cons change changes ih =>
    rw [List.map_cons, applyEvents, applyEvent_event h.1]
    exact ih h.2

/-! ## Histories -/

/-- The store holds, under every URI, the encoding of the client's document. -/
def Refines (e : PositionEncoding) (store : DocumentStore) (docs : ClientDocuments) : Prop :=
  store.encoding_ = e ∧ ∀ uri, store.get uri = (docs uri).map (ClientDocument.item uri)

lemma get_open (store : DocumentStore) (item : TextDocumentItem) (uri : DocumentUri) :
    (store.open item).get uri = if uri = item.uri then some item else store.get uri := by
  unfold DocumentStore.get DocumentStore.open
  split
  · next h =>
    rw [h]
    exact AList.lookup_insert _
  · next h => exact AList.lookup_insert_ne h

lemma get_close (store : DocumentStore) (uri' uri : DocumentUri) :
    (store.close uri').1.get uri = if uri = uri' then none else store.get uri := by
  unfold DocumentStore.get DocumentStore.close
  split
  · next h =>
    rw [h]
    exact AList.lookup_erase _ _
  · next h => exact AList.lookup_erase_ne h

/-- What `applyChange` makes of a stored document, exceptions included. -/
def afterChange (e : PositionEncoding) (version : Int32) (changes : List TextDocumentChangeEvent)
    (item : TextDocumentItem) : TextDocumentItem :=
  match applyEvents e item.text changes with
  | (text, some _) => { item with text := text }
  | (text, none) => { item with text := text, version := version }

/-- It keeps its URI and its language. -/
lemma afterChange_eq (e : PositionEncoding) (version : Int32)
    (changes : List TextDocumentChangeEvent) (item : TextDocumentItem) :
    (afterChange e version changes item).uri = item.uri ∧
      (afterChange e version changes item).languageId = item.languageId ∧
      (afterChange e version changes item).text = (applyEvents e item.text changes).1 := by
  unfold afterChange
  split <;> simp_all

lemma applyChange_of_get {store : DocumentStore} {id : VersionedTextDocumentIdentifier}
    {item : TextDocumentItem} (changes : List TextDocumentChangeEvent)
    (h : store.get id.uri = some item) :
    (store.applyChange id changes).1 = { store with
      documents_ := store.documents_.insert id.uri
        (afterChange store.encoding_ id.version changes item) } := by
  unfold DocumentStore.get at h
  simp only [DocumentStore.applyChange, h, afterChange]
  split <;> simp_all

lemma applyChange_of_none {store : DocumentStore} {id : VersionedTextDocumentIdentifier}
    (changes : List TextDocumentChangeEvent) (h : store.get id.uri = none) :
    (store.applyChange id changes).1 = store := by
  unfold DocumentStore.get at h
  simp only [DocumentStore.applyChange, h]

/-- Spec of `applyChange`: the addressed document is changed, the others are not. -/
lemma get_applyChange (store : DocumentStore) (id : VersionedTextDocumentIdentifier)
    (changes : List TextDocumentChangeEvent) (uri : DocumentUri) :
    (store.applyChange id changes).1.get uri
      = if uri = id.uri then (store.get uri).map (afterChange store.encoding_ id.version changes)
        else store.get uri := by
  cases hitem : store.get id.uri with
  | none =>
    rw [applyChange_of_none changes hitem]
    split
    · next huri => rw [huri, hitem, Option.map_none]
    · rfl
  | some item =>
    rw [applyChange_of_get changes hitem]
    split
    · next huri =>
      rw [huri, hitem, Option.map_some]
      exact AList.lookup_insert _
    · next huri => exact AList.lookup_insert_ne huri

lemma encoding_applyChange (store : DocumentStore) (id : VersionedTextDocumentIdentifier)
    (changes : List TextDocumentChangeEvent) :
    (store.applyChange id changes).1.encoding_ = store.encoding_ := by
  cases hitem : store.get id.uri with
  | none => rw [applyChange_of_none changes hitem]
  | some item => rw [applyChange_of_get changes hitem]

/-- What an operation does to the document it is about. -/
lemma get_serve_self {e : PositionEncoding} {store : DocumentStore} {doc : Option ClientDocument}
    {op : ClientOperation} (henc : store.encoding_ = e)
    (hget : store.get op.uri = doc.map (ClientDocument.item op.uri)) (hop : op.InBounds e doc) :
    (op.serve store).get op.uri = (op.update e doc).map (ClientDocument.item op.uri) := by
  cases op with
  | didOpen uri languageId version text => exact (get_open _ _ _).trans (if_pos rfl)
  | didClose uri => exact (get_close _ _ _).trans (if_pos rfl)
  | didChange uri version changes =>
    refine (get_applyChange _ _ _ _).trans ((if_pos rfl).trans ?_)
    rw [hget, henc, Option.map_map]
    cases doc with
    | none => rfl
    | some d =>
      show some (afterChange e version _ (d.item uri)) = some _
      rw [afterChange, show (d.item uri).text = Utf8.encode d.text from rfl,
        applyEvents_event changes hop]
      rfl

/-- An operation leaves the documents of other URIs alone. -/
lemma get_serve_ne (store : DocumentStore) {op : ClientOperation} {uri : DocumentUri}
    (h : uri ≠ op.uri) : (op.serve store).get uri = store.get uri := by
  cases op with
  | didOpen => exact (get_open _ _ _).trans (if_neg h)
  | didChange => exact (get_applyChange _ _ _ _).trans (if_neg h)
  | didClose => exact (get_close _ _ _).trans (if_neg h)

lemma encoding_serve (store : DocumentStore) (op : ClientOperation) :
    (op.serve store).encoding_ = store.encoding_ := by
  cases op with
  | didOpen => rfl
  | didChange => exact encoding_applyChange _ _ _
  | didClose => rfl

/-- Step lemma: an operation in bounds keeps the relation. -/
lemma refines_serve {e : PositionEncoding} {store : DocumentStore} {docs : ClientDocuments}
    {op : ClientOperation} (h : Refines e store docs) (hop : op.InBounds e (docs op.uri)) :
    Refines e (op.serve store) (op.apply e docs) := by
  refine ⟨(encoding_serve store op).trans h.1, fun uri => ?_⟩
  unfold ClientOperation.apply
  by_cases huri : uri = op.uri
  · rw [huri, Function.update_self]
    exact get_serve_self h.1 (h.2 op.uri) hop
  · rw [Function.update_of_ne huri, get_serve_ne store huri]
    exact h.2 uri

/-- Run lemma: the relation survives every history in bounds. -/
lemma refines_foldl {e : PositionEncoding} (ops : List ClientOperation) {store : DocumentStore}
    {docs : ClientDocuments} (h : Refines e store docs) (hops : HistoryInBounds e docs ops) :
    Refines e (ops.foldl ClientOperation.serve store)
      (ops.foldl (ClientOperation.apply e) docs) := by
  induction ops generalizing store docs with
  | nil => exact h
  | cons op ops ih => exact ih (refines_serve h hops.1) hops.2

/-! ## Versions, languages and the other documents -/

lemma clientRun_concat (e : PositionEncoding) (ops : List ClientOperation) (op : ClientOperation) :
    clientRun e (ops ++ [op]) = op.apply e (clientRun e ops) := by
  simp [clientRun]

/-- An open document has the version of its last didOpen or didChange and the language of its
last didOpen. -/
lemma last_of_clientRun {e : PositionEncoding} {uri : DocumentUri} (ops : List ClientOperation)
    {d : ClientDocument} (h : clientRun e ops uri = some d) :
    lastVersion uri ops = some d.version ∧ lastLanguageId uri ops = some d.languageId := by
  induction ops using List.reverseRecOn generalizing d with
  | nil => cases h
  | append_singleton ops op ih =>
    rw [clientRun_concat] at h
    unfold ClientOperation.apply at h
    -- only an operation on `uri` moves its last version and language
    by_cases huri : op.uri = uri
    · rw [← huri, Function.update_self, huri] at h
      cases op with
      | didOpen uri' languageId version text =>
        cases h
        simp_all [lastVersion, lastLanguageId, ClientOperation.uri]
      | didChange uri' version changes =>
        rcases Option.map_eq_some_iff.mp h with ⟨d', hd', rfl⟩
        have := (ih hd').2
        simp_all [lastVersion, lastLanguageId, ClientOperation.uri]
      | didClose uri' => cases h
    · rw [Function.update_of_ne (Ne.symm huri)] at h
      have := ih h
      cases op <;> simp_all [lastVersion, lastLanguageId, ClientOperation.uri]

/-- What an operation does to its document depends on that document alone. -/
lemma get_serve_congr {store store' : DocumentStore} (henc : store.encoding_ = store'.encoding_)
    {op : ClientOperation} (hget : store.get op.uri = store'.get op.uri) :
    (op.serve store).get op.uri = (op.serve store').get op.uri := by
  cases op with
  | didOpen => rw [ClientOperation.serve, ClientOperation.serve, get_open, get_open, hget]
  | didClose => rw [ClientOperation.serve, ClientOperation.serve, get_close, get_close, hget]
  | didChange uri version changes =>
    rw [ClientOperation.serve, ClientOperation.serve, get_applyChange, get_applyChange, hget, henc]

/-- Operations on other URIs can be left out of a history. -/
lemma get_foldl_filter (uri : DocumentUri) (ops : List ClientOperation)
    {store store' : DocumentStore} (henc : store.encoding_ = store'.encoding_)
    (hget : store.get uri = store'.get uri) :
    (ops.foldl ClientOperation.serve store).get uri
      = ((ops.filter fun op => op.uri = uri).foldl ClientOperation.serve store').get uri := by
  induction ops generalizing store store' with
  | nil => exact hget
  | cons op ops ih =>
    rw [List.foldl_cons]
    -- the filter keeps the operations on `uri`, and the others do not touch it
    by_cases huri : op.uri = uri
    · rw [List.filter_cons_of_pos (by simpa using huri), List.foldl_cons]
      apply ih
      · rw [encoding_serve, encoding_serve, henc]
      · rw [← huri] at hget ⊢
        exact get_serve_congr henc hget
    · rw [List.filter_cons_of_neg (by simpa using huri)]
      apply ih
      · rw [encoding_serve, henc]
      · rw [get_serve_ne store (Ne.symm huri), hget]

/-- **The store follows the client.** After any history in bounds a URI is absent from the store
exactly if the client does not have it open; otherwise the store holds the encoding of the
client's text, with the last version and language, and as if no other URI had been used. -/
theorem store_follows_client (e : PositionEncoding) (ops : List ClientOperation)
    (h : HistoryInBounds e (fun _ => none) ops) (uri : DocumentUri) :
    ((serveAll e ops).get uri = none ↔ clientRun e ops uri = none) ∧
      (∀ d, clientRun e ops uri = some d → ∃ item, (serveAll e ops).get uri = some item ∧
        item.uri = uri ∧ item.text = Utf8.encode d.text ∧
        lastVersion uri ops = some item.version ∧
        lastLanguageId uri ops = some item.languageId) ∧
      (serveAll e ops).get uri
        = (serveAll e (ops.filter fun op => op.uri = uri)).get uri := by
  have hinit : Refines e { encoding_ := e } fun _ => none := ⟨rfl, fun _ => rfl⟩
  have hget : (serveAll e ops).get uri = (clientRun e ops uri).map (ClientDocument.item uri) :=
    (refines_foldl ops hinit h).2 uri
  refine ⟨?_, ?_, get_foldl_filter uri ops rfl rfl⟩
  · rw [hget, Option.map_eq_none_iff]
  · intro d hd
    rw [hd] at hget
    have hlast := last_of_clientRun ops hd
    exact ⟨d.item uri, hget, rfl, rfl, hlast.1, hlast.2⟩

/-- A session in UTF-16: two edits around a surrogate pair in one batch, and a second document. -/
def sampleHistory : List ClientOperation :=
  [.didOpen (str "file:///a") (str "txt") 1 ['x', '🙂', 'y', '\n', 'z'],
    .didOpen (str "file:///b") (str "txt") 1 ['w'],
    .didChange (str "file:///a") 2
      [.ranged ⟨⟨0, 1⟩, ⟨0, 3⟩⟩ ['é', 'é'], .ranged ⟨⟨0, 3⟩, ⟨1, 0⟩⟩ []],
    .didClose (str "file:///b")]

theorem store_follows_client_sample :
    ((serveAll .UTF16 sampleHistory).get (str "file:///b") = none ↔
        clientRun .UTF16 sampleHistory (str "file:///b") = none) ∧
      (∃ item, (serveAll .UTF16 sampleHistory).get (str "file:///a") = some item ∧
        item.text = Utf8.encode ['x', 'é', 'é', 'z'] ∧ some 2 = some item.version) := by
  have hbounds : HistoryInBounds .UTF16 (fun _ => none) sampleHistory :=
    ⟨trivial, trivial, ⟨⟨by decide, by decide, by decide⟩, ⟨by decide, by decide, by decide⟩,
      trivial⟩, trivial, trivial⟩
  refine ⟨(store_follows_client .UTF16 sampleHistory hbounds _).1, ?_⟩
  rcases (store_follows_client .UTF16 sampleHistory hbounds (str "file:///a")).2.1
    ⟨['x', 'é', 'é', 'z'], 2, str "txt"⟩ rfl with ⟨item, hget, -, htext, hversion, -⟩
  exact ⟨item, hget, htext, hversion⟩

end CLSP
