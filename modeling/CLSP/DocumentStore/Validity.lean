import CLSP.DocumentStore.Theorems

/-!
# Stored texts are valid UTF-8

In a valid text the scans of `positionToOffset` only ever stop between two scalars, so in UTF-16
and UTF-32 every position is converted to a boundary of the text, and a splice between two
boundaries is valid. In UTF-8 the offset is whatever the position says (`byteOffset`), and the text
stays valid as long as the ends of the replaced ranges are not inside a sequence.
-/

namespace CLSP

open LineText

/-! ## Where the scans stop -/

/-- The end of some of its scalars is a boundary of a text. -/
lemma boundary_encode_take (cs : List Char) (i : ℕ) :
    Utf8.Boundary (Utf8.encode cs) (Utf8.encode (cs.take i)).length :=
  ⟨⟨cs.take i, (take_encode cs i).symm⟩, ⟨cs.drop i, (drop_encode cs i).symm⟩⟩

/-- Outside of UTF-8 every position is converted to a boundary. -/
lemma boundary_positionToOffset {e : PositionEncoding} (he : e ≠ .UTF8) {text : Bytes}
    (h : Utf8.Valid text) (pos : Position) :
    Utf8.Boundary text (positionToOffset e text pos) := by
  rcases h with ⟨cs, rfl⟩
  rw [positionToOffset_eq he]
  exact boundary_encode_take cs _

/-! ## Changes -/

/-- A splice between boundaries is valid. When the end lies before the start, the length wraps
and everything from the start on is replaced. -/
lemma valid_replace {text text' s : Bytes} {start stop : ℕ} (hs : Utf8.Valid s)
    (hsize : text.length < 2 ^ 64) (hstart : Utf8.Boundary text start)
    (hstop : start ≤ stop → Utf8.Boundary text stop)
    (h : replace text start (sizeSub stop start) s = .ok text') : Utf8.Valid text' := by
  unfold replace at h
  split at h
  · cases h
  · next hin =>
    cases h
    have hend : Utf8.Valid
        (text.drop (start + min (sizeSub stop start) (text.length - start))) := by
      by_cases hle : start ≤ stop
      · have hcut : start + min (sizeSub stop start) (text.length - start)
            = min stop text.length := by
          rw [sizeSub_of_le hle]
          omega
        rw [hcut]
        exact (hstop hle).min_length.2
      · have hcut : start + min (sizeSub stop start) (text.length - start) = text.length := by
          unfold sizeSub
          rw [if_neg hle]
          omega
        rw [hcut, List.drop_length]
        exact Utf8.valid_nil
    exact (hstart.1.append hs).append hend

/-- The ends of the range of a change, read as UTF-8 positions, are not inside a sequence. An
end before the start is not looked at. -/
def TextDocumentChangeEvent.OnBoundaries (text : Bytes) (change : TextDocumentChangeEvent) :
    Prop :=
  ∀ range, change.range = some range → Utf8.Boundary text (byteOffset text range.start) ∧
    (byteOffset text range.start ≤ byteOffset text range.end →
      Utf8.Boundary text (byteOffset text range.end))

/-- One change of a valid text. -/
lemma valid_applyEvent {e : PositionEncoding} {text text' : Bytes}
    {change : TextDocumentChangeEvent} (htext : Utf8.Valid text) (hchange : Utf8.Valid change.text)
    (hsize : text.length < 2 ^ 64) (hrange : e = .UTF8 → change.OnBoundaries text)
    (h : applyEvent e text change = .ok text') : Utf8.Valid text' := by
  unfold applyEvent at h
  split at h
  · next range hsome =>
    apply valid_replace hchange hsize ?_ ?_ h
    · by_cases he : e = .UTF8
      · rw [he, positionToOffset_utf8]
        exact (hrange he range hsome).1
      · exact boundary_positionToOffset he htext _
    · intro hle
      by_cases he : e = .UTF8
      · rw [he, positionToOffset_utf8, positionToOffset_utf8] at hle
        rw [he, positionToOffset_utf8]
        exact (hrange he range hsome).2 hle
      · exact boundary_positionToOffset he htext _
  · cases h
    exact hchange

/-- The changes of a batch meet the condition, each, on the text left by the ones before. -/
def AllOnBoundaries (e : PositionEncoding) : Bytes → List TextDocumentChangeEvent → Prop
  | _, [] => True
  | text, change :: changes =>
    (text.length < 2 ^ 64 ∧ (e = .UTF8 → change.OnBoundaries text)) ∧
      ∀ text', applyEvent e text change = .ok text' → AllOnBoundaries e text' changes

/-- A batch, whether or not it ends in an exception. -/
lemma valid_applyEvents {e : PositionEncoding} (changes : List TextDocumentChangeEvent)
    {text : Bytes} (htext : Utf8.Valid text) (hchanges : ∀ change ∈ changes, Utf8.Valid change.text)
    (hranges : AllOnBoundaries e text changes) : Utf8.Valid (applyEvents e text changes).1 := by
  induction changes generalizing text with
  | nil => exact htext
  | cons change changes ih =>
    rcases hranges with ⟨⟨hsize, hrange⟩, hrest⟩
    rw [applyEvents]
    split
    · next text' hok =>
      have hvalid := valid_applyEvent htext (hchanges change (by simp)) hsize hrange hok
      exact ih hvalid (fun c hc => hchanges c (by simp [hc])) (hrest text' hok)
    · exact htext

/-! ## Histories -/

/-- A call of a member of the store that changes its texts. -/
inductive StoreOperation
  | «open» (item : TextDocumentItem)
  | applyChange (id : VersionedTextDocumentIdentifier) (changes : List TextDocumentChangeEvent)
  | close (uri : DocumentUri)

namespace StoreOperation

/-- The store after the call, which may have ended in an exception. -/
def run (store : DocumentStore) : StoreOperation → DocumentStore
  | «open» item => store.open item
  | applyChange id changes => (store.applyChange id changes).1
  | close uri => (store.close uri).1

/-- The texts passed in are valid. -/
def TextsValid : StoreOperation → Prop
  | «open» item => Utf8.Valid item.text
  | applyChange _ changes => ∀ change ∈ changes, Utf8.Valid change.text
  | close _ => True

/-- The changes of a stored document meet the condition. -/
def OnBoundaries (store : DocumentStore) : StoreOperation → Prop
  | applyChange id changes =>
    ∀ item, store.get id.uri = some item → AllOnBoundaries store.encoding_ item.text changes
  | _ => True

end StoreOperation

/-- The operations of a history meet the condition, each, on the store it finds. -/
def HistoryOnBoundaries : DocumentStore → List StoreOperation → Prop
  | _, [] => True
  | store, op :: ops => op.OnBoundaries store ∧ HistoryOnBoundaries (op.run store) ops

namespace DocumentStore

/-- Every text held is valid. -/
def TextsValid (store : DocumentStore) : Prop :=
  ∀ uri item, store.get uri = some item → Utf8.Valid item.text

/-- Step lemma: an operation keeps the texts valid. -/
lemma TextsValid.run {store : DocumentStore} {op : StoreOperation} (h : store.TextsValid)
    (htexts : op.TextsValid) (hop : op.OnBoundaries store) : (op.run store).TextsValid := by
  intro uri item hget
  cases op with
  | «open» new =>
    rw [StoreOperation.run, get_open] at hget
    split at hget
    · cases hget
      exact htexts
    · exact h uri item hget
  | close uri' =>
    rw [StoreOperation.run, get_close] at hget
    split at hget
    · cases hget
    · exact h uri item hget
  | applyChange id changes =>
    rw [StoreOperation.run, get_applyChange] at hget
    split at hget
    · next huri =>
      rcases Option.map_eq_some_iff.mp hget with ⟨old, hold, rfl⟩
      have hold' : store.get id.uri = some old := by rw [← huri, hold]
      have hvalid := valid_applyEvents changes (h uri old hold) htexts (hop old hold')
      -- the text is that of the batch, whichever way it ended
      rw [(afterChange_eq _ _ _ _).2.2]
      exact hvalid
    · exact h uri item hget

/-- Run lemma: so does every beginning of a history. -/
lemma TextsValid.foldl (ops : List StoreOperation) {store : DocumentStore} (h : store.TextsValid)
    (htexts : ∀ op ∈ ops, op.TextsValid) (hops : HistoryOnBoundaries store ops) (n : ℕ) :
    ((ops.take n).foldl StoreOperation.run store).TextsValid := by
  induction ops generalizing store n with
  | nil =>
    rw [List.take_nil]
    exact h
  | cons op ops ih =>
    cases n with
    | zero => exact h
    | succ n =>
      rw [List.take_succ_cons, List.foldl_cons]
      exact ih (h.run (htexts op (by simp)) hops.1) (fun o ho => htexts o (by simp [ho])) hops.2 n

end DocumentStore

/-- **Stored texts are valid UTF-8** after every operation of a history that passes valid texts
in, whose UTF-8 ranges do not start or end inside a sequence. -/
theorem stored_texts_valid (e : PositionEncoding) (ops : List StoreOperation)
    (htexts : ∀ op ∈ ops, op.TextsValid) (hops : HistoryOnBoundaries { encoding_ := e } ops)
    (n : ℕ) : ((ops.take n).foldl StoreOperation.run { encoding_ := e }).TextsValid :=
  DocumentStore.TextsValid.foldl ops (fun _ _ hget => by cases hget) htexts hops n

/-- A document in UTF-8, edited from the end of one line to the start of the next. -/
def boundaryHistory : List StoreOperation :=
  [.open { uri := str "file:///a", languageId := str "txt", version := 1,
           text := Utf8.encode ['é', '\n', 'z'] },
    .applyChange { uri := str "file:///a", version := 2 }
      [{ range := some ⟨⟨0, 2⟩, ⟨1, 0⟩⟩, text := Utf8.encode ['é'] }],
    .close (str "file:///b")]

theorem stored_texts_valid_sample :
    ((boundaryHistory.take 2).foldl StoreOperation.run { encoding_ := .UTF8 }).TextsValid := by
  apply stored_texts_valid .UTF8 boundaryHistory
  · intro op hop
    simp only [boundaryHistory, List.mem_cons, List.not_mem_nil, or_false] at hop
    rcases hop with rfl | rfl | rfl
    · exact ⟨_, rfl⟩
    · intro change hchange
      rw [List.mem_singleton] at hchange
      rw [hchange]
      exact ⟨_, rfl⟩
    · trivial
  · refine ⟨trivial, ?_, trivial, trivial⟩
    intro item hitem
    cases hitem
    refine ⟨⟨by decide, fun _ => ?_⟩, fun _ _ => trivial⟩
    intro range hrange
    cases hrange
    refine ⟨?_, fun _ => ?_⟩
    · exact ⟨⟨['é'], rfl⟩, ⟨['\n', 'z'], rfl⟩⟩
    · exact ⟨⟨['é', '\n'], rfl⟩, ⟨['z'], rfl⟩⟩

/-- In UTF-8 an insertion at the second byte of a letter tears it. -/
theorem stored_text_torn :
    ∃ ops : List StoreOperation, (∀ op ∈ ops, op.TextsValid) ∧
      ¬ (ops.foldl StoreOperation.run { encoding_ := .UTF8 }).TextsValid := by
  refine ⟨[.open { uri := str "file:///a", languageId := str "txt", version := 1,
                   text := Utf8.encode ['é'] },
    .applyChange { uri := str "file:///a", version := 2 }
      [{ range := some ⟨⟨0, 1⟩, ⟨0, 1⟩⟩, text := str "x" }]], ?_, ?_⟩
  · intro op hop
    simp only [List.mem_cons, List.not_mem_nil, or_false] at hop
    rcases hop with rfl | rfl
    · exact ⟨_, rfl⟩
    · intro change hchange
      rw [List.mem_singleton] at hchange
      rw [hchange]
      exact valid_str _
  · intro hvalid
    have htorn : Utf8.Valid [0xC3, 0x78, 0xA9] := hvalid (str "file:///a") _ rfl
    exact Utf8.not_valid_of_cut (n := 0) rfl (by decide) _ htorn

end CLSP
