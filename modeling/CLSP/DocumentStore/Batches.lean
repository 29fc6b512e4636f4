import CLSP.DocumentStore.Reference
import CLSP.DocumentStore.Theorems

/-!
# Batches of changes

`applyChange` edits the stored text in place. The one exception on its way is `replace`'s, for a
range that starts behind the end of the text, and only the UTF-8 branch of `positionToOffset` comes
to such an offset: the loops of the others stop at the end (`positionToOffset_le_length`). The
length that `replace` gets is the difference of two offsets, which wraps if the range is inverted.
-/

namespace CLSP

open LineText

/-! ## Batches -/

/-- The range of a change starts behind the end of the text, read as UTF-8 positions. -/
def TextDocumentChangeEvent.StartsBehind (e : PositionEncoding) (text : Bytes)
    (change : TextDocumentChangeEvent) : Prop :=
  e = .UTF8 ∧ ∃ range, change.range = some range ∧ text.length < byteOffset text range.start

/-- A change throws exactly if its range starts behind the end of the text. -/
lemma applyEvent_error_iff {e : PositionEncoding} {text : Bytes}
    {change : TextDocumentChangeEvent} :
    (∃ error, applyEvent e text change = .error error) ↔ change.StartsBehind e text := by
  rcases change with ⟨range, new⟩
  cases range with
  | none => simp [TextDocumentChangeEvent.StartsBehind, applyEvent]
  | some range =>
    refine replace_error_iff.trans ?_
    by_cases he : e = .UTF8
    · rw [he, positionToOffset_utf8]
      simp [TextDocumentChangeEvent.StartsBehind]
    · have hle := positionToOffset_le_length he text range.start
      simp [TextDocumentChangeEvent.StartsBehind, he, Nat.not_lt.mpr hle]

/-- Every change of a batch is applied, in order. -/
inductive AppliesAll (e : PositionEncoding) : Bytes → List TextDocumentChangeEvent → Bytes → Prop
  | nil (text : Bytes) : AppliesAll e text [] text
  | cons {text text' text'' : Bytes} {change : TextDocumentChangeEvent}
      {changes : List TextDocumentChangeEvent} (h : applyEvent e text change = .ok text')
      (hrest : AppliesAll e text' changes text'') : AppliesAll e text (change :: changes) text''

lemma applyEvents_of_appliesAll {e : PositionEncoding} {text text' : Bytes}
    {changes : List TextDocumentChangeEvent} (h : AppliesAll e text changes text') :
    applyEvents e text changes = (text', none) := by
  induction h with
  | nil text => rfl
  | cons hchange hrest ih =>
    rw [applyEvents, hchange]
    exact ih

/-- A batch is applied whole or up to the first change that starts behind the end of the text. -/
lemma applyEvents_cases (e : PositionEncoding) (text : Bytes)
    (changes : List TextDocumentChangeEvent) :
    (∃ text', AppliesAll e text changes text') ∨
      ∃ before change after text' error, changes = before ++ change :: after ∧
        AppliesAll e text before text' ∧ change.StartsBehind e text' ∧
        applyEvents e text changes = (text', some error) := by
  induction changes generalizing text with
  | nil => exact Or.inl ⟨text, .nil text⟩
  | cons change changes ih =>
    cases hchange : applyEvent e text change with
    | error error =>
      refine Or.inr ⟨[], change, changes, text, error, rfl, .nil text, ?_, ?_⟩
      · exact applyEvent_error_iff.mp ⟨error, hchange⟩
      · rw [applyEvents, hchange]
    | ok text' =>
      rcases ih text' with hall | hprefix
      · rcases hall with ⟨text'', hall⟩
        exact Or.inl ⟨text'', .cons hchange hall⟩
      · rcases hprefix with ⟨before, stop, after, text'', error, rfl, hbefore, hstop, hevents⟩
        refine Or.inr ⟨change :: before, stop, after, text'', error, rfl,
          .cons hchange hbefore, hstop, ?_⟩
        rw [applyEvents, hchange]
        exact hevents

/-- A batch that has a change that starts behind the end of the text ends there. -/
lemma applyEvents_of_startsBehind {e : PositionEncoding} {text text' : Bytes}
    {before : List TextDocumentChangeEvent} (hbefore : AppliesAll e text before text')
    {change : TextDocumentChangeEvent} (hstop : change.StartsBehind e text')
    (after : List TextDocumentChangeEvent) :
    ∃ error, applyEvents e text (before ++ change :: after) = (text', some error) := by
  induction hbefore with
  | nil text =>
    rcases applyEvent_error_iff.mpr hstop with ⟨error, hchange⟩
    exact ⟨error, by rw [List.nil_append, applyEvents, hchange]⟩
  | cons hfirst hrest ih =>
    rcases ih hstop with ⟨error, hevents⟩
    exact ⟨error, by rw [List.cons_append, applyEvents, hfirst]; exact hevents⟩

/-- What is expected of a batch: all of its changes are applied and the version is set, or the URI
is unknown or an exception comes out, and the document is as it was. -/
def AllOrNothing (store : DocumentStore) (id : VersionedTextDocumentIdentifier)
    (changes : List TextDocumentChangeEvent) : Prop :=
  (∃ item text, store.get id.uri = some item ∧
    AppliesAll store.encoding_ item.text changes text ∧
    (store.applyChange id changes).1.get id.uri
      = some { item with text := text, version := id.version }) ∨
  (store.get id.uri = none ∨ ∃ error, (store.applyChange id changes).2 = .error error) ∧
    (store.applyChange id changes).1.get id.uri = store.get id.uri

/-- A change that throws ends the call. -/
lemma applyChange_error {store : DocumentStore} {id : VersionedTextDocumentIdentifier}
    {item : TextDocumentItem} (hitem : store.get id.uri = some item)
    {changes : List TextDocumentChangeEvent} {text : Bytes} {error : StringError}
    (h : applyEvents store.encoding_ item.text changes = (text, some error)) :
    (store.applyChange id changes).2 = .error error := by
  have hlookup : store.documents_.lookup id.uri = some item := hitem
  simp only [DocumentStore.applyChange, hlookup, h]

/-- **A batch is all or nothing** exactly if none of its changes starts behind the end of a text
that the changes before it have changed. -/
theorem allOrNothing_iff (store : DocumentStore) (id : VersionedTextDocumentIdentifier)
    (changes : List TextDocumentChangeEvent) :
    AllOrNothing store id changes ↔
      ∀ item, store.get id.uri = some item → ∀ before change after text,
        changes = before ++ change :: after → AppliesAll store.encoding_ item.text before text →
        change.StartsBehind store.encoding_ text → text = item.text := by
  have hget := get_applyChange store id changes id.uri
  rw [if_pos rfl] at hget
  constructor
  · intro hatomic item hitem before change after text hchanges hbefore hstop
    rcases applyEvents_of_startsBehind hbefore hstop after with ⟨error, hevents⟩
    rw [← hchanges] at hevents
    rw [hitem, Option.map_some, afterChange, hevents] at hget
    rcases hatomic with hall | ⟨-, hnothing⟩
    · rcases hall with ⟨item', text', hitem', hall, -⟩
      rw [hitem'] at hitem
      cases hitem
      rw [applyEvents_of_appliesAll hall] at hevents
      cases hevents
    · rw [hget, hitem] at hnothing
      exact congrArg TextDocumentItem.text (Option.some.inj hnothing)
  · intro hchanged
    cases hitem : store.get id.uri with
    | none =>
      rw [hitem, Option.map_none] at hget
      exact Or.inr ⟨Or.inl hitem, hget.trans hitem.symm⟩
    | some item =>
      rw [hitem, Option.map_some] at hget
      rcases applyEvents_cases store.encoding_ item.text changes with hall | hprefix
      · rcases hall with ⟨text, hall⟩
        rw [afterChange, applyEvents_of_appliesAll hall] at hget
        exact Or.inl ⟨item, text, hitem, hall, hget⟩
      · rcases hprefix with ⟨before, change, after, text, error, hchanges, hbefore, hstop, hevents⟩
        have htext := hchanged item hitem before change after text hchanges hbefore hstop
        have herror := applyChange_error hitem hevents
        rw [afterChange, hevents, htext] at hget
        exact Or.inr ⟨Or.inr ⟨error, herror⟩, hget.trans hitem.symm⟩

/-- A document of one line, in a store in UTF-8. -/
def helloItem : TextDocumentItem :=
  { uri := str "file:///a", languageId := str "txt", version := 1, text := str "hello" }

def helloStore : DocumentStore :=
  DocumentStore.open { encoding_ := .UTF8 } helloItem

/-- A replacement of the whole text, and an edit behind the end of the new one. -/
def tornBatch : List TextDocumentChangeEvent :=
  [{ range := none, text := str "x" }, { range := some ⟨⟨0, 4⟩, ⟨0, 5⟩⟩, text := str "y" }]

/-- The replacement is kept under the old version when the edit throws. -/
theorem not_allOrNothing :
    (helloStore.applyChange { uri := str "file:///a", version := 2 } tornBatch).1.get
        (str "file:///a") = some { helloItem with text := str "x" } ∧
      ¬ AllOrNothing helloStore { uri := str "file:///a", version := 2 } tornBatch := by
  have hget : (helloStore.applyChange { uri := str "file:///a", version := 2 } tornBatch).1.get
      (str "file:///a") = some { helloItem with text := str "x" } := by decide
  refine ⟨hget, ?_⟩
  intro hatomic
  rw [AllOrNothing, hget] at hatomic
  rcases hatomic with hall | ⟨-, hnothing⟩
  · rcases hall with ⟨item, text, -, -, hitem⟩
    have hversion : (1 : Int32) = 2 := congrArg TextDocumentItem.version (Option.some.inj hitem)
    exact absurd hversion (by decide)
  · exact absurd hnothing (by decide)

/-! ## One ranged change -/

/-- What is expected of a ranged change of a stored document whose positions stand for the offsets
`start` and `stop`: what lies between them, in their order, is replaced. -/
structure ReplacesBetween (store : DocumentStore) (id : VersionedTextDocumentIdentifier)
    (item : TextDocumentItem) (range : Range) (new : Bytes) (start stop : ℕ) : Prop where
  returned : (store.applyChange id [{ range := some range, text := new }]).2
    = .ok (some { item with
        text := item.text.take (min start stop) ++ new ++ item.text.drop (max start stop)
        version := id.version })
  stored : (store.applyChange id [{ range := some range, text := new }]).1.get id.uri
    = some { item with
        text := item.text.take (min start stop) ++ new ++ item.text.drop (max start stop)
        version := id.version }
  /-- The length passed to `replace` is the difference of the offsets. -/
  noWrap : (sizeSub (positionToOffset store.encoding_ item.text range.end)
      (positionToOffset store.encoding_ item.text range.start) : ℤ) = stop - start

/-- The change of a document with the text `cs`. -/
def ReplacesRange (store : DocumentStore) (id : VersionedTextDocumentIdentifier)
    (item : TextDocumentItem) (cs : List Char) (range : Range) (new : Bytes) : Prop :=
  ∃ start stop, OffsetOf store.encoding_ cs range.start start ∧
    OffsetOf store.encoding_ cs range.end stop ∧
    ReplacesBetween store id item range new start stop

/-- The positions of a range are in order, or stand for the same place. In UTF-8, where a character
may count beyond its line, it is the places that are in order, and the first is in the text. -/
def Range.InOrder (e : PositionEncoding) (cs : List Char) (range : Range) : Prop :=
  match e with
  | .UTF8 => byteOffset (Utf8.encode cs) range.start ≤ byteOffset (Utf8.encode cs) range.end ∧
      byteOffset (Utf8.encode cs) range.start ≤ (Utf8.encode cs).length
  | e => range.start.Le range.end ∨
      ∃ offset, OffsetOf e cs range.start offset ∧ OffsetOf e cs range.end offset

lemma sizeSub_eq_sub_iff {a b : ℕ} : (sizeSub a b : ℤ) = a - b ↔ b ≤ a := by
  unfold sizeSub
  split <;> omega

lemma Position.le_total (a b : Position) : a.Le b ∨ b.Le a := by
  unfold Position.Le
  by_cases hline : a.line = b.line
  · exact (Std.le_total (a := a.character) (b := b.character)).imp
      (fun h => Or.inr ⟨hline, h⟩) fun h => Or.inr ⟨hline.symm, h⟩
  · exact (UInt32.lt_or_lt_of_ne hline).imp Or.inl Or.inl

/-- A range is in order exactly if its places are, the first one in the text. -/
lemma Range.inOrder_iff {e : PositionEncoding} {cs : List Char} {range : Range} :
    range.InOrder e cs ↔
      positionToOffset e (Utf8.encode cs) range.start
          ≤ positionToOffset e (Utf8.encode cs) range.end ∧
        positionToOffset e (Utf8.encode cs) range.start ≤ (Utf8.encode cs).length := by
  by_cases he : e = .UTF8
  · subst he
    rw [positionToOffset_utf8, positionToOffset_utf8]
    rfl
  · have hiff : range.InOrder e cs ↔ range.start.Le range.end ∨
        ∃ offset, OffsetOf e cs range.start offset ∧ OffsetOf e cs range.end offset := by
      cases e with
      | UTF8 => exact absurd rfl he
      | UTF16 | UTF32 => exact Iff.rfl
    rw [hiff, and_iff_left (positionToOffset_le_length he _ _)]
    constructor
    · rintro (hle | ⟨offset, hstart, hstop⟩)
      · exact positionToOffset_mono he cs hle
      · rw [← offsetOf_iff.mp hstart, ← offsetOf_iff.mp hstop]
    · intro hle
      rcases range.start.le_total range.end with hordered | hinverted
      · exact Or.inl hordered
      · -- the places of an inverted range are in the other order
        have hge := positionToOffset_mono he cs hinverted
        refine Or.inr ⟨_, offsetOf_iff.mpr rfl, offsetOf_iff.mpr ?_⟩
        exact Nat.le_antisymm hle hge

/-- **A change touches only its range** exactly if the positions of the range are in order. -/
theorem replacesRange_iff {store : DocumentStore} {id : VersionedTextDocumentIdentifier}
    {item : TextDocumentItem} (hitem : store.get id.uri = some item) {cs : List Char}
    (htext : item.text = Utf8.encode cs) (range : Range) (new : Bytes) :
    ReplacesRange store id item cs range new ↔ range.InOrder store.encoding_ cs := by
  have hlookup : store.documents_.lookup id.uri = some item := hitem
  rw [Range.inOrder_iff, ← htext]
  constructor
  · rintro ⟨start, stop, hstart, hstop, hchange⟩
    have hwrap := hchange.noWrap
    rw [offsetOf_iff, ← htext] at hstart hstop
    rw [hstart, hstop] at hwrap
    refine ⟨sizeSub_eq_sub_iff.mp hwrap, ?_⟩
    -- behind the end of the text `replace` throws
    by_contra hbehind
    rcases replace_error_iff.mpr (Nat.lt_of_not_le hbehind) with ⟨error, herror⟩
    have hreturned := hchange.returned
    simp only [DocumentStore.applyChange, hlookup, applyEvents, applyEvent] at hreturned
    rw [herror] at hreturned
    cases hreturned
  · rintro ⟨hle, hin⟩
    refine ⟨positionToOffset store.encoding_ item.text range.start,
      positionToOffset store.encoding_ item.text range.end, offsetOf_iff.mpr (htext ▸ rfl),
      offsetOf_iff.mpr (htext ▸ rfl), ?_⟩
    have hevent : applyEvent store.encoding_ item.text { range := some range, text := new }
        = .ok (item.text.take (positionToOffset store.encoding_ item.text range.start) ++ new ++
            item.text.drop (positionToOffset store.encoding_ item.text range.end)) :=
      replace_of_le hle hin new
    have hevents : applyEvents store.encoding_ item.text [{ range := some range, text := new }]
        = (item.text.take (positionToOffset store.encoding_ item.text range.start) ++ new ++
            item.text.drop (positionToOffset store.encoding_ item.text range.end), none) := by
      rw [applyEvents, hevent]
      rfl
    refine ⟨?_, ?_, sizeSub_eq_sub_iff.mpr hle⟩
    · rw [Nat.min_eq_left hle, Nat.max_eq_right hle]
      simp only [DocumentStore.applyChange, hlookup, hevents]
    · rw [Nat.min_eq_left hle, Nat.max_eq_right hle, get_applyChange, if_pos rfl, hitem,
        Option.map_some, afterChange, hevents]

/-- A deletion inside the document. -/
theorem replacesRange_sample :
    ReplacesRange helloStore { uri := str "file:///a", version := 2 } helloItem
      ['h', 'e', 'l', 'l', 'o'] ⟨⟨0, 1⟩, ⟨0, 3⟩⟩ [] :=
  (replacesRange_iff (by decide) (by decide) ⟨⟨0, 1⟩, ⟨0, 3⟩⟩ []).mpr ⟨by decide, by decide⟩

/-- Of an inverted range everything from its start on is deleted. -/
theorem not_replacesRange :
    (helloStore.applyChange { uri := str "file:///a", version := 2 }
        [{ range := some ⟨⟨0, 3⟩, ⟨0, 1⟩⟩, text := [] }]).1.get (str "file:///a")
      = some { helloItem with version := 2, text := str "hel" } ∧
    helloItem.text = Utf8.encode ['h', 'e', 'l', 'l', 'o'] ∧
    ¬ ReplacesRange helloStore { uri := str "file:///a", version := 2 } helloItem
      ['h', 'e', 'l', 'l', 'o'] ⟨⟨0, 3⟩, ⟨0, 1⟩⟩ [] := by
  have hget : (helloStore.applyChange { uri := str "file:///a", version := 2 }
        [{ range := some ⟨⟨0, 3⟩, ⟨0, 1⟩⟩, text := [] }]).1.get (str "file:///a")
      = some { helloItem with version := 2, text := str "hel" } := by decide
  refine ⟨hget, by decide, ?_⟩
  rintro ⟨start, stop, rfl, rfl, hchange⟩
  have hstored := hchange.stored
  rw [hget] at hstored
  exact absurd hstored (by decide)

end CLSP
