import CLSP.Protocol.Sync
import CLSP.Rpc.Codec
import CLSP.Rpc.Fields

/-!
# Positions on the wire

`Position` and `Range` of `protocol/Basic.hpp` are written and read back unchanged. What is read is
cast, so a decoded `DidChangeParams` has the numbers of its text only where these fit the members
they are read into (`didChange_exact_iff`).
-/

namespace CLSP

open Json (find? readAt readOpt ofFields readAt_ofFields)

/-! ## Numbers -/

/-- The number of a JSON number. -/
def Json.number? : Json → Option ℚ
  | .integer n => some n
  | .float q => some q
  | _ => none

/-- A JSON number without a fraction between two bounds. -/
def Json.Fits (lower upper : ℤ) (j : Json) : Prop :=
  ∃ n : ℤ, j.number? = some (n : ℚ) ∧ lower ≤ n ∧ n < upper

def Json.FitsInt32 (j : Json) : Prop :=
  j.Fits (-2147483648) 2147483648

def Json.FitsUInt32 (j : Json) : Prop :=
  j.Fits 0 4294967296

/-- The cast to `uint32_t` leaves the numbers of 32 bits alone. -/
lemma toNat_ofInt_of_lt {n : ℤ} (hlower : 0 ≤ n) (hupper : n < 4294967296) :
    ((UInt32.ofInt n).toNat : ℤ) = n := by
  have hmod : n % 2 ^ 32 = n := Int.emod_eq_of_lt hlower hupper
  have hlt : n.toNat < 2 ^ 32 := by omega
  rw [UInt32.ofInt, hmod, UInt32.toNat_ofNat_of_lt' hlt, Int.toNat_of_nonneg hlower]

@[simp] lemma getUInt32_integer (n : UInt32) : (Json.integer n.toNat).getUInt32 = .ok n := by
  have hcast : ((UInt32.ofInt n.toNat).toNat : ℤ) = n.toNat :=
    toNat_ofInt_of_lt (Int.natCast_nonneg _) (by exact_mod_cast n.toNat_lt)
  show Except.ok (UInt32.ofInt n.toNat) = _
  rw [UInt32.toNat_inj.mp (Int.natCast_inj.mp hcast)]

/-- A JSON number without a fraction is cast as it is. -/
lemma getNumber_of_number? {j : Json} {n : ℤ} (h : j.number? = some (n : ℚ)) :
    j.getNumber = .ok n := by
  cases j with
  | integer m =>
    have hm : (m : ℚ) = n := Option.some.inj h
    rw [Json.getNumber, Rat.intCast_inj.mp hm]
  | float q =>
    have hq : q = n := Option.some.inj h
    rw [Json.getNumber, hq, Rat.num_intCast, Rat.den_intCast]
    simp
  | _ => exact absurd h (by simp [Json.number?])

/-- A member of type `int32_t` has the number it was read from exactly when that fits. -/
lemma number?_eq_toInt_iff {j : Json} {n : Int32} (h : j.getInt32 = .ok n) :
    j.number? = some (n.toInt : ℚ) ↔ j.FitsInt32 := by
  constructor
  · intro hnumber
    exact ⟨n.toInt, hnumber, n.le_toInt, n.toInt_lt⟩
  · rintro ⟨m, hnumber, hbounds⟩
    rw [Json.getInt32, getNumber_of_number? hnumber] at h
    have hn : Int32.ofInt m = n := Except.ok.inj h
    rw [hnumber, ← hn, (toInt_ofInt_eq_iff m).mpr hbounds]

/-- The same for `uint32_t`. -/
lemma number?_eq_toNat_iff {j : Json} {n : UInt32} (h : j.getUInt32 = .ok n) :
    j.number? = some ((n.toNat : ℤ) : ℚ) ↔ j.FitsUInt32 := by
  constructor
  · intro hnumber
    exact ⟨n.toNat, hnumber, Int.natCast_nonneg _, by exact_mod_cast n.toNat_lt⟩
  · rintro ⟨m, hnumber, hlower, hupper⟩
    rw [Json.getUInt32, getNumber_of_number? hnumber] at h
    have hn : UInt32.ofInt m = n := Except.ok.inj h
    rw [hnumber, ← hn, toNat_ofInt_of_lt hlower hupper]

/-! ## `Position` and `Range` -/

def Position.fields (p : Position) : List (Bytes × Option Json) :=
  [(str "line", some (.integer p.line.toNat)),
    (str "character", some (.integer p.character.toNat))]

def Position.toJson (p : Position) : Json :=
  ofFields p.fields

def Range.fields (r : Range) : List (Bytes × Option Json) :=
  [(str "start", some r.start.toJson), (str "end", some r.end.toJson)]

def Range.toJson (r : Range) : Json :=
  ofFields r.fields

/-- `Position.fromJson` by the members it reads. -/
lemma Position.fromJson_eq (j : Json) : Position.fromJson j = do
    let line ← readAt Json.getUInt32 j (str "line")
    let character ← readAt Json.getUInt32 j (str "character")
    return { line, character } := by
  simp only [Position.fromJson, readAt, bind_assoc]

lemma Range.fromJson_eq (j : Json) : Range.fromJson j = do
    let start ← readAt Position.fromJson j (str "start")
    let stop ← readAt Position.fromJson j (str "end")
    return { start, «end» := stop } := by
  simp only [Range.fromJson, readAt, bind_assoc]

lemma Position.nodup_keys (p : Position) : (p.fields.map Prod.fst).Nodup :=
  have hkeys : [str "line", str "character"].Nodup := by decide
  hkeys

lemma Range.nodup_keys (r : Range) : (r.fields.map Prod.fst).Nodup :=
  have hkeys : [str "start", str "end"].Nodup := by decide
  hkeys

@[simp] lemma Position.fromJson_toJson (p : Position) : Position.fromJson p.toJson = .ok p := by
  have hline : readAt Json.getUInt32 p.toJson (str "line") = .ok p.line :=
    readAt_ofFields (i := 0) p.nodup_keys rfl (getUInt32_integer p.line)
  have hcharacter : readAt Json.getUInt32 p.toJson (str "character") = .ok p.character :=
    readAt_ofFields (i := 1) p.nodup_keys rfl (getUInt32_integer p.character)
  rw [Position.fromJson_eq, hline, hcharacter]
  rfl

@[simp] lemma Range.fromJson_toJson (r : Range) : Range.fromJson r.toJson = .ok r := by
  have hstart : readAt Position.fromJson r.toJson (str "start") = .ok r.start :=
    readAt_ofFields (i := 0) r.nodup_keys rfl r.start.fromJson_toJson
  have hend : readAt Position.fromJson r.toJson (str "end") = .ok r.end :=
    readAt_ofFields (i := 1) r.nodup_keys rfl r.end.fromJson_toJson
  rw [Range.fromJson_eq, hstart, hend]
  rfl

/-! ## The numbers of a change -/

/-- A member with a property. -/
def Json.HasAt (j : Json) (key : Bytes) (P : Json → Prop) : Prop :=
  ∃ value, j.find? key = some value ∧ P value

/-- A position has the numbers it was read from. -/
def Position.ReadFrom (p : Position) (j : Json) : Prop :=
  j.HasAt (str "line") (fun v => v.number? = some ((p.line.toNat : ℤ) : ℚ)) ∧
    j.HasAt (str "character") fun v => v.number? = some ((p.character.toNat : ℤ) : ℚ)

def Range.ReadFrom (r : Range) (j : Json) : Prop :=
  j.HasAt (str "start") r.start.ReadFrom ∧ j.HasAt (str "end") r.end.ReadFrom

def TextDocumentChangeEvent.ReadFrom (e : TextDocumentChangeEvent) (j : Json) : Prop :=
  ∀ r ∈ e.range, ∃ v, Json.member? j (str "range") = some v ∧ r.ReadFrom v

/-- Every line, character and version of a decoded `DidChangeParams` equals the JSON number it was
read from. -/
def DidChangeParams.ReadFrom (p : DidChangeParams) (j : Json) : Prop :=
  j.HasAt (str "textDocument") (fun document =>
      document.HasAt (str "version") fun v =>
        v.number? = some ((p.textDocument.version.toInt : ℤ) : ℚ)) ∧
    j.HasAt (str "contentChanges") fun changes => ∃ elems, changes = .array elems ∧
      List.Forall₂ (fun elem e => TextDocumentChangeEvent.ReadFrom e elem) elems p.contentChanges

/-! The same of the text alone: the numbers are in the ranges of the members they are read into. -/

def Position.NumbersFit (j : Json) : Prop :=
  j.HasAt (str "line") Json.FitsUInt32 ∧ j.HasAt (str "character") Json.FitsUInt32

def Range.NumbersFit (j : Json) : Prop :=
  j.HasAt (str "start") Position.NumbersFit ∧ j.HasAt (str "end") Position.NumbersFit

def TextDocumentChangeEvent.NumbersFit (j : Json) : Prop :=
  ∀ v, Json.member? j (str "range") = some v → Range.NumbersFit v

def DidChangeParams.NumbersFit (j : Json) : Prop :=
  j.HasAt (str "textDocument") (fun document => document.HasAt (str "version") Json.FitsInt32) ∧
    j.HasAt (str "contentChanges") fun changes => ∃ elems, changes = .array elems ∧
      ∀ elem ∈ elems, TextDocumentChangeEvent.NumbersFit elem

section Exact

variable {j : Json} {key : Bytes}

lemma hasAt_iff {P : Json → Prop} {value : Json} (h : j.find? key = some value) :
    j.HasAt key P ↔ P value := by
  constructor
  · rintro ⟨value', h', hP⟩
    rw [Option.some.inj (h.symm.trans h')]
    exact hP
  · exact fun hP => ⟨value, h, hP⟩

lemma hasAt_congr {P Q : Json → Prop} {value : Json} (h : j.find? key = some value)
    (hPQ : P value ↔ Q value) : j.HasAt key P ↔ j.HasAt key Q := by
  rw [hasAt_iff h, hasAt_iff h, hPQ]

lemma Position.readFrom_iff {p : Position} (h : Position.fromJson j = .ok p) :
    p.ReadFrom j ↔ Position.NumbersFit j := by
  rw [Position.fromJson_eq] at h
  rcases Json.bind_eq_ok.mp h with ⟨line, hline, h⟩
  rcases Json.bind_eq_ok.mp h with ⟨character, hcharacter, h⟩
  obtain rfl := Except.ok.inj h
  rcases Json.readAt_eq_ok.mp hline with ⟨_, hline, hgetLine⟩
  rcases Json.readAt_eq_ok.mp hcharacter with ⟨_, hcharacter, hgetCharacter⟩
  exact and_congr (hasAt_congr hline (number?_eq_toNat_iff hgetLine))
    (hasAt_congr hcharacter (number?_eq_toNat_iff hgetCharacter))

lemma Range.readFrom_iff {r : Range} (h : Range.fromJson j = .ok r) :
    r.ReadFrom j ↔ Range.NumbersFit j := by
  rw [Range.fromJson_eq] at h
  rcases Json.bind_eq_ok.mp h with ⟨start, hstart, h⟩
  rcases Json.bind_eq_ok.mp h with ⟨stop, hstop, h⟩
  obtain rfl := Except.ok.inj h
  rcases Json.readAt_eq_ok.mp hstart with ⟨_, hstart, hstart'⟩
  rcases Json.readAt_eq_ok.mp hstop with ⟨_, hstop, hstop'⟩
  exact and_congr (hasAt_congr hstart (Position.readFrom_iff hstart'))
    (hasAt_congr hstop (Position.readFrom_iff hstop'))

lemma TextDocumentChangeEvent.fromJson_eq (j : Json) : TextDocumentChangeEvent.fromJson j = do
    let range ← readOpt Range.fromJson j (str "range")
    let text ← readAt Json.getString j (str "text")
    return { range, text } := by
  unfold TextDocumentChangeEvent.fromJson readOpt
  cases Json.member? j (str "range") <;> simp only [readAt, bind_assoc]

lemma TextDocumentChangeEvent.readFrom_iff {e : TextDocumentChangeEvent}
    (h : TextDocumentChangeEvent.fromJson j = .ok e) :
    e.ReadFrom j ↔ TextDocumentChangeEvent.NumbersFit j := by
  rw [TextDocumentChangeEvent.fromJson_eq] at h
  rcases Json.bind_eq_ok.mp h with ⟨range, hrange, h⟩
  rcases Json.bind_eq_ok.mp h with ⟨text, -, h⟩
  obtain rfl := Except.ok.inj h
  rcases Json.readOpt_eq_ok hrange with ⟨hnone, rfl⟩ | ⟨v, r, hsome, hget, rfl⟩
  · simp [TextDocumentChangeEvent.ReadFrom, TextDocumentChangeEvent.NumbersFit, hnone]
  · simp [TextDocumentChangeEvent.ReadFrom, TextDocumentChangeEvent.NumbersFit, hsome,
      Range.readFrom_iff hget]

/-- Every element is read from its number when the elements fit. -/
lemma forall₂_readFrom_iff {elems : List Json} {changes : List TextDocumentChangeEvent}
    (h : List.Forall₂ (fun elem e => TextDocumentChangeEvent.fromJson elem = .ok e) elems changes) :
    List.Forall₂ (fun elem e => TextDocumentChangeEvent.ReadFrom e elem) elems changes ↔
      ∀ elem ∈ elems, TextDocumentChangeEvent.NumbersFit elem := by
  induction h with
  | nil => simp
  | cons hread _ ih =>
    rw [List.forall₂_cons, List.forall_mem_cons, ih, TextDocumentChangeEvent.readFrom_iff hread]

lemma DidChangeParams.fromJson_eq (j : Json) : DidChangeParams.fromJson j = do
    let textDocument ← readAt VersionedTextDocumentIdentifier.fromJson j (str "textDocument")
    let contentChanges ← readAt (Json.getList TextDocumentChangeEvent.fromJson) j
      (str "contentChanges")
    return { textDocument, contentChanges } := by
  simp only [DidChangeParams.fromJson, readAt, Json.getList, bind_assoc]

lemma VersionedTextDocumentIdentifier.fromJson_eq (j : Json) :
    VersionedTextDocumentIdentifier.fromJson j = do
      let uri ← readAt Json.getString j (str "uri")
      let version ← readAt Json.getInt32 j (str "version")
      return { uri, version } := by
  simp only [VersionedTextDocumentIdentifier.fromJson, readAt, bind_assoc]

/-- A `DidChangeParams` that is decoded has the numbers of its text exactly when these fit the
members they are read into. -/
theorem didChange_exact_iff (j : Json) (p : DidChangeParams)
    (h : DidChangeParams.fromJson j = .ok p) : p.ReadFrom j ↔ DidChangeParams.NumbersFit j := by
  rw [DidChangeParams.fromJson_eq] at h
  rcases Json.bind_eq_ok.mp h with ⟨document, hdocument, h⟩
  rcases Json.bind_eq_ok.mp h with ⟨changes, hchanges, h⟩
  obtain rfl := Except.ok.inj h
  rcases Json.readAt_eq_ok.mp hdocument with ⟨documentJson, hdocument, hget⟩
  rcases Json.readAt_eq_ok.mp hchanges with ⟨changesJson, hchanges, hlist⟩
  refine and_congr (hasAt_congr hdocument ?_) (hasAt_congr hchanges ?_)
  · -- the version
    rw [VersionedTextDocumentIdentifier.fromJson_eq] at hget
    rcases Json.bind_eq_ok.mp hget with ⟨uri, -, hget⟩
    rcases Json.bind_eq_ok.mp hget with ⟨version, hversion, hget⟩
    obtain rfl := Except.ok.inj hget
    rcases Json.readAt_eq_ok.mp hversion with ⟨_, hversion, hgetVersion⟩
    exact hasAt_congr hversion (number?_eq_toInt_iff hgetVersion)
  · -- the ranges of the changes
    rcases Json.getList_eq_ok hlist with ⟨elems, rfl, hforall⟩
    simp [forall₂_readFrom_iff hforall]

namespace Session

/-- A change of the character at a position of a document. -/
def changeParams (version line : ℤ) : Json :=
  .ofMembers [
    (str "textDocument", .ofMembers [(str "uri", .string (str "file:///a")),
      (str "version", .integer version)]),
    (str "contentChanges", .array [.ofMembers [
      (str "range", .ofMembers [
        (str "start", .ofMembers [(str "line", .integer line), (str "character", .integer 0)]),
        (str "end", .ofMembers [(str "line", .integer line), (str "character", .integer 1)])]),
      (str "text", .string (str "x"))]])]

/-- What it is decoded to. -/
def change (version : Int32) (line : UInt32) : DidChangeParams where
  textDocument := { uri := str "file:///a", version }
  contentChanges :=
    [{ range := some { start := ⟨line, 0⟩, «end» := ⟨line, 1⟩ }, text := str "x" }]

end Session

/-- A change on line 7. -/
theorem didChange_exact_sample :
    DidChangeParams.fromJson (Session.changeParams 2 7) = .ok (Session.change 2 7) ∧
      (Session.change 2 7).ReadFrom (Session.changeParams 2 7) := by
  refine ⟨rfl, (didChange_exact_iff (Session.changeParams 2 7) (Session.change 2 7) rfl).mpr ?_⟩
  refine ⟨⟨_, rfl, _, rfl, 2, rfl, by decide, by decide⟩, _, rfl, _, rfl, ?_⟩
  rw [List.forall_mem_singleton]
  intro v hv
  obtain rfl := Option.some.inj hv
  have hline : (Json.integer 7).FitsUInt32 := ⟨7, rfl, by decide, by decide⟩
  have hstart : (Json.integer 0).FitsUInt32 := ⟨0, rfl, by decide, by decide⟩
  have hend : (Json.integer 1).FitsUInt32 := ⟨1, rfl, by decide, by decide⟩
  exact ⟨⟨_, rfl, ⟨_, rfl, hline⟩, _, rfl, hstart⟩, _, rfl, ⟨_, rfl, hline⟩, _, rfl, hend⟩

/-- A change on line -1 is taken as one on line 4294967295. -/
theorem not_didChange_exact :
    DidChangeParams.fromJson (Session.changeParams 2 (-1)) = .ok (Session.change 2 4294967295) ∧
      ¬ (Session.change 2 4294967295).ReadFrom (Session.changeParams 2 (-1)) := by
  refine ⟨rfl, ?_⟩
  intro h
  rcases (hasAt_iff rfl).mp h.2 with ⟨elems, heq, hall⟩
  obtain rfl := Json.array.inj heq
  cases hall with
  | cons hchange _ =>
    rcases hchange _ rfl with ⟨v, hv, hrange⟩
    obtain rfl := Option.some.inj hv
    have hstart := (hasAt_iff rfl).mp hrange.1
    have hline : Json.number? (.integer (-1)) = some ((4294967295 : ℤ) : ℚ) :=
      (hasAt_iff rfl).mp hstart.1
    exact absurd (Rat.intCast_inj.mp (Option.some.inj hline)) (by decide)

end Exact

end CLSP
