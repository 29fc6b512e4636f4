import CLSP.Stdio.Theorems

/-!
# Fields of a header block

A header block is a list of fields, and `readHeaders` searches it as one string. The key has no
line break, so the search goes from line to line (`valueStr_headerBlock`), but in a line it finds
the key at the end of another name or inside a value as well.
-/

namespace CLSP

open Search (Terminated)

/-- A header field. -/
structure HeaderField where
  name : Bytes
  value : Bytes
deriving DecidableEq, Repr

namespace HeaderField

/-- The line of a field, without its end. -/
def text (field : HeaderField) : Bytes :=
  field.name ++ str ": " ++ field.value

/-- A name has no colon, and neither part has a line break. -/
structure WellFormed (field : HeaderField) : Prop where
  colon_name : colon ∉ field.name
  cr_name : carriageReturn ∉ field.name
  lf_name : newline ∉ field.name
  cr_value : carriageReturn ∉ field.value
  lf_value : newline ∉ field.value

instance (field : HeaderField) : Decidable field.WellFormed :=
  decidable_of_iff (colon ∉ field.name ∧ carriageReturn ∉ field.name ∧ newline ∉ field.name ∧
      carriageReturn ∉ field.value ∧ newline ∉ field.value)
    ⟨fun h => ⟨h.1, h.2.1, h.2.2.1, h.2.2.2.1, h.2.2.2.2⟩,
      fun h => ⟨h.colon_name, h.cr_name, h.lf_name, h.cr_value, h.lf_value⟩⟩

/-- What follows the first key in the line, if the key is there. -/
def afterKey (field : HeaderField) : Option Bytes :=
  (Search.find? contentLengthKey field.text).map fun pos =>
    field.text.drop (pos + contentLengthKey.length)

/-- The field that announces a length. -/
def contentLength (digits : Bytes) : HeaderField :=
  { name := str "Content-Length", value := digits }

end HeaderField

/-- A header block: the lines of its fields and an empty line. -/
def headerBlock (fields : List HeaderField) : Bytes :=
  fields.flatMap (fun field => field.text ++ [carriageReturn, newline]) ++
    [carriageReturn, newline]

lemma headerBlock_cons (field : HeaderField) (fields : List HeaderField) :
    headerBlock (field :: fields) =
      field.text ++ carriageReturn :: newline :: headerBlock fields := by
  simp [headerBlock]

section Fields

variable {field : HeaderField} {fields : List HeaderField}

lemma HeaderField.WellFormed.cr_text (h : field.WellFormed) : carriageReturn ∉ field.text := by
  intro hmem
  rcases List.mem_append.mp hmem with hmem | hmem
  · rcases List.mem_append.mp hmem with hmem | hmem
    · exact h.cr_name hmem
    · exact absurd hmem (by decide)
  · exact h.cr_value hmem

/-- A line is not empty. -/
lemma HeaderField.WellFormed.exists_cons (h : field.WellFormed) :
    ∃ b tail, field.text = b :: tail ∧ b ≠ carriageReturn := by
  rcases htext : field.text with _ | ⟨b, tail⟩
  · exact absurd htext (by simp [HeaderField.text, str, Utf8.encode])
  · refine ⟨b, tail, rfl, ?_⟩
    rintro rfl
    exact h.cr_text (by rw [htext]; simp)

/-! ## The end of the block -/

/-- The block ends with the first empty line. -/
lemma terminated_headerBlock (hfields : ∀ field ∈ fields, field.WellFormed) (hne : fields ≠ []) :
    Terminated crlfcrlf (headerBlock fields) := by
  induction fields with
  | nil => exact absurd rfl hne
  | cons field fields ih =>
    have hfield := hfields field List.mem_cons_self
    rcases fields with _ | ⟨next, fields⟩
    · rw [headerBlock_cons]
      exact Search.terminated_append hfield.cr_text
    · have hrest := ih (fun f hf => hfields f (List.mem_cons_of_mem _ hf)) (by simp)
      -- the next line does not start with a line break
      rcases (hfields next (by simp)).exists_cons with ⟨b, tail, htext, hb⟩
      have hblock : headerBlock (field :: next :: fields) =
          field.text ++ [carriageReturn, newline] ++ headerBlock (next :: fields) := by
        simp [headerBlock_cons]
      rw [hblock]
      apply Terminated.append_left hrest
      intro i hi hpre
      rw [List.append_assoc] at hpre
      rw [List.length_append, List.length_cons, List.length_singleton] at hi
      rcases Nat.lt_or_ge i field.text.length with hlt | hge
      · rw [List.drop_append_of_le_length hlt.le, List.drop_eq_getElem_cons hlt] at hpre
        have hcr : carriageReturn = field.text[i] := (List.cons_prefix_cons.mp hpre).1
        exact hfield.cr_text (hcr ▸ List.getElem_mem hlt)
      · obtain ⟨k, rfl⟩ := Nat.exists_eq_add_of_le hge
        rw [List.drop_length_add_append, headerBlock_cons, htext] at hpre
        have hk : k = 0 ∨ k = 1 := by omega
        rcases hk with rfl | rfl
        · simp only [crlfcrlf, List.drop_zero, List.cons_append, List.nil_append,
            List.cons_prefix_cons] at hpre
          exact hb hpre.2.2.1.symm
        · simp only [crlfcrlf, List.drop_succ_cons, List.drop_zero, List.cons_append,
            List.cons_prefix_cons] at hpre
          exact absurd hpre.1 (by decide)

/-! ## The search -/

/-- The search in a block looks at its first line, then at the others. -/
lemma valueStr_line (h : field.WellFormed) (rest : Bytes) :
    valueStr (field.text ++ carriageReturn :: newline :: rest) =
      field.afterKey.or (valueStr rest) := by
  have hcr : carriageReturn ∉ contentLengthKey := by decide
  have hlf : newline ∉ contentLengthKey := by decide
  have hrest : Search.find? contentLengthKey (newline :: rest) =
      (Search.find? contentLengthKey rest).map (· + 1) := Search.find?_append_cons hlf []
  unfold valueStr HeaderField.afterKey
  rw [Search.find?_append_cons hcr, hrest]
  cases hfind : Search.find? contentLengthKey field.text with
  | some pos =>
    have hpos : pos + contentLengthKey.length ≤ field.text.length := by
      have hle := (Search.prefix_of_find? hfind).length_le
      rw [List.length_drop] at hle
      have hkey : 0 < contentLengthKey.length := by decide
      omega
    -- the value ends with the line
    have hvalue : ∀ b ∈ field.text.drop (pos + contentLengthKey.length),
        decide (b ≠ carriageReturn) = true := by
      intro b hb
      rw [decide_eq_true_iff]
      rintro rfl
      exact h.cr_text (List.mem_of_mem_drop hb)
    rw [Option.some_or, Option.map_some, List.drop_append_of_le_length hpos,
      List.takeWhile_append_of_pos hvalue]
    simp
  | none =>
    rw [Option.none_or, Option.map_none, Option.none_or, Option.map_map, Option.map_map]
    apply Option.map_congr
    intro pos _
    have hdrop : (field.text ++ carriageReturn :: newline :: rest).drop
        (pos + 1 + (field.text.length + 1) + contentLengthKey.length)
        = rest.drop (pos + contentLengthKey.length) := by
      have hlength : pos + 1 + (field.text.length + 1) + contentLengthKey.length
          = field.text.length + (pos + contentLengthKey.length + 1 + 1) := by omega
      rw [hlength, List.drop_length_add_append]
      rfl
    show (List.drop (pos + 1 + (field.text.length + 1) + contentLengthKey.length) _).takeWhile _ = _
    rw [hdrop]

lemma valueStr_headerBlock (hfields : ∀ field ∈ fields, field.WellFormed) :
    valueStr (headerBlock fields) = fields.findSome? HeaderField.afterKey := by
  induction fields with
  | nil => decide
  | cons field fields ih =>
    rw [headerBlock_cons, valueStr_line (hfields field List.mem_cons_self),
      ih fun f hf => hfields f (List.mem_cons_of_mem _ hf), List.findSome?_cons]
    cases field.afterKey <;> rfl

lemma HeaderField.afterKey_contentLength (digits : Bytes) :
    (HeaderField.contentLength digits).afterKey = some digits := by
  have htext : (HeaderField.contentLength digits).text = contentLengthKey ++ digits := by
    simp [HeaderField.text, HeaderField.contentLength, contentLengthKey, str, Utf8.encode]
  rw [HeaderField.afterKey, htext, Search.find?_of_prefix (List.prefix_append _ _),
    Option.map_some, Nat.zero_add, List.drop_left]

end Fields

lemma HeaderField.afterKey_eq_none_iff {field : HeaderField} :
    field.afterKey = none ↔ ¬ contentLengthKey <:+: field.text := by
  rw [HeaderField.afterKey, Option.map_eq_none_iff]
  exact Search.find?_eq_none_iff

/-! ## A field that announces a length, and the others -/

/-- The other fields of a block with one field that announces a length. -/
structure OtherFields (before after : List HeaderField) : Prop where
  wellFormed : ∀ field ∈ before ++ after, field.WellFormed
  other : ∀ field ∈ before ++ after, field.name ≠ str "Content-Length"

/-- A number of any size, in decimal digits. -/
structure IsNumeral (digits : Bytes) : Prop where
  ne_nil : digits ≠ []
  allDigits : Decimal.AllDigits digits

/-- The block they are. -/
def lengthBlock (before : List HeaderField) (digits : Bytes) (after : List HeaderField) : Bytes :=
  headerBlock (before ++ .contentLength digits :: after)

section Blocks

variable {before after : List HeaderField} {digits : Bytes} (h : OtherFields before after)
  (hdigits : IsNumeral digits)
include h hdigits

lemma OtherFields.wellFormed_of_mem {field : HeaderField}
    (hmem : field ∈ before ++ .contentLength digits :: after) : field.WellFormed := by
  have hname : colon ∉ str "Content-Length" ∧ carriageReturn ∉ str "Content-Length" ∧
      newline ∉ str "Content-Length" := by decide
  have hdigit : ∀ b, ¬ Decimal.IsDigit b → b ∉ digits := fun b hb hmem =>
    hb (hdigits.allDigits b hmem)
  rcases List.mem_append.mp hmem with hmem | hmem
  · exact h.wellFormed field (List.mem_append_left _ hmem)
  · rcases List.mem_cons.mp hmem with rfl | hmem
    · exact ⟨hname.1, hname.2.1, hname.2.2, hdigit _ (by decide), hdigit _ (by decide)⟩
    · exact h.wellFormed field (List.mem_append_right _ hmem)

lemma OtherFields.terminated : Terminated crlfcrlf (lengthBlock before digits after) :=
  terminated_headerBlock (fun _ => h.wellFormed_of_mem hdigits) (by simp)

lemma OtherFields.valueStr_eq : valueStr (lengthBlock before digits after) =
    some ((before.findSome? HeaderField.afterKey).getD digits) := by
  rw [lengthBlock, valueStr_headerBlock fun f => h.wellFormed_of_mem hdigits,
    List.findSome?_append, List.findSome?_cons, HeaderField.afterKey_contentLength]
  cases before.findSome? HeaderField.afterKey <;> rfl

end Blocks

/-! ## The result -/

/-- What is expected of `readHeaders` on the blocks of some fields around a length: whatever the
length is, the block is read and the length returned. -/
def FindsLength (before after : List HeaderField) : Prop :=
  ∀ digits, IsNumeral digits → Decimal.value digits < 2 ^ 31 →
    ∀ fuel ≥ (lengthBlock before digits after).length, ∀ c rest, ∃ length,
      readHeaders fuel c (.ofBytes (lengthBlock before digits after ++ rest)) =
          some (some length, .ofBytes rest) ∧
        length.toInt = Decimal.value digits

lemma toInt_ofNat_eq_iff {n : ℕ} : (Int32.ofNat n).toInt = n ↔ n < 2 ^ 31 := by
  rw [toInt_ofNat_mod]
  split <;> omega

/-- **The length is found** in all blocks exactly if the key is in no field before its own, neither
at the end of a name nor inside a value. -/
theorem findsLength_iff {before after : List HeaderField} (h : OtherFields before after) :
    FindsLength before after ↔ ∀ field ∈ before, ¬ contentLengthKey <:+: field.text := by
  have hnone : (∀ field ∈ before, ¬ contentLengthKey <:+: field.text) ↔
      before.findSome? HeaderField.afterKey = none := by
    simp only [List.findSome?_eq_none_iff, HeaderField.afterKey_eq_none_iff]
  rw [hnone]
  constructor
  · intro hfinds
    cases htail : before.findSome? HeaderField.afterKey with
    | none => rfl
    | some tail =>
      -- the number behind the first key does not depend on the length
      have hreads : ∀ digits, IsNumeral digits → Decimal.value digits < 2 ^ 31 →
          ∃ n : Int32, parseContentLength (lengthBlock before digits after) = some n ∧
            n.toInt = Decimal.value digits := by
        intro digits hdigits hsmall
        rcases hfinds digits hdigits hsmall _ le_rfl 0 [] with ⟨n, hread, hn⟩
        rw [readHeaders_block (h.terminated hdigits) le_rfl, ← parseContentLength_eq] at hread
        exact ⟨n, (Prod.mk.inj (Option.some.inj hread)).1, hn⟩
      have hparse : ∀ digits, IsNumeral digits →
          parseContentLength (lengthBlock before digits after) =
            if tail = [] then none else digitLoop 0 tail := by
        intro digits hdigits
        rw [parseContentLength, h.valueStr_eq hdigits, htail]
        rfl
      have hzero : IsNumeral (str "0") := ⟨by decide, by decide⟩
      have hone : IsNumeral (str "1") := ⟨by decide, by decide⟩
      rcases hreads _ hzero (by decide) with ⟨n, hn, hvalue⟩
      rcases hreads _ hone (by decide) with ⟨n', hn', hvalue'⟩
      rw [hparse _ hzero] at hn
      rw [hparse _ hone, hn] at hn'
      rw [← Option.some.inj hn', hvalue] at hvalue'
      exact absurd hvalue' (by decide)
  · intro hkey digits hdigits hsmall fuel hfuel c rest
    have hannounced : announced (lengthBlock before digits after) =
        some (Decimal.value digits) := by
      rw [announced, h.valueStr_eq hdigits, hkey]
      exact if_pos ⟨hdigits.ne_nil, hdigits.allDigits⟩
    refine ⟨Int32.ofNat (Decimal.value digits), ?_, toInt_ofNat_eq_iff.mpr hsmall⟩
    rw [readHeaders_block (h.terminated hdigits) hfuel, hannounced]
    rfl

/-- The field of the base protocol besides the length. -/
def contentType : HeaderField :=
  { name := str "Content-Type", value := str "application/vscode-jsonrpc; charset=utf-8" }

/-- A field that looks like the length. -/
def lookalike : HeaderField :=
  { name := str "X-Content-Length", value := str "5" }

/-- A type in front of the length and a field that looks like it behind. -/
theorem findsLength_sample : FindsLength [contentType] [lookalike] := by
  have hfields : OtherFields [contentType] [lookalike] := ⟨by decide, by decide⟩
  refine (findsLength_iff hfields).mpr fun field hfield => ?_
  rw [List.mem_singleton.mp hfield]
  decide

/-- In front of it that field is taken for the length. -/
theorem not_findsLength :
    OtherFields [lookalike] [] ∧
      readHeaders 50 0 (.ofBytes (lengthBlock [lookalike] (str "12") []))
        = some (some 5, .ofBytes []) ∧
      ¬ FindsLength [lookalike] [] := by
  have hread : readHeaders 50 0 (.ofBytes (lengthBlock [lookalike] (str "12") []))
      = some (some 5, .ofBytes []) := by decide
  refine ⟨⟨by decide, by decide⟩, hread, ?_⟩
  intro hfinds
  rcases hfinds (str "12") ⟨by decide, by decide⟩ (by decide) 50 (by decide) 0 [] with
    ⟨length, hlength, htwelve⟩
  rw [List.append_nil, hread] at hlength
  rw [← Option.some.inj (Prod.mk.inj (Option.some.inj hlength)).1] at htwelve
  exact absurd htwelve (by decide)

end CLSP
