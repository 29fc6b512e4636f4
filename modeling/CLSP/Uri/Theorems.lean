import CLSP.Uri.Uri
import Mathlib.Data.Set.Function

/-!
# Paths and URIs

`percentDecode` undoes `percentEncode`, which keeps slashes, letters and colons, so a drive letter
is one in the path exactly if it is one in its URI. `toPath` looks for the drive letter before it
decodes, and does not find one whose colon or letter is written as an escape.
-/

namespace CLSP

/-! ## The percent codec -/

lemma isPathPassThrough_of_isAlpha {c : UInt8} (h : isAlpha c = true) :
    isPathPassThrough c = true := by
  simp [isPathPassThrough, isUnreserved, isAlnum, h]

lemma isPathPassThrough_percent : isPathPassThrough percent = false := by decide

lemma encodeByte_of_passThrough {c : UInt8} (h : isPathPassThrough c = true) :
    encodeByte c = [c] := if_pos h

lemma encodeByte_of_not_passThrough {c : UInt8} (h : isPathPassThrough c = false) :
    encodeByte c = [percent, hex ((c >>> 4) &&& 0xF), hex (c &&& 0xF)] :=
  if_neg (by simp [h])

@[simp] lemma percentEncode_nil : percentEncode [] = [] := rfl

lemma percentEncode_cons (c : UInt8) (rest : Bytes) :
    percentEncode (c :: rest) = encodeByte c ++ percentEncode rest :=
  List.flatMap_cons

/-- Other characters than `'%'` are their own. -/
lemma percentDecode_cons {c : UInt8} (h : c ≠ percent) (rest : Bytes) :
    percentDecode (c :: rest) = c :: percentDecode rest := by
  rcases rest with _ | ⟨hi, _ | ⟨lo, rest⟩⟩
  · rfl
  · rfl
  · rw [percentDecode, escape?, if_neg h]

lemma escape?_hex (c : UInt8) :
    escape? percent (hex ((c >>> 4) &&& 0xF)) (hex (c &&& 0xF)) = some c := by
  apply forall_byte (P := fun c =>
    escape? percent (hex ((c >>> 4) &&& 0xF)) (hex (c &&& 0xF)) = some c)
  decide +kernel

lemma percentDecode_encodeByte (c : UInt8) (rest : Bytes) :
    percentDecode (encodeByte c ++ rest) = c :: percentDecode rest := by
  cases hpass : isPathPassThrough c with
  | true =>
    have hne : c ≠ percent := by
      rintro rfl
      exact absurd (isPathPassThrough_percent.symm.trans hpass) (by simp)
    rw [encodeByte_of_passThrough hpass]
    exact percentDecode_cons hne rest
  | false =>
    rw [encodeByte_of_not_passThrough hpass]
    show percentDecode (percent :: hex _ :: hex _ :: rest) = _
    rw [percentDecode, escape?_hex]

/-- What has been encoded is decoded again. -/
lemma percentDecode_percentEncode (path : Bytes) : percentDecode (percentEncode path) = path := by
  induction path with
  | nil => rfl
  | cons c rest ih => rw [percentEncode_cons, percentDecode_encodeByte, ih]

/-! ## Drive letters -/

/-- The path starts with a letter and a colon. -/
def startsWithDrive : Bytes → Bool
  | c :: d :: _ => isAlpha c && d = colon
  | _ => false

lemma hasDrive_cons (s : UInt8) (rest : Bytes) :
    hasDrive (s :: rest) = (decide (s = slash) && startsWithDrive rest) := by
  rcases rest with _ | ⟨c, _ | ⟨d, rest⟩⟩ <;> simp [hasDrive, startsWithDrive, Bool.and_assoc]

lemma hasDrive_iff {text : Bytes} :
    hasDrive text = true ↔ ∃ rest, text = slash :: rest ∧ startsWithDrive rest = true := by
  rcases text with _ | ⟨s, rest⟩
  · simp [hasDrive]
  · simp [hasDrive_cons, and_comm]

lemma startsWithDrive_cons_cons (c d : UInt8) (rest : Bytes) :
    startsWithDrive (c :: d :: rest) = (isAlpha c && decide (d = colon)) := rfl

/-- An encoded character is a letter, or a colon, only if it is that itself. -/
lemma exists_encodeByte (c : UInt8) : ∃ b tail, encodeByte c = b :: tail ∧
    isAlpha b = isAlpha c ∧ (b = colon ↔ c = colon) ∧ (isAlpha c = true → tail = []) := by
  cases hpass : isPathPassThrough c with
  | true => exact ⟨c, [], encodeByte_of_passThrough hpass, rfl, Iff.rfl, fun _ => rfl⟩
  | false =>
    refine ⟨percent, _, encodeByte_of_not_passThrough hpass, ?_, ?_, ?_⟩
    · cases halpha : isAlpha c with
      | true => exact absurd (isPathPassThrough_of_isAlpha halpha) (by simp [hpass])
      | false => decide
    · refine iff_of_false (by decide) ?_
      rintro rfl
      exact absurd hpass (by decide)
    · intro halpha
      exact absurd (isPathPassThrough_of_isAlpha halpha) (by simp [hpass])

/-- Encoding keeps drive letters and makes none. -/
lemma startsWithDrive_percentEncode (path : Bytes) :
    startsWithDrive (percentEncode path) = startsWithDrive path := by
  rcases path with _ | ⟨c, rest⟩
  · rfl
  rcases exists_encodeByte c with ⟨b, tail, hb, halpha, -, htail⟩
  rw [percentEncode_cons, hb]
  cases hc : isAlpha c with
  | false =>
    -- without a letter there is none in front of the colon
    rw [hc] at halpha
    have hno : ∀ (b : UInt8) (rest : Bytes), isAlpha b = false →
        startsWithDrive (b :: rest) = false := by
      intro b rest hb
      rcases rest with _ | ⟨d, rest⟩
      · rfl
      · rw [startsWithDrive_cons_cons, hb, Bool.false_and]
    rw [List.cons_append, hno b _ halpha, hno c _ hc]
  | true =>
    rw [htail hc]
    rcases rest with _ | ⟨d, rest⟩
    · rfl
    rcases exists_encodeByte d with ⟨b', tail', hb', -, hcolon, -⟩
    rw [percentEncode_cons, hb']
    show startsWithDrive (b :: b' :: (tail' ++ percentEncode rest)) = _
    rw [startsWithDrive_cons_cons, startsWithDrive_cons_cons, halpha]
    simp [hcolon]

/-! ## Spellings of one path -/

lemma toPath_file (rest : Bytes) : toPath (kFileScheme ++ rest) =
    percentDecode (if hasDrive rest then rest.drop 1 else rest) := by
  rw [toPath, List.take_left, List.drop_left]
  simp

lemma toPath_of_hasDrive {rest : Bytes} (h : hasDrive rest = true) :
    toPath (kFileScheme ++ rest) = percentDecode (rest.drop 1) := by
  rw [toPath_file, if_pos h]

lemma toPath_of_not_hasDrive {rest : Bytes} (h : hasDrive rest = false) :
    toPath (kFileScheme ++ rest) = percentDecode rest := by
  rw [toPath_file, h, if_neg Bool.false_ne_true]

/-- A path behind a drive letter is not absolute. -/
lemma exists_percentDecode_of_hasDrive {rest : Bytes} (h : hasDrive rest = true) :
    ∃ path, percentDecode rest = slash :: path ∧ percentDecode (rest.drop 1) = path ∧
      path.head? ≠ some slash := by
  rcases hasDrive_iff.mp h with ⟨tail, rfl, hdrive⟩
  rcases tail with _ | ⟨c, _ | ⟨d, tail⟩⟩
  · cases hdrive
  · cases hdrive
  rw [startsWithDrive_cons_cons, Bool.and_eq_true] at hdrive
  have hpercent : c ≠ percent := by
    rintro rfl
    exact absurd hdrive.1 (by decide)
  have hslash : c ≠ slash := by
    rintro rfl
    exact absurd hdrive.1 (by decide)
  refine ⟨percentDecode (c :: d :: tail), percentDecode_cons (by decide) _, rfl, ?_⟩
  rw [percentDecode_cons hpercent, List.head?_cons]
  exact fun heq => hslash (Option.some.inj heq)

/-- With a drive letter in one of two spellings only, one path is absolute and the other is not. -/
lemma toPath_head?_of_hasDrive {rest rest' : Bytes} (h : percentDecode rest = percentDecode rest')
    (hdrive : hasDrive rest = true) (hdrive' : hasDrive rest' = false) :
    (toPath (kFileScheme ++ rest)).head? ≠ some slash ∧
      (toPath (kFileScheme ++ rest')).head? = some slash := by
  rcases exists_percentDecode_of_hasDrive hdrive with ⟨path, hpath, hdrop, hrelative⟩
  rw [toPath_of_hasDrive hdrive, toPath_of_not_hasDrive hdrive', hdrop, ← h, hpath]
  exact ⟨hrelative, rfl⟩

/-- **Spellings of one path** have the same path exactly if the drive letter is spelled out in both
or in neither of them. Otherwise one of the paths is absolute and the other is not. -/
theorem toPath_eq_iff {rest rest' : Bytes} (h : percentDecode rest = percentDecode rest') :
    (toPath (kFileScheme ++ rest) = toPath (kFileScheme ++ rest') ↔
        hasDrive rest = hasDrive rest') ∧
      (hasDrive rest ≠ hasDrive rest' →
        ((toPath (kFileScheme ++ rest)).head? = some slash ↔
          (toPath (kFileScheme ++ rest')).head? ≠ some slash)) := by
  cases hdrive : hasDrive rest with
  | true =>
    cases hdrive' : hasDrive rest' with
    | true =>
      rcases exists_percentDecode_of_hasDrive hdrive with ⟨path, hpath, hdrop, -⟩
      rcases exists_percentDecode_of_hasDrive hdrive' with ⟨path', hpath', hdrop', -⟩
      rw [hpath, hpath'] at h
      rw [toPath_of_hasDrive hdrive, toPath_of_hasDrive hdrive', hdrop, hdrop']
      exact ⟨iff_of_true (List.cons.inj h).2 rfl, fun hne => absurd rfl hne⟩
    | false =>
      rcases toPath_head?_of_hasDrive h hdrive hdrive' with ⟨hrelative, habsolute⟩
      refine ⟨iff_of_false ?_ (by simp), fun _ => iff_of_false hrelative (by simp [habsolute])⟩
      intro heq
      exact hrelative (heq ▸ habsolute)
  | false =>
    cases hdrive' : hasDrive rest' with
    | true =>
      rcases toPath_head?_of_hasDrive h.symm hdrive' hdrive with ⟨hrelative, habsolute⟩
      refine ⟨iff_of_false ?_ (by simp), fun _ => iff_of_true habsolute hrelative⟩
      intro heq
      exact hrelative (heq ▸ habsolute)
    | false =>
      rw [toPath_of_not_hasDrive hdrive, toPath_of_not_hasDrive hdrive']
      exact ⟨iff_of_true h rfl, fun hne => absurd rfl hne⟩

/-- Two spellings of a path without a drive letter. -/
theorem toPath_eq_sample : toPath (kFileScheme ++ str "/home/My%20File") =
    toPath (kFileScheme ++ str "/home%2fMy%20%46ile") :=
  (toPath_eq_iff (by decide)).1.mpr (by decide)

/-- The colon of a drive letter as an escape, as editors send it. -/
theorem toPath_encoded_colon :
    percentDecode (str "/c%3A/x") = percentDecode (str "/c:/x") ∧
      toPath (kFileScheme ++ str "/c%3A/x") = str "/c:/x" ∧
      toPath (kFileScheme ++ str "/c:/x") = str "c:/x" ∧
      toPath (kFileScheme ++ str "/c%3A/x") ≠ toPath (kFileScheme ++ str "/c:/x") := by
  decide

/-! ## From a path and back -/

/-- A path and the same path behind a slash: `toPath` keeps the slash unless there is a drive
letter. -/
lemma toPath_percentEncode (path : Bytes) :
    toPath (kFileScheme ++ slash :: percentEncode path) =
      if startsWithDrive path then path else slash :: path := by
  have hdrive : hasDrive (slash :: percentEncode path) = startsWithDrive path := by
    rw [hasDrive_cons, startsWithDrive_percentEncode, decide_eq_true rfl, Bool.true_and]
  rw [toPath_file, hdrive]
  split
  · exact percentDecode_percentEncode path
  · rw [percentDecode_cons (by decide), percentDecode_percentEncode]

lemma percentEncode_slash (path : Bytes) :
    percentEncode (slash :: path) = slash :: percentEncode path := by
  rw [percentEncode_cons, encodeByte_of_passThrough (by decide)]
  rfl

lemma fromPath_slash (path : Bytes) :
    fromPath (slash :: path) = kFileScheme ++ slash :: percentEncode path := by
  rw [fromPath, percentEncode_slash, if_neg (by simp), List.append_nil]

lemma fromPath_relative {path : Bytes} (hne : path ≠ []) (h : path.head? ≠ some slash) :
    fromPath path = kFileScheme ++ slash :: percentEncode path := by
  rw [fromPath, if_pos ⟨hne, h⟩, List.append_assoc]
  rfl

lemma relative_of_startsWithDrive {path : Bytes} (h : startsWithDrive path = true) :
    path ≠ [] ∧ path.head? ≠ some slash := by
  rcases path with _ | ⟨c, _ | ⟨d, path⟩⟩
  · cases h
  · cases h
  rw [startsWithDrive_cons_cons, Bool.and_eq_true] at h
  refine ⟨by simp, ?_⟩
  rw [List.head?_cons]
  intro heq
  rw [Option.some.inj heq] at h
  exact absurd h.1 (by decide)

/-- The paths that come back. -/
def ComesBackFrom (path : Bytes) : Prop :=
  path = [] ∨ (path.head? = some slash ∧ hasDrive path = false) ∨ startsWithDrive path = true

/-- `fromPath` gives the same URI for a path and for what `toPath` makes of it. -/
lemma fromPath_toPath_percentEncode (path : Bytes) :
    fromPath (toPath (kFileScheme ++ slash :: percentEncode path)) =
      kFileScheme ++ slash :: percentEncode path := by
  rw [toPath_percentEncode]
  split
  · next hdrive =>
    rcases relative_of_startsWithDrive hdrive with ⟨hne, hrelative⟩
    exact fromPath_relative hne hrelative
  · exact fromPath_slash path

lemma fromPath_toPath_fromPath (path : Bytes) :
    fromPath (toPath (fromPath path)) = fromPath path := by
  rcases path with _ | ⟨c, path⟩
  · decide
  by_cases hc : c = slash
  · rw [hc, fromPath_slash, fromPath_toPath_percentEncode]
  · have hfrom : fromPath (c :: path) = kFileScheme ++ slash :: percentEncode (c :: path) :=
      fromPath_relative (by simp) (by simpa using hc)
    rw [hfrom, fromPath_toPath_percentEncode]

lemma toPath_fromPath_eq_iff (path : Bytes) :
    toPath (fromPath path) = path ↔ ComesBackFrom path := by
  rcases path with _ | ⟨c, path⟩
  · exact iff_of_true (by decide) (Or.inl rfl)
  unfold ComesBackFrom
  by_cases hc : c = slash
  · have hslash : startsWithDrive (slash :: path) = false := by
      cases hdrive : startsWithDrive (slash :: path) with
      | true => exact absurd rfl (relative_of_startsWithDrive hdrive).2
      | false => rfl
    rw [hc, fromPath_slash, toPath_percentEncode, hasDrive_cons, hslash]
    cases hdrive : startsWithDrive path with
    | true =>
      refine iff_of_false ?_ (by simp)
      intro heq
      have hlength := congrArg List.length heq
      simp at hlength
    | false => simp
  · rw [fromPath_relative (by simp) (by simpa using hc), toPath_percentEncode]
    cases hdrive : startsWithDrive (c :: path) with
    | true => simp
    | false =>
      refine iff_of_false ?_ (by simp [hc])
      intro heq
      exact hc (List.cons.inj heq).1.symm

/-- **Paths come back** from their URIs exactly if they are empty, start with a drive letter, or
start with a slash and no drive letter behind it. On these `fromPath` is injective, and in any case
the URI comes back. -/
theorem fromPath_round_trip :
    (∀ path, fromPath (toPath (fromPath path)) = fromPath path) ∧
      (∀ path, toPath (fromPath path) = path ↔ ComesBackFrom path) ∧
      Set.InjOn fromPath {path | ComesBackFrom path} := by
  refine ⟨fromPath_toPath_fromPath, toPath_fromPath_eq_iff, ?_⟩
  intro path hpath path' hpath' heq
  calc path = toPath (fromPath path) := ((toPath_fromPath_eq_iff path).mpr hpath).symm
    _ = toPath (fromPath path') := by rw [heq]
    _ = path' := (toPath_fromPath_eq_iff path').mpr hpath'

end CLSP
