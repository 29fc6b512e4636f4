import CLSP.Stdio.HeaderFields

/-!
# The announced length

The digits behind the first `Content-Length: ` of a header block are added up in 32 bits. Numbers
below `2 ^ 31` are read exactly; larger ones are read modulo `2 ^ 32` in two's complement, as
another length or as a negative one, which the constructor of `std::string` refuses.
-/

namespace CLSP

open Search (Terminated)

/-- What is expected of the calls on a stream that starts with a header block that announces `n`
bytes. -/
structure ReadsExactly (block : Bytes) (n : ℕ) : Prop where
  /-- `readHeaders` comes back, with the number or without one. -/
  headers : ∀ fuel ≥ block.length, ∀ c rest, ∃ length in',
    readHeaders fuel c (.ofBytes (block ++ rest)) = some (length, in') ∧
      ∀ contentLength, length = some contentLength → contentLength.toInt = n
  noThrow : ∀ fuel c rest e in',
    readMessage fuel c (.ofBytes (block ++ rest)) ≠ some (.threw e, in')
  bodyLength : ∀ fuel c rest body in',
    readMessage fuel c (.ofBytes (block ++ rest)) = some (.body body, in') → body.length = n

/-- A stream that has not failed after a read had all the bytes. -/
lemma IStream.length_read {in_ : IStream} {n : ℕ} (h : (in_.read n).2.fail = false) :
    (in_.read n).1.length = n := by
  unfold IStream.read at h ⊢
  split_ifs at h ⊢ with hbad hlen
  exact List.length_take_of_le hlen

/-- A number below `2 ^ 31` is the length of the body, if there is one. -/
lemma readBody_small {n : ℕ} (h : n < 2 ^ 31) (in_ : IStream) :
    (∀ e, (readBody (Int32.ofNat n) in_).1 ≠ .threw e) ∧
      ∀ body, (readBody (Int32.ofNat n) in_).1 = .body body → body.length = n := by
  have hmod : n % 2 ^ 32 = n := Nat.mod_eq_of_lt (by omega)
  have hread := readBody_eq (v := n) (by omega) in_
  rw [hmod] at hread
  rw [hread]
  split
  · exact ⟨by simp, by simp⟩
  · next hgood =>
    refine ⟨by simp, ?_⟩
    intro body hbody
    cases hbody
    exact IStream.length_read (by simpa using hgood)

/-- What follows the first `Content-Length: ` of a block in its line: the length, unless a field
before it has that text as the end of its name or in its value. -/
def firstLength (before : List HeaderField) (digits : Bytes) : Bytes :=
  (before.findSome? HeaderField.afterKey).getD digits

/-- Two numbers are read alike if they are congruent. -/
lemma toInt_ofNat_eq_iff_mod {m n : ℕ} :
    (Int32.ofNat m).toInt = n ↔ n < 2 ^ 31 ∧ m % 2 ^ 32 = n := by
  rw [toInt_ofNat_mod]
  split <;> omega

lemma OtherFields.announced_eq {before after : List HeaderField} (h : OtherFields before after)
    {digits : Bytes} (hdigits : IsNumeral digits) :
    announced (lengthBlock before digits after) =
      if firstLength before digits ≠ [] ∧ Decimal.AllDigits (firstLength before digits) then
        some (Decimal.value (firstLength before digits))
      else none := by
  rw [announced, h.valueStr_eq hdigits]
  rfl

/-- A call of `readMessage` that comes back is the one that enough fuel gives. -/
lemma readMessage_of_announced {block : Bytes} (h : Terminated crlfcrlf block) {fuel : ℕ}
    {c : UInt8} {rest : Bytes} {r : ReadResult} {in' : IStream}
    (hread : readMessage fuel c (.ofBytes (block ++ rest)) = some (r, in')) :
    r = (announced block).elim .nullopt fun n =>
      (readBody (Int32.ofNat n) (.ofBytes rest)).1 := by
  have hmax := readMessage_mono (Nat.le_max_left fuel block.length) hread
  rw [readMessage_block h (Nat.le_max_right _ _)] at hmax
  have heq : r = _ := (congrArg Prod.fst (Option.some.inj hmax)).symm
  rw [heq]
  cases announced block <;> rfl

/-- **A length is read exactly or refused** exactly if the first `Content-Length: ` of the block is
followed by no number, or by one that is congruent to the length modulo `2 ^ 32`, and the length is
below `2 ^ 31`. -/
theorem readsExactly_iff {before after : List HeaderField} (h : OtherFields before after)
    {digits : Bytes} (hdigits : IsNumeral digits) :
    ReadsExactly (lengthBlock before digits after) (Decimal.value digits) ↔
      (IsNumeral (firstLength before digits) → Decimal.value digits < 2 ^ 31 ∧
        Decimal.value (firstLength before digits) % 2 ^ 32 = Decimal.value digits) := by
  have hblock := h.terminated hdigits
  have hannounced := h.announced_eq hdigits
  constructor
  · intro hexact hfirst
    rw [if_pos ⟨hfirst.ne_nil, hfirst.allDigits⟩] at hannounced
    rcases hexact.headers _ le_rfl 0 [] with ⟨length, in', hread, hlength⟩
    rw [readHeaders_block hblock le_rfl, hannounced] at hread
    cases hread
    exact toInt_ofNat_eq_iff_mod.mp (hlength _ rfl)
  · intro hsame
    by_cases hfirst : IsNumeral (firstLength before digits)
    · rcases hsame hfirst with ⟨hsmall, hmod⟩
      have heq : Int32.ofNat (Decimal.value (firstLength before digits)) =
          Int32.ofNat (Decimal.value digits) := by
        apply Int32.toInt_inj.mp
        rw [toInt_ofNat_eq_iff_mod.mpr ⟨hsmall, hmod⟩, toInt_ofNat_eq_iff.mpr hsmall]
      rw [if_pos ⟨hfirst.ne_nil, hfirst.allDigits⟩] at hannounced
      refine ⟨?_, ?_, ?_⟩
      · intro fuel hfuel c rest
        refine ⟨_, _, readHeaders_block hblock hfuel c rest, ?_⟩
        rw [hannounced, Option.map_some, heq]
        intro contentLength hlength
        rw [← Option.some.inj hlength]
        exact toInt_ofNat_eq_iff.mpr hsmall
      · intro fuel c rest e in' hread
        have hresult := readMessage_of_announced hblock hread
        rw [hannounced, Option.elim_some, heq] at hresult
        exact (readBody_small hsmall _).1 e hresult.symm
      · intro fuel c rest body in' hread
        have hresult := readMessage_of_announced hblock hread
        rw [hannounced, Option.elim_some, heq] at hresult
        exact (readBody_small hsmall _).2 body hresult.symm
    · -- no number is read, so the message is refused
      rw [if_neg fun hall => hfirst ⟨hall.1, hall.2⟩] at hannounced
      refine ⟨?_, ?_, ?_⟩
      · intro fuel hfuel c rest
        refine ⟨_, _, readHeaders_block hblock hfuel c rest, ?_⟩
        rw [hannounced]
        exact nofun
      · intro fuel c rest e in' hread
        have hresult := readMessage_of_announced hblock hread
        rw [hannounced] at hresult
        cases hresult
      · intro fuel c rest body in' hread
        have hresult := readMessage_of_announced hblock hread
        rw [hannounced] at hresult
        cases hresult

/-- The largest length that is read exactly, behind zeros and another field. -/
theorem readsExactly_sample :
    ReadsExactly (lengthBlock [contentType] (str "002147483647") [lookalike]) 2147483647 := by
  have hfields : OtherFields [contentType] [lookalike] := ⟨by decide, by decide⟩
  have hdigits : IsNumeral (str "002147483647") := ⟨by decide, by decide⟩
  exact (readsExactly_iff hfields hdigits).mpr fun _ => by decide

/-- The next number throws, and `2 ^ 32 + 2` bytes are taken for two. -/
theorem not_readsExactly :
    readMessage 30 0 (.ofBytes (lengthBlock [] (str "2147483648") []))
        = some (.threw .lengthError, .ofBytes []) ∧
      readMessage 30 0 (.ofBytes (lengthBlock [] (str "4294967298") [] ++ str "ab"))
        = some (.body (str "ab"), .ofBytes []) ∧
      ¬ ReadsExactly (lengthBlock [] (str "4294967298") []) 4294967298 := by
  have hbody : readMessage 30 0 (.ofBytes (lengthBlock [] (str "4294967298") [] ++ str "ab"))
      = some (.body (str "ab"), .ofBytes []) := by decide
  refine ⟨by decide, hbody, ?_⟩
  intro hexact
  exact absurd (hexact.bodyLength _ _ _ _ _ hbody) (by decide)

end CLSP
