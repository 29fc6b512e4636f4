import CLSP.Stdio.StdioTransport

/-!
# When the reader comes back, and what it reads

One call of `readMessage` on a good stream has three outcomes: without a header block it never
comes back, and after one it either reads the announced body or gives up (`readMessage_block`,
`readMessage_eq_none`). From these follow the framing round trip and the inputs on which every
call comes back.
-/

namespace CLSP

open Search (Terminated)

/-! ## Streams -/

lemma IStream.read_ofBytes_append (as rest : Bytes) :
    (IStream.ofBytes (as ++ rest)).read as.length = (as, .ofBytes rest) := by
  simp [IStream.read, IStream.ofBytes]

lemma IStream.read_ofBytes_short {rest : Bytes} {n : ℕ} (h : rest.length < n) :
    (IStream.ofBytes rest).read n = (rest, { rest := [], eof := true, fail := true }) := by
  simp [IStream.read, IStream.ofBytes, Nat.not_le.mpr h]

lemma IStream.read_of_fail {in_ : IStream} {n : ℕ} (h : in_.fail = true) :
    (in_.read n).1 = [] ∧ (in_.read n).2.fail = true := by
  simp [IStream.read, h]

/-! ## The header loop -/

lemma exists_last_four {h : Bytes} (hlen : 4 ≤ h.length) :
    ∃ p a b c d, h = p ++ [a, b, c, d] := by
  have hdrop : (h.drop (h.length - 4)).length = 4 := by
    rw [List.length_drop]
    omega
  rcases List.length_eq_four.mp hdrop with ⟨a, b, c, d, heq⟩
  exact ⟨h.take (h.length - 4), a, b, c, d, by rw [← heq, List.take_append_drop]⟩

/-- The index tests of the loop say that what has been read ends with the empty line. -/
lemma endsHeader_iff {headers : Bytes} : endsHeader headers = true ↔ crlfcrlf <:+ headers := by
  by_cases hlen : 4 ≤ headers.length
  · rcases exists_last_four hlen with ⟨p, a, b, c, d, rfl⟩
    have hsuf : crlfcrlf <:+ p ++ [a, b, c, d] ↔ [a, b, c, d] = crlfcrlf := by
      rw [List.suffix_iff_eq_drop, eq_comm]
      simp [crlfcrlf]
    rw [hsuf]
    simp [endsHeader, crlfcrlf, List.getD, and_assoc]
  · have hno : ¬ crlfcrlf <:+ headers := fun h => hlen h.length_le
    simp [endsHeader, hno, hlen]

/-- One round of the loop. -/
lemma headerLoop_succ (fuel : ℕ) (c : UInt8) (headers : Bytes) (in_ : IStream) :
    headerLoop (fuel + 1) c headers in_ =
      if endsHeader (headers ++ [(in_.read 1).1.headD c]) then
        some (headers ++ [(in_.read 1).1.headD c], (in_.read 1).2)
      else
        headerLoop fuel ((in_.read 1).1.headD c) (headers ++ [(in_.read 1).1.headD c])
          (in_.read 1).2 := rfl

/-- The same on a good stream with a byte left. -/
lemma headerLoop_cons (fuel : ℕ) (c b : UInt8) (headers rest : Bytes) :
    headerLoop (fuel + 1) c headers (.ofBytes (b :: rest)) =
      if endsHeader (headers ++ [b]) then some (headers ++ [b], .ofBytes rest)
      else headerLoop fuel b (headers ++ [b]) (.ofBytes rest) := by
  have hread : (IStream.ofBytes (b :: rest)).read 1 = ([b], .ofBytes rest) :=
    IStream.read_ofBytes_append [b] rest
  rw [headerLoop_succ, hread]
  rfl

/-- On a good stream the loop reads up to the end of the first header block. -/
lemma headerLoop_block {headers tail : Bytes} (hne : tail ≠ [])
    (h : Terminated crlfcrlf (headers ++ tail)) {fuel : ℕ} (hfuel : tail.length ≤ fuel) (c : UInt8)
    (rest : Bytes) :
    headerLoop fuel c headers (.ofBytes (tail ++ rest)) =
      some (headers ++ tail, .ofBytes rest) := by
  -- on what is left of the block, which ends with the first empty line
  induction tail generalizing headers fuel c with
  | nil => exact absurd rfl hne
  | cons b tail ih =>
    rcases fuel with _ | fuel
    · exact absurd hfuel (by simp)
    rw [List.cons_append, headerLoop_cons]
    rcases tail with _ | ⟨b', tail⟩
    · rw [if_pos (endsHeader_iff.mpr h.1)]
      rfl
    · have happ : headers ++ b :: b' :: tail = headers ++ [b] ++ b' :: tail := by simp
      have hends : ¬ endsHeader (headers ++ [b]) = true := by
        intro hends
        have := h.2 (headers ++ [b]) (happ ▸ List.prefix_append _ _) (endsHeader_iff.mp hends)
        have hlen := congrArg List.length this
        simp at hlen
      rw [if_neg hends, happ]
      exact ih (by simp) (happ ▸ h) (by simpa using hfuel) b

/-- Once reads fail, the loop repeats one character for ever and never sees the empty line. -/
lemma headerLoop_stuck {headers : Bytes} {c : UInt8}
    (hlast : headers = [] ∨ headers.getLast? = some c) (fuel : ℕ) (in_ : IStream)
    (hread : (in_.read 1).1 = [] ∧ (in_.read 1).2.fail = true) :
    headerLoop fuel c headers in_ = none := by
  -- on the fuel: every round appends `c` once more
  induction fuel generalizing headers in_ with
  | zero => rfl
  | succ fuel ih =>
    have hc : (in_.read 1).1.headD c = c := by rw [hread.1]; rfl
    have hends : ¬ endsHeader (headers ++ [c]) = true := by
      intro hends
      have hsuf := endsHeader_iff.mp hends
      have hnl : c = newline := by
        have := Search.suffix_append_singleton (by decide) hsuf
        exact (Option.some.inj this).symm
      -- the character before the last one is the same, but should be a '\r'
      rcases hlast with rfl | hlast
      · exact absurd hsuf.length_le (by simp [crlfcrlf])
      · rcases hsuf with ⟨p, hp⟩
        have hinit : p ++ [carriageReturn, newline, carriageReturn] = headers := by
          have happ : p ++ crlfcrlf =
              p ++ [carriageReturn, newline, carriageReturn] ++ [newline] := by
            simp [crlfcrlf]
          rw [happ] at hp
          exact (List.append_inj' hp rfl).1
        rw [← hinit, List.getLast?_append_of_ne_nil _ (by simp)] at hlast
        have hcr : carriageReturn = c := by simpa using hlast
        rw [hnl] at hcr
        exact absurd hcr (by decide)
    rw [headerLoop_succ, hc, if_neg hends]
    exact ih (Or.inr (by simp)) _ (IStream.read_of_fail hread.2)

/-- Without an empty line ahead the loop does not end. -/
lemma headerLoop_eq_none {headers rest : Bytes} {c : UInt8}
    (hlast : headers = [] ∨ headers.getLast? = some c) (h : ¬ crlfcrlf <:+: headers ++ rest)
    (fuel : ℕ) : headerLoop fuel c headers (.ofBytes rest) = none := by
  induction rest generalizing headers c fuel with
  | nil => exact headerLoop_stuck hlast fuel _ ⟨rfl, rfl⟩
  | cons b rest ih =>
    rcases fuel with _ | fuel
    · rfl
    have happ : headers ++ b :: rest = headers ++ [b] ++ rest := by simp
    rw [happ] at h
    have hends : ¬ endsHeader (headers ++ [b]) = true := fun hends =>
      h (List.infix_append_of_infix_left (endsHeader_iff.mp hends).isInfix)
    rw [headerLoop_cons, if_neg hends]
    exact ih (Or.inr (by simp)) h fuel

/-- More fuel does not change how the loop ends. -/
lemma headerLoop_mono {fuel fuel' : ℕ} (hle : fuel ≤ fuel') {c : UInt8} {headers : Bytes}
    {in_ : IStream} {r : Bytes × IStream} (h : headerLoop fuel c headers in_ = some r) :
    headerLoop fuel' c headers in_ = some r := by
  induction fuel generalizing fuel' c headers in_ with
  | zero => exact absurd h (by simp [headerLoop])
  | succ fuel ih =>
    rcases fuel' with _ | fuel'
    · omega
    rw [headerLoop_succ] at h ⊢
    split at h
    · next hends => rw [if_pos hends, h]
    · next hends => rw [if_neg hends, ih (by omega) h]

/-! ## The announced length -/

/-- The number a header block announces: the decimal digits between the first key and the next
`'\r'`. -/
def announced (block : Bytes) : Option ℕ :=
  match valueStr block with
  | none => none
  | some digits =>
    if digits ≠ [] ∧ Decimal.AllDigits digits then some (Decimal.value digits) else none

/-- The digit loop computes the value modulo `2 ^ 32`. -/
lemma digitLoop_eq (n : ℕ) (digits : Bytes) :
    digitLoop (Int32.ofNat n) digits =
      if Decimal.AllDigits digits then some (Int32.ofNat (Decimal.valueFrom n digits))
      else none := by
  induction digits generalizing n with
  | nil =>
    rw [digitLoop, if_pos Decimal.allDigits_nil]
    rfl
  | cons b digits ih =>
    rw [digitLoop]
    by_cases hb : Decimal.IsDigit b
    · -- one round does modulo `2 ^ 32` what `valueFrom` does in `ℕ`
      have hstep : Int32.ofNat n * 10 + Int32.ofNat (b.toNat - 48)
          = Int32.ofNat (n * 10 + (b.toNat - 48)) := by
        rw [Int32.ofNat_add, Int32.ofNat_mul]
        rfl
      rw [if_pos hb, hstep, ih]
      simp only [Decimal.allDigits_cons, hb, true_and]
      rfl
    · rw [if_neg hb, if_neg fun h => hb (Decimal.allDigits_cons.mp h).1]

/-- What `readHeaders` makes of a block is the announced number, in 32 bits. -/
lemma parseContentLength_eq (block : Bytes) :
    parseContentLength block = (announced block).map Int32.ofNat := by
  unfold parseContentLength announced
  rcases valueStr block with _ | digits
  · rfl
  · show (if digits = [] then none else digitLoop (Int32.ofNat 0) digits) =
      (if digits ≠ [] ∧ Decimal.AllDigits digits then some (Decimal.value digits)
        else none).map Int32.ofNat
    rw [digitLoop_eq, apply_ite (Option.map Int32.ofNat)]
    by_cases hnil : digits = []
    · simp [hnil]
    · simp [hnil, Decimal.value]

lemma toInt_ofNat_mod (v : ℕ) :
    (Int32.ofNat v).toInt =
      if v % 2 ^ 32 < 2 ^ 31 then ((v % 2 ^ 32 : ℕ) : ℤ) else ((v % 2 ^ 32 : ℕ) : ℤ) - 2 ^ 32 := by
  rw [Int32.toInt_ofNat', Int.bmod, show Int32.size = 2 ^ 32 from rfl]
  split_ifs <;> omega

/-- A length that turns negative throws. -/
lemma readBody_threw {v : ℕ} (h : 2 ^ 31 ≤ v % 2 ^ 32) (in_ : IStream) :
    readBody (Int32.ofNat v) in_ = (.threw .lengthError, in_) := by
  have hneg : Int32.ofNat v < 0 := by
    rw [Int32.lt_iff_toInt_lt, toInt_ofNat_mod, if_neg (Nat.not_lt.mpr h), Int32.toInt_zero]
    have := Nat.mod_lt v (show 2 ^ 32 > 0 by decide)
    omega
  rw [readBody, if_pos hneg]

/-- Otherwise the value modulo `2 ^ 32` is read. -/
lemma readBody_eq {v : ℕ} (h : v % 2 ^ 32 < 2 ^ 31) (in_ : IStream) :
    readBody (Int32.ofNat v) in_ =
      if (in_.read (v % 2 ^ 32)).2.fail then (.nullopt, (in_.read (v % 2 ^ 32)).2)
      else (.body (in_.read (v % 2 ^ 32)).1, (in_.read (v % 2 ^ 32)).2) := by
  have hint : (Int32.ofNat v).toInt = ((v % 2 ^ 32 : ℕ) : ℤ) := by rw [toInt_ofNat_mod, if_pos h]
  have hnonneg : ¬ Int32.ofNat v < 0 := by
    rw [Int32.lt_iff_toInt_lt, hint, Int32.toInt_zero]
    omega
  rw [readBody, if_neg hnonneg, hint, Int.toNat_natCast]

/-! ## One call -/

/-- The headers of a stream that starts with a header block. -/
lemma readHeaders_block {block : Bytes} (h : Terminated crlfcrlf block) {fuel : ℕ}
    (hfuel : block.length ≤ fuel) (c : UInt8) (rest : Bytes) :
    readHeaders fuel c (.ofBytes (block ++ rest)) =
      some ((announced block).map Int32.ofNat, .ofBytes rest) := by
  have hne : block ≠ [] := by
    intro heq
    subst heq
    exact absurd h.1.length_le (by simp [crlfcrlf])
  have hempty : Terminated crlfcrlf ([] ++ block) := h
  have hloop : headerLoop fuel c [] (.ofBytes (block ++ rest)) = some (block, .ofBytes rest) :=
    headerLoop_block hne hempty hfuel c rest
  rw [readHeaders, hloop, ← parseContentLength_eq]
  rfl

/-- A call on a stream that starts with a header block. -/
lemma readMessage_block {block : Bytes} (h : Terminated crlfcrlf block) {fuel : ℕ}
    (hfuel : block.length ≤ fuel) (c : UInt8) (rest : Bytes) :
    readMessage fuel c (.ofBytes (block ++ rest)) =
      some (match announced block with
        | none => (.nullopt, .ofBytes rest)
        | some v => readBody (Int32.ofNat v) (.ofBytes rest)) := by
  rw [readMessage, readHeaders_block h hfuel]
  rcases announced block with _ | v <;> rfl

/-- A call on a stream without a header block does not come back. -/
lemma readMessage_eq_none {rest : Bytes} (h : ¬ crlfcrlf <:+: rest) (fuel : ℕ) (c : UInt8) :
    readMessage fuel c (.ofBytes rest) = none := by
  have hloop : headerLoop fuel c [] (.ofBytes rest) = none :=
    headerLoop_eq_none (Or.inl rfl) h fuel
  rw [readMessage, readHeaders, hloop]
  rfl

/-- After a short read every call gives up at once. -/
lemma readMessage_of_fail {in_ : IStream} (h : in_.fail = true) (fuel : ℕ) (c : UInt8) :
    readMessage fuel c in_ = some (.nullopt, in_) := by
  simp [readMessage, readHeaders, h]

lemma readMessage_mono {fuel fuel' : ℕ} (hle : fuel ≤ fuel') {c : UInt8} {in_ : IStream}
    {r : ReadResult × IStream} (h : readMessage fuel c in_ = some r) :
    readMessage fuel' c in_ = some r := by
  unfold readMessage readHeaders at h ⊢
  split_ifs at h ⊢ with hgood
  · exact h
  · rcases hloop : headerLoop fuel c [] in_ with _ | r'
    · rw [hloop] at h
      exact absurd h (by simp)
    · rw [headerLoop_mono hle hloop, ← hloop]
      exact h

lemma readMessages_mono {fuel fuel' : ℕ} (hle : fuel ≤ fuel') {cs : List UInt8} {in_ : IStream}
    {r : List ReadResult × IStream} (h : readMessages fuel cs in_ = some r) :
    readMessages fuel' cs in_ = some r := by
  induction cs generalizing in_ r with
  | nil => exact h
  | cons c cs ih =>
    rw [readMessages, Option.bind_eq_some_iff] at h ⊢
    rcases h with ⟨r₁, hcall, h⟩
    rcases Option.map_eq_some_iff.mp h with ⟨rs, hrest, rfl⟩
    refine ⟨r₁, readMessage_mono hle hcall, ?_⟩
    rw [ih hrest]
    rfl

/-! ## The framing round trip -/

/-- The header of a frame is a terminated block. -/
lemma terminated_frame_header (n : ℕ) :
    Terminated crlfcrlf (contentLengthKey ++ Decimal.print n ++ crlfcrlf) := by
  apply Search.terminated_append
  intro h
  rcases List.mem_append.mp h with h | h
  · exact absurd h (by decide)
  · exact absurd (Decimal.isDigit_of_mem_print h) (by decide)

/-- The header of a frame announces the printed length. -/
lemma announced_frame_header (n : ℕ) :
    announced (contentLengthKey ++ Decimal.print n ++ crlfcrlf) = some n := by
  have hfind : Search.find? contentLengthKey (contentLengthKey ++ Decimal.print n ++ crlfcrlf)
      = some 0 := by
    apply Search.find?_of_prefix
    rw [List.append_assoc]
    exact List.prefix_append _ _
  -- the value ends at the first `'\r'`, which is no digit
  have hdigits : ∀ b ∈ Decimal.print n, (decide (b ≠ carriageReturn)) = true := by
    intro b hb
    have hdigit := Decimal.isDigit_of_mem_print hb
    rw [decide_eq_true_iff]
    intro heq
    subst heq
    exact absurd hdigit (by decide)
  have hvalue : valueStr (contentLengthKey ++ Decimal.print n ++ crlfcrlf)
      = some (Decimal.print n) := by
    rw [valueStr, hfind, Option.map_some, Nat.zero_add, List.append_assoc, List.drop_left,
      List.takeWhile_append_of_pos hdigits]
    simp [crlfcrlf]
  rw [announced, hvalue]
  show (if _ then _ else _) = _
  rw [if_pos ⟨Decimal.print_ne_nil n, fun b => Decimal.isDigit_of_mem_print⟩, Decimal.value_print]

/-- One frame is read back and leaves what follows it. -/
lemma readMessage_frame {body : Bytes} (hlen : body.length < 2 ^ 31) {fuel : ℕ}
    (hfuel : (frame body).length ≤ fuel) (c : UInt8) (rest : Bytes) :
    readMessage fuel c (.ofBytes (frame body ++ rest)) = some (.body body, .ofBytes rest) := by
  have hmod : body.length % 2 ^ 32 = body.length := Nat.mod_eq_of_lt (by omega)
  have hheader : (contentLengthKey ++ Decimal.print body.length ++ crlfcrlf).length ≤ fuel := by
    rw [frame, List.length_append] at hfuel
    omega
  rw [frame, List.append_assoc, readMessage_block (terminated_frame_header _) hheader,
    announced_frame_header]
  show some (readBody _ _) = _
  rw [readBody_eq (by omega), hmod, IStream.read_ofBytes_append]
  rfl

lemma foldl_sendMessage (bodies : List Bytes) (out_ : Bytes) :
    bodies.foldl sendMessage out_ = out_ ++ bodies.flatMap frame := by
  induction bodies generalizing out_ with
  | nil => simp
  | cons body bodies ih => simp [ih, sendMessage]

lemma readMessages_frames {bodies : List Bytes} (hlen : ∀ b ∈ bodies, b.length < 2 ^ 31)
    {cs : List UInt8} (hcs : cs.length = bodies.length) {fuel : ℕ}
    (hfuel : (bodies.flatMap frame).length ≤ fuel) (rest : Bytes) :
    readMessages fuel cs (.ofBytes (bodies.flatMap frame ++ rest)) =
      some (bodies.map .body, .ofBytes rest) := by
  -- each frame is read from where the one before has ended
  induction bodies generalizing cs with
  | nil =>
    rw [List.length_eq_zero_iff.mp hcs]
    rfl
  | cons body bodies ih =>
    rcases List.exists_cons_of_length_eq_add_one hcs with ⟨c, cs, rfl⟩
    rw [List.flatMap_cons, List.length_append] at hfuel
    rw [readMessages, List.flatMap_cons, List.append_assoc,
      readMessage_frame (hlen body (by simp)) (by omega), Option.bind_some,
      ih (fun b hb => hlen b (by simp [hb])) (by simpa using hcs) (by omega)]
    rfl

/-- Bodies written with `sendMessage` are read back in order, and what follows them is left
unread. -/
theorem readMessages_sendMessage (bodies : List Bytes) (trailing : Bytes) (cs : List UInt8)
    (hlen : ∀ b ∈ bodies, b.length ≤ 2 ^ 31 - 1) (hcs : cs.length = bodies.length) :
    ∃ fuel₀, ∀ fuel ≥ fuel₀,
      readMessages fuel cs (.ofBytes (bodies.foldl sendMessage [] ++ trailing)) =
        some (bodies.map .body, .ofBytes trailing) := by
  refine ⟨(bodies.flatMap frame).length, ?_⟩
  intro fuel hfuel
  rw [foldl_sendMessage, List.nil_append]
  apply readMessages_frames _ hcs hfuel
  intro b hb
  have := hlen b hb
  omega

/-- An empty body, and one that looks like a header, before an unfinished header. -/
theorem readMessages_sendMessage_sample :
    ∃ fuel₀, ∀ fuel ≥ fuel₀,
      readMessages fuel [0, 0]
          (.ofBytes ([[], str "Content-Length: 7\r\n\r\n"].foldl sendMessage [] ++ str "Con")) =
        some ([.body [], .body (str "Content-Length: 7\r\n\r\n")], .ofBytes (str "Con")) :=
  readMessages_sendMessage [[], str "Content-Length: 7\r\n\r\n"] (str "Con") [0, 0]
    (by decide) rfl

/-! ## When every call comes back -/

/-- The peer is gone: what is left ends before a header block, inside one, or inside a body. -/
def Disconnected (rest : Bytes) : Prop :=
  ¬ crlfcrlf <:+: rest ∨
    ∃ block body v, rest = block ++ body ∧ Terminated crlfcrlf block ∧
      announced block = some v ∧ body.length < v

/-- What the read loop expects of the calls on a stream: any number of them finish without an
exception, a call after the peer is gone gives up, and in the end some call does. -/
structure ComesBack (in_ : IStream) : Prop where
  finishes : ∀ cs, ∃ fuel rs in', readMessages fuel cs in_ = some (rs, in') ∧
    ∀ e, ReadResult.threw e ∉ rs
  gives_up : ∀ fuel cs c rs in' r in'', readMessages fuel cs in_ = some (rs, in') →
    readMessage fuel c in' = some (r, in'') → Disconnected in'.rest → r = .nullopt
  leaves : ∃ k, ∀ cs, cs.length = k → ∃ fuel rs in', readMessages fuel cs in_ = some (rs, in') ∧
    ReadResult.nullopt ∈ rs

/-- The input runs out strictly inside a body. It is cut into header blocks, which end at their
first empty line, and the bodies they announce; a block without a length has no body. The lengths
are below `2 ^ 31` modulo `2 ^ 32`. -/
inductive EndsInBody : Bytes → Prop
  | inBody {block body : Bytes} {v : ℕ} : Terminated crlfcrlf block → announced block = some v →
      v % 2 ^ 32 < 2 ^ 31 → body.length < v % 2 ^ 32 → EndsInBody (block ++ body)
  | afterBody {block body rest : Bytes} {v : ℕ} : Terminated crlfcrlf block →
      announced block = some v → v % 2 ^ 32 < 2 ^ 31 → body.length = v % 2 ^ 32 →
      v ≤ (body ++ rest).length → EndsInBody rest → EndsInBody (block ++ (body ++ rest))
  | afterBlock {block rest : Bytes} : Terminated crlfcrlf block → announced block = none →
      EndsInBody rest → EndsInBody (block ++ rest)

/-- A call that returns the same whatever the character was, from some fuel on. -/
def Returns (in_ : IStream) (r : ReadResult) (in' : IStream) : Prop :=
  ∃ fuel₀, ∀ fuel ≥ fuel₀, ∀ c, readMessage fuel c in_ = some (r, in')

lemma Returns.eq {in_ in' in'' : IStream} {r r' : ReadResult} (h : Returns in_ r in')
    {fuel : ℕ} {c : UInt8} (h' : readMessage fuel c in_ = some (r', in'')) :
    r' = r ∧ in'' = in' := by
  rcases h with ⟨fuel₀, h⟩
  have hmax := h (max fuel fuel₀) (Nat.le_max_right _ _) c
  rw [readMessage_mono (Nat.le_max_left _ _) h'] at hmax
  simpa using hmax

/-- The calls after one that returns. -/
lemma Returns.readMessages {in_ in' in'' : IStream} {r : ReadResult} (h : Returns in_ r in')
    {fuel : ℕ} {cs : List UInt8} {rs : List ReadResult}
    (h' : readMessages fuel cs in' = some (rs, in'')) (c : UInt8) :
    ∃ fuel' ≥ fuel, readMessages fuel' (c :: cs) in_ = some (r :: rs, in'') := by
  rcases h with ⟨fuel₀, h⟩
  refine ⟨max fuel fuel₀, Nat.le_max_left _ _, ?_⟩
  rw [CLSP.readMessages, h _ (Nat.le_max_right _ _), Option.bind_some,
    readMessages_mono (Nat.le_max_left _ _) h']
  rfl

/-- Conversely the calls after the first continue from where it has left the stream. -/
lemma Returns.of_readMessages {in_ in' in'' : IStream} {r : ReadResult} (h : Returns in_ r in')
    {fuel : ℕ} {c : UInt8} {cs : List UInt8} {rs : List ReadResult}
    (h' : CLSP.readMessages fuel (c :: cs) in_ = some (rs, in'')) :
    ∃ rs', rs = r :: rs' ∧ CLSP.readMessages fuel cs in' = some (rs', in'') := by
  rw [CLSP.readMessages, Option.bind_eq_some_iff] at h'
  rcases h' with ⟨⟨r', in₁⟩, hcall, hrest⟩
  rcases h.eq hcall with ⟨rfl, rfl⟩
  rcases Option.map_eq_some_iff.mp hrest with ⟨⟨rs', in₂⟩, hrest, heq⟩
  have heq' : r' :: rs' = rs ∧ in₂ = in'' := by simpa using heq
  exact ⟨rs', heq'.1.symm, by rw [hrest, heq'.2]⟩

lemma ComesBack.of_fail {in_ : IStream} (h : in_.fail = true) : ComesBack in_ := by
  have hcalls : ∀ fuel cs, readMessages fuel cs in_ = some (cs.map fun _ => .nullopt, in_) := by
    intro fuel cs
    induction cs with
    | nil => rfl
    | cons c cs ih =>
      rw [readMessages, readMessage_of_fail h, Option.bind_some, ih]
      rfl
  refine ⟨?_, ?_, 1, ?_⟩
  · intro cs
    exact ⟨0, _, _, hcalls 0 cs, by simp⟩
  · intro fuel cs c rs in' r in'' hread hcall _
    rw [hcalls] at hread
    have hin : in_ = in' := by simpa using congrArg (Option.map Prod.snd) hread
    rw [← hin, readMessage_of_fail h] at hcall
    simpa using (congrArg (Option.map Prod.fst) hcall).symm
  · intro cs hcs
    rcases List.length_eq_one_iff.mp hcs with ⟨c, rfl⟩
    exact ⟨0, _, _, hcalls 0 [c], by simp⟩

/-- One call more in front. -/
lemma ComesBack.cons {in_ in' : IStream} {r : ReadResult} (h : Returns in_ r in')
    (hthrew : ∀ e, r ≠ .threw e) (hgone : Disconnected in_.rest → r = .nullopt)
    (hin' : ComesBack in') : ComesBack in_ := by
  refine ⟨?_, ?_, ?_⟩
  · intro cs
    rcases cs with _ | ⟨c, cs⟩
    · exact ⟨0, [], in_, rfl, by simp⟩
    · rcases hin'.finishes cs with ⟨fuel, rs, in'', hrest, hrs⟩
      rcases h.readMessages hrest c with ⟨fuel', -, hall⟩
      refine ⟨fuel', _, _, hall, ?_⟩
      intro e he
      rcases List.mem_cons.mp he with he | he
      · exact hthrew e he.symm
      · exact hrs e he
  · intro fuel cs c rs in₁ r₁ in₂ hread hcall hdis
    rcases cs with _ | ⟨c', cs⟩
    · have heq : ([], in_) = (rs, in₁) := Option.some.inj hread
      have hin : in_ = in₁ := congrArg Prod.snd heq
      rw [← hin] at hcall hdis
      rw [(h.eq hcall).1, hgone hdis]
    · rcases h.of_readMessages hread with ⟨rs', -, hread'⟩
      exact hin'.gives_up fuel cs c rs' in₁ r₁ in₂ hread' hcall hdis
  · rcases hin'.leaves with ⟨k, hk⟩
    refine ⟨k + 1, ?_⟩
    intro cs hcs
    rcases List.exists_cons_of_length_eq_add_one hcs with ⟨c, cs, rfl⟩
    rcases hk cs (by simpa using hcs) with ⟨fuel, rs, in'', hrest, hrs⟩
    rcases h.readMessages hrest c with ⟨fuel', -, hall⟩
    exact ⟨fuel', _, _, hall, List.mem_cons_of_mem _ hrs⟩

/-! The calls on an input that starts with a header block. -/

lemma returns_block {block rest : Bytes} (h : Terminated crlfcrlf block)
    (hnone : announced block = none) :
    Returns (.ofBytes (block ++ rest)) .nullopt (.ofBytes rest) := by
  refine ⟨block.length, ?_⟩
  intro fuel hfuel c
  rw [readMessage_block h hfuel, hnone]

lemma returns_threw {block rest : Bytes} {v : ℕ} (h : Terminated crlfcrlf block)
    (hv : announced block = some v) (hneg : 2 ^ 31 ≤ v % 2 ^ 32) :
    Returns (.ofBytes (block ++ rest)) (.threw .lengthError) (.ofBytes rest) := by
  refine ⟨block.length, ?_⟩
  intro fuel hfuel c
  rw [readMessage_block h hfuel, hv]
  exact congrArg some (readBody_threw hneg _)

lemma returns_body {block body rest : Bytes} {v : ℕ} (h : Terminated crlfcrlf block)
    (hv : announced block = some v) (hpos : v % 2 ^ 32 < 2 ^ 31)
    (hlen : body.length = v % 2 ^ 32) :
    Returns (.ofBytes (block ++ (body ++ rest))) (.body body) (.ofBytes rest) := by
  refine ⟨block.length, ?_⟩
  intro fuel hfuel c
  rw [readMessage_block h hfuel, hv]
  show some (readBody _ _) = _
  rw [readBody_eq hpos, ← hlen, IStream.read_ofBytes_append]
  rfl

lemma returns_short {block body : Bytes} {v : ℕ} (h : Terminated crlfcrlf block)
    (hv : announced block = some v) (hpos : v % 2 ^ 32 < 2 ^ 31)
    (hlen : body.length < v % 2 ^ 32) :
    Returns (.ofBytes (block ++ body)) .nullopt { rest := [], eof := true, fail := true } := by
  refine ⟨block.length, ?_⟩
  intro fuel hfuel c
  rw [readMessage_block h hfuel, hv]
  show some (readBody _ _) = _
  rw [readBody_eq hpos, IStream.read_ofBytes_short hlen]
  rfl

/-- Nothing is missing of a body that is all there. -/
lemma not_disconnected {block body : Bytes} {v : ℕ} (h : Terminated crlfcrlf block)
    (hv : announced block = some v) (hlen : v ≤ body.length) : ¬ Disconnected (block ++ body) := by
  intro hdis
  rcases hdis with hno | ⟨block', body', v', heq, h', hv', hshort⟩
  · exact hno (List.infix_append_of_infix_left h.1.isInfix)
  · rcases h.unique h' heq with ⟨rfl, rfl⟩
    rw [hv] at hv'
    have hvv : v = v' := Option.some.inj hv'
    omega

lemma comesBack_of_endsInBody {inp : Bytes} (h : EndsInBody inp) : ComesBack (.ofBytes inp) := by
  -- one call for each block of the input
  induction h with
  | inBody hblock hv hpos hlen =>
    exact .cons (returns_short hblock hv hpos hlen) (by simp) (fun _ => rfl) (.of_fail rfl)
  | afterBody hblock hv hpos hlen hall _ ih =>
    exact .cons (returns_body hblock hv hpos hlen) (by simp)
      (fun hdis => absurd hdis (not_disconnected hblock hv hall)) ih
  | afterBlock hblock hnone _ ih =>
    exact .cons (returns_block hblock hnone) (by simp) (fun _ => rfl) ih

/-- A stream on which calls finish starts with a header block. -/
lemma exists_block_of_finishes {inp : Bytes}
    (h : ∃ fuel rs in', readMessages fuel [0] (.ofBytes inp) = some (rs, in')) :
    ∃ block rest, inp = block ++ rest ∧ Terminated crlfcrlf block := by
  rcases h with ⟨fuel, rs, in', h⟩
  apply Search.exists_terminated
  by_contra hno
  rw [readMessages, readMessage_eq_none hno] at h
  exact absurd h (by simp)

/-- The two facts about the calls go over to the stream one call has left. -/
lemma endsInBody_of_comesBack {inp : Bytes}
    (hfin : ∀ cs, ∃ fuel rs in', readMessages fuel cs (.ofBytes inp) = some (rs, in') ∧
      ∀ e, ReadResult.threw e ∉ rs)
    (hgone : ∀ fuel cs c rs in' r in'', readMessages fuel cs (.ofBytes inp) = some (rs, in') →
      readMessage fuel c in' = some (r, in'') → Disconnected in'.rest → r = .nullopt) :
    EndsInBody inp := by
  -- on the length: a call takes a block, and the body it announces, off the front
  induction hn : inp.length using Nat.strong_induction_on generalizing inp with
  | _ n ih =>
    rcases exists_block_of_finishes (by
      rcases hfin [0] with ⟨fuel, rs, in', h, -⟩
      exact ⟨fuel, rs, in', h⟩) with ⟨block, rest, rfl, hblock⟩
    -- whatever one call leaves, both facts hold of it
    have hnext : ∀ r rest', Returns (.ofBytes (block ++ rest)) r (.ofBytes rest') →
        rest'.length ≤ rest.length → EndsInBody rest' := by
      intro r rest' hret hle
      have hpos : 4 ≤ block.length := hblock.1.length_le
      apply ih rest'.length (by rw [← hn, List.length_append]; omega) _ _ rfl
      · intro cs
        rcases hfin (0 :: cs) with ⟨fuel, rs, in', hread, hrs⟩
        rcases hret.of_readMessages hread with ⟨rs', rfl, hread'⟩
        exact ⟨fuel, rs', in', hread', fun e he => hrs e (List.mem_cons_of_mem _ he)⟩
      · intro fuel cs c rs in' r' in'' hread hcall
        rcases hret.readMessages hread 0 with ⟨fuel', hle', hread'⟩
        exact hgone fuel' (0 :: cs) c _ in' r' in'' hread' (readMessage_mono hle' hcall)
    rcases hv : announced block with _ | v
    · exact .afterBlock hblock hv (hnext _ rest (returns_block hblock hv) le_rfl)
    -- a length that turns negative makes the call throw
    have hsmall : v % 2 ^ 32 < 2 ^ 31 := by
      by_contra hbig
      rcases hfin [0] with ⟨fuel, rs, in', hread, hrs⟩
      rcases (returns_threw hblock hv (Nat.not_lt.mp hbig)).of_readMessages hread with ⟨rs', rfl, -⟩
      exact hrs _ (List.mem_cons_self)
    -- the input ends inside this body, or there is a next call
    by_cases hshort : rest.length < v % 2 ^ 32
    · exact .inBody hblock hv hsmall hshort
    have hsplit : rest = rest.take (v % 2 ^ 32) ++ rest.drop (v % 2 ^ 32) := by simp
    have htake : (rest.take (v % 2 ^ 32)).length = v % 2 ^ 32 := by
      rw [List.length_take]
      omega
    have hbody : Returns (.ofBytes (block ++ (rest.take (v % 2 ^ 32) ++ rest.drop (v % 2 ^ 32))))
        (.body (rest.take (v % 2 ^ 32))) (.ofBytes (rest.drop (v % 2 ^ 32))) :=
      returns_body hblock hv hsmall htake
    rw [← hsplit] at hbody
    have hall : v ≤ rest.length := by
      -- a body returned although it is not all there
      by_contra hmissing
      rcases hbody with ⟨fuel, hcall⟩
      have := hgone fuel [] 0 [] _ _ _ rfl (hcall fuel le_rfl 0)
        (Or.inr ⟨block, rest, v, rfl, hblock, hv, Nat.not_le.mp hmissing⟩)
      exact absurd this (by simp)
    rw [hsplit]
    refine .afterBody hblock hv hsmall htake (by rwa [← hsplit]) ?_
    exact hnext _ _ hbody (by rw [List.length_drop]; omega)

/-- Every call comes back exactly on the inputs that run out inside a body. -/
theorem comesBack_iff_endsInBody (inp : Bytes) :
    ComesBack (.ofBytes inp) ↔ EndsInBody inp := by
  constructor
  · intro h
    exact endsInBody_of_comesBack h.finishes h.gives_up
  · exact comesBack_of_endsInBody

/-- A client that disconnects after a whole message: the call for the next one never ends. -/
theorem not_comesBack_disconnect :
    ¬ ComesBack (.ofBytes (str "Content-Length: 2\r\n\r\n\x7b\x7d")) := by
  intro h
  rcases h.finishes [0, 0] with ⟨fuel, rs, in', hread, -⟩
  have hframe : str "Content-Length: 2\r\n\r\n\x7b\x7d" = frame (str "\x7b\x7d") ++ [] := by
    decide +kernel
  rw [hframe] at hread
  have hret : Returns (.ofBytes (frame (str "\x7b\x7d") ++ [])) (.body (str "\x7b\x7d"))
      (.ofBytes []) :=
    ⟨_, fun fuel hfuel c => readMessage_frame (by decide) hfuel c []⟩
  rcases hret.of_readMessages hread with ⟨rs', -, hread'⟩
  rw [readMessages, readMessage_eq_none (by decide)] at hread'
  exact absurd hread' (by simp)

end CLSP
