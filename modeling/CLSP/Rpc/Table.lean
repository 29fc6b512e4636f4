import CLSP.Lib.Decimal
import CLSP.Rpc.JsonRpc

/-!
# A library over a table of texts

`Nlohmann.ofTable` prints values in the compact form and parses the texts of a table. It is what
fixed messages are evaluated with; on other texts it reports a syntax error.
-/

namespace CLSP

namespace Json

/-- A character of a string between its quotes, for the escapes that messages need. -/
def printByte (b : UInt8) : Bytes :=
  if b = 0x22 then str "\\\"" else if b = 0x5C then str "\\\\" else [b]

def printString (s : Bytes) : Bytes :=
  [0x22] ++ s.flatMap printByte ++ [0x22]

def printInteger (n : ℤ) : Bytes :=
  if n < 0 then str "-" ++ Decimal.print n.natAbs else Decimal.print n.natAbs

mutual

/-- The compact form; floats are cut off. -/
def print : Json → Bytes
  | .null => str "null"
  | .boolean b => if b then str "true" else str "false"
  | .integer n => printInteger n
  | .float q => printInteger (q.num.tdiv q.den)
  | .string s => printString s
  | .array elems => str "[" ++ printElems elems ++ str "]"
  | .object members => str "\x7b" ++ printMembers members ++ str "\x7d"

def printElems : List Json → Bytes
  | [] => []
  | [j] => print j
  | j :: elems => print j ++ str "," ++ printElems elems

def printMembers : List (Bytes × Json) → Bytes
  | [] => []
  | [(key, j)] => printString key ++ str ":" ++ print j
  | (key, j) :: members => printString key ++ str ":" ++ print j ++ str "," ++ printMembers members

end

end Json

/-- The library that knows the texts of a table. -/
def Nlohmann.ofTable (table : List (Bytes × Except ParseException Json)) : Nlohmann where
  parse raw := (table.lookup raw).getD (.error .parseError)
  dump j := .ok j.print

lemma Nlohmann.mem_of_parse_ofTable {table : List (Bytes × Except ParseException Json)}
    {raw : Bytes} {j : Json} (h : (Nlohmann.ofTable table).parse raw = .ok j) :
    (raw, .ok j) ∈ table := by
  have hparse : (table.lookup raw).getD (.error .parseError) = .ok j := h
  have hlookup : table.lookup raw = some (.ok j) := by
    rcases heq : table.lookup raw with _ | r
    · rw [heq] at hparse
      exact absurd hparse (by simp)
    · rw [heq] at hparse
      exact congrArg some hparse
  rcases List.lookup_eq_some_iff.mp hlookup with ⟨_, _, rfl, -⟩
  simp

lemma Nlohmann.documented_ofTable {table : List (Bytes × Except ParseException Json)}
    (h : ∀ entry ∈ table, ∀ j, entry.2 = .ok j → j.ValidUtf8) :
    (Nlohmann.ofTable table).Documented := by
  refine ⟨?_, ?_, ?_⟩
  · intro raw j hparse
    exact h (raw, .ok j) (mem_of_parse_ofTable hparse) j rfl
  · intro j _
    exact ⟨j.print, rfl⟩
  · intro j what hdump
    exact absurd hdump (by simp [Nlohmann.ofTable])

/-- The library that knows the frames of a list, as their serializers write them. -/
def Nlohmann.ofFrames (frames : List Frame) : Nlohmann :=
  .ofTable (frames.map fun frame => (frame.json.print, .ok frame.json))

lemma Nlohmann.exists_of_parse_ofFrames {frames : List Frame} {raw : Bytes} {j : Json}
    (h : (Nlohmann.ofFrames frames).parse raw = .ok j) : ∃ frame ∈ frames, j = frame.json := by
  rcases List.mem_map.mp (mem_of_parse_ofTable h) with ⟨frame, hframe, heq⟩
  exact ⟨frame, hframe, (Except.ok.inj (Prod.mk.inj heq).2).symm⟩

lemma Nlohmann.documented_ofFrames {frames : List Frame} (h : ∀ frame ∈ frames, frame.ValidUtf8) :
    (Nlohmann.ofFrames frames).Documented := by
  apply documented_ofTable
  intro entry hentry j hj
  rcases List.mem_map.mp hentry with ⟨frame, hframe, rfl⟩
  rw [← Except.ok.inj hj]
  exact (h frame hframe).json

/-! ## Strings that cannot be printed -/

/-- The library whose `dump` refuses strings that are not valid UTF-8. -/
def Nlohmann.strict (nl : Nlohmann) : Nlohmann where
  parse := nl.parse
  dump j :=
    if j.ValidUtf8 then nl.dump j
    else .error (str "[json.exception.type_error.316] invalid UTF-8 byte at index 0: 0xFF")

lemma Nlohmann.strict_strict (nl : Nlohmann) : nl.strict.Strict := by
  intro j hj
  exact ⟨_, if_neg hj⟩

lemma Nlohmann.Documented.strict {nl : Nlohmann} (h : nl.Documented) : nl.strict.Documented := by
  refine ⟨h.parse_valid, ?_, ?_⟩
  · intro j hj
    rcases h.dump_valid j hj with ⟨text, htext⟩
    exact ⟨text, (if_pos hj).trans htext⟩
  · intro j what hdump
    by_cases hj : j.ValidUtf8
    · exact h.what_valid j what ((if_pos hj).symm.trans hdump)
    · have hwhat := Except.error.inj ((if_neg hj).symm.trans hdump)
      rw [← hwhat]
      exact valid_str _

end CLSP
