import CLSP.Bytes
import CLSP.Lib.Transition

/-!
# `SemanticTokensBuilder`

The builder of `protocol/SemanticTokens.hpp`. `std::sort` leaves some sorted permutation of the
tokens, so `build` is a relation; its loop is `buildLoop`. The other side of the protocol reads the
data with `decodeTokens`.
-/

namespace CLSP

/-- `SemanticTokensBuilder::Token` -/
structure Token where
  line : UInt32
  startChar : UInt32
  length : UInt32
  tokenType : UInt32
  tokenModifiers : UInt32
deriving DecidableEq, Repr

/-- `SemanticTokens` -/
structure SemanticTokens where
  resultId : Option Bytes
  data : List UInt32
deriving DecidableEq, Repr

/-- The comparison passed to `std::sort`. -/
def Token.before (a b : Token) : Bool :=
  if a.line ≠ b.line then a.line < b.line else a.startChar < b.startChar

/-- What `std::sort` may make of a range. -/
structure Sorts (tokens sorted : List Token) : Prop where
  perm : sorted.Perm tokens
  sorted : sorted.Pairwise fun a b => b.before a = false

/-- The loop of `build`, from the values of `prevLine`, `prevChar` and `first` on. The differences
are those of `uint32_t`. -/
def buildLoop : List Token → UInt32 → UInt32 → Bool → List UInt32
  | [], _, _, _ => []
  | t :: tokens, prevLine, prevChar, first =>
    let deltaLine := if first then t.line else t.line - prevLine
    let deltaChar := if first ∨ deltaLine ≠ 0 then t.startChar else t.startChar - prevChar
    [deltaLine, deltaChar, t.length, t.tokenType, t.tokenModifiers] ++
      buildLoop tokens t.line t.startChar false

/-- The operands of the differences that the loop takes. -/
def buildSubtractions : List Token → UInt32 → UInt32 → Bool → List (UInt32 × UInt32)
  | [], _, _, _ => []
  | t :: tokens, prevLine, prevChar, first =>
    let deltaLine := if first then t.line else t.line - prevLine
    (if first then [] else [(t.line, prevLine)]) ++
      (if first ∨ deltaLine ≠ 0 then [] else [(t.startChar, prevChar)]) ++
      buildSubtractions tokens t.line t.startChar false

structure SemanticTokensBuilder where
  tokens_ : List Token := []

namespace SemanticTokensBuilder

/-- `push`: empty tokens are dropped. -/
def push (b : SemanticTokensBuilder) (t : Token) : SemanticTokensBuilder :=
  if t.length = 0 then b else { b with tokens_ := b.tokens_ ++ [t] }

def clear (b : SemanticTokensBuilder) : SemanticTokensBuilder :=
  { b with tokens_ := [] }

/-- `build`: the tokens are sorted in place, and stay. -/
structure Build (b : SemanticTokensBuilder) (result : SemanticTokens)
    (b' : SemanticTokensBuilder) : Prop where
  sorts : Sorts b.tokens_ b'.tokens_
  result_eq : result = { resultId := none, data := buildLoop b'.tokens_ 0 0 true }

/-- A call of a member. -/
inductive Call
  | push (t : Token)
  | clear
  | build (result : SemanticTokens)

inductive Step : SemanticTokensBuilder → Call → SemanticTokensBuilder → Prop
  | push (b : SemanticTokensBuilder) (t : Token) : Step b (.push t) (b.push t)
  | clear (b : SemanticTokensBuilder) : Step b .clear b.clear
  | build {b b' : SemanticTokensBuilder} {result : SemanticTokens} (h : b.Build result b') :
    Step b (.build result) b'

/-- The tokens of non-zero length pushed since the last `clear`. -/
def pushed (calls : List Call) : List Token :=
  calls.foldl (fun tokens call =>
    match call with
    | .push t => if t.length = 0 then tokens else tokens ++ [t]
    | .clear => []
    | .build _ => tokens) []

end SemanticTokensBuilder

/-! ## The other side -/

/-- A token as the protocol means it: its place is a pair of numbers. -/
structure PlacedToken where
  line : ℕ
  startChar : ℕ
  length : UInt32
  tokenType : UInt32
  tokenModifiers : UInt32
deriving DecidableEq, Repr

/-- The place of a token. -/
def Token.placed (t : Token) : PlacedToken :=
  { line := t.line.toNat, startChar := t.startChar.toNat, length := t.length,
    tokenType := t.tokenType, tokenModifiers := t.tokenModifiers }

/-- Tokens are in the order of their places. -/
def PlacedToken.Le (a b : PlacedToken) : Prop :=
  a.line < b.line ∨ a.line = b.line ∧ a.startChar ≤ b.startChar

/-- The protocol's rule: five numbers a token, the first two relative to the token before, whose
place is `line` and `startChar`. -/
def decodeTokens : List UInt32 → ℕ → ℕ → List PlacedToken
  | deltaLine :: deltaChar :: length :: tokenType :: tokenModifiers :: rest, line, startChar =>
    let line' := line + deltaLine.toNat
    let startChar' := if deltaLine = 0 then startChar + deltaChar.toNat else deltaChar.toNat
    { line := line', startChar := startChar', length, tokenType, tokenModifiers } ::
      decodeTokens rest line' startChar'
  | _, _, _ => []

end CLSP
