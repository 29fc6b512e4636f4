import CLSP.Bytes

/-!
# `uri`

The functions of `src/Uri.cpp`, in the C locale and with the paths of POSIX: a path is its string,
which `generic_string` returns as it is.
-/

namespace CLSP

/-- `kFileScheme` -/
def kFileScheme : Bytes := str "file://"

def slash : UInt8 := 0x2F

def percent : UInt8 := 0x25

/-- `std::isalpha` -/
def isAlpha (c : UInt8) : Bool :=
  (0x41 ≤ c && c ≤ 0x5A) || (0x61 ≤ c && c ≤ 0x7A)

/-- `std::isalnum` -/
def isAlnum (c : UInt8) : Bool :=
  isAlpha c || (0x30 ≤ c && c ≤ 0x39)

def isUnreserved (c : UInt8) : Bool :=
  isAlnum c || c ∈ str "-._~"

def isPathPassThrough (c : UInt8) : Bool :=
  isUnreserved c || c ∈ str "/:@" || c ∈ str "!$&'()*+,;="

/-- `hexValue`, which returns `-1` for no digit. -/
def hexValue (c : UInt8) : Option UInt8 :=
  if 0x30 ≤ c ∧ c ≤ 0x39 then some (c - 0x30)
  else if 0x61 ≤ c ∧ c ≤ 0x66 then some (10 + (c - 0x61))
  else if 0x41 ≤ c ∧ c ≤ 0x46 then some (10 + (c - 0x41))
  else none

/-- The table `hex` of `percentEncode`. -/
def hex (i : UInt8) : UInt8 :=
  (str "0123456789ABCDEF").getD i.toNat 0

/-- A round of the loop of `percentEncode`. -/
def encodeByte (c : UInt8) : Bytes :=
  if isPathPassThrough c then [c]
  else [percent, hex ((c >>> 4) &&& 0xF), hex (c &&& 0xF)]

def percentEncode (in_ : Bytes) : Bytes :=
  in_.flatMap encodeByte

/-- The byte of a complete valid escape. -/
def escape? (c hi lo : UInt8) : Option UInt8 :=
  if c = percent then
    match hexValue hi, hexValue lo with
    | some hi, some lo => some ((hi <<< 4) ||| lo)
    | _, _ => none
  else none

/-- The loop of `percentDecode`. It tries an escape where two characters follow. -/
def percentDecode : Bytes → Bytes
  | [] => []
  | [c] => [c]
  | [c, d] => [c, d]
  | c :: hi :: lo :: rest =>
    match escape? c hi lo with
    | some b => b :: percentDecode rest
    | none => c :: percentDecode (hi :: lo :: rest)

def fromPath (path : Bytes) : Bytes :=
  kFileScheme ++ (if path ≠ [] ∧ path.head? ≠ some slash then [slash] else []) ++
    percentEncode path

/-- The test of `toPath`: a slash, a letter and a colon. -/
def hasDrive : Bytes → Bool
  | s :: c :: d :: _ => s = slash && isAlpha c && d = colon
  | _ => false

/-- `toPath`; the empty path for another scheme. -/
def toPath (uri : Bytes) : Bytes :=
  if uri.take kFileScheme.length ≠ kFileScheme then []
  else
    let rest := uri.drop kFileScheme.length
    percentDecode (if hasDrive rest then rest.drop 1 else rest)

end CLSP
