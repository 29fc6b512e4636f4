import CLSP.Bytes
import CLSP.Lib.Decimal
import CLSP.Lib.Search

/-!
# `StdioTransport`

The transport of `src/StdioTransport.cpp` over an input stream and an output stream. The header
loop has no exit but the end of a header block, so it runs on fuel, and `none` is a call that has
not come back yet. The character the loop reads into starts uninitialised: it is a parameter.
-/

namespace CLSP

/-! ## Streams -/

/-- A `std::istream`: the bytes not read yet and the two error flags. -/
structure IStream where
  rest : Bytes
  eof : Bool
  fail : Bool
deriving DecidableEq, Repr

/-- A stream in good state over the given bytes. -/
def IStream.ofBytes (rest : Bytes) : IStream :=
  { rest, eof := false, fail := false }

/-- `read(s, n)`: the bytes stored in `s`. A stream that is not good only gets its `failbit` set,
a short read sets both flags. -/
def IStream.read (in_ : IStream) (n : ℕ) : Bytes × IStream :=
  if in_.eof || in_.fail then ([], { in_ with fail := true })
  else if n ≤ in_.rest.length then (in_.rest.take n, { in_ with rest := in_.rest.drop n })
  else (in_.rest, { rest := [], eof := true, fail := true })

/-! ## `readHeaders` -/

def carriageReturn : UInt8 := 0x0D

/-- The empty line that ends a header block. -/
def crlfcrlf : Bytes := [carriageReturn, newline, carriageReturn, newline]

/-- `key` of `readHeaders` -/
def contentLengthKey : Bytes := str "Content-Length: "

/-- The exit test of the loop, on the last four characters read. -/
def endsHeader (headers : Bytes) : Bool :=
  headers.length ≥ 4 && headers.getD (headers.length - 4) 0 = carriageReturn &&
    headers.getD (headers.length - 3) 0 = newline &&
    headers.getD (headers.length - 2) 0 = carriageReturn &&
    headers.getD (headers.length - 1) 0 = newline

/-- The loop of `readHeaders`. A failed read leaves the character `c` of the round before, and
the loop appends it again. -/
def headerLoop : ℕ → UInt8 → Bytes → IStream → Option (Bytes × IStream)
  | 0, _, _, _ => none
  | fuel + 1, c, headers, in_ =>
    let (got, in_) := in_.read 1
    let c := got.headD c
    let headers := headers ++ [c]
    if endsHeader headers then some (headers, in_) else headerLoop fuel c headers in_

/-- The digits of `valueStr`; the multiplication is taken to wrap and the sum is narrowed to 32
bits. -/
def digitLoop : Int32 → Bytes → Option Int32
  | contentLength, [] => some contentLength
  | contentLength, c :: rest =>
    if Decimal.IsDigit c then
      digitLoop (contentLength * 10 + Int32.ofNat (c.toNat - 48)) rest
    else none

/-- `valueStr` of `readHeaders`: what follows the first `key`, up to the next `'\r'` or the end;
`none` when there is no `key`. -/
def valueStr (headers : Bytes) : Option Bytes :=
  (Search.find? contentLengthKey headers).map fun pos =>
    (headers.drop (pos + contentLengthKey.length)).takeWhile (· ≠ carriageReturn)

/-- The second half of `readHeaders`, on the block the loop has read. -/
def parseContentLength (headers : Bytes) : Option Int32 :=
  match valueStr headers with
  | none => none
  | some valueStr => if valueStr = [] then none else digitLoop 0 valueStr

/-- `readHeaders` -/
def readHeaders (fuel : ℕ) (c : UInt8) (in_ : IStream) : Option (Option Int32 × IStream) :=
  if in_.eof || in_.fail then some (none, in_)
  else (headerLoop fuel c [] in_).map fun r => (parseContentLength r.1, r.2)

/-! ## `readMessage` and `sendMessage` -/

/-- How a call of `readMessage` comes back. -/
inductive ReadResult
  | body (body : Bytes)
  | nullopt
  | threw (e : StringError)
deriving DecidableEq, Repr

/-- The body of an announced length. A negative one is converted to a huge `size_t`, which the
constructor of `std::string` refuses. -/
def readBody (contentLength : Int32) (in_ : IStream) : ReadResult × IStream :=
  if contentLength < 0 then (.threw .lengthError, in_)
  else
    let (body, in_) := in_.read contentLength.toInt.toNat
    if in_.fail then (.nullopt, in_) else (.body body, in_)

/-- `readMessage` -/
def readMessage (fuel : ℕ) (c : UInt8) (in_ : IStream) : Option (ReadResult × IStream) :=
  (readHeaders fuel c in_).map fun r =>
    match r.1 with
    | none => (.nullopt, r.2)
    | some contentLength => readBody contentLength r.2

/-- Successive calls of `readMessage`, one for each uninitialised character. -/
def readMessages (fuel : ℕ) : List UInt8 → IStream → Option (List ReadResult × IStream)
  | [], in_ => some ([], in_)
  | c :: cs, in_ =>
    (readMessage fuel c in_).bind fun r =>
      (readMessages fuel cs r.2).map fun rs => (r.1 :: rs.1, rs.2)

/-- What `sendMessage` writes to the output stream. -/
def frame (body : Bytes) : Bytes :=
  contentLengthKey ++ Decimal.print body.length ++ crlfcrlf ++ body

/-- `sendMessage`, on what has been written so far. -/
def sendMessage (out_ : Bytes) (body : Bytes) : Bytes :=
  out_ ++ frame body

end CLSP
