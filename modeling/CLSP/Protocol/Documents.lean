import CLSP.Bytes

/-!
# Documents on the wire

The structures of `protocol/Basic.hpp`, `protocol/Documents.hpp` and `PositionEncoding.hpp` that
the document store works on.
-/

namespace CLSP

abbrev DocumentUri := Bytes

/-- `Position`: both members are `uint32_t`. -/
structure Position where
  line : UInt32
  character : UInt32
deriving DecidableEq, Repr

structure Range where
  start : Position
  «end» : Position
deriving DecidableEq, Repr

structure TextDocumentItem where
  uri : DocumentUri
  languageId : Bytes
  version : Int32
  text : Bytes
deriving DecidableEq, Repr

structure VersionedTextDocumentIdentifier where
  uri : DocumentUri
  version : Int32
deriving DecidableEq, Repr

/-- A change of the document; without a range it replaces the whole text. -/
structure TextDocumentChangeEvent where
  range : Option Range
  text : Bytes
deriving DecidableEq, Repr

/-- What `Position.character` counts. -/
inductive PositionEncoding
  | UTF8
  | UTF16
  | UTF32
deriving DecidableEq, Repr

/-- `positionEncodingFromString` -/
def positionEncodingFromString (s : Bytes) : Option PositionEncoding :=
  if s = str "utf-8" then some .UTF8
  else if s = str "utf-16" then some .UTF16
  else if s = str "utf-32" then some .UTF32
  else none

end CLSP
