import DoubleSubmit.Http.Method
import DoubleSubmit.Text.Utf8

/-! Header fields. Names are kept in lower case, so that names that differ only in case are
equal; a value is any sequence of bytes without control characters other than the tab. -/

namespace DoubleSubmit.Http

/-- The longest header name, in bytes. -/
def maxHeaderNameLength : Nat := 65535

/-- The name of a header field, in lower case. -/
structure HeaderName where
  text : String
  deriving DecidableEq

namespace HeaderName

/-- The header name that a text spells in any case, if it can be one. -/
def ofText? (text : String) : Option HeaderName :=
  let cs := text.toList
  if cs ≠ [] ∧ cs.length ≤ maxHeaderNameLength ∧ cs.all isTokenChar then
    some ⟨String.ofList (cs.map Char.toLower)⟩
  else none

def cookie : HeaderName := ⟨"cookie"⟩

end HeaderName

def isFieldByte (b : UInt8) : Bool := (0x20 ≤ b && b != 0x7f) || b == 0x09

/-- A byte of visible ASCII, a space or a tab. -/
def isPlainByte (b : UInt8) : Bool := (0x20 ≤ b && b < 0x7f) || b == 0x09

structure HeaderValue where
  bytes : List UInt8
  valid : bytes.all isFieldByte
  deriving DecidableEq

namespace HeaderValue

def ofBytes? (bytes : List UInt8) : Option HeaderValue :=
  if h : bytes.all isFieldByte then some ⟨bytes, h⟩ else none

/-- The value as a text, if it holds nothing but visible ASCII, spaces and tabs. -/
def plain? (value : HeaderValue) : Option String :=
  if value.bytes.all isPlainByte then Text.ofUtf8? value.bytes else none

/-- Whether a text can be sent as a header value. -/
def canCarry (text : String) : Bool := (ofBytes? (Text.utf8 text)).isSome

end HeaderValue

structure Header where
  name : HeaderName
  value : HeaderValue
  deriving DecidableEq

end DoubleSubmit.Http
