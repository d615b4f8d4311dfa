import DoubleSubmit.Base64
import DoubleSubmit.Text.Decimal
import DoubleSubmit.Text.Utf8

/-! The message that is signed for a session and a random value. Each field stands behind its
length in bytes, so that no two pairs share a message whatever separators they contain. -/

namespace DoubleSubmit.Payload

/-- Ends a length and the session's field. -/
def separator : String := "!"

/-- A field behind its length in bytes. -/
def field (value : String) : String := Text.decimal (Text.utf8 value).length ++ separator ++ value

/-- The session in padded base64 and the random value as it is, each behind its length. -/
def text (session random : String) : String :=
  field (Base64.standard.encode (Text.utf8 session)) ++ separator ++ field random

end DoubleSubmit.Payload
