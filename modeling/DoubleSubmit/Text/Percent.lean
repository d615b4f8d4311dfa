import DoubleSubmit.Text.Utf8

/-! Percent-decoding. A percent sign and two hexadecimal digits stand for a byte; any other
percent sign, and the plus sign, stand for themselves. The bytes so obtained must be UTF-8. -/

namespace DoubleSubmit.Text.Percent

def sign : UInt8 := 0x25

def hexValue? (b : UInt8) : Option UInt8 :=
  if 0x30 ≤ b ∧ b ≤ 0x39 then some (b - 0x30)
  else if 0x41 ≤ b ∧ b ≤ 0x46 then some (b - 0x41 + 10)
  else if 0x61 ≤ b ∧ b ≤ 0x66 then some (b - 0x61 + 10)
  else none

/-- The byte that two hexadecimal digits spell. -/
def hexPair? (high low : UInt8) : Option UInt8 :=
  match hexValue? high, hexValue? low with
  | some h, some l => some (16 * h + l)
  | _, _ => none

/-- The byte that three bytes stand for, if they are a percent sign and two digits. -/
def escaped? (first high low : UInt8) : Option UInt8 :=
  if first = sign then hexPair? high low else none

/-- Replaces each escaped byte by the byte itself. -/
def decodeBytes : List UInt8 → List UInt8
  | first :: high :: low :: rest =>
    match escaped? first high low with
    | some b => b :: decodeBytes rest
    | none => first :: decodeBytes (high :: low :: rest)
  | short => short

/-- The decoded text, unless its bytes are not UTF-8. -/
def decode? (s : String) : Option String := ofUtf8? (decodeBytes (utf8 s))

end DoubleSubmit.Text.Percent
