/-! What can go wrong in a protection, and its wording. -/

namespace DoubleSubmit

inductive Error where
  /-- The secret cannot be used as a key. No key is refused, so nothing gives this error. -/
  | invalidKey
  /-- Something that the protection attaches to a request is not there. -/
  | missing (name : String)
  | noCookie
  deriving DecidableEq, Repr

namespace Error

def message : Error → String
  | invalidKey => "invalid secret key for signing the csrf token"
  | missing name => "couldn't extract \x60" ++ name ++ "\x60. is the \x60Surf\x60 layer applied?"
  | noCookie => "no csrf token cookie"

def cause? : Error → Option String
  | invalidKey => some "Invalid Length"
  | _ => none

/-- The error of a request that no handle is attached to. -/
def noHandle : Error := missing "Token"

end Error

end DoubleSubmit
