import DoubleSubmit.Entropy
import DoubleSubmit.Token.Basic

/-! Issuing tokens. A mint knows how far the entropy is used up and keeps a record of what it
issued; each token takes the next window of the stream. -/

namespace DoubleSubmit

/-- The number of random bytes of a token, never zero. -/
structure RandomSize where
  bytes : Nat
  bytes_pos : 0 < bytes

namespace RandomSize

def ofNat? (bytes : Nat) : Option RandomSize :=
  if h : 0 < bytes then some ⟨bytes, h⟩ else none

/-- Sixteen bytes, unless another size is asked for. -/
def standard : RandomSize := ⟨16, by decide⟩

instance : Inhabited RandomSize := ⟨standard⟩

end RandomSize

/-- What tokens are made with: the secret, if any, and the size of the random value. -/
structure Issuer where
  secret : Option Secret
  size : RandomSize

namespace Issuer

def token (issuer : Issuer) (session : String) (bytes : List UInt8) : Token :=
  Token.signed issuer.secret session (Base64.urlSafe.encode bytes)

def describe (issuer : Issuer) : String :=
  let secret := match issuer.secret with
    | some _ => "Some(" ++ Secret.redacted ++ ")"
    | none => "None"
  "TokenGenerator \x7b secret: " ++ secret ++ ", random_value_size: " ++
    Text.decimal issuer.size.bytes ++ " \x7d"

end Issuer

structure Issue where
  session : String
  token : Token
  deriving DecidableEq, Repr

def Issue.payload (issue : Issue) : String := Payload.text issue.session issue.token.random

/-- The state of issuing: how many bytes of the entropy are used, and the issues in order. -/
structure Mint where
  drawn : Nat
  issues : List Issue
  deriving DecidableEq, Repr

namespace Mint

def fresh : Mint := ⟨0, []⟩

def next (mint : Mint) (issuer : Issuer) (entropy : Entropy) (session : String) : Token :=
  issuer.token session (entropy.window mint.drawn issuer.size.bytes)

def issue (mint : Mint) (issuer : Issuer) (entropy : Entropy) (session : String) : Mint where
  drawn := mint.drawn + issuer.size.bytes
  issues := mint.issues ++ [⟨session, mint.next issuer entropy session⟩]

/-- Issues a token of each of some sessions, one after the other. -/
def issueAll (mint : Mint) (issuer : Issuer) (entropy : Entropy) (sessions : List String) : Mint :=
  sessions.foldl (fun mint session => mint.issue issuer entropy session) mint

@[simp] theorem drawn_issue (mint : Mint) (issuer : Issuer) (entropy : Entropy) (session : String) :
    (mint.issue issuer entropy session).drawn = mint.drawn + issuer.size.bytes := rfl

@[simp] theorem issues_issue (mint : Mint) (issuer : Issuer) (entropy : Entropy)
    (session : String) : (mint.issue issuer entropy session).issues =
      mint.issues ++ [⟨session, mint.next issuer entropy session⟩] := rfl

end Mint

end DoubleSubmit
