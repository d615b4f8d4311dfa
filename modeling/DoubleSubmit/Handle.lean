import DoubleSubmit.Cookie.Jar
import DoubleSubmit.Error
import DoubleSubmit.Policy
import DoubleSubmit.Token.Verdict

/-! The handle on the token of a request. Its current token is read from the jar and so follows
every change; what it verifies against is the token as received, which no change touches. -/

namespace DoubleSubmit

/-- What changes while a request is served: the cookies and the state of issuing. -/
structure Exchange where
  jar : Jar
  mint : Mint

/-- What is fixed while a request is served. -/
structure Handle where
  policy : Policy
  entropy : Entropy
  session : String
  /-- The value of the token cookie that the request brought, decoded. -/
  received : Option String

namespace Handle

/-- The handle that is attached to a request. -/
def extract (attached : Option Handle) : Except Error Handle :=
  match attached with
  | some handle => .ok handle
  | none => .error .noHandle

/-- Issues a token for a session and puts it into the token cookie. -/
def issue (handle : Handle) (session : String) (exchange : Exchange) : Exchange :=
  let token := exchange.mint.next handle.policy.issuer handle.entropy session
  { jar := exchange.jar.add (handle.policy.cookie token.text)
    mint := exchange.mint.issue handle.policy.issuer handle.entropy session }

/-- The token that the client will hold. -/
def current (handle : Handle) (jar : Jar) : Except Error String :=
  match jar.get? handle.policy.tokenCookieName with
  | some value => .ok value
  | none => .error .noCookie

def reset (handle : Handle) (jar : Jar) : Jar := jar.remove (handle.policy.cookie "")

/-- Whether a submitted text is the token that was received, and accepted for the session. -/
def verify (handle : Handle) (submitted : String) : Bool :=
  match handle.received with
  | none => false
  | some received =>
    received == submitted && Verdict.accepts handle.policy.secret submitted handle.session

/-- Whether the client needs a new token: none was received, or one that is not accepted. -/
def isStale (handle : Handle) : Bool :=
  match handle.received with
  | none => true
  | some received => !Verdict.accepts handle.policy.secret received handle.session

theorem verify_iff {handle : Handle} {submitted : String} :
    handle.verify submitted ↔ handle.received = some submitted ∧
      Verdict.accepts handle.policy.secret submitted handle.session := by
  unfold verify
  cases handle.received <;> simp

end Handle

end DoubleSubmit
