import DoubleSubmit.Session
import DoubleSubmit.Token.Mint
import DoubleSubmit.Token.Verdict

/-! Tokens of requests: issued for, and judged as tokens of, the session that a provider finds. A
request is treated as its session is, and one without a session as the anonymous one is. -/

namespace DoubleSubmit

/-- Issues `count` tokens of the session that a request belongs to. -/
def Mint.issueFor (mint : Mint) (issuer : Issuer) (entropy : Entropy) (provider : SessionProvider)
    (request : Http.Request) (count : Nat) : Mint :=
  mint.issueAll issuer entropy (List.replicate count (provider.session request))

def Verdict.acceptsFor (secret : Option Secret) (text : String) (provider : SessionProvider)
    (request : Http.Request) : Bool :=
  accepts secret text (provider.session request)

end DoubleSubmit
