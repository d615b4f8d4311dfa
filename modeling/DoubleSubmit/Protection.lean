import DoubleSubmit.Guard
import DoubleSubmit.Session

/-! The whole protection. Of each request the session and the token are looked up, a client whose
token is missing or not accepted gets a new one, the guard decides, and what became of the cookies
is told to the client. Between requests nothing is kept but the state of issuing.

The steps before the guard always have a result, so no error of theirs is modelled. The jar cannot
be missing, for it is made of the request in the same place (`Jar.ofRequest`); and judging a token
or issuing one cannot fail for the key, for a key of any length has a block (`Hmac.keyBlock`) and
the empty one turns signing off (`Secret.ofKey?`). -/

namespace DoubleSubmit

/-- A policy, a way to find sessions, and a source of random bytes. -/
structure Protection where
  policy : Policy
  provider : SessionProvider
  entropy : Entropy

/-- A request as it is asked for, and the application behind the protection. -/
structure Visit where
  draft : Http.Request.Draft
  application : Application

namespace Protection

def handle (protection : Protection) (request : Http.Request) : Handle where
  policy := protection.policy
  entropy := protection.entropy
  session := protection.provider.session request
  received := (Jar.ofRequest request).get? protection.policy.tokenCookieName

/-- The exchange that the guard is given: a new token is issued if the client needs one. -/
def exchangeFor (protection : Protection) (request : Http.Request) (mint : Mint) : Exchange :=
  let handle := protection.handle request
  let exchange : Exchange := ⟨Jar.ofRequest request, mint⟩
  if handle.isStale then handle.issue handle.session exchange else exchange

/-- Serves a request that the application is ready for. -/
def serveReady (protection : Protection) (request : Http.Request) (steps : List Step)
    (mint : Mint) : Answer × Mint :=
  let handle := protection.handle request
  let (answer, exchange) :=
    Guard.serve (some handle) request steps (protection.exchangeFor request mint)
  (answer.withSetCookies exchange.jar.setCookies, exchange.mint)

def serve (protection : Protection) (request : Http.Request) (application : Application)
    (mint : Mint) : Answer × Mint :=
  match application.readyError with
  | some message => (.notReady message, mint)
  | none => protection.serveReady request application.steps mint

def visit (protection : Protection) (visit : Visit) (mint : Mint) :
    Except Http.Request.Fault Answer × Mint :=
  match visit.draft.check with
  | .error fault => (.error fault, mint)
  | .ok request =>
    let (answer, mint) := protection.serve request visit.application mint
    (.ok answer, mint)

def run (protection : Protection) : List Visit → Mint →
    List (Except Http.Request.Fault Answer) × Mint
  | [], mint => ([], mint)
  | visit :: visits, mint =>
    let (answer, mint) := protection.visit visit mint
    let (answers, mint) := protection.run visits mint
    (answer :: answers, mint)

end Protection

namespace Guard

/-- Serves a request with the guard alone, no handle being attached to the request. -/
def serveAlone (request : Http.Request) (application : Application) : Answer :=
  match application.readyError with
  | some message => .notReady message
  | none => (serve none request application.steps ⟨Jar.ofReceived [], Mint.fresh⟩).1

end Guard

end DoubleSubmit
