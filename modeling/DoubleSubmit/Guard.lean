import DoubleSubmit.Response

/-! The guard before an application: a request that changes state has to echo its token in a
header, unless its path is exempt. -/

namespace DoubleSubmit.Guard

inductive Decision where
  | pass
  /-- The request has to echo its token and does not. -/
  | forbid
  /-- Nothing can be checked. -/
  | fault (error : Error)
  deriving DecidableEq, Repr

/-- The token that a request echoes. -/
def submitted? (policy : Policy) (request : Http.Request) : Option String :=
  request.plainHeader? policy.headerName

/-- Whether a request echoes a token that the handle verifies. -/
def echoes (handle : Handle) (request : Http.Request) : Bool :=
  (submitted? handle.policy request).any handle.verify

def decision (handle : Option Handle) (request : Http.Request) : Decision :=
  if !request.method.isGuarded then .pass
  else
    match Handle.extract handle with
    | .error error => .fault error
    | .ok h => if h.policy.isExempt request.path || echoes h request then .pass else .forbid

/-- The answer to a request, and the exchange after it: the handler runs only if the guard lets
the request pass. -/
def serve (handle : Option Handle) (request : Http.Request) (steps : List Step)
    (exchange : Exchange) : Answer × Exchange :=
  match decision handle request with
  | .pass =>
    let desk := Desk.opened exchange
    (.ofSteps handle desk steps, (Handler.finish handle desk steps).exchange)
  | .forbid => (.responded .forbidden, exchange)
  | .fault error => (.responded (.ofError error), exchange)

end DoubleSubmit.Guard
