import DoubleSubmit.Handler

/-! Answers to requests, and the ones that the protection gives by itself. -/

namespace DoubleSubmit

/-- A response; its transcript tells what the handler saw, if it ran. -/
structure Response where
  status : Nat
  body : String
  setCookies : List String
  transcript : Option Transcript

namespace Response

def handledBody : String := "handled"

def ofDesk (desk : Desk) (transcript : Transcript) : Response :=
  ⟨desk.status, handledBody, desk.headers, some transcript⟩

/-- Refuses a request that does not echo its token. -/
def forbidden : Response := ⟨403, "", [], none⟩

/-- Answers a request that the protection cannot work on. The error is not told to the client. -/
def ofError (_ : Error) : Response := ⟨500, "", [], none⟩

def withSetCookies (response : Response) (more : List String) : Response :=
  { response with setCookies := response.setCookies ++ more }

end Response

inductive Answer where
  | notReady (message : String)
  /-- The handler failed; nothing is said of cookies. -/
  | failed (message : String) (transcript : Transcript)
  | responded (response : Response)

namespace Answer

/-- The answer with more headers that set cookies, where it is a response. -/
def withSetCookies (more : List String) : Answer → Answer
  | responded response => .responded (response.withSetCookies more)
  | answer => answer

def ofSteps (handle : Option Handle) (desk : Desk) (steps : List Step) : Answer :=
  let done := Handler.finish handle desk steps
  let transcript := Handler.transcript handle desk steps
  match done.failure with
  | some message => .failed message transcript
  | none => .responded (.ofDesk done transcript)

end Answer

end DoubleSubmit
