import DoubleSubmit.Handle

/-! Applications behind the protection. A handler is a list of steps on the token, on the cookies
and on its answer; a transcript tells what each step returned and what the token was after it. -/

namespace DoubleSubmit

inductive Step where
  | get
  /-- Binds a new token to a session. -/
  | set (session : String)
  | reset
  /-- Verifies a text, or the current token. -/
  | verify (submitted : Option String)
  /-- Takes the handle from the request and reads the current token. -/
  | extract
  | cookieAdd (name value : String)
  | cookieRemove (name : String)
  | cookieList
  | status (code : Nat)
  /-- Adds a header to the answer that sets a cookie. -/
  | setCookieHeader (value : String)
  /-- Makes the handler fail in the end; the steps behind it are still taken. -/
  | fail (message : String)
  deriving DecidableEq, Repr

def Step.name : Step → String
  | get => "get"
  | set _ => "set"
  | reset => "reset"
  | verify _ => "verify"
  | extract => "extract"
  | cookieAdd _ _ => "cookie_add"
  | cookieRemove _ => "cookie_remove"
  | cookieList => "cookie_list"
  | status _ => "status"
  | setCookieHeader _ => "set_cookie_header"
  | fail _ => "fail"

inductive Reply where
  | done
  /-- The step needs a handle, and the request has none. -/
  | nothing
  | token (current : Except Error String)
  | verified (holds : Bool)
  | cookies (list : List (String × String))
  /-- No handle could be extracted. -/
  | rejected (error : Error)

structure Desk where
  exchange : Exchange
  status : Nat
  headers : List String
  failure : Option String

namespace Desk

def opened (exchange : Exchange) : Desk := ⟨exchange, 200, [], none⟩

def withJar (desk : Desk) (change : Jar → Jar) : Desk :=
  { desk with exchange := { desk.exchange with jar := change desk.exchange.jar } }

/-- The current token, where there is a handle. -/
def current? (desk : Desk) (handle : Option Handle) : Option (Except Error String) :=
  handle.map fun h => h.current desk.exchange.jar

end Desk

/-- What a step on the handle returns where there is one. -/
def Reply.withHandle (handle : Option Handle) (reply : Handle → Reply) : Reply :=
  match handle with
  | some h => reply h
  | none => .nothing

namespace Step

def reply (handle : Option Handle) (desk : Desk) : Step → Reply
  | get => .withHandle handle fun h => .token (h.current desk.exchange.jar)
  | set _ | reset => .withHandle handle fun _ => .done
  | verify (some submitted) => .withHandle handle fun h => .verified (h.verify submitted)
  | verify none =>
    .withHandle handle fun h =>
      .verified (h.verify ((h.current desk.exchange.jar).toOption.getD ""))
  | extract =>
    match Handle.extract handle with
    | .ok h => .token (h.current desk.exchange.jar)
    | .error error => .rejected error
  | cookieList => .cookies desk.exchange.jar.toList
  | cookieAdd _ _ | cookieRemove _ | status _ | setCookieHeader _ | fail _ => .done

def act (handle : Option Handle) (desk : Desk) : Step → Desk
  | set session =>
    match handle with
    | some h => { desk with exchange := h.issue session desk.exchange }
    | none => desk
  | reset =>
    match handle with
    | some h => desk.withJar h.reset
    | none => desk
  | cookieAdd name value => desk.withJar (·.add (.plain name value))
  | cookieRemove name => desk.withJar (·.remove (.plain name ""))
  | status code => { desk with status := code }
  | setCookieHeader value =>
    if Http.HeaderValue.canCarry value then { desk with headers := desk.headers ++ [value] }
    else desk
  | fail message => { desk with failure := some message }
  | get | verify _ | extract | cookieList => desk

end Step

/-- The name of a step that was taken, what it returned and the current token after it. -/
structure Observation where
  name : String
  reply : Reply
  current : Option (Except Error String)

/-- What a handler saw: the current token at the start, and each step. -/
structure Transcript where
  start : Option (Except Error String)
  observations : List Observation

namespace Handler

def finish (handle : Option Handle) (desk : Desk) (steps : List Step) : Desk :=
  steps.foldl (Step.act handle) desk

def observe (handle : Option Handle) (desk : Desk) : List Step → List Observation
  | [] => []
  | step :: steps =>
    let after := step.act handle desk
    ⟨step.name, step.reply handle desk, after.current? handle⟩ :: observe handle after steps

def transcript (handle : Option Handle) (desk : Desk) (steps : List Step) : Transcript :=
  ⟨desk.current? handle, observe handle desk steps⟩

end Handler

/-- An application: what it says when it is asked whether it is ready, and its handler. -/
structure Application where
  readyError : Option String
  steps : List Step

end DoubleSubmit
