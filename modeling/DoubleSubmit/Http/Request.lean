import DoubleSubmit.Http.Header
import DoubleSubmit.Http.Uri

/-! Requests, and the drafts that they are made from. A draft whose method, target or headers are
not those of HTTP is refused with its first fault. -/

namespace DoubleSubmit.Http

/-- A request, with the session that whatever authenticates it attached to it. -/
structure Request where
  method : Method
  path : String
  headers : List Header
  session : Option String

namespace Request

def header? (request : Request) (name : HeaderName) : Option HeaderValue :=
  (request.headers.find? fun h => decide (h.name = name)).map (·.value)

def headerValues (request : Request) (name : HeaderName) : List HeaderValue :=
  (request.headers.filter fun h => decide (h.name = name)).map (·.value)

/-- The first header of the name that a text spells, read as plain text. -/
def plainHeader? (request : Request) (name : String) : Option String :=
  (HeaderName.ofText? name).bind fun name => (request.header? name).bind HeaderValue.plain?

inductive Fault where
  | method
  | target
  | headerName
  | headerValue
  deriving DecidableEq, Repr

/-- A request as it is asked for, nothing checked. -/
structure Draft where
  method : String
  target : String
  headers : List (String × List UInt8)
  session : Option String

def checkHeader (name : String) (value : List UInt8) : Except Fault Header :=
  match HeaderName.ofText? name, HeaderValue.ofBytes? value with
  | none, _ => .error .headerName
  | some _, none => .error .headerValue
  | some name, some value => .ok ⟨name, value⟩

/-- The headers in order, or the fault of the first that is none. -/
def checkHeaders : List (String × List UInt8) → Except Fault (List Header)
  | [] => .ok []
  | (name, value) :: rest =>
    match checkHeader name value with
    | .error fault => .error fault
    | .ok header =>
      match checkHeaders rest with
      | .error fault => .error fault
      | .ok headers => .ok (header :: headers)

/-- The request of a draft, checked in the order method, target, headers. -/
def Draft.check (draft : Draft) : Except Fault Request :=
  match Method.ofName? draft.method with
  | none => .error .method
  | some method =>
    match Uri.path? draft.target with
    | none => .error .target
    | some path =>
      match checkHeaders draft.headers with
      | .error fault => .error fault
      | .ok headers => .ok ⟨method, path, headers, draft.session⟩

end Request

end DoubleSubmit.Http
