/-! Request methods. A method is a token of HTTP, compared with regard to case; the ones that
change state at the server are guarded. -/

namespace DoubleSubmit.Http

/-- The characters of an HTTP token: letters, digits and fifteen marks. -/
def isTokenChar (c : Char) : Bool :=
  c.isAlphanum || "!#$%&'*+-.^_\x60|~".toList.contains c

/-- A request method: a token that is not empty. -/
structure Method where
  name : String
  valid : name ≠ "" ∧ name.toList.all isTokenChar
  deriving DecidableEq

namespace Method

def ofName? (name : String) : Option Method :=
  if h : name ≠ "" ∧ name.toList.all isTokenChar then some ⟨name, h⟩ else none

def guardedNames : List String := ["POST", "PUT", "PATCH", "DELETE"]

/-- Whether a request of this method has to echo its token. -/
def isGuarded (method : Method) : Bool := guardedNames.contains method.name

theorem name_of_ofName? {name : String} {method : Method} (h : ofName? name = some method) :
    method.name = name := by
  simp only [ofName?, Option.dite_none_right_eq_some, Option.some.injEq] at h
  obtain ⟨-, rfl⟩ := h
  rfl

end Method

end DoubleSubmit.Http
