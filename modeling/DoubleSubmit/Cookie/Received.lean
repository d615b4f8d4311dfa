import DoubleSubmit.Http.Request
import DoubleSubmit.Text.Blank
import DoubleSubmit.Text.Percent
import DoubleSubmit.Text.Split

/-! The cookies that a request brings. Every cookie header that is UTF-8 is cut at its semicolons;
a piece is a name and a value around the first equals sign, freed of white space and then
percent-decoded. -/

namespace DoubleSubmit.Cookie

/-- The name and value that a piece of a cookie header spells, before percent-decoding. A piece
without an equals sign or without a name is no cookie. -/
def spelled? (piece : List Char) : Option (String × String) :=
  match Text.cut? '=' piece with
  | none => none
  | some (name, value) =>
    if Text.trim name = [] then none
    else some (String.ofList (Text.trim name), String.ofList (Text.trim value))

def ofPiece? (piece : List Char) : Option (String × String) := do
  let (name, value) ← spelled? piece
  let name ← Text.Percent.decode? name
  let value ← Text.Percent.decode? value
  some (name, value)

/-- The pieces of a cookie header; none of a header that is not UTF-8. -/
def headerPieces (value : Http.HeaderValue) : List (List Char) :=
  match Text.ofUtf8? value.bytes with
  | none => []
  | some text => Text.pieces ';' text.toList

def requestPieces (request : Http.Request) : List (List Char) :=
  (request.headerValues .cookie).flatMap headerPieces

/-- The cookies of a request in the order in which it names them, repeated names included. -/
def ofRequest (request : Http.Request) : List (String × String) :=
  (requestPieces request).filterMap ofPiece?

end DoubleSubmit.Cookie
