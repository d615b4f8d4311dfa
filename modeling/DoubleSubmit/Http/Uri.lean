import DoubleSubmit.Text.Utf8

/-! Request targets and their paths. A target is an asterisk, a path with an optional query and
fragment, an authority alone, or a scheme and an authority followed by a path with query and
fragment. The path is kept as it is written, percent signs included; query and fragment are
never part of it. -/

namespace DoubleSubmit.Http.Uri

/-- The longest target, in bytes. -/
def maxLength : Nat := 65534

def maxSchemeLength : Nat := 64

def endsPath (c : Char) : Bool := c == '?' || c == '#'

def endsAuthority (c : Char) : Bool := c == '/' || endsPath c

/-- A character that is no blank, control or delete character of ASCII; beyond ASCII all are
visible. -/
def isVisible (c : Char) : Bool := 0x21 ≤ c.toNat && c.toNat != 0x7f

def isPathChar (c : Char) : Bool := isVisible c && !"#<>?\x60".toList.contains c

def isQueryChar (c : Char) : Bool := isVisible c && !"\"#<>".toList.contains c

/-- A character of a scheme; beside those of the standard, the tilde. -/
def isSchemeChar (c : Char) : Bool := c.isAlphanum || "+-.~".toList.contains c

/-- A character of an authority, the percent sign apart. -/
def isAuthorityChar (c : Char) : Bool :=
  c.isAlphanum || "!$&'()*+,-.:;=@[]_~".toList.contains c

/-- What is known of an authority after a part of it: the colons that belong neither to a user part
nor to an address in brackets, the brackets, and whether a percent sign stands where those colons
are counted. -/
structure Authority where
  colons : Nat
  opened : Bool
  closed : Bool
  percent : Bool

namespace Authority

def start : Authority := ⟨0, false, false, false⟩

/-- The most colons that an address in brackets can have. -/
def maxColons : Nat := 8

/-- Reads a character; brackets open and close once, and after a closing bracket or an at sign the
colons are counted anew. -/
def read? (a : Authority) (c : Char) : Option Authority :=
  if c = ':' then
    if a.colons < maxColons then some { a with colons := a.colons + 1 } else none
  else if c = '[' then
    if a.percent || a.opened then none else some { a with opened := true }
  else if c = ']' then
    if !a.opened || a.closed then none
    else some { a with closed := true, colons := 0, percent := false }
  else if c = '@' then some { a with colons := 0, percent := false }
  else if c = '%' then some { a with percent := true }
  else if isAuthorityChar c then some a
  else none

/-- Whether what was read may end here. -/
def complete (a : Authority) : Bool := a.opened == a.closed && a.colons ≤ 1 && !a.percent

/-- Whether a text is an authority; behind a user part and brackets it has one colon at most. -/
def isValid (cs : List Char) : Bool :=
  match cs.foldlM read? start with
  | none => false
  | some a => a.complete && cs.getLast? != some '@'

end Authority

/-- The scheme and what follows it, if a text starts with a scheme. -/
def scheme? (cs : List Char) : Option (List Char × List Char) :=
  match cs.dropWhile isSchemeChar with
  | ':' :: '/' :: '/' :: rest => some (cs.takeWhile isSchemeChar, rest)
  | _ => none

/-- Whether a text may stand behind a path: nothing, a query or a fragment. -/
def isTail : List Char → Bool
  | '?' :: query => (query.takeWhile (· != '#')).all isQueryChar
  | _ => true

/-- The path of a path with query and fragment, if they are well formed. -/
def resource? (cs : List Char) : Option (List Char) :=
  let path := cs.takeWhile (!endsPath ·)
  if path.all isPathChar && isTail (cs.dropWhile (!endsPath ·)) then some path else none

/-- The path of a target that names a scheme; an empty path is the root. -/
def absolutePath? (scheme rest : List Char) : Option (List Char) :=
  let authority := rest.takeWhile (!endsAuthority ·)
  if scheme.length ≤ maxSchemeLength && !authority.isEmpty && Authority.isValid authority then
    match resource? (rest.dropWhile (!endsAuthority ·)) with
    | some [] => some ['/']
    | path? => path?
  else none

def pathChars? (cs : List Char) : Option (List Char) :=
  if cs = ['*'] then some cs
  else if cs.head? = some '/' then resource? cs
  else
    match scheme? cs with
    | some (scheme, rest) => absolutePath? scheme rest
    | none => if Authority.isValid cs then some [] else none

/-- The path of a target; of an authority alone it is empty, and of a text that is no target there
is none. -/
def path? (target : String) : Option String :=
  if target.isEmpty || maxLength < (Text.utf8 target).length then none
  else (pathChars? target.toList).map String.ofList

end DoubleSubmit.Http.Uri
