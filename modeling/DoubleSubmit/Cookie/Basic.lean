import DoubleSubmit.Calendar.Basic

/-! Cookies as a server sends them: a name, a value and attributes, written one after the other.
Nothing is encoded. -/

namespace DoubleSubmit

/-- Which requests from other sites may carry a cookie. -/
inductive SameSite where
  | strict
  | lax
  | none
  deriving DecidableEq, Repr

def SameSite.text : SameSite → String
  | .strict => "Strict"
  | .lax => "Lax"
  | .none => "None"

/-- What a server says about a cookie beside its value. -/
inductive Attribute where
  | httpOnly
  | sameSite (policy : SameSite)
  | secure
  /-- The cookie belongs to all paths. -/
  | rootPath
  /-- The cookie is to be dropped at once. -/
  | maxAgeZero
  | expires (instant : Calendar.Instant)
  /-- The cookie expired a year before it was sent. -/
  | expiredLastYear
  deriving DecidableEq

namespace Attribute

/-- Stands for the date of a year before the moment of sending, which no pure value knows. -/
def lastYearMark : String := "<now-365d>"

def text : Attribute → String
  | httpOnly => "HttpOnly"
  | sameSite policy => "SameSite=" ++ policy.text
  | secure => "Secure"
  | rootPath => "Path=/"
  | maxAgeZero => "Max-Age=0"
  | expires instant => "Expires=" ++ instant.httpText
  | expiredLastYear => "Expires=" ++ lastYearMark

def isExpiry : Attribute → Bool
  | expires _ | expiredLastYear | maxAgeZero => true
  | _ => false

end Attribute

structure Cookie where
  name : String
  value : String
  attributes : List Attribute
  deriving DecidableEq

namespace Cookie

def plain (name value : String) : Cookie := ⟨name, value, []⟩

/-- The cookie that removes this one: no value, the same attributes, and an end in the past in
place of its own. -/
def removal (cookie : Cookie) : Cookie where
  name := cookie.name
  value := ""
  attributes := cookie.attributes.filter (!·.isExpiry) ++ [.maxAgeZero, .expiredLastYear]

def text (cookie : Cookie) : String :=
  cookie.name ++ "=" ++ cookie.value ++
    String.join (cookie.attributes.map fun a => "; " ++ a.text)

@[simp] theorem name_removal (cookie : Cookie) : cookie.removal.name = cookie.name := rfl

end Cookie

end DoubleSubmit
