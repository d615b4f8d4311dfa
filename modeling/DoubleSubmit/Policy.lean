import DoubleSubmit.Cookie.Basic
import DoubleSubmit.Exemption
import DoubleSubmit.Token.Mint

/-! How an application is protected: the secret, the size of tokens, the token cookie and its
attributes, the header that echoes it, and the exempt paths. -/

namespace DoubleSubmit

structure Policy where
  secret : Option Secret
  randomSize : RandomSize
  cookieName : String
  headerName : String
  httpOnly : Bool
  hostPrefix : Bool
  sameSite : SameSite
  secure : Bool
  expires : Option Calendar.Instant
  exempt : Option Exemption

namespace Policy

/-- The settings that hold unless others are chosen. An empty key turns signing off. -/
def standard (key : List UInt8) : Policy where
  secret := Secret.ofKey? key
  randomSize := RandomSize.standard
  cookieName := "csrf_token"
  headerName := "X-CSRF-Token"
  httpOnly := true
  hostPrefix := true
  sameSite := .strict
  secure := true
  expires := none
  exempt := none

/-- A choice of one setting. How sessions are found is not a setting of the policy and is chosen
beside it (`Setup.Call`). -/
inductive Choice where
  | cookieName (name : String)
  | headerName (name : String)
  | httpOnly (on : Bool)
  | hostPrefix (on : Bool)
  | secure (on : Bool)
  | randomSize (size : RandomSize)
  | sameSite (policy : SameSite)
  | expires (instant : Option Calendar.Instant)
  | exempt (paths : Exemption)

def choose (policy : Policy) : Choice → Policy
  | .cookieName name => { policy with cookieName := name }
  | .headerName name => { policy with headerName := name }
  | .httpOnly on => { policy with httpOnly := on }
  | .hostPrefix on => { policy with hostPrefix := on }
  | .secure on => { policy with secure := on }
  | .randomSize size => { policy with randomSize := size }
  | .sameSite sameSite => { policy with sameSite := sameSite }
  | .expires instant => { policy with expires := instant }
  | .exempt paths => { policy with exempt := some paths }

/-- The standard policy after choices, the last of each setting being in force. -/
def chosen (key : List UInt8) (choices : List Choice) : Policy :=
  choices.foldl choose (standard key)

/-- Marks a cookie that only its own host can set. -/
def hostMark : String := "__Host-"

/-- The name of the token cookie. Browsers refuse the host mark on a cookie that is not secure, so
only a secure one gets it. -/
def tokenCookieName (policy : Policy) : String :=
  if policy.hostPrefix && policy.secure then hostMark ++ policy.cookieName else policy.cookieName

/-- The attributes of the token cookie, in the order in which they are written. -/
def attributes (policy : Policy) : List Attribute :=
  (if policy.httpOnly then [.httpOnly] else []) ++ [.sameSite policy.sameSite] ++
    (if policy.secure then [.secure] else []) ++ [.rootPath] ++
    policy.expires.toList.map .expires

def cookie (policy : Policy) (value : String) : Cookie :=
  ⟨policy.tokenCookieName, value, policy.attributes⟩

/-- Whether the guard lets a path through without a token. -/
def isExempt (policy : Policy) (path : String) : Bool :=
  policy.exempt.any fun paths => paths.covers path

def describeExempt (policy : Policy) : String :=
  match policy.exempt with
  | some _ => "Some(" ++ Exemption.redacted ++ ")"
  | none => "None"

def issuer (policy : Policy) : Issuer := ⟨policy.secret, policy.randomSize⟩

end Policy

end DoubleSubmit
