import DoubleSubmit.Base64
import DoubleSubmit.Hmac
import DoubleSubmit.Text.Utf8

/-! The key that signs tokens. An empty key is no key: without one, signing is off. -/

namespace DoubleSubmit

/-- A signing key, not empty. -/
structure Secret where
  key : List UInt8
  key_ne_nil : key ≠ []

namespace Secret

def ofKey? (key : List UInt8) : Option Secret :=
  if h : key ≠ [] then some ⟨key, h⟩ else none

/-- How a secret is shown: its key is never printed. -/
def redacted : String := "SigningSecret(..)"

/-- The signature of a message: its authentication code in URL-safe base64. -/
def sign (secret : Secret) (message : String) : String :=
  Base64.urlSafe.encode (Hmac.digest secret.key (Text.utf8 message))

theorem ofKey?_eq_none_iff {key : List UInt8} : ofKey? key = none ↔ key = [] := by
  simp [ofKey?]

end Secret

end DoubleSubmit
