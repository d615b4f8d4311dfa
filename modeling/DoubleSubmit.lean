import DoubleSubmit.Base64
import DoubleSubmit.Calendar.Basic
import DoubleSubmit.Calendar.Lemmas
import DoubleSubmit.Cookie.Basic
import DoubleSubmit.Cookie.Jar
import DoubleSubmit.Cookie.Received
import DoubleSubmit.Entropy
import DoubleSubmit.Error
import DoubleSubmit.Exemption
import DoubleSubmit.Guard
import DoubleSubmit.Handle
import DoubleSubmit.Handler
import DoubleSubmit.Hmac
import DoubleSubmit.Http.Header
import DoubleSubmit.Http.Method
import DoubleSubmit.Http.Request
import DoubleSubmit.Http.Uri
import DoubleSubmit.Named
import DoubleSubmit.Payload
import DoubleSubmit.Policy
import DoubleSubmit.Protection
import DoubleSubmit.Response
import DoubleSubmit.Secret
import DoubleSubmit.Session
import DoubleSubmit.Sha256
import DoubleSubmit.Text.Blank
import DoubleSubmit.Text.Decimal
import DoubleSubmit.Text.Order
import DoubleSubmit.Text.Percent
import DoubleSubmit.Text.Split
import DoubleSubmit.Text.Utf8
import DoubleSubmit.Token.Basic
import DoubleSubmit.Token.Mint
import DoubleSubmit.Token.Requested
import DoubleSubmit.Token.Verdict
import DoubleSubmit.Proofs.Payload
import DoubleSubmit.Proofs.Verdict
import DoubleSubmit.Proofs.Collision
import DoubleSubmit.Proofs.RoundTrip
import DoubleSubmit.Proofs.Serving
import DoubleSubmit.Proofs.Issuance
import DoubleSubmit.Proofs.Request
import DoubleSubmit.Proofs.Admission
import DoubleSubmit.Proofs.Provenance
import DoubleSubmit.Proofs.Cookie.Sent
import DoubleSubmit.Proofs.Cookie.SetCookie
import DoubleSubmit.Proofs.Cookie.Spelling
import DoubleSubmit.Proofs.Cookie.Clean
import DoubleSubmit.Proofs.Draft
import DoubleSubmit.Proofs.Binding
import DoubleSubmit.Proofs.Echo
import DoubleSubmit.Proofs.Cell
import DoubleSubmit.Proofs.Cookie.Brought
import DoubleSubmit.Proofs.Holding
import DoubleSubmit.Proofs.Likeness
import DoubleSubmit.Proofs.Unsigned
import DoubleSubmit.Proofs.Windows
import DoubleSubmit.Proofs.Verifying
import DoubleSubmit.Proofs.Supply
import DoubleSubmit.Proofs.HttpDate
import DoubleSubmit.Proofs.Settings
import DoubleSubmit.Proofs.TokenCookie
import DoubleSubmit.Proofs.Target
import DoubleSubmit.Proofs.KeyBlock
import DoubleSubmit.Proofs.Sessions
import DoubleSubmit.Proofs.Unprotected
