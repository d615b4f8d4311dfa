import DoubleSubmit.Token.Basic

/-! What a text is worth as a token of a session. Its shape is judged first, then whether there
is a secret, then its signature (`judge_eq_accepted_iff`). There is always a verdict and never an
error in its place, for every secret can sign, however long its key is. -/

namespace DoubleSubmit

/-- The outcome of judging a text. Only `accepted` lets a request through. -/
inductive Verdict where
  | accepted
  /-- Not exactly one separator, or nothing behind it. -/
  | malformed
  /-- The signature is not that of the session and the random value. -/
  | mismatched
  /-- There is no secret: a token without a signature is never accepted. -/
  | signingDisabled
  deriving DecidableEq, Repr

namespace Verdict

def isAccepted (verdict : Verdict) : Bool := verdict == .accepted

def name : Verdict → String
  | .accepted => "Accepted"
  | .malformed => "Malformed"
  | .mismatched => "Mismatched"
  | .signingDisabled => "SigningDisabled"

def judge (secret : Option Secret) (text session : String) : Verdict :=
  match Token.ofText? text, secret with
  | none, _ => .malformed
  | some _, none => .signingDisabled
  | some token, some secret =>
    if secret.sign (Payload.text session token.random) = token.signature then .accepted
    else .mismatched

def accepts (secret : Option Secret) (text session : String) : Bool :=
  (judge secret text session).isAccepted

theorem judge_eq_accepted_iff {secret : Option Secret} {text session : String} :
    judge secret text session = .accepted ↔
      ∃ key token, secret = some key ∧ Token.ofText? text = some token ∧
        key.sign (Payload.text session token.random) = token.signature := by
  unfold judge
  cases Token.ofText? text <;> cases secret <;> simp

theorem accepts_iff {secret : Option Secret} {text session : String} :
    accepts secret text session ↔ judge secret text session = .accepted := by
  simp [accepts, isAccepted]

end Verdict

end DoubleSubmit
