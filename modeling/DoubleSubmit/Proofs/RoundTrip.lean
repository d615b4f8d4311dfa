import DoubleSubmit.Proofs.Verdict
import DoubleSubmit.Token.Requested

/-! A token that is issued is read back. Its random value is the drawn bytes in digits that cookies
and headers carry, its signature has forty-three of these digits or none (`Token.Format`), and it is
accepted for its session by whoever has the key that it was issued with
(`Mint.issue_round_trip`). -/

namespace DoubleSubmit

/-- The format of a token that is made with a key, which may be empty, over random bytes: one
separator, behind it the bytes in URL-safe base64, a third more digits than bytes, and before it a
signature of forty-three digits, or nothing if there is no key. -/
structure Token.Format (key bytes : List UInt8) (token : Token) : Prop where
  parts : Parts token.text token.signature token.random
  random_digits : ∀ c ∈ token.random.toList, Base64.isUrlSafeDigit c
  random_length : token.random.length = (4 * bytes.length + 2) / 3
  decode_random : Base64.urlSafe.decode? token.random = some bytes
  signature_digits : ∀ c ∈ token.signature.toList, Base64.isUrlSafeDigit c
  signature_length : token.signature.length = if key = [] then 0 else 43

namespace Token

theorem isUrlSafeDigit_of_mem_signatureFor {secret : Option Secret} {session random : String}
    {c : Char} (h : c ∈ (signatureFor secret session random).toList) :
    Base64.isUrlSafeDigit c := by
  cases secret with
  | none => cases h
  | some key => exact Base64.isUrlSafeDigit_of_mem_encode h

theorem length_signatureFor (key : List UInt8) (session random : String) :
    (signatureFor (Secret.ofKey? key) session random).length = if key = [] then 0 else 43 := by
  by_cases hkey : key = []
  · rw [Secret.ofKey?_eq_none_iff.2 hkey, if_pos hkey]
    rfl
  · rw [Secret.ofKey?_of_ne hkey, if_neg hkey]
    exact Secret.length_sign _ _

theorem format_signed (key : List UInt8) (session : String) {bytes : List UInt8}
    (hbytes : bytes ≠ []) :
    Format key bytes (signed (Secret.ofKey? key) session (Base64.urlSafe.encode bytes)) where
  parts := parts_append_iff.2 ⟨fun h => absurd (isUrlSafeDigit_of_mem_signatureFor h) (by decide),
    separator_notMem_encode bytes, Issuer.encode_ne_empty hbytes⟩
  random_digits _ := Base64.isUrlSafeDigit_of_mem_encode
  random_length := Base64.length_encode_urlSafe bytes
  decode_random := Base64.decode?_encode bytes
  signature_digits _ := isUrlSafeDigit_of_mem_signatureFor
  signature_length := length_signatureFor key session _

/-- The text of a token tells the bytes that it was made over. -/
theorem Format.bytes_eq {key key' bytes bytes' : List UInt8} {token token' : Token}
    (h : Format key bytes token) (h' : Format key' bytes' token')
    (htext : token.text = token'.text) : bytes = bytes' := by
  have hread := parts_iff.1 h.parts
  rw [htext, parts_iff.1 h'.parts] at hread
  have hrandom : token'.random = token.random := congrArg Token.random (Option.some.inj hread)
  have hdecode := h'.decode_random
  rw [hrandom, h.decode_random] at hdecode
  exact Option.some.inj hdecode

end Token

/-- Whatever the key, the number of random bytes and their source, issuing a token draws as many
bytes and no more; the token has the format of a token over these bytes, so that no token over other
bytes is written like it, and the verdict on it for its session and under its key is that it is
accepted, or that signing is off when the key is empty. Issuing for a request is issuing for its
session. -/
theorem Mint.issue_round_trip (key : List UInt8) (size : RandomSize) (entropy : Entropy)
    (mint : Mint) (session : String) :
    ∃ bytes token, bytes = entropy.window mint.drawn size.bytes ∧ bytes.length = size.bytes ∧
      mint.issue ⟨Secret.ofKey? key, size⟩ entropy session =
        ⟨mint.drawn + size.bytes, mint.issues ++ [⟨session, token⟩]⟩ ∧
      (∀ (provider : SessionProvider) (request : Http.Request),
        provider.session request = session →
          mint.issueFor ⟨Secret.ofKey? key, size⟩ entropy provider request 1 =
            mint.issue ⟨Secret.ofKey? key, size⟩ entropy session) ∧
      Token.Format key bytes token ∧
      (∀ (other : List UInt8) (size' : RandomSize) (entropy' : Entropy) (mint' : Mint)
        (session' : String),
        (mint'.next ⟨Secret.ofKey? other, size'⟩ entropy' session').text = token.text →
          entropy'.window mint'.drawn size'.bytes = bytes) ∧
      Verdict.judge (Secret.ofKey? key) token.text session =
        if key = [] then .signingDisabled else .accepted := by
  have hformat := Token.format_signed key session (entropy.window_ne_nil mint.drawn size)
  refine ⟨_, mint.next ⟨Secret.ofKey? key, size⟩ entropy session, rfl, Entropy.length_window _ _ _,
    rfl, ?_, hformat, ?_, ?_⟩
  · intro provider request hsession
    rw [← hsession]
    rfl
  · intro other size' entropy' mint' session' htext
    exact (Token.format_signed other session' (entropy'.window_ne_nil mint'.drawn size')).bytes_eq
      hformat htext
  · refine (Verdict.judge_of_parts hformat.parts key session).trans ?_
    split
    · rfl
    · exact if_pos rfl

/-- The first token of alice under a key of one byte, over sixteen counting bytes. -/
theorem Mint.issue_round_trip_counting :
    ∃ token, (Mint.fresh.issueFor ⟨Secret.ofKey? [0x6b], .standard⟩ .counting
        (.fixed (some "alice")) ⟨⟨"GET", by decide⟩, "/", [], none⟩ 1).issues =
          [⟨"alice", token⟩] ∧
      token.random.length = 22 ∧ token.signature.length = 43 ∧
      Verdict.judge (Secret.ofKey? [0x6b]) token.text "alice" = .accepted := by
  obtain ⟨bytes, token, -, hlength, hissue, hissueFor, hformat, -, hjudge⟩ :=
    Mint.issue_round_trip [0x6b] .standard .counting .fresh "alice"
  refine ⟨token, ?_, ?_, hformat.signature_length, hjudge⟩
  · rw [hissueFor _ _ rfl, hissue]
    rfl
  · rw [hformat.random_length, hlength]
    rfl

end DoubleSubmit
