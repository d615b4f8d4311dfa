import DoubleSubmit.Proofs.Verdict

/-! What binds a token to its session. The messages of two sessions differ, and a token that was
issued for one of them is accepted for the other exactly if the key gives both messages one
authentication code (`Verdict.judge_token`). No other text does better: whatever is accepted for two
sessions shows such a collision (`Verdict.judge_before_other_session`). -/

namespace DoubleSubmit

/-- The authentication code that a key gives a message. -/
def Secret.code (key : Secret) (message : String) : List UInt8 :=
  Hmac.digest key.key (Text.utf8 message)

theorem Secret.length_code (key : Secret) (message : String) : (key.code message).length = 32 :=
  Hmac.length_digest _ _

/-- Signatures are as different as the codes that they spell. -/
theorem Secret.sign_eq_sign_iff {key key' : Secret} {message message' : String} :
    key.sign message = key'.sign message' ↔ key.code message = key'.code message' :=
  ⟨fun h => Base64.encode_injective h, congrArg Base64.urlSafe.encode⟩

namespace Verdict

/-- A token that one key makes for a session is judged under another key and for another session by
the codes of its two messages alone. -/
theorem judge_token (key key' : Secret) (size : RandomSize) (session session' : String)
    {bytes : List UInt8} (hbytes : bytes ≠ []) :
    judge (some key') (Issuer.token ⟨some key, size⟩ session bytes).text session' =
      if key.code (Payload.text session (Base64.urlSafe.encode bytes)) =
          key'.code (Payload.text session' (Base64.urlSafe.encode bytes)) then .accepted
      else .mismatched := by
  have hread : Token.ofText? (Issuer.token ⟨some key, size⟩ session bytes).text =
      some (Issuer.token ⟨some key, size⟩ session bytes) :=
    Token.ofText?_eq_some_iff.2 ⟨rfl, Token.separator_notMem_encode _,
      Token.separator_notMem_encode bytes, Issuer.encode_ne_empty hbytes⟩
  have hsign : key'.sign (Payload.text session' (Base64.urlSafe.encode bytes)) =
        key.sign (Payload.text session (Base64.urlSafe.encode bytes)) ↔
      key.code (Payload.text session (Base64.urlSafe.encode bytes)) =
        key'.code (Payload.text session' (Base64.urlSafe.encode bytes)) :=
    eq_comm.trans Secret.sign_eq_sign_iff
  unfold judge
  rw [hread]
  exact ite_congr (propext hsign) (fun _ => rfl) fun _ => rfl

/-- A token that is issued for one session is judged for another by whether its two messages, which
differ, have one authentication code of thirty-two bytes: if so it is accepted, and else it is
mismatched. Any text at all that is accepted for both sessions falls into a signature and a random
value whose messages for the two sessions differ and have one code. -/
theorem judge_before_other_session (key : Secret) (size : RandomSize) (entropy : Entropy)
    (mint : Mint) (a b : String) (hab : a ≠ b) :
    (∃ token, (mint.issue ⟨some key, size⟩ entropy a).issues = mint.issues ++ [⟨a, token⟩] ∧
      Payload.text a token.random ≠ Payload.text b token.random ∧
      (key.code (Payload.text a token.random)).length = 32 ∧
      (key.code (Payload.text b token.random)).length = 32 ∧
      judge (some key) token.text b =
        if key.code (Payload.text a token.random) = key.code (Payload.text b token.random) then
          .accepted
        else .mismatched) ∧
    ∀ text, judge (some key) text a = .accepted → judge (some key) text b = .accepted →
      ∃ signature random, Token.Parts text signature random ∧
        Payload.text a random ≠ Payload.text b random ∧
        key.code (Payload.text a random) = key.code (Payload.text b random) := by
  have hpayload (random : String) : Payload.text a random ≠ Payload.text b random :=
    fun h => hab (Payload.text_inj h).1
  constructor
  · exact ⟨_, rfl, hpayload _, key.length_code _, key.length_code _,
      judge_token key key size a b (entropy.window_ne_nil mint.drawn size)⟩
  · intro text ha hb
    rcases eq_or_collides_of_accepts (accepts_iff.2 ha) (accepts_iff.2 hb) with
      heq | ⟨signature, random, hparts, hne, hcode⟩
    · exact absurd heq hab
    · exact ⟨signature, random, hparts, hne, hcode⟩

/-- Under a key of one byte the first token of alice is mismatched for bob. -/
theorem token_of_alice_mismatched_for_bob : "alice" ≠ "bob" ∧
    ∃ token, (Mint.fresh.issue ⟨some ⟨[0x6b], by decide⟩, .standard⟩ .counting "alice").issues =
      [⟨"alice", token⟩] ∧
    judge (some ⟨[0x6b], by decide⟩) token.text "bob" = .mismatched := by
  obtain ⟨⟨token, hissued, -, -, -, hjudge⟩, -⟩ := judge_before_other_session
    ⟨[0x6b], by decide⟩ .standard .counting .fresh "alice" "bob" (by decide)
  have hrandom : token.random = "AAECAwQFBgcICQoLDA0ODw" :=
    congrArg (·.token.random) (List.cons.inj hissued).1.symm
  rw [hrandom, if_neg (by decide +kernel)] at hjudge
  exact ⟨by decide, token, hissued, hjudge⟩

end Verdict

end DoubleSubmit
