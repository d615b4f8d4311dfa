import DoubleSubmit.Proofs.Admission
import DoubleSubmit.Proofs.Collision
import DoubleSubmit.Proofs.Likeness

/-! Secrets as keys. Of a secret nothing counts but the block of 64 bytes that it fills
(`Hmac.isBlockOf_iff`), so secrets that fill one block are one secret to whoever uses them
(`Secret.Interchangeable.of_code_eq`). Other secrets are told apart by the authentication codes that
they give (`Secret.counts_as_key_block`). -/

namespace DoubleSubmit

theorem Sha256.digest_ne_nil (message : List UInt8) : digest message ≠ [] := by
  rw [← List.length_pos_iff, length_digest]
  decide

namespace Hmac

/-- A block is the one that a key fills: the key itself if it has at most 64 bytes, and else its
digest, with as many zeros behind it as make 64 bytes. -/
structure IsBlockOf (key block : List UInt8) : Prop where
  length_eq : block.length = 64
  of_length_le : key.length ≤ 64 → ∃ zeros, block = key ++ List.replicate zeros 0
  of_lt_length : 64 < key.length → ∃ zeros, block = Sha256.digest key ++ List.replicate zeros 0

variable {key block : List UInt8}

theorem effectiveKey_of_length_le (h : key.length ≤ 64) : effectiveKey key = key := if_pos h

theorem effectiveKey_of_lt_length (h : 64 < key.length) : effectiveKey key = Sha256.digest key :=
  if_neg (Nat.not_le.2 h)

theorem isBlockOf_keyBlock (key : List UInt8) : IsBlockOf key (keyBlock key) where
  length_eq := length_keyBlock key
  of_length_le h := ⟨_, by rw [keyBlock, effectiveKey_of_length_le h]⟩
  of_lt_length h := ⟨_, by rw [keyBlock, effectiveKey_of_lt_length h]⟩

/-- A key fills one block. -/
theorem isBlockOf_iff : IsBlockOf key block ↔ block = keyBlock key := by
  constructor
  · intro h
    obtain ⟨zeros, hzeros⟩ : ∃ zeros, block = effectiveKey key ++ List.replicate zeros 0 := by
      rcases Nat.lt_or_ge 64 key.length with hlong | hshort
      · rw [effectiveKey_of_lt_length hlong]
        exact h.of_lt_length hlong
      · rw [effectiveKey_of_length_le hshort]
        exact h.of_length_le hshort
    have hlength := h.length_eq
    rw [hzeros, List.length_append, List.length_replicate] at hlength
    have hcount : zeros = blockSize - (effectiveKey key).length :=
      Nat.eq_sub_of_add_eq' hlength
    rw [hzeros, hcount, keyBlock]
  · rintro rfl
    exact isBlockOf_keyBlock key

theorem digest_eq_of_isBlockOf {key' : List UInt8} (h : IsBlockOf key block)
    (h' : IsBlockOf key' block) : digest key' = digest key := by
  funext message
  rw [digest, digest, ← isBlockOf_iff.1 h, ← isBlockOf_iff.1 h']

/-- Zeros at the end of a key that fit into the block belong to the block. -/
theorem isBlockOf_append_zeros {front : List UInt8} {zeros : Nat}
    (hlength : (front ++ List.replicate zeros 0).length ≤ 64) :
    IsBlockOf (front ++ List.replicate zeros 0) (keyBlock front) := by
  rw [List.length_append, List.length_replicate] at hlength
  refine isBlockOf_iff.2 ?_
  have hfront : effectiveKey front = front := effectiveKey_of_length_le (by omega)
  have hpadded : effectiveKey (front ++ List.replicate zeros 0) = front ++ List.replicate zeros 0 :=
    effectiveKey_of_length_le (by rw [List.length_append, List.length_replicate]; exact hlength)
  rw [keyBlock, keyBlock, hfront, hpadded, List.append_assoc, List.replicate_append_replicate,
    List.length_append, List.length_replicate]
  congr 2
  have hsize : blockSize = 64 := rfl
  omega

/-- A key of more than a block fills the block of its digest. -/
theorem isBlockOf_digest (h : 64 < key.length) :
    IsBlockOf (Sha256.digest key) (keyBlock key) := by
  have hshort : (Sha256.digest key).length ≤ 64 := by
    rw [Sha256.length_digest]
    decide
  rw [isBlockOf_iff, keyBlock, keyBlock, effectiveKey_of_lt_length h,
    effectiveKey_of_length_le hshort]

end Hmac

namespace Secret

/-- Two secrets do the same for whoever uses them: tokens that are issued with them over one entropy
are the same, every text is worth the same under both, and so are the answers of every run of a
protection that has the one or the other. -/
structure Interchangeable (key key' : Secret) : Prop where
  issueAll_eq : ∀ size entropy (mint : Mint) sessions,
    mint.issueAll ⟨some key', size⟩ entropy sessions =
      mint.issueAll ⟨some key, size⟩ entropy sessions
  judge_eq : ∀ text session,
    Verdict.judge (some key') text session = Verdict.judge (some key) text session
  answers_eq : ∀ (policy : Policy) provider entropy visits mint,
    (Protection.run ⟨{ policy with secret := some key' }, provider, entropy⟩ visits mint).1 =
      (Protection.run ⟨{ policy with secret := some key }, provider, entropy⟩ visits mint).1

variable {key key' : Secret}

section

variable (h : ∀ message, key'.code message = key.code message)

include h

theorem sign_eq_of_code_eq : key'.sign = key.sign :=
  funext fun message => sign_eq_sign_iff.2 (h message)

theorem alike_of_code_eq (policy : Policy) :
    Policy.Alike Eq { policy with secret := some key } { policy with secret := some key' } where
  eq_but_secret := rfl
  isSome_secret := rfl
  signatureFor_eq hsame random := by
    simp only [Token.signatureFor, sign_eq_of_code_eq h, hsame]

theorem token_eq_of_code_eq (size : RandomSize) (session : String) (bytes : List UInt8) :
    Issuer.token ⟨some key', size⟩ session bytes = Issuer.token ⟨some key, size⟩ session bytes := by
  rw [Issuer.token, Issuer.token, Token.signed_some, Token.signed_some, sign_eq_of_code_eq h]

/-- Secrets that give every message one code do the same. -/
theorem Interchangeable.of_code_eq : key.Interchangeable key' where
  issueAll_eq size entropy mint sessions := by
    have hissue : ∀ (mint : Mint) (session : String),
        mint.issue ⟨some key', size⟩ entropy session =
          mint.issue ⟨some key, size⟩ entropy session := by
      intro mint session
      rw [Mint.issue, Mint.issue, Mint.next, Mint.next, token_eq_of_code_eq h]
    unfold Mint.issueAll
    simp only [hissue]
  judge_eq text session :=
    -- Any policy will do, as a verdict looks at its secret only.
    (alike_of_code_eq h (.standard [])).judge_eq rfl text
  answers_eq policy provider entropy visits mint := by
    let p : Protection := ⟨{ policy with secret := some key }, provider, entropy⟩
    let p' : Protection := ⟨{ policy with secret := some key' }, provider, entropy⟩
    have halike : p.Alike Eq p' := ⟨alike_of_code_eq h policy, rfl⟩
    have hprovider : p'.provider = p.provider := rfl
    have hvisits : List.Forall₂ (Visit.Alike Eq p p') visits visits :=
      List.forall₂_same.2 fun visit _ => .of_provider_eq hprovider visit
    exact (halike.run hvisits rfl).1

end

theorem Interchangeable.of_digest_eq (h : Hmac.digest key'.key = Hmac.digest key.key) :
    key.Interchangeable key' :=
  .of_code_eq fun message => by rw [code, code, h]

/-- A token that is made with one secret is judged under another by the codes that the two give its
message: it is accepted if they are one code, and else it is mismatched. Secrets that fill one block
are interchangeable. They do so in particular if they have at most 64 bytes and differ only in zeros
at their ends, or if one of them has more than 64 bytes and the other is its digest. -/
theorem counts_as_key_block (key key' : Secret) :
    (∀ size entropy (mint : Mint) session, ∃ token,
      (mint.issue ⟨some key, size⟩ entropy session).issues = mint.issues ++ [⟨session, token⟩] ∧
      Verdict.judge (some key') token.text session =
        if key.code (Payload.text session token.random) =
            key'.code (Payload.text session token.random) then .accepted
        else .mismatched) ∧
    (∀ block, Hmac.IsBlockOf key.key block → Hmac.IsBlockOf key'.key block →
      key.Interchangeable key') ∧
    (∀ front zeros zeros', key.key = front ++ List.replicate zeros 0 →
      key'.key = front ++ List.replicate zeros' 0 → key.key.length ≤ 64 → key'.key.length ≤ 64 →
        key.Interchangeable key') ∧
    (64 < key.key.length → key'.key = Sha256.digest key.key →
      key.Interchangeable key' ∧ key'.Interchangeable key) := by
  refine ⟨?_, ?_, ?_, ?_⟩
  · intro size entropy mint session
    exact ⟨_, rfl, Verdict.judge_token key key' size session session
      (entropy.window_ne_nil mint.drawn size)⟩
  · intro block hblock hblock'
    exact .of_digest_eq (Hmac.digest_eq_of_isBlockOf hblock hblock')
  · intro front zeros zeros' hkey hkey' hlength hlength'
    rw [hkey] at hlength
    rw [hkey'] at hlength'
    refine .of_digest_eq ?_
    rw [hkey, hkey']
    exact Hmac.digest_eq_of_isBlockOf (Hmac.isBlockOf_append_zeros hlength)
      (Hmac.isBlockOf_append_zeros hlength')
  · intro hlong hdigest
    have heq : Hmac.digest key'.key = Hmac.digest key.key := by
      rw [hdigest]
      exact Hmac.digest_eq_of_isBlockOf (Hmac.isBlockOf_keyBlock _) (Hmac.isBlockOf_digest hlong)
    exact ⟨.of_digest_eq heq, .of_digest_eq heq.symm⟩

end Secret

/-! ## Keys of one block -/

namespace Sample

/-- The key of the sample protection with a zero at its end. -/
def paddedKey : Secret := ⟨[0x6b, 0], List.cons_ne_nil _ _⟩

def otherKey : Secret := ⟨[0x6c], List.cons_ne_nil _ _⟩

/-- A key of one byte more than a block. -/
def longKey : Secret := ⟨List.replicate 65 1, List.cons_ne_nil 1 (List.replicate 64 1)⟩

def hashedKey : Secret := ⟨Sha256.digest longKey.key, Sha256.digest_ne_nil _⟩

end Sample

namespace Secret

/-- A zero at the end of the sample key changes nothing, and no more does hashing a key of
sixty-five bytes. A token that is made with another key of one byte is mismatched. -/
theorem padded_and_hashed_keys_interchangeable :
    (Hmac.IsBlockOf Sample.key.key (Hmac.keyBlock Sample.key.key) ∧
      Hmac.IsBlockOf Sample.paddedKey.key (Hmac.keyBlock Sample.key.key) ∧
      Sample.key.Interchangeable Sample.paddedKey ∧
      Sample.paddedKey.Interchangeable Sample.key) ∧
    (Sample.longKey.key.length = 65 ∧ Sample.longKey.Interchangeable Sample.hashedKey ∧
      Sample.hashedKey.Interchangeable Sample.longKey) ∧
    ∃ token, (Mint.fresh.issue ⟨some Sample.key, .standard⟩ .counting "alice").issues =
        [⟨"alice", token⟩] ∧
      Verdict.judge (some Sample.otherKey) token.text "alice" = .mismatched := by
  have hkey : Hmac.IsBlockOf Sample.key.key (Hmac.keyBlock Sample.key.key) :=
    Hmac.isBlockOf_keyBlock _
  have hpadded : Hmac.IsBlockOf Sample.paddedKey.key (Hmac.keyBlock Sample.key.key) :=
    Hmac.isBlockOf_append_zeros (show ([0x6b] ++ List.replicate 1 0 : List UInt8).length ≤ 64 by
      decide)
  refine ⟨⟨hkey, hpadded, ?_, ?_⟩, ⟨rfl, ?_⟩, ?_⟩
  · obtain ⟨-, hblock, -⟩ := counts_as_key_block Sample.key Sample.paddedKey
    exact hblock _ hkey hpadded
  · obtain ⟨-, -, hzeros, -⟩ := counts_as_key_block Sample.paddedKey Sample.key
    exact hzeros [0x6b] 1 0 rfl rfl (by decide) (by decide)
  · obtain ⟨-, -, -, hhashed⟩ := counts_as_key_block Sample.longKey Sample.hashedKey
    exact hhashed (by decide) rfl
  · obtain ⟨hjudge, -⟩ := counts_as_key_block Sample.key Sample.otherKey
    obtain ⟨token, hissued, hverdict⟩ := hjudge .standard .counting Mint.fresh "alice"
    have hrandom : token.random = "AAECAwQFBgcICQoLDA0ODw" :=
      congrArg (·.token.random) (List.cons.inj hissued).1.symm
    rw [hrandom, if_neg (by decide +kernel)] at hverdict
    exact ⟨token, hissued, hverdict⟩

end Secret

end DoubleSubmit
