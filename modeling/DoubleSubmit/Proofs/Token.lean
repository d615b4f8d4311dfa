import DoubleSubmit.Proofs.Payload
import DoubleSubmit.Proofs.Text.Escapes
import DoubleSubmit.Text.Blank
import DoubleSubmit.Token.Mint
import DoubleSubmit.Token.Verdict

/-! Tokens as texts. A token is written in characters that every reader takes as they are
(`Token.Plain`). A text is accepted for a session exactly if it signs the session
(`Verdict.accepts_iff_signs`); an issued token does (`Issuer.accepts_token`), and a text that is
accepted for two sessions shows two messages with one authentication code
(`Verdict.eq_or_collides_of_accepts`). -/

namespace DoubleSubmit

open Text

/-! ## Characters -/

theorem Base64.isUrlSafeDigit_of_mem_encode {bytes : List UInt8} {c : Char}
    (h : c ∈ (urlSafe.encode bytes).toList) : isUrlSafeDigit c := by
  rw [encode, String.toList_ofList] at h
  exact isUrlSafeDigit_of_mem h

namespace Token

/-- A text in the characters of tokens. -/
def Plain (text : String) : Prop := ∀ c ∈ text.toList, Base64.isUrlSafeDigit c ∨ c = separator

/-- What a character of a token is to the readers of headers and cookies. -/
structure PlainChar (c : Char) : Prop where
  lt : c.toNat < 0x80
  field : Http.isFieldChar c
  plain : Http.isPlainByte (byte c)
  not_blank : isBlank c = false
  ne_percent : c ≠ '%'
  ne_semicolon : c ≠ ';'

theorem plainChar {c : Char} (h : Base64.isUrlSafeDigit c ∨ c = separator) : PlainChar c := by
  have hlt : c.toNat < 0x80 := by
    simp only [Base64.isUrlSafeDigit, Bool.or_eq_true, beq_iff_eq] at h
    rcases h with ((h | rfl) | rfl) | rfl
    · exact toNat_lt_of_isAlphanum h
    · decide
    · decide
    · decide
  have hascii : Base64.isUrlSafeDigit c ∨ c = separator →
      Http.isFieldChar c ∧ Http.isPlainByte (byte c) ∧ isBlank c = false ∧ c ≠ '%' ∧ c ≠ ';' := by
    apply forall_ascii _ hlt
    decide +kernel
  obtain ⟨hfield, hplain, hblank, hpercent, hsemicolon⟩ := hascii h
  exact ⟨hlt, hfield, hplain, hblank, hpercent, hsemicolon⟩

namespace Plain

variable {text : String} (h : Plain text)

include h

theorem isAscii : IsAscii text.toList := fun c hc => (plainChar (h c hc)).lt

theorem isPlainByte {b : UInt8} (hb : b ∈ utf8 text) : Http.isPlainByte b := by
  rw [utf8_of_isAscii h.isAscii] at hb
  obtain ⟨c, hc, rfl⟩ := List.mem_map.1 hb
  exact (plainChar (h c hc)).plain

theorem trim_eq : trim text.toList = text.toList :=
  trim_eq_self (fun c hc => (plainChar (h c (List.mem_of_mem_head? hc))).not_blank)
    fun c hc => (plainChar (h c (List.mem_of_mem_getLast? hc))).not_blank

theorem not_hasEscape : ¬Percent.HasEscape text.toList :=
  Percent.not_hasEscape_of_not_mem fun hmem => (plainChar (h _ hmem)).ne_percent rfl

theorem semicolon_notMem : ';' ∉ text.toList := fun hmem => (plainChar (h _ hmem)).ne_semicolon rfl

theorem of_held {held : String} (hheld : some text = some held) : Plain held :=
  Option.some.inj hheld ▸ h

end Plain

theorem plain_text {token : Token} (hsignature : Plain token.signature)
    (hrandom : Plain token.random) : Plain token.text := by
  intro c hc
  rw [Token.text, String.toList_append, String.toList_append, List.mem_append, List.mem_append,
    String.toList_singleton, List.mem_singleton] at hc
  rcases hc with (hc | hc) | hc
  · exact hsignature c hc
  · exact .inr hc
  · exact hrandom c hc

theorem plain_encode (bytes : List UInt8) : Plain (Base64.urlSafe.encode bytes) :=
  fun _ hc => .inl (Base64.isUrlSafeDigit_of_mem_encode hc)

theorem plain_signed (secret : Option Secret) (session : String) (bytes : List UInt8) :
    Plain (signed secret session (Base64.urlSafe.encode bytes)).text := by
  refine plain_text ?_ (plain_encode bytes)
  cases secret with
  | none =>
    intro c hc
    cases hc
  | some key => exact plain_encode _

end Token

/-! ## Signatures -/

theorem Token.separator_notMem_encode (bytes : List UInt8) :
    separator ∉ (Base64.urlSafe.encode bytes).toList :=
  fun h => absurd (Base64.isUrlSafeDigit_of_mem_encode h) (by decide)

/-- A text falls into a signature and a random value: it holds one dot, and something stands behind
the dot. -/
structure Token.Parts (text signature random : String) : Prop where
  text_eq : text = signature ++ "." ++ random
  one_separator : text.toList.count '.' = 1
  random_ne_empty : random ≠ ""

/-- A text signs a session: it holds one dot, something stands behind the dot, and before it the
signature of the session and of what stands behind it. -/
def Token.Signs (key : Secret) (text session : String) : Prop :=
  ∃ signature random, text = signature ++ "." ++ random ∧ text.toList.count '.' = 1 ∧
    random ≠ "" ∧ signature = key.sign (Payload.text session random)

theorem Token.count_text (token : Token) : token.text.toList.count separator =
    token.signature.toList.count separator + token.random.toList.count separator + 1 := by
  rw [Token.text, String.toList_append, String.toList_append, String.toList_singleton,
    List.count_append, List.count_append, List.count_singleton_self]
  omega

theorem Token.parts_iff {text signature random : String} :
    Parts text signature random ↔ ofText? text = some ⟨signature, random⟩ := by
  have htotal := count_text ⟨signature, random⟩
  rw [ofText?_eq_some_iff]
  constructor
  · intro ⟨htext, hcount, hne⟩
    rw [show Token.text ⟨signature, random⟩ = text from htext.symm,
      show text.toList.count separator = 1 from hcount] at htotal
    exact ⟨htext, List.count_eq_zero.1 (by omega), List.count_eq_zero.1 (by omega), hne⟩
  · intro ⟨htext, hsignature, hrandom, hne⟩
    refine ⟨htext, ?_, hne⟩
    rw [List.count_eq_zero_of_not_mem hsignature, List.count_eq_zero_of_not_mem hrandom,
      ← htext] at htotal
    exact htotal

theorem Verdict.accepts_iff_signs {secret : Option Secret} {text session : String} :
    accepts secret text session ↔ ∃ key, secret = some key ∧ Token.Signs key text session := by
  rw [accepts_iff, judge_eq_accepted_iff]
  constructor
  · intro ⟨key, token, hkey, htoken, hsign⟩
    have hparts : Token.Parts text token.signature token.random := Token.parts_iff.2 htoken
    exact ⟨key, hkey, token.signature, token.random, hparts.text_eq, hparts.one_separator,
      hparts.random_ne_empty, hsign.symm⟩
  · intro ⟨key, hkey, signature, random, htext, hcount, hne, hsign⟩
    exact ⟨key, ⟨signature, random⟩, hkey, Token.parts_iff.1 ⟨htext, hcount, hne⟩, hsign.symm⟩

theorem Token.signed_some (key : Secret) (session random : String) :
    signed (some key) session random = ⟨key.sign (Payload.text session random), random⟩ := rfl

theorem Base64.length_encode_urlSafe (bytes : List UInt8) :
    (urlSafe.encode bytes).length = (4 * bytes.length + 2) / 3 := by
  rw [encode, String.length_ofList, length_encodeChars_urlSafe]

/-- A signature has forty-three digits, as many as its thirty-two bytes need. -/
theorem Secret.length_sign (key : Secret) (message : String) : (key.sign message).length = 43 := by
  rw [sign, Base64.length_encode_urlSafe, Hmac.length_digest]

/-- A text that signs a session is a token with the signature of the session. -/
theorem Token.exists_of_signs {secret : Option Secret} {key : Secret} {text session : String}
    (hkey : secret = some key) (h : Signs key text session) : ∃ token,
      ofText? text = some token ∧ token = signed secret session token.random := by
  have haccepts := Verdict.accepts_iff_signs.2 ⟨key, hkey, h⟩
  obtain ⟨key', token, hkey', htoken, hsign⟩ :=
    Verdict.judge_eq_accepted_iff.1 (Verdict.accepts_iff.1 haccepts)
  refine ⟨token, htoken, ?_⟩
  rw [hkey', signed_some, hsign]

theorem Entropy.window_ne_nil (entropy : Entropy) (start : Nat) (size : RandomSize) :
    entropy.window start size.bytes ≠ [] := by
  rw [← List.length_pos_iff, length_window]
  exact size.bytes_pos

namespace Issuer

variable {issuer : Issuer} {key : Secret}

theorem encode_ne_empty {bytes : List UInt8} (h : bytes ≠ []) :
    Base64.urlSafe.encode bytes ≠ "" := by
  intro hempty
  have hlength := Base64.length_encodeChars_urlSafe bytes
  have hbytes := List.length_pos_iff.2 h
  rw [Base64.encode, String.ofList_eq_empty_iff] at hempty
  rw [hempty, List.length_nil] at hlength
  omega

theorem accepts_token (hkey : issuer.secret = some key) (session : String) {bytes : List UInt8}
    (hbytes : bytes ≠ []) :
    Verdict.accepts (some key) (issuer.token session bytes).text session := by
  have hsigned : issuer.token session bytes =
      ⟨key.sign (Payload.text session (Base64.urlSafe.encode bytes)),
        Base64.urlSafe.encode bytes⟩ := by
    rw [token, hkey, Token.signed_some]
  rw [hsigned, Verdict.accepts_iff, Verdict.judge_eq_accepted_iff]
  exact ⟨key, _, rfl, Token.ofText?_eq_some_iff.2 ⟨rfl, Token.separator_notMem_encode _,
    Token.separator_notMem_encode bytes, encode_ne_empty hbytes⟩, rfl⟩

end Issuer

section

variable {issuer : Issuer} (mint : Mint) (entropy : Entropy) (session : String)

theorem Mint.plain_next : Token.Plain (mint.next issuer entropy session).text :=
  Token.plain_signed _ _ _

theorem Mint.accepts_next {key : Secret} (hkey : issuer.secret = some key) :
    Verdict.accepts (some key) (mint.next issuer entropy session).text session :=
  Issuer.accepts_token hkey session (entropy.window_ne_nil _ _)

end

/-! ## Collisions -/

/-- Two messages collide: they differ and have one authentication code. -/
def Secret.Collides (key : Secret) (message message' : String) : Prop :=
  message ≠ message' ∧ Hmac.digest key.key (utf8 message) = Hmac.digest key.key (utf8 message')

theorem Secret.eq_or_collides_of_sign_eq {key : Secret} {message message' : String}
    (h : key.sign message = key.sign message') :
    message = message' ∨ key.Collides message message' := by
  by_cases hmessage : message = message'
  · exact .inl hmessage
  · exact .inr ⟨hmessage, Base64.encode_injective h⟩

/-- A text is accepted for one session only, unless the messages of its random value collide. -/
theorem Verdict.eq_or_collides_of_accepts {key : Secret} {text session session' : String}
    (h : accepts (some key) text session) (h' : accepts (some key) text session') :
    session = session' ∨ ∃ signature random, Token.Parts text signature random ∧
      key.Collides (Payload.text session random) (Payload.text session' random) := by
  obtain ⟨_, token, hkey, htoken, hsign⟩ := judge_eq_accepted_iff.1 (accepts_iff.1 h)
  obtain ⟨_, token', hkey', htoken', hsign'⟩ := judge_eq_accepted_iff.1 (accepts_iff.1 h')
  cases hkey
  cases hkey'
  have hparts : Token.Parts text token.signature token.random := Token.parts_iff.2 htoken
  rw [htoken] at htoken'
  cases htoken'
  rcases Secret.eq_or_collides_of_sign_eq (hsign.trans hsign'.symm) with hpayload | hcollides
  · exact .inl (Payload.text_inj hpayload).1
  · exact .inr ⟨_, _, hparts, hcollides⟩

end DoubleSubmit
