import DoubleSubmit.Payload
import DoubleSubmit.Secret
import DoubleSubmit.Text.Split

/-! Tokens: a signature and a random value, written with a dot between them. A text is a token
when it holds exactly one dot and something after it (`ofText?_eq_some_iff`). -/

namespace DoubleSubmit

/-- A token, bound by its signature to a session that it does not name. -/
structure Token where
  signature : String
  random : String
  deriving DecidableEq, Repr

namespace Token

def separator : Char := '.'

/-- The token as it travels in a cookie or a header. -/
def text (token : Token) : String :=
  token.signature ++ String.singleton separator ++ token.random

/-- Reads a token; a text without a separator, with two of them or with nothing behind it is
none. -/
def ofText? (text : String) : Option Token :=
  match Text.cut? separator text.toList with
  | none => none
  | some (signature, random) =>
    if random.isEmpty || random.contains separator then none
    else some ⟨String.ofList signature, String.ofList random⟩

/-- The signature of a random value for a session, empty when there is no secret. -/
def signatureFor (secret : Option Secret) (session random : String) : String :=
  match secret with
  | none => ""
  | some secret => secret.sign (Payload.text session random)

def signed (secret : Option Secret) (session random : String) : Token :=
  ⟨signatureFor secret session random, random⟩

theorem ofText?_eq_some_iff {text : String} {token : Token} :
    ofText? text = some token ↔ text = token.text ∧ separator ∉ token.signature.toList ∧
      separator ∉ token.random.toList ∧ token.random ≠ "" := by
  obtain ⟨signature, random⟩ := token
  unfold ofText? Token.text
  cases h : Text.cut? separator text.toList with
  | none =>
    have h := Text.cut?_eq_none_iff.1 h
    simp only [reduceCtorEq, false_iff]
    rintro ⟨rfl, -⟩
    simp at h
  | some p =>
    obtain ⟨before, after⟩ := p
    have h := Text.cut?_eq_some_iff.1 h
    constructor
    · intro he
      simp only [Bool.or_eq_true, List.isEmpty_iff, List.contains_iff_mem] at he
      split at he
      · cases he
      · next hn =>
        simp only [Option.some.injEq, Token.mk.injEq] at he
        obtain ⟨rfl, rfl⟩ := he
        refine ⟨?_, by simpa using h.2, ?_, ?_⟩
        · apply String.toList_injective
          simp [h.1]
        · simpa using fun hm => hn (Or.inr hm)
        · intro he
          have := congrArg String.toList he
          exact hn (Or.inl (by simpa using this))
    · rintro ⟨rfl, hs, hr, hne⟩
      have hsplit : Text.cut? separator
          (signature ++ String.singleton separator ++ random).toList
          = some (signature.toList, random.toList) :=
        Text.cut?_eq_some_iff.2 ⟨by simp, hs⟩
      rw [Text.cut?_eq_some_iff.2 h] at hsplit
      simp only [Option.some.injEq, Prod.mk.injEq] at hsplit
      obtain ⟨rfl, rfl⟩ := hsplit
      have : random.toList ≠ [] := fun hn => hne (by simpa using hn)
      simp [hr, this]

end Token

end DoubleSubmit
