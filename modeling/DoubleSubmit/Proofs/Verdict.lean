import DoubleSubmit.Proofs.Token

/-! The verdict on a text is settled by its form, then by whether there is a key, and then by its
signature. A text has the form of a token when it holds one separator and something behind it
(`Token.ofText?_eq_none_iff`), and to each session and random value belongs one signature with which
it is accepted (`Verdict.judge_append_eq_accepted_iff`). -/

namespace DoubleSubmit

namespace Token

variable {text signature random : String}

theorem parts_append_iff : Parts (signature ++ "." ++ random) signature random ↔
    '.' ∉ signature.toList ∧ '.' ∉ random.toList ∧ random ≠ "" := by
  rw [parts_iff, ofText?_eq_some_iff]
  exact and_iff_right rfl

/-- A text has the form of a token unless its separators are not one, or nothing stands behind
it. -/
theorem ofText?_eq_none_iff :
    ofText? text = none ↔ text.toList.count '.' ≠ 1 ∨ ∃ front, text = front ++ "." := by
  constructor
  · intro hnone
    by_cases hcount : text.toList.count '.' = 1
    · obtain ⟨front, back, hsplit⟩ := List.append_of_mem
        (List.count_pos_iff.1 (hcount ▸ Nat.one_pos))
      by_cases hback : back = []
      · refine .inr ⟨String.ofList front, String.toList_injective ?_⟩
        simp [hsplit, hback]
      · have hparts : Parts text (String.ofList front) (String.ofList back) := by
          refine ⟨String.toList_injective ?_, hcount, by simpa using hback⟩
          simp [hsplit]
        rw [parts_iff, hnone] at hparts
        cases hparts
    · exact .inl hcount
  · intro h
    refine Option.eq_none_iff_forall_not_mem.2 fun token htoken => ?_
    have hparts : Parts text token.signature token.random := parts_iff.2 htoken
    rcases h with hcount | ⟨front, hfront⟩
    · exact hcount hparts.one_separator
    · -- The text ends with its random value, which holds no separator.
      obtain ⟨htext, -, hrandom, hne⟩ := ofText?_eq_some_iff.1 htoken
      have hlast : text.toList.getLast? = some '.' := by simp [hfront]
      rw [htext, Token.text, String.toList_append, List.getLast?_append] at hlast
      cases hr : token.random.toList.getLast? with
      | none => exact hne (by simpa using hr)
      | some c =>
        rw [hr, Option.some_or, Option.some.injEq] at hlast
        exact hrandom (List.mem_of_getLast? (hr.trans (congrArg some hlast)))

end Token

theorem Secret.ofKey?_of_ne {key : List UInt8} (h : key ≠ []) : ofKey? key = some ⟨key, h⟩ := by
  rw [ofKey?, dif_pos h]

namespace Verdict

theorem judge_eq_malformed_iff {secret : Option Secret} {text session : String} :
    judge secret text session = .malformed ↔ Token.ofText? text = none := by
  unfold judge
  cases Token.ofText? text with
  | none => simp
  | some token =>
    cases secret with
    | none => simp
    | some key =>
      simp only [reduceCtorEq, iff_false]
      split <;> exact Verdict.noConfusion

/-- The verdict on a text in the form of a token. -/
theorem judge_of_parts {text signature random : String} (h : Token.Parts text signature random)
    (key : List UInt8) (session : String) : judge (Secret.ofKey? key) text session =
      if key = [] then .signingDisabled
      else if signature = Token.signatureFor (Secret.ofKey? key) session random then .accepted
      else .mismatched := by
  unfold judge
  rw [Token.parts_iff.1 h]
  by_cases hkey : key = []
  · rw [Secret.ofKey?_eq_none_iff.2 hkey, if_pos hkey]
  · rw [Secret.ofKey?_of_ne hkey, if_neg hkey]
    simp only [Token.signatureFor, eq_comm (a := signature)]

/-- A random value without a separator is accepted with its signature and with no other text before
it. -/
theorem judge_append_eq_accepted_iff {key : List UInt8} (hkey : key ≠ [])
    (session signature random : String) :
    judge (Secret.ofKey? key) (signature ++ "." ++ random) session = .accepted ↔
      random ≠ "" ∧ '.' ∉ random.toList ∧
        signature = Token.signatureFor (Secret.ofKey? key) session random := by
  have hsigned : '.' ∉ (Token.signatureFor (Secret.ofKey? key) session random).toList := by
    rw [Secret.ofKey?_of_ne hkey]
    exact Token.separator_notMem_encode _
  by_cases hparts : Token.Parts (signature ++ "." ++ random) signature random
  · obtain ⟨-, hrandom, hne⟩ := Token.parts_append_iff.1 hparts
    rw [judge_of_parts hparts, if_neg hkey]
    split
    · next hsignature => simp [hrandom, hne, hsignature]
    · next hsignature => simp [hsignature]
  · have hmalformed : judge (Secret.ofKey? key) (signature ++ "." ++ random) session =
        .malformed := by
      rw [judge_eq_malformed_iff, Token.ofText?_eq_none_iff]
      by_cases hne : random = ""
      · exact .inr ⟨signature, by rw [hne, String.append_empty]⟩
      · exact .inl fun hcount => hparts ⟨rfl, hcount, hne⟩
    rw [hmalformed]
    simp only [reduceCtorEq, false_iff]
    intro ⟨hne, hrandom, hsignature⟩
    exact hparts (Token.parts_append_iff.2 ⟨hsignature ▸ hsigned, hrandom, hne⟩)

/-- Every text gets one of the four verdicts. It is malformed by its form alone, whatever the key;
in the form of a token it is judged by the key and then by its signature. With a key there is for
each session and random value one signature that is accepted, and none if the random value is empty
or holds a separator. -/
theorem judge_by_form_key_signature (key : List UInt8) (session : String) :
    (∀ text, judge (Secret.ofKey? key) text session = .malformed ↔
      text.toList.count '.' ≠ 1 ∨ ∃ front, text = front ++ ".") ∧
    (∀ text signature random, Token.Parts text signature random →
      judge (Secret.ofKey? key) text session =
        if key = [] then .signingDisabled
        else if signature = Token.signatureFor (Secret.ofKey? key) session random then .accepted
        else .mismatched) ∧
    (key ≠ [] → ∀ signature random,
      judge (Secret.ofKey? key) (signature ++ "." ++ random) session = .accepted ↔
        random ≠ "" ∧ '.' ∉ random.toList ∧
          signature = Token.signatureFor (Secret.ofKey? key) session random) := by
  refine ⟨fun text => ?_, fun _ _ _ hparts => judge_of_parts hparts key session, ?_⟩
  · rw [judge_eq_malformed_iff, Token.ofText?_eq_none_iff]
  · intro hkey
    exact judge_append_eq_accepted_iff hkey session

/-- Under a key of one byte the signed value is accepted, and it is not with an empty signature or
with a second separator. -/
theorem signed_accepted_unsigned_mismatched :
    judge (Secret.ofKey? [0x6b])
        (Token.signatureFor (Secret.ofKey? [0x6b]) "alice" "AAEC" ++ "." ++ "AAEC") "alice" =
      .accepted ∧
    judge (Secret.ofKey? [0x6b]) ".AAEC" "alice" = .mismatched ∧
    judge (Secret.ofKey? [0x6b]) ".AA.EC" "alice" = .malformed ∧
    judge (Secret.ofKey? []) ".AAEC" "alice" = .signingDisabled := by
  obtain ⟨hmalformed, hparts, haccepted⟩ := judge_by_form_key_signature [0x6b] "alice"
  obtain ⟨-, hunsigned, -⟩ := judge_by_form_key_signature [] "alice"
  have hform : Token.Parts ".AAEC" "" "AAEC" := ⟨rfl, by decide, by decide⟩
  refine ⟨(haccepted (by decide) _ _).2 ⟨by decide, by decide, rfl⟩, ?_, ?_, ?_⟩
  · have hsignature : "" ≠ Token.signatureFor (Secret.ofKey? [0x6b]) "alice" "AAEC" := by
      intro h
      have hlength : (43 : Nat) = 0 := (Secret.length_sign _ _).symm.trans (congrArg _ h.symm)
      cases hlength
    rw [hparts _ _ _ hform, if_neg (by decide), if_neg hsignature]
  · exact (hmalformed _).2 (.inl (by decide))
  · rw [hunsigned _ _ _ hform, if_pos rfl]

end Verdict

end DoubleSubmit
