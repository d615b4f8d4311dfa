import DoubleSubmit.Proofs.Cookie.Clean

/-! What a request brings of a client's cookie. A client holds a text under a name, and a request
brings it if its cookie headers spell it there. Every request that spells a name at most once brings
what some client holds (`Client.exists_brings`), and a cookie of a clean name is received as what
that text decodes to (`Client.Brings.get?_ofRequest`). -/

namespace DoubleSubmit

open Text

/-- A request spells a name at most once: at most one piece of its cookie headers is read under the
name, and it spells the name as it is. -/
structure Cookie.SpelledOnce (name : String) (request : Http.Request) : Prop where
  once : ((requestPieces request).filter fun piece =>
    (ofPiece? piece).any (·.1 == name)).length ≤ 1
  literal : ∀ piece ∈ requestPieces request, ∀ value,
    ofPiece? piece = some (name, value) → ∃ text, Spells piece name text

/-- A request brings what a client holds under a name: whatever is read under the name in its cookie
headers spells the name and what the client holds as they are, and is there if it can be read. -/
structure Client.Brings (name : String) (held : Option String) (request : Http.Request) : Prop where
  literal : ∀ piece ∈ Cookie.requestPieces request, ∀ value,
    Cookie.ofPiece? piece = some (name, value) →
      ∃ text, held = some text ∧ Cookie.Spells piece name text
  sent : ∀ text, held = some text → (Percent.decode? text).isSome →
    ∃ piece ∈ Cookie.requestPieces request, Cookie.Spells piece name text

namespace Client

variable {name : String} {held : Option String} {request : Http.Request}

/-- Every request that spells a name at most once brings what some client holds. -/
theorem exists_brings (h : Cookie.SpelledOnce name request) :
    ∃ held, Brings name held request := by
  by_cases hread : ∃ piece ∈ Cookie.requestPieces request, ∃ value,
      Cookie.ofPiece? piece = some (name, value)
  · obtain ⟨piece, hpiece, value, hvalue⟩ := hread
    obtain ⟨text, htext⟩ := h.literal piece hpiece value hvalue
    refine ⟨some text, ?_, ?_⟩
    · intro other hother value' hvalue'
      have hmem : piece ∈ (Cookie.requestPieces request).filter fun piece =>
          (Cookie.ofPiece? piece).any (·.1 == name) :=
        List.mem_filter.2 ⟨hpiece, by simp [hvalue]⟩
      have hmem' : other ∈ (Cookie.requestPieces request).filter fun piece =>
          (Cookie.ofPiece? piece).any (·.1 == name) :=
        List.mem_filter.2 ⟨hother, by simp [hvalue']⟩
      obtain ⟨only, honly⟩ :=
        List.length_eq_one_iff.1 (Nat.le_antisymm h.once (List.length_pos_of_mem hmem))
      rw [honly, List.mem_singleton] at hmem hmem'
      exact ⟨text, rfl, hmem'.trans hmem.symm ▸ htext⟩
    · intro text' htext' _
      exact ⟨piece, hpiece, Option.some.inj htext' ▸ htext⟩
  · refine ⟨none, ?_, ?_⟩
    · intro piece hpiece value hvalue
      exact absurd ⟨piece, hpiece, value, hvalue⟩ hread
    · intro text htext
      cases htext

/-- A cookie of a clean name is received as what the client holds decodes to. -/
theorem Brings.get?_ofRequest (h : Brings name held request) (hname : Cookie.CleanName name) :
    (Jar.ofRequest request).get? name = held.bind Percent.decode? := by
  cases hget : (Jar.ofRequest request).get? name with
  | some value =>
    obtain ⟨before, after, hsplit, -⟩ := Jar.get?_ofRequest_iff.1 hget
    have hmem : (name, value) ∈ Cookie.ofRequest request := by simp [hsplit]
    obtain ⟨piece, hpiece, hread⟩ := List.mem_filterMap.1 hmem
    obtain ⟨text, rfl, hspells⟩ := h.literal piece hpiece value hread
    obtain ⟨sent, sentValue, hsent, -, -, hvalue⟩ := Cookie.ofPiece?_eq_some_iff.1 hread
    rw [(hsent.unique hspells).2] at hvalue
    exact hvalue.symm
  | none =>
    symm
    refine Option.eq_none_iff_forall_not_mem.2 fun value hvalue => ?_
    obtain ⟨text, htext, hdecode⟩ := Option.bind_eq_some_iff.1 hvalue
    obtain ⟨piece, hpiece, hspells⟩ := h.sent text htext (Option.isSome_of_eq_some hdecode)
    have hread : Cookie.ofPiece? piece = some (name, value) := Cookie.ofPiece?_eq_some_iff.2
      ⟨name, text, hspells, hname.ne_empty, Percent.decode?_of_not_hasEscape hname.no_escape,
        hdecode⟩
    have hfound := Jar.isSome_get?_ofRequest_iff.2
      ⟨value, List.mem_filterMap.2 ⟨piece, hpiece, hread⟩⟩
    rw [hget] at hfound
    cases hfound

theorem brings_of_no_piece (hpieces : Cookie.requestPieces request = [])
    (hheld : held.bind Percent.decode? = none) : Brings name held request where
  literal piece hpiece := by
    rw [hpieces] at hpiece
    cases hpiece
  sent text htext hdecode := by
    rw [htext] at hheld
    exact absurd hheld (Option.isSome_iff_ne_none.1 hdecode)

end Client

theorem Cookie.spells_of_clean {name text : String} (hname : CleanName name)
    (htext : Token.Plain text) : Spells (name ++ "=" ++ text).toList name text :=
  ⟨name.toList, text.toList, by simp, hname.no_equals,
    trim_eq_self hname.no_blank_head hname.no_blank_last, htext.trim_eq⟩

namespace Client.Sends

variable {policy : Policy} {held : Option String} {request : Http.Request}
  (h : Sends policy held request) (hname : Cookie.CleanName policy.tokenCookieName)
  (hheld : ∀ text, held = some text → Token.Plain text)

include h hname hheld

theorem exists_spells {piece : List Char} (hpiece : piece ∈ Cookie.requestPieces request) :
    ∃ text, held = some text ∧ Cookie.Spells piece policy.tokenCookieName text := by
  rw [h.requestPieces_eq hname hheld] at hpiece
  obtain ⟨text, htext, rfl⟩ := List.mem_map.1 hpiece
  have hsome : held = some text := Option.mem_toList.1 htext
  exact ⟨text, hsome, Cookie.spells_of_clean hname (hheld text hsome)⟩

theorem spelledOnce : Cookie.SpelledOnce policy.tokenCookieName request where
  once := by
    refine Nat.le_trans (List.length_filter_le _ _) ?_
    rw [h.requestPieces_eq hname hheld, List.length_map]
    cases held with
    | none => exact Nat.zero_le 1
    | some text => exact Nat.le_refl 1
  literal piece hpiece value _ := by
    obtain ⟨text, -, hspells⟩ := h.exists_spells hname hheld hpiece
    exact ⟨text, hspells⟩

/-- A client that sends its token brings it. -/
theorem brings : Brings policy.tokenCookieName held request where
  literal piece hpiece value _ := h.exists_spells hname hheld hpiece
  sent text htext _ := by
    rw [h.requestPieces_eq hname hheld, htext]
    exact ⟨_, List.mem_singleton_self _, Cookie.spells_of_clean hname (hheld text htext)⟩

end Client.Sends

/-- A name in the digits of tokens is clean, the standard names of the token cookie among them. -/
theorem Cookie.cleanName_of_digits {name : String} (hne : name ≠ "")
    (h : name.toList.all Base64.isUrlSafeDigit) : CleanName name := by
  have hchar {c : Char} (hc : c ∈ name.toList) : Token.PlainChar c :=
    Token.plainChar (.inl (List.all_eq_true.1 h c hc))
  exact {
    ne_empty := hne
    no_semicolon := fun hc => (hchar hc).ne_semicolon rfl
    no_equals := fun hc => absurd (List.all_eq_true.1 h _ hc) (by decide)
    no_control := fun c hc => (hchar hc).field
    no_escape := Percent.not_hasEscape_of_not_mem fun hc => (hchar hc).ne_percent rfl
    no_blank_head := fun c hc => (hchar (List.mem_of_mem_head? hc)).not_blank
    no_blank_last := fun c hc => (hchar (List.mem_of_mem_getLast? hc)).not_blank }

end DoubleSubmit
