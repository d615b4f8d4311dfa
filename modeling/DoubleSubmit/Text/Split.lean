/-! Cutting a text at a separator: at every occurrence (`pieces`) or at the first one (`cut?`).
A piece holds no separator (`not_mem_of_mem_pieces`), and a text is cut into the part before
the first separator and all that follows it (`cut?_eq_some_iff`). -/

namespace DoubleSubmit.Text

/-- The parts of a text between the occurrences of `sep`; one more than there are occurrences. -/
def pieces (sep : Char) : List Char → List (List Char)
  | [] => [[]]
  | c :: rest =>
    if c = sep then [] :: pieces sep rest
    else
      match pieces sep rest with
      | [] => [[c]]
      | piece :: more => (c :: piece) :: more

/-- The text before the first `sep` and the text after it. -/
def cut? (sep : Char) (cs : List Char) : Option (List Char × List Char) :=
  match cs.dropWhile (· != sep) with
  | [] => none
  | _ :: after => some (cs.takeWhile (· != sep), after)

theorem not_mem_of_mem_pieces {sep : Char} {cs piece : List Char} (h : piece ∈ pieces sep cs) :
    sep ∉ piece := by
  fun_induction pieces sep cs generalizing piece with
  | case1 => simp_all
  | case2 rest ih => grind
  | case3 c rest hc hn ih => simp at h; subst h; simpa using Ne.symm hc
  | case4 c rest hc p more hp ih => grind

theorem pieces_of_not_mem {sep : Char} {cs : List Char} (h : sep ∉ cs) : pieces sep cs = [cs] := by
  induction cs with
  | nil => rfl
  | cons c rest ih =>
    simp only [List.mem_cons, not_or] at h
    simp [pieces, Ne.symm h.1, ih h.2]

theorem pieces_ne_nil (sep : Char) (cs : List Char) : pieces sep cs ≠ [] := by
  fun_induction pieces sep cs <;> simp

/-- What stands before a text and holds no separator goes to its first piece. -/
theorem exists_pieces_append {sep : Char} {front : List Char} (h : sep ∉ front) (cs : List Char) :
    ∃ piece more, pieces sep cs = piece :: more ∧
      pieces sep (front ++ cs) = (front ++ piece) :: more := by
  induction front with
  | nil =>
    cases hp : pieces sep cs with
    | nil => exact absurd hp (pieces_ne_nil sep cs)
    | cons piece more => exact ⟨piece, more, rfl, hp⟩
  | cons c front ih =>
    rw [List.mem_cons, not_or] at h
    obtain ⟨piece, more, hpieces, hfront⟩ := ih h.2
    refine ⟨piece, more, hpieces, ?_⟩
    rw [List.cons_append, pieces, if_neg (Ne.symm h.1), hfront]
    rfl

theorem isPrefix_of_pieces_eq_cons {sep : Char} {cs piece : List Char} {more : List (List Char)}
    (h : pieces sep cs = piece :: more) : piece <+: cs := by
  fun_induction pieces sep cs generalizing piece more with
  | case1 => cases h; exact List.prefix_rfl
  | case2 => cases h; exact List.nil_prefix
  | case3 c rest => cases h; exact List.prefix_append [c] rest
  | case4 c rest _ first others hp ih =>
    cases h
    exact List.cons_prefix_cons.2 ⟨rfl, ih hp⟩

theorem isInfix_of_mem_pieces {sep : Char} {cs piece : List Char} (h : piece ∈ pieces sep cs) :
    piece <:+: cs := by
  induction cs with
  | nil => exact List.mem_singleton.1 h ▸ List.infix_rfl
  | cons c rest ih =>
    cases hp : pieces sep (c :: rest) with
    | nil => exact absurd hp (pieces_ne_nil sep _)
    | cons first more =>
      rw [hp, List.mem_cons] at h
      rcases h with rfl | h
      · exact (isPrefix_of_pieces_eq_cons hp).isInfix
      · -- Every piece but the first is one of the rest.
        refine (ih ?_).trans (List.suffix_cons c rest).isInfix
        rw [pieces] at hp
        split at hp
        · cases hp
          exact h
        · split at hp
          · cases hp
            cases h
          · next hrest =>
            cases hp
            rw [hrest]
            exact List.mem_cons_of_mem _ h

theorem pieces_append_cons {sep : Char} {front : List Char} (h : sep ∉ front) (cs : List Char) :
    pieces sep (front ++ sep :: cs) = front :: pieces sep cs := by
  obtain ⟨piece, more, hpieces, hfront⟩ := exists_pieces_append h (sep :: cs)
  rw [pieces, if_pos rfl] at hpieces
  cases hpieces
  rw [hfront, List.append_nil]

/-- Texts with the separator before each but the first are cut into these texts. -/
theorem pieces_flatMap_cons {sep : Char} {front : List Char} (hfront : sep ∉ front)
    {rest : List (List Char)} (hrest : ∀ piece ∈ rest, sep ∉ piece) :
    pieces sep (front ++ rest.flatMap (sep :: ·)) = front :: rest := by
  induction rest generalizing front with
  | nil =>
    rw [List.flatMap_nil, List.append_nil]
    exact pieces_of_not_mem hfront
  | cons piece rest ih =>
    obtain ⟨hpiece, hrest⟩ := List.forall_mem_cons.1 hrest
    rw [List.flatMap_cons, List.cons_append, pieces_append_cons hfront, ih hpiece hrest]

theorem cut?_nil (sep : Char) : cut? sep [] = none := rfl

theorem cut?_cons (sep c : Char) (cs : List Char) :
    cut? sep (c :: cs) =
      if c = sep then some ([], cs) else (cut? sep cs).map fun p => (c :: p.1, p.2) := by
  by_cases h : c = sep
  · simp [cut?, h]
  · have hb : (c != sep) = true := by simpa using h
    simp only [cut?, List.dropWhile_cons, List.takeWhile_cons, hb, if_true, h, if_false]
    cases cs.dropWhile (· != sep) <;> rfl

theorem cut?_eq_some_iff {sep : Char} {cs before after : List Char} :
    cut? sep cs = some (before, after) ↔ cs = before ++ sep :: after ∧ sep ∉ before := by
  induction cs generalizing before with
  | nil => simp [cut?_nil]
  | cons c cs ih =>
    rw [cut?_cons]
    by_cases h : c = sep
    · subst h
      cases before with
      | nil => simp
      | cons b before => simp; grind
    · cases before with
      | nil => simp [h]
      | cons b before =>
        simp only [if_neg h, Option.map_eq_some_iff, Prod.mk.injEq, List.cons.injEq, Prod.exists,
          List.cons_append, List.mem_cons, not_or]
        constructor
        · rintro ⟨p, q, hpq, ⟨rfl, rfl⟩, rfl⟩
          have := ih.1 hpq
          exact ⟨⟨rfl, this.1⟩, Ne.symm h, this.2⟩
        · rintro ⟨⟨rfl, hcs⟩, -, hb⟩
          exact ⟨before, after, ih.2 ⟨hcs, hb⟩, ⟨rfl, rfl⟩, rfl⟩

theorem cut?_eq_none_iff {sep : Char} {cs : List Char} : cut? sep cs = none ↔ sep ∉ cs := by
  induction cs with
  | nil => simp [cut?_nil]
  | cons c cs ih =>
    rw [cut?_cons]
    by_cases h : c = sep
    · simp [h]
    · simp [h, ih, Ne.symm h]

/-- What stands before a separator in a part of a text stands before the last separator of the
text. -/
theorem isInfix_of_append_cons {sep : Char} {front back before after : List Char}
    (h : front ++ sep :: back <:+: before ++ sep :: after) (hafter : sep ∉ after) :
    front <:+: before := by
  obtain ⟨x, y, hsplit⟩ := h
  have hcut : (x ++ front) ++ (sep :: (back ++ y)) = before ++ sep :: after := by
    simpa using hsplit
  rcases List.append_eq_append_iff.1 hcut with ⟨gap, hbefore, -⟩ | ⟨gap, hfront, hgap⟩
  · exact ⟨x, gap, hbefore.symm⟩
  · cases gap with
    | nil => exact ⟨x, [], by simpa using hfront⟩
    | cons c gap =>
      cases hgap
      exact absurd (List.mem_append_right _ List.mem_cons_self) hafter

end DoubleSubmit.Text
