/-! Lists whose members have names. A member is put in place of the ones that share its name, and
so no name stands twice; such a list has one member of a name at most (`find?_eq_some_iff`). -/

namespace DoubleSubmit

/-- Puts `x` behind the members of a list that have another name. -/
def replaceNamed {α : Type} (name : α → String) (xs : List α) (x : α) : List α :=
  xs.filter (name · != name x) ++ [x]

/-- The member that was put in place is found, and all others are found as before. -/
theorem find?_replaceNamed {α : Type} (name : α → String) (xs : List α) (x : α) (n : String) :
    (replaceNamed name xs x).find? (name · == n) =
      if name x = n then some x else xs.find? (name · == n) := by
  rw [replaceNamed, List.find?_append, List.find?_filter]
  by_cases h : name x = n
  · have hnone : (xs.find? fun a =>
        decide ((name a != name x) = true ∧ (name a == n) = true)) = none := by
      rw [List.find?_eq_none]
      intro a _ ha
      simp only [bne_iff_ne, ne_eq, beq_iff_eq, decide_eq_true_eq] at ha
      exact ha.1 (ha.2.trans h.symm)
    rw [hnone]
    simp [h]
  · have hb : (name x == n) = false := by simpa using h
    simp only [List.find?_cons, hb, List.find?_nil, Option.or_none, h, if_false]
    congr 1
    funext a
    by_cases ha : name a = n
    · simp [ha, Ne.symm h]
    · simp [ha]

/-- The members of a list have names of their own. -/
def NamesDistinct {α : Type} (name : α → String) (xs : List α) : Prop :=
  xs.Pairwise fun x y => name x ≠ name y

namespace NamesDistinct

variable {α : Type} {name : α → String} {xs : List α}

theorem nodup (h : NamesDistinct name xs) : xs.Nodup :=
  h.imp fun hne heq => hne (congrArg name heq)

theorem filter (h : NamesDistinct name xs) (keep : α → Bool) :
    NamesDistinct name (xs.filter keep) :=
  List.Pairwise.filter keep h

theorem replaceNamed (h : NamesDistinct name xs) (x : α) :
    NamesDistinct name (replaceNamed name xs x) := by
  refine List.pairwise_append.2 ⟨h.filter _, List.pairwise_singleton _ _, fun y hy z hz => ?_⟩
  rw [List.mem_singleton.1 hz]
  simpa using (List.mem_filter.1 hy).2

theorem find?_eq_some_iff (h : NamesDistinct name xs) {x : α} {n : String} :
    xs.find? (name · == n) = some x ↔ x ∈ xs ∧ name x = n := by
  induction xs with
  | nil => simp
  | cons y ys ih =>
    have hy := (List.pairwise_cons.1 h).1
    have ih := ih (List.pairwise_cons.1 h).2
    by_cases hn : name y = n
    · simp only [List.find?_cons, hn, beq_self_eq_true, Option.some.injEq, List.mem_cons]
      constructor
      · rintro rfl
        exact ⟨.inl rfl, hn⟩
      · rintro ⟨rfl | hx, rfl⟩
        · rfl
        · exact absurd hn (hy x hx)
    · have hb : (name y == n) = false := by simpa using hn
      simp only [List.find?_cons, hb, ih, List.mem_cons]
      refine and_congr_left fun hx => ⟨.inr, ?_⟩
      rintro (rfl | hx')
      · exact absurd hx hn
      · exact hx'

theorem foldl (h : NamesDistinct name xs) (ys : List α) :
    NamesDistinct name (ys.foldl (DoubleSubmit.replaceNamed name) xs) := by
  induction ys generalizing xs with
  | nil => exact h
  | cons y ys ih => exact ih (h.replaceNamed y)

/-- Of the members of one name there is at most one. -/
theorem length_filter_le_one (h : NamesDistinct name xs) {keep : α → Bool} {n : String}
    (hkeep : ∀ x ∈ xs, keep x → name x = n) : (xs.filter keep).length ≤ 1 := by
  have hnamed : ∀ x ∈ xs.filter keep, name x = n := by
    intro x hx
    obtain ⟨hmem, hkept⟩ := List.mem_filter.1 hx
    exact hkeep x hmem hkept
  have hdistinct := h.filter keep
  cases hfilter : xs.filter keep with
  | nil => exact Nat.zero_le 1
  | cons x rest =>
    cases rest with
    | nil => exact Nat.le_refl 1
    | cons y rest =>
      rw [hfilter] at hnamed hdistinct
      have hy : y ∈ x :: y :: rest := List.mem_cons_of_mem x List.mem_cons_self
      have hne := (List.pairwise_cons.1 hdistinct).1 y List.mem_cons_self
      exact absurd ((hnamed x List.mem_cons_self).trans (hnamed y hy).symm) hne

end NamesDistinct

end DoubleSubmit
