/-! Lists of texts in the order of their code points. What has no order of its own, such as the
cookies that an answer sets, is shown in this one: lists of the same texts, in whatever order, are
shown alike (`sorted_eq_of_perm`, `sortedPairs_eq_of_perm`). -/

namespace DoubleSubmit.Text

/-- Whether a pair of texts comes no later than another: by the first texts, then by the second. -/
def pairLE (p q : String × String) : Bool := p.1 < q.1 || (p.1 == q.1 && p.2 ≤ q.2)

/-- The texts in the order of their code points. -/
def sorted (texts : List String) : List String := texts.mergeSort fun s t => s ≤ t

/-- The pairs in the order of the code points of their first texts, then of their second. -/
def sortedPairs (pairs : List (String × String)) : List (String × String) := pairs.mergeSort pairLE

/-- An order in which no two members stand alike leaves one way to sort them. -/
theorem mergeSort_eq_of_perm {α : Type} {le : α → α → Bool}
    (htrans : ∀ a b c, le a b → le b c → le a c) (htotal : ∀ a b, le a b || le b a)
    (hantisymm : ∀ a b, le a b → le b a → a = b) {xs ys : List α} (h : xs.Perm ys) :
    xs.mergeSort le = ys.mergeSort le := by
  have hperm : (xs.mergeSort le).Perm (ys.mergeSort le) :=
    (List.mergeSort_perm xs le).trans (h.trans (List.mergeSort_perm ys le).symm)
  exact hperm.eq_of_pairwise (fun a b _ _ => hantisymm a b)
    (List.pairwise_mergeSort htrans htotal xs) (List.pairwise_mergeSort htrans htotal ys)

theorem sorted_eq_of_perm {texts others : List String} (h : texts.Perm others) :
    sorted texts = sorted others := by
  refine mergeSort_eq_of_perm ?_ ?_ ?_ h
  · intro a b c hab hbc
    exact decide_eq_true (String.le_trans (of_decide_eq_true hab) (of_decide_eq_true hbc))
  · intro a b
    simpa using String.le_total a b
  · intro a b hab hba
    exact String.le_antisymm (of_decide_eq_true hab) (of_decide_eq_true hba)

theorem pairLE_iff {p q : String × String} :
    pairLE p q ↔ p.1 ≤ q.1 ∧ (p.1 = q.1 → p.2 ≤ q.2) := by
  simp only [pairLE, Bool.or_eq_true, Bool.and_eq_true, decide_eq_true_eq, beq_iff_eq]
  by_cases h : p.1 = q.1
  · simp only [h, String.lt_irrefl, String.le_refl, false_or, true_and, forall_const]
  · simp [h, Std.lt_iff_le_and_ne]

theorem sortedPairs_eq_of_perm {pairs others : List (String × String)} (h : pairs.Perm others) :
    sortedPairs pairs = sortedPairs others := by
  refine mergeSort_eq_of_perm ?_ ?_ ?_ h
  · intro p q r hpq hqr
    rw [pairLE_iff] at *
    refine ⟨String.le_trans hpq.1 hqr.1, fun hpr => ?_⟩
    have hfirst : p.1 = q.1 := String.le_antisymm hpq.1 (hpr ▸ hqr.1)
    exact String.le_trans (hpq.2 hfirst) (hqr.2 (hfirst.symm.trans hpr))
  · intro p q
    rw [Bool.or_eq_true, pairLE_iff, pairLE_iff]
    by_cases hfirst : p.1 = q.1
    · simpa [hfirst] using String.le_total p.2 q.2
    · simpa [hfirst, Ne.symm hfirst] using String.le_total p.1 q.1
  · intro p q hpq hqp
    rw [pairLE_iff] at hpq hqp
    have hfirst : p.1 = q.1 := String.le_antisymm hpq.1 hqp.1
    exact Prod.ext hfirst (String.le_antisymm (hpq.2 hfirst) (hqp.2 hfirst.symm))

end DoubleSubmit.Text
