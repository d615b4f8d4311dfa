import DoubleSubmit.Payload
import DoubleSubmit.Proofs.Text.Bytes

/-! The signed message tells its session and its random value apart. A field behind its length is a
prefix code (`utf8_field_append_inj`): its length ends at the first separator, whatever stands
behind it. The message is two such fields in a row. -/

namespace DoubleSubmit.Payload
open Text

private theorem append_cons_inj {α : Type} {sep : α} {a b c d : List α} (ha : sep ∉ a)
    (hc : sep ∉ c) (h : a ++ sep :: b = c ++ sep :: d) : a = c ∧ b = d := by
  induction a generalizing c with
  | nil =>
    cases c with
    | nil => exact ⟨rfl, (List.cons.inj h).2⟩
    | cons z c => exact absurd (List.cons.inj h).1 fun hz => hc (hz ▸ List.mem_cons_self)
  | cons y a ih =>
    cases c with
    | nil => exact absurd (List.cons.inj h).1 fun hy => ha (hy ▸ List.mem_cons_self)
    | cons z c =>
      obtain ⟨rfl, htail⟩ := List.cons.inj h
      obtain ⟨rfl, hbd⟩ := ih (List.not_mem_of_not_mem_cons ha) (List.not_mem_of_not_mem_cons hc)
        htail
      exact ⟨rfl, hbd⟩

def separatorByte : UInt8 := byte '!'

theorem utf8_separator : utf8 separator = [separatorByte] := rfl

theorem separatorByte_notMem_decimal (n : Nat) : separatorByte ∉ utf8 (decimal n) := by
  rw [separatorByte, mem_utf8_iff (by decide)]
  intro h
  exact absurd (isDigit_of_mem_decimal h) (by decide)

theorem utf8_field (value : String) :
    utf8 (field value) = utf8 (decimal (utf8 value).length) ++ separatorByte :: utf8 value := by
  simp only [field, utf8_append, utf8_separator, List.append_assoc, List.singleton_append]

/-- Fields are a prefix code: what stands behind a field takes no part in reading it. -/
theorem utf8_field_append_inj {v w : String} {x y : List UInt8}
    (h : utf8 (field v) ++ x = utf8 (field w) ++ y) : v = w ∧ x = y := by
  rw [utf8_field, utf8_field, List.append_assoc, List.append_assoc, List.cons_append,
    List.cons_append] at h
  obtain ⟨hlength, hrest⟩ :=
    append_cons_inj (separatorByte_notMem_decimal _) (separatorByte_notMem_decimal _) h
  have hlength := decimal_injective (utf8_injective hlength)
  obtain ⟨hvalue, hxy⟩ := List.append_inj hrest hlength
  exact ⟨utf8_injective hvalue, hxy⟩

theorem utf8_text_append_inj {s r s' r' : String} {x y : List UInt8}
    (h : utf8 (text s r) ++ x = utf8 (text s' r') ++ y) : s = s' ∧ r = r' ∧ x = y := by
  simp only [text, utf8_append, List.append_assoc] at h
  obtain ⟨hsession, hrest⟩ := utf8_field_append_inj h
  obtain ⟨hrandom, hxy⟩ := utf8_field_append_inj (List.append_cancel_left hrest)
  exact ⟨utf8_injective (Base64.encode_injective hsession), hrandom, hxy⟩

theorem text_inj {s r s' r' : String} (h : text s r = text s' r') : s = s' ∧ r = r' := by
  have h : utf8 (text s r) ++ [] = utf8 (text s' r') ++ [] := by rw [h]
  obtain ⟨hs, hr, -⟩ := utf8_text_append_inj h
  exact ⟨hs, hr⟩

/-- A message that starts with another is that message, and two pairs of session and random value
share no message. -/
theorem text_prefix_free (s r s' r' : String) :
    (∀ x, utf8 (text s' r') = utf8 (text s r) ++ x ↔ s = s' ∧ r = r' ∧ x = []) ∧
      (text s r = text s' r' ↔ s = s' ∧ r = r') := by
  refine ⟨fun x => ⟨fun h => ?_, ?_⟩, text_inj, ?_⟩
  · exact utf8_text_append_inj (h.symm.trans (List.append_nil _).symm)
  · rintro ⟨rfl, rfl, rfl⟩
    rw [List.append_nil]
  · rintro ⟨rfl, rfl⟩
    rfl

end DoubleSubmit.Payload
