import DoubleSubmit.Text.Percent
import DoubleSubmit.Proofs.Text.Bytes

/-! Percent-decoding changes nothing where there is nothing to decode, and shortens where there is
something. So a text is decoded to itself exactly if no percent sign with two hexadecimal digits
behind it stands in it (`decode?_of_not_hasEscape`, `not_hasEscape_of_decode?_self`); a percent sign
alone does no harm. -/

namespace DoubleSubmit.Text.Percent

def isHexDigit (c : Char) : Bool :=
  ('0' ≤ c && c ≤ '9') || ('A' ≤ c && c ≤ 'F') || ('a' ≤ c && c ≤ 'f')

theorem toNat_lt_of_isHexDigit {c : Char} (h : isHexDigit c) : c.toNat < 0x80 := by
  simp only [isHexDigit, Bool.or_eq_true, Bool.and_eq_true, decide_eq_true_eq] at h
  have hle : c.val ≤ '9'.val ∨ c.val ≤ 'F'.val ∨ c.val ≤ 'f'.val := by
    rcases h with (h | h) | h
    · exact .inl h.2
    · exact .inr (.inl h.2)
    · exact .inr (.inr h.2)
  rcases hle with h | h | h
  · exact Nat.lt_of_le_of_lt h (by decide)
  · exact Nat.lt_of_le_of_lt h (by decide)
  · exact Nat.lt_of_le_of_lt h (by decide)

theorem isSome_hexValue? {c : Char} (h : isHexDigit c) : (hexValue? (byte c)).isSome := by
  have hascii : isHexDigit c → (hexValue? (byte c)).isSome := by
    apply forall_ascii _ (toNat_lt_of_isHexDigit h)
    decide +kernel
  exact hascii h

/-- A percent sign with two hexadecimal digits behind it stands in a text. -/
def HasEscape (cs : List Char) : Prop :=
  ∃ high low, isHexDigit high ∧ isHexDigit low ∧ ['%', high, low] <:+: cs

theorem not_hasEscape_of_not_mem {cs : List Char} (h : '%' ∉ cs) : ¬HasEscape cs := by
  rintro ⟨high, low, -, -, hpart⟩
  exact h (hpart.subset List.mem_cons_self)

theorem isAscii_escape {high low : Char} (hhigh : isHexDigit high) (hlow : isHexDigit low) :
    IsAscii ['%', high, low] := by
  intro c hc
  simp only [List.mem_cons, List.not_mem_nil, or_false] at hc
  rcases hc with rfl | rfl | rfl
  · decide
  · exact toNat_lt_of_isHexDigit hhigh
  · exact toNat_lt_of_isHexDigit hlow

theorem exists_hexDigit {b : UInt8} (h : (hexValue? b).isSome) :
    ∃ c, isHexDigit c ∧ byte c = b := by
  have hall : ∀ n : Fin 256, (hexValue? (UInt8.ofNat n)).isSome →
      isHexDigit (Char.ofNat n) ∧ byte (Char.ofNat n) = UInt8.ofNat n := by decide +kernel
  have hb : UInt8.ofNat b.toNat = b := UInt8.ofNat_toNat
  have := hall ⟨b.toNat, b.toNat_lt⟩
  rw [hb] at this
  exact ⟨_, this h⟩

theorem decodeBytes_eq_self {bytes : List UInt8} (h : ∀ high low, [sign, high, low] <:+: bytes →
    hexPair? high low = none) : decodeBytes bytes = bytes := by
  fun_induction decodeBytes bytes with
  | case1 first high low rest b he ih =>
    unfold escaped? at he
    split at he
    · next hf =>
      subst hf
      rw [h high low (List.prefix_append [sign, high, low] rest).isInfix] at he
      cases he
    · cases he
  | case2 first high low rest he ih =>
    rw [ih fun x y hxy => h x y (hxy.trans (List.suffix_cons _ _).isInfix)]
  | case3 => rfl

theorem decode?_of_not_hasEscape {s : String} (h : ¬HasEscape s.toList) : decode? s = some s := by
  rw [decode?, decodeBytes_eq_self, ofUtf8?_utf8]
  intro high low hinfix
  unfold hexPair?
  split
  · next hx ly hhigh hlow =>
    obtain ⟨c, hc, rfl⟩ := exists_hexDigit (Option.isSome_of_eq_some hhigh)
    obtain ⟨d, hd, rfl⟩ := exists_hexDigit (Option.isSome_of_eq_some hlow)
    exact absurd ⟨c, d, hc, hd, (map_byte_isInfix_utf8_iff (List.cons_ne_nil _ _)
      (isAscii_escape hc hd)).1 hinfix⟩ h
  · rfl

/-- A text that is decoded is decoded to itself or holds an escape. -/
theorem eq_or_hasEscape_of_decode? {s decoded : String} (h : decode? s = some decoded) :
    s = decoded ∨ HasEscape s.toList := by
  by_cases hescape : HasEscape s.toList
  · exact .inr hescape
  · rw [decode?_of_not_hasEscape hescape] at h
    exact .inl (Option.some.inj h)

/-! ## Decoding shortens -/

theorem length_decodeBytes_le (bytes : List UInt8) :
    (decodeBytes bytes).length ≤ bytes.length := by
  fun_induction decodeBytes bytes with
  | case1 first high low rest b he ih =>
    simp only [List.length_cons]
    omega
  | case2 first high low rest he ih =>
    simp only [List.length_cons] at *
    omega
  | case3 => exact Nat.le_refl _

theorem length_decodeBytes_lt {bytes : List UInt8} {high low : UInt8}
    (h : [sign, high, low] <:+: bytes) (hpair : (hexPair? high low).isSome) :
    (decodeBytes bytes).length < bytes.length := by
  fun_induction decodeBytes bytes with
  | case1 first x y rest b he ih =>
    have := length_decodeBytes_le rest
    simp only [List.length_cons]
    omega
  | case2 first x y rest he ih =>
    -- The escape does not stand at the head, where nothing was decoded.
    rcases List.infix_cons_iff.1 h with hhead | htail
    · obtain ⟨_, hbytes⟩ := hhead
      cases hbytes
      rw [escaped?, if_pos rfl] at he
      rw [he] at hpair
      cases hpair
    · have := ih htail
      simp only [List.length_cons] at *
      omega
  | case3 short hshort =>
    -- What is left alone because it is short is too short for an escape.
    have hlength : 3 ≤ short.length := h.length_le
    rcases short with _ | ⟨first, _ | ⟨x, _ | ⟨y, rest⟩⟩⟩
    · simp at hlength
    · simp at hlength
    · simp at hlength
    · exact absurd rfl (hshort first x y rest)

theorem exists_hexPair? {high low : Char} (hhigh : isHexDigit high) (hlow : isHexDigit low) :
    (hexPair? (byte high) (byte low)).isSome := by
  obtain ⟨h, hh⟩ := Option.isSome_iff_exists.1 (isSome_hexValue? hhigh)
  obtain ⟨l, hl⟩ := Option.isSome_iff_exists.1 (isSome_hexValue? hlow)
  rw [hexPair?, hh, hl]
  rfl

/-- The decoded text has no more bytes than the text. -/
theorem length_le_of_decode? {s decoded : String} (h : decode? s = some decoded) :
    (utf8 decoded).length ≤ (utf8 s).length := by
  rw [← ofUtf8?_eq_some_iff.1 h]
  exact length_decodeBytes_le _

/-- A text that is decoded to itself holds no escape: decoding shortens a text that holds one. -/
theorem not_hasEscape_of_decode?_self {s : String} (h : decode? s = some s) :
    ¬HasEscape s.toList := by
  rintro ⟨high, low, hhigh, hlow, hinfix⟩
  have hbytes := (map_byte_isInfix_utf8_iff (List.cons_ne_nil _ _)
    (isAscii_escape hhigh hlow)).2 hinfix
  have hlt := length_decodeBytes_lt hbytes (exists_hexPair? hhigh hlow)
  rw [ofUtf8?_eq_some_iff.1 h] at hlt
  exact absurd hlt (Nat.lt_irrefl _)

end DoubleSubmit.Text.Percent
