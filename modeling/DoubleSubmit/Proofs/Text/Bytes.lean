import DoubleSubmit.Http.Header

/-! The UTF-8 bytes of a text, character by character. A character of ASCII is one byte, any other
is bytes beyond ASCII (`le_of_mem_encodeChar`), so that bytes of ASCII stand in the bytes of a text
exactly where the text has these characters (`map_byte_isInfix_utf8_iff`). A header can carry a text
unless it holds a control character other than the tab (`canCarry_iff`). -/

namespace DoubleSubmit.Text

def byte (c : Char) : UInt8 := UInt8.ofNat c.toNat

def IsAscii (cs : List Char) : Prop := ∀ c ∈ cs, c.toNat < 0x80

theorem toNat_lt_of_isAlphanum {c : Char} (h : c.isAlphanum) : c.toNat < 0x80 := by
  have hle : c.val ≤ 'Z'.val ∨ c.val ≤ 'z'.val ∨ c.val ≤ '9'.val := by
    rcases Bool.or_eq_true_iff.1 h with h | h
    · rcases Bool.or_eq_true_iff.1 h with h | h
      · exact .inl (of_decide_eq_true h).2
      · exact .inr (.inl (of_decide_eq_true (Bool.and_eq_true_iff.1 h).2))
    · exact .inr (.inr (of_decide_eq_true (Bool.and_eq_true_iff.1 h).2))
  rcases hle with h | h | h
  · exact Nat.lt_of_le_of_lt h (by decide)
  · exact Nat.lt_of_le_of_lt h (by decide)
  · exact Nat.lt_of_le_of_lt h (by decide)

theorem forall_ascii {P : Char → Prop} (h : ∀ n : Fin 0x80, P (Char.ofNat n)) {c : Char}
    (hc : c.toNat < 0x80) : P c := by
  have := h ⟨c.toNat, hc⟩
  rwa [Char.ofNat_toNat] at this

theorem toNat_byte {c : Char} (h : c.toNat < 0x80) : (byte c).toNat = c.toNat := by
  rw [byte, UInt8.toNat_ofNat']
  exact Nat.mod_eq_of_lt (by omega)

theorem byte_inj {c d : Char} (hc : c.toNat < 0x80) (hd : d.toNat < 0x80) (h : byte c = byte d) :
    c = d := by
  have := congrArg UInt8.toNat h
  rw [toNat_byte hc, toNat_byte hd] at this
  exact Char.toNat_inj.1 this

theorem encodeChar_of_lt {c : Char} (h : c.toNat < 0x80) :
    String.utf8EncodeChar c = [byte c] := by
  have : c.val.toNat ≤ 0x7f := Nat.le_of_lt_succ h
  rw [String.utf8EncodeChar, if_pos this]
  rfl

theorem le_of_mem_encodeChar {c : Char} {b : UInt8} (hc : 0x80 ≤ c.toNat)
    (hb : b ∈ String.utf8EncodeChar c) : 0x80 ≤ b.toNat := by
  have h : ¬c.val.toNat ≤ 0x7f := Nat.not_le.2 hc
  simp only [String.utf8EncodeChar, h, if_false] at hb
  split at hb
  · simp only [List.mem_cons, List.not_mem_nil, or_false] at hb
    rcases hb with rfl | rfl <;> simp only [UInt8.toNat_ofNat'] <;> omega
  · split at hb
    · simp only [List.mem_cons, List.not_mem_nil, or_false] at hb
      rcases hb with rfl | rfl | rfl <;> simp only [UInt8.toNat_ofNat'] <;> omega
    · simp only [List.mem_cons, List.not_mem_nil, or_false] at hb
      rcases hb with rfl | rfl | rfl | rfl <;> simp only [UInt8.toNat_ofNat'] <;> omega

theorem utf8_eq_flatMap (s : String) : utf8 s = s.toList.flatMap String.utf8EncodeChar := by
  have h : s.toByteArray = (s.toList.flatMap String.utf8EncodeChar).toByteArray :=
    String.utf8Encode_toList.symm
  rw [utf8, h, List.data_toByteArray]

theorem flatMap_encodeChar_of_isAscii {cs : List Char} (h : IsAscii cs) :
    cs.flatMap String.utf8EncodeChar = cs.map byte := by
  induction cs with
  | nil => rfl
  | cons c cs ih =>
    rw [List.flatMap_cons, encodeChar_of_lt (h c List.mem_cons_self),
      ih fun d hd => h d (List.mem_cons_of_mem c hd)]
    rfl

theorem utf8_of_isAscii {s : String} (h : IsAscii s.toList) : utf8 s = s.toList.map byte := by
  rw [utf8_eq_flatMap, flatMap_encodeChar_of_isAscii h]

theorem ofUtf8?_eq_some_iff {bytes : List UInt8} {s : String} :
    ofUtf8? bytes = some s ↔ bytes = utf8 s := by
  constructor
  · intro h
    unfold ofUtf8? String.fromUTF8? at h
    split at h
    · cases h
      rfl
    · cases h
  · intro h
    rw [h, ofUtf8?_utf8]

theorem mem_utf8_iff {s : String} {c : Char} (hc : c.toNat < 0x80) :
    byte c ∈ utf8 s ↔ c ∈ s.toList := by
  rw [utf8_eq_flatMap, List.mem_flatMap]
  constructor
  · rintro ⟨d, hd, hb⟩
    by_cases hlt : d.toNat < 0x80
    · rw [encodeChar_of_lt hlt, List.mem_singleton] at hb
      exact byte_inj hc hlt hb ▸ hd
    · have := le_of_mem_encodeChar (Nat.not_lt.1 hlt) hb
      rw [toNat_byte hc] at this
      omega
  · intro h
    exact ⟨c, h, by rw [encodeChar_of_lt hc]; exact List.mem_singleton_self _⟩

/-- A part of a text that has as many bytes as the text is all of it. -/
theorem eq_of_isInfix_of_utf8_length_le {s t : String} (h : s.toList <:+: t.toList)
    (hlength : (utf8 t).length ≤ (utf8 s).length) : s = t := by
  obtain ⟨front, back, hsplit⟩ := h
  have hnil : ∀ cs : List Char, (cs.flatMap String.utf8EncodeChar).length = 0 → cs = [] := by
    intro cs hcs
    rw [List.length_eq_zero_iff, List.flatMap_eq_nil_iff] at hcs
    exact List.eq_nil_iff_forall_not_mem.2 fun c hc => String.utf8EncodeChar_ne_nil (hcs c hc)
  rw [utf8_eq_flatMap, utf8_eq_flatMap, ← hsplit, List.flatMap_append, List.flatMap_append,
    List.length_append, List.length_append] at hlength
  obtain rfl := hnil front (by omega)
  obtain rfl := hnil back (by omega)
  exact String.toList_injective (by simpa using hsplit)

/-! ## Runs of ASCII -/

private theorem prefix_of_map_byte {cs ds : List Char} (hcs : IsAscii cs)
    (h : cs.map byte <+: ds.flatMap String.utf8EncodeChar) : cs <+: ds := by
  induction cs generalizing ds with
  | nil => exact List.nil_prefix
  | cons c cs ih =>
    cases ds with
    | nil => simp at h
    | cons d ds =>
      have hc := hcs c List.mem_cons_self
      have hd : d.toNat < 0x80 := by
        refine Nat.lt_of_not_le fun hd => ?_
        cases he : String.utf8EncodeChar d with
        | nil => exact String.utf8EncodeChar_ne_nil he
        | cons b bs =>
          rw [List.flatMap_cons, he, List.map_cons, List.cons_append, List.cons_prefix_cons] at h
          have hb : b ∈ String.utf8EncodeChar d := by simp [he]
          have := le_of_mem_encodeChar hd hb
          rw [← h.1, toNat_byte hc] at this
          omega
      rw [List.flatMap_cons, encodeChar_of_lt hd, List.map_cons, List.cons_append,
        List.nil_append, List.cons_prefix_cons] at h
      obtain ⟨hbyte, hrest⟩ := h
      rw [byte_inj hc hd hbyte, List.cons_prefix_cons]
      exact ⟨rfl, ih (fun x hx => hcs x (List.mem_cons_of_mem _ hx)) hrest⟩

/-- An infix that starts with a byte of ASCII does not start within bytes beyond ASCII. -/
private theorem infix_of_append {x : UInt8} {xs front back : List UInt8}
    (hfront : ∀ b ∈ front, 0x80 ≤ b.toNat) (hx : x.toNat < 0x80)
    (h : x :: xs <:+: front ++ back) : x :: xs <:+: back := by
  induction front with
  | nil => exact h
  | cons b front ih =>
    rw [List.cons_append, List.infix_cons_iff, List.cons_prefix_cons] at h
    rcases h with ⟨rfl, -⟩ | h
    · have := hfront x List.mem_cons_self
      omega
    · exact ih (fun y hy => hfront y (List.mem_cons_of_mem _ hy)) h

private theorem infix_of_map_byte {c : Char} {cs ds : List Char} (hcs : IsAscii (c :: cs))
    (h : (c :: cs).map byte <:+: ds.flatMap String.utf8EncodeChar) : c :: cs <:+: ds := by
  induction ds with
  | nil => simp at h
  | cons d ds ih =>
    rw [List.infix_cons_iff]
    by_cases hd : d.toNat < 0x80
    · rw [List.flatMap_cons, encodeChar_of_lt hd, List.singleton_append,
        List.infix_cons_iff] at h
      rcases h with h | h
      · refine .inl (prefix_of_map_byte hcs ?_)
        rw [List.flatMap_cons, encodeChar_of_lt hd]
        exact h
      · exact .inr (ih h)
    · have hx : (byte c).toNat < 0x80 := by
        rw [toNat_byte (hcs c List.mem_cons_self)]
        exact hcs c List.mem_cons_self
      rw [List.flatMap_cons] at h
      exact .inr (ih (infix_of_append (fun b => le_of_mem_encodeChar (Nat.not_lt.1 hd)) hx h))

theorem map_byte_isInfix_utf8_iff {s : String} {cs : List Char} (hne : cs ≠ [])
    (hcs : IsAscii cs) : cs.map byte <:+: utf8 s ↔ cs <:+: s.toList := by
  rw [utf8_eq_flatMap]
  constructor
  · intro h
    cases cs with
    | nil => exact absurd rfl hne
    | cons c cs => exact infix_of_map_byte hcs h
  · rintro ⟨front, back, h⟩
    refine ⟨front.flatMap String.utf8EncodeChar, back.flatMap String.utf8EncodeChar, ?_⟩
    rw [← h, List.flatMap_append, List.flatMap_append, flatMap_encodeChar_of_isAscii hcs]

end DoubleSubmit.Text

namespace DoubleSubmit.Http

/-- A character that a header value may hold: no control character but the tab. -/
def isFieldChar (c : Char) : Bool := (0x20 ≤ c.toNat && c.toNat != 0x7f) || c.toNat == 0x09

theorem all_isFieldByte_encodeChar (c : Char) :
    (String.utf8EncodeChar c).all isFieldByte = isFieldChar c := by
  by_cases hc : c.toNat < 0x80
  · have hb := Text.toNat_byte hc
    rw [Text.encodeChar_of_lt hc]
    simp [isFieldByte, isFieldChar, ← hb, UInt8.le_iff_toNat_le, ← UInt8.toNat_inj, bne, BEq.beq]
  · have hchar : isFieldChar c = true := by
      simp only [isFieldChar, Bool.or_eq_true, Bool.and_eq_true, decide_eq_true_eq, bne_iff_ne]
      omega
    rw [hchar, List.all_eq_true]
    intro b hb
    have := Text.le_of_mem_encodeChar (Nat.not_lt.1 hc) hb
    simp only [isFieldByte, Bool.or_eq_true, Bool.and_eq_true, decide_eq_true_eq, bne_iff_ne,
      UInt8.le_iff_toNat_le, ne_eq, ← UInt8.toNat_inj]
    left
    constructor
    · exact Nat.le_trans (by decide) this
    · intro h
      rw [h] at this
      exact absurd this (by decide)

theorem all_isFieldByte_utf8 (s : String) :
    (Text.utf8 s).all isFieldByte = s.toList.all isFieldChar := by
  rw [Text.utf8_eq_flatMap, List.all_flatMap]
  congr 1
  funext c
  exact all_isFieldByte_encodeChar c

namespace HeaderValue

theorem canCarry_iff {s : String} : canCarry s ↔ ∀ c ∈ s.toList, isFieldChar c := by
  rw [← List.all_eq_true, ← all_isFieldByte_utf8, canCarry, ofBytes?]
  split <;> simp_all

end HeaderValue

end DoubleSubmit.Http
