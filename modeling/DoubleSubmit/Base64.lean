/-! Base64 in two forms: the standard alphabet with padding, and the URL-safe one without.
Three bytes become four digits; one or two bytes at the end become two or three digits, filled
up with padding in the padded form. Decoding gives back what was encoded (`decode?_encode`), and
the text of the URL-safe form has as few digits as the bytes need (`length_encodeChars_urlSafe`). -/

namespace DoubleSubmit

/-- A form of base64. -/
inductive Base64 where
  /-- The digits of value 62 and 63 are plus and slash; the last group is filled up. -/
  | standard
  /-- The digits of value 62 and 63 are hyphen and underscore; nothing is filled up. -/
  | urlSafe
  deriving DecidableEq, Repr

namespace Base64

def padded : Base64 → Bool
  | standard => true
  | urlSafe => false

def digit62 : Base64 → Char
  | standard => '+'
  | urlSafe => '-'

def digit63 : Base64 → Char
  | standard => '/'
  | urlSafe => '_'

def filler : Char := '='

variable (form : Base64)

/-- The digit of a value below 64. -/
def digit (n : Nat) : Char :=
  if n < 26 then Char.ofNat (0x41 + n)
  else if n < 52 then Char.ofNat (0x61 + (n - 26))
  else if n < 62 then Char.ofNat (0x30 + (n - 52))
  else if n = 62 then form.digit62
  else form.digit63

def value? (c : Char) : Option Nat :=
  if 'A' ≤ c ∧ c ≤ 'Z' then some (c.toNat - 0x41)
  else if 'a' ≤ c ∧ c ≤ 'z' then some (c.toNat - 0x61 + 26)
  else if '0' ≤ c ∧ c ≤ '9' then some (c.toNat - 0x30 + 52)
  else if c = form.digit62 then some 62
  else if c = form.digit63 then some 63
  else none

/-- Padding of `n` characters, where the form has padding. -/
def filling (n : Nat) : List Char := if form.padded then List.replicate n filler else []

def encodeChars : List UInt8 → List Char
  | a :: b :: c :: rest =>
    form.digit (a.toNat / 4) :: form.digit (a.toNat % 4 * 16 + b.toNat / 16) ::
      form.digit (b.toNat % 16 * 4 + c.toNat / 64) :: form.digit (c.toNat % 64) ::
      encodeChars rest
  | [a, b] =>
    form.digit (a.toNat / 4) :: form.digit (a.toNat % 4 * 16 + b.toNat / 16) ::
      form.digit (b.toNat % 16 * 4) :: form.filling 1
  | [a] => form.digit (a.toNat / 4) :: form.digit (a.toNat % 4 * 16) :: form.filling 2
  | [] => []

def encode (bytes : List UInt8) : String := String.ofList (form.encodeChars bytes)

/-- The byte of two digits that end a text; the low bits of the second must be zero. -/
def oneByte? (x y : Char) : Option (List UInt8) := do
  let p ← form.value? x
  let q ← form.value? y
  if q % 16 = 0 then some [UInt8.ofNat (p * 4 + q / 16)] else none

/-- The bytes of three digits that end a text; the low bits of the third must be zero. -/
def twoBytes? (x y z : Char) : Option (List UInt8) := do
  let p ← form.value? x
  let q ← form.value? y
  let r ← form.value? z
  if r % 4 = 0 then
    some [UInt8.ofNat (p * 4 + q / 16), UInt8.ofNat (q % 16 * 16 + r / 4)]
  else none

def threeBytes? (x y z w : Char) : Option (List UInt8) := do
  let p ← form.value? x
  let q ← form.value? y
  let r ← form.value? z
  let s ← form.value? w
  some [UInt8.ofNat (p * 4 + q / 16), UInt8.ofNat (q % 16 * 16 + r / 4),
    UInt8.ofNat (r % 4 * 64 + s)]

/-- The bytes that digits stand for. Only the one text that encodes them is read. -/
def decodeChars? : List Char → Option (List UInt8)
  | x :: y :: z :: w :: rest =>
    if form.padded ∧ rest = [] ∧ w = filler then
      if z = filler then form.oneByte? x y else form.twoBytes? x y z
    else do
      let bytes ← form.threeBytes? x y z w
      let more ← decodeChars? rest
      some (bytes ++ more)
  | [x, y, z] => if form.padded then none else form.twoBytes? x y z
  | [x, y] => if form.padded then none else form.oneByte? x y
  | [_] => none
  | [] => some []

def decode? (text : String) : Option (List UInt8) := form.decodeChars? text.toList

/-- The digits that a URL, a cookie and a header carry as they are. -/
def isUrlSafeDigit (c : Char) : Bool := c.isAlphanum || c == '-' || c == '_'

variable {form}

theorem value?_digit {n : Nat} (h : n < 64) : form.value? (form.digit n) = some n := by
  have : ∀ n : Fin 64, form.value? (form.digit n) = some n.val := by cases form <;> decide
  exact this ⟨n, h⟩

theorem digit_ne_filler {n : Nat} (h : n < 64) : form.digit n ≠ filler := by
  have : ∀ n : Fin 64, form.digit n ≠ filler := by cases form <;> decide
  exact this ⟨n, h⟩

theorem isUrlSafeDigit_digit {n : Nat} (h : n < 64) : isUrlSafeDigit (urlSafe.digit n) := by
  have : ∀ n : Fin 64, isUrlSafeDigit (urlSafe.digit n) := by decide
  exact this ⟨n, h⟩

/-- A byte is put together again from its upper six and its lower two bits. -/
private theorem ofNat_eq {a : UInt8} {n : Nat} (h : n = a.toNat) : UInt8.ofNat n = a := by
  subst h
  exact UInt8.ofNat_toNat

theorem decodeChars?_encodeChars (bytes : List UInt8) :
    form.decodeChars? (form.encodeChars bytes) = some bytes := by
  fun_induction encodeChars form bytes with
  | case1 a b c rest ih =>
    have ha := a.toNat_lt
    have hb := b.toNat_lt
    have hc := c.toNat_lt
    have hlast := @digit_ne_filler form (c.toNat % 64) (by omega)
    simp only [decodeChars?, hlast, and_false, if_false, threeBytes?]
    rw [value?_digit (by omega), value?_digit (by omega), value?_digit (by omega),
      value?_digit (by omega)]
    simp only [Option.bind_eq_bind, Option.bind_some, ih, List.cons_append, List.nil_append,
      Option.some.injEq, List.cons.injEq, and_true]
    exact ⟨ofNat_eq (by omega), ofNat_eq (by omega), ofNat_eq (by omega)⟩
  | case2 a b =>
    have ha := a.toNat_lt
    have hb := b.toNat_lt
    have hread : form.twoBytes? (form.digit (a.toNat / 4))
        (form.digit (a.toNat % 4 * 16 + b.toNat / 16)) (form.digit (b.toNat % 16 * 4)) =
        some [a, b] := by
      simp only [twoBytes?]
      rw [value?_digit (by omega), value?_digit (by omega), value?_digit (by omega)]
      simp only [Option.bind_eq_bind, Option.bind_some, Nat.mul_mod_left, if_true,
        Option.some.injEq, List.cons.injEq, and_true]
      exact ⟨ofNat_eq (by omega), ofNat_eq (by omega)⟩
    have hz := @digit_ne_filler form (b.toNat % 16 * 4) (by omega)
    cases hp : form.padded with
    | true => simpa [filling, hp, decodeChars?, hz] using hread
    | false => simpa [filling, hp, decodeChars?] using hread
  | case3 a =>
    have ha := a.toNat_lt
    have hread : form.oneByte? (form.digit (a.toNat / 4)) (form.digit (a.toNat % 4 * 16)) =
        some [a] := by
      simp only [oneByte?]
      rw [value?_digit (by omega), value?_digit (by omega)]
      simp only [Option.bind_eq_bind, Option.bind_some, Nat.mul_mod_left, if_true,
        Option.some.injEq, List.cons.injEq, and_true]
      exact ofNat_eq (by omega)
    cases hp : form.padded with
    | true => simpa [filling, hp, decodeChars?, List.replicate] using hread
    | false => simpa [filling, hp, decodeChars?] using hread
  | case4 => rfl

theorem decode?_encode (bytes : List UInt8) : form.decode? (form.encode bytes) = some bytes := by
  simp [decode?, encode, decodeChars?_encodeChars]

theorem encode_injective {bytes bytes' : List UInt8} (h : form.encode bytes = form.encode bytes') :
    bytes = bytes' := by
  have := congrArg form.decode? h
  simpa [decode?_encode] using this

theorem isUrlSafeDigit_of_mem {bytes : List UInt8} {c : Char} (h : c ∈ urlSafe.encodeChars bytes) :
    isUrlSafeDigit c := by
  fun_induction encodeChars urlSafe bytes with
  | case1 a b d rest ih =>
    have ha := a.toNat_lt
    have hb := b.toNat_lt
    simp only [List.mem_cons] at h
    rcases h with rfl | rfl | rfl | rfl | h
    · exact isUrlSafeDigit_digit (by omega)
    · exact isUrlSafeDigit_digit (by omega)
    · exact isUrlSafeDigit_digit (by have := d.toNat_lt; omega)
    · exact isUrlSafeDigit_digit (by omega)
    · exact ih h
  | case2 a b =>
    have ha := a.toNat_lt
    have hb := b.toNat_lt
    simp only [filling, padded, Bool.false_eq_true, if_false, List.mem_cons, List.not_mem_nil,
      or_false] at h
    rcases h with rfl | rfl | rfl <;> exact isUrlSafeDigit_digit (by omega)
  | case3 a =>
    have ha := a.toNat_lt
    simp only [filling, padded, Bool.false_eq_true, if_false, List.mem_cons, List.not_mem_nil,
      or_false] at h
    rcases h with rfl | rfl <;> exact isUrlSafeDigit_digit (by omega)
  | case4 => cases h

/-- A third more digits than bytes, rounded up. -/
theorem length_encodeChars_urlSafe (bytes : List UInt8) :
    (urlSafe.encodeChars bytes).length = (4 * bytes.length + 2) / 3 := by
  fun_induction encodeChars urlSafe bytes with
  | case1 a b c rest ih =>
    simp only [List.length_cons, ih]
    omega
  | case2 | case3 => simp [filling, padded]
  | case4 => rfl

end Base64

end DoubleSubmit
