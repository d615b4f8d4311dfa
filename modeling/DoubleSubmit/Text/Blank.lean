/-! Unicode white space and its removal from both ends of a text. What is left neither starts
nor ends with white space (`head?_trim`, `getLast?_trim`), and a text of which that already
holds is left alone (`trim_eq_self`). -/

namespace DoubleSubmit.Text

/-- The code points with the Unicode property `White_Space`. -/
def blankCodePoints : List Nat :=
  [0x09, 0x0A, 0x0B, 0x0C, 0x0D, 0x20, 0x85, 0xA0, 0x1680, 0x2000, 0x2001, 0x2002, 0x2003,
    0x2004, 0x2005, 0x2006, 0x2007, 0x2008, 0x2009, 0x200A, 0x2028, 0x2029, 0x202F, 0x205F,
    0x3000]

/-- White space in the sense of Unicode, not of ASCII alone. -/
def isBlank (c : Char) : Bool := blankCodePoints.contains c.toNat

def trimEnd : List Char → List Char
  | [] => []
  | c :: rest =>
    match trimEnd rest with
    | [] => if isBlank c then [] else [c]
    | kept => c :: kept

def trim (cs : List Char) : List Char := trimEnd (cs.dropWhile isBlank)

theorem getLast?_trimEnd (cs : List Char) (c : Char) (h : (trimEnd cs).getLast? = some c) :
    isBlank c = false := by
  fun_induction trimEnd cs with
  | case1 => simp at h
  | case2 => simp at h
  | case3 d rest he hb ih =>
    simp only [List.getLast?_singleton, Option.some.injEq] at h
    subst h
    simpa using hb
  | case4 d rest he ih =>
    cases hk : trimEnd rest with
    | nil => exact absurd hk he
    | cons x xs =>
      rw [hk, List.getLast?_cons_cons] at h
      exact ih (hk ▸ h)

theorem getLast?_trim (cs : List Char) (c : Char) (h : (trim cs).getLast? = some c) :
    isBlank c = false :=
  getLast?_trimEnd _ c h

theorem head?_trimEnd (cs : List Char) : (trimEnd cs).head? = none ∨
    (trimEnd cs).head? = cs.head? := by
  fun_induction trimEnd cs <;> simp

theorem head?_trim (cs : List Char) (c : Char) (h : (trim cs).head? = some c) :
    isBlank c = false := by
  rcases head?_trimEnd (cs.dropWhile isBlank) with h' | h'
  · rw [trim, h'] at h; cases h
  · rw [trim, h'] at h
    have := List.head?_dropWhile_not isBlank cs
    rw [h] at this
    simpa using this

theorem trimEnd_isPrefix (cs : List Char) : trimEnd cs <+: cs := by
  fun_induction trimEnd cs with
  | case1 => exact List.prefix_rfl
  | case2 => exact List.nil_prefix
  | case3 c rest => exact List.prefix_append [c] rest
  | case4 c rest _ ih => exact List.cons_prefix_cons.2 ⟨rfl, ih⟩

theorem trim_isInfix (cs : List Char) : trim cs <:+: cs :=
  (trimEnd_isPrefix _).isInfix.trans (List.dropWhile_suffix isBlank).isInfix

theorem trimEnd_eq_self {cs : List Char} (h : ∀ c, cs.getLast? = some c → isBlank c = false) :
    trimEnd cs = cs := by
  fun_induction trimEnd cs with
  | case1 => rfl
  | case2 c rest he hb ih =>
    cases rest with
    | nil => rw [h c rfl] at hb; cases hb
    | cons x xs =>
      rw [ih (fun d hd => h d (by rw [List.getLast?_cons_cons]; exact hd))] at he
      cases he
  | case3 c rest he hb ih =>
    cases rest with
    | nil => rfl
    | cons x xs =>
      rw [ih (fun d hd => h d (by rw [List.getLast?_cons_cons]; exact hd))] at he
      cases he
  | case4 c rest he ih =>
    cases rest with
    | nil => exact absurd rfl he
    | cons x xs => rw [ih (fun d hd => h d (by rw [List.getLast?_cons_cons]; exact hd))]

theorem trim_eq_self {cs : List Char} (hs : ∀ c, cs.head? = some c → isBlank c = false)
    (he : ∀ c, cs.getLast? = some c → isBlank c = false) : trim cs = cs := by
  have : cs.dropWhile isBlank = cs := by
    cases cs with
    | nil => rfl
    | cons c rest => simp [List.dropWhile, hs c rfl]
  rw [trim, this, trimEnd_eq_self he]

end DoubleSubmit.Text
