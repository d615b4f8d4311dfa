/-! Numbers in decimal digits. The digits are ASCII digits (`isDigit_of_mem_decimal`), and a number
is read back from them (`decimal_injective`). -/

namespace DoubleSubmit.Text

/-- A number in decimal digits, as few as it needs. -/
def decimal (n : Nat) : String := String.ofList (Nat.toDigits 10 n)

/-- A number in two decimal digits, or in more if it needs them. -/
def twoDigits (n : Nat) : String := if n < 10 then "0" ++ decimal n else decimal n

/-- A number in decimal digits, behind a minus if it is negative. -/
def signed (n : Int) : String := if n < 0 then "-" ++ decimal n.natAbs else decimal n.natAbs

theorem isDigit_of_mem_decimal {n : Nat} {c : Char} (h : c ∈ (decimal n).toList) : c.isDigit := by
  rw [decimal, String.toList_ofList] at h
  exact Nat.isDigit_of_mem_toDigits (by decide) (by decide) h

theorem decimal_injective {m n : Nat} (h : decimal m = decimal n) : m = n := by
  have := congrArg (fun s => Nat.ofDigitChars 10 s.toList 0) h
  simpa [decimal, Nat.ofDigitChars_ten_toDigits] using this

end DoubleSubmit.Text
