import DoubleSubmit.Calendar.Lemmas
import DoubleSubmit.Text.Split

/-! Dates as a client reads them. The reader knows the rules of the calendar alone: it counts the
days year by year and month by month, takes no date that the calendar does not have, and wants the
day of the week to be right. An instant is written as a date that says this very second
(`Calendar.readHttp?_httpText`). -/

namespace DoubleSubmit

/-! ## Numbers read back -/

namespace Text

/-- The number that decimal digits spell. -/
def readDecimal? (digits : List Char) : Option Nat :=
  if digits ≠ [] ∧ digits.all Char.isDigit then some (Nat.ofDigitChars 10 digits 0) else none

theorem readDecimal?_decimal (n : Nat) : readDecimal? (decimal n).toList = some n := by
  have hdigits : (decimal n).toList.all Char.isDigit :=
    List.all_eq_true.2 fun _ => isDigit_of_mem_decimal
  have hne : (decimal n).toList ≠ [] := by
    rw [decimal, String.toList_ofList]
    exact Nat.toDigits_ne_nil
  rw [readDecimal?, if_pos ⟨hne, hdigits⟩, decimal, String.toList_ofList,
    Nat.ofDigitChars_ten_toDigits]

theorem notMem_decimal {c : Char} (hc : ¬c.isDigit) (n : Nat) : c ∉ (decimal n).toList :=
  fun h => hc (isDigit_of_mem_decimal h)

theorem notMem_twoDigits {c : Char} (hc : ¬c.isDigit) (n : Nat) : c ∉ (twoDigits n).toList := by
  unfold twoDigits
  split
  · rw [String.toList_append, List.mem_append, not_or]
    refine ⟨fun h => hc ?_, notMem_decimal hc n⟩
    obtain rfl : c = '0' := by simpa using h
    decide
  · exact notMem_decimal hc n

theorem notMem_signed {c : Char} (hc : ¬c.isDigit) (hminus : c ≠ '-') (n : Int) :
    c ∉ (signed n).toList := by
  unfold signed
  split
  · rw [String.toList_append, List.mem_append, not_or]
    exact ⟨fun h => hminus (by simpa using h), notMem_decimal hc _⟩
  · exact notMem_decimal hc _

theorem readDecimal?_twoDigits (n : Nat) : readDecimal? (twoDigits n).toList = some n := by
  unfold twoDigits
  split
  · next hn =>
    have hall : ∀ n < 10, readDecimal? ("0" ++ decimal n).toList = some n := by decide +kernel
    exact hall n hn
  · exact readDecimal?_decimal n

end Text

namespace Calendar

/-! ## The reader -/

/-- The days of so many years from the year 1 on. -/
def daysOfYears : Nat → Nat
  | 0 => 0
  | years + 1 => daysOfYears years + if isLeap (years + 1 : Nat) then 366 else 365

/-- The day that a date says, counted from the first of January 1970, if the calendar has it. -/
def readDay? (day month year : List Char) : Option Int := do
  let day ← Text.readDecimal? day
  let month ← monthNames.idxOf? (String.ofList month)
  let year ← Text.readDecimal? year
  let length ← (monthLengths year)[month]?
  if 1 ≤ year ∧ 1 ≤ day ∧ day ≤ length then
    some (daysOfYears (year - 1) + daysOfMonths (monthLengths year) month + (day - 1) -
      daysOfYears 1969)
  else none

/-- The second of the day that hours, minutes and seconds say. -/
def readTime? (time : List Char) : Option Nat :=
  match Text.pieces ':' time with
  | [hour, minute, second] => do
    let hour ← Text.readDecimal? hour
    let minute ← Text.readDecimal? minute
    let second ← Text.readDecimal? second
    if hour < 24 ∧ minute < 60 ∧ second < 60 then some (3600 * hour + 60 * minute + second)
    else none
  | _ => none

/-- The name of a day of the week. The first of January 1970 is a Thursday. -/
def weekdayFrom1970 (day : Int) : String := weekdayNames.getD ((day + 3) % 7).toNat ""

/-- The second that a date says, counted from 1970, in Greenwich. -/
def readHttp? (text : String) : Option Int :=
  match Text.pieces ' ' text.toList with
  | [weekday, day, month, year, time, zone] => do
    let day ← readDay? day month year
    let second ← readTime? time
    if weekday = (weekdayFrom1970 day ++ ",").toList ∧ zone = "GMT".toList then
      some (86400 * day + second)
    else none
  | _ => none

/-- The first second of the year 1, counted from 1970. -/
def firstUnix : Int := -62135596800

/-! ## The days of the calendar -/

theorem yearStart_eq_daysOfYears (years : Nat) :
    yearStart (years + 1 : Nat) = daysOfYears years := by
  induction years with
  | zero => rfl
  | succ years ih =>
    change yearStart ((years + 1 : Nat) + 1) = _
    rw [yearStart_succ, ih, daysOfYears, Int.natCast_add]
    split <;> rfl

theorem daysOfYears_1969 : (daysOfYears 1969 : Int) = unixEpoch :=
  (yearStart_eq_daysOfYears 1969).symm

theorem firstUnix_eq : firstUnix = -(86400 * daysOfYears 1969) := by
  rw [daysOfYears_1969]
  rfl

/-- A day from the year 1 on lies in a year that is counted from there. -/
theorem exists_yearOfDay_eq_natCast {n : Int} (h : 0 ≤ n) :
    ∃ year : Nat, yearOfDay n = (year + 1 : Nat) := by
  have hend := (yearStart_yearOfDay_le n).2
  -- The years up to 0 end before this day.
  have hpos : 1 ≤ yearOfDay n := by
    unfold yearStart at hend
    omega
  exact ⟨(yearOfDay n - 1).toNat, by omega⟩

/-! ## What is written is read -/

theorem idxOf?_monthNames {month : Nat} (h : month < 12) :
    monthNames.idxOf? (monthNames.getD month "") = some month := by
  have hall : ∀ month < 12, monthNames.idxOf? (monthNames.getD month "") = some month := by decide
  exact hall month h

theorem weekdayFrom1970_eq (n : Int) : weekdayFrom1970 (n - daysOfYears 1969) = weekday n := by
  have hmod : (n - daysOfYears 1969 + 3) % 7 = n % 7 := by
    rw [daysOfYears_1969, unixEpoch]
    omega
  rw [weekdayFrom1970, hmod, weekday]

/-- The date of a day from the year 1 on is read as this day. -/
theorem readDay?_ofDay {n : Int} (h : 0 ≤ n) :
    readDay? (Text.twoDigits (Date.ofDay n).day).toList
      (monthNames.getD ((Date.ofDay n).month - 1) "").toList
      (Text.signed (Date.ofDay n).year).toList = some (n - daysOfYears 1969) := by
  obtain ⟨year, hyear⟩ := exists_yearOfDay_eq_natCast h
  obtain ⟨month, day, length, hdate, hlength, hday, hsum⟩ := ofDay_spec n
  rw [hyear] at hdate hlength hsum
  rw [yearStart_eq_daysOfYears] at hsum
  have hmonth : month < 12 := (List.getElem?_eq_some_iff.1 hlength).1
  have hsigned : Text.signed (year + 1 : Nat) = Text.decimal (year + 1) := by
    rw [Text.signed, if_neg (by omega), Int.natAbs_natCast]
  rw [hdate, readDay?, Text.readDecimal?_twoDigits, hsigned, Text.readDecimal?_decimal]
  simp only [Nat.add_sub_cancel, String.ofList_toList, Option.bind_eq_bind, Option.bind_some,
    idxOf?_monthNames hmonth, hlength]
  rw [if_pos (by omega), ← hsum, Option.some.injEq]
  omega

theorem readTime?_timeText (instant : Instant) :
    readTime? instant.timeText.toList = some instant.secondOfDay := by
  have hcolon (n : Nat) : ':' ∉ (Text.twoDigits n).toList := Text.notMem_twoDigits (by decide) n
  have hlt : instant.secondOfDay < 86400 := by
    rw [Instant.secondOfDay, daySeconds]
    omega
  have hpieces : Text.pieces ':' instant.timeText.toList =
      [(Text.twoDigits (instant.secondOfDay / 3600)).toList,
        (Text.twoDigits (instant.secondOfDay / 60 % 60)).toList,
        (Text.twoDigits (instant.secondOfDay % 60)).toList] := by
    rw [← Text.pieces_flatMap_cons (hcolon _) (by simp [hcolon])]
    simp [Instant.timeText, String.toList_append]
  simp only [readTime?, hpieces, Text.readDecimal?_twoDigits, Option.bind_eq_bind,
    Option.bind_some]
  rw [if_pos (by omega), Option.some.injEq]
  omega

/-- The six parts of a date. -/
theorem pieces_httpText (instant : Instant) : Text.pieces ' ' instant.httpText.toList =
    [(weekday instant.day ++ ",").toList, (Text.twoDigits (Date.ofDay instant.day).day).toList,
      (monthNames.getD ((Date.ofDay instant.day).month - 1) "").toList,
      (Text.signed (Date.ofDay instant.day).year).toList, instant.timeText.toList,
      "GMT".toList] := by
  have hspace : ¬Char.isDigit ' ' := by decide
  have hname {names : List String} (h : ∀ name ∈ names, ' ' ∉ name.toList) (i : Nat) :
      ' ' ∉ (names.getD i "").toList :=
    getD_of_forall (p := fun name => ' ' ∉ name.toList) List.not_mem_nil h i
  have hweekday : ' ' ∉ (weekday instant.day ++ ",").toList := by
    rw [String.toList_append, List.mem_append, not_or]
    exact ⟨hname (by decide) _, by decide⟩
  have htime : ' ' ∉ instant.timeText.toList := by
    simp [Instant.timeText, String.toList_append, Text.notMem_twoDigits hspace]
  rw [← Text.pieces_flatMap_cons hweekday]
  · simp [Instant.httpText, String.toList_append]
  · simp only [List.forall_mem_cons, List.not_mem_nil, false_imp_iff, implies_true, and_true]
    exact ⟨Text.notMem_twoDigits hspace _, hname (by decide) _,
      Text.notMem_signed hspace (by decide) _, htime, by decide⟩

/-- An instant from the year 1 on is written as a date that says this second. -/
theorem readHttp?_httpText {instant : Instant} (h : firstUnix ≤ instant.unix) :
    readHttp? instant.httpText = some instant.unix := by
  rw [firstUnix_eq, daysOfYears_1969] at h
  -- The date says the full days and the time the seconds that are left.
  have hsplit := Int.mul_ediv_add_emod instant.unix daySeconds
  have hday : 0 ≤ instant.day := by
    rw [Instant.day, daySeconds]
    omega
  have hsecond : (instant.secondOfDay : Int) = instant.unix % daySeconds :=
    Int.toNat_of_nonneg (Int.emod_nonneg _ (by decide))
  have hweekday : weekday instant.day = weekdayFrom1970 (instant.day - daysOfYears 1969) :=
    (weekdayFrom1970_eq _).symm
  simp only [readHttp?, pieces_httpText, readDay?_ofDay hday, readTime?_timeText,
    Option.bind_eq_bind, Option.bind_some, hweekday, and_self, if_true]
  rw [Option.some.injEq, hsecond, daysOfYears_1969, Instant.day]
  rw [daySeconds] at hsplit ⊢
  omega

/-- The last day of February is a day of the calendar in 2000, but not in 1900. -/
example : readHttp? "Tue, 29 Feb 2000 23:59:59 GMT" = some 951868799 ∧
    readHttp? "Thu, 29 Feb 1900 23:59:59 GMT" = none := by decide +kernel

end Calendar

end DoubleSubmit
