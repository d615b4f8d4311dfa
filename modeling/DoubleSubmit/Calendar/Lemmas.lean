import DoubleSubmit.Calendar.Basic

/-! The calendar counts days right: every day lies in the year that `yearOfDay` gives
(`yearStart_yearOfDay_le`), and the date of a day is one that the calendar has, with as many days
before it as the number of the day says (`ofDay_spec`). -/

namespace DoubleSubmit.Calendar

/-- The first day of a year, counted by eras of 400 years, centuries, cycles of four years and
single years. -/
theorem yearStart_eq {era century cycle year : Int} (hc : 0 ≤ century ∧ century ≤ 3)
    (hq : 0 ≤ cycle ∧ cycle ≤ 24) (hy : 0 ≤ year ∧ year ≤ 3) :
    yearStart (400 * era + 100 * century + 4 * cycle + year + 1) =
      146097 * era + 36524 * century + 1461 * cycle + 365 * year := by
  unfold yearStart
  have h4 : (400 * era + 100 * century + 4 * cycle + year + 1 - 1) / 4 =
      100 * era + 25 * century + cycle := by omega
  have h100 : (400 * era + 100 * century + 4 * cycle + year + 1 - 1) / 100 =
      4 * era + century := by omega
  have h400 : (400 * era + 100 * century + 4 * cycle + year + 1 - 1) / 400 = era := by omega
  omega

theorem yearStart_succ (year : Int) :
    yearStart (year + 1) = yearStart year + if isLeap year then 366 else 365 := by
  unfold yearStart isLeap
  by_cases h4 : year % 4 = 0 <;> by_cases h100 : year % 100 = 0 <;>
    by_cases h400 : year % 400 = 0 <;> simp [h4, h100, h400] <;> omega

/-- Every day lies in a year of a cycle of a century of an era. A year that is a day longer is the
last of its cycle, and if its cycle is the last of its century, the century is the last of its
era. -/
theorem exists_yearOfDay_eq (n : Int) : ∃ era century cycle year rest : Int,
    yearOfDay n = 400 * era + 100 * century + 4 * cycle + year + 1 ∧
      (0 ≤ century ∧ century ≤ 3) ∧ (0 ≤ cycle ∧ cycle ≤ 24) ∧ (0 ≤ year ∧ year ≤ 3) ∧
      n = 146097 * era + 36524 * century + 1461 * cycle + 365 * year + rest ∧ 0 ≤ rest ∧
      (rest ≤ 364 ∨ rest = 365 ∧ year = 3 ∧ (cycle = 24 → century = 3)) := by
  refine ⟨n / 146097, min (n % 146097 / 36524) 3,
    (n % 146097 - 36524 * min (n % 146097 / 36524) 3) / 1461,
    min ((n % 146097 - 36524 * min (n % 146097 / 36524) 3) % 1461 / 365) 3,
    (n % 146097 - 36524 * min (n % 146097 / 36524) 3) % 1461 -
      365 * min ((n % 146097 - 36524 * min (n % 146097 / 36524) 3) % 1461 / 365) 3, rfl, ?_⟩
  generalize he : n % 146097 = inEra
  generalize hc : min (inEra / 36524) 3 = century
  have hc' : 0 ≤ century ∧ century ≤ 3 ∧ 36524 * century ≤ inEra ∧
      (inEra < 36524 * century + 36524 ∨ century = 3 ∧ inEra ≤ 146096) := by omega
  generalize hq : (inEra - 36524 * century) / 1461 = cycle
  generalize hm : (inEra - 36524 * century) % 1461 = inCycle
  have hq' : 0 ≤ inCycle ∧ inCycle < 1461 ∧ inEra = 36524 * century + 1461 * cycle + inCycle ∧
      0 ≤ cycle ∧ cycle ≤ 24 ∧ (cycle = 24 → century < 3 → inCycle < 1460) := by omega
  generalize hy : min (inCycle / 365) 3 = year
  have hy' : 0 ≤ year ∧ year ≤ 3 ∧ 365 * year ≤ inCycle ∧
      (inCycle < 365 * year + 365 ∨ year = 3 ∧ inCycle ≤ 1460) := by omega
  omega

theorem yearStart_yearOfDay_le (n : Int) :
    yearStart (yearOfDay n) ≤ n ∧ n < yearStart (yearOfDay n + 1) := by
  obtain ⟨era, century, cycle, year, rest, he, hc, hq, hy, hn, hr, hlast⟩ := exists_yearOfDay_eq n
  rw [yearStart_succ, he, yearStart_eq hc hq hy]
  refine ⟨by omega, ?_⟩
  rcases hlast with hlast | ⟨hlast, rfl, hcentury⟩
  · split <;> omega
  · have hleap : isLeap (400 * era + 100 * century + 4 * cycle + 3 + 1) = true := by
      simp only [isLeap, Bool.and_eq_true, Bool.or_eq_true, beq_iff_eq, bne_iff_ne, ne_eq]
      omega
    rw [if_pos hleap]
    omega

theorem daysOfMonths_monthLengths (year : Int) :
    daysOfMonths (monthLengths year) 12 = if isLeap year then 366 else 365 := by
  unfold monthLengths
  cases isLeap year <;> rfl

/-- The month that is found for a day of the year has this day, and the days before it are as many
as they should be. -/
theorem monthAndDay_spec {lengths : List Nat} {n : Nat}
    (h : n < daysOfMonths lengths lengths.length) :
    ∃ month day length, monthAndDay lengths n = (month + 1, day + 1) ∧
      lengths[month]? = some length ∧ day < length ∧ daysOfMonths lengths month + day = n := by
  induction lengths generalizing n with
  | nil => cases h
  | cons first lengths ih =>
    unfold monthAndDay
    split
    · next hn => exact ⟨0, n, first, rfl, rfl, hn, Nat.zero_add n⟩
    · rw [List.length_cons, daysOfMonths] at h
      obtain ⟨month, day, length, heq, hlength, hday, hsum⟩ := @ih (n - first) (by omega)
      refine ⟨month + 1, day, length, by rw [heq], hlength, hday, ?_⟩
      rw [daysOfMonths]
      omega

/-- The date of a day is one that the calendar has, with as many days before it. -/
theorem ofDay_spec (n : Int) : ∃ month day length : Nat,
    Date.ofDay n = ⟨yearOfDay n, month + 1, day + 1⟩ ∧
      (monthLengths (yearOfDay n))[month]? = some length ∧ day < length ∧
      yearStart (yearOfDay n) + daysOfMonths (monthLengths (yearOfDay n)) month + day = n := by
  obtain ⟨hstart, hend⟩ := yearStart_yearOfDay_le n
  have hin : (n - yearStart (yearOfDay n)).toNat <
      daysOfMonths (monthLengths (yearOfDay n)) 12 := by
    rw [yearStart_succ] at hend
    rw [daysOfMonths_monthLengths]
    by_cases hleap : isLeap (yearOfDay n)
    · rw [if_pos hleap] at hend ⊢
      omega
    · rw [if_neg hleap] at hend ⊢
      omega
  obtain ⟨month, day, length, heq, hlength, hday, hsum⟩ := monthAndDay_spec hin
  refine ⟨month, day, length, ?_, hlength, hday, by omega⟩
  simp only [Date.ofDay, heq]

/-- What holds of every name and of the empty text holds of the name at any place. -/
theorem getD_of_forall {p : String → Prop} {names : List String} (hempty : p "")
    (h : ∀ name ∈ names, p name) (i : Nat) : p (names.getD i "") := by
  rw [List.getD_eq_getElem?_getD]
  cases hi : names[i]? with
  | none => exact hempty
  | some name => exact h name (List.mem_of_getElem? hi)

/-- The zone in which an instant was written does not move it. -/
theorem Instant.unix_eq_of_ofUnix? {unix offset : Int} {instant : Instant}
    (h : ofUnix? unix offset = some instant) : instant.unix = unix := by
  unfold ofUnix? at h
  split at h
  · split at h
    · cases h
      rfl
    · cases h
  · cases h

end DoubleSubmit.Calendar
