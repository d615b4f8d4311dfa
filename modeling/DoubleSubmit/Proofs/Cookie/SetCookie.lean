import DoubleSubmit.Calendar.Lemmas
import DoubleSubmit.Cookie.Basic
import DoubleSubmit.Proofs.Text.Bytes
import DoubleSubmit.Text.Blank
import DoubleSubmit.Text.Split

/-! Texts that set cookies, read back. A client cuts such a text at its semicolons, and what it
finds is the cookie that was written, as long as neither name nor value hold a separator
(`SetCookie.ofText?_text`). -/

namespace DoubleSubmit

open Text

/-- What a client reads in a text that sets a cookie. -/
structure SetCookie where
  name : String
  value : String
  attributes : List String

namespace SetCookie

/-- Reads a text: the name and the value stand around the first equals sign of the first piece, and
the other pieces are attributes, freed of white space. -/
def ofText? (text : String) : Option SetCookie :=
  match pieces ';' text.toList with
  | [] => none
  | first :: rest =>
    (cut? '=' first).map fun (name, value) =>
      ⟨String.ofList name, String.ofList value,
        rest.map fun piece => String.ofList (trim piece)⟩

end SetCookie

/-! ## The texts of attributes -/

namespace Attribute

def isTextChar (c : Char) : Bool := c.isAlphanum || ", :-=/<>".toList.contains c

def Written (s : String) : Prop := ∀ c ∈ s.toList, isTextChar c

theorem Written.append {s t : String} (hs : Written s) (ht : Written t) : Written (s ++ t) := by
  intro c hc
  rw [String.toList_append, List.mem_append] at hc
  rcases hc with hc | hc
  · exact hs c hc
  · exact ht c hc

theorem written_decimal (n : Nat) : Written (decimal n) := by
  intro c hc
  simp [isTextChar, Char.isAlphanum, isDigit_of_mem_decimal hc]

theorem written_twoDigits (n : Nat) : Written (twoDigits n) := by
  unfold twoDigits
  split
  · exact .append (by simp [Written, isTextChar]) (written_decimal n)
  · exact written_decimal n

theorem written_signed (n : Int) : Written (Text.signed n) := by
  unfold Text.signed
  split
  · exact .append (by simp [Written, isTextChar]) (written_decimal _)
  · exact written_decimal _

theorem written_timeText (instant : Calendar.Instant) : Written instant.timeText := by
  have hcolon : Written ":" := by simp [Written, isTextChar]
  unfold Calendar.Instant.timeText
  apply Written.append
  · apply Written.append
    · exact ((written_twoDigits _).append hcolon).append (written_twoDigits _)
    · exact hcolon
  · exact written_twoDigits _

theorem written_httpText (instant : Calendar.Instant) : Written instant.httpText := by
  have hspace : Written " " := by simp [Written, isTextChar]
  have hweekday : Written (Calendar.weekday instant.day) :=
    Calendar.getD_of_forall (p := Written) (by simp [Written])
      (by simp [Calendar.weekdayNames, Written, isTextChar]) _
  have hmonth : Written
      (Calendar.monthNames.getD ((Calendar.Date.ofDay instant.day).month - 1) "") :=
    Calendar.getD_of_forall (p := Written) (by simp [Written])
      (by simp [Calendar.monthNames, Written, isTextChar]) _
  have hday := ((hweekday.append (t := ", ") (by simp [Written, isTextChar])).append
    (written_twoDigits (Calendar.Date.ofDay instant.day).day)).append hspace
  have hyear := ((hday.append hmonth).append hspace).append
    (written_signed (Calendar.Date.ofDay instant.day).year)
  exact ((hyear.append hspace).append (written_timeText instant)).append
    (by simp [Written, isTextChar])

theorem written_text (a : Attribute) : Written a.text := by
  cases a with
  | sameSite policy => cases policy <;> simp [text, SameSite.text, Written, isTextChar]
  | expires instant => exact .append (by simp [Written, isTextChar]) (written_httpText instant)
  | _ => simp [text, lastYearMark, Written, isTextChar]

theorem isTextChar_spec {c : Char} (h : isTextChar c) : c ≠ ';' ∧ Http.isFieldChar c := by
  have hlt : c.toNat < 0x80 := by
    simp only [isTextChar, Bool.or_eq_true] at h
    rcases h with h | h
    · exact toNat_lt_of_isAlphanum h
    · have hall : ", :-=/<>".toList.all (·.toNat < 0x80) := by decide
      exact of_decide_eq_true (List.all_eq_true.1 hall c (List.contains_iff_mem.1 h))
  have hascii : isTextChar c → c ≠ ';' ∧ Http.isFieldChar c := by
    apply forall_ascii _ hlt
    decide +kernel
  exact hascii h

theorem semicolon_notMem_text (a : Attribute) : ';' ∉ a.text.toList :=
  fun h => (isTextChar_spec (a.written_text _ h)).1 rfl

/-- The texts of attributes neither start nor end with white space. -/
theorem trim_text (a : Attribute) : trim a.text.toList = a.text.toList := by
  cases a with
  | sameSite policy => cases policy <;> decide +kernel
  | expires instant =>
    obtain ⟨front, hfront⟩ : ∃ front, instant.httpText = front ++ " GMT" := ⟨_, rfl⟩
    have htext : (expires instant).text = "Expires=" ++ (front ++ " GMT") :=
      congrArg ("Expires=" ++ ·) hfront
    rw [htext]
    apply trim_eq_self
    · intro c hc
      obtain rfl : 'E' = c := by simpa using hc
      decide
    · intro c hc
      rw [String.toList_append, String.toList_append, List.getLast?_append,
        List.getLast?_append] at hc
      obtain rfl : 'T' = c := by simpa using hc
      decide
  | _ => decide +kernel

theorem text_eq_maxAgeZero_iff {a : Attribute} : a.text = "Max-Age=0" ↔ a = maxAgeZero := by
  cases a with
  | sameSite policy => cases policy <;> simp [text, SameSite.text]
  | expires instant =>
    simp only [reduceCtorEq, iff_false]
    intro h
    have := congrArg (·.toList.head?) h
    simp [text] at this
  | _ => simp [text, lastYearMark]

end Attribute

theorem Text.trim_cons_blank {c : Char} (h : isBlank c) (cs : List Char) :
    trim (c :: cs) = trim cs := by
  rw [trim, List.dropWhile_cons, if_pos h, trim]

namespace Cookie

/-- The pieces of a text that sets a cookie with attributes. -/
theorem pieces_attributes {front : List Char} (hfront : ';' ∉ front) (attributes : List Attribute) :
    pieces ';' (front ++ attributes.flatMap fun a => ("; " ++ a.text).toList) =
      front :: attributes.map fun a => ' ' :: a.text.toList := by
  have hpieces : ∀ piece ∈ attributes.map fun a => ' ' :: a.text.toList, ';' ∉ piece := by
    intro piece hpiece
    obtain ⟨a, -, rfl⟩ := List.mem_map.1 hpiece
    rw [List.mem_cons, not_or]
    exact ⟨by decide, a.semicolon_notMem_text⟩
  rw [← pieces_flatMap_cons hfront hpieces, List.flatMap_map]
  simp only [String.toList_append]
  rfl

theorem toList_text (cookie : Cookie) : cookie.text.toList =
    cookie.name.toList ++ '=' :: cookie.value.toList ++
      cookie.attributes.flatMap fun a => ("; " ++ a.text).toList := by
  rw [text, String.toList_append, String.toList_append, String.toList_append, String.toList_join,
    List.flatMap_map]
  simp

end Cookie

namespace SetCookie

theorem ofText?_text {cookie : Cookie} (hname : ';' ∉ cookie.name.toList)
    (hequals : '=' ∉ cookie.name.toList) (hvalue : ';' ∉ cookie.value.toList) :
    ofText? cookie.text =
      some ⟨cookie.name, cookie.value, cookie.attributes.map Attribute.text⟩ := by
  have hfront : ';' ∉ cookie.name.toList ++ '=' :: cookie.value.toList := by
    rw [List.mem_append, List.mem_cons]
    rintro (h | h | h)
    · exact hname h
    · cases h
    · exact hvalue h
  have hcut : cut? '=' (cookie.name.toList ++ '=' :: cookie.value.toList) =
      some (cookie.name.toList, cookie.value.toList) := cut?_eq_some_iff.2 ⟨rfl, hequals⟩
  rw [ofText?, Cookie.toList_text, Cookie.pieces_attributes hfront]
  simp only [hcut, Option.map_some, String.ofList_toList, List.map_map, Function.comp_def,
    trim_cons_blank (c := ' ') rfl, Attribute.trim_text]

/-- Whatever its value is, a cookie is read under its name. -/
theorem name_of_ofText?_text {cookie : Cookie} (hname : ';' ∉ cookie.name.toList)
    (hequals : '=' ∉ cookie.name.toList) {read : SetCookie} (h : ofText? cookie.text = some read) :
    read.name = cookie.name := by
  have hfront : ';' ∉ cookie.name.toList ++ ['='] := by
    rw [List.mem_append, List.mem_singleton]
    rintro (h | h)
    · exact hname h
    · cases h
  obtain ⟨piece, more, -, hpieces⟩ := exists_pieces_append hfront
    (cookie.value.toList ++ cookie.attributes.flatMap fun a => ("; " ++ a.text).toList)
  have hcut : cut? '=' (cookie.name.toList ++ ['='] ++ piece) = some (cookie.name.toList, piece) :=
    cut?_eq_some_iff.2 ⟨by simp, hequals⟩
  have htext : cookie.text.toList = cookie.name.toList ++ ['='] ++
      (cookie.value.toList ++ cookie.attributes.flatMap fun a => ("; " ++ a.text).toList) := by
    rw [Cookie.toList_text]
    simp
  rw [ofText?, htext, hpieces] at h
  simp only [hcut, Option.map_some, String.ofList_toList] at h
  cases h
  rfl

end SetCookie

end DoubleSubmit
