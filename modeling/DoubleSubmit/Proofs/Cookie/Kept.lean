import DoubleSubmit.Proofs.Cookie.Sent
import DoubleSubmit.Proofs.Cookie.SetCookie

/-! Cookies as a client keeps them. A client reads the texts of an answer one after the other and
keeps one name; what it holds afterwards is what the jar says of the name
(`Client.readAll_setCookies`), as long as the changes of the jar can be read. -/

namespace DoubleSubmit

namespace Client

/-- What a client holds under a name when it has read a text: a cookie of the name takes the place
of what it held, or removes it when it may last no time. No other attribute counts. -/
def read (name : String) (held : Option String) (text : String) : Option String :=
  match SetCookie.ofText? text with
  | none => held
  | some cookie =>
    if cookie.name = name then
      if "Max-Age=0" ∈ cookie.attributes then none else some cookie.value
    else held

def readAll (name : String) (held : Option String) (texts : List String) : Option String :=
  texts.foldl (read name) held

end Client

theorem Cookie.canCarry_text {cookie : Cookie}
    (hname : ∀ c ∈ cookie.name.toList, Http.isFieldChar c)
    (hvalue : ∀ c ∈ cookie.value.toList, Http.isFieldChar c) :
    Http.HeaderValue.canCarry cookie.text := by
  rw [Http.HeaderValue.canCarry_iff, toList_text]
  intro c hc
  rw [List.mem_append, List.mem_append, List.mem_cons, List.mem_flatMap] at hc
  obtain (hc | rfl | hc) | ⟨a, -, hc⟩ := hc
  · exact hname c hc
  · decide
  · exact hvalue c hc
  · rw [String.toList_append, List.mem_append] at hc
    rcases hc with hc | hc
    · have hall : "; ".toList.all Http.isFieldChar := by decide
      exact List.all_eq_true.1 hall c hc
    · exact (Attribute.isTextChar_spec (a.written_text c hc)).2

namespace CookieChange

/-- A client that keeps a name can read a change: the change's own name has no separators, and if it
is the name kept, the text is sent and says no more of the value than that it is set. -/
structure Legible (name : String) (change : CookieChange) : Prop where
  no_semicolon : ';' ∉ change.name.toList
  no_equals : '=' ∉ change.name.toList
  carried : change.name = name → Http.HeaderValue.canCarry change.sent.text
  value : ∀ cookie, change = .set cookie → cookie.name = name →
    ';' ∉ cookie.value.toList ∧ .maxAgeZero ∉ cookie.attributes

variable {name : String} {change : CookieChange} {held : Option String}

theorem Legible.read_of_ne (h : Legible name change) (hne : change.name ≠ name) :
    Client.read name held change.sent.text = held := by
  have hsent := change.name_sent
  rw [Client.read]
  cases hread : SetCookie.ofText? change.sent.text with
  | none => rfl
  | some cookie =>
    have hcookie : cookie.name = change.sent.name :=
      SetCookie.name_of_ofText?_text (hsent ▸ h.no_semicolon) (hsent ▸ h.no_equals) hread
    rw [hsent] at hcookie
    simp only [hcookie, hne, if_false]

theorem Legible.read_of_eq (h : Legible name change) (heq : change.name = name) :
    Client.read name held change.sent.text = change.value? := by
  cases change with
  | set cookie =>
    obtain ⟨hvalue, hage⟩ := h.value cookie rfl heq
    have hmem : "Max-Age=0" ∉ cookie.attributes.map Attribute.text := by
      intro hmem
      obtain ⟨a, ha, htext⟩ := List.mem_map.1 hmem
      rw [Attribute.text_eq_maxAgeZero_iff.1 htext] at ha
      exact hage ha
    have hname : cookie.name = name := heq
    rw [Client.read, sent, SetCookie.ofText?_text h.no_semicolon h.no_equals hvalue]
    simp only [hname, if_true, hmem, if_false, value?]
  | remove cookie =>
    have hmem : "Max-Age=0" ∈ cookie.removal.attributes.map Attribute.text :=
      List.mem_map.2 ⟨.maxAgeZero, by simp [Cookie.removal], rfl⟩
    have hname : cookie.removal.name = name := heq
    have hread : SetCookie.ofText? cookie.removal.text = some ⟨cookie.removal.name,
        cookie.removal.value, cookie.removal.attributes.map Attribute.text⟩ :=
      SetCookie.ofText?_text h.no_semicolon h.no_equals (by simp [Cookie.removal])
    rw [Client.read, sent, hread]
    simp only [hname, if_true, hmem, value?]

end CookieChange

namespace Client

open CookieChange

variable {name : String} {held : Option String} {changes : List CookieChange}

theorem readAll_of_ne (h : ∀ change ∈ changes, Legible name change)
    (hne : ∀ change ∈ changes, change.name ≠ name) :
    readAll name held ((changes.map (·.sent.text)).filter Http.HeaderValue.canCarry) = held := by
  induction changes with
  | nil => rfl
  | cons change changes ih =>
    have hrest := ih (fun c hc => h c (List.mem_cons_of_mem _ hc))
      fun c hc => hne c (List.mem_cons_of_mem _ hc)
    rw [List.map_cons, List.filter_cons]
    split
    · rw [readAll, List.foldl_cons, (h change List.mem_cons_self).read_of_ne
        (hne change List.mem_cons_self)]
      exact hrest
    · exact hrest

/-- At most one of the changes is of the name, and the client follows it. -/
theorem readAll_changes (h : ∀ change ∈ changes, Legible name change)
    (hdistinct : NamesDistinct CookieChange.name changes) :
    readAll name held ((changes.map (·.sent.text)).filter Http.HeaderValue.canCarry) =
      match changes.find? (·.name == name) with
      | some change => change.value?
      | none => held := by
  induction changes generalizing held with
  | nil => rfl
  | cons change changes ih =>
    have hchange := h change List.mem_cons_self
    have hrest := fun c hc => h c (List.mem_cons_of_mem change hc)
    obtain ⟨hnames, hdistinct⟩ := List.pairwise_cons.1 hdistinct
    rw [List.map_cons, List.filter_cons, List.find?_cons]
    by_cases hname : change.name = name
    · subst hname
      rw [if_pos (hchange.carried rfl), readAll, List.foldl_cons, hchange.read_of_eq rfl]
      simp only [beq_self_eq_true]
      exact readAll_of_ne hrest fun c hc => Ne.symm (hnames c hc)
    · have hb : (change.name == name) = false := by simpa using hname
      simp only [hb]
      split
      · rw [readAll, List.foldl_cons, hchange.read_of_ne hname]
        exact ih hrest hdistinct
      · exact ih hrest hdistinct

/-- A client that sent a cookie holds in the end what the jar says of it. -/
theorem readAll_setCookies {jar : Jar} (h : ∀ change ∈ jar.changes, Legible name change) :
    readAll name (jar.received? name) jar.setCookies = jar.get? name := by
  exact readAll_changes h jar.changes_distinct

end Client

end DoubleSubmit
