import DoubleSubmit.Handle
import DoubleSubmit.Proofs.Cookie.SetCookie
import DoubleSubmit.Proofs.HttpDate
import DoubleSubmit.Proofs.Settings

/-! What the text of the token cookie says. A client that reads it finds the name, the value and the
attributes that were called for, each once and none beside them; the text that removes the cookie
says the same, but for its value and its end (`Policy.CookieSays`,
`Setup.cookie_text_says_calls`). -/

namespace DoubleSubmit

/-! ## The attributes of the token cookie -/

theorem Attribute.head?_text_of_isExpiry {a : Attribute} (h : a.isExpiry) :
    a.text.toList.head? = some 'E' ∨ a.text.toList.head? = some 'M' := by
  cases a with
  | expires | expiredLastYear => simp [text]
  | maxAgeZero => simp [text]
  | _ => cases h

/-- An attribute that tells of the end of a cookie is not read as one that does not. -/
theorem Attribute.text_ne_of_isExpiry {a b : Attribute} (ha : a.isExpiry = false)
    (hb : b.isExpiry) : a.text ≠ b.text := by
  intro h
  have hhead := head?_text_of_isExpiry hb
  rw [← h] at hhead
  cases a with
  | expires | expiredLastYear | maxAgeZero => cases ha
  | _ => simp [text] at hhead

theorem Attribute.not_domain (a : Attribute) : ¬"Domain".toList <+: a.text.toList := by
  rintro ⟨rest, h⟩
  have hhead := congrArg List.head? h
  cases a <;> simp [text] at hhead

namespace Policy

/-- The texts of the attributes that a policy asks for, in whatever text tells of its token
cookie. -/
inductive Asks (policy : Policy) : String → Prop
  | httpOnly (h : policy.httpOnly) : Asks policy "HttpOnly"
  | strict (h : policy.sameSite = .strict) : Asks policy "SameSite=Strict"
  | lax (h : policy.sameSite = .lax) : Asks policy "SameSite=Lax"
  | none (h : policy.sameSite = .none) : Asks policy "SameSite=None"
  | secure (h : policy.secure) : Asks policy "Secure"
  | rootPath : Asks policy "Path=/"

/-- The attributes of the token cookie that do not tell of its end. -/
def lastingAttributes (policy : Policy) : List Attribute :=
  (if policy.httpOnly then [.httpOnly] else []) ++ [.sameSite policy.sameSite] ++
    (if policy.secure then [.secure] else []) ++ [.rootPath]

variable {policy : Policy}

theorem mem_lasting_iff {a : Attribute} : a ∈ policy.lastingAttributes ↔
    a = .httpOnly ∧ policy.httpOnly ∨ a = .sameSite policy.sameSite ∨
      a = .secure ∧ policy.secure ∨ a = .rootPath := by
  simp only [lastingAttributes, List.mem_append, List.mem_ite_nil_right, List.mem_singleton,
    or_assoc, and_comm]

theorem isExpiry_of_mem_lasting {a : Attribute} (h : a ∈ policy.lastingAttributes) :
    a.isExpiry = false := by
  rcases mem_lasting_iff.1 h with ⟨rfl, -⟩ | rfl | ⟨rfl, -⟩ | rfl <;> rfl

theorem nodup_lasting : (policy.lastingAttributes.map Attribute.text).Nodup := by
  unfold lastingAttributes
  cases policy.httpOnly <;> cases policy.secure <;> cases policy.sameSite <;> decide

theorem mem_text_lasting_iff {text : String} :
    text ∈ policy.lastingAttributes.map Attribute.text ↔ policy.Asks text := by
  rw [List.mem_map]
  constructor
  · rintro ⟨a, ha, rfl⟩
    rcases mem_lasting_iff.1 ha with ⟨rfl, h⟩ | rfl | ⟨rfl, h⟩ | rfl
    · exact .httpOnly h
    · cases h : policy.sameSite with
      | strict => exact .strict h
      | lax => exact .lax h
      | none => exact .none h
    · exact .secure h
    · exact .rootPath
  · intro h
    cases h with
    | httpOnly h => exact ⟨.httpOnly, mem_lasting_iff.2 (.inl ⟨rfl, h⟩), rfl⟩
    | strict h | lax h | none h =>
      exact ⟨.sameSite policy.sameSite, mem_lasting_iff.2 (.inr (.inl rfl)), by rw [h]; rfl⟩
    | secure h => exact ⟨.secure, mem_lasting_iff.2 (.inr (.inr (.inl ⟨rfl, h⟩))), rfl⟩
    | rootPath => exact ⟨.rootPath, mem_lasting_iff.2 (.inr (.inr (.inr rfl))), rfl⟩

theorem attributes_cookie (value : String) : (policy.cookie value).attributes =
    policy.lastingAttributes ++ policy.expires.toList.map .expires := rfl

theorem attributes_removal (value : String) : (policy.cookie value).removal.attributes =
    policy.lastingAttributes ++ [.maxAgeZero, .expiredLastYear] := by
  have hkept : policy.lastingAttributes.filter (!·.isExpiry) = policy.lastingAttributes :=
    List.filter_eq_self.2 fun a ha => by rw [isExpiry_of_mem_lasting ha]; rfl
  have hdropped : (policy.expires.toList.map Attribute.expires).filter (!·.isExpiry) = [] := by
    rw [List.filter_eq_nil_iff]
    intro a ha
    obtain ⟨instant, -, rfl⟩ := List.mem_map.1 ha
    exact Bool.false_ne_true
  rw [Cookie.removal, attributes_cookie, List.filter_append, hkept, hdropped, List.append_nil]

end Policy

/-! ## The text of the token cookie -/

/-- What a client reads of a token cookie: its name, a value, and, each once, the attributes that
the policy asks for, with those that tell of the end. -/
structure SetCookie.Tells (policy : Policy) (value : String) (ends : String → Prop)
    (read : SetCookie) : Prop where
  name : read.name = policy.tokenCookieName
  value : read.value = value
  nodup : read.attributes.Nodup
  mem_attributes_iff : ∀ text, text ∈ read.attributes ↔ policy.Asks text ∨ ends text
  no_domain : ∀ text ∈ read.attributes, ¬"Domain".toList <+: text.toList

namespace Policy

variable {policy : Policy}

/-- What a client reads of a cookie with the name of the token cookie and its lasting attributes. -/
theorem exists_tells {cookie : Cookie} {ends : List Attribute} {endTexts : String → Prop}
    (hname : cookie.name = policy.tokenCookieName)
    (hattributes : cookie.attributes = policy.lastingAttributes ++ ends)
    (hends : ∀ a ∈ ends, a.isExpiry) (hnodup : (ends.map Attribute.text).Nodup)
    (htexts : ∀ text, text ∈ ends.map Attribute.text ↔ endTexts text)
    (hsemicolon : ';' ∉ policy.tokenCookieName.toList)
    (hequals : '=' ∉ policy.tokenCookieName.toList) (hvalue : ';' ∉ cookie.value.toList) :
    ∃ read, SetCookie.ofText? cookie.text = some read ∧
      read.Tells policy cookie.value endTexts := by
  rw [← hname] at hsemicolon hequals
  refine ⟨_, SetCookie.ofText?_text hsemicolon hequals hvalue, hname, rfl, ?_, ?_, ?_⟩
  · rw [hattributes, List.map_append]
    refine List.nodup_append.2 ⟨nodup_lasting, hnodup, ?_⟩
    intro text hlasting other hend
    obtain ⟨a, ha, rfl⟩ := List.mem_map.1 hlasting
    obtain ⟨b, hb, rfl⟩ := List.mem_map.1 hend
    exact Attribute.text_ne_of_isExpiry (isExpiry_of_mem_lasting ha) (hends b hb)
  · intro text
    rw [hattributes, List.map_append, List.mem_append, mem_text_lasting_iff, htexts]
  · intro text htext
    obtain ⟨a, -, rfl⟩ := List.mem_map.1 htext
    exact a.not_domain

theorem exists_tells_cookie (hsemicolon : ';' ∉ policy.tokenCookieName.toList)
    (hequals : '=' ∉ policy.tokenCookieName.toList) {value : String}
    (hvalue : ';' ∉ value.toList) :
    ∃ read, SetCookie.ofText? (policy.cookie value).text = some read ∧
      read.Tells policy value fun text =>
        ∃ instant, policy.expires = some instant ∧ text = "Expires=" ++ instant.httpText := by
  refine exists_tells rfl (attributes_cookie value) ?_ ?_ ?_ hsemicolon hequals hvalue
  · intro a ha
    obtain ⟨instant, -, rfl⟩ := List.mem_map.1 ha
    rfl
  · cases policy.expires <;> simp
  · intro text
    simp only [List.map_map, List.mem_map, Option.mem_toList, Function.comp_apply,
      Attribute.text, eq_comm]

theorem exists_tells_removal (hsemicolon : ';' ∉ policy.tokenCookieName.toList)
    (hequals : '=' ∉ policy.tokenCookieName.toList) (value : String) :
    ∃ read, SetCookie.ofText? (policy.cookie value).removal.text = some read ∧
      read.Tells policy "" fun text =>
        text = "Max-Age=0" ∨ text = "Expires=" ++ Attribute.lastYearMark := by
  refine exists_tells rfl (attributes_removal value) (by decide) (by decide) ?_ hsemicolon hequals
    (by simp [Cookie.removal])
  intro text
  simp only [List.map_cons, List.map_nil, List.mem_cons, List.not_mem_nil, or_false, Attribute.text]

/-- What is said of the token cookie of a policy. Its name is marked exactly if marking and secure
cookies are both in force. The text that sets it tells exactly of the settings, with a date that
says the chosen instant; and the text that removes it, which a reset sends, says the same, but for
its value and its end. -/
structure CookieSays (policy : Policy) (value : String) : Prop where
  name_eq : policy.tokenCookieName =
    if policy.hostPrefix ∧ policy.secure then "__Host-" ++ policy.cookieName else policy.cookieName
  date : ∀ unix offset instant, Calendar.Instant.ofUnix? unix offset = some instant →
    policy.expires = some instant → Calendar.firstUnix ≤ unix →
      Calendar.readHttp? instant.httpText = some unix
  issued : ';' ∉ policy.tokenCookieName.toList → '=' ∉ policy.tokenCookieName.toList →
    ';' ∉ value.toList → ∃ read, SetCookie.ofText? (policy.cookie value).text = some read ∧
      read.Tells policy value fun text =>
        ∃ instant, policy.expires = some instant ∧ text = "Expires=" ++ instant.httpText
  removed : ';' ∉ policy.tokenCookieName.toList → '=' ∉ policy.tokenCookieName.toList →
    ∃ read, SetCookie.ofText? (policy.cookie value).removal.text = some read ∧
      read.Tells policy "" fun text =>
        text = "Max-Age=0" ∨ text = "Expires=" ++ Attribute.lastYearMark
  reset : ∀ (handle : Handle) (jar : Jar), handle.policy = policy →
    (jar.received? policy.tokenCookieName).isSome →
      ((handle.reset jar).change? policy.tokenCookieName).map (·.sent) =
        some (policy.cookie value).removal

theorem cookieSays (policy : Policy) (value : String) : policy.CookieSays value where
  name_eq := by simp only [tokenCookieName, hostMark, Bool.and_eq_true]
  date := by
    intro unix offset instant hinstant _ hfirst
    obtain rfl := Calendar.Instant.unix_eq_of_ofUnix? hinstant
    exact Calendar.readHttp?_httpText hfirst
  issued := fun hsemicolon hequals => exists_tells_cookie hsemicolon hequals
  removed := fun hsemicolon hequals => exists_tells_removal hsemicolon hequals value
  reset := by
    rintro handle jar rfl hreceived
    exact congrArg (Option.map CookieChange.sent) (Jar.change?_remove_self hreceived)

end Policy

/-- A setup has the setting of the last call of each kind, and the standard one where there is no
call, so calls of different settings may change places; and what is said of its token cookie says
exactly these settings. -/
theorem Setup.cookie_text_says_calls (key : List UInt8) (calls : List Call) (value : String) :
    (made key calls).Follows key calls ∧ (made key calls).policy.CookieSays value :=
  ⟨made_follows key calls, Policy.cookieSays (made key calls).policy value⟩

namespace Sample

/-- Noon of the last day of February 2024. -/
def leapDay : Calendar.Instant := ⟨1709208000, by decide⟩

/-- The cookie is made secure after all, and the sessions are those of a header. -/
def calls : List Setup.Call :=
  [.choose (.secure false), .choose (.cookieName "t"), .choose (.expires (some leapDay)),
    .findWith (.header "s"), .choose (.secure true)]

def calledSetup : Setup := .made [0x6b] calls

end Sample

namespace Setup

/-- The cookie that the sample calls make is marked and ends on the leap day, in whatever zone this
was written, and making it secure earlier is the same. Its removal is marked too, and a reset sends
it. Sessions are found as was called for last, and in requests themselves if nothing was. -/
theorem leap_day_cookie_read :
    made [0x6b] [.choose (.secure false), .choose (.cookieName "t"),
        .choose (.expires (some Sample.leapDay)), .choose (.secure true),
        .findWith (.header "s")] = Sample.calledSetup ∧
      Sample.calledSetup.provider = .header "s" ∧ (made [0x6b] []).provider = .attached ∧
      (∃ read, SetCookie.ofText? (Sample.calledSetup.policy.cookie "v").text = some read ∧
        read.name = "__Host-t" ∧ read.value = "v" ∧ "HttpOnly" ∈ read.attributes ∧
        "Expires=" ++ Sample.leapDay.httpText ∈ read.attributes) ∧
      Calendar.Instant.ofUnix? 1709208000 (-3600) = some Sample.leapDay ∧
      Calendar.readHttp? Sample.leapDay.httpText = some 1709208000 ∧
      (∃ read, SetCookie.ofText? (Sample.calledSetup.policy.cookie "v").removal.text = some read ∧
        read.name = "__Host-t" ∧ read.value = "" ∧ "Max-Age=0" ∈ read.attributes) ∧
      ((Handle.reset ⟨Sample.calledSetup.policy, .counting, "alice", some "v"⟩
        (Jar.ofReceived [("__Host-t", "v")])).change? "__Host-t").map (·.sent) =
          some (Sample.calledSetup.policy.cookie "v").removal := by
  obtain ⟨hfollows, hsays⟩ := cookie_text_says_calls [0x6b] Sample.calls "v"
  obtain ⟨issued, hread, htells⟩ :=
    hsays.issued (by decide +kernel) (by decide +kernel) (by decide)
  obtain ⟨removed, hremoved, htold⟩ := hsays.removed (by decide +kernel) (by decide +kernel)
  refine ⟨?_, hfollows.get_eq .provider,
    (cookie_text_says_calls [0x6b] [] "v").1.get_eq .provider, ?_, rfl, ?_, ?_, ?_⟩
  · exact hfollows.swap_eq [.choose (.secure false), .choose (.cookieName "t"),
      .choose (.expires (some Sample.leapDay))] (.findWith (.header "s")) (.choose (.secure true))
      [] rfl (by decide)
  · exact ⟨issued, hread, htells.name.trans hsays.name_eq, htells.value,
      (htells.mem_attributes_iff _).2 (.inl (.httpOnly rfl)),
      (htells.mem_attributes_iff _).2 (.inr ⟨Sample.leapDay, rfl, rfl⟩)⟩
  · exact hsays.date 1709208000 (-3600) Sample.leapDay rfl rfl (by decide)
  · exact ⟨removed, hremoved, htold.name.trans hsays.name_eq, htold.value,
      (htold.mem_attributes_iff _).2 (.inr (.inl rfl))⟩
  · exact hsays.reset ⟨Sample.calledSetup.policy, .counting, "alice", some "v"⟩
      (Jar.ofReceived [("__Host-t", "v")]) rfl (by decide +kernel)

end Setup

end DoubleSubmit
