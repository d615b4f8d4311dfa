import DoubleSubmit.Proofs.Holding

/-! Which token a client is supplied with. The layer looks at the received token only: it issues a
token for a request that needs one (`Protection.NeedsToken`) and leaves the cookies of any other
alone, before the guard decides. What the jar then says of the token cookie stays as it is while a
handler leaves this cookie alone, so the answer tells the client of an issued token exactly once,
refused or not, and of a kept one not at all
(`Protection.supplies_exactly_when_needed`). -/

namespace DoubleSubmit

open Text

/-! ## What a jar tells of some cookies -/

/-- The member of a name, where no other has it. -/
theorem NamesDistinct.filter_eq_toList_find? {α : Type} {name : α → String} {xs : List α}
    (h : NamesDistinct name xs) (n : String) :
    xs.filter (name · == n) = (xs.find? (name · == n)).toList := by
  induction xs with
  | nil => rfl
  | cons x xs ih =>
    obtain ⟨hx, hxs⟩ := List.pairwise_cons.1 h
    rw [List.filter_cons, List.find?_cons]
    by_cases hn : name x = n
    · have hrest : xs.filter (name · == n) = [] := by
        rw [List.filter_eq_nil_iff]
        intro y hy hname
        exact hx y hy (hn.trans (beq_iff_eq.1 hname).symm)
      simp [hn, hrest]
    · have hb : (name x == n) = false := by simpa using hn
      simpa [hb] using ih hxs

namespace Jar

/-- The texts that tell the client of the changes to the cookies with some names. -/
def setCookiesOf (jar : Jar) (names : String → Bool) : List String :=
  ((jar.changes.filter fun change => names change.name).map (·.sent.text)).filter
    Http.HeaderValue.canCarry

theorem setCookies_perm (jar : Jar) (names : String → Bool) :
    jar.setCookies.Perm (jar.setCookiesOf names ++ jar.setCookiesOf (!names ·)) := by
  rw [setCookies, setCookiesOf, setCookiesOf, ← List.filter_append, ← List.map_append]
  exact ((List.filter_append_perm (names ·.name) jar.changes).symm.map _).filter _

theorem setCookiesOf_name (jar : Jar) (name : String) : jar.setCookiesOf (· == name) =
    ((jar.change? name).toList.map (·.sent.text)).filter Http.HeaderValue.canCarry := by
  rw [setCookiesOf, jar.changes_distinct.filter_eq_toList_find?]
  rfl

end Jar

/-! ## Handlers that leave a cookie alone -/

/-- A step that does not fail and changes no cookie of this name in the jar: the handle is not asked
for it, and the application adds and removes other cookies only. -/
def Step.Leaves (name : String) : Step → Prop
  | set _ | reset | fail _ => False
  | cookieAdd other _ | cookieRemove other => other ≠ name
  | get | verify _ | extract | cookieList | status _ | setCookieHeader _ => True

section

variable {name : String} (handle : Option Handle)

theorem Step.change?_act {step : Step} (h : step.Leaves name) (desk : Desk) :
    (step.act handle desk).exchange.jar.change? name = desk.exchange.jar.change? name := by
  cases step with
  | set | reset | fail => exact h.elim
  | cookieAdd other value =>
    exact (Jar.change?_record (.set (.plain other value)) name).trans (if_neg h)
  | cookieRemove other => exact Jar.change?_remove_of_ne h
  | setCookieHeader value => rw [exchange_act_setCookieHeader]
  | _ => rfl

theorem Step.received?_act (step : Step) (desk : Desk) :
    (step.act handle desk).exchange.jar.received? name = desk.exchange.jar.received? name := by
  cases step with
  | set session => cases handle <;> rfl
  | reset =>
    cases handle with
    | none => rfl
    | some handle => exact Jar.received?_remove _ name
  | cookieRemove other => exact Jar.received?_remove _ name
  | setCookieHeader value => rw [exchange_act_setCookieHeader]
  | _ => rfl

theorem Step.failure?_of_leaves {step : Step} (h : step.Leaves name) : step.failure? = none := by
  cases step with
  | fail => exact h.elim
  | _ => rfl

namespace Handler

theorem change?_finish {steps : List Step} (h : ∀ step ∈ steps, step.Leaves name) (desk : Desk) :
    (finish handle desk steps).exchange.jar.change? name = desk.exchange.jar.change? name :=
  finish_eq_of_act (·.exchange.jar.change? name)
    (fun step hstep => Step.change?_act handle (h step hstep)) desk

theorem received?_finish (steps : List Step) (desk : Desk) :
    (finish handle desk steps).exchange.jar.received? name = desk.exchange.jar.received? name :=
  finish_eq_of_act (·.exchange.jar.received? name) (fun step _ => step.received?_act handle) desk

end Handler

end

theorem Policy.canCarry_text_of_carried {policy : Policy} {value text : String}
    (h : Http.HeaderValue.canCarry (policy.cookie value).text) (htext : Token.Plain text) :
    Http.HeaderValue.canCarry (policy.cookie text).text := by
  refine Cookie.canCarry_text (fun c hc => ?_) fun c hc => (Token.plainChar (htext c hc)).field
  refine Http.HeaderValue.canCarry_iff.1 h c ?_
  rw [Cookie.toList_text]
  exact List.mem_append_left _ (List.mem_append_left _ hc)

theorem Handle.current_of_get? {handle : Handle} {jar : Jar} {text : String}
    (h : jar.get? handle.policy.tokenCookieName = some text) : handle.current jar = .ok text := by
  rw [current, h]

namespace Protection

variable {p : Protection} {request : Http.Request} {application : Application} {mint : Mint}

/-! ## What the layer does -/

/-- A request needs a token: it carries none in the token cookie, or one that is not accepted for
its session. -/
def NeedsToken (p : Protection) (request : Http.Request) : Prop :=
  ∀ text, Cookie.Gives request p.policy.tokenCookieName text →
    Verdict.judge p.policy.secret text (p.provider.session request) ≠ .accepted

theorem isStale_iff_needsToken : (p.handle request).isStale ↔ p.NeedsToken request := by
  rw [← Bool.not_eq_false, Handle.isStale_eq_false_iff]
  constructor
  · intro h text hgives haccepted
    exact h ⟨text, Jar.get?_ofRequest_iff.2 hgives, Verdict.accepts_iff.2 haccepted⟩
  · rintro h ⟨text, hreceived, haccepts⟩
    exact h text (Jar.get?_ofRequest_iff.1 hreceived) (Verdict.accepts_iff.1 haccepts)

/-- What the layer supplies a request with: the exchange that it leaves, the texts that will tell
the client of its token, and the token that the client then holds. A request that needs a token is
issued one for its session, in the token cookie with its attributes; any other keeps the one that it
brought. -/
inductive Supplies (p : Protection) (request : Http.Request) (mint : Mint) :
    Exchange → List String → String → Prop
  | issued {token : Token} (hneeds : p.NeedsToken request)
    (htoken : token = mint.next p.policy.issuer p.entropy (p.provider.session request)) :
    Supplies p request mint ⟨(Jar.ofRequest request).add (p.policy.cookie token.text),
        mint.issue p.policy.issuer p.entropy (p.provider.session request)⟩
      [(p.policy.cookie token.text).text] token.text
  | kept {text : String} (hgives : Cookie.Gives request p.policy.tokenCookieName text)
    (haccepted : Verdict.judge p.policy.secret text (p.provider.session request) = .accepted) :
    Supplies p request mint ⟨Jar.ofRequest request, mint⟩ [] text

theorem exists_supplies (p : Protection) (request : Http.Request) (mint : Mint) :
    ∃ told held, p.Supplies request mint (p.exchangeFor request mint) told held := by
  cases hstale : (p.handle request).isStale with
  | true =>
    rw [exchangeFor_of_isStale hstale]
    exact ⟨_, _, .issued (isStale_iff_needsToken.1 hstale) rfl⟩
  | false =>
    obtain ⟨text, hreceived, haccepts⟩ := Handle.isStale_eq_false_iff.1 hstale
    rw [exchangeFor_of_not_isStale hstale]
    exact ⟨_, text, .kept (Jar.get?_ofRequest_iff.1 hreceived) (Verdict.accepts_iff.1 haccepts)⟩

namespace Supplies

variable {exchange : Exchange} {told : List String} {held : String}
  (h : p.Supplies request mint exchange told held)

include h

theorem issues_ne_iff : exchange.mint.issues ≠ mint.issues ↔ p.NeedsToken request := by
  cases h with
  | issued hneeds =>
    refine iff_of_true (fun heq => ?_) hneeds
    have hlength := congrArg List.length heq
    simp at hlength
  | kept hgives haccepted =>
    exact iff_of_false (fun hne => hne rfl) fun hneeds => hneeds _ hgives haccepted

theorem setCookiesOf_eq {value : String}
    (hcarried : Http.HeaderValue.canCarry (p.policy.cookie value).text) :
    exchange.jar.setCookiesOf (· == p.policy.tokenCookieName) = told := by
  rw [Jar.setCookiesOf_name]
  cases h with
  | @issued token hneeds htoken =>
    have hplain : Token.Plain token.text := htoken ▸ mint.plain_next p.entropy _
    have hchange : ((Jar.ofRequest request).add (p.policy.cookie token.text)).change?
        p.policy.tokenCookieName = some (.set (p.policy.cookie token.text)) :=
      Jar.change?_add_self _ _
    simp only [hchange]
    exact List.filter_cons_of_pos (Policy.canCarry_text_of_carried hcarried hplain)
  | kept => rfl

theorem get?_eq : exchange.jar.get? p.policy.tokenCookieName = some held := by
  cases h with
  | issued => exact (Jar.get?_add _ _).trans (if_pos rfl)
  | kept hgives => exact Jar.get?_ofRequest_iff.2 hgives

theorem accepted {key : Secret} (hkey : p.policy.secret = some key) :
    Verdict.judge (some key) held (p.provider.session request) = .accepted := by
  cases h with
  | issued hneeds htoken =>
    rw [htoken]
    exact Verdict.accepts_iff.1 (mint.accepts_next _ _ hkey)
  | kept hgives haccepted => exact hkey ▸ haccepted

/-- A client whose cookie was received as it is holds what the layer supplied, when it has read what
it is told. -/
theorem readAll_told (hsemicolon : ';' ∉ p.policy.tokenCookieName.toList)
    (hequals : '=' ∉ p.policy.tokenCookieName.toList) {value : String}
    (hcarried : Http.HeaderValue.canCarry (p.policy.cookie value).text) {before : Option String}
    (hbefore : before.bind Percent.decode? = (p.handle request).received) :
    (Client.readAll p.policy.tokenCookieName before told).bind Percent.decode? = some held := by
  cases h with
  | @issued token hneeds htoken =>
    have hplain : Token.Plain token.text := htoken ▸ mint.plain_next p.entropy _
    have hlegible := CookieChange.legible_set_token hsemicolon hequals hplain
      (Policy.canCarry_text_of_carried hcarried hplain)
    refine Eq.trans (congrArg (Option.bind · Percent.decode?) (hlegible.read_of_eq rfl)) ?_
    exact Percent.decode?_of_not_hasEscape hplain.not_hasEscape
  | kept hgives => exact hbefore.trans (Jar.get?_ofRequest_iff.2 hgives)

end Supplies

/-- The layer looks at the cookies and the session of a request and at nothing else of it, and the
settings of the guard do not matter to it. -/
theorem exchangeFor_congr {other : Http.Request}
    (hcookies : Cookie.ofRequest other = Cookie.ofRequest request)
    (hsession : p.provider.session other = p.provider.session request) (headerName : String)
    (exempt : Option Exemption) (mint : Mint) :
    exchangeFor { p with policy := { p.policy with headerName, exempt } } other mint =
      p.exchangeFor request mint := by
  have hjar : Jar.ofRequest other = Jar.ofRequest request := congrArg Jar.ofReceived hcookies
  unfold exchangeFor handle
  rw [hjar, hsession]
  rfl

/-! ## What the answer says of it -/

/-- The texts with which the handler of an answer set cookies itself, if it ran. -/
def ownSetCookies (answer : Answer) (application : Application) : List String :=
  if answer.reached then application.steps.filterMap Step.setCookie? else []

theorem exists_response_of_leaves (hready : application.readyError = none)
    (hleaves : (p.serve request application mint).1.reached →
      ∀ step ∈ application.steps, step.Leaves p.policy.tokenCookieName) :
    ∃ response, (p.serve request application mint).1 = .responded response ∧
      (response.transcript = none → response.status = 403) ∧
      response.setCookies = ownSetCookies (.responded response) application ++
        (p.exchangeAfter request application.steps mint).jar.setCookies ∧
      ((p.exchangeAfter request application.steps mint).jar.change? p.policy.tokenCookieName =
        (p.exchangeFor request mint).jar.change? p.policy.tokenCookieName) := by
  rw [serve_of_ready hready] at hleaves ⊢
  by_cases hpass : Guard.decision (some (p.handle request)) request = .pass
  · have hsteps := hleaves (reached_serveReady_iff.2 hpass)
    have hfailure : (p.finished request application.steps mint).failure = none :=
      Handler.failure_finish_eq_self (fun step hstep => Step.failure?_of_leaves (hsteps step hstep))
        _ _
    have hheaders : (p.finished request application.steps mint).headers =
        application.steps.filterMap Step.setCookie? :=
      Handler.headers_finish _ (p.desk request mint) _
    rw [exchangeAfter_of_pass hpass, serveReady_of_no_failure hpass hfailure, hheaders]
    refine ⟨_, rfl, ?_, rfl, Handler.change?_finish _ hsteps _⟩
    intro hnone
    cases hnone
  · rw [exchangeAfter_of_not_pass hpass, serveReady_of_not_pass hpass]
    exact ⟨_, rfl, fun _ => rfl, rfl, rfl⟩

theorem received?_exchangeAfter (p : Protection) (request : Http.Request) (steps : List Step)
    (mint : Mint) (name : String) : (p.exchangeAfter request steps mint).jar.received? name =
      (p.exchangeFor request mint).jar.received? name := by
  by_cases hpass : Guard.decision (some (p.handle request)) request = .pass
  · rw [exchangeAfter_of_pass hpass]
    exact Handler.received?_finish _ steps _
  · rw [exchangeAfter_of_not_pass hpass]

/-- What the layer has issued stays issued. -/
theorem issues_exchangeFor_prefix (hready : application.readyError = none) :
    (p.exchangeFor request mint).mint.issues <+: (p.serve request application mint).2.issues := by
  rw [serve_of_ready hready, mint_serveReady, mint_exchangeFor, issuedFor, Mint.issueAll_append]
  exact Mint.issues_prefix_issueAll _ _ _ _

theorem serve_of_failure (hready : application.readyError = none)
    (hreached : (p.serve request application mint).1.reached) {message : String}
    (hmessage : (application.steps.filterMap Step.failure?).getLast? = some message) :
    ∃ transcript, (p.serve request application mint).1 = .failed message transcript := by
  rw [serve_of_ready hready] at hreached ⊢
  have hfailure : (p.finished request application.steps mint).failure = some message := by
    rw [finished, Handler.failure_finish, hmessage]
    rfl
  rw [serveReady_of_failure (reached_serveReady_iff.1 hreached) hfailure]
  exact ⟨_, rfl⟩

/-- What a request is supplied with, and what its answer says of it. -/
structure Supplied (p : Protection) (request : Http.Request) (application : Application)
    (mint : Mint) (told : List String) (held : String) : Prop where
  supplies : p.Supplies request mint (p.exchangeFor request mint) told held
  issues_ne_iff : (p.exchangeFor request mint).mint.issues ≠ mint.issues ↔ p.NeedsToken request
  issues_prefix : (p.exchangeFor request mint).mint.issues <+:
    (p.serve request application mint).2.issues
  exchange_congr : ∀ other headerName exempt, Cookie.ofRequest other = Cookie.ofRequest request →
    p.provider.session other = p.provider.session request →
      exchangeFor { p with policy := { p.policy with headerName, exempt } } other mint =
        p.exchangeFor request mint
  answered : ((p.serve request application mint).1.reached →
      ∀ step ∈ application.steps, step.Leaves p.policy.tokenCookieName) →
    ∃ response, (p.serve request application mint).1 = .responded response ∧
      (response.transcript = none → response.status = 403) ∧
      response.setCookies.Perm (told ++ ownSetCookies (.responded response) application ++
        (p.exchangeAfter request application.steps mint).jar.setCookiesOf
          (· != p.policy.tokenCookieName)) ∧
      p.currentAfter request application.steps mint = .ok held
  failed : ∀ message, (p.serve request application mint).1.reached →
    (application.steps.filterMap Step.failure?).getLast? = some message →
      (∃ transcript, (p.serve request application mint).1 = .failed message transcript) ∧
        (p.serve request application mint).1.setCookies = []
  accepted : ∀ key, p.policy.secret = some key →
    Verdict.judge (some key) held (p.provider.session request) = .accepted
  read_told : ';' ∉ p.policy.tokenCookieName.toList → '=' ∉ p.policy.tokenCookieName.toList →
    ∀ before : Option String, before.bind Percent.decode? = (p.handle request).received →
      (Client.readAll p.policy.tokenCookieName before told).bind Percent.decode? = some held

namespace Supplies

variable {told : List String} {held : String}
  (h : p.Supplies request mint (p.exchangeFor request mint) told held)

include h

/-- What a handler that leaves the token cookie alone tells the client is what the layer told it,
and else only of other cookies. -/
theorem setCookies_perm {value : String}
    (hcarried : Http.HeaderValue.canCarry (p.policy.cookie value).text) {steps : List Step}
    (hchange : (p.exchangeAfter request steps mint).jar.change? p.policy.tokenCookieName =
      (p.exchangeFor request mint).jar.change? p.policy.tokenCookieName) :
    (p.exchangeAfter request steps mint).jar.setCookies.Perm (told ++
      (p.exchangeAfter request steps mint).jar.setCookiesOf (· != p.policy.tokenCookieName)) := by
  have htold := h.setCookiesOf_eq hcarried
  rw [Jar.setCookiesOf_name, ← hchange, ← Jar.setCookiesOf_name] at htold
  rw [← htold]
  exact Jar.setCookies_perm _ _

/-- The client of such a handler then holds what the layer supplied. -/
theorem currentAfter_eq {steps : List Step}
    (hchange : (p.exchangeAfter request steps mint).jar.change? p.policy.tokenCookieName =
      (p.exchangeFor request mint).jar.change? p.policy.tokenCookieName) :
    p.currentAfter request steps mint = .ok held := by
  have hget := h.get?_eq
  rw [Jar.get?, ← hchange, ← received?_exchangeAfter p request steps, ← Jar.get?] at hget
  exact Handle.current_of_get? hget

theorem supplied {value : String}
    (hcarried : Http.HeaderValue.canCarry (p.policy.cookie value).text)
    (hready : application.readyError = none) : p.Supplied request application mint told held where
  supplies := h
  issues_ne_iff := h.issues_ne_iff
  issues_prefix := issues_exchangeFor_prefix hready
  exchange_congr := fun _ headerName exempt hcookies hsession =>
    exchangeFor_congr hcookies hsession headerName exempt mint
  answered := by
    intro hleaves
    obtain ⟨response, hanswer, hstatus, hcookies, hchange⟩ :=
      exists_response_of_leaves hready hleaves
    refine ⟨response, hanswer, hstatus, ?_, h.currentAfter_eq hchange⟩
    rw [hcookies]
    refine ((h.setCookies_perm hcarried hchange).append_left _).trans ?_
    rw [← List.append_assoc]
    exact List.perm_append_comm.append_right _
  failed := by
    intro message hreached hmessage
    obtain ⟨transcript, hanswer⟩ := serve_of_failure hready hreached hmessage
    rw [hanswer]
    exact ⟨⟨transcript, rfl⟩, rfl⟩
  accepted := fun _ => h.accepted
  read_told := fun hsemicolon hequals _ => h.readAll_told hsemicolon hequals hcarried

end Supplies

/-- The layer issues a token for a request, before the guard decides, exactly if the request needs
one; what it issues stays issued, and nothing but the cookies and the session of the request counts.
Unless the handler fails or works on the token cookie, the answer tells the client of an issued
token, with its attributes, once, refused or not, and of a kept one not at all; all else that it
says of cookies comes from the handler. A handler that fails passes its error on, and nothing is
said of cookies, whatever it did. With a key, the token that the client holds after an answer, be it
issued or kept, is accepted for the session of the request. -/
theorem supplies_exactly_when_needed (p : Protection) (request : Http.Request)
    (application : Application) (mint : Mint) (value : String)
    (hcarried : Http.HeaderValue.canCarry (p.policy.cookie value).text)
    (hready : application.readyError = none) :
    ∃ told held, p.Supplied request application mint told held := by
  obtain ⟨told, held, hsupplies⟩ := p.exists_supplies request mint
  exact ⟨told, held, hsupplies.supplied hcarried hready⟩

theorem Supplies.eq_of_needsToken {exchange : Exchange} {told : List String} {held : String}
    (h : p.Supplies request mint exchange told held) (hneeds : p.NeedsToken request)
    {token : Token}
    (htoken : mint.next p.policy.issuer p.entropy (p.provider.session request) = token) :
    told = [(p.policy.cookie token.text).text] ∧ held = token.text := by
  cases h with
  | issued _ hissued =>
    obtain rfl := hissued.trans htoken
    exact ⟨rfl, rfl⟩
  | kept hgives haccepted => exact absurd haccepted (hneeds _ hgives)

/-- The post of the sample run that carries no token is refused, and the client is told of a new one
all the same, which is accepted for alice. A handler that fails behind the other post says nothing
of the token that it bound to bob. -/
theorem refused_post_told_of_token :
    (∃ response, (Sample.protection.serve Sample.blindRequest ⟨none, []⟩ Mint.fresh).1 =
        .responded response ∧ response.status = 403 ∧
      (Sample.protection.policy.cookie Sample.token.text).text ∈ response.setCookies ∧
      Verdict.judge (some Sample.key) Sample.token.text "alice" = .accepted) ∧
    (∃ transcript, (Sample.protection.serve Sample.echoingRequest
      ⟨none, [.set "bob", .fail "out of order"]⟩ Mint.fresh).1 =
        .failed "out of order" transcript) ∧
    (Sample.protection.serve Sample.echoingRequest
      ⟨none, [.set "bob", .fail "out of order"]⟩ Mint.fresh).1.setCookies = [] := by
  have hcarried : Http.HeaderValue.canCarry (Sample.protection.policy.cookie "").text :=
    Policy.canCarry_text_cookie Sample.cleanName fun c hc => by cases hc
  constructor
  · obtain ⟨told, held, hsupplied⟩ :=
      supplies_exactly_when_needed Sample.protection Sample.blindRequest ⟨none, []⟩ Mint.fresh ""
        hcarried rfl
    have hneeds : Sample.protection.NeedsToken Sample.blindRequest := by
      rintro text ⟨before, after, hsplit, -⟩
      have hnone : Cookie.ofRequest Sample.blindRequest = [] := rfl
      rw [hnone] at hsplit
      simp at hsplit
    obtain ⟨rfl, rfl⟩ := hsupplied.supplies.eq_of_needsToken hneeds Sample.token_eq
    obtain ⟨response, hresponse, hstatus, hcookies, -⟩ :=
      hsupplied.answered fun _ step hstep => by cases hstep
    have hrefused :
        ¬ (Sample.protection.serve Sample.blindRequest ⟨none, []⟩ Mint.fresh).1.reached := by
      rw [serve_of_ready rfl, reached_serveReady_iff]
      decide +kernel
    rw [hresponse] at hrefused
    refine ⟨response, hresponse, hstatus (Option.not_isSome_iff_eq_none.1 hrefused), ?_,
      hsupplied.accepted Sample.key rfl⟩
    exact hcookies.mem_iff.2
      (List.mem_append_left _ (List.mem_append_left _ (List.mem_singleton_self _)))
  · obtain ⟨_, _, hsupplied⟩ :=
      supplies_exactly_when_needed Sample.protection Sample.echoingRequest
        ⟨none, [.set "bob", .fail "out of order"]⟩ Mint.fresh "" hcarried rfl
    have hreached : (Sample.protection.serve Sample.echoingRequest
        ⟨none, [.set "bob", .fail "out of order"]⟩ Mint.fresh).1.reached :=
      (reached_serve_iff rfl).2 (.inr (.inr ⟨Sample.key, Sample.token.text, Sample.echoed⟩))
    exact hsupplied.failed "out of order" hreached rfl

end Protection

end DoubleSubmit
