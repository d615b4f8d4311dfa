import DoubleSubmit.Proofs.Binding
import DoubleSubmit.Proofs.Cookie.Clean
import DoubleSubmit.Proofs.Draft

/-! One token there and back. A client opens a page without a cookie, is issued a token and sends it
back in a post, in the cookie and in the header. The post is let through exactly if the name of the
token cookie is clean (`Protection.echo_reached_iff_clean`): under no other name is the token found
in the cookie header, or the cookie header is none at all. -/

namespace DoubleSubmit

open Text

/-- A step that leaves the cookies alone, those of the answer included. -/
def Step.keepsCookies : Step → Bool
  | set _ | reset | cookieAdd _ _ | cookieRemove _ | setCookieHeader _ => false
  | _ => true

theorem Step.setCookie?_of_keepsCookies {s : Step} (h : s.keepsCookies) : s.setCookie? = none := by
  cases s with
  | setCookieHeader => cases h
  | _ => rfl

theorem Step.exchange_act_of_keepsCookies {s : Step} (h : s.keepsCookies) (handle : Option Handle)
    (desk : Desk) : (s.act handle desk).exchange = desk.exchange := by
  cases s with
  | set | reset | cookieAdd | cookieRemove | setCookieHeader => cases h
  | _ => rfl

theorem Handler.exchange_finish_of_keepsCookies {steps : List Step}
    (h : ∀ s ∈ steps, s.keepsCookies) (handle : Option Handle) (desk : Desk) :
    (finish handle desk steps).exchange = desk.exchange :=
  finish_eq_of_act Desk.exchange
    (fun s hs => Step.exchange_act_of_keepsCookies (h s hs) handle) desk

theorem Jar.setCookies_add_ofRequest (request : Http.Request) (cookie : Cookie) :
    ((ofRequest request).add cookie).setCookies =
      [cookie.text].filter Http.HeaderValue.canCarry := rfl

namespace Protection

/-- A visit opens a page: it gets it in a session, without a cookie, from a handler that does
nothing. -/
structure Opens (p : Protection) (session : String) (visit : Visit) : Prop where
  method_eq : visit.draft.method = "GET"
  is_request : ∃ request, visit.draft.check = .ok request ∧ p.provider.session request = session
  no_cookie : visit.draft.values .cookie = []
  idle : visit.application = ⟨none, []⟩

/-- A visit echoes a token: it posts to a path that is not exempt, in the session, with the token in
the one cookie header, under the name of the token cookie, and in the one header that echoes it. But
for the cookie header, which the name may spoil, it is known to be a request. -/
structure Echoes (p : Protection) (session token : String) (visit : Visit) : Prop where
  method_eq : visit.draft.method = "POST"
  rest_is_request : ∃ rest, (visit.draft.without .cookie).check = .ok rest
  session_eq : ∀ request, visit.draft.check = .ok request → p.provider.session request = session
  not_exempt : ∀ path, Http.Uri.path? visit.draft.target = some path →
    p.policy.isExempt path = false
  cookie : visit.draft.values .cookie = [utf8 (p.policy.tokenCookieName ++ "=" ++ token)]
  echo : ∀ name, Http.HeaderName.ofText? p.policy.headerName = some name →
    visit.draft.values name = [utf8 token]
  ready : visit.application.readyError = none

variable {p : Protection} {session token : String} {visit : Visit} {request : Http.Request}
  {mint : Mint}

theorem received_of_no_cookie (h : request.headerValues .cookie = []) :
    (p.handle request).received = none := by
  refine Option.eq_none_iff_forall_not_mem.2 fun text htext => ?_
  obtain ⟨piece, hpiece, -⟩ := exists_spelled_of_received htext
  rw [Cookie.requestPieces, h] at hpiece
  cases hpiece

/-- Opening a page issues a token for the session, and the page sets it unless no header can carry
the text that does. -/
theorem Opens.visit_eq (h : p.Opens session visit) (mint : Mint) : ∃ page,
    p.visit visit mint = (.ok (.responded page), mint.issue p.policy.issuer p.entropy session) ∧
      page.setCookies = [(p.policy.cookie
        (mint.next p.policy.issuer p.entropy session).text).text].filter
          Http.HeaderValue.canCarry := by
  obtain ⟨request, hcheck, hsession⟩ := h.is_request
  have hcookie : request.headerValues .cookie = [] := by
    have hvalues := Http.Request.Draft.headerValues_of_check hcheck .cookie
    rw [h.no_cookie] at hvalues
    exact List.map_eq_nil_iff.1 hvalues
  have hstale : (p.handle request).isStale := by
    rw [Handle.isStale, received_of_no_cookie hcookie]
  have hmethod : request.method.isGuarded = false := by
    rw [Http.Method.isGuarded, Http.Request.Draft.method_name_of_check hcheck, h.method_eq]
    decide
  have hpass : Guard.decision (some (p.handle request)) request = .pass :=
    Guard.decision_eq_pass_iff.2 (.inl hmethod)
  have hready : visit.application.readyError = none := by rw [h.idle]
  have hexchange : p.exchangeFor request mint =
      (p.handle request).issue session ⟨Jar.ofRequest request, mint⟩ := by
    rw [exchangeFor_of_isStale hstale, hsession]
  have hmint : (p.finished request [] mint).exchange.mint =
      mint.issue p.policy.issuer p.entropy session := congrArg Exchange.mint hexchange
  have hjar : (p.finished request [] mint).exchange.jar = (Jar.ofRequest request).add
      (p.policy.cookie (mint.next p.policy.issuer p.entropy session).text) :=
    congrArg Exchange.jar hexchange
  have hvisit : p.visit visit mint = _ := visit_of_check hcheck
  rw [serve_of_ready hready, h.idle, serveReady_of_no_failure hpass rfl, hmint, hjar,
    Jar.setCookies_add_ofRequest] at hvisit
  exact ⟨_, hvisit, rfl⟩

namespace Echoes

variable (h : p.Echoes session token visit)

include h

theorem sends (hcheck : visit.draft.check = .ok request) :
    Client.Sends p.policy (some token) request where
  cookie := (Http.Request.Draft.headerValues_of_check hcheck .cookie).trans h.cookie
  echo name hname :=
    (Http.Request.Draft.headerValues_of_check hcheck name).trans (h.echo name hname)

theorem exists_check (hname : Cookie.CleanName p.policy.tokenCookieName)
    (htoken : Token.Plain token) : ∃ request, visit.draft.check = .ok request := by
  refine Http.Request.Draft.exists_check_of_without h.rest_is_request fun value hvalue => ?_
  rw [h.cookie, List.mem_singleton] at hvalue
  rw [hvalue, Http.all_isFieldByte_utf8, List.all_eq_true]
  intro c hc
  rw [String.toList_append, String.toList_append, List.mem_append, List.mem_append] at hc
  rcases hc with (hc | hc) | hc
  · exact hname.no_control c hc
  · obtain rfl : c = '=' := by simpa using hc
    decide
  · exact (Token.plainChar (htoken c hc)).field

theorem reached_serve_iff {header : Http.HeaderName}
    (hheader : Http.HeaderName.ofText? p.policy.headerName = some header)
    (htoken : Token.Plain token) (haccepts : Verdict.accepts p.policy.secret token session)
    (hcheck : visit.draft.check = .ok request) (mint : Mint) :
    (p.serve request visit.application mint).1.reached ↔
      Cookie.CleanName p.policy.tokenCookieName := by
  have hguarded : request.method.isGuarded := by
    rw [Http.Method.isGuarded, Http.Request.Draft.method_name_of_check hcheck, h.method_eq]
    decide
  have hexempt := h.not_exempt _ (Http.Request.Draft.check_eq_ok_iff.1 hcheck).2.1
  have hsubmitted : Guard.submitted? p.policy request = some token :=
    (h.sends hcheck).plainHeader?_eq hheader (fun _ => htoken.of_held)
  rw [reached_serve_iff_accepts h.ready hguarded hexempt mint,
    ← (h.sends hcheck).isSome_get?_iff htoken, hsubmitted, h.session_eq request hcheck]
  constructor
  · rintro ⟨_, -, hreceived, -⟩
    exact Option.isSome_of_eq_some hreceived
  · intro hreceived
    have hname := ((h.sends hcheck).isSome_get?_iff htoken).1 hreceived
    exact ⟨token, rfl, (h.sends hcheck).received_eq hname (fun _ => htoken.of_held), haccepts⟩

end Echoes

/-- Behind a token that is accepted the layer leaves the cookies alone, so that a handler that does
so too answers without a word on them. -/
theorem setCookies_serve_eq_nil {application : Application} (hready : application.readyError = none)
    (hsteps : ∀ step ∈ application.steps, step.keepsCookies)
    (hstale : (p.handle request).isStale = false)
    (hreached : (p.serve request application mint).1.reached) :
    (p.serve request application mint).1.setCookies = [] := by
  rw [serve_of_ready hready] at hreached ⊢
  have hpass := reached_serveReady_iff.1 hreached
  have hexchange := Handler.exchange_finish_of_keepsCookies hsteps (some (p.handle request))
    (p.desk request mint)
  have hheaders : (p.finished request application.steps mint).headers = [] :=
    Handler.headers_finish_eq_self (fun s hs => Step.setCookie?_of_keepsCookies (hsteps s hs)) _ _
  cases hfailure : (p.finished request application.steps mint).failure with
  | some message =>
    rw [serveReady_of_failure hpass hfailure]
    rfl
  | none =>
    rw [serveReady_of_no_failure hpass hfailure, hheaders, finished, hexchange, desk,
      exchangeFor_of_not_isStale hstale]
    rfl

end Protection

namespace Sample

theorem opens_opening : protection.Opens "alice" opening where
  method_eq := rfl
  is_request := ⟨openingRequest, check_opening, rfl⟩
  no_cookie := rfl
  idle := rfl

theorem echoes_echoingPost : protection.Echoes "alice" token.text echoingPost where
  method_eq := rfl
  rest_is_request := ⟨_, rfl⟩
  session_eq request hrequest := by
    rw [check_echoingPost] at hrequest
    cases hrequest
    rfl
  not_exempt _ _ := rfl
  cookie := rfl
  echo name hname := by
    rw [ofText?_headerName] at hname
    cases hname
    rfl
  ready := rfl

theorem next_fresh : Mint.fresh.next protection.policy.issuer protection.entropy "alice" = token :=
  token_eq

end Sample

namespace Protection

/-- Let a client open a page without a cookie and then echo the token that is issued for it, in the
same session. The post reaches its handler exactly if the name of the token cookie is clean. If it
is, the page sets one cookie, of this name and with the token as its value, and the post sets none
unless its handler does. -/
theorem echo_reached_iff_clean (p : Protection) (key : Secret) (header : Http.HeaderName)
    (session : String) (mint : Mint) (opening post : Visit) (hkey : p.policy.secret = some key)
    (hheader : Http.HeaderName.ofText? p.policy.headerName = some header)
    (hopens : p.Opens session opening)
    (hechoes : p.Echoes session (mint.next p.policy.issuer p.entropy session).text post) :
    ∃ page issued, p.visit opening mint = (.ok (.responded page), issued) ∧
      issued.issues = mint.issues ++ [⟨session, mint.next p.policy.issuer p.entropy session⟩] ∧
      ((∃ answer, (p.visit post issued).1 = .ok answer ∧ answer.reached) ↔
        Cookie.CleanName p.policy.tokenCookieName) ∧
      (Cookie.CleanName p.policy.tokenCookieName →
        (∃ text attributes, page.setCookies = [text] ∧ SetCookie.ofText? text =
          some ⟨p.policy.tokenCookieName, (mint.next p.policy.issuer p.entropy session).text,
            attributes⟩) ∧
        ((∀ step ∈ post.application.steps, step.keepsCookies) →
          ∃ answer, (p.visit post issued).1 = .ok answer ∧ answer.setCookies = [])) := by
  obtain ⟨page, hpage, hcookies⟩ := hopens.visit_eq mint
  have htoken : Token.Plain (mint.next p.policy.issuer p.entropy session).text :=
    mint.plain_next _ _
  have haccepts : Verdict.accepts p.policy.secret
      (mint.next p.policy.issuer p.entropy session).text session := by
    rw [hkey]
    exact mint.accepts_next _ _ hkey
  have hreached {request : Http.Request} (hcheck : post.draft.check = .ok request) :=
    hechoes.reached_serve_iff hheader htoken haccepts hcheck
  refine ⟨page, _, hpage, rfl, ?_, fun hname => ⟨?_, fun hsteps => ?_⟩⟩
  · simp only [visit_eq_ok_iff]
    constructor
    · rintro ⟨_, ⟨request, hcheck, rfl⟩, hanswer⟩
      exact (hreached hcheck _).1 hanswer
    · intro hname
      obtain ⟨request, hcheck⟩ := hechoes.exists_check hname htoken
      exact ⟨_, ⟨request, hcheck, rfl⟩, (hreached hcheck _).2 hname⟩
  · rw [List.filter_cons_of_pos (Policy.canCarry_text_cookie hname htoken), List.filter_nil]
      at hcookies
    exact ⟨_, _, hcookies,
      SetCookie.ofText?_text hname.no_semicolon hname.no_equals htoken.semicolon_notMem⟩
  · obtain ⟨request, hcheck⟩ := hechoes.exists_check hname htoken
    refine ⟨_, visit_eq_ok_iff.2 ⟨request, hcheck, rfl⟩, ?_⟩
    have hsession : (p.handle request).session = session := hechoes.session_eq request hcheck
    have hstale : (p.handle request).isStale = false := by
      refine Handle.isStale_eq_false_iff.2
        ⟨_, (hechoes.sends hcheck).received_eq hname (fun _ => htoken.of_held), ?_⟩
      rw [hsession]
      exact haccepts
    exact setCookies_serve_eq_nil hechoes.ready hsteps hstale ((hreached hcheck _).2 hname)

/-- In the sample run the page sets the cookie and the post that echoes it is let through. -/
theorem opening_set_echoingPost_reached :
    Sample.protection.Opens "alice" Sample.opening ∧
      Sample.protection.Echoes "alice" Sample.token.text Sample.echoingPost ∧
      ∃ page issued,
        Sample.protection.visit Sample.opening Mint.fresh = (.ok (.responded page), issued) ∧
        (∃ text attributes, page.setCookies = [text] ∧
          SetCookie.ofText? text = some ⟨"t", Sample.token.text, attributes⟩) ∧
        (∃ answer, (Sample.protection.visit Sample.echoingPost issued).1 = .ok answer ∧
          answer.reached) ∧
        ∃ answer, (Sample.protection.visit Sample.echoingPost issued).1 = .ok answer ∧
          answer.setCookies = [] := by
  obtain ⟨page, issued, hpage, -, hreached, hcookies⟩ := echo_reached_iff_clean Sample.protection
    Sample.key ⟨"x"⟩ "alice" Mint.fresh Sample.opening Sample.echoingPost rfl
    Sample.ofText?_headerName Sample.opens_opening
    (Sample.next_fresh.symm ▸ Sample.echoes_echoingPost)
  obtain ⟨hset, hnone⟩ := hcookies Sample.cleanName
  rw [Sample.next_fresh] at hset
  have hsteps : ∀ step ∈ Sample.echoingPost.application.steps, step.keepsCookies := by
    intro step hstep
    cases hstep
  exact ⟨Sample.opens_opening, Sample.echoes_echoingPost, page, issued, hpage, hset,
    hreached.2 Sample.cleanName, hnone hsteps⟩

end Protection

end DoubleSubmit
