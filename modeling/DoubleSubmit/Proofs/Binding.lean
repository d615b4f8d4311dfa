import DoubleSubmit.Proofs.Admission
import DoubleSubmit.Proofs.Cookie.Kept

/-! A client that keeps its token, and the session that the token is bound to. Seen from outside,
a conversation of a client with the protection is a machine with one cell, which holds the session
of the client's token: a request binds the cell to its session, and the handler binds it anew or
clears it (`Binding.after`). The client holds a token exactly while the cell holds a session, and
the token is accepted for that session (`Binding.Holds`). -/

namespace DoubleSubmit

open Text

/-- A step that touches cookies only through the handle. -/
def Step.isTokenStep : Step → Bool
  | cookieAdd _ _ | cookieRemove _ | setCookieHeader _ => false
  | _ => true

theorem Step.setCookie?_of_isTokenStep {s : Step} (h : s.isTokenStep) : s.setCookie? = none := by
  cases s with
  | setCookieHeader => cases h
  | _ => rfl

namespace Binding

/-- The session of the current token after a step of a handler. -/
def step (bound : Option String) : Step → Option String
  | .set session => some session
  | .reset => none
  | _ => bound

/-- The session of a client's token after an answer to a request of a session: as it was if nothing
is said of cookies, that of the request if it was refused, and else what the handler's steps make of
that. -/
def after (bound : Option String) (session : String) (steps : List Step) : Answer → Option String
  | .notReady _ | .failed _ _ => bound
  | .responded response =>
    if response.transcript.isNone then some session else steps.foldl step (some session)

/-- A cell and a token agree: there is a token exactly while there is a session, and it is an issued
token that is accepted for the session. -/
inductive Holds (key : Secret) (issues : List Issue) : Option String → Option String → Prop
  | nothing : Holds key issues none none
  | token {session issue} (hissue : issue ∈ issues)
    (haccepts : Verdict.accepts (some key) issue.token.text session) :
    Holds key issues (some session) (some issue.token.text)

end Binding

/-- The texts that an answer says of cookies. -/
def Answer.setCookies : Answer → List String
  | responded response => response.setCookies
  | _ => []

/-- The answer to a request that comes behind the visits of a run. -/
def Protection.answerAfter (p : Protection) (visits : List Visit) (request : Http.Request)
    (application : Application) : Answer :=
  (p.serve request application (p.run visits Mint.fresh).2).1

/-- Conversations of one client with a protection: the visits, what the client holds after them,
and the session that its token is bound to. Each visit brings a request that sends what the client
holds, to an application that touches cookies only through the handle. -/
inductive Conversation (p : Protection) : List Visit → Option String → Option String → Prop
  | start : Conversation p [] none none
  | visit {visits held bound visit request} (h : Conversation p visits held bound)
    (hrequest : visit.draft.check = .ok request) (hsends : Client.Sends p.policy held request)
    (hsteps : ∀ step ∈ visit.application.steps, step.isTokenStep) :
    Conversation p (visits ++ [visit])
      (Client.readAll p.policy.tokenCookieName held
        (p.answerAfter visits request visit.application).setCookies)
      (Binding.after bound (p.provider.session request) visit.application.steps
        (p.answerAfter visits request visit.application))

/-- A change of the token cookie: it is set to a token, or removed. -/
def CookieChange.OfToken (policy : Policy) (change : CookieChange) : Prop :=
  (∃ text, Token.Plain text ∧ change = .set (policy.cookie text)) ∨
    change = .remove (policy.cookie "")

theorem Policy.maxAgeZero_notMem_attributes (policy : Policy) :
    .maxAgeZero ∉ policy.attributes := by
  unfold attributes
  cases policy.httpOnly <;> cases policy.secure <;> cases policy.expires <;> simp

theorem Policy.canCarry_text_cookie {policy : Policy} {text : String}
    (hname : Cookie.CleanName policy.tokenCookieName) (htext : Token.Plain text) :
    Http.HeaderValue.canCarry (policy.cookie text).text :=
  Cookie.canCarry_text hname.no_control fun c hc => (Token.plainChar (htext c hc)).field

theorem CookieChange.legible_set_token {policy : Policy} {text : String}
    (hsemicolon : ';' ∉ policy.tokenCookieName.toList)
    (hequals : '=' ∉ policy.tokenCookieName.toList) (htext : Token.Plain text)
    (hcarry : Http.HeaderValue.canCarry (policy.cookie text).text) :
    (CookieChange.set (policy.cookie text)).Legible policy.tokenCookieName where
  no_semicolon := hsemicolon
  no_equals := hequals
  carried _ := hcarry
  value := by
    intro cookie hcookie _
    cases hcookie
    exact ⟨htext.semicolon_notMem, policy.maxAgeZero_notMem_attributes⟩

theorem CookieChange.OfToken.legible {policy : Policy} {change : CookieChange}
    (h : change.OfToken policy) (hname : Cookie.CleanName policy.tokenCookieName) :
    change.Legible policy.tokenCookieName := by
  obtain ⟨text, htext, rfl⟩ | rfl := h
  · exact legible_set_token hname.no_semicolon hname.no_equals htext
      (Policy.canCarry_text_cookie hname htext)
  · refine ⟨hname.no_semicolon, hname.no_equals, fun _ => ?_, ?_⟩
    · exact Cookie.canCarry_text hname.no_control fun c hc => by cases hc
    · intro cookie hcookie
      cases hcookie

theorem Jar.mem_changes_add {jar : Jar} {cookie : Cookie} {change : CookieChange}
    (h : change ∈ (jar.add cookie).changes) : change ∈ jar.changes ∨ change = .set cookie := by
  rcases List.mem_append.1 h with h | h
  · exact .inl (List.mem_filter.1 h).1
  · exact .inr (List.mem_singleton.1 h)

theorem Jar.mem_changes_remove {jar : Jar} {cookie : Cookie} {change : CookieChange}
    (h : change ∈ (jar.remove cookie).changes) :
    change ∈ jar.changes ∨ change = .remove cookie := by
  unfold remove at h
  split at h
  · rcases List.mem_append.1 h with h | h
    · exact .inl (List.mem_filter.1 h).1
    · exact .inr (List.mem_singleton.1 h)
  · exact .inl (List.mem_filter.1 h).1

namespace Binding

/-- An exchange agrees with a cell: its jar changes the token cookie only, and the token in it
agrees with the cell. -/
structure Tracks (policy : Policy) (key : Secret) (held bound : Option String)
    (exchange : Exchange) : Prop where
  received_eq : exchange.jar.received? policy.tokenCookieName = held
  ofToken : ∀ change ∈ exchange.jar.changes, change.OfToken policy
  holds : Holds key exchange.mint.issues bound (exchange.jar.get? policy.tokenCookieName)

section

variable {key : Secret} {issues : List Issue} {held bound : Option String}

theorem Holds.mono {more : List Issue} (h : Holds key issues bound held)
    (hmore : issues ⊆ more) : Holds key more bound held := by
  cases h with
  | nothing => exact .nothing
  | token hissue haccepts => exact .token (hmore hissue) haccepts

end

variable {handle : Handle} {key : Secret} {held bound : Option String}

theorem Tracks.issue {exchange : Exchange} (h : Tracks handle.policy key held bound exchange)
    (hkey : handle.policy.secret = some key) (session : String) :
    Tracks handle.policy key held (some session) (handle.issue session exchange) := by
  refine ⟨h.received_eq, ?_, ?_⟩
  · intro change hchange
    rcases Jar.mem_changes_add hchange with hchange | rfl
    · exact h.ofToken change hchange
    · exact .inl ⟨_, exchange.mint.plain_next _ _, rfl⟩
  · have hissue : ⟨session, exchange.mint.next handle.policy.issuer handle.entropy session⟩ ∈
        (handle.issue session exchange).mint.issues := by
      rw [Handle.issue, Mint.issues_issue]
      exact List.mem_append_right _ (List.mem_singleton_self _)
    rw [handle.get?_issue]
    exact .token hissue (exchange.mint.accepts_next _ _ hkey)

theorem Tracks.reset {exchange : Exchange} (h : Tracks handle.policy key held bound exchange) :
    Tracks handle.policy key held none { exchange with jar := handle.reset exchange.jar } := by
  refine ⟨?_, ?_, ?_⟩
  · exact (Jar.received?_remove _ _).trans h.received_eq
  · intro change hchange
    rcases Jar.mem_changes_remove hchange with hchange | rfl
    · exact h.ofToken change hchange
    · exact .inr rfl
  · have hget : (handle.reset exchange.jar).get? handle.policy.tokenCookieName = none := by
      rw [Handle.reset, Jar.get?_remove]
      exact if_pos rfl
    rw [hget]
    exact .nothing

theorem Tracks.act {desk : Desk} (h : Tracks handle.policy key held bound desk.exchange)
    (hkey : handle.policy.secret = some key) {s : Step} (hs : s.isTokenStep) :
    Tracks handle.policy key held (step bound s) (s.act (some handle) desk).exchange := by
  cases s with
  | set session => exact h.issue hkey session
  | reset => exact h.reset
  | cookieAdd | cookieRemove | setCookieHeader => cases hs
  | _ => exact h

/-- A handler that touches cookies only through the handle keeps in step with the cell. -/
theorem Tracks.finish {desk : Desk} (h : Tracks handle.policy key held bound desk.exchange)
    (hkey : handle.policy.secret = some key) {steps : List Step}
    (hsteps : ∀ s ∈ steps, s.isTokenStep) : Tracks handle.policy key held
      (steps.foldl step bound) (Handler.finish (some handle) desk steps).exchange := by
  induction steps generalizing desk bound with
  | nil => exact h
  | cons s steps ih =>
    exact ih (h.act hkey (hsteps s List.mem_cons_self))
      fun t ht => hsteps t (List.mem_cons_of_mem _ ht)

/-! ## One request -/

variable {p : Protection} {request : Http.Request} {mint : Mint} {issues : List Issue}

theorem Holds.plain (h : Holds key mint.issues bound held)
    (hmint : mint.Orderly p.policy.issuer p.entropy) {text : String} (htext : held = some text) :
    Token.Plain text := by
  cases h with
  | nothing => cases htext
  | @token session issue hissue =>
    cases htext
    obtain ⟨hsigned, bytes, hrandom⟩ := hmint.signed hissue
    rw [hsigned, hrandom]
    exact Token.plain_signed _ _ _

theorem Holds.rebind (h : Holds key issues bound held) {text session : String}
    (htext : held = some text) (haccepts : Verdict.accepts (some key) text session) :
    Holds key issues (some session) held := by
  cases h with
  | nothing => cases htext
  | token hissue =>
    cases htext
    exact .token hissue haccepts

/-- A client that reads what the jar says agrees with the cell. -/
theorem Tracks.holds_readAll {exchange : Exchange}
    (h : Tracks p.policy key held bound exchange)
    (hname : Cookie.CleanName p.policy.tokenCookieName) :
    Holds key exchange.mint.issues bound
      (Client.readAll p.policy.tokenCookieName held exchange.jar.setCookies) := by
  rw [← h.received_eq, Client.readAll_setCookies fun c hc => (h.ofToken c hc).legible hname]
  exact h.holds

/-- Behind the layer the cell holds the session of the request. -/
theorem Holds.tracks_exchangeFor (h : Holds key mint.issues bound held)
    (hmint : mint.Orderly p.policy.issuer p.entropy) (hkey : p.policy.secret = some key)
    (hname : Cookie.CleanName p.policy.tokenCookieName)
    (hsends : Client.Sends p.policy held request) :
    Tracks p.policy key held (some (p.provider.session request)) (p.exchangeFor request mint) := by
  have hreceived : (Jar.ofRequest request).get? p.policy.tokenCookieName = held :=
    hsends.received_eq hname fun text => h.plain hmint
  -- A stale token is replaced, whatever the cell held; one that is not is accepted for the session
  -- of the request, which may differ from the one in the cell only if messages collide.
  cases hstale : (p.handle request).isStale with
  | true =>
    have hstart : Tracks p.policy key held bound ⟨Jar.ofRequest request, mint⟩ := by
      refine ⟨hreceived, ?_, ?_⟩
      · intro change hchange
        cases hchange
      · rw [hreceived]
        exact h
    have hhandle : Tracks (p.handle request).policy key held bound _ := hstart
    rw [Protection.exchangeFor_of_isStale hstale]
    exact hhandle.issue hkey _
  | false =>
    obtain ⟨text, htext, haccepts⟩ := Handle.isStale_eq_false_iff.1 hstale
    have hheld : held = some text := hreceived.symm.trans htext
    rw [Protection.exchangeFor_of_not_isStale hstale]
    refine ⟨hreceived, ?_, ?_⟩
    · intro change hchange
      cases hchange
    · rw [hreceived]
      exact h.rebind hheld (hkey ▸ haccepts)

/-- After the answer to a request that sends what the client holds, cell and token agree again. -/
theorem Holds.serve (h : Holds key mint.issues bound held)
    (hmint : mint.Orderly p.policy.issuer p.entropy) (hkey : p.policy.secret = some key)
    (hname : Cookie.CleanName p.policy.tokenCookieName)
    (hsends : Client.Sends p.policy held request) {application : Application}
    (hsteps : ∀ s ∈ application.steps, s.isTokenStep) :
    Holds key (p.serve request application mint).2.issues
      (after bound (p.provider.session request) application.steps
        (p.serve request application mint).1)
      (Client.readAll p.policy.tokenCookieName held
        (p.serve request application mint).1.setCookies) := by
  have hlayer : Tracks (p.handle request).policy key held (some (p.provider.session request))
      (p.desk request mint).exchange := h.tracks_exchangeFor hmint hkey hname hsends
  cases hready : application.readyError with
  | some message =>
    rw [Protection.serve, hready]
    exact h
  | none =>
    rw [Protection.serve_of_ready hready]
    by_cases hpass : Guard.decision (some (p.handle request)) request = .pass
    · have hfinished := hlayer.finish hkey hsteps
      have hissues : mint.issues ⊆ (p.serveReady request application.steps mint).2.issues := by
        rw [Protection.mint_serveReady]
        exact (Mint.issues_prefix_issueAll _ _ _ _).subset
      cases hfailure : (p.finished request application.steps mint).failure with
      | some message =>
        rw [Protection.serveReady_of_failure hpass hfailure] at hissues ⊢
        exact h.mono hissues
      | none =>
        have hheaders : (p.finished request application.steps mint).headers = [] :=
          Handler.headers_finish_eq_self (fun s hs => Step.setCookie?_of_isTokenStep (hsteps s hs))
            _ _
        rw [Protection.serveReady_of_no_failure hpass hfailure, hheaders]
        exact hfinished.holds_readAll hname
    · rw [Protection.serveReady_of_not_pass hpass]
      exact hlayer.holds_readAll hname

end Binding

/-! ## Conversations -/

section

variable {p : Protection} {key : Secret} {visits : List Visit} {held bound : Option String}

theorem Conversation.holds (h : Conversation p visits held bound)
    (hkey : p.policy.secret = some key) (hname : Cookie.CleanName p.policy.tokenCookieName) :
    Binding.Holds key (p.run visits Mint.fresh).2.issues bound held := by
  -- The invariant of the run is that the mint is orderly, so that what the client holds is plain.
  induction h with
  | start => exact .nothing
  | visit _ hrequest hsends hsteps ih =>
    rw [Protection.run_snd_concat, Protection.visit_of_check hrequest]
    exact ih.serve (Protection.orderly_run _) hkey hname hsends hsteps

/-- A token that agrees with a cell is accepted for the session in it, and for no other session
unless their messages collide. -/
theorem Binding.Holds.eq_or_collides {issues : List Issue} (h : Holds key issues bound held)
    {text session : String} (htext : held = some text)
    (haccepts : Verdict.accepts (some key) text session) : bound = some session ∨
      ∃ session' random, bound = some session' ∧
        key.Collides (Payload.text session' random) (Payload.text session random) := by
  cases h with
  | nothing => cases htext
  | @token session' _ _ hbound =>
    cases htext
    rcases Verdict.eq_or_collides_of_accepts hbound haccepts with rfl | ⟨_, random, -, hcollides⟩
    · exact .inl rfl
    · exact .inr ⟨session', random, rfl, hcollides⟩

theorem Binding.Holds.exists_issue {issues : List Issue} {session : String}
    (h : Holds key issues (some session) held) : ∃ issue ∈ issues,
      held = some issue.token.text ∧ Verdict.accepts (some key) issue.token.text session := by
  cases h with
  | token hissue haccepts => exact ⟨_, hissue, rfl, haccepts⟩

/-- A guarded request that is not exempt reaches its handler exactly with a token that is accepted
for its session, if it sends what the client holds. -/
theorem Conversation.reached_iff (h : Conversation p visits held bound)
    (hkey : p.policy.secret = some key) (hname : Cookie.CleanName p.policy.tokenCookieName)
    {header : Http.HeaderName} (hheader : Http.HeaderName.ofText? p.policy.headerName = some header)
    {request : Http.Request} {application : Application}
    (hsends : Client.Sends p.policy held request) (hready : application.readyError = none)
    (hguarded : request.method.isGuarded) (hexempt : p.policy.isExempt request.path = false) :
    (p.answerAfter visits request application).reached ↔
      ∃ text, held = some text ∧
        Verdict.accepts (some key) text (p.provider.session request) := by
  have hplain : ∀ text, held = some text → Token.Plain text :=
    fun text => (h.holds hkey hname).plain (Protection.orderly_run visits)
  have hreceived : (p.handle request).received = held := hsends.received_eq hname hplain
  have hechoed := Protection.reached_serve_iff_accepts hready hguarded hexempt
    (p.run visits Mint.fresh).2
  rw [Guard.submitted?, hsends.plainHeader?_eq hheader hplain, hreceived, hkey] at hechoed
  rw [Protection.answerAfter, hechoed]
  constructor
  · rintro ⟨text, htext, -, haccepts⟩
    exact ⟨text, htext, haccepts⟩
  · rintro ⟨text, htext, haccepts⟩
    exact ⟨text, htext, htext, haccepts⟩

end

/-! ## The sample run -/

namespace Sample

/-- After the opening the client holds the token of alice. -/
theorem conversation_opening :
    Conversation protection [opening] (some token.text) (some "alice") := by
  have hsends : Client.Sends protection.policy none openingRequest := ⟨rfl, fun _ _ => rfl⟩
  have hsteps : ∀ step ∈ opening.application.steps, step.isTokenStep := by
    intro step hstep
    cases hstep
  have hbound : Binding.after none (protection.provider.session openingRequest)
      opening.application.steps (protection.answerAfter [] openingRequest opening.application) =
        some "alice" := rfl
  have hkey : protection.policy.secret = some key := rfl
  have h := Conversation.start.visit check_opening hsends hsteps
  rw [hbound] at h
  -- What the client holds is an issued token, and only one was issued.
  obtain ⟨issue, hissue, hheld, -⟩ := (h.holds hkey cleanName).exists_issue
  rw [List.nil_append, issues_opening, List.mem_singleton] at hissue
  rw [hheld, hissue] at h
  exact h

end Sample

/-! ## The refinement -/

/-- A client that keeps its token refines the cell: at the end of every conversation it holds an
issued token exactly while there is a session in the cell, the token is accepted for this session
and no other, and a next request that has to echo a token is let through exactly if its session is
the one in the cell; all this unless two messages collide. -/
theorem Conversation.refines_binding (p : Protection) (key : Secret) (header : Http.HeaderName)
    (visits : List Visit) (held bound : Option String) (hkey : p.policy.secret = some key)
    (hname : Cookie.CleanName p.policy.tokenCookieName)
    (hheader : Http.HeaderName.ofText? p.policy.headerName = some header)
    (h : Conversation p visits held bound) :
    Binding.Holds key (p.run visits Mint.fresh).2.issues bound held ∧
      (∀ text session, held = some text → Verdict.accepts (some key) text session →
        bound = some session ∨ ∃ session' random, bound = some session' ∧
          key.Collides (Payload.text session' random) (Payload.text session random)) ∧
      ∀ (request : Http.Request) (application : Application),
        Client.Sends p.policy held request → application.readyError = none →
        request.method.name ∈ ["POST", "PUT", "PATCH", "DELETE"] →
        p.policy.isExempt request.path = false →
          (bound = some (p.provider.session request) →
            (p.answerAfter visits request application).reached) ∧
          ((p.answerAfter visits request application).reached →
            bound = some (p.provider.session request) ∨ ∃ session random, bound = some session ∧
              key.Collides (Payload.text session random)
                (Payload.text (p.provider.session request) random)) := by
  have hholds := h.holds hkey hname
  refine ⟨hholds, fun _ _ => hholds.eq_or_collides, ?_⟩
  intro request application hsends hready hmethod hexempt
  have hguarded : request.method.isGuarded := Http.Method.isGuarded_iff.2 hmethod
  have hreached := h.reached_iff hkey hname hheader hsends hready hguarded hexempt
  constructor
  · intro hbound
    rw [hbound] at hholds
    obtain ⟨issue, -, hheld, haccepts⟩ := hholds.exists_issue
    exact hreached.2 ⟨issue.token.text, hheld, haccepts⟩
  · intro hadmitted
    obtain ⟨text, htext, haccepts⟩ := hreached.1 hadmitted
    exact hholds.eq_or_collides htext haccepts

/-- In the sample run the post that follows the opening is let through. -/
theorem opening_then_echoingPost_reached :
    Conversation Sample.protection [Sample.opening] (some Sample.token.text) (some "alice") ∧
      Client.Sends Sample.protection.policy (some Sample.token.text) Sample.echoingRequest ∧
      (Sample.protection.answerAfter [Sample.opening] Sample.echoingRequest
        Sample.echoingPost.application).reached := by
  obtain ⟨-, -, hnext⟩ := Conversation.refines_binding Sample.protection Sample.key ⟨"x"⟩
    [Sample.opening] _ _ rfl Sample.cleanName Sample.ofText?_headerName Sample.conversation_opening
  have hreached := (hnext Sample.echoingRequest Sample.echoingPost.application
    Sample.sends_echoingRequest rfl (by decide) rfl).1 rfl
  exact ⟨Sample.conversation_opening, Sample.sends_echoingRequest, hreached⟩

end DoubleSubmit
