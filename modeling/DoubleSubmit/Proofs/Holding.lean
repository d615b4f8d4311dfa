import DoubleSubmit.Proofs.Binding
import DoubleSubmit.Proofs.Cell
import DoubleSubmit.Proofs.Cookie.Brought

/-! What a client will hold. A client that applies an answer to the token cookie that it sent, and
sends the result back, is found to hold the token that was current at the end of the request before
(`Protection.current_tells_next_received`). Between the two stand the jar, which tells the client of
its changes, the text of the one change of that name, and the reading of a cookie header. -/

namespace DoubleSubmit

open Text

/-! ## What an answer says of a cookie -/

/-- A text sets a cookie of a name. -/
def SetCookie.isNamed (name text : String) : Bool := (ofText? text).any (·.name == name)

/-- A change that a client can follow that keeps a cookie of tokens: its text can be read, and if it
sets this cookie, then to a token. -/
structure CookieChange.Tame (name : String) (change : CookieChange) : Prop extends
    CookieChange.Legible name change where
  plain : change.name = name → ∀ value, change.value? = some value → Token.Plain value

namespace Client

variable {name : String} {held : Option String} {jar : Jar}

/-- What the client holds after an answer decodes to what the jar has. -/
theorem readAll_bind_decode? (h : ∀ change ∈ jar.changes, change.Tame name)
    (hheld : jar.received? name = held.bind Percent.decode?) :
    (readAll name held jar.setCookies).bind Percent.decode? = jar.get? name := by
  have hlegible : ∀ change ∈ jar.changes, change.Legible name := fun c hc => (h c hc).toLegible
  rw [Jar.setCookies, readAll_changes hlegible jar.changes_distinct, Jar.get?, Jar.change?]
  -- Without a change of the name the client keeps what it had, which is what the jar received.
  cases hchange : jar.changes.find? (·.name == name) with
  | none => exact hheld.symm
  | some change =>
    cases hvalue : change.value? with
    | none =>
      simp only [hvalue]
      rfl
    | some value =>
      -- A value written by the handle is a token, which decoding leaves as it is.
      have hmem := List.mem_of_find?_eq_some hchange
      have hname : change.name = name := by simpa using List.find?_some hchange
      have hplain := (h change hmem).plain hname value hvalue
      simp only [hvalue, Option.bind_some]
      exact Percent.decode?_of_not_hasEscape hplain.not_hasEscape

theorem length_filter_isNamed_le_one (h : ∀ change ∈ jar.changes, change.Legible name) :
    (jar.setCookies.filter (SetCookie.isNamed name)).length ≤ 1 := by
  rw [Jar.setCookies, List.filter_filter, List.filter_map, List.length_map]
  apply jar.changes_distinct.length_filter_le_one
  intro change hchange hkept
  obtain ⟨hnamed, -⟩ := (Bool.and_eq_true _ _).mp hkept
  obtain ⟨read, hread, hname⟩ := (Option.any_eq_true _ _).1 hnamed
  have hlegible := h change hchange
  have hsent : read.name = change.sent.name := SetCookie.name_of_ofText?_text
    (change.name_sent.symm ▸ hlegible.no_semicolon) (change.name_sent.symm ▸ hlegible.no_equals)
    hread
  rw [← change.name_sent, ← hsent]
  exact beq_iff_eq.1 hname

end Client

/-! ## A handler that leaves the token cookie to the handle -/

/-- A step that does not fail and leaves a cookie to the handle: the application changes cookies of
clean names only, never sets the one of this name, and adds nothing to the answer that sets a
cookie. -/
def Step.Spares (name : String) : Step → Prop
  | cookieAdd other _ => Cookie.CleanName other ∧ other ≠ name
  | cookieRemove other => Cookie.CleanName other
  | setCookieHeader _ | fail _ => False
  | get | set _ | reset | verify _ | extract | cookieList | status _ => True

theorem Step.quiet_of_spares {name : String} {step : Step} (h : step.Spares name) :
    step.setCookie? = none ∧ step.failure? = none := by
  cases step with
  | setCookieHeader | fail => exact h.elim
  | _ => exact ⟨rfl, rfl⟩

/-- A jar that a client can follow: it was received with this value under a name, and its changes
are tame. -/
structure Jar.Tame (name : String) (received : Option String) (jar : Jar) : Prop where
  received_eq : jar.received? name = received
  changes : ∀ change ∈ jar.changes, change.Tame name

theorem CookieChange.OfToken.tame {policy : Policy} {change : CookieChange}
    (h : change.OfToken policy) (hname : Cookie.CleanName policy.tokenCookieName) :
    change.Tame policy.tokenCookieName where
  toLegible := h.legible hname
  plain _ value hvalue := by
    obtain ⟨text, htext, rfl⟩ | rfl := h
    · cases hvalue
      exact htext
    · cases hvalue

namespace Jar.Tame

variable {name : String} {received : Option String} {jar : Jar}

theorem add (h : jar.Tame name received) {cookie : Cookie}
    (hcookie : (CookieChange.set cookie).Tame name) : (jar.add cookie).Tame name received where
  received_eq := h.received_eq
  changes change hchange := by
    rcases Jar.mem_changes_add hchange with hchange | rfl
    · exact h.changes change hchange
    · exact hcookie

theorem remove (h : jar.Tame name received) {cookie : Cookie}
    (hcookie : (CookieChange.remove cookie).Tame name) :
    (jar.remove cookie).Tame name received where
  received_eq := (Jar.received?_remove cookie name).trans h.received_eq
  changes change hchange := by
    rcases Jar.mem_changes_remove hchange with hchange | rfl
    · exact h.changes change hchange
    · exact hcookie

theorem ofRequest (request : Http.Request) (name : String) :
    (Jar.ofRequest request).Tame name ((Jar.ofRequest request).received? name) where
  received_eq := rfl
  changes change hchange := by cases hchange

end Jar.Tame

theorem CookieChange.tame_set_of_ne {name other value : String} (hother : Cookie.CleanName other)
    (hne : other ≠ name) : (CookieChange.set (.plain other value)).Tame name where
  no_semicolon := hother.no_semicolon
  no_equals := hother.no_equals
  carried heq := absurd heq hne
  value := by
    rintro cookie hcookie heq
    cases hcookie
    exact absurd heq hne
  plain heq := absurd heq hne

theorem CookieChange.tame_remove {name other : String} (hother : Cookie.CleanName other) :
    (CookieChange.remove (.plain other "")).Tame name where
  no_semicolon := hother.no_semicolon
  no_equals := hother.no_equals
  carried _ := Cookie.canCarry_text hother.no_control fun c hc => by cases hc
  value := by
    intro cookie hcookie
    cases hcookie
  plain := by
    intro _ value hvalue
    cases hvalue

section

variable (handle : Handle) {received : Option String}

theorem Handle.tame_issue (exchange : Exchange)
    (h : exchange.jar.Tame handle.policy.tokenCookieName received)
    (hname : Cookie.CleanName handle.policy.tokenCookieName) (session : String) :
    (handle.issue session exchange).jar.Tame handle.policy.tokenCookieName received :=
  h.add (CookieChange.OfToken.tame (.inl ⟨_, exchange.mint.plain_next _ _, rfl⟩) hname)

theorem Step.tame_act {desk : Desk}
    (h : desk.exchange.jar.Tame handle.policy.tokenCookieName received)
    (hname : Cookie.CleanName handle.policy.tokenCookieName) {step : Step}
    (hstep : step.Spares handle.policy.tokenCookieName) :
    (step.act (some handle) desk).exchange.jar.Tame handle.policy.tokenCookieName received := by
  cases step with
  | set session => exact handle.tame_issue desk.exchange h hname session
  | reset => exact h.remove (CookieChange.OfToken.tame (.inr rfl) hname)
  | cookieAdd other value => exact h.add (CookieChange.tame_set_of_ne hstep.1 hstep.2)
  | cookieRemove other => exact h.remove (CookieChange.tame_remove hstep)
  | setCookieHeader | fail => exact hstep.elim
  | _ => exact h

theorem Handler.tame_finish (desk : Desk)
    (h : desk.exchange.jar.Tame handle.policy.tokenCookieName received)
    (hname : Cookie.CleanName handle.policy.tokenCookieName) {steps : List Step}
    (hsteps : ∀ step ∈ steps, step.Spares handle.policy.tokenCookieName) :
    (finish (some handle) desk steps).exchange.jar.Tame handle.policy.tokenCookieName received :=
  finish_induction
    (P := fun desk => desk.exchange.jar.Tame handle.policy.tokenCookieName received)
    (fun step hstep _ h => Step.tame_act handle h hname (hsteps step hstep)) h

end

/-- The token that a transcript shows last. -/
def Transcript.last (transcript : Transcript) : Option (Except Error String) :=
  (transcript.observations.getLast?.map Observation.current).getD transcript.start

theorem Handler.last_transcript (handle : Option Handle) (desk : Desk) (steps : List Step) :
    (transcript handle desk steps).last = (finish handle desk steps).current? handle := by
  induction steps generalizing desk with
  | nil => rfl
  | cons step steps ih =>
    refine Eq.trans ?_ (ih (step.act handle desk))
    simp only [transcript, Transcript.last, observe, List.getLast?_cons]
    cases (observe handle (step.act handle desk) steps).getLast? <;> rfl

theorem Handle.toOption_current (handle : Handle) (jar : Jar) :
    (handle.current jar).toOption = jar.get? handle.policy.tokenCookieName := by
  rw [current]
  cases jar.get? handle.policy.tokenCookieName <;> rfl

theorem Handle.toOption_current_eq_none_iff {handle : Handle} {jar : Jar} :
    (handle.current jar).toOption = none ↔ handle.current jar = .error .noCookie := by
  rw [current]
  cases jar.get? handle.policy.tokenCookieName with
  | none => exact iff_of_true rfl rfl
  | some text => simp [Except.toOption]

namespace Protection

variable {p : Protection} {request : Http.Request} {steps : List Step} {mint : Mint}
  {held : Option String}

/-- The exchange when a request is answered: as the handler leaves it where it runs, and elsewhere
as the layer does. -/
def exchangeAfter (p : Protection) (request : Http.Request) (steps : List Step) (mint : Mint) :
    Exchange :=
  (Guard.serve (some (p.handle request)) request steps (p.exchangeFor request mint)).2

/-- The current token when a request is answered. -/
def currentAfter (p : Protection) (request : Http.Request) (steps : List Step) (mint : Mint) :
    Except Error String :=
  (p.handle request).current (p.exchangeAfter request steps mint).jar

theorem exchangeAfter_of_pass
    (h : Guard.decision (some (p.handle request)) request = .pass) :
    p.exchangeAfter request steps mint = (p.finished request steps mint).exchange := by
  rw [exchangeAfter, Guard.serve, h]
  rfl

theorem exchangeAfter_of_not_pass
    (h : Guard.decision (some (p.handle request)) request ≠ .pass) :
    p.exchangeAfter request steps mint = p.exchangeFor request mint := by
  rw [exchangeAfter, Guard.serve, Guard.decision_eq_forbid_of_ne h]

/-- Where the handler runs, the current token at the end is that of the cell after its steps. -/
theorem currentAfter_of_pass
    (h : Guard.decision (some (p.handle request)) request = .pass) :
    p.currentAfter request steps mint =
      ((Cell.start p request mint).after p.policy p.entropy steps).current := by
  rw [currentAfter, exchangeAfter_of_pass h, ← cell_finished]
  rfl

theorem tame_exchangeFor (hname : Cookie.CleanName p.policy.tokenCookieName)
    (request : Http.Request) (mint : Mint) : (p.exchangeFor request mint).jar.Tame
      p.policy.tokenCookieName ((Jar.ofRequest request).received? p.policy.tokenCookieName) := by
  have hstart := Jar.Tame.ofRequest request p.policy.tokenCookieName
  cases hstale : (p.handle request).isStale with
  | true =>
    rw [exchangeFor_of_isStale hstale]
    exact (p.handle request).tame_issue ⟨Jar.ofRequest request, mint⟩ hstart hname _
  | false =>
    rw [exchangeFor_of_not_isStale hstale]
    exact hstart

/-- Where the handler spares the token cookie, a request is answered by a response that says of the
cookies what the jar at its end does, and a client can follow that jar. -/
theorem exists_response_of_spares (p : Protection) (application : Application) (mint : Mint)
    (hname : Cookie.CleanName p.policy.tokenCookieName)
    (hready : application.readyError = none)
    (hsteps : p.Admissible request →
      ∀ step ∈ application.steps, step.Spares p.policy.tokenCookieName) :
    ∃ response, (p.serve request application mint).1 = .responded response ∧
      response.setCookies = (p.exchangeAfter request application.steps mint).jar.setCookies ∧
      (p.exchangeAfter request application.steps mint).jar.Tame p.policy.tokenCookieName
        ((Jar.ofRequest request).received? p.policy.tokenCookieName) ∧
      ∀ transcript, response.transcript = some transcript →
        transcript.last = some (p.currentAfter request application.steps mint) := by
  have htame := tame_exchangeFor hname request mint
  rw [serve_of_ready hready]
  by_cases hpass : Guard.decision (some (p.handle request)) request = .pass
  · have hspares := hsteps (decision_eq_pass_iff_admissible.1 hpass)
    have hquiet (step : Step) (hstep : step ∈ application.steps) :=
      Step.quiet_of_spares (hspares step hstep)
    have hheaders : (p.finished request application.steps mint).headers = [] :=
      Handler.headers_finish_eq_self (fun step hstep => (hquiet step hstep).1) _ _
    have hfailure : (p.finished request application.steps mint).failure = none :=
      Handler.failure_finish_eq_self (fun step hstep => (hquiet step hstep).2) _ _
    rw [currentAfter, exchangeAfter_of_pass hpass, serveReady_of_no_failure hpass hfailure]
    refine ⟨_, rfl, congrArg (· ++ _) hheaders, ?_, ?_⟩
    · exact Handler.tame_finish (p.handle request) (p.desk request mint) htame hname hspares
    · intro transcript htranscript
      cases htranscript
      exact Handler.last_transcript _ _ _
  · rw [currentAfter, exchangeAfter_of_not_pass hpass, serveReady_of_not_pass hpass]
    refine ⟨_, rfl, rfl, htame, ?_⟩
    intro transcript htranscript
    cases htranscript

/-- What a client that follows the jar at the end of a request holds decodes to the current
token. -/
theorem readAll_setCookies_exchangeAfter {steps : List Step}
    (hname : Cookie.CleanName p.policy.tokenCookieName)
    (hbrings : Client.Brings p.policy.tokenCookieName held request)
    (htame : (p.exchangeAfter request steps mint).jar.Tame p.policy.tokenCookieName
      ((Jar.ofRequest request).received? p.policy.tokenCookieName)) :
    (Client.readAll p.policy.tokenCookieName held
      (p.exchangeAfter request steps mint).jar.setCookies).bind Percent.decode? =
        (p.currentAfter request steps mint).toOption := by
  have hheld := htame.received_eq.trans (hbrings.get?_ofRequest hname)
  rw [Client.readAll_bind_decode? htame.changes hheld]
  exact ((p.handle request).toOption_current _).symm

/-- The current token at the end of a request tells what the client will hold, whether or not the
guard lets the request pass. Let a request spell the name of the token cookie at most once, so that
it brings what some client holds, and let the handler, if it runs, spare this cookie. If the client
does what the answer says of the cookie and a later request brings the result, then that request is
received with the token that was current, and with none if there was none. The answer sets the
cookie at most once. -/
theorem current_tells_next_received (p : Protection) (request : Http.Request)
    (application : Application) (mint : Mint)
    (hname : Cookie.CleanName p.policy.tokenCookieName)
    (hready : application.readyError = none)
    (hspelled : Cookie.SpelledOnce p.policy.tokenCookieName request)
    (hsteps : p.Admissible request →
      ∀ step ∈ application.steps, step.Spares p.policy.tokenCookieName) :
    (∃ held, Client.Brings p.policy.tokenCookieName held request) ∧
      ∃ response current, (p.serve request application mint).1 = .responded response ∧
        current = p.currentAfter request application.steps mint ∧
        (∀ transcript, response.transcript = some transcript → transcript.last = some current) ∧
        (∀ held next, Client.Brings p.policy.tokenCookieName held request →
          Client.Brings p.policy.tokenCookieName
            (Client.readAll p.policy.tokenCookieName held response.setCookies) next →
          (p.handle next).received = current.toOption ∧
            ((p.handle next).received = none ↔ current = .error .noCookie)) ∧
        (response.setCookies.filter (SetCookie.isNamed p.policy.tokenCookieName)).length ≤ 1 := by
  refine ⟨Client.exists_brings hspelled, ?_⟩
  obtain ⟨response, hanswer, hcookies, htame, hlast⟩ :=
    p.exists_response_of_spares application mint hname hready hsteps
  refine ⟨response, _, hanswer, rfl, hlast, ?_, ?_⟩
  · intro held next hbrings hnext
    have hreceived : (p.handle next).received =
        (p.currentAfter request application.steps mint).toOption := by
      rw [received_handle, hnext.get?_ofRequest hname, hcookies,
        readAll_setCookies_exchangeAfter hname hbrings htame]
    refine ⟨hreceived, ?_⟩
    rw [hreceived]
    exact Handle.toOption_current_eq_none_iff
  · rw [hcookies]
    exact Client.length_filter_isNamed_le_one fun change hchange =>
      (htame.changes change hchange).toLegible

end Protection

/-! ## A logout -/

namespace Sample

theorem spelledOnce_echoingRequest : Cookie.SpelledOnce "t" echoingRequest :=
  sends_echoingRequest.spelledOnce cleanName fun _ => plain_token.of_held

theorem brings_echoingRequest : Client.Brings "t" (some token.text) echoingRequest :=
  sends_echoingRequest.brings cleanName fun _ => plain_token.of_held

theorem spares_logout : ∀ step ∈ [Step.set "bob", .cookieAdd "u" "1", .reset],
    step.Spares "t" := by
  simp only [List.forall_mem_cons]
  exact ⟨trivial, ⟨Cookie.cleanName_of_digits (by decide) (by decide), by decide⟩, trivial,
    fun _ h => by cases h⟩

end Sample

namespace Protection

/-- In the sample run a client posts its token to a handler that binds a new token to bob, sets a
cookie of its own and resets the token. The client drops its cookie, and the next request that
brings what it holds is received without a token. -/
theorem reset_token_dropped :
    Cookie.SpelledOnce "t" Sample.echoingRequest ∧
      Client.Brings "t" (some Sample.token.text) Sample.echoingRequest ∧
      ∃ response, (Sample.protection.serve Sample.echoingRequest
          ⟨none, [.set "bob", .cookieAdd "u" "1", .reset]⟩ Mint.fresh).1 = .responded response ∧
        Client.Brings "t" (Client.readAll "t" (some Sample.token.text) response.setCookies)
          Sample.openingRequest ∧
        (Sample.protection.handle Sample.openingRequest).received = none := by
  have hadmissible : Sample.protection.Admissible Sample.echoingRequest :=
    .inr (.inr ⟨Sample.key, Sample.token.text, Sample.echoed⟩)
  have hcurrent : Sample.protection.currentAfter Sample.echoingRequest
      [.set "bob", .cookieAdd "u" "1", .reset] Mint.fresh = .error .noCookie :=
    currentAfter_of_pass (decision_eq_pass_iff_admissible.2 hadmissible)
  obtain ⟨-, response, current, hanswer, hat, -, hnext, -⟩ := current_tells_next_received
    Sample.protection Sample.echoingRequest ⟨none, [.set "bob", .cookieAdd "u" "1", .reset]⟩
    Mint.fresh Sample.cleanName rfl Sample.spelledOnce_echoingRequest
    fun _ => Sample.spares_logout
  obtain ⟨_, hanswer', hcookies, htame, -⟩ :=
    Sample.protection.exists_response_of_spares
      ⟨none, [.set "bob", .cookieAdd "u" "1", .reset]⟩ Mint.fresh Sample.cleanName rfl
      fun _ => Sample.spares_logout
  obtain rfl := Answer.responded.inj (hanswer.symm.trans hanswer')
  have hheld := readAll_setCookies_exchangeAfter Sample.cleanName Sample.brings_echoingRequest htame
  rw [hcurrent, ← hcookies] at hheld
  have hbrings : Client.Brings "t"
      (Client.readAll "t" (some Sample.token.text) response.setCookies) Sample.openingRequest :=
    Client.brings_of_no_piece rfl hheld
  obtain ⟨-, hnone⟩ := hnext _ Sample.openingRequest Sample.brings_echoingRequest hbrings
  exact ⟨Sample.spelledOnce_echoingRequest, Sample.brings_echoingRequest, response, hanswer,
    hbrings, hnone.2 (hat.trans hcurrent)⟩

end Protection

end DoubleSubmit
