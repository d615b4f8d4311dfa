import DoubleSubmit.Proofs.Supply

/-! Handlers behind the protection and without it. The protection and the handler work on one jar,
but the protection changes no other cookie than the one of its token. So what a handler does has the
same outcome as if it were not protected at all, this cookie apart, if only the steps are left out
by which it changes its token (`Protection.leaves_all_but_token_cookie`). The two runs are compared
by what their jars agree on (`Jar.AgreeApart`), step by step and then to the end of the handler. -/

namespace DoubleSubmit

/-! ## Lists apart from a name -/

section

variable {α : Type} {xs : List α} {x : α}

theorem filter_filter_comm (keep keep' : α → Bool) (xs : List α) :
    (xs.filter keep).filter keep' = (xs.filter keep').filter keep := by
  simp only [List.filter_filter, Bool.and_comm]

variable {name : α → String} {n : String}

theorem filter_replaceNamed_of_eq (h : name x = n) :
    (replaceNamed name xs x).filter (name · != n) = xs.filter (name · != n) := by
  subst h
  simp [replaceNamed, List.filter_filter]

theorem filter_replaceNamed_of_ne (h : name x ≠ n) : (replaceNamed name xs x).filter (name · != n) =
    replaceNamed name (xs.filter (name · != n)) x := by
  have hx : [x].filter (name · != n) = [x] := by simp [h]
  rw [replaceNamed, replaceNamed, List.filter_append, filter_filter_comm, hx]

/-- What is kept of a list is found behind what is kept of the front before it. -/
theorem getElem?_filter_take {i : Nat} (hx : xs[i]? = some x) (keep : α → Bool) (hkeep : keep x) :
    (xs.filter keep)[((xs.take i).filter keep).length]? = some x ∧
      (xs.filter keep).take ((xs.take i).filter keep).length = (xs.take i).filter keep := by
  obtain ⟨hi, rfl⟩ := List.getElem?_eq_some_iff.1 hx
  have hsplit : xs.filter keep =
      (xs.take i).filter keep ++ xs[i] :: (xs.drop (i + 1)).filter keep := by
    rw [← List.filter_cons_of_pos hkeep, List.getElem_cons_drop, ← List.filter_append,
      List.take_append_drop]
  rw [hsplit]
  exact ⟨by simp, List.take_left⟩

end

/-! ## Jars that agree -/

/-- Two jars that were received with the same cookies and agree on all changes of other names. -/
structure Jar.AgreeApart (name : String) (jar jar' : Jar) : Prop where
  received_eq : jar'.received = jar.received
  changes_eq : jar'.changes.filter (·.name != name) = jar.changes.filter (·.name != name)

namespace Jar.AgreeApart

variable {name : String} {jar jar' : Jar}

theorem refl (name : String) (jar : Jar) : jar.AgreeApart name jar := ⟨rfl, rfl⟩

variable (h : jar.AgreeApart name jar')

include h

theorem record (change : CookieChange) :
    (jar.record change).AgreeApart name (jar'.record change) where
  received_eq := h.received_eq
  changes_eq := by
    by_cases hname : change.name = name
    · rw [Jar.record, Jar.record, filter_replaceNamed_of_eq hname, filter_replaceNamed_of_eq hname,
        h.changes_eq]
    · rw [Jar.record, Jar.record, filter_replaceNamed_of_ne hname, filter_replaceNamed_of_ne hname,
        h.changes_eq]

/-- A change of the name that is left apart may be made on one side only. -/
theorem record_left {change : CookieChange} (hname : change.name = name) :
    (jar.record change).AgreeApart name jar' where
  received_eq := h.received_eq
  changes_eq := by rw [Jar.record, filter_replaceNamed_of_eq hname, h.changes_eq]

theorem forget (other : String) : (jar.forget other).AgreeApart name (jar'.forget other) where
  received_eq := h.received_eq
  changes_eq := by
    rw [Jar.forget, Jar.forget, filter_filter_comm, h.changes_eq, filter_filter_comm]

theorem forget_left : (jar.forget name).AgreeApart name jar' where
  received_eq := h.received_eq
  changes_eq := by rw [Jar.forget, List.filter_filter, h.changes_eq]; simp

theorem add (cookie : Cookie) : (jar.add cookie).AgreeApart name (jar'.add cookie) :=
  h.record (.set cookie)

theorem add_left {cookie : Cookie} (hname : cookie.name = name) :
    (jar.add cookie).AgreeApart name jar' := by
  have hchange : (CookieChange.set cookie).name = name := hname
  exact h.record_left hchange

theorem remove (cookie : Cookie) : (jar.remove cookie).AgreeApart name (jar'.remove cookie) := by
  have hreceived : jar'.received? cookie.name = jar.received? cookie.name := by
    rw [received?, received?, h.received_eq]
  unfold Jar.remove
  rw [hreceived]
  split
  · exact h.record (.remove cookie)
  · exact h.forget cookie.name

theorem remove_left {cookie : Cookie} (hname : cookie.name = name) :
    (jar.remove cookie).AgreeApart name jar' := by
  have hchange : (CookieChange.remove cookie).name = name := hname
  unfold Jar.remove
  split
  · exact h.record_left hchange
  · rw [hname]
    exact h.forget_left

theorem change?_eq {other : String} (hne : other ≠ name) :
    jar'.change? other = jar.change? other := by
  have hforgotten (jar : Jar) : (jar.forget name).change? other = jar.change? other :=
    (change?_forget name other).trans (if_neg hne.symm)
  rw [← hforgotten jar, ← hforgotten jar']
  exact congrArg (List.find? fun change => change.name == other) h.changes_eq

theorem setCookiesOf_eq : jar'.setCookiesOf (· != name) = jar.setCookiesOf (· != name) := by
  rw [setCookiesOf, setCookiesOf, h.changes_eq]

/-- The cookies of other names are the same, in the same order. -/
theorem filter_toList_eq :
    jar'.toList.filter (·.1 != name) = jar.toList.filter (·.1 != name) := by
  have hchanged (changes : List CookieChange) :
      (changes.filterMap fun change => change.value?.map fun value => (change.name, value)).filter
          (·.1 != name) =
        (changes.filter (·.name != name)).filterMap fun change =>
          change.value?.map fun value => (change.name, value) := by
    rw [List.filter_filterMap, List.filterMap_filter]
    congr 1
    funext change
    cases change.value? <;> simp [Option.filter]
  have hkept : ∀ cookie ∈ jar.received, ((cookie.1 != name) && (jar'.change? cookie.1).isNone) =
      ((cookie.1 != name) && (jar.change? cookie.1).isNone) := by
    intro cookie _
    by_cases hname : cookie.1 = name
    · simp [hname]
    · rw [h.change?_eq hname]
  rw [toList, toList, List.filter_append, List.filter_append, hchanged, hchanged, h.changes_eq,
    List.filter_filter, List.filter_filter, h.received_eq, List.filter_congr hkept]

end Jar.AgreeApart

/-! ## Handlers that agree -/

/-- A step by which a handler changes its token through the handle. -/
def Step.changesToken : Step → Bool
  | set _ | reset => true
  | _ => false

/-- Two desks whose jars agree apart from a name, and that are the same in all that is answered. -/
structure Desk.AgreeApart (name : String) (desk desk' : Desk) : Prop where
  jar : desk.exchange.jar.AgreeApart name desk'.exchange.jar
  status_eq : desk'.status = desk.status
  headers_eq : desk'.headers = desk.headers
  failure_eq : desk'.failure = desk.failure

/-- The observations of a step that is taken in two runs. They are of one name, and of cookies both
list the same ones of other names. -/
structure Observation.AgreeApart (name : String) (step : Step)
    (observation observation' : Observation) : Prop where
  name_eq : observation.name = step.name
  name_eq' : observation'.name = step.name
  listed : step = .cookieList → ∃ list list', observation.reply = .cookies list ∧
    observation'.reply = .cookies list' ∧
      list'.filter (·.1 != name) = list.filter (·.1 != name)

/-- The transcripts of two runs, the second without the steps that change the token. The
observations of each other step agree. -/
def Transcript.AgreeApart (name : String) (steps : List Step)
    (transcript transcript' : Transcript) : Prop :=
  ∀ (i : Nat) (step : Step), steps[i]? = some step → step.changesToken = false →
    ∃ observation observation', transcript.observations[i]? = some observation ∧
      transcript'.observations[((steps.take i).filter (!·.changesToken)).length]? =
        some observation' ∧
      observation.AgreeApart name step observation'

namespace Desk.AgreeApart

variable {name : String} {desk desk' : Desk} (h : desk.AgreeApart name desk')

include h

theorem act {step : Step} (hstep : step.changesToken = false) (handle handle' : Option Handle) :
    (step.act handle desk).AgreeApart name (step.act handle' desk') := by
  cases step with
  | set | reset => cases hstep
  | cookieAdd other value => exact ⟨h.jar.add _, h.status_eq, h.headers_eq, h.failure_eq⟩
  | cookieRemove other => exact ⟨h.jar.remove _, h.status_eq, h.headers_eq, h.failure_eq⟩
  | status code => exact ⟨h.jar, rfl, h.headers_eq, h.failure_eq⟩
  | setCookieHeader value =>
    simp only [Step.act]
    split
    · exact ⟨h.jar, h.status_eq, congrArg (· ++ [value]) h.headers_eq, h.failure_eq⟩
    · exact h
  | fail message => exact ⟨h.jar, h.status_eq, h.headers_eq, rfl⟩
  | get | verify | extract | cookieList => exact h

/-- A change of the token is a change of its cookie. -/
theorem act_left {step : Step} (hstep : step.changesToken) {handle : Handle}
    (hname : handle.policy.tokenCookieName = name) :
    (step.act (some handle) desk).AgreeApart name desk' := by
  cases step with
  | set session => exact ⟨h.jar.add_left hname, h.status_eq, h.headers_eq, h.failure_eq⟩
  | reset => exact ⟨h.jar.remove_left hname, h.status_eq, h.headers_eq, h.failure_eq⟩
  | _ => cases hstep

/-- Two desks agree to the end of a handler, even if the one behind the second leaves the token as
it is. -/
theorem finish {handle : Handle} (hname : handle.policy.tokenCookieName = name)
    (steps : List Step) : (Handler.finish (some handle) desk steps).AgreeApart name
      (Handler.finish none desk' (steps.filter (!·.changesToken))) := by
  induction steps generalizing desk desk' with
  | nil => exact h
  | cons step steps ih =>
    cases hstep : step.changesToken with
    | true =>
      rw [List.filter_cons_of_neg (by simp [hstep])]
      exact ih (h.act_left hstep hname)
    | false =>
      rw [List.filter_cons_of_pos (by simp [hstep])]
      exact ih (h.act hstep (some handle) none)

theorem transcript {handle : Handle} (hname : handle.policy.tokenCookieName = name)
    (steps : List Step) : (Handler.transcript (some handle) desk steps).AgreeApart name steps
      (Handler.transcript none desk' (steps.filter (!·.changesToken))) := by
  intro i step hstep hkept
  have hbefore := h.finish hname (steps.take i)
  have hkeep : (!step.changesToken) = true := by rw [hkept]; rfl
  obtain ⟨hplace, hfront⟩ := getElem?_filter_take hstep (!·.changesToken) hkeep
  have hobservation := Handler.getElem?_observe (some handle) desk steps i
  have hobservation' := Handler.getElem?_observe none desk'
    (steps.filter (!·.changesToken)) ((steps.take i).filter (!·.changesToken)).length
  rw [hstep] at hobservation
  rw [hplace, hfront] at hobservation'
  refine ⟨_, _, hobservation, hobservation', rfl, rfl, ?_⟩
  rintro rfl
  exact ⟨_, _, rfl, rfl, hbefore.jar.filter_toList_eq⟩

end Desk.AgreeApart

/-! ## Answers that agree -/

/-- Two answers of handlers, the second of which leaves the token as it is. Either both pass one
failure on, or both are responses with one status and one body. These set first the cookies that the
handler sets itself, and then those of two jars, which are the same for all other cookies. -/
inductive Answer.AgreeApart (name : String) (steps : List Step) (jar jar' : Jar) :
    Answer → Answer → Prop
  | failed {transcript transcript' : Transcript} (message : String)
    (htranscript : transcript.AgreeApart name steps transcript') :
    AgreeApart name steps jar jar' (.failed message transcript) (.failed message transcript')
  | responded {transcript transcript' : Transcript} (status : Nat) (body : String)
    (htranscript : transcript.AgreeApart name steps transcript')
    (hcookies : jar'.setCookiesOf (· != name) = jar.setCookiesOf (· != name)) :
    AgreeApart name steps jar jar'
      (.responded ⟨status, body, steps.filterMap Step.setCookie? ++ jar.setCookies,
        some transcript⟩)
      (.responded ⟨status, body, steps.filterMap Step.setCookie? ++ jar'.setCookies,
        some transcript'⟩)

namespace Application

/-- The desk on which a handler starts that is not protected. It works on the cookies that the
request brought. -/
def desk (request : Http.Request) : Desk := .opened ⟨Jar.ofRequest request, Mint.fresh⟩

/-- The jar when a handler is done that is not protected. -/
def jarAfter (application : Application) (request : Http.Request) : Jar :=
  (Handler.finish none (desk request) application.steps).exchange.jar

/-- Serves a request without a protection. No handle is attached to the request, and the client is
told what became of the cookies. -/
def serve (application : Application) (request : Http.Request) : Answer :=
  match application.readyError with
  | some message => .notReady message
  | none =>
    (Answer.ofSteps none (desk request) application.steps).withSetCookies
      (application.jarAfter request).setCookies

/-- The application without the steps by which it changes its token. -/
def keepingToken (application : Application) : Application :=
  { application with steps := application.steps.filter (!·.changesToken) }

end Application

theorem Desk.AgreeApart.answer {name : String} {desk desk' : Desk} (h : desk.AgreeApart name desk')
    {handle : Handle} (hname : handle.policy.tokenCookieName = name) (hheaders : desk.headers = [])
    (steps : List Step) : Answer.AgreeApart name steps
      (Handler.finish (some handle) desk steps).exchange.jar
      (Handler.finish none desk' (steps.filter (!·.changesToken))).exchange.jar
      ((Answer.ofSteps (some handle) desk steps).withSetCookies
        (Handler.finish (some handle) desk steps).exchange.jar.setCookies)
      ((Answer.ofSteps none desk' (steps.filter (!·.changesToken))).withSetCookies
        (Handler.finish none desk' (steps.filter (!·.changesToken))).exchange.jar.setCookies) := by
  have hfinish := h.finish hname steps
  have htranscript := h.transcript hname steps
  cases hfailure : (Handler.finish (some handle) desk steps).failure with
  | some message =>
    rw [Answer.ofSteps_of_failure hfailure,
      Answer.ofSteps_of_failure (hfinish.failure_eq.trans hfailure)]
    exact .failed message htranscript
  | none =>
    have hown : (Handler.finish (some handle) desk steps).headers =
        steps.filterMap Step.setCookie? := by
      rw [Handler.headers_finish, hheaders, List.nil_append]
    rw [Answer.ofSteps_of_no_failure hfailure,
      Answer.ofSteps_of_no_failure (hfinish.failure_eq.trans hfailure), Response.ofDesk,
      Response.ofDesk, hfinish.status_eq, hfinish.headers_eq, hown]
    exact .responded _ _ htranscript hfinish.jar.setCookiesOf_eq

namespace Protection

variable {p : Protection} {request : Http.Request} {mint : Mint}

/-- The layer changes no other cookie than the one of the token. -/
theorem agreeApart_exchangeFor (p : Protection) (request : Http.Request) (mint : Mint) :
    (p.exchangeFor request mint).jar.AgreeApart p.policy.tokenCookieName
      (Jar.ofRequest request) := by
  have hstart := Jar.AgreeApart.refl p.policy.tokenCookieName (Jar.ofRequest request)
  cases hstale : (p.handle request).isStale with
  | true =>
    rw [exchangeFor_of_isStale hstale]
    exact hstart.add_left rfl
  | false =>
    rw [exchangeFor_of_not_isStale hstale]
    exact hstart

/-- A request that reaches its handler is answered as it is without the protection by the same
handler that leaves its token as it is, but for the cookie of the token. -/
theorem leaves_all_but_token_cookie (p : Protection) (request : Http.Request)
    (application : Application) (mint : Mint)
    (hreached : (p.serve request application mint).1.reached) :
    Answer.AgreeApart p.policy.tokenCookieName application.steps
      (p.exchangeAfter request application.steps mint).jar
      (application.keepingToken.jarAfter request)
      (p.serve request application mint).1 (application.keepingToken.serve request) := by
  cases hready : application.readyError with
  | some message =>
    rw [serve, hready] at hreached
    cases hreached
  | none =>
    rw [serve_of_ready hready] at hreached ⊢
    have hpass := reached_serveReady_iff.1 hreached
    have hdesk : (p.desk request mint).AgreeApart p.policy.tokenCookieName
        (Application.desk request) :=
      ⟨p.agreeApart_exchangeFor request mint, rfl, rfl, rfl⟩
    have hbare : application.keepingToken.serve request =
        (Answer.ofSteps none (Application.desk request)
          application.keepingToken.steps).withSetCookies
            (application.keepingToken.jarAfter request).setCookies := by
      rw [Application.serve, Application.keepingToken, hready]
    rw [serveReady_of_pass hpass, exchangeAfter_of_pass hpass, hbare]
    exact hdesk.answer rfl rfl application.steps

end Protection

/-! ## A cookie of the handler beside the token -/

namespace Sample

/-- An application that sets cookies around the changes of its token. -/
def busy : Application where
  readyError := none
  steps := [.cookieAdd "u" "1", .set "bob", .cookieList, .reset, .setCookieHeader "v=2",
    .status 201]

end Sample

theorem Answer.AgreeApart.exists_response {name : String} {steps : List Step} {jar jar' : Jar}
    {answer answer' : Answer} (h : AgreeApart name steps jar jar' answer answer')
    {response' : Response} (hresponse : answer' = .responded response') :
    ∃ response, answer = .responded response ∧ response.status = response'.status ∧
      response.setCookies = steps.filterMap Step.setCookie? ++ jar.setCookies ∧
      jar'.setCookiesOf (· != name) = jar.setCookiesOf (· != name) := by
  cases h with
  | failed => cases hresponse
  | responded status body htranscript hcookies =>
    cases hresponse
    exact ⟨_, rfl, rfl, rfl, hcookies⟩

namespace Protection

/-- On the opening of the sample run the layer issues a token, which the handler binds to bob and
resets. It sets a cookie of its own in the jar and another in its answer, and the client is told of
both as it is without the protection. -/
theorem cookies_told_beside_token :
    (Sample.protection.serve Sample.openingRequest Sample.busy Mint.fresh).1.reached ∧
      ∃ response response',
        (Sample.protection.serve Sample.openingRequest Sample.busy Mint.fresh).1 =
          .responded response ∧
        Sample.busy.keepingToken.serve Sample.openingRequest = .responded response' ∧
        response.status = 201 ∧ response'.status = 201 ∧
        "v=2" ∈ response.setCookies ∧ "u=1" ∈ response.setCookies ∧
        response'.setCookies = ["v=2", "u=1"] := by
  have hreached :
      (Sample.protection.serve Sample.openingRequest Sample.busy Mint.fresh).1.reached :=
    (reached_serve_iff rfl).2 (.inl (by decide))
  have hagree := leaves_all_but_token_cookie Sample.protection Sample.openingRequest Sample.busy
    Mint.fresh hreached
  obtain ⟨response, hresponse, hstatus, hcookies, hothers⟩ := hagree.exists_response rfl
  have hjar : "u=1" ∈ (Sample.busy.keepingToken.jarAfter Sample.openingRequest).setCookiesOf
      (· != Sample.protection.policy.tokenCookieName) := by decide +kernel
  refine ⟨hreached, response, _, hresponse, rfl, hstatus, rfl, ?_, ?_, by decide +kernel⟩
  · rw [hcookies]
    exact List.mem_append_left _ (by decide +kernel)
  · rw [hothers] at hjar
    rw [hcookies]
    exact List.mem_append_right _
      ((Jar.setCookies_perm _ _).mem_iff.2 (List.mem_append_left _ hjar))

end Protection

end DoubleSubmit
