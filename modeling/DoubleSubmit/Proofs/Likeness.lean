import DoubleSubmit.Proofs.Draft
import DoubleSubmit.Proofs.Issuance
import Mathlib.Data.List.Forall2

/-! Runs that look alike. An answer tells of a secret and of sessions only what signatures tell. So
if two protections differ only in their secrets and their ways to find sessions, and no signature
tells a session of one run from the session of the other, then alike visits get the same answers
(`Protection.Alike.run`). The proof goes through a request in the order in which it is served: one
step of a handler, the whole handler, the guard, the layer, and then the run. -/

namespace DoubleSubmit

/-! ## What is alike -/

/-- Two policies that differ at most in the secret, which both or none of them have, and whose
signatures do not tell related sessions apart. -/
structure Policy.Alike (same : String → String → Prop) (policy policy' : Policy) : Prop where
  eq_but_secret : policy' = { policy with secret := policy'.secret }
  isSome_secret : policy'.secret.isSome = policy.secret.isSome
  signatureFor_eq : ∀ {session session'}, same session session' → ∀ random,
    Token.signatureFor policy'.secret session' random =
      Token.signatureFor policy.secret session random

structure Handle.Alike (same : String → String → Prop) (handle handle' : Handle) : Prop where
  policy : handle.policy.Alike same handle'.policy
  entropy_eq : handle'.entropy = handle.entropy
  session : same handle.session handle'.session
  received_eq : handle'.received = handle.received

/-- Two steps that are the same, but for the sessions that they bind new tokens to. -/
inductive Step.Alike (same : String → String → Prop) : Step → Step → Prop
  | set {session session'} (h : same session session') : Alike same (.set session) (.set session')
  | other {step} (h : step.rebinds? = none) : Alike same step step

/-- Two exchanges with the same cookies, the same part of the entropy being used up. -/
structure Exchange.Alike (exchange exchange' : Exchange) : Prop where
  jar_eq : exchange'.jar = exchange.jar
  drawn_eq : exchange'.mint.drawn = exchange.mint.drawn

structure Desk.Alike (desk desk' : Desk) : Prop where
  exchange : desk.exchange.Alike desk'.exchange
  status_eq : desk'.status = desk.status
  headers_eq : desk'.headers = desk.headers
  failure_eq : desk'.failure = desk.failure

namespace Policy.Alike

variable {same : String → String → Prop} {policy policy' : Policy} {session session' : String}

theorem refl (policy : Policy) : policy.Alike Eq policy where
  eq_but_secret := rfl
  isSome_secret := rfl
  signatureFor_eq hsame random := by rw [hsame]

theorem of_secret_eq_none (h : policy.secret = none) : policy.Alike same policy where
  eq_but_secret := rfl
  isSome_secret := rfl
  signatureFor_eq _ random := by rw [h]; rfl

theorem cookie_eq (h : policy.Alike same policy') (value : String) :
    policy'.cookie value = policy.cookie value := by
  rw [h.eq_but_secret]
  rfl

theorem tokenCookieName_eq (h : policy.Alike same policy') :
    policy'.tokenCookieName = policy.tokenCookieName := by
  rw [h.eq_but_secret]
  rfl

theorem headerName_eq (h : policy.Alike same policy') : policy'.headerName = policy.headerName := by
  rw [h.eq_but_secret]

theorem isExempt_eq (h : policy.Alike same policy') (path : String) :
    policy'.isExempt path = policy.isExempt path := by
  rw [h.eq_but_secret]
  rfl

theorem size_eq (h : policy.Alike same policy') : policy'.issuer.size = policy.issuer.size := by
  rw [h.eq_but_secret]
  rfl

theorem token_eq (h : policy.Alike same policy') (hsame : same session session')
    (bytes : List UInt8) :
    policy'.issuer.token session' bytes = policy.issuer.token session bytes :=
  congrArg (Token.mk · _) (h.signatureFor_eq hsame _)

/-- A text is worth the same under both policies. -/
theorem judge_eq (h : policy.Alike same policy') (hsame : same session session') (text : String) :
    Verdict.judge policy'.secret text session' = Verdict.judge policy.secret text session := by
  have hsome := h.isSome_secret
  have hsignature := h.signatureFor_eq hsame
  unfold Verdict.judge
  cases Token.ofText? text with
  | none => rfl
  | some token =>
    cases hsecret : policy.secret with
    | none =>
      rw [hsecret, Option.isSome_none, Option.isSome_eq_false_iff, Option.isNone_iff_eq_none]
        at hsome
      rw [hsome]
    | some key =>
      rw [hsecret] at hsome hsignature
      obtain ⟨key', hsecret'⟩ := Option.isSome_iff_exists.1 hsome
      rw [hsecret'] at hsignature ⊢
      have hsign : key'.sign (Payload.text session' token.random) =
          key.sign (Payload.text session token.random) := hsignature token.random
      simp only [hsign]

theorem accepts_eq (h : policy.Alike same policy') (hsame : same session session')
    (text : String) :
    Verdict.accepts policy'.secret text session' = Verdict.accepts policy.secret text session :=
  congrArg Verdict.isAccepted (h.judge_eq hsame text)

end Policy.Alike

theorem Step.Alike.refl (step : Step) : step.Alike Eq step := by
  cases step with
  | set session => exact .set rfl
  | _ => exact .other rfl

theorem Desk.Alike.opened {exchange exchange' : Exchange} (h : exchange.Alike exchange') :
    (Desk.opened exchange).Alike (Desk.opened exchange') :=
  ⟨h, rfl, rfl, rfl⟩

theorem Desk.Alike.withJar {desk desk' : Desk} (h : desk.Alike desk') (change : Jar → Jar) :
    (desk.withJar change).Alike (desk'.withJar change) where
  exchange := ⟨congrArg change h.exchange.jar_eq, h.exchange.drawn_eq⟩
  status_eq := h.status_eq
  headers_eq := h.headers_eq
  failure_eq := h.failure_eq

/-! ## Handlers -/

section

variable {same : String → String → Prop} {handle handle' : Handle} {desk desk' : Desk}

namespace Handle.Alike

variable (h : handle.Alike same handle')
include h

theorem current_eq (jar : Jar) : handle'.current jar = handle.current jar := by
  rw [current, current, h.policy.tokenCookieName_eq]

theorem verify_eq (text : String) : handle'.verify text = handle.verify text := by
  simp only [verify, h.received_eq, h.policy.accepts_eq h.session]

theorem isStale_eq : handle'.isStale = handle.isStale := by
  simp only [isStale, h.received_eq, h.policy.accepts_eq h.session]

theorem issue {exchange exchange' : Exchange} (hexchange : exchange.Alike exchange')
    {session session' : String} (hsame : same session session') :
    (handle.issue session exchange).Alike (handle'.issue session' exchange') := by
  -- Both tokens are made over the same window, and their signatures do not differ.
  have htoken : exchange'.mint.next handle'.policy.issuer handle'.entropy session' =
      exchange.mint.next handle.policy.issuer handle.entropy session := by
    rw [Mint.next, Mint.next, h.entropy_eq, hexchange.drawn_eq, h.policy.size_eq]
    exact h.policy.token_eq hsame _
  constructor
  · rw [Handle.issue, Handle.issue, htoken, hexchange.jar_eq, h.policy.cookie_eq]
  · rw [Handle.issue, Handle.issue, Mint.drawn_issue, Mint.drawn_issue, hexchange.drawn_eq,
      h.policy.size_eq]

theorem reply_eq (hdesk : desk.Alike desk') {step step' : Step} (hstep : step.Alike same step') :
    step'.reply (some handle') desk' = step.reply (some handle) desk := by
  have hjar := hdesk.exchange.jar_eq
  cases hstep with
  | set hsame => rfl
  | other hother =>
    cases step with
    | get | extract =>
      simp only [Step.reply, Reply.withHandle, Handle.extract, hjar, h.current_eq]
    | verify submitted =>
      cases submitted <;>
        simp only [Step.reply, Reply.withHandle, hjar, h.current_eq, h.verify_eq]
    | cookieList => simp only [Step.reply, hjar]
    | _ => rfl

theorem act (hdesk : desk.Alike desk') {step step' : Step} (hstep : step.Alike same step') :
    (step.act (some handle) desk).Alike (step'.act (some handle') desk') := by
  cases hstep with
  | set hsame =>
    exact ⟨h.issue hdesk.exchange hsame, hdesk.status_eq, hdesk.headers_eq, hdesk.failure_eq⟩
  | other hother =>
    cases step with
    | set => cases hother
    | reset =>
      have hreset : handle'.reset = handle.reset :=
        funext fun jar => congrArg jar.remove (h.policy.cookie_eq "")
      simp only [Step.act, hreset]
      exact hdesk.withJar _
    | cookieAdd | cookieRemove =>
      simp only [Step.act]
      exact hdesk.withJar _
    | status =>
      exact ⟨hdesk.exchange, rfl, hdesk.headers_eq, hdesk.failure_eq⟩
    | setCookieHeader value =>
      simp only [Step.act]
      split
      · exact ⟨hdesk.exchange, hdesk.status_eq, congrArg (· ++ [value]) hdesk.headers_eq,
          hdesk.failure_eq⟩
      · exact hdesk
    | fail =>
      exact ⟨hdesk.exchange, hdesk.status_eq, hdesk.headers_eq, rfl⟩
    | _ => exact hdesk

/-- Alike handlers leave alike what a request is served with. -/
theorem finish (hdesk : desk.Alike desk') {steps steps' : List Step}
    (hsteps : List.Forall₂ (Step.Alike same) steps steps') :
    (Handler.finish (some handle) desk steps).Alike
      (Handler.finish (some handle') desk' steps') := by
  induction hsteps generalizing desk desk' with
  | nil => exact hdesk
  | cons hstep _ ih => exact ih (h.act hdesk hstep)

theorem current?_eq (hdesk : desk.Alike desk') :
    desk'.current? (some handle') = desk.current? (some handle) := by
  rw [Desk.current?, Desk.current?, hdesk.exchange.jar_eq]
  exact congrArg some (h.current_eq _)

theorem observe_eq (hdesk : desk.Alike desk') {steps steps' : List Step}
    (hsteps : List.Forall₂ (Step.Alike same) steps steps') :
    Handler.observe (some handle') desk' steps' = Handler.observe (some handle) desk steps := by
  induction hsteps generalizing desk desk' with
  | nil => rfl
  | @cons step step' _ _ hstep _ ih =>
    have hname : step'.name = step.name := by cases hstep <;> rfl
    have hact := h.act hdesk hstep
    rw [Handler.observe, Handler.observe, ih hact, h.current?_eq hact, h.reply_eq hdesk hstep,
      hname]

/-- Alike handlers give the same answer. -/
theorem ofSteps_eq (hdesk : desk.Alike desk') {steps steps' : List Step}
    (hsteps : List.Forall₂ (Step.Alike same) steps steps') :
    Answer.ofSteps (some handle') desk' steps' = Answer.ofSteps (some handle) desk steps := by
  have hfinish := h.finish hdesk hsteps
  rw [Answer.ofSteps, Answer.ofSteps, Handler.transcript, Handler.transcript,
    h.observe_eq hdesk hsteps, h.current?_eq hdesk, hfinish.failure_eq, Response.ofDesk,
    Response.ofDesk, hfinish.status_eq, hfinish.headers_eq]

end Handle.Alike

end

/-! ## Requests -/

/-- Two protections with alike policies and the same entropy. -/
structure Protection.Alike (same : String → String → Prop) (p p' : Protection) : Prop where
  policy : p.policy.Alike same p'.policy
  entropy_eq : p'.entropy = p.entropy

/-- Two requests that are alike to two protections: the sessions are related, and what else is
looked at is the same, which is the method, the path, the cookies and the echoing header. -/
structure Protection.RequestAlike (same : String → String → Prop) (p p' : Protection)
    (request request' : Http.Request) : Prop where
  method_eq : request'.method = request.method
  path_eq : request'.path = request.path
  cookies_eq : request'.headerValues .cookie = request.headerValues .cookie
  submitted_eq : request'.plainHeader? p.policy.headerName =
    request.plainHeader? p.policy.headerName
  session : same (p.provider.session request) (p'.provider.session request')

/-- Two drafts checked: they have the same fault, or they are requests that are alike. -/
inductive Protection.CheckedAlike (same : String → String → Prop) (p p' : Protection) :
    Except Http.Request.Fault Http.Request → Except Http.Request.Fault Http.Request → Prop
  | fault (fault) : CheckedAlike same p p' (.error fault) (.error fault)
  | request {request request'} (h : p.RequestAlike same p' request request') :
    CheckedAlike same p p' (.ok request) (.ok request')

structure Application.Alike (same : String → String → Prop)
    (application application' : Application) : Prop where
  readyError_eq : application'.readyError = application.readyError
  steps : List.Forall₂ (Step.Alike same) application.steps application'.steps

/-- Two visits with alike drafts and alike applications. -/
structure Visit.Alike (same : String → String → Prop) (p p' : Protection) (visit visit' : Visit) :
    Prop where
  checked : p.CheckedAlike same p' visit.draft.check visit'.draft.check
  application : visit.application.Alike same visit'.application

theorem Application.Alike.refl (application : Application) : application.Alike Eq application :=
  ⟨rfl, List.forall₂_same.2 fun step _ => .refl step⟩

/-- A visit is the same to protections that find sessions in one way. -/
theorem Visit.Alike.of_provider_eq {p p' : Protection} (h : p'.provider = p.provider)
    (visit : Visit) : visit.Alike Eq p p' visit where
  checked := by
    cases visit.draft.check with
    | error fault => exact .fault fault
    | ok request => exact .request ⟨rfl, rfl, rfl, rfl, by rw [h]⟩
  application := .refl visit.application

theorem Visit.Alike.refl (p : Protection) (visit : Visit) : visit.Alike Eq p p visit :=
  .of_provider_eq rfl visit

namespace Protection

variable {same : String → String → Prop} {p p' : Protection} {request request' : Http.Request}
  {mint mint' : Mint}

/-- Drafts that differ in the session attached to them are alike if the sessions found are. -/
theorem CheckedAlike.withSession {draft : Http.Request.Draft} (h : draft.check = .ok request)
    (session session' : Option String) (hsame : same
      (p.provider.session { request with session := session })
      (p'.provider.session { request with session := session' })) :
    p.CheckedAlike same p' { draft with session := session }.check
      { draft with session := session' }.check := by
  rw [Http.Request.Draft.check_withSession h session,
    Http.Request.Draft.check_withSession h session']
  exact .request ⟨rfl, rfl, rfl, rfl, hsame⟩

theorem RequestAlike.jar_eq (h : p.RequestAlike same p' request request') :
    Jar.ofRequest request' = Jar.ofRequest request := by
  rw [Jar.ofRequest, Jar.ofRequest, Cookie.ofRequest, Cookie.ofRequest, Cookie.requestPieces,
    Cookie.requestPieces, h.cookies_eq]

namespace Alike

variable (h : p.Alike same p')
include h

theorem handle (hrequest : p.RequestAlike same p' request request') :
    (p.handle request).Alike same (p'.handle request') where
  policy := h.policy
  entropy_eq := h.entropy_eq
  session := hrequest.session
  received_eq := by
    rw [Protection.handle, Protection.handle, h.policy.tokenCookieName_eq, hrequest.jar_eq]

theorem decision_eq (hrequest : p.RequestAlike same p' request request') :
    Guard.decision (some (p'.handle request')) request' =
      Guard.decision (some (p.handle request)) request := by
  have hhandle := h.handle hrequest
  have hechoes : Guard.echoes (p'.handle request') request' =
      Guard.echoes (p.handle request) request := by
    have hsubmitted : Guard.submitted? p'.policy request' = Guard.submitted? p.policy request := by
      rw [Guard.submitted?, Guard.submitted?, h.policy.headerName_eq, hrequest.submitted_eq]
    have hverify : (p'.handle request').verify = (p.handle request).verify :=
      funext hhandle.verify_eq
    rw [Guard.echoes, Guard.echoes, hverify]
    exact congrArg (Option.any _) hsubmitted
  rw [Guard.decision_some, Guard.decision_some, hrequest.method_eq, hrequest.path_eq, hechoes,
    hhandle.policy.isExempt_eq]

theorem exchangeFor (hrequest : p.RequestAlike same p' request request')
    (hdrawn : mint'.drawn = mint.drawn) :
    (p.exchangeFor request mint).Alike (p'.exchangeFor request' mint') := by
  have hhandle := h.handle hrequest
  have hstart : Exchange.Alike ⟨Jar.ofRequest request, mint⟩ ⟨Jar.ofRequest request', mint'⟩ :=
    ⟨hrequest.jar_eq, hdrawn⟩
  have hstale := hhandle.isStale_eq
  cases hold : (p.handle request).isStale with
  | true =>
    rw [exchangeFor_of_isStale hold, exchangeFor_of_isStale (hstale.trans hold)]
    exact hhandle.issue hstart hrequest.session
  | false =>
    rw [exchangeFor_of_not_isStale hold, exchangeFor_of_not_isStale (hstale.trans hold)]
    exact hstart

theorem serveReady {steps steps' : List Step}
    (hrequest : p.RequestAlike same p' request request')
    (hsteps : List.Forall₂ (Step.Alike same) steps steps') (hdrawn : mint'.drawn = mint.drawn) :
    (p'.serveReady request' steps' mint').1 = (p.serveReady request steps mint).1 ∧
      (p'.serveReady request' steps' mint').2.drawn =
        (p.serveReady request steps mint).2.drawn := by
  -- The guard decides alike, so either both handlers run or both requests are refused.
  have hhandle := h.handle hrequest
  have hexchange := h.exchangeFor hrequest hdrawn
  have hdecision := h.decision_eq hrequest
  by_cases hpass : Guard.decision (some (p.handle request)) request = .pass
  · have hdesk : (p.desk request mint).Alike (p'.desk request' mint') := .opened hexchange
    have hfinished : (p.finished request steps mint).Alike (p'.finished request' steps' mint') :=
      hhandle.finish hdesk hsteps
    rw [serveReady_of_pass hpass, serveReady_of_pass (hdecision.trans hpass),
      hhandle.ofSteps_eq hdesk hsteps, hfinished.exchange.jar_eq]
    exact ⟨rfl, hfinished.exchange.drawn_eq⟩
  · have hpass' : Guard.decision (some (p'.handle request')) request' ≠ .pass :=
      fun h' => hpass (hdecision.symm.trans h')
    rw [serveReady_of_not_pass hpass, serveReady_of_not_pass hpass', hexchange.jar_eq]
    exact ⟨rfl, hexchange.drawn_eq⟩

theorem serve {application application' : Application}
    (hrequest : p.RequestAlike same p' request request')
    (happlication : application.Alike same application') (hdrawn : mint'.drawn = mint.drawn) :
    (p'.serve request' application' mint').1 = (p.serve request application mint).1 ∧
      (p'.serve request' application' mint').2.drawn =
        (p.serve request application mint).2.drawn := by
  rw [Protection.serve, Protection.serve, happlication.readyError_eq]
  cases application.readyError with
  | some message => exact ⟨rfl, hdrawn⟩
  | none => exact h.serveReady hrequest happlication.steps hdrawn

theorem visit {visit visit' : Visit} (hvisit : visit.Alike same p p' visit')
    (hdrawn : mint'.drawn = mint.drawn) :
    (p'.visit visit' mint').1 = (p.visit visit mint).1 ∧
      (p'.visit visit' mint').2.drawn = (p.visit visit mint).2.drawn := by
  obtain ⟨hchecked, happlication⟩ := hvisit
  rw [Protection.visit, Protection.visit]
  generalize visit.draft.check = checked, visit'.draft.check = checked' at hchecked
  cases hchecked with
  | fault fault => exact ⟨rfl, hdrawn⟩
  | request hrequest =>
    obtain ⟨hanswer, hdrawn'⟩ := h.serve hrequest happlication hdrawn
    exact ⟨congrArg Except.ok hanswer, hdrawn'⟩

/-- Alike visits get the same answers. -/
theorem run {visits visits' : List Visit}
    (hvisits : List.Forall₂ (Visit.Alike same p p') visits visits')
    (hdrawn : mint'.drawn = mint.drawn) :
    (p'.run visits' mint').1 = (p.run visits mint).1 ∧
      (p'.run visits' mint').2.drawn = (p.run visits mint).2.drawn := by
  induction hvisits generalizing mint mint' with
  | nil => exact ⟨rfl, hdrawn⟩
  | cons hvisit _ ih =>
    obtain ⟨hanswer, hdrawn'⟩ := h.visit hvisit hdrawn
    obtain ⟨hanswers, hdrawn''⟩ := ih hdrawn'
    refine ⟨?_, hdrawn''⟩
    rw [run_cons, run_cons, hanswer, hanswers]

end Alike

end Protection

end DoubleSubmit
