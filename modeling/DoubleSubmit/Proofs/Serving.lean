import DoubleSubmit.Protection

/-! What serving comes to. A request that the application is ready for either passes the guard,
and then the handler runs on what the layer left (`serveReady_of_pass`), or is refused
(`serveReady_of_not_pass`); the guard has no third way behind the layer. A run serves each visit
from the state that the ones before it left (`getElem?_run`). -/

namespace DoubleSubmit

/-- Whether the handler ran. -/
def Answer.reached : Answer → Bool
  | .notReady _ => false
  | .failed _ _ => true
  | .responded response => response.transcript.isSome

@[simp] theorem Answer.reached_withSetCookies (answer : Answer) (more : List String) :
    (answer.withSetCookies more).reached = answer.reached := by
  cases answer <;> rfl

theorem Answer.ofSteps_of_failure {handle : Option Handle} {desk : Desk} {steps : List Step}
    {message : String} (h : (Handler.finish handle desk steps).failure = some message) :
    ofSteps handle desk steps = .failed message (Handler.transcript handle desk steps) := by
  rw [ofSteps, h]

theorem Answer.ofSteps_of_no_failure {handle : Option Handle} {desk : Desk} {steps : List Step}
    (h : (Handler.finish handle desk steps).failure = none) : ofSteps handle desk steps =
      .responded (.ofDesk (Handler.finish handle desk steps)
        (Handler.transcript handle desk steps)) := by
  rw [ofSteps, h]

theorem Answer.reached_ofSteps (handle : Option Handle) (desk : Desk) (steps : List Step) :
    (Answer.ofSteps handle desk steps).reached = true := by
  cases h : (Handler.finish handle desk steps).failure with
  | some => rw [ofSteps_of_failure h]; rfl
  | none => rw [ofSteps_of_no_failure h]; rfl

/-! ## What the steps of a handler add up to -/

/-- The text with which a step sets a cookie in the handler's own answer; one that no header can
carry is left out. -/
def Step.setCookie? : Step → Option String
  | setCookieHeader value => if Http.HeaderValue.canCarry value then some value else none
  | _ => none

/-- What a step makes the handler fail with. -/
def Step.failure? : Step → Option String
  | fail message => some message
  | _ => none

theorem Step.headers_act (step : Step) (handle : Option Handle) (desk : Desk) :
    (step.act handle desk).headers = desk.headers ++ step.setCookie?.toList := by
  cases step with
  | setCookieHeader value =>
    rw [act, setCookie?]
    split
    · rfl
    · exact (List.append_nil _).symm
  | set | reset => cases handle <;> exact (List.append_nil _).symm
  | _ => exact (List.append_nil _).symm

theorem Step.failure_act (step : Step) (handle : Option Handle) (desk : Desk) :
    (step.act handle desk).failure = step.failure?.or desk.failure := by
  cases step with
  | setCookieHeader value =>
    rw [act]
    split <;> rfl
  | set | reset => cases handle <;> rfl
  | _ => rfl

namespace Handler

/-- What holds of a desk, and stays true at every step, holds of it when the handler is done. -/
theorem finish_induction {P : Desk → Prop} {handle : Option Handle} {steps : List Step}
    (h : ∀ step ∈ steps, ∀ desk, P desk → P (step.act handle desk)) {desk : Desk}
    (hdesk : P desk) : P (finish handle desk steps) :=
  List.foldlRecOn steps _ hdesk fun desk hdesk step hstep => h step hstep desk hdesk

/-- What no step changes is the same when the handler is done. -/
theorem finish_eq_of_act {β : Type} (part : Desk → β) {handle : Option Handle} {steps : List Step}
    (h : ∀ step ∈ steps, ∀ desk, part (step.act handle desk) = part desk) (desk : Desk) :
    part (finish handle desk steps) = part desk :=
  finish_induction (P := fun desk' => part desk' = part desk)
    (fun step hstep desk' => (h step hstep desk').trans) rfl

/-- The answer of a handler sets the cookies that its steps set there, in their order. -/
theorem headers_finish (handle : Option Handle) (desk : Desk) (steps : List Step) :
    (finish handle desk steps).headers = desk.headers ++ steps.filterMap Step.setCookie? := by
  induction steps generalizing desk with
  | nil => exact (List.append_nil _).symm
  | cons step steps ih =>
    refine (ih (step.act handle desk)).trans ?_
    rw [step.headers_act, List.append_assoc]
    cases h : step.setCookie? <;> simp [h]

/-- A handler fails with what the last of its steps that fails says. -/
theorem failure_finish (handle : Option Handle) (desk : Desk) (steps : List Step) :
    (finish handle desk steps).failure =
      (steps.filterMap Step.failure?).getLast?.or desk.failure := by
  induction steps generalizing desk with
  | nil => rfl
  | cons step steps ih =>
    refine (ih (step.act handle desk)).trans ?_
    rw [step.failure_act, ← Option.or_assoc]
    cases h : step.failure? with
    | none => simp [h]
    | some message => rw [List.filterMap_cons_some h, List.getLast?_cons]; simp

theorem headers_finish_eq_self {steps : List Step} (h : ∀ step ∈ steps, step.setCookie? = none)
    (handle : Option Handle) (desk : Desk) : (finish handle desk steps).headers = desk.headers := by
  rw [headers_finish, List.filterMap_eq_nil_iff.2 h, List.append_nil]

theorem failure_finish_eq_self {steps : List Step} (h : ∀ step ∈ steps, step.failure? = none)
    (handle : Option Handle) (desk : Desk) : (finish handle desk steps).failure = desk.failure := by
  rw [failure_finish, List.filterMap_eq_nil_iff.2 h]
  rfl

end Handler

namespace Handle

theorem isStale_eq_false_iff {handle : Handle} : handle.isStale = false ↔
    ∃ text, handle.received = some text ∧
      Verdict.accepts handle.policy.secret text handle.session := by
  unfold isStale
  cases handle.received <;> simp

end Handle

namespace Guard

/-- Behind a handle the guard passes or forbids. -/
theorem decision_some (handle : Handle) (request : Http.Request) :
    decision (some handle) request =
      if request.method.isGuarded = false ∨ handle.policy.isExempt request.path ∨
        echoes handle request then .pass else .forbid := by
  unfold decision Handle.extract
  cases request.method.isGuarded with
  | false => rfl
  | true =>
    simp only [Bool.not_true, Bool.false_eq_true, Bool.true_eq_false, if_false, false_or,
      Bool.or_eq_true]

theorem decision_eq_pass_iff {handle : Handle} {request : Http.Request} :
    decision (some handle) request = .pass ↔ request.method.isGuarded = false ∨
      handle.policy.isExempt request.path ∨ echoes handle request := by
  rw [decision_some]
  split <;> simp_all

theorem decision_eq_forbid_of_ne {handle : Handle} {request : Http.Request}
    (h : decision (some handle) request ≠ .pass) : decision (some handle) request = .forbid := by
  rw [decision_some] at *
  split at h
  · exact absurd rfl h
  · next hn => rw [if_neg hn]

end Guard

namespace Protection

variable (p : Protection) (request : Http.Request) (steps : List Step) (mint : Mint)

/-- The desk on which the handler of a request starts. -/
def desk : Desk := .opened (p.exchangeFor request mint)

/-- The desk when the handler of a request is done. -/
def finished : Desk := Handler.finish (some (p.handle request)) (p.desk request mint) steps

variable {p request steps mint}

theorem exchangeFor_of_isStale (h : (p.handle request).isStale) : p.exchangeFor request mint =
    (p.handle request).issue (p.provider.session request) ⟨Jar.ofRequest request, mint⟩ := by
  rw [exchangeFor]
  exact if_pos h

theorem exchangeFor_of_not_isStale (h : (p.handle request).isStale = false) :
    p.exchangeFor request mint = ⟨Jar.ofRequest request, mint⟩ := by
  rw [exchangeFor]
  exact if_neg (Bool.eq_false_iff.1 h)

theorem serveReady_of_pass (h : Guard.decision (some (p.handle request)) request = .pass) :
    p.serveReady request steps mint =
      ((Answer.ofSteps (some (p.handle request)) (p.desk request mint) steps).withSetCookies
          (p.finished request steps mint).exchange.jar.setCookies,
        (p.finished request steps mint).exchange.mint) := by
  rw [serveReady, Guard.serve, h]
  rfl

theorem serveReady_of_failure {message : String}
    (h : Guard.decision (some (p.handle request)) request = .pass)
    (hfailure : (p.finished request steps mint).failure = some message) :
    p.serveReady request steps mint = (.failed message
      (Handler.transcript (some (p.handle request)) (p.desk request mint) steps),
        (p.finished request steps mint).exchange.mint) := by
  rw [serveReady_of_pass h, Answer.ofSteps_of_failure hfailure]
  rfl

theorem serveReady_of_no_failure
    (h : Guard.decision (some (p.handle request)) request = .pass)
    (hfailure : (p.finished request steps mint).failure = none) :
    p.serveReady request steps mint = (.responded
      ⟨(p.finished request steps mint).status, Response.handledBody,
        (p.finished request steps mint).headers ++
          (p.finished request steps mint).exchange.jar.setCookies,
        some (Handler.transcript (some (p.handle request)) (p.desk request mint) steps)⟩,
      (p.finished request steps mint).exchange.mint) := by
  rw [serveReady_of_pass h, Answer.ofSteps_of_no_failure hfailure]
  rfl

theorem serveReady_of_not_pass (h : Guard.decision (some (p.handle request)) request ≠ .pass) :
    p.serveReady request steps mint =
      (.responded (Response.forbidden.withSetCookies (p.exchangeFor request mint).jar.setCookies),
        (p.exchangeFor request mint).mint) := by
  rw [serveReady, Guard.serve, Guard.decision_eq_forbid_of_ne h]
  rfl

theorem reached_serveReady_iff : (p.serveReady request steps mint).1.reached ↔
    Guard.decision (some (p.handle request)) request = .pass := by
  constructor
  · intro h
    refine Decidable.byContradiction fun hd => ?_
    rw [serveReady_of_not_pass hd] at h
    cases h
  · intro h
    rw [serveReady_of_pass h, Answer.reached_withSetCookies, Answer.reached_ofSteps]

theorem serve_of_ready {application : Application} (h : application.readyError = none) :
    p.serve request application mint = p.serveReady request application.steps mint := by
  rw [serve, h]

/-- A guarded request that is not exempt reaches its handler exactly if the text that it echoes is
the one received, and is accepted for its session. -/
theorem reached_serve_iff_accepts {application : Application}
    (hready : application.readyError = none) (hguarded : request.method.isGuarded)
    (hexempt : p.policy.isExempt request.path = false) (mint : Mint) :
    (p.serve request application mint).1.reached ↔
      ∃ text, Guard.submitted? p.policy request = some text ∧
        (p.handle request).received = some text ∧
        Verdict.accepts p.policy.secret text (p.provider.session request) := by
  rw [serve_of_ready hready, reached_serveReady_iff, Guard.decision_eq_pass_iff, Guard.echoes,
    Option.any_eq_true]
  constructor
  · rintro (hmethod | hpath | ⟨text, htext, hverify⟩)
    · rw [hguarded] at hmethod
      cases hmethod
    · exact absurd hpath (Bool.eq_false_iff.1 hexempt)
    · exact ⟨text, htext, Handle.verify_iff.1 hverify⟩
  · rintro ⟨text, htext, hverify⟩
    exact .inr (.inr ⟨text, htext, Handle.verify_iff.2 hverify⟩)

theorem visit_of_check {visit : Visit} (h : visit.draft.check = .ok request) :
    p.visit visit mint = (.ok (p.serve request visit.application mint).1,
      (p.serve request visit.application mint).2) := by
  rw [Protection.visit, h]

theorem visit_eq_ok_iff {visit : Visit} {answer : Answer} :
    (p.visit visit mint).1 = .ok answer ↔ ∃ request, visit.draft.check = .ok request ∧
      (p.serve request visit.application mint).1 = answer := by
  cases hcheck : visit.draft.check with
  | error => simp [Protection.visit, hcheck]
  | ok request => simp [visit_of_check hcheck]

/-! ## Runs -/

theorem run_cons (visit : Visit) (visits : List Visit) (mint : Mint) :
    p.run (visit :: visits) mint =
      ((p.visit visit mint).1 :: (p.run visits (p.visit visit mint).2).1,
        (p.run visits (p.visit visit mint).2).2) :=
  rfl

theorem run_append (visits more : List Visit) (mint : Mint) :
    p.run (visits ++ more) mint =
      ((p.run visits mint).1 ++ (p.run more (p.run visits mint).2).1,
        (p.run more (p.run visits mint).2).2) := by
  induction visits generalizing mint with
  | nil => rfl
  | cons visit visits ih =>
    simp only [List.cons_append, run, ih]

theorem run_snd_concat (visits : List Visit) (visit : Visit) (mint : Mint) :
    (p.run (visits ++ [visit]) mint).2 = (p.visit visit (p.run visits mint).2).2 := by
  rw [run_append]
  rfl

theorem run_snd_take_succ {visits : List Visit} {i : Nat} {visit : Visit}
    (hvisit : visits[i]? = some visit) (mint : Mint) :
    (p.run (visits.take (i + 1)) mint).2 = (p.visit visit (p.run (visits.take i) mint).2).2 := by
  have htake : visits.take (i + 1) = visits.take i ++ [visit] := by
    rw [List.take_add_one, hvisit]
    rfl
  rw [htake, run_snd_concat]

theorem getElem?_run (visits : List Visit) (mint : Mint) (i : Nat) :
    (p.run visits mint).1[i]? =
      visits[i]?.map fun visit => (p.visit visit (p.run (visits.take i) mint).2).1 := by
  induction visits generalizing mint i with
  | nil => rfl
  | cons visit visits ih =>
    cases i with
    | zero => rfl
    | succ i => exact ih _ i

end Protection

end DoubleSubmit
