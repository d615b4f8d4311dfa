import DoubleSubmit.Proofs.Serving

/-! Which tokens are issued. A mint is orderly when each of its issues is the token of its session
over a window of the entropy of its own (`Mint.Orderly`). Whatever happens to a mint is that tokens
are issued for a list of sessions, and for a request this list is its own session, if it needs a new
token, and then the sessions that its handler sets, if the guard lets it run
(`Protection.mint_run`). -/

namespace DoubleSubmit

namespace Mint

variable {issuer : Issuer} {entropy : Entropy} {mint : Mint}

theorem issueAll_append (mint : Mint) (issuer : Issuer) (entropy : Entropy)
    (front back : List String) : mint.issueAll issuer entropy (front ++ back) =
      (mint.issueAll issuer entropy front).issueAll issuer entropy back :=
  List.foldl_append

/-- The issues are tokens of their sessions over consecutive windows of the entropy. -/
structure Orderly (issuer : Issuer) (entropy : Entropy) (mint : Mint) : Prop where
  drawn_eq : mint.drawn = mint.issues.length * issuer.size.bytes
  token_eq : ∀ {j issue}, mint.issues[j]? = some issue → issue.token =
    issuer.token issue.session (entropy.window (j * issuer.size.bytes) issuer.size.bytes)

namespace Orderly

theorem fresh : Orderly issuer entropy fresh where
  drawn_eq := (Nat.zero_mul _).symm
  token_eq h := by cases h

theorem issue (h : Orderly issuer entropy mint) (session : String) :
    Orderly issuer entropy (mint.issue issuer entropy session) where
  drawn_eq := by
    rw [drawn_issue, issues_issue, List.length_append, List.length_singleton, Nat.succ_mul,
      h.drawn_eq]
  token_eq {j issue} hj := by
    rw [issues_issue] at hj
    rcases Nat.lt_or_ge j mint.issues.length with hlt | hge
    · rw [List.getElem?_append_left hlt] at hj
      exact h.token_eq hj
    · rw [List.getElem?_append_right hge, List.getElem?_singleton] at hj
      split at hj
      · next hlast =>
        have hj' : j = mint.issues.length := by omega
        cases hj
        rw [hj', ← h.drawn_eq]
        rfl
      · cases hj

theorem issueAll (h : Orderly issuer entropy mint) (sessions : List String) :
    Orderly issuer entropy (mint.issueAll issuer entropy sessions) := by
  induction sessions generalizing mint with
  | nil => exact h
  | cons session sessions ih => exact ih (h.issue session)

/-- Every issue carries the signature of its session and its random value, and that value is
base64 text. -/
theorem signed (h : Orderly issuer entropy mint) {issue : Issue} (hi : issue ∈ mint.issues) :
    issue.token = Token.signed issuer.secret issue.session issue.token.random ∧
      ∃ bytes, issue.token.random = Base64.urlSafe.encode bytes := by
  obtain ⟨j, hj⟩ := List.mem_iff_getElem?.1 hi
  have htoken := h.token_eq hj
  rw [htoken]
  exact ⟨rfl, _, rfl⟩

end Orderly

theorem issues_prefix_issueAll (mint : Mint) (issuer : Issuer) (entropy : Entropy)
    (sessions : List String) : mint.issues <+: (mint.issueAll issuer entropy sessions).issues := by
  induction sessions generalizing mint with
  | nil => exact List.prefix_refl _
  | cons session sessions ih =>
    exact (List.prefix_append _ _).trans (ih (mint.issue issuer entropy session))

theorem sessions_issueAll (mint : Mint) (issuer : Issuer) (entropy : Entropy)
    (sessions : List String) :
    (mint.issueAll issuer entropy sessions).issues.map Issue.session =
      mint.issues.map Issue.session ++ sessions := by
  induction sessions generalizing mint with
  | nil => exact (List.append_nil _).symm
  | cons session sessions ih =>
    have := ih (mint.issue issuer entropy session)
    rw [issues_issue, List.map_append, List.append_assoc] at this
    exact this

end Mint

/-- The session that a step binds a new token to. -/
def Step.rebinds? : Step → Option String
  | set session => some session
  | _ => none

theorem Step.rebinds?_eq_some_iff {step : Step} {session : String} :
    step.rebinds? = some session ↔ step = set session := by
  cases step <;> simp [rebinds?]

theorem Step.exchange_act_setCookieHeader (value : String) (handle : Option Handle) (desk : Desk) :
    ((setCookieHeader value).act handle desk).exchange = desk.exchange := by
  simp only [act]
  split <;> rfl

/-- A token that is issued is put into the token cookie. -/
theorem Handle.get?_issue (handle : Handle) (exchange : Exchange) (session : String) :
    (handle.issue session exchange).jar.get? handle.policy.tokenCookieName =
      some (exchange.mint.next handle.policy.issuer handle.entropy session).text := by
  rw [issue, Jar.get?_add]
  exact if_pos rfl

theorem Step.mint_act (step : Step) (handle : Handle) (desk : Desk) :
    (step.act (some handle) desk).exchange.mint =
      desk.exchange.mint.issueAll handle.policy.issuer handle.entropy step.rebinds?.toList := by
  cases step with
  | setCookieHeader value => rw [exchange_act_setCookieHeader]; rfl
  | _ => rfl

theorem Handler.mint_finish (handle : Handle) (desk : Desk) (steps : List Step) :
    (finish (some handle) desk steps).exchange.mint = desk.exchange.mint.issueAll
      handle.policy.issuer handle.entropy (steps.filterMap Step.rebinds?) := by
  induction steps generalizing desk with
  | nil => rfl
  | cons step steps ih =>
    have hstep := step.mint_act handle desk
    change (finish (some handle) (step.act (some handle) desk) steps).exchange.mint = _
    rw [ih, hstep, ← Mint.issueAll_append]
    congr 1
    cases h : step.rebinds? <;> simp [h]

namespace Protection

variable {p : Protection} {request : Http.Request} {steps : List Step} {mint : Mint}

/-- The sessions that tokens are issued for while a request is served, in order. -/
def issuedFor (p : Protection) (request : Http.Request) (steps : List Step) : List String :=
  (if (p.handle request).isStale then [p.provider.session request] else []) ++
    if Guard.decision (some (p.handle request)) request = .pass then
      steps.filterMap Step.rebinds?
    else []

/-- The sessions that tokens are issued for on a visit: none if it brings no request or the
application is not ready. -/
def issuedOn (p : Protection) (visit : Visit) : List String :=
  match visit.draft.check, visit.application.readyError with
  | .ok request, none => p.issuedFor request visit.application.steps
  | _, _ => []

theorem mint_exchangeFor : (p.exchangeFor request mint).mint = mint.issueAll p.policy.issuer
    p.entropy (if (p.handle request).isStale then [p.provider.session request] else []) := by
  split
  · next h => rw [exchangeFor_of_isStale h]; rfl
  · next h => rw [exchangeFor_of_not_isStale (Bool.eq_false_iff.2 h)]; rfl

theorem mint_serveReady : (p.serveReady request steps mint).2 =
    mint.issueAll p.policy.issuer p.entropy (p.issuedFor request steps) := by
  rw [issuedFor, Mint.issueAll_append, ← mint_exchangeFor]
  by_cases h : Guard.decision (some (p.handle request)) request = .pass
  · rw [serveReady_of_pass h, if_pos h]
    exact Handler.mint_finish _ _ _
  · rw [serveReady_of_not_pass h, if_neg h]
    rfl

theorem mint_visit (visit : Visit) (mint : Mint) :
    (p.visit visit mint).2 = mint.issueAll p.policy.issuer p.entropy (p.issuedOn visit) := by
  unfold Protection.visit issuedOn serve
  cases visit.draft.check with
  | error => rfl
  | ok request =>
    cases visit.application.readyError with
    | some => rfl
    | none => exact mint_serveReady

theorem mint_run (visits : List Visit) (mint : Mint) : (p.run visits mint).2 =
    mint.issueAll p.policy.issuer p.entropy (visits.flatMap p.issuedOn) := by
  induction visits generalizing mint with
  | nil => rfl
  | cons visit visits ih =>
    rw [List.flatMap_cons, Mint.issueAll_append, ← mint_visit, ← ih]
    rfl

theorem orderly_run (visits : List Visit) :
    (p.run visits Mint.fresh).2.Orderly p.policy.issuer p.entropy := by
  rw [mint_run]
  exact Mint.Orderly.fresh.issueAll _

end Protection

end DoubleSubmit
