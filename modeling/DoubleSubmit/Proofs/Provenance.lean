import DoubleSubmit.Proofs.Admission
import DoubleSubmit.Proofs.Payload

/-! Where admitted tokens come from. Every issue of a run goes back to one of its visits, on which
the layer replaced a token or the handler set a session (`exists_issuedAt`). A message tells its
session and its random value apart, so an admitted token whose message was ever signed is the very
token that was issued with it (`eq_issue_of_payload_eq`). -/

namespace DoubleSubmit.Protection

variable {p : Protection} {visits : List Visit} {request : Http.Request}

/-- The issues of the first visits of a run. -/
def issuesBefore (p : Protection) (visits : List Visit) (i : Nat) : List Issue :=
  (p.run (visits.take i) Mint.fresh).2.issues

/-- The issues of a run when the handler of the request at a place starts. -/
def issuesAtHandler (p : Protection) (visits : List Visit) (i : Nat) (request : Http.Request) :
    List Issue :=
  (p.exchangeFor request (p.run (visits.take i) Mint.fresh).2).mint.issues

/-- The visit at a place of a run was issued a token of this text for a session: by the layer, the
request being of the session and in need of a new token, or by its handler, which set the
session. -/
def IssuedAt (p : Protection) (visits : List Visit) (k : Nat) (session text : String) : Prop :=
  ∃ visit request, visits[k]? = some visit ∧ visit.draft.check = .ok request ∧
    visit.application.readyError = none ∧
    ((p.provider.session request = session ∧ (p.handle request).isStale) ∨
      (p.Admissible request ∧ .set session ∈ visit.application.steps)) ∧
    ∃ token, ⟨session, token⟩ ∈
      (p.issuesBefore visits (k + 1)).drop (p.issuesBefore visits k).length ∧ token.text = text

/-- Where the token of an admitted request comes from. It is the one received and signs the session.
Either it was issued for the session on an earlier visit, or its message was not signed in the run,
and the signature of another issue fits it only if two messages collide. -/
structure Provenance (p : Protection) (visits : List Visit) (i : Nat) (request : Http.Request)
    (text : String) (token : Token) : Prop where
  received : (p.handle request).received = some text
  token_eq : Token.ofText? text = some token
  signed : token = Token.signed p.policy.secret (p.provider.session request) token.random
  origin : (∃ k, k < i ∧ p.IssuedAt visits k (p.provider.session request) text) ∨
    ∀ issue ∈ p.issuesAtHandler visits i request,
      issue.payload ≠ Payload.text (p.provider.session request) token.random
  unspliced : ∀ issue ∈ p.issuesAtHandler visits i request,
    issue.token.signature = token.signature →
      issue = ⟨p.provider.session request, token⟩ ∨ ∃ key, p.policy.secret = some key ∧
        key.Collides issue.payload (Payload.text (p.provider.session request) token.random)

theorem exists_request_of_mem_issuedOn {visit : Visit} {session : String}
    (h : session ∈ p.issuedOn visit) : ∃ request, visit.draft.check = .ok request ∧
      visit.application.readyError = none ∧
      ((p.provider.session request = session ∧ (p.handle request).isStale) ∨
        (p.Admissible request ∧ .set session ∈ visit.application.steps)) := by
  unfold issuedOn at h
  split at h
  · next request hrequest hready =>
    refine ⟨request, hrequest, hready, ?_⟩
    rcases List.mem_append.1 h with hlayer | hhandler
    · split at hlayer
      · next hstale => exact .inl ⟨(List.mem_singleton.1 hlayer).symm, hstale⟩
      · cases hlayer
    · split at hhandler
      · next hpass =>
        obtain ⟨step, hstep, hsession⟩ := List.mem_filterMap.1 hhandler
        rw [Step.rebinds?_eq_some_iff.1 hsession] at hstep
        exact .inr ⟨decision_eq_pass_iff_admissible.1 hpass, hstep⟩
      · cases hhandler
  · cases h

theorem issuesBefore_succ {k : Nat} {visit : Visit} (hvisit : visits[k]? = some visit) :
    ∃ new, p.issuesBefore visits (k + 1) = p.issuesBefore visits k ++ new ∧
      new.map Issue.session = p.issuedOn visit := by
  have hstep : p.issuesBefore visits (k + 1) = ((p.run (visits.take k) Mint.fresh).2.issueAll
      p.policy.issuer p.entropy (p.issuedOn visit)).issues := by
    rw [issuesBefore, run_snd_take_succ hvisit, mint_visit]
  obtain ⟨new, hnew⟩ := Mint.issues_prefix_issueAll (p.run (visits.take k) Mint.fresh).2
    p.policy.issuer p.entropy (p.issuedOn visit)
  have hsessions := Mint.sessions_issueAll (p.run (visits.take k) Mint.fresh).2 p.policy.issuer
    p.entropy (p.issuedOn visit)
  rw [← hnew, List.map_append] at hsessions
  exact ⟨new, hstep.trans hnew.symm, List.append_cancel_left hsessions⟩

/-- Every issue of a run was made on one of its visits. -/
theorem exists_issuedAt {i : Nat} {issue : Issue} (h : issue ∈ p.issuesBefore visits i) :
    ∃ k, k < i ∧ p.IssuedAt visits k issue.session issue.token.text := by
  induction i with
  | zero => cases h
  | succ k ih =>
    cases hvisit : visits[k]? with
    | none =>
      have hlength := List.getElem?_eq_none_iff.1 hvisit
      have htake : visits.take (k + 1) = visits.take k := by
        rw [List.take_of_length_le hlength, List.take_of_length_le (Nat.le_succ_of_le hlength)]
      rw [issuesBefore, htake] at h
      obtain ⟨j, hj, hissued⟩ := ih h
      exact ⟨j, Nat.lt_succ_of_lt hj, hissued⟩
    | some visit =>
      obtain ⟨new, hsucc, hsessions⟩ := issuesBefore_succ (p := p) hvisit
      rw [hsucc] at h
      rcases List.mem_append.1 h with hold | hnew
      · obtain ⟨j, hj, hissued⟩ := ih hold
        exact ⟨j, Nat.lt_succ_of_lt hj, hissued⟩
      · have hsession : issue.session ∈ p.issuedOn visit :=
          hsessions ▸ List.mem_map_of_mem hnew
        obtain ⟨request, hrequest, hready, horigin⟩ := exists_request_of_mem_issuedOn hsession
        refine ⟨k, Nat.lt_succ_self k, visit, request, hvisit, hrequest, hready, horigin,
          issue.token, ?_, rfl⟩
        rw [hsucc, List.drop_left]
        exact hnew

/-- A signed message belongs to one issue: a token whose message was signed is that issue's. -/
theorem eq_issue_of_payload_eq {i : Nat} {issue : Issue} (h : issue ∈ p.issuesBefore visits i)
    {session : String} {token : Token} (htoken : token = Token.signed p.policy.secret session
      token.random) (hpayload : issue.payload = Payload.text session token.random) :
    issue = ⟨session, token⟩ := by
  obtain ⟨hsession, hrandom⟩ := Payload.text_inj hpayload
  obtain ⟨hsigned, -⟩ := (orderly_run (visits.take i)).signed h
  rw [hsession, hrandom] at hsigned
  obtain ⟨issued, issuedToken⟩ := issue
  rw [htoken, ← hsession]
  exact congrArg (Issue.mk issued) (hsigned.trans (by rw [hsession]; rfl))

theorem admissible_of_reached {i : Nat} {visit : Visit} {answer : Answer} {mint : Mint}
    (hvisit : visits[i]? = some visit) (hrequest : visit.draft.check = .ok request)
    (hanswer : (p.run visits mint).1[i]? = some (.ok answer)) (hreached : answer.reached) :
    p.Admissible request := by
  rw [getElem?_run, hvisit, Option.map_some, visit_of_check hrequest] at hanswer
  cases hanswer
  cases hready : visit.application.readyError with
  | none => exact (reached_serve_iff hready).1 hreached
  | some message =>
    rw [serve, hready] at hreached
    cases hreached

theorem isStale_of_echoed {key : Secret} {text : String}
    (h : p.policy.Echoed (p.provider.session request) request key text) :
    (p.handle request).isStale = false :=
  Handle.isStale_eq_false_iff.2 ⟨text, Jar.get?_ofRequest_iff.2 h.cookie,
    Verdict.accepts_iff_signs.2 ⟨key, h.secret_eq, h.signs⟩⟩

/-- The layer leaves a request alone that echoes its token. -/
theorem issuesAtHandler_of_echoed {i : Nat} {key : Secret} {text : String}
    (h : p.policy.Echoed (p.provider.session request) request key text) :
    p.issuesAtHandler visits i request = p.issuesBefore visits i := by
  rw [issuesAtHandler, exchangeFor_of_not_isStale (isStale_of_echoed h)]
  rfl

/-- A signature belongs to one issue, unless messages collide. -/
theorem eq_issue_or_collides {i : Nat} {issue : Issue} (h : issue ∈ p.issuesBefore visits i)
    {key : Secret} (hkey : p.policy.secret = some key) {session : String} {token : Token}
    (htoken : token = Token.signed p.policy.secret session token.random)
    (hsignature : issue.token.signature = token.signature) : issue = ⟨session, token⟩ ∨
      key.Collides issue.payload (Payload.text session token.random) := by
  have hissue : issue.token = Token.signed p.policy.secret issue.session issue.token.random :=
    ((orderly_run (visits.take i)).signed h).1
  have hsign : key.sign issue.payload = key.sign (Payload.text session token.random) := by
    rw [hissue, htoken, hkey] at hsignature
    exact hsignature
  rcases Secret.eq_or_collides_of_sign_eq hsign with hpayload | hcollides
  · exact .inl (eq_issue_of_payload_eq h htoken hpayload)
  · exact .inr hcollides

theorem provenance_of_echoed {i : Nat} {key : Secret} {text : String}
    (h : p.policy.Echoed (p.provider.session request) request key text) :
    ∃ token, p.Provenance visits i request text token := by
  obtain ⟨token, htoken, hsigned⟩ := Token.exists_of_signs h.secret_eq h.signs
  refine ⟨token, Jar.get?_ofRequest_iff.2 h.cookie, htoken, hsigned, ?_, ?_⟩
  · rw [issuesAtHandler_of_echoed h]
    by_cases hearlier : ∃ issue ∈ p.issuesBefore visits i,
        issue.payload = Payload.text (p.provider.session request) token.random
    · obtain ⟨issue, hissue, hpayload⟩ := hearlier
      obtain ⟨k, hk, hissued⟩ := exists_issuedAt hissue
      rw [eq_issue_of_payload_eq hissue hsigned hpayload] at hissued
      rw [(Token.ofText?_eq_some_iff.1 htoken).1]
      exact .inl ⟨k, hk, hissued⟩
    · exact .inr fun issue hissue hpayload => hearlier ⟨issue, hissue, hpayload⟩
  · rw [issuesAtHandler_of_echoed h]
    intro issue hissue hsignature
    rcases eq_issue_or_collides hissue h.secret_eq hsigned hsignature with heq | hcollides
    · exact .inl heq
    · exact .inr ⟨key, h.secret_eq, hcollides⟩

/-- A guarded request that is not exempt reaches its handler only with a token that was issued for
its session on an earlier visit of the run, or whose message the run has not signed. -/
theorem admitted_token_provenance (p : Protection) (visits : List Visit) (i : Nat) (visit : Visit)
    (request : Http.Request) (answer : Answer) (hvisit : visits[i]? = some visit)
    (hrequest : visit.draft.check = .ok request)
    (hguarded : request.method.name ∈ ["POST", "PUT", "PATCH", "DELETE"])
    (hexempt : p.policy.isExempt request.path = false)
    (hanswer : (p.run visits Mint.fresh).1[i]? = some (.ok answer)) (hreached : answer.reached) :
    ∃ text token, p.Provenance visits i request text token := by
  obtain hmethod | ⟨paths, hpaths, hcovers⟩ | ⟨key, text, hechoed⟩ :=
    admissible_of_reached hvisit hrequest hanswer hreached
  · exact absurd hguarded hmethod
  · rw [Policy.isExempt_iff.2 ⟨paths, hpaths, hcovers⟩] at hexempt
    cases hexempt
  · exact ⟨text, provenance_of_echoed hechoed⟩

/-- In the sample run the token that the post echoes was issued for alice, on the first visit. -/
theorem echoed_token_issued_at_opening :
    Sample.echoingPost.draft.check = .ok Sample.echoingRequest ∧
      (Sample.protection.serve Sample.echoingRequest Sample.echoingPost.application
        (Sample.protection.run [Sample.opening] Mint.fresh).2).1.reached ∧
      Sample.protection.IssuedAt [Sample.opening, Sample.echoingPost] 0 "alice"
        Sample.token.text := by
  have hreached : (Sample.protection.serve Sample.echoingRequest Sample.echoingPost.application
      (Sample.protection.run [Sample.opening] Mint.fresh).2).1.reached :=
    (reached_serve_iff rfl).2 (.inr (.inr ⟨Sample.key, Sample.token.text, Sample.echoed⟩))
  have hanswer : (Sample.protection.run [Sample.opening, Sample.echoingPost] Mint.fresh).1[1]? =
      some (.ok (Sample.protection.serve Sample.echoingRequest Sample.echoingPost.application
        (Sample.protection.run [Sample.opening] Mint.fresh).2).1) := by
    rw [getElem?_run]
    exact congrArg some (congrArg Prod.fst (visit_of_check Sample.check_echoingPost))
  obtain ⟨text, token, hprovenance⟩ := admitted_token_provenance Sample.protection
    [Sample.opening, Sample.echoingPost] 1 Sample.echoingPost Sample.echoingRequest _ rfl
    Sample.check_echoingPost (by decide) rfl hanswer hreached
  have hreceived : (Sample.protection.handle Sample.echoingRequest).received =
      some Sample.token.text := Jar.get?_ofRequest_iff.2 Sample.echoed.cookie
  obtain rfl : Sample.token.text = text :=
    Option.some.inj (hreceived.symm.trans hprovenance.received)
  have hread : Token.ofText? Sample.token.text = some Sample.token := by decide +kernel
  obtain rfl : Sample.token = token := Option.some.inj (hread.symm.trans hprovenance.token_eq)
  have hissued : ⟨"alice", Sample.token⟩ ∈ Sample.protection.issuesAtHandler
      [Sample.opening, Sample.echoingPost] 1 Sample.echoingRequest := by
    rw [issuesAtHandler_of_echoed Sample.echoed, issuesBefore]
    exact Sample.issues_opening ▸ List.mem_singleton_self _
  refine ⟨Sample.check_echoingPost, hreached, ?_⟩
  rcases hprovenance.origin with ⟨k, hk, horigin⟩ | hunsigned
  · obtain rfl : k = 0 := by omega
    exact horigin
  · have hsession : Sample.protection.provider.session Sample.echoingRequest = "alice" := rfl
    rw [hsession] at hunsigned
    have hpayload : Issue.payload ⟨"alice", Sample.token⟩ =
        Payload.text "alice" Sample.token.random := by rw [Issue.payload]
    exact absurd hpayload (hunsigned ⟨"alice", Sample.token⟩ hissued)

end DoubleSubmit.Protection
