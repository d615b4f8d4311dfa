import DoubleSubmit.Proofs.Cell
import DoubleSubmit.Proofs.Likeness
import DoubleSubmit.Proofs.Provenance

/-! Protection without a secret. No text is accepted for any session, so every request is taken to
need a new token, nothing verifies, and a request that would have to echo a token is refused
(`Protection.Closed`). The tokens are not signed and tell nothing of their sessions, so the answers
do not depend on sessions at all (`Protection.unsigned_runs_agree`). -/

namespace DoubleSubmit

theorem Verdict.accepts_none (text session : String) : accepts none text session = false := by
  rw [← Bool.not_eq_true, accepts_iff, judge_eq_accepted_iff]
  rintro ⟨_, _, hsecret, -⟩
  cases hsecret

theorem Mint.next_of_unsigned {issuer : Issuer} (h : issuer.secret = none) (mint : Mint)
    (entropy : Entropy) (session : String) : mint.next issuer entropy session =
      ⟨"", Base64.urlSafe.encode (entropy.window mint.drawn issuer.size.bytes)⟩ := by
  rw [next, Issuer.token, h]
  rfl

namespace Handle

variable {handle : Handle} (h : handle.policy.secret = none)
include h

theorem verify_of_unsigned (submitted : String) : handle.verify submitted = false := by
  rw [← Bool.not_eq_true, verify_iff, h, Verdict.accepts_none]
  rintro ⟨-, haccepts⟩
  cases haccepts

theorem isStale_of_unsigned : handle.isStale := by
  rw [← Bool.not_eq_false, isStale_eq_false_iff, h]
  rintro ⟨text, -, haccepts⟩
  rw [Verdict.accepts_none] at haccepts
  cases haccepts

theorem reply_verify_of_unsigned (desk : Desk) (submitted : Option String) :
    (Step.verify submitted).reply (some handle) desk = .verified false := by
  cases submitted <;> exact congrArg Reply.verified (verify_of_unsigned h _)

end Handle

namespace Protection

/-- A run in which the protection lets nothing through that has to echo a token. Whatever they
bring, guarded requests that are not exempt do not reach their handlers, no handler sees a text
verified, and each request that the application is ready for has a token without a signature issued,
over the next window of the entropy. -/
structure Closed (p : Protection) (visits : List Visit) : Prop where
  refused : ∀ (i : Nat) (visit : Visit) (request : Http.Request), visits[i]? = some visit →
    visit.draft.check = .ok request → request.method.isGuarded →
    p.policy.isExempt request.path = false →
      ∃ answer, (p.run visits Mint.fresh).1[i]? = some (.ok answer) ∧ answer.reached = false
  verify_eq_false : ∀ (request : Http.Request) (submitted : String),
    (p.handle request).verify submitted = false
  verified : ∀ (i : Nat) (visit : Visit) (answer : Answer) (transcript : Transcript),
    visits[i]? = some visit → (p.run visits Mint.fresh).1[i]? = some (.ok answer) →
    answer.transcript? = some transcript → ∀ (j : Nat) (submitted : Option String),
      visit.application.steps[j]? = some (.verify submitted) →
        ∃ observation, transcript.observations[j]? = some observation ∧
          observation.reply = .verified false
  issued : ∀ (i : Nat) (visit : Visit) (request : Http.Request), visits[i]? = some visit →
    visit.draft.check = .ok request → visit.application.readyError = none →
      ∃ more, p.issuesBefore visits (i + 1) = p.issuesBefore visits i ++
        ⟨p.provider.session request, ⟨"", Base64.urlSafe.encode (p.entropy.window
          (p.run (visits.take i) Mint.fresh).2.drawn p.policy.issuer.size.bytes)⟩⟩ :: more

section

variable {p : Protection} (hsecret : p.policy.secret = none) {visits : List Visit}
  {i : Nat} {visit : Visit} {request : Http.Request} {application : Application} {mint : Mint}

include hsecret

theorem reached_serve_of_unsigned (hguarded : request.method.isGuarded)
    (hexempt : p.policy.isExempt request.path = false) :
    (p.serve request application mint).1.reached = false := by
  cases hready : application.readyError with
  | some message =>
    rw [serve, hready]
    rfl
  | none =>
    rw [← Bool.not_eq_true, reached_serve_iff_accepts hready hguarded hexempt, hsecret]
    rintro ⟨text, -, -, haccepts⟩
    rw [Verdict.accepts_none] at haccepts
    cases haccepts

theorem issuedOn_of_unsigned (hrequest : visit.draft.check = .ok request)
    (hready : visit.application.readyError = none) :
    ∃ more, p.issuedOn visit = p.provider.session request :: more := by
  have hstale : (p.handle request).isStale := Handle.isStale_of_unsigned hsecret
  rw [issuedOn, hrequest, hready]
  simp only [issuedFor, if_pos hstale]
  exact ⟨_, rfl⟩

theorem issuesBefore_succ_of_unsigned (hvisit : visits[i]? = some visit)
    (hrequest : visit.draft.check = .ok request) (hready : visit.application.readyError = none) :
    ∃ more, p.issuesBefore visits (i + 1) = p.issuesBefore visits i ++
      ⟨p.provider.session request, ⟨"", Base64.urlSafe.encode (p.entropy.window
        (p.run (visits.take i) Mint.fresh).2.drawn p.policy.issuer.size.bytes)⟩⟩ :: more := by
  obtain ⟨sessions, hsessions⟩ := issuedOn_of_unsigned hsecret hrequest hready
  obtain ⟨more, hmore⟩ := Mint.issues_prefix_issueAll
    ((p.run (visits.take i) Mint.fresh).2.issue p.policy.issuer p.entropy
      (p.provider.session request)) p.policy.issuer p.entropy sessions
  refine ⟨more, ?_⟩
  rw [issuesBefore, run_snd_take_succ hvisit, mint_visit, hsessions]
  refine hmore.symm.trans ?_
  rw [Mint.issues_issue, Mint.next_of_unsigned hsecret, List.append_assoc]
  rfl

theorem closed_of_unsigned (visits : List Visit) : p.Closed visits where
  refused i visit request hvisit hrequest hguarded hexempt := by
    refine ⟨(p.serve request visit.application (p.run (visits.take i) Mint.fresh).2).1, ?_,
      reached_serve_of_unsigned hsecret hguarded hexempt⟩
    rw [getElem?_run, hvisit, Option.map_some, visit_of_check hrequest]
  verify_eq_false request := Handle.verify_of_unsigned hsecret
  verified i visit answer transcript hvisit hanswer htranscript j submitted hstep := by
    rw [getElem?_run, hvisit, Option.map_some, Option.some.injEq] at hanswer
    obtain ⟨request, -, rfl⟩ := visit_eq_ok_iff.1 hanswer
    obtain rfl := transcript_eq_of_serve htranscript
    have hobservation := Handler.getElem?_observe (some (p.handle request))
      (p.desk request (p.run (visits.take i) Mint.fresh).2) visit.application.steps j
    rw [hstep, Option.map_some] at hobservation
    exact ⟨_, hobservation, Handle.reply_verify_of_unsigned hsecret _ submitted⟩
  issued i visit request := issuesBefore_succ_of_unsigned hsecret

end

/-- Without a secret the answers of a run do not depend on sessions. Two runs over the same entropy,
whose visits are alike except for the sessions that are found for the requests and those that their
handlers set, get the same answers, and in neither is anything let through that has to echo a
token. -/
theorem unsigned_runs_agree (p p' : Protection) (visits visits' : List Visit)
    (hsecret : p.policy.secret = none) (hpolicy : p'.policy = p.policy)
    (hentropy : p'.entropy = p.entropy)
    (hvisits : List.Forall₂ (Visit.Alike (fun _ _ => True) p p') visits visits') :
    (p.run visits Mint.fresh).1 = (p'.run visits' Mint.fresh).1 ∧
      p.Closed visits ∧ p'.Closed visits' := by
  have hsecret' : p'.policy.secret = none := by rw [hpolicy, hsecret]
  have halike : p.Alike (fun _ _ => True) p' :=
    ⟨hpolicy.symm ▸ Policy.Alike.of_secret_eq_none hsecret, hentropy⟩
  obtain ⟨hanswers, -⟩ := halike.run hvisits rfl
  exact ⟨hanswers.symm, closed_of_unsigned hsecret visits, closed_of_unsigned hsecret' visits'⟩

end Protection

/-! ## A run without a secret -/

namespace Sample

/-- The sample protection with signing turned off. -/
def unsigned : Protection where
  policy := .chosen [] [.hostPrefix false, .cookieName "t", .headerName "x"]
  provider := .attached
  entropy := .counting

/-- The token that the handler of the opening binds to its session. -/
def unsignedToken : Token := ⟨"", "EBESExQVFhcYGRobHB0eHw"⟩

def unsignedDraft : Http.Request.Draft :=
  ⟨"POST", "/pay", [("Cookie", Text.utf8 ("t=" ++ unsignedToken.text)),
    ("x", Text.utf8 unsignedToken.text)], none⟩

def unsignedRequest : Http.Request where
  method := echoingRequest.method
  path := "/pay"
  headers := [⟨.cookie, Text.utf8 ("t=" ++ unsignedToken.text), by decide +kernel⟩,
    ⟨⟨"x"⟩, Text.utf8 unsignedToken.text, by decide +kernel⟩]
  session := none

set_option maxRecDepth 10000 in
theorem check_unsignedDraft : unsignedDraft.check = .ok unsignedRequest := by rfl

/-- A session opens a page, whose handler binds a new token to it, and posts this token. -/
def unsignedVisits (session : String) : List Visit :=
  [⟨{ opening.draft with session := some session }, ⟨none, [.set session]⟩⟩,
    ⟨{ unsignedDraft with session := some session }, ⟨none, [.verify none]⟩⟩]

theorem alike_unsignedVisits (session session' : String) :
    List.Forall₂ (Visit.Alike (fun _ _ => True) unsigned unsigned)
      (unsignedVisits session) (unsignedVisits session') :=
  .cons ⟨.withSession check_opening _ _ trivial, rfl, .cons (.set trivial) .nil⟩
    (.cons ⟨.withSession check_unsignedDraft _ _ trivial, rfl, .cons (.other rfl) .nil⟩ .nil)

end Sample

namespace Protection

/-- Alice and bob get the same answers from the sample protection without a secret, and the post
that echoes the token of the page is not let through. -/
theorem echoed_unsigned_token_refused :
    Sample.unsigned.policy.secret = none ∧
      List.Forall₂ (Visit.Alike (fun _ _ => True) Sample.unsigned Sample.unsigned)
        (Sample.unsignedVisits "alice") (Sample.unsignedVisits "bob") ∧
      (Sample.unsigned.run (Sample.unsignedVisits "alice") Mint.fresh).1 =
        (Sample.unsigned.run (Sample.unsignedVisits "bob") Mint.fresh).1 ∧
      ∃ answer, (Sample.unsigned.run (Sample.unsignedVisits "alice") Mint.fresh).1[1]? =
        some (.ok answer) ∧ answer.reached = false := by
  have halike := Sample.alike_unsignedVisits "alice" "bob"
  obtain ⟨hanswers, hclosed, -⟩ :=
    unsigned_runs_agree Sample.unsigned Sample.unsigned _ _ rfl rfl rfl halike
  have hpost := Http.Request.Draft.check_withSession Sample.check_unsignedDraft (some "alice")
  exact ⟨rfl, halike, hanswers, hclosed.refused 1 _ _ rfl hpost (by decide) rfl⟩

end Protection

end DoubleSubmit
