import DoubleSubmit.Proofs.Admission
import DoubleSubmit.Proofs.Likeness
import DoubleSubmit.Token.Requested

/-! Sessions as they are found. How a session is found does not matter to what is issued, judged or
answered, but only which one is found, and a request without a session is served as one whose
session is empty (`SessionProvider.orAnonymous_eq_iff`). So protections with different providers
give the same answers to requests for which they find the same sessions
(`Protection.session_counts_as_found`). -/

namespace DoubleSubmit

namespace SessionProvider

/-- Two sessions that may be missing count as one: they are equal, or one is missing and the other
is empty. -/
def SameSession (session session' : Option String) : Prop :=
  session = session' ∨ session = none ∧ session' = some "" ∨ session = some "" ∧ session' = none

theorem orAnonymous_eq_iff {session session' : Option String} :
    orAnonymous session = orAnonymous session' ↔ SameSession session session' := by
  cases session <;> cases session' <;> simp [orAnonymous, anonymous, SameSession, eq_comm]

theorem SameSession.session_eq {provider : SessionProvider} {request : Http.Request}
    {session : Option String} (h : SameSession (provider.find? request) session) :
    provider.session request = session.getD "" :=
  orAnonymous_eq_iff.2 h

end SessionProvider

/-! ## Requests for which the same sessions are found -/

namespace Protection

/-- Two drafts checked: they have the same fault, or they are requests in which all else that is
looked at is the same, which is the method, the path, the cookies and the echoing header, and for
which the sessions found count as one. -/
inductive FoundAlike (p p' : Protection) :
    Except Http.Request.Fault Http.Request → Except Http.Request.Fault Http.Request → Prop
  | fault (fault) : FoundAlike p p' (.error fault) (.error fault)
  | request {request request'} (hlooked : p.RequestAlike (fun _ _ => True) p' request request')
    (hfound : SessionProvider.SameSession (p.provider.find? request)
      (p'.provider.find? request')) : FoundAlike p p' (.ok request) (.ok request')

variable {p p' : Protection}

theorem FoundAlike.checkedAlike {checked checked' : Except Http.Request.Fault Http.Request}
    (h : p.FoundAlike p' checked checked') : p.CheckedAlike Eq p' checked checked' := by
  cases h with
  | fault fault => exact .fault fault
  | request hlooked hfound =>
    exact .request { hlooked with session := SessionProvider.orAnonymous_eq_iff.2 hfound }

/-- Drafts that differ at most in the session attached to them are alike if the sessions found
are. -/
theorem FoundAlike.withSession {draft : Http.Request.Draft} {request : Http.Request}
    (h : draft.check = .ok request) {session session' : Option String}
    (hfound : SessionProvider.SameSession (p.provider.find? { request with session := session })
      (p'.provider.find? { request with session := session' })) :
    p.FoundAlike p' { draft with session := session }.check
      { draft with session := session' }.check := by
  rw [Http.Request.Draft.check_withSession h session,
    Http.Request.Draft.check_withSession h session']
  exact .request ⟨rfl, rfl, rfl, rfl, trivial⟩ hfound

end Protection

/-- Two visits of one application with drafts for which the same sessions are found. -/
structure Visit.FoundAlike (p p' : Protection) (visit visit' : Visit) : Prop where
  checked : p.FoundAlike p' visit.draft.check visit'.draft.check
  application_eq : visit'.application = visit.application

theorem Visit.FoundAlike.alike {p p' : Protection} {visit visit' : Visit}
    (h : visit.FoundAlike p p' visit') : visit.Alike Eq p p' visit' where
  checked := h.checked.checkedAlike
  application := h.application_eq ▸ .refl visit.application

/-! ## Tokens of requests -/

section

variable {provider : SessionProvider} {request : Http.Request} {session : Option String}
  (h : SessionProvider.SameSession (provider.find? request) session)

include h

theorem Verdict.acceptsFor_eq (secret : Option Secret) (text : String) :
    acceptsFor secret text provider request = accepts secret text (session.getD "") := by
  rw [acceptsFor, h.session_eq]

theorem Mint.issueFor_eq (mint : Mint) (issuer : Issuer) (entropy : Entropy) (count : Nat) :
    mint.issueFor issuer entropy provider request count =
      mint.issueAll issuer entropy (List.replicate count (session.getD "")) := by
  rw [issueFor, h.session_eq]

end

namespace Protection

/-- Of sessions only the one found counts, and none counts as the empty one. Two protections that
differ at most in their providers give the same answers in runs of alike visits for which they find
the same sessions. Outside of a protection, a text is accepted for a request exactly if it is
accepted for the session that a provider finds, and the tokens that are issued for the request are
those of that session, whichever provider finds it. One is that which always finds one session,
another that which finds the session attached to the request. -/
theorem session_counts_as_found :
    (∀ (p p' : Protection) (visits visits' : List Visit) (mint : Mint), p'.policy = p.policy →
      p'.entropy = p.entropy → List.Forall₂ (Visit.FoundAlike p p') visits visits' →
        (p'.run visits' mint).1 = (p.run visits mint).1) ∧
    (∀ (provider : SessionProvider) (request : Http.Request) (session : Option String),
      SessionProvider.SameSession (provider.find? request) session →
        (∀ secret text,
          Verdict.acceptsFor secret text provider request =
              Verdict.accepts secret text (session.getD "") ∧
            Verdict.accepts secret text (session.getD "") =
              (Verdict.judge secret text (session.getD "")).isAccepted) ∧
        ∀ (mint : Mint) issuer entropy count,
          mint.issueFor issuer entropy provider request count =
            mint.issueAll issuer entropy (List.replicate count (session.getD ""))) ∧
    ∀ (request : Http.Request) (session : Option String),
      SessionProvider.SameSession ((SessionProvider.fixed session).find? request) session ∧
        SessionProvider.SameSession
          (SessionProvider.attached.find? { request with session }) session := by
  refine ⟨?_, ?_, fun request session => ⟨.inl rfl, .inl rfl⟩⟩
  · intro p p' visits visits' mint hpolicy hentropy hvisits
    have halike : p.Alike Eq p' := ⟨hpolicy.symm ▸ Policy.Alike.refl p.policy, hentropy⟩
    exact (halike.run (hvisits.imp fun _ _ h => h.alike) rfl).1
  · intro provider request session hfound
    exact ⟨fun secret text => ⟨Verdict.acceptsFor_eq hfound secret text, rfl⟩,
      Mint.issueFor_eq hfound⟩

end Protection

/-! ## A run without sessions -/

namespace Sample

/-- The sample protection where no session is found. -/
def anonymous : Protection := { protection with provider := .never }

/-- A session opens a page, whose handler binds a token to bob, and posts without it. -/
def visitsOf (session : Option String) : List Visit :=
  [⟨{ opening.draft with session }, ⟨none, [.set "bob", .get]⟩⟩,
    ⟨{ blindPost.draft with session }, ⟨none, []⟩⟩]

theorem foundAlike_visitsOf : List.Forall₂ (Visit.FoundAlike protection anonymous)
    (visitsOf (some "")) (visitsOf (some "alice")) :=
  .cons ⟨.withSession check_opening (.inr (.inr ⟨rfl, rfl⟩)), rfl⟩
    (.cons ⟨.withSession check_blindPost (.inr (.inr ⟨rfl, rfl⟩)), rfl⟩ .nil)

end Sample

namespace Protection

/-- A client with an empty session is answered as alice is where no session is found, and a token
that is issued for a request without a session is accepted for the empty one. -/
theorem empty_session_answered_as_none :
    List.Forall₂ (Visit.FoundAlike Sample.protection Sample.anonymous)
        (Sample.visitsOf (some "")) (Sample.visitsOf (some "alice")) ∧
      (Sample.anonymous.run (Sample.visitsOf (some "alice")) Mint.fresh).1 =
        (Sample.protection.run (Sample.visitsOf (some "")) Mint.fresh).1 ∧
      SessionProvider.SameSession (SessionProvider.never.find? Sample.blindRequest) (some "") ∧
      ∃ token, (Mint.fresh.issueFor ⟨some Sample.key, .standard⟩ .counting .never
          Sample.blindRequest 1).issues = [⟨"", token⟩] ∧
        Verdict.acceptsFor (some Sample.key) token.text (.fixed (some "")) Sample.blindRequest := by
  obtain ⟨hruns, hfound, hproviders⟩ := session_counts_as_found
  have hnever : SessionProvider.SameSession
      (SessionProvider.never.find? Sample.blindRequest) (some "") := .inr (.inl ⟨rfl, rfl⟩)
  refine ⟨Sample.foundAlike_visitsOf, hruns _ _ _ _ _ rfl rfl Sample.foundAlike_visitsOf, hnever,
    ?_⟩
  obtain ⟨-, hissued⟩ := hfound _ _ _ hnever
  obtain ⟨haccepts, -⟩ := hfound _ _ _ (hproviders Sample.blindRequest (some "")).1
  rw [hissued]
  refine ⟨_, rfl, ?_⟩
  rw [(haccepts _ _).1]
  exact Mint.accepts_next Mint.fresh _ _ rfl

end Protection

end DoubleSubmit
