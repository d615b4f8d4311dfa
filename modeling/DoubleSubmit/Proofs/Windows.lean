import DoubleSubmit.Proofs.Cell
import DoubleSubmit.Proofs.Likeness
import DoubleSubmit.Token.Requested

/-! Which entropy a run uses up. Tokens take consecutive windows of the stream in the order in which
they are issued (`Mint.Windowed`), so where a visit finds the stream is told by how many tokens were
issued before, and what it has issued by the visit alone (`Protection.Draws`). Nothing else passes
from one visit to the next (`Protection.run_draws_consecutive_windows`). -/

namespace DoubleSubmit

/-! ## Windows -/

/-- The token that an issuer makes for a session over a window of the entropy, counted from zero. -/
def Issuer.tokenAt (issuer : Issuer) (entropy : Entropy) (j : Nat) (session : String) : Token :=
  issuer.token session (entropy.window (j * issuer.size.bytes) issuer.size.bytes)

/-- A mint has issued one token for each of some sessions, in order and over consecutive windows
from the start of the entropy on: the random value of each token is that window, and nothing is used
up but the windows. -/
structure Mint.Windowed (issuer : Issuer) (entropy : Entropy) (sessions : List String)
    (mint : Mint) : Prop where
  drawn_eq : mint.drawn = sessions.length * issuer.size.bytes
  issues_eq : mint.issues =
    sessions.mapIdx fun j session => ⟨session, issuer.tokenAt entropy j session⟩
  decode_random : ∀ (j : Nat) (issue : Issue), mint.issues[j]? = some issue →
    Base64.urlSafe.decode? issue.token.random =
      some (entropy.window (j * issuer.size.bytes) issuer.size.bytes)

namespace Mint

variable {issuer : Issuer} {entropy : Entropy}

theorem Orderly.windowed {mint : Mint} (h : mint.Orderly issuer entropy) :
    mint.Windowed issuer entropy (mint.issues.map Issue.session) where
  drawn_eq := by rw [h.drawn_eq, List.length_map]
  issues_eq := by
    apply List.ext_getElem?
    intro j
    rw [List.getElem?_mapIdx, List.getElem?_map]
    cases hissue : mint.issues[j]? with
    | none => rfl
    | some issue =>
      have htoken : issue.token = issuer.tokenAt entropy j issue.session := h.token_eq hissue
      rw [Option.map_some, Option.map_some, ← htoken]
  decode_random j issue hissue := by
    rw [h.token_eq hissue]
    exact Base64.decode?_encode _

theorem windowed_issueAll (issuer : Issuer) (entropy : Entropy) (sessions : List String) :
    (fresh.issueAll issuer entropy sessions).Windowed issuer entropy sessions := by
  have horderly : (fresh.issueAll issuer entropy sessions).Orderly issuer entropy :=
    Orderly.fresh.issueAll sessions
  have hsessions : (fresh.issueAll issuer entropy sessions).issues.map Issue.session = sessions :=
    sessions_issueAll fresh issuer entropy sessions
  have hwindowed := horderly.windowed
  rw [hsessions] at hwindowed
  exact hwindowed

theorem drawn_issueAll (mint : Mint) (issuer : Issuer) (entropy : Entropy)
    (sessions : List String) : (mint.issueAll issuer entropy sessions).drawn =
      mint.drawn + sessions.length * issuer.size.bytes := by
  induction sessions generalizing mint with
  | nil => exact (congrArg (mint.drawn + ·) (Nat.zero_mul _)).symm
  | cons session sessions ih =>
    refine (ih (mint.issue issuer entropy session)).trans ?_
    rw [drawn_issue, List.length_cons, Nat.succ_mul, Nat.add_right_comm, Nat.add_assoc]

theorem next_eq_tokenAt {mint : Mint} {k : Nat} (h : mint.drawn = k * issuer.size.bytes)
    (session : String) : mint.next issuer entropy session = issuer.tokenAt entropy k session := by
  rw [next, h, Issuer.tokenAt]

end Mint

/-! ## What a visit draws -/

theorem Handle.current_issue (handle : Handle) (exchange : Exchange) (session : String) :
    handle.current (handle.issue session exchange).jar =
      .ok (exchange.mint.next handle.policy.issuer handle.entropy session).text := by
  rw [current, handle.get?_issue]

namespace Protection

/-- What the layer issues for a request when `k` tokens were issued before, and the jar that it
leaves: nothing if the received token is accepted for the session, and else a token for the
session. -/
inductive LayerDraws (p : Protection) (k : Nat) (request : Http.Request) : List String → Jar → Prop
  | kept {text} (hreceived : (p.handle request).received = some text)
    (haccepts : Verdict.accepts p.policy.secret text (p.provider.session request)) :
    LayerDraws p k request [] (Jar.ofRequest request)
  | replaced (h : ∀ text, (p.handle request).received = some text →
      Verdict.accepts p.policy.secret text (p.provider.session request) = false) :
    LayerDraws p k request [p.provider.session request] ((Jar.ofRequest request).add
      (p.policy.cookie (p.policy.issuer.tokenAt p.entropy k (p.provider.session request)).text))

/-- What a handler sees of the tokens that its steps issue when `k` tokens were issued before: after
each step that sets a session the current token is that of the session over the next window. -/
def ShowsDraws (p : Protection) (k : Nat) (steps : List Step) (transcript : Transcript) : Prop :=
  ∀ (m : Nat) (session : String), steps[m]? = some (.set session) →
    ∃ observation, transcript.observations[m]? = some observation ∧
      observation.current = some (.ok (p.policy.issuer.tokenAt p.entropy
        (k + ((steps.take m).filterMap Step.rebinds?).length) session).text)

/-- The answer to a visit and the sessions that tokens are issued for on it, when `k` tokens were
issued before: none if the draft is no request or the application is not ready, what the layer
issues if the request is refused, and where the handler runs also one for each of its steps that
sets a session. -/
inductive Draws (p : Protection) (k : Nat) (visit : Visit) :
    Except Http.Request.Fault Answer → List String → Prop
  | invalid {fault} (hfault : visit.draft.check = .error fault) : Draws p k visit (.error fault) []
  | notReady {request message} (hrequest : visit.draft.check = .ok request)
    (hmessage : visit.application.readyError = some message) :
    Draws p k visit (.ok (.notReady message)) []
  | refused {request layer jar} (hrequest : visit.draft.check = .ok request)
    (hready : visit.application.readyError = none) (hadmissible : ¬p.Admissible request)
    (hlayer : p.LayerDraws k request layer jar) :
    Draws p k visit (.ok (.responded ⟨403, "", jar.setCookies, none⟩)) layer
  | handled {request layer jar answer transcript} (hrequest : visit.draft.check = .ok request)
    (hready : visit.application.readyError = none) (hadmissible : p.Admissible request)
    (hlayer : p.LayerDraws k request layer jar)
    (htranscript : answer.transcript? = some transcript)
    (hstart : transcript.start = some ((p.handle request).current jar))
    (hsteps : p.ShowsDraws (k + layer.length) visit.application.steps transcript) :
    Draws p k visit (.ok answer) (layer ++ visit.application.steps.filterMap Step.rebinds?)

variable {p : Protection} {request : Http.Request} {mint : Mint} {k : Nat}

theorem layerDraws (hmint : mint.drawn = k * p.policy.issuer.size.bytes)
    (request : Http.Request) :
    p.LayerDraws k request (if (p.handle request).isStale then [p.provider.session request] else [])
      (p.exchangeFor request mint).jar := by
  cases hstale : (p.handle request).isStale with
  | false =>
    obtain ⟨text, hreceived, haccepts⟩ := Handle.isStale_eq_false_iff.1 hstale
    rw [exchangeFor_of_not_isStale hstale]
    exact .kept hreceived haccepts
  | true =>
    have hreplaced : p.LayerDraws k request _ _ := .replaced fun text htext => by
      rw [← Bool.not_eq_true]
      intro haccepts
      have hkept := Handle.isStale_eq_false_iff.2 ⟨text, htext, haccepts⟩
      rw [hstale] at hkept
      cases hkept
    rw [← Mint.next_eq_tokenAt hmint] at hreplaced
    rw [exchangeFor_of_isStale hstale]
    exact hreplaced

theorem showsDraws {desk : Desk} (hdesk : desk.exchange.mint.drawn = k * p.policy.issuer.size.bytes)
    (steps : List Step) :
    p.ShowsDraws k steps (Handler.transcript (some (p.handle request)) desk steps) := by
  intro m session hstep
  have hobservation := Handler.getElem?_observe (some (p.handle request)) desk steps m
  rw [hstep, Option.map_some] at hobservation
  refine ⟨_, hobservation, ?_⟩
  -- The steps before this one have drawn a window for each session that they set.
  have hdrawn : (Handler.finish (some (p.handle request)) desk (steps.take m)).exchange.mint.drawn =
      (k + ((steps.take m).filterMap Step.rebinds?).length) * p.policy.issuer.size.bytes := by
    rw [Handler.mint_finish, Mint.drawn_issueAll, hdesk, Nat.add_mul]
    rfl
  rw [← Mint.next_eq_tokenAt hdrawn, Handler.finish_take_succ hstep]
  exact congrArg some ((p.handle request).current_issue _ session)

theorem drawn_exchangeFor (hmint : mint.drawn = k * p.policy.issuer.size.bytes)
    (request : Http.Request) : (p.exchangeFor request mint).mint.drawn =
      (k + (if (p.handle request).isStale then [p.provider.session request] else []).length) *
        p.policy.issuer.size.bytes := by
  rw [mint_exchangeFor, Mint.drawn_issueAll, hmint, Nat.add_mul]

theorem draws_serve {visit : Visit} (hmint : mint.drawn = k * p.policy.issuer.size.bytes)
    (hrequest : visit.draft.check = .ok request) (hready : visit.application.readyError = none) :
    p.Draws k visit (.ok (p.serve request visit.application mint).1)
      (p.issuedFor request visit.application.steps) := by
  have hlayer := layerDraws hmint request
  rw [issuedFor]
  by_cases hpass : Guard.decision (some (p.handle request)) request = .pass
  · have hadmissible := decision_eq_pass_iff_admissible.1 hpass
    have hreached : (p.serve request visit.application mint).1.reached :=
      (reached_serve_iff hready).2 hadmissible
    rw [if_pos hpass]
    exact .handled hrequest hready hadmissible hlayer (transcript?_serve hreached) rfl
      (showsDraws (drawn_exchangeFor hmint request) _)
  · rw [if_neg hpass, List.append_nil, serve_of_ready hready, serveReady_of_not_pass hpass]
    exact .refused hrequest hready (mt decision_eq_pass_iff_admissible.2 hpass) hlayer

/-- A visit draws from where the tokens issued before have left the entropy. -/
theorem draws_visit (visit : Visit) (hmint : mint.drawn = k * p.policy.issuer.size.bytes) :
    p.Draws k visit (p.visit visit mint).1 (p.issuedOn visit) := by
  cases hcheck : visit.draft.check with
  | error fault =>
    rw [Protection.visit, issuedOn, hcheck]
    exact .invalid hcheck
  | ok request =>
    rw [visit_of_check hcheck, issuedOn, hcheck]
    cases hready : visit.application.readyError with
    | some message =>
      rw [serve, hready]
      exact .notReady hcheck hready
    | none => exact draws_serve hmint hcheck hready

theorem windowed_run (p : Protection) (visits : List Visit) :
    (p.run visits Mint.fresh).2.Windowed p.policy.issuer p.entropy
      (visits.flatMap p.issuedOn) := by
  rw [mint_run]
  exact Mint.windowed_issueAll _ _ _

/-- A visit is answered by how much of the entropy is used up, whatever was issued before. -/
theorem visit_eq_of_drawn_eq {visit : Visit} {mint' : Mint} (h : mint'.drawn = mint.drawn) :
    (p.visit visit mint').1 = (p.visit visit mint).1 :=
  (Alike.visit ⟨.refl p.policy, rfl⟩ (.refl p visit) h).1

/-- Where a handler fails makes no difference to what is issued. -/
theorem issuedOn_fail (p : Protection) (draft : Http.Request.Draft) (readyError : Option String)
    (front back : List Step) (message : String) :
    p.issuedOn ⟨draft, ⟨readyError, front ++ .fail message :: back⟩⟩ =
      p.issuedOn ⟨draft, ⟨readyError, front ++ back⟩⟩ := by
  have hsteps : (front ++ .fail message :: back).filterMap Step.rebinds? =
      (front ++ back).filterMap Step.rebinds? := by
    rw [List.filterMap_append, List.filterMap_append]
    rfl
  simp only [issuedOn, issuedFor, hsteps]

/-- The tokens of a run are made over consecutive windows of the entropy in the order in which the
visits have them issued, and nothing else of it is used up. Each visit draws from where the visits
before it have left the entropy, and but for that is answered as if it were the first. A handler
that fails has the tokens of all its steps issued. Tokens issued one after the other for a session,
given or found for a request, take consecutive windows as well. -/
theorem run_draws_consecutive_windows (p : Protection) (visits : List Visit) :
    (p.run visits Mint.fresh).2.Windowed p.policy.issuer p.entropy (visits.flatMap p.issuedOn) ∧
      (∀ i visit, visits[i]? = some visit →
        ∃ k answer, k = ((visits.take i).flatMap p.issuedOn).length ∧
          (p.run visits Mint.fresh).1[i]? = some answer ∧
          p.Draws k visit answer (p.issuedOn visit) ∧
          ∀ mint, mint.drawn = k * p.policy.issuer.size.bytes → (p.visit visit mint).1 = answer) ∧
      (∀ draft readyError front back message,
        p.issuedOn ⟨draft, ⟨readyError, front ++ .fail message :: back⟩⟩ =
          p.issuedOn ⟨draft, ⟨readyError, front ++ back⟩⟩) ∧
      ∀ (issuer : Issuer) (entropy : Entropy) (session : Option String) (request : Http.Request)
        (count : Nat) (sessions : List String),
        sessions = List.replicate count (SessionProvider.orAnonymous session) →
          (Mint.fresh.issueAll issuer entropy sessions).Windowed issuer entropy sessions ∧
          (Mint.fresh.issueFor issuer entropy (.fixed session) request count).Windowed issuer
            entropy sessions ∧
          (request.session = session →
            (Mint.fresh.issueFor issuer entropy .attached request count).Windowed issuer entropy
              sessions) := by
  refine ⟨windowed_run p visits, ?_, p.issuedOn_fail, ?_⟩
  · intro i visit hvisit
    have hdrawn := (windowed_run p (visits.take i)).drawn_eq
    refine ⟨_, (p.visit visit (p.run (visits.take i) Mint.fresh).2).1, rfl, ?_,
      draws_visit visit hdrawn, fun mint hmint => visit_eq_of_drawn_eq (hmint.trans hdrawn.symm)⟩
    rw [getElem?_run, hvisit, Option.map_some]
  · rintro issuer entropy session request count sessions rfl
    have hwindowed := Mint.windowed_issueAll issuer entropy
      (List.replicate count (SessionProvider.orAnonymous session))
    refine ⟨hwindowed, hwindowed, ?_⟩
    rintro rfl
    exact hwindowed

/-- On the opening of the sample run the handler binds tokens to bob and to carol and fails in
between. These are the second and the third window, and the refused post behind it draws the
fourth. -/
theorem failing_handler_draws : ∃ failing : Visit,
    failing = ⟨Sample.opening.draft, ⟨none, [.set "bob", .fail "out of order", .set "carol"]⟩⟩ ∧
      (Sample.protection.run [failing, Sample.blindPost] Mint.fresh).2.issues.map Issue.session =
        ["alice", "bob", "carol", "alice"] ∧
      (Sample.protection.run [failing, Sample.blindPost] Mint.fresh).2.drawn = 64 ∧
      (Sample.protection.run [failing, Sample.blindPost] Mint.fresh).1[1]? =
        some (Sample.protection.visit Sample.blindPost ⟨48, []⟩).1 := by
  refine ⟨_, rfl, ?_⟩
  obtain ⟨hwindowed, hvisits, -⟩ := run_draws_consecutive_windows Sample.protection
    [⟨Sample.opening.draft, ⟨none, [.set "bob", .fail "out of order", .set "carol"]⟩⟩,
      Sample.blindPost]
  obtain ⟨k, answer, hk, hanswer, -, halone⟩ := hvisits 1 Sample.blindPost rfl
  have hdrawn : (Mint.mk 48 []).drawn = k * Sample.protection.policy.issuer.size.bytes := by
    rw [hk]
    rfl
  refine ⟨?_, hwindowed.drawn_eq, ?_⟩
  · rw [hwindowed.issues_eq]
    rfl
  · rw [hanswer, halone _ hdrawn]

end Protection

end DoubleSubmit
