import DoubleSubmit.Proofs.Holding

/-! Verifying texts. A text is verified against the token that the request came with, which no step
of a handler changes; so the outcome is that of the guard, whatever stands between
(`Protection.verify_handle_iff`). To verify is only to look: a run in which a handler does not do it
differs from one in which it does in this one observation (`Protection.run_of_looks`). -/

namespace DoubleSubmit

/-! ## What verifies -/

/-- A text verifies on a request: it is the value of the token cookie that the request brought, and
it is accepted for the session that the request was found to belong to. -/
structure Protection.Verifies (p : Protection) (request : Http.Request) (text : String) : Prop where
  received : Cookie.Gives request p.policy.tokenCookieName text
  accepted : Verdict.judge p.policy.secret text (p.provider.session request) = .accepted

/-- The text that a step has verified: the one that it gives, or else what is in the cell, which may
be nothing. -/
def Cell.submitted (cell : Cell) (given : Option String) : String :=
  given.getD (cell.content.getD "")

theorem Step.reply_verify (handle : Handle) (desk : Desk) (given : Option String) :
    (verify given).reply (some handle) desk =
      .verified (handle.verify ((desk.exchange.cell handle.policy).submitted given)) := by
  cases given with
  | some text => rfl
  | none =>
    have hcurrent := handle.toOption_current desk.exchange.jar
    exact congrArg (fun text => Reply.verified (handle.verify (text.getD ""))) hcurrent

namespace Protection

variable {p : Protection} {request : Http.Request} {application : Application} {mint : Mint}

theorem verify_handle_iff {text : String} :
    (p.handle request).verify text ↔ p.Verifies request text := by
  rw [Handle.verify_iff, Verdict.accepts_iff]
  constructor
  · rintro ⟨hreceived, haccepted⟩
    exact ⟨Jar.get?_ofRequest_iff.1 hreceived, haccepted⟩
  · intro h
    exact ⟨Jar.get?_ofRequest_iff.2 h.received, h.accepted⟩

/-- A guarded request that is not exempt reaches its handler exactly if the text that it echoes
verifies. -/
theorem reached_serve_iff_verifies (hready : application.readyError = none)
    (hguarded : request.method.isGuarded) (hexempt : p.policy.isExempt request.path = false)
    (mint : Mint) : (p.serve request application mint).1.reached ↔
      ∃ text, request.PlainHeader p.policy.headerName text ∧ p.Verifies request text := by
  rw [serve_of_ready hready, reached_serveReady_iff, Guard.decision_eq_pass_iff, hguarded,
    show (p.handle request).policy.isExempt request.path = false from hexempt, Guard.echoes,
    Option.any_eq_true]
  simp only [Bool.true_eq_false, Bool.false_eq_true, false_or, verify_handle_iff]
  exact exists_congr fun text => and_congr_left' Http.Request.plainHeader?_eq_some_iff

/-- What a step that verifies a text observes in a handler that ran. -/
theorem exists_observation_verify {transcript : Transcript} {i : Nat} {given : Option String}
    (htranscript : (p.serve request application mint).1.transcript? = some transcript)
    (hstep : application.steps[i]? = some (.verify given)) :
    ∃ observation, transcript.observations[i]? = some observation ∧
      observation.reply = .verified ((p.handle request).verify
        (((Cell.start p request mint).after p.policy p.entropy
          (application.steps.take i)).submitted given)) := by
  have hobservation := Handler.getElem?_observe (some (p.handle request)) (p.desk request mint)
    application.steps i
  rw [hstep, Option.map_some, Step.reply_verify] at hobservation
  rw [transcript_eq_of_serve htranscript, ← cell_finished]
  exact ⟨_, hobservation, rfl⟩

end Protection

/-! ## Steps that only look -/

/-- A step that changes nothing of what a handler works on. -/
def Step.Looks (step : Step) : Prop := ∀ handle desk, step.act handle desk = desk

theorem Step.looks_verify (given : Option String) : (verify given).Looks := fun _ _ => rfl

/-- A transcript without the observation of the step at a place. -/
def Transcript.without (place : Nat) (transcript : Transcript) : Transcript :=
  { transcript with observations := transcript.observations.eraseIdx place }

/-- An answer with another transcript, and nothing else changed. -/
def Answer.mapTranscript (change : Transcript → Transcript) : Answer → Answer
  | notReady message => .notReady message
  | failed message transcript => .failed message (change transcript)
  | responded response =>
    .responded { response with transcript := response.transcript.map change }

theorem Answer.mapTranscript_withSetCookies (answer : Answer) (change : Transcript → Transcript)
    (more : List String) : (answer.withSetCookies more).mapTranscript change =
      (answer.mapTranscript change).withSetCookies more := by
  cases answer <;> rfl

section

variable {step : Step} (hlooks : step.Looks) (front back : List Step)

include hlooks

theorem Handler.finish_of_looks (handle : Option Handle) (desk : Desk) :
    finish handle desk (front ++ step :: back) = finish handle desk (front ++ back) := by
  rw [finish, finish, List.foldl_append, List.foldl_append, List.foldl_cons, hlooks]

theorem Handler.observe_of_looks (handle : Option Handle) (desk : Desk) :
    (observe handle desk (front ++ step :: back)).eraseIdx front.length =
      observe handle desk (front ++ back) := by
  induction front generalizing desk with
  | nil => exact congrArg (observe handle · back) (hlooks handle desk)
  | cons first front ih => exact congrArg (List.cons _) (ih (first.act handle desk))

theorem Answer.ofSteps_of_looks (handle : Option Handle) (desk : Desk) :
    ofSteps handle desk (front ++ back) =
      (ofSteps handle desk (front ++ step :: back)).mapTranscript (.without front.length) := by
  have hfinish := Handler.finish_of_looks hlooks front back handle desk
  have htranscript : Handler.transcript handle desk (front ++ back) =
      (Handler.transcript handle desk (front ++ step :: back)).without front.length :=
    congrArg (Transcript.mk _) (Handler.observe_of_looks hlooks front back handle desk).symm
  cases h : (Handler.finish handle desk (front ++ back)).failure with
  | some message =>
    rw [ofSteps_of_failure h, ofSteps_of_failure ((congrArg Desk.failure hfinish).trans h),
      htranscript]
    rfl
  | none =>
    rw [ofSteps_of_no_failure h,
      ofSteps_of_no_failure ((congrArg Desk.failure hfinish).trans h), hfinish, htranscript]
    rfl

namespace Protection

variable (p : Protection) (mint : Mint)

theorem serveReady_of_looks (request : Http.Request) :
    p.serveReady request (front ++ back) mint =
      ((p.serveReady request (front ++ step :: back) mint).1.mapTranscript (.without front.length),
        (p.serveReady request (front ++ step :: back) mint).2) := by
  by_cases hpass : Guard.decision (some (p.handle request)) request = .pass
  · rw [serveReady_of_pass hpass, serveReady_of_pass hpass, Answer.mapTranscript_withSetCookies,
      ← Answer.ofSteps_of_looks hlooks front back, finished, finished,
      Handler.finish_of_looks hlooks front back]
  · rw [serveReady_of_not_pass hpass, serveReady_of_not_pass hpass]
    rfl

theorem serve_of_looks (request : Http.Request) (readyError : Option String) :
    p.serve request ⟨readyError, front ++ back⟩ mint =
      ((p.serve request ⟨readyError, front ++ step :: back⟩ mint).1.mapTranscript
          (.without front.length),
        (p.serve request ⟨readyError, front ++ step :: back⟩ mint).2) := by
  cases readyError with
  | some => rfl
  | none => exact serveReady_of_looks hlooks front back p mint request

theorem visit_of_looks (draft : Http.Request.Draft) (readyError : Option String) :
    p.visit ⟨draft, ⟨readyError, front ++ back⟩⟩ mint =
      ((p.visit ⟨draft, ⟨readyError, front ++ step :: back⟩⟩ mint).1.map
          (Answer.mapTranscript (.without front.length)),
        (p.visit ⟨draft, ⟨readyError, front ++ step :: back⟩⟩ mint).2) := by
  unfold Protection.visit
  dsimp only
  cases draft.check with
  | error => rfl
  | ok request =>
    dsimp only
    rw [serve_of_looks hlooks front back p mint request readyError]
    rfl

/-- A step that only looks leaves its own observation in a run, and nothing else. -/
theorem run_of_looks (draft : Http.Request.Draft) (readyError : Option String)
    (later : List Visit) : ∃ answer answers issued,
      p.run (⟨draft, ⟨readyError, front ++ step :: back⟩⟩ :: later) mint =
        (answer :: answers, issued) ∧
      p.run (⟨draft, ⟨readyError, front ++ back⟩⟩ :: later) mint =
        (answer.map (Answer.mapTranscript (.without front.length)) :: answers, issued) := by
  refine ⟨_, _, _, run_cons _ _ _, ?_⟩
  rw [run_cons, visit_of_looks hlooks front back p mint draft readyError]

end Protection

end

/-! ## One outcome for the whole request -/

namespace Protection

/-- Verifying a text has one outcome for the whole of a request: it holds exactly if the text is the
token cookie that the request brought and is accepted for the session that was found for it. A
handler gets this outcome at every step, whatever it did to the token and to the cookies before, and
so does a handle that it extracts. A step that verifies a text leaves no trace but its own
observation, neither in the answer nor in what is issued nor on later visits. And the guard asks for
the same: a request that has to echo a token reaches its handler exactly if the text in its header
verifies, and in the handler this text verifies at every step. -/
theorem verifies_alike_throughout (p : Protection) (request : Http.Request) (mint : Mint) :
    (∀ application transcript, (p.serve request application mint).1.transcript? = some transcript →
      ∀ (i : Nat) given, application.steps[i]? = some (.verify given) →
        ∃ observation holds, transcript.observations[i]? = some observation ∧
          observation.reply = .verified holds ∧
          (holds ↔ p.Verifies request (((Cell.start p request mint).after p.policy p.entropy
            (application.steps.take i)).submitted given))) ∧
    (∃ extracted, Handle.extract (some (p.handle request)) = .ok extracted ∧
      ∀ text, extracted.verify text ↔ p.Verifies request text) ∧
    (∀ draft readyError front given back later, ∃ answer answers issued,
      p.run (⟨draft, ⟨readyError, front ++ .verify given :: back⟩⟩ :: later) mint =
        (answer :: answers, issued) ∧
      p.run (⟨draft, ⟨readyError, front ++ back⟩⟩ :: later) mint =
        (answer.map (Answer.mapTranscript (.without front.length)) :: answers, issued)) ∧
    ∀ application, application.readyError = none →
      request.method.name ∈ ["POST", "PUT", "PATCH", "DELETE"] →
      p.policy.isExempt request.path = false →
        ((p.serve request application mint).1.reached ↔
          ∃ text, request.PlainHeader p.policy.headerName text ∧ p.Verifies request text) ∧
        ((p.serve request application mint).1.reached →
          ∀ text, request.PlainHeader p.policy.headerName text →
            ∃ transcript, (p.serve request application mint).1.transcript? = some transcript ∧
              ∀ i : Nat, application.steps[i]? = some (.verify (some text)) →
                ∃ observation, transcript.observations[i]? = some observation ∧
                  observation.reply = .verified true) := by
  refine ⟨?_, ⟨p.handle request, rfl, fun _ => verify_handle_iff⟩, ?_, ?_⟩
  · intro application transcript htranscript i given hstep
    obtain ⟨observation, hobservation, hreply⟩ := exists_observation_verify htranscript hstep
    exact ⟨observation, _, hobservation, hreply, verify_handle_iff⟩
  · intro draft readyError front given back later
    exact run_of_looks (Step.looks_verify given) front back p mint draft readyError later
  · intro application hready hmethod hexempt
    have hreached := reached_serve_iff_verifies hready (Http.Method.isGuarded_iff.2 hmethod)
      hexempt mint
    refine ⟨hreached, fun hadmitted text hheader => ⟨_, transcript?_serve hadmitted, ?_⟩⟩
    intro i hstep
    obtain ⟨echoed, hechoed, hverifies⟩ := hreached.1 hadmitted
    -- A request has one text in the header, so it is this one that verified before the handler ran.
    rw [← Http.Request.plainHeader?_eq_some_iff] at hheader hechoed
    obtain rfl := Option.some.inj (hheader.symm.trans hechoed)
    obtain ⟨observation, hobservation, hreply⟩ :=
      exists_observation_verify (transcript?_serve hadmitted) hstep
    exact ⟨observation, hobservation, hreply.trans (congrArg _ (verify_handle_iff.2 hverifies))⟩

/-- In the sample run the handler of the post binds a new token to bob, overwrites the token cookie
and resets it. The text that the post echoed verifies still, and the current token, of which nothing
is left, does not. -/
theorem echoed_token_verified_after_reset : ∃ transcript,
    (Sample.protection.serve Sample.echoingRequest ⟨none, [.set "bob", .cookieAdd "t" "v", .reset,
      .verify (some Sample.token.text), .verify none]⟩ Mint.fresh).1.transcript? =
        some transcript ∧
      (∃ observation, transcript.observations[3]? = some observation ∧
        observation.reply = .verified true) ∧
      ∃ observation, transcript.observations[4]? = some observation ∧
        observation.reply = .verified false := by
  obtain ⟨houtcome, -, -, hguard⟩ :=
    verifies_alike_throughout Sample.protection Sample.echoingRequest Mint.fresh
  obtain ⟨hreached, hsteady⟩ := hguard ⟨none, [.set "bob", .cookieAdd "t" "v", .reset,
    .verify (some Sample.token.text), .verify none]⟩ rfl (by decide) rfl
  have hverifies : Sample.protection.Verifies Sample.echoingRequest Sample.token.text :=
    ⟨Sample.echoed.cookie, Verdict.accepts_iff.1
      (Verdict.accepts_iff_signs.2 ⟨Sample.key, rfl, Sample.echoed.signs⟩)⟩
  obtain ⟨transcript, htranscript, hsame⟩ :=
    hsteady (hreached.2 ⟨_, Sample.echoed.header, hverifies⟩) _ Sample.echoed.header
  refine ⟨transcript, htranscript, hsame 3 rfl, ?_⟩
  obtain ⟨observation, holds, hobservation, hreply, hholds⟩ :=
    houtcome _ transcript htranscript 4 none rfl
  refine ⟨observation, hobservation, hreply.trans (congrArg _ ?_)⟩
  rw [← Bool.not_eq_true, hholds]
  intro hnothing
  -- Nothing is left in the cell, and the empty text is no token.
  have hempty : Verdict.judge Sample.protection.policy.secret "" "alice" = .accepted :=
    hnothing.accepted
  exact absurd hempty (by decide)

end Protection

end DoubleSubmit
