import DoubleSubmit.Proofs.Admission

/-! The token of a request as one cell. The jar keeps what a request brought apart from the changes
laid over it, and remembers a removal only under a name that the request brought. None of this
shows: whoever reads the current token, through the handle, through the handle that a handler
extracts or from the jar, reads a cell that is written by issuing, by removing and by the
application's own cookies of that name (`Exchange.cell_finish`). A handler's transcript tells no
more of the token than this cell does (`Protection.reads_one_cell`). -/

namespace DoubleSubmit

/-- The token cookie as a cell, and the state of issuing that new tokens come from. -/
structure Cell where
  content : Option String
  mint : Mint

namespace Cell

/-- What is read from a cell. -/
def current (cell : Cell) : Except Error String :=
  match cell.content with
  | some text => .ok text
  | none => .error .noCookie

def write (cell : Cell) (content : Option String) : Cell := { cell with content }

/-- Writes a newly generated token of a session. -/
def renew (policy : Policy) (entropy : Entropy) (cell : Cell) (session : String) : Cell where
  content := some (cell.mint.next policy.issuer entropy session).text
  mint := cell.mint.issue policy.issuer entropy session

/-- What a step of a handler does to the cell. -/
def step (policy : Policy) (entropy : Entropy) (cell : Cell) : Step → Cell
  | .set session => cell.renew policy entropy session
  | .reset => cell.write none
  | .cookieAdd name value => if name = policy.tokenCookieName then cell.write (some value) else cell
  | .cookieRemove name => if name = policy.tokenCookieName then cell.write none else cell
  | .get | .verify _ | .extract | .cookieList | .status _ | .setCookieHeader _ | .fail _ => cell

/-- The cell after the steps of a handler. -/
def after (policy : Policy) (entropy : Entropy) (cell : Cell) (steps : List Step) : Cell :=
  steps.foldl (step policy entropy) cell

/-- The cell that a handler finds. It holds the received token if that is accepted for the session
of the request, and otherwise a newly generated one. -/
def start (p : Protection) (request : Http.Request) (mint : Mint) : Cell :=
  let accepted := (p.handle request).received.filter fun text =>
    Verdict.accepts p.policy.secret text (p.provider.session request)
  match accepted with
  | some text => ⟨some text, mint⟩
  | none => renew p.policy p.entropy ⟨none, mint⟩ (p.provider.session request)

end Cell

/-! ## The jar as a cell -/

/-- The cell that an exchange stands for. -/
def Exchange.cell (exchange : Exchange) (policy : Policy) : Cell :=
  ⟨exchange.jar.get? policy.tokenCookieName, exchange.mint⟩

namespace Exchange

variable (policy : Policy) (jar : Jar) (mint : Mint) (cookie : Cookie)

theorem cell_add : (Exchange.mk (jar.add cookie) mint).cell policy =
    if cookie.name = policy.tokenCookieName then ⟨some cookie.value, mint⟩
    else (Exchange.mk jar mint).cell policy := by
  rw [cell, Jar.get?_add]
  split <;> rfl

theorem cell_remove : (Exchange.mk (jar.remove cookie) mint).cell policy =
    if cookie.name = policy.tokenCookieName then ⟨none, mint⟩
    else (Exchange.mk jar mint).cell policy := by
  rw [cell, Jar.get?_remove]
  split <;> rfl

theorem cell_issue (handle : Handle) (exchange : Exchange) (session : String) :
    (handle.issue session exchange).cell handle.policy =
      (exchange.cell handle.policy).renew handle.policy handle.entropy session :=
  (cell_add handle.policy _ _ _).trans (if_pos rfl)

/-- A step changes the cell that the exchange stands for as it changes a cell. -/
theorem cell_act (handle : Handle) (desk : Desk) (step : Step) :
    (step.act (some handle) desk).exchange.cell handle.policy =
      (desk.exchange.cell handle.policy).step handle.policy handle.entropy step := by
  cases step with
  | set session => exact cell_issue handle desk.exchange session
  | reset => exact (cell_remove handle.policy _ _ _).trans (if_pos rfl)
  | cookieAdd name value => exact cell_add handle.policy _ _ (.plain name value)
  | cookieRemove name => exact cell_remove handle.policy _ _ (.plain name "")
  | setCookieHeader value =>
    rw [Step.exchange_act_setCookieHeader]
    rfl
  | _ => rfl

/-- A handler changes the cell step by step. -/
theorem cell_finish (handle : Handle) (desk : Desk) (steps : List Step) :
    (Handler.finish (some handle) desk steps).exchange.cell handle.policy =
      (desk.exchange.cell handle.policy).after handle.policy handle.entropy steps := by
  induction steps generalizing desk with
  | nil => rfl
  | cons step steps ih =>
    have hstep := cell_act handle desk step
    have hrest := ih (step.act (some handle) desk)
    rw [hstep] at hrest
    exact hrest

end Exchange

/-- All ways to read the current token of an exchange give the content of a cell, whose state of
issuing is that of the exchange. -/
structure Cell.ReadBy (cell : Cell) (handle : Handle) (exchange : Exchange) : Prop where
  current_eq : handle.current exchange.jar = cell.current
  extracted_eq : ∃ extracted, Handle.extract (some handle) = .ok extracted ∧
    extracted.current exchange.jar = cell.current
  get?_eq : exchange.jar.get? handle.policy.tokenCookieName = cell.content
  mint_eq : exchange.mint = cell.mint

theorem Exchange.readBy_cell (handle : Handle) (exchange : Exchange) :
    (exchange.cell handle.policy).ReadBy handle exchange :=
  ⟨rfl, ⟨handle, rfl, rfl⟩, rfl, rfl⟩

/-! ## What a handler sees -/

namespace Handler

theorem finish_take_succ {steps : List Step} {i : Nat} {step : Step} (hstep : steps[i]? = some step)
    (handle : Option Handle) (desk : Desk) : finish handle desk (steps.take (i + 1)) =
      step.act handle (finish handle desk (steps.take i)) := by
  have htake : steps.take (i + 1) = steps.take i ++ [step] := by
    rw [List.take_add_one, hstep]
    rfl
  rw [htake, finish, List.foldl_append]
  rfl

/-- The observation of a step is made between the steps before it and the step itself. -/
theorem getElem?_observe (handle : Option Handle) (desk : Desk) (steps : List Step) (i : Nat) :
    (observe handle desk steps)[i]? = steps[i]?.map fun step =>
      ⟨step.name, step.reply handle (finish handle desk (steps.take i)),
        (finish handle desk (steps.take (i + 1))).current? handle⟩ := by
  induction steps generalizing desk i with
  | nil => rfl
  | cons step steps ih =>
    cases i with
    | zero => rfl
    | succ i => exact ih (step.act handle desk) i

end Handler

/-- An observation of a step tells of the cell: the token after the step is what the cell holds
then, and reading it, through the handle or an extracted one, or listing the cookies gave what the
cell held before. -/
structure Observation.Tells (policy : Policy) (before after : Cell) (step : Step)
    (observation : Observation) : Prop where
  name : observation.name = step.name
  current : observation.current = some after.current
  read : step = .get ∨ step = .extract → observation.reply = .token before.current
  listed : step = .cookieList → ∃ list, observation.reply = .cookies list ∧
    ∀ value, (policy.tokenCookieName, value) ∈ list ↔ before.content = some value

/-- A transcript tells of the cell at the start and at every step. -/
structure Transcript.Tells (policy : Policy) (entropy : Entropy) (cell : Cell) (steps : List Step)
    (transcript : Transcript) : Prop where
  start : transcript.start = some cell.current
  length : transcript.observations.length = steps.length
  observations : ∀ (i : Nat) (step : Step) (observation : Observation), steps[i]? = some step →
    transcript.observations[i]? = some observation →
    Observation.Tells policy (cell.after policy entropy (steps.take i))
      (cell.after policy entropy (steps.take (i + 1))) step observation

/-- The transcript of the handler, if it ran. -/
def Answer.transcript? : Answer → Option Transcript
  | .notReady _ => none
  | .failed _ transcript => some transcript
  | .responded response => response.transcript

theorem Answer.isSome_transcript? (answer : Answer) :
    answer.transcript?.isSome = answer.reached := by
  cases answer <;> rfl

theorem Answer.transcript?_withSetCookies (answer : Answer) (more : List String) :
    (answer.withSetCookies more).transcript? = answer.transcript? := by
  cases answer <;> rfl

theorem Answer.transcript?_ofSteps (handle : Option Handle) (desk : Desk) (steps : List Step) :
    (Answer.ofSteps handle desk steps).transcript? =
      some (Handler.transcript handle desk steps) := by
  cases h : (Handler.finish handle desk steps).failure with
  | some => rw [ofSteps_of_failure h]; rfl
  | none => rw [ofSteps_of_no_failure h]; rfl

theorem Handler.length_observe (handle : Option Handle) (desk : Desk) (steps : List Step) :
    (observe handle desk steps).length = steps.length := by
  induction steps generalizing desk with
  | nil => rfl
  | cons step steps ih => exact congrArg (· + 1) (ih _)

theorem Handler.observation_tells (handle : Handle) (desk : Desk) (step : Step) :
    Observation.Tells handle.policy (desk.exchange.cell handle.policy)
      ((step.act (some handle) desk).exchange.cell handle.policy) step
      ⟨step.name, step.reply (some handle) desk,
        (step.act (some handle) desk).current? (some handle)⟩ where
  name := rfl
  current := rfl
  read h := by
    rcases h with rfl | rfl
    · rfl
    · rfl
  listed h := by
    subst h
    exact ⟨desk.exchange.jar.toList, rfl, fun value => Jar.mem_toList_iff⟩

theorem Handler.transcript_tells (handle : Handle) (desk : Desk) (steps : List Step) :
    Transcript.Tells handle.policy handle.entropy (desk.exchange.cell handle.policy) steps
      (transcript (some handle) desk steps) where
  start := rfl
  length := length_observe _ _ _
  observations i step observation hstep hobservation := by
    have hfinish := finish_take_succ hstep (some handle) desk
    have htells := observation_tells handle (finish (some handle) desk (steps.take i)) step
    rw [← hfinish, Exchange.cell_finish, Exchange.cell_finish] at htells
    rw [transcript, getElem?_observe, hstep] at hobservation
    cases hobservation
    exact htells

/-! ## The cell of a request -/

theorem Handle.isStale_eq_isNone_filter (handle : Handle) :
    handle.isStale = (handle.received.filter fun text =>
      Verdict.accepts handle.policy.secret text handle.session).isNone := by
  unfold isStale
  cases handle.received with
  | none => rfl
  | some text => cases h : Verdict.accepts handle.policy.secret text handle.session <;> simp [h]

namespace Protection

variable {p : Protection} {request : Http.Request} {mint : Mint}

/-- The layer in front of the handler fills the cell. -/
theorem cell_exchangeFor (p : Protection) (request : Http.Request) (mint : Mint) :
    (p.exchangeFor request mint).cell p.policy = Cell.start p request mint := by
  have hstale := (p.handle request).isStale_eq_isNone_filter
  rw [Cell.start]
  cases hfilter : (p.handle request).received.filter fun text =>
      Verdict.accepts p.policy.secret text (p.provider.session request) with
  | none =>
    rw [exchangeFor_of_isStale (hstale.trans (congrArg Option.isNone hfilter))]
    exact Exchange.cell_issue (p.handle request) _ _
  | some text =>
    rw [exchangeFor_of_not_isStale (hstale.trans (congrArg Option.isNone hfilter))]
    exact congrArg (Cell.mk · mint) (Option.filter_eq_some_iff.1 hfilter).1

theorem cell_finished (p : Protection) (request : Http.Request) (steps : List Step) (mint : Mint) :
    (p.finished request steps mint).exchange.cell p.policy =
      (Cell.start p request mint).after p.policy p.entropy steps := by
  rw [← cell_exchangeFor]
  exact Exchange.cell_finish (p.handle request) (p.desk request mint) steps

/-- The transcript of a handler that ran is that of its steps behind the layer. -/
theorem transcript?_serve {application : Application}
    (h : (p.serve request application mint).1.reached) :
    (p.serve request application mint).1.transcript? =
      some (Handler.transcript (some (p.handle request)) (p.desk request mint)
        application.steps) := by
  cases hready : application.readyError with
  | some message =>
    rw [serve, hready] at h
    cases h
  | none =>
    rw [serve_of_ready hready] at h ⊢
    rw [serveReady_of_pass (reached_serveReady_iff.1 h), Answer.transcript?_withSetCookies,
      Answer.transcript?_ofSteps]

theorem transcript_eq_of_serve {application : Application} {transcript : Transcript}
    (h : (p.serve request application mint).1.transcript? = some transcript) :
    transcript =
      Handler.transcript (some (p.handle request)) (p.desk request mint) application.steps := by
  have hreached := Option.isSome_of_eq_some h
  rw [Answer.isSome_transcript?] at hreached
  exact Option.some.inj (h.symm.trans (transcript?_serve hreached))

/-- Whatever steps a handler has taken, the handle, the handle that it extracts and the jar agree on
the token, and it is the content of one cell: filled with the received token, if that is accepted
for the session of the request, or else with a newly generated one, and changed by the steps as a
cell is. Where a handler runs, its transcript tells of this cell at every step. -/
theorem reads_one_cell (p : Protection) (request : Http.Request) (mint : Mint) :
    (∀ steps, ((Cell.start p request mint).after p.policy p.entropy steps).ReadBy
      (p.handle request) (p.finished request steps mint).exchange) ∧
    ∀ application, (p.serve request application mint).1.reached →
      ∃ transcript, (p.serve request application mint).1.transcript? = some transcript ∧
        transcript.Tells p.policy p.entropy (Cell.start p request mint) application.steps := by
  constructor
  · intro steps
    rw [← cell_finished]
    exact Exchange.readBy_cell (p.handle request) _
  · intro application hreached
    refine ⟨_, transcript?_serve hreached, ?_⟩
    rw [← cell_exchangeFor]
    exact Handler.transcript_tells (p.handle request) (p.desk request mint) application.steps

/-- On the opening of the sample run the application puts a text of its own in place of the token
that it had bound to bob, and removes it; it reads what was written last. -/
theorem overwritten_removed_token_read : ∃ transcript,
    (Sample.protection.serve Sample.openingRequest
      ⟨none, [.set "bob", .cookieAdd "t" "v", .get, .reset, .extract]⟩ Mint.fresh).1.transcript? =
        some transcript ∧
      (∃ read, transcript.observations[2]? = some read ∧ read.reply = .token (.ok "v")) ∧
      ∃ read, transcript.observations[4]? = some read ∧ read.reply = .token (.error .noCookie) := by
  obtain ⟨-, htells⟩ := reads_one_cell Sample.protection Sample.openingRequest Mint.fresh
  obtain ⟨transcript, htranscript, -, hlength, hobservations⟩ := htells
    ⟨none, [.set "bob", .cookieAdd "t" "v", .get, .reset, .extract]⟩
    ((reached_serve_iff rfl).2 (.inl (by decide)))
  have hread (i : Nat) (hi : i < 5) : ∃ read, transcript.observations[i]? = some read :=
    ⟨_, List.getElem?_eq_getElem (hlength ▸ hi)⟩
  obtain ⟨read, hget⟩ := hread 2 (by decide)
  obtain ⟨read', hextract⟩ := hread 4 (by decide)
  exact ⟨transcript, htranscript,
    ⟨read, hget, (hobservations 2 .get read rfl hget).read (.inl rfl)⟩,
    ⟨read', hextract, (hobservations 4 .extract read' rfl hextract).read (.inr rfl)⟩⟩

end Protection

end DoubleSubmit
