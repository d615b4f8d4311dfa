import DoubleSubmit.Proofs.Cookie.Sent
import DoubleSubmit.Proofs.Issuance

/-! Which requests are admitted. A request reaches its handler when its method changes no state, its
path is exempt, or it echoes in its header the signed token that its last token cookie holds
(`Protection.Admissible`). Every other request is refused with an empty answer. -/

namespace DoubleSubmit

open Text

theorem Http.Method.isGuarded_iff {method : Http.Method} :
    method.isGuarded ↔ method.name ∈ ["POST", "PUT", "PATCH", "DELETE"] := by
  rw [isGuarded, guardedNames, List.contains_eq_mem, decide_eq_true_eq]

theorem Http.Method.isGuarded_eq_false_iff {method : Http.Method} :
    method.isGuarded = false ↔ method.name ∉ ["POST", "PUT", "PATCH", "DELETE"] := by
  rw [← isGuarded_iff, Bool.not_eq_true]

theorem Policy.isExempt_iff {policy : Policy} {path : String} :
    policy.isExempt path ↔ ∃ paths, policy.exempt = some paths ∧ paths.covers path := by
  unfold isExempt
  cases policy.exempt <;> simp

/-- A request of a session echoes a text: it is the value of the token cookie and of the header,
and it signs the session. -/
structure Policy.Echoed (policy : Policy) (session : String) (request : Http.Request) (key : Secret)
    (text : String) : Prop where
  secret_eq : policy.secret = some key
  cookie : Cookie.Gives request policy.tokenCookieName text
  header : request.PlainHeader policy.headerName text
  signs : Token.Signs key text session

namespace Protection

/-- A request may pass: by its method, by its path or by what it echoes. The session of a request
without one is empty. -/
def Admissible (p : Protection) (request : Http.Request) : Prop :=
  request.method.name ∉ ["POST", "PUT", "PATCH", "DELETE"] ∨
    (∃ paths, p.policy.exempt = some paths ∧ paths.covers request.path) ∨
      ∃ key text, p.policy.Echoed ((p.provider.find? request).getD "") request key text

variable {p : Protection} {request : Http.Request}

theorem echoes_iff_echoed : Guard.echoes (p.handle request) request ↔
    ∃ key text, p.policy.Echoed ((p.provider.find? request).getD "") request key text := by
  rw [Guard.echoes, Option.any_eq_true]
  constructor
  · rintro ⟨text, hheader, hverify⟩
    obtain ⟨hreceived, haccepts⟩ := Handle.verify_iff.1 hverify
    obtain ⟨key, hkey, hsigns⟩ := Verdict.accepts_iff_signs.1 haccepts
    exact ⟨key, text, hkey, Jar.get?_ofRequest_iff.1 hreceived,
      Http.Request.plainHeader?_eq_some_iff.1 hheader, hsigns⟩
  · rintro ⟨key, text, hkey, hcookie, hheader, hsigns⟩
    refine ⟨text, Http.Request.plainHeader?_eq_some_iff.2 hheader, Handle.verify_iff.2 ⟨?_, ?_⟩⟩
    · exact Jar.get?_ofRequest_iff.2 hcookie
    · exact Verdict.accepts_iff_signs.2 ⟨key, hkey, hsigns⟩

theorem decision_eq_pass_iff_admissible :
    Guard.decision (some (p.handle request)) request = .pass ↔ p.Admissible request := by
  rw [Guard.decision_eq_pass_iff, echoes_iff_echoed, Http.Method.isGuarded_eq_false_iff,
    Admissible, ← Policy.isExempt_iff]
  rfl

section Ready

variable {application : Application} {mint : Mint} (hready : application.readyError = none)

include hready

theorem reached_serve_iff :
    (p.serve request application mint).1.reached ↔ p.Admissible request := by
  rw [serve_of_ready hready, reached_serveReady_iff, decision_eq_pass_iff_admissible]

theorem serve_of_not_admissible (h : ¬p.Admissible request) :
    ∃ cookies, (p.serve request application mint).1 = .responded ⟨403, "", cookies, none⟩ := by
  rw [← decision_eq_pass_iff_admissible] at h
  rw [serve_of_ready hready, serveReady_of_not_pass h]
  exact ⟨_, rfl⟩

theorem serve_ne_ofError (error : Error) (cookies : List String) :
    (p.serve request application mint).1 ≠
      .responded ((Response.ofError error).withSetCookies cookies) := by
  intro hanswer
  by_cases h : p.Admissible request
  · have hreached : (p.serve request application mint).1.reached := (reached_serve_iff hready).2 h
    rw [hanswer] at hreached
    cases hreached
  · have hforbidden : ∃ cookies, (p.serve request application mint).1 =
        .responded ⟨403, "", cookies, none⟩ := serve_of_not_admissible hready h
    rw [hanswer] at hforbidden
    obtain ⟨_, hforbidden⟩ := hforbidden
    cases hforbidden

end Ready

end Protection

/-! ## A sample run

A client opens a page, is issued a token and echoes it in a post. -/

namespace Sample

/-- Signs with a key of one byte, in a cookie and a header of one letter. -/
def protection : Protection where
  policy := .chosen [0x6b] [.hostPrefix false, .cookieName "t", .headerName "x"]
  provider := .attached
  entropy := .counting

def opening : Visit := ⟨⟨"GET", "/", [], some "alice"⟩, ⟨none, []⟩⟩

/-- The token that the client is issued. -/
def token : Token := ⟨"Yv3BNYgcTAPX6txEEiDmW51oIxNBBpuEWUXOPW6etYw", "AAECAwQFBgcICQoLDA0ODw"⟩

def key : Secret := ⟨[0x6b], by decide⟩

def blindPost : Visit := ⟨⟨"POST", "/pay", [], some "alice"⟩, ⟨none, []⟩⟩

def echoingPost : Visit where
  draft := ⟨"POST", "/pay", [("Cookie", Text.utf8 ("t=" ++ token.text)),
    ("x", Text.utf8 token.text)], some "alice"⟩
  application := ⟨none, []⟩

def openingRequest : Http.Request := ⟨⟨"GET", by decide⟩, "/", [], some "alice"⟩

def blindRequest : Http.Request := ⟨⟨"POST", by decide⟩, "/pay", [], some "alice"⟩

def echoingRequest : Http.Request where
  method := ⟨"POST", by decide⟩
  path := "/pay"
  headers := [⟨.cookie, Text.utf8 ("t=" ++ token.text), by decide +kernel⟩,
    ⟨⟨"x"⟩, Text.utf8 token.text, by decide +kernel⟩]
  session := some "alice"

theorem check_opening : opening.draft.check = .ok openingRequest := by rfl

theorem check_blindPost : blindPost.draft.check = .ok blindRequest := by rfl

set_option maxRecDepth 10000 in
theorem check_echoingPost : echoingPost.draft.check = .ok echoingRequest := by rfl

/-- The token is the one of alice over the first window of the entropy. -/
theorem token_eq : protection.policy.issuer.token "alice" (protection.entropy.window 0 16) =
    token := by decide +kernel

theorem issues_opening :
    (protection.run [opening] Mint.fresh).2.issues = [⟨"alice", token⟩] := by
  have hopening : [opening].flatMap protection.issuedOn = ["alice"] := rfl
  rw [Protection.mint_run, hopening, ← token_eq]
  rfl

theorem plain_token : Token.Plain token.text := token_eq ▸ Token.plain_signed _ _ _

theorem cleanName : Cookie.CleanName protection.policy.tokenCookieName where
  ne_empty := by decide
  no_semicolon := by decide
  no_equals := by decide
  no_control := List.all_eq_true.1 (by decide)
  no_escape := Percent.not_hasEscape_of_not_mem (by decide)
  no_blank_head c hc := by
    cases hc
    decide
  no_blank_last c hc := by
    cases hc
    decide

theorem ofText?_headerName :
    Http.HeaderName.ofText? protection.policy.headerName = some ⟨"x"⟩ := by decide +kernel

theorem sends_echoingRequest :
    Client.Sends protection.policy (some token.text) echoingRequest where
  cookie := rfl
  echo name hname := by
    rw [ofText?_headerName] at hname
    cases hname
    rfl

theorem echoed : protection.policy.Echoed "alice" echoingRequest key token.text where
  secret_eq := rfl
  cookie := Jar.get?_ofRequest_iff.1
    (sends_echoingRequest.received_eq cleanName fun _ => plain_token.of_held)
  header := Http.Request.plainHeader?_eq_some_iff.1
    (sends_echoingRequest.plainHeader?_eq ofText?_headerName fun _ => plain_token.of_held)
  signs := by
    have haccepts : Verdict.accepts (some key) token.text "alice" := by
      rw [← token_eq]
      exact Issuer.accepts_token rfl "alice" (by decide)
    obtain ⟨_, hkey, hsigns⟩ := Verdict.accepts_iff_signs.1 haccepts
    cases hkey
    exact hsigns

end Sample

/-! ## Admission -/

namespace Protection

/-- Every visit whose draft is a request and whose application is ready is answered. The handler
runs exactly on admissible requests, all others are refused, and the protection gives no other
answer of its own. Neither the entropy nor the state of issuing nor the handler decides on
admission. -/
theorem visit_reached_iff_admissible (p : Protection) (visit : Visit) (mint : Mint)
    (request : Http.Request) (hrequest : visit.draft.check = .ok request)
    (hready : visit.application.readyError = none) :
    ∃ answer, (p.visit visit mint).1 = .ok answer ∧
      (answer.reached ↔ p.Admissible request) ∧
      (¬p.Admissible request → ∃ cookies, answer = .responded ⟨403, "", cookies, none⟩) ∧
      (∀ error cookies,
        answer ≠ .responded ((Response.ofError error).withSetCookies cookies)) ∧
      ∀ (entropy : Entropy) (application : Application) (mint' : Mint),
        application.readyError = none →
          ∃ answer', (Protection.visit { p with entropy } ⟨visit.draft, application⟩ mint').1 =
            .ok answer' ∧ answer'.reached = answer.reached := by
  refine ⟨(p.serve request visit.application mint).1, ?_, reached_serve_iff hready,
    serve_of_not_admissible hready, serve_ne_ofError hready, ?_⟩
  · rw [visit_of_check hrequest]
  · intro entropy application mint' hready'
    have hrequest' : (Visit.mk visit.draft application).draft.check = .ok request := hrequest
    refine ⟨_, by rw [visit_of_check hrequest'], ?_⟩
    rw [Bool.eq_iff_iff, reached_serve_iff hready, reached_serve_iff hready']
    exact Iff.rfl

/-- Even before anything is issued, the post that echoes the token is let through and the one that
echoes nothing is refused. -/
theorem echoingPost_reached_blindPost_refused :
    Sample.echoingPost.draft.check = .ok Sample.echoingRequest ∧
      Sample.blindPost.draft.check = .ok Sample.blindRequest ∧
      (∃ answer, (Sample.protection.visit Sample.echoingPost Mint.fresh).1 = .ok answer ∧
        answer.reached) ∧
      ∃ cookies, (Sample.protection.visit Sample.blindPost Mint.fresh).1 =
        .ok (.responded ⟨403, "", cookies, none⟩) := by
  refine ⟨Sample.check_echoingPost, Sample.check_blindPost, ?_, ?_⟩
  · obtain ⟨answer, hanswer, hreached, -⟩ := visit_reached_iff_admissible Sample.protection
      Sample.echoingPost Mint.fresh Sample.echoingRequest Sample.check_echoingPost rfl
    exact ⟨answer, hanswer,
      hreached.2 (.inr (.inr ⟨Sample.key, Sample.token.text, Sample.echoed⟩))⟩
  · obtain ⟨answer, hanswer, -, hrefused, -⟩ := visit_reached_iff_admissible Sample.protection
      Sample.blindPost Mint.fresh Sample.blindRequest Sample.check_blindPost rfl
    have hblind : ¬Sample.protection.Admissible Sample.blindRequest := by
      rintro (hmethod | ⟨paths, hpaths, -⟩ | ⟨key, text, hechoed⟩)
      · exact hmethod (by decide)
      · cases hpaths
      · obtain ⟨before, after, hsplit, -⟩ := hechoed.cookie
        have hnone : Cookie.ofRequest Sample.blindRequest = [] := rfl
        rw [hnone] at hsplit
        simp at hsplit
    obtain ⟨cookies, hcookies⟩ := hrefused hblind
    exact ⟨cookies, by rw [hanswer, hcookies]⟩

end Protection

end DoubleSubmit
