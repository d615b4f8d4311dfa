import DoubleSubmit.Proofs.Admission

/-! How the token cookie may be spelled. A cookie is looked up under its percent-decoded name, so
that it need not be sent under the name of the token cookie; but it is sent under that name, or its
name as sent holds an escape (`Protection.received_named_or_escaped`). -/

namespace DoubleSubmit

open Text

namespace Cookie

/-- A piece of a cookie header spells a name and a value: they stand around the first equals sign,
as they are sent but for the white space around them. -/
def Spells (piece : List Char) (name value : String) : Prop :=
  ∃ front back, piece = front ++ '=' :: back ∧ '=' ∉ front ∧ trim front = name.toList ∧
    trim back = value.toList

variable {piece : List Char} {name value : String}

theorem spells_iff_cut? : Spells piece name value ↔ ∃ front back,
    cut? '=' piece = some (front, back) ∧ trim front = name.toList ∧ trim back = value.toList := by
  simp only [Spells, cut?_eq_some_iff, and_assoc]

/-- A piece spells one name and one value. -/
theorem Spells.unique {name' value' : String} (h : Spells piece name value)
    (h' : Spells piece name' value') : name = name' ∧ value = value' := by
  obtain ⟨front, back, hcut, hname, hvalue⟩ := spells_iff_cut?.1 h
  obtain ⟨front', back', hcut', hname', hvalue'⟩ := spells_iff_cut?.1 h'
  rw [hcut] at hcut'
  cases hcut'
  exact ⟨String.toList_injective (hname.symm.trans hname'),
    String.toList_injective (hvalue.symm.trans hvalue')⟩

theorem Spells.name_eq {name' value' : String} (h : Spells piece name value)
    (h' : Spells piece name' value') : name = name' :=
  (h.unique h').1

theorem spelled?_eq_some_iff :
    spelled? piece = some (name, value) ↔ Spells piece name value ∧ name ≠ "" := by
  rw [spells_iff_cut?, spelled?]
  cases cut? '=' piece with
  | none => simp
  | some p =>
    obtain ⟨front, back⟩ := p
    simp only [Option.some.injEq, Prod.mk.injEq, Option.ite_none_left_eq_some]
    constructor
    · rintro ⟨hne, rfl, rfl⟩
      exact ⟨⟨front, back, ⟨rfl, rfl⟩, by simp, by simp⟩, by simpa using hne⟩
    · rintro ⟨⟨_, _, ⟨rfl, rfl⟩, hname, hvalue⟩, hne⟩
      rw [hname, hvalue, String.ofList_toList, String.ofList_toList]
      exact ⟨fun h => hne (String.toList_eq_nil_iff.1 h), rfl, rfl⟩

theorem ofPiece?_eq_some_iff : ofPiece? piece = some (name, value) ↔ ∃ sent sentValue,
    Spells piece sent sentValue ∧ sent ≠ "" ∧ Percent.decode? sent = some name ∧
      Percent.decode? sentValue = some value := by
  unfold ofPiece?
  simp only [Option.bind_eq_bind, Option.bind_eq_some_iff, Prod.exists, spelled?_eq_some_iff,
    Option.some.injEq, Prod.mk.injEq, exists_eq_right_right, and_assoc]

end Cookie

namespace Protection

variable {p : Protection} {request : Http.Request}

theorem received_handle (p : Protection) (request : Http.Request) : (p.handle request).received =
    (Jar.ofRequest request).get? p.policy.tokenCookieName := rfl

theorem exists_spelled_of_received {text : String} (h : (p.handle request).received = some text) :
    ∃ piece ∈ Cookie.requestPieces request, ∃ name value, Cookie.Spells piece name value ∧
      Percent.decode? name = some p.policy.tokenCookieName ∧ Percent.decode? value = some text := by
  obtain ⟨before, after, hsplit, -⟩ := Jar.get?_ofRequest_iff.1 h
  have hmem : (p.policy.tokenCookieName, text) ∈ Cookie.ofRequest request := by simp [hsplit]
  obtain ⟨piece, hpiece, hread⟩ := List.mem_filterMap.1 hmem
  obtain ⟨name, value, hspells, -, hname, hvalue⟩ := Cookie.ofPiece?_eq_some_iff.1 hread
  exact ⟨piece, hpiece, name, value, hspells, hname, hvalue⟩

theorem received_isSome_iff : (p.handle request).received.isSome ↔
    ∃ piece ∈ Cookie.requestPieces request, ∃ name value, Cookie.Spells piece name value ∧
      name ≠ "" ∧ Percent.decode? name = some p.policy.tokenCookieName ∧
      (Percent.decode? value).isSome := by
  rw [received_handle, Jar.isSome_get?_ofRequest_iff]
  simp only [Cookie.ofRequest, List.mem_filterMap, Cookie.ofPiece?_eq_some_iff,
    Option.isSome_iff_exists]
  constructor
  · rintro ⟨text, piece, hpiece, name, value, hspells, hne, hname, hvalue⟩
    exact ⟨piece, hpiece, name, value, hspells, hne, hname, text, hvalue⟩
  · rintro ⟨piece, hpiece, name, value, hspells, hne, hname, text, hvalue⟩
    exact ⟨text, piece, hpiece, name, value, hspells, hne, hname, hvalue⟩

/-- A token is received exactly if a piece of a cookie header is read, and its name as sent decodes
to that of the token cookie. Such a name is the name of the token cookie itself, unless it holds an
escape; so under the host mark no cookie is the token cookie whose name as sent neither starts with
the mark nor holds an escape. -/
theorem received_named_or_escaped (p : Protection) (request : Http.Request) :
    ((p.handle request).received.isSome ↔
      ∃ piece ∈ Cookie.requestPieces request, ∃ name value, Cookie.Spells piece name value ∧
        name ≠ "" ∧ Percent.decode? name = some p.policy.tokenCookieName ∧
        (Percent.decode? value).isSome) ∧
    (∀ text, (p.handle request).received = some text →
      ∃ piece ∈ Cookie.requestPieces request, ∃ name value, Cookie.Spells piece name value ∧
        Percent.decode? name = some p.policy.tokenCookieName ∧ Percent.decode? value = some text ∧
        (name = p.policy.tokenCookieName ∨ Percent.HasEscape name.toList)) ∧
    (p.policy.hostPrefix → p.policy.secure →
      (∀ piece ∈ Cookie.requestPieces request, ∀ name value, Cookie.Spells piece name value →
        ¬Policy.hostMark.toList <+: name.toList ∧ ¬Percent.HasEscape name.toList) →
      (p.handle request).received = none) := by
  refine ⟨received_isSome_iff, ?_, ?_⟩
  · intro text htext
    obtain ⟨piece, hpiece, name, value, hspells, hname, hvalue⟩ := exists_spelled_of_received htext
    exact ⟨piece, hpiece, name, value, hspells, hname, hvalue,
      Percent.eq_or_hasEscape_of_decode? hname⟩
  · intro hprefix hsecure hunmarked
    refine Option.eq_none_iff_forall_not_mem.2 fun text htext => ?_
    obtain ⟨piece, hpiece, name, value, hspells, hname, -⟩ := exists_spelled_of_received htext
    obtain ⟨hmark, hescape⟩ := hunmarked piece hpiece name value hspells
    obtain rfl | hescaped := Percent.eq_or_hasEscape_of_decode? hname
    · refine hmark ?_
      rw [Policy.tokenCookieName, hprefix, hsecure, Bool.and_self, if_pos rfl,
        String.toList_append]
      exact List.prefix_append _ _
    · exact hescape hescaped

end Protection

/-! ## A cookie under another name

A client that was issued a token under the host mark sends it back under an escaped name. -/

namespace Sample

/-- Signs with the key of one byte, in the standard cookie. -/
def hostProtection : Protection where
  policy := .chosen [0x6b] [.headerName "x"]
  provider := .attached
  entropy := .counting

def escapedPost : Visit where
  draft := ⟨"POST", "/pay", [("Cookie", Text.utf8 ("%5F%5FHost-csrf_token=" ++ token.text)),
    ("x", Text.utf8 token.text)], some "alice"⟩
  application := ⟨none, []⟩

theorem all_isFieldByte_token : (Text.utf8 token.text).all Http.isFieldByte := by decide +kernel

def escapedRequest : Http.Request where
  method := echoingRequest.method
  path := "/pay"
  headers := [⟨.cookie, Text.utf8 ("%5F%5FHost-csrf_token=" ++ token.text), by decide +kernel⟩,
    ⟨⟨"x"⟩, Text.utf8 token.text, all_isFieldByte_token⟩]
  session := some "alice"

set_option maxRecDepth 10000 in
theorem check_escapedPost : escapedPost.draft.check = .ok escapedRequest := by rfl

theorem requestPieces_escapedRequest : Cookie.requestPieces escapedRequest =
    [("%5F%5FHost-csrf_token=" ++ token.text).toList] :=
  (Cookie.requestPieces_of_bytes_eq rfl).trans (Cookie.pieces_append_plain (by decide) plain_token)

theorem spells_escapedCookie : Cookie.Spells ("%5F%5FHost-csrf_token=" ++ token.text).toList
    "%5F%5FHost-csrf_token" token.text :=
  ⟨"%5F%5FHost-csrf_token".toList, token.text.toList, by simp, by decide, by decide,
    plain_token.trim_eq⟩

theorem ofRequest_escapedRequest :
    Cookie.ofRequest escapedRequest = [("__Host-csrf_token", token.text)] := by
  have hread : Cookie.ofPiece? ("%5F%5FHost-csrf_token=" ++ token.text).toList =
      some ("__Host-csrf_token", token.text) :=
    Cookie.ofPiece?_eq_some_iff.2 ⟨_, _, spells_escapedCookie, by decide, by decide +kernel,
      Percent.decode?_of_not_hasEscape plain_token.not_hasEscape⟩
  rw [Cookie.ofRequest, requestPieces_escapedRequest, List.filterMap_cons, hread]
  rfl

theorem tokenCookieName_hostProtection :
    hostProtection.policy.tokenCookieName = "__Host-csrf_token" := by decide

theorem echoed_escapedRequest :
    hostProtection.policy.Echoed "alice" escapedRequest key token.text where
  secret_eq := rfl
  cookie := ⟨[], [], tokenCookieName_hostProtection ▸ ofRequest_escapedRequest, by simp⟩
  header := Http.Request.plainHeader?_eq_some_iff.1 (by decide +kernel)
  signs := echoed.signs

/-- No piece of the request is sent under the marked name of the token cookie, and yet a token is
received and the request reaches its handler. -/
theorem escaped_name_received :
    hostProtection.policy.tokenCookieName = "__Host-csrf_token" ∧
      escapedPost.draft.check = .ok escapedRequest ∧
      (hostProtection.handle escapedRequest).received = some token.text ∧
      ¬(∃ piece ∈ Cookie.requestPieces escapedRequest, ∃ value,
        Cookie.Spells piece hostProtection.policy.tokenCookieName value) ∧
      ∃ answer, (hostProtection.visit escapedPost Mint.fresh).1 = .ok answer ∧ answer.reached := by
  have hreceived : (hostProtection.handle escapedRequest).received = some token.text := by
    rw [Protection.received_handle]
    exact Jar.get?_ofRequest_iff.2 echoed_escapedRequest.cookie
  refine ⟨tokenCookieName_hostProtection, check_escapedPost, hreceived, ?_, ?_⟩
  · rintro ⟨piece, hpiece, value, hspells⟩
    rw [requestPieces_escapedRequest, List.mem_singleton] at hpiece
    rw [hpiece, tokenCookieName_hostProtection] at hspells
    have hnames : "__Host-csrf_token" ≠ "%5F%5FHost-csrf_token" := by decide
    exact hnames (hspells.name_eq spells_escapedCookie)
  · refine ⟨_, by rw [Protection.visit_of_check check_escapedPost], ?_⟩
    exact (Protection.reached_serve_iff rfl).2
      (.inr (.inr ⟨key, token.text, echoed_escapedRequest⟩))

/-- Under the host mark the cookie of the sample post is not read: its name is one letter. -/
theorem unmarked_name_unread : hostProtection.policy.hostPrefix ∧ hostProtection.policy.secure ∧
    echoingPost.draft.check = .ok echoingRequest ∧
    (hostProtection.handle echoingRequest).received = none := by
  obtain ⟨-, -, hunmarked⟩ :=
    Protection.received_named_or_escaped hostProtection echoingRequest
  refine ⟨rfl, rfl, check_echoingPost, hunmarked rfl rfl fun piece hpiece name value hspells => ?_⟩
  have hpieces : Cookie.requestPieces echoingRequest = [("t=" ++ token.text).toList] :=
    (Cookie.requestPieces_of_bytes_eq rfl).trans
      (Cookie.pieces_append_plain (by decide) plain_token)
  have hsent : Cookie.Spells ("t=" ++ token.text).toList "t" token.text :=
    ⟨"t".toList, token.text.toList, by simp, by decide, by decide, plain_token.trim_eq⟩
  rw [hpieces, List.mem_singleton] at hpiece
  rw [hpiece] at hspells
  rw [hspells.name_eq hsent]
  exact ⟨by decide, Percent.not_hasEscape_of_not_mem (by decide)⟩

end Sample

end DoubleSubmit
