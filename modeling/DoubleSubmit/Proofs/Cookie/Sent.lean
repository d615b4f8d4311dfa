import DoubleSubmit.Handle
import DoubleSubmit.Proofs.Request
import DoubleSubmit.Proofs.Token

/-! Cookies as a client sends them back. A token is written in characters that every reader takes as
they are, and a clean name is one that reading does not change; so the token that a client sends
under the name of the token cookie is the token that is received
(`Client.Sends.received_eq`). -/

namespace DoubleSubmit

open Text

/-- A name that is read from a cookie header as it was written: there is something of it, it has
none of the separators, no control character but the tab and nothing to decode, and no white space
at its ends. -/
structure Cookie.CleanName (name : String) : Prop where
  ne_empty : name ≠ ""
  no_semicolon : ';' ∉ name.toList
  no_equals : '=' ∉ name.toList
  no_control : ∀ c ∈ name.toList, Http.isFieldChar c
  no_escape : ¬Percent.HasEscape name.toList
  no_blank_head : ∀ c, name.toList.head? = some c → isBlank c = false
  no_blank_last : ∀ c, name.toList.getLast? = some c → isBlank c = false

namespace Cookie

variable {name text : String}

theorem ofPiece?_of_clean (hname : CleanName name) (htext : Token.Plain text) :
    ofPiece? (name ++ "=" ++ text).toList = some (name, text) := by
  have hcut : cut? '=' (name ++ "=" ++ text).toList = some (name.toList, text.toList) := by
    rw [cut?_eq_some_iff, String.toList_append, String.toList_append, List.append_assoc]
    exact ⟨rfl, hname.no_equals⟩
  have htrim : trim name.toList = name.toList :=
    trim_eq_self hname.no_blank_head hname.no_blank_last
  have hne : name.toList ≠ [] := fun h => hname.ne_empty (String.toList_eq_nil_iff.1 h)
  have hspelled : spelled? (name ++ "=" ++ text).toList = some (name, text) := by
    rw [spelled?, hcut]
    simp only [htrim, hne, if_false, htext.trim_eq, String.ofList_toList]
  rw [ofPiece?, hspelled]
  simp only [Option.bind_eq_bind, Option.bind_some,
    Percent.decode?_of_not_hasEscape hname.no_escape,
    Percent.decode?_of_not_hasEscape htext.not_hasEscape]

/-- The pieces of a request with one cookie header. -/
theorem requestPieces_of_bytes_eq {request : Http.Request}
    (h : (request.headerValues .cookie).map (·.bytes) = [utf8 text]) :
    requestPieces request = pieces ';' text.toList := by
  obtain ⟨value, hvalues, hvalue⟩ := List.map_eq_singleton_iff.1 h
  rw [requestPieces, hvalues, List.flatMap_singleton, headerPieces, hvalue, ofUtf8?_utf8]

theorem pieces_append_plain {front : String} (hfront : ';' ∉ front.toList)
    (htext : Token.Plain text) : pieces ';' (front ++ text).toList = [(front ++ text).toList] := by
  apply pieces_of_not_mem
  rw [String.toList_append, List.mem_append]
  rintro (h | h)
  · exact hfront h
  · exact htext.semicolon_notMem h

theorem pieces_of_clean (hname : CleanName name) (htext : Token.Plain text) :
    pieces ';' (name ++ "=" ++ text).toList = [(name ++ "=" ++ text).toList] := by
  refine pieces_append_plain ?_ htext
  rw [String.toList_append, List.mem_append]
  rintro (h | h)
  · exact hname.no_semicolon h
  · exact absurd h (by decide)

end Cookie

/-- A request sends what a client holds: its token in the one cookie header, under the name of the
token cookie, and in the one header that echoes it; neither header if it holds none. -/
structure Client.Sends (policy : Policy) (held : Option String) (request : Http.Request) :
    Prop where
  cookie : (request.headerValues .cookie).map (·.bytes) =
    held.toList.map fun text => utf8 (policy.tokenCookieName ++ "=" ++ text)
  echo : ∀ name, Http.HeaderName.ofText? policy.headerName = some name →
    (request.headerValues name).map (·.bytes) = held.toList.map utf8

namespace Client.Sends

variable {policy : Policy} {held : Option String} {request : Http.Request}

theorem requestPieces_eq (h : Sends policy held request)
    (hname : Cookie.CleanName policy.tokenCookieName)
    (hheld : ∀ text, held = some text → Token.Plain text) : Cookie.requestPieces request =
      held.toList.map fun text => (policy.tokenCookieName ++ "=" ++ text).toList := by
  cases held with
  | none =>
    rw [Cookie.requestPieces, List.map_eq_nil_iff.1 h.cookie]
    rfl
  | some text =>
    rw [Cookie.requestPieces_of_bytes_eq h.cookie, Cookie.pieces_of_clean hname (hheld text rfl)]
    rfl

theorem ofRequest_eq (h : Sends policy held request)
    (hname : Cookie.CleanName policy.tokenCookieName)
    (hheld : ∀ text, held = some text → Token.Plain text) :
    Cookie.ofRequest request = held.toList.map fun text => (policy.tokenCookieName, text) := by
  rw [Cookie.ofRequest, h.requestPieces_eq hname hheld]
  cases held with
  | none => rfl
  | some text =>
    rw [Option.toList_some, List.map_singleton, List.filterMap_cons,
      Cookie.ofPiece?_of_clean hname (hheld text rfl)]
    rfl

theorem received_eq (h : Sends policy held request)
    (hname : Cookie.CleanName policy.tokenCookieName)
    (hheld : ∀ text, held = some text → Token.Plain text) :
    (Jar.ofRequest request).get? policy.tokenCookieName = held := by
  have hcookies := h.ofRequest_eq hname hheld
  cases held with
  | none =>
    refine Option.eq_none_iff_forall_not_mem.2 fun text htext => ?_
    obtain ⟨before, after, hsplit, -⟩ := Jar.get?_ofRequest_iff.1 htext
    rw [hcookies] at hsplit
    simp at hsplit
  | some text => exact Jar.get?_ofRequest_iff.2 ⟨[], [], hcookies, by simp⟩

theorem plainHeader?_eq (h : Sends policy held request) {name : Http.HeaderName}
    (hheader : Http.HeaderName.ofText? policy.headerName = some name)
    (hheld : ∀ text, held = some text → Token.Plain text) :
    request.plainHeader? policy.headerName = held := by
  have hecho := h.echo name hheader
  have hfirst : request.header? name = (request.headerValues name).head? := by
    rw [Http.Request.header?, Http.Request.headerValues, List.head?_map, List.head?_filter]
  rw [Http.Request.plainHeader?, hheader, Option.bind_some, hfirst]
  cases held with
  | none =>
    rw [List.map_eq_nil_iff.1 hecho]
    rfl
  | some text =>
    obtain ⟨value, hvalues, hvalue⟩ := List.map_eq_singleton_iff.1 hecho
    rw [hvalues, List.head?_cons, Option.bind_some, Http.HeaderValue.plain?_eq_some_iff, hvalue]
    exact ⟨fun b hb => (hheld text rfl).isPlainByte hb, rfl⟩

end Client.Sends

end DoubleSubmit
