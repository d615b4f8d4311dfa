import DoubleSubmit.Proofs.Cookie.Sent
import DoubleSubmit.Proofs.Cookie.Spelling

/-! Clean names are the only ones under which a token is read back. Writing a cookie encodes
nothing, reading it cuts, trims and decodes, each of which can only shorten a name: what is read
under the whole name has lost nothing (`Cookie.cleanName_of_ofPiece?`). So a request that sends a
token is found to bring one exactly if the name of the token cookie is clean
(`Client.Sends.isSome_get?_iff`). -/

namespace DoubleSubmit

open Text

theorem Token.Plain.equals_notMem {text : String} (h : Plain text) : '=' ∉ text.toList := by
  intro hmem
  rcases h _ hmem with hdigit | hseparator
  · exact absurd hdigit (by decide)
  · exact absurd hseparator (by decide)

namespace Cookie

variable {name text value : String} {piece : List Char}

theorem cleanName_of_ofPiece? (hname : ∀ c ∈ name.toList, Http.isFieldChar c)
    (htext : '=' ∉ text.toList) (hpiece : piece ∈ pieces ';' (name ++ "=" ++ text).toList)
    (hread : ofPiece? piece = some (name, value)) : CleanName name := by
  obtain ⟨sent, _, ⟨front, back, rfl, hequals, htrim, -⟩, hne, hdecode, -⟩ :=
    ofPiece?_eq_some_iff.1 hread
  have hinfix : front ++ '=' :: back <:+: name.toList ++ '=' :: text.toList := by
    simpa using isInfix_of_mem_pieces hpiece
  have hfront : front <:+: name.toList := isInfix_of_append_cons hinfix htext
  -- The name as sent is a part of the name, and decoding makes it no longer.
  have hpart : sent.toList <:+: name.toList := htrim ▸ (trim_isInfix front).trans hfront
  obtain rfl : sent = name :=
    eq_of_isInfix_of_utf8_length_le hpart (Percent.length_le_of_decode? hdecode)
  obtain rfl : front = sent.toList :=
    hfront.eq_of_length (Nat.le_antisymm hfront.length_le (htrim ▸ (trim_isInfix front).length_le))
  exact {
    ne_empty := hne
    no_semicolon := fun h => not_mem_of_mem_pieces hpiece (List.mem_append_left _ h)
    no_equals := hequals
    no_control := hname
    no_escape := Percent.not_hasEscape_of_decode?_self hdecode
    no_blank_head := fun c hc => head?_trim sent.toList c (htrim.symm ▸ hc)
    no_blank_last := fun c hc => getLast?_trim sent.toList c (htrim.symm ▸ hc) }

end Cookie

namespace Client.Sends

variable {policy : Policy} {text : String} {request : Http.Request}

theorem isSome_get?_iff (h : Sends policy (some text) request) (htext : Token.Plain text) :
    ((Jar.ofRequest request).get? policy.tokenCookieName).isSome ↔
      Cookie.CleanName policy.tokenCookieName := by
  constructor
  · intro hfound
    obtain ⟨value, hvalue⟩ := Jar.isSome_get?_ofRequest_iff.1 hfound
    obtain ⟨piece, hpiece, hread⟩ := List.mem_filterMap.1 hvalue
    obtain ⟨header, hheaders, hbytes⟩ := List.map_eq_singleton_iff.1 h.cookie
    rw [Cookie.requestPieces_of_bytes_eq h.cookie] at hpiece
    have hfield := header.valid
    rw [hbytes, Http.all_isFieldByte_utf8, List.all_eq_true] at hfield
    refine Cookie.cleanName_of_ofPiece? (fun c hc => hfield c ?_) htext.equals_notMem hpiece hread
    simp [hc]
  · intro hname
    rw [h.received_eq hname (fun _ => htext.of_held)]
    rfl

end Client.Sends

end DoubleSubmit
