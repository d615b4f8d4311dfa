import DoubleSubmit.Cookie.Jar
import DoubleSubmit.Proofs.Text.Bytes

/-! What a request brings. Of the cookies of a name the last one counts (`Jar.get?_ofRequest_iff`),
of the headers of a name the first one, and it counts as missing unless it is plain text
(`plainHeader?_eq_some_iff`). -/

namespace DoubleSubmit

theorem find?_foldl_replaceNamed {α : Type} (name : α → String) (xs ys : List α) (n : String) :
    (ys.foldl (replaceNamed name) xs).find? (name · == n) =
      (ys.reverse.find? (name · == n)).or (xs.find? (name · == n)) := by
  induction ys generalizing xs with
  | nil => rfl
  | cons y ys ih =>
    rw [List.foldl_cons, ih, find?_replaceNamed, List.reverse_cons, List.find?_append,
      Option.or_assoc]
    congr 1
    by_cases h : name y = n <;> simp [h]

/-- The last cookie of a name that the cookie headers of a request spell has this value. -/
def Cookie.Gives (request : Http.Request) (name value : String) : Prop :=
  ∃ before after, ofRequest request = before ++ (name, value) :: after ∧ ∀ c ∈ after, c.1 ≠ name

theorem Cookie.not_gives_of_ofRequest_eq_nil {request : Http.Request} {name value : String}
    (h : ofRequest request = []) : ¬Gives request name value := by
  rintro ⟨before, after, hsplit, -⟩
  rw [h] at hsplit
  exact List.append_ne_nil_of_right_ne_nil before (List.cons_ne_nil _ _) hsplit.symm

namespace Jar

@[simp] theorem get?_ofRequest (request : Http.Request) (name : String) :
    (ofRequest request).get? name = (ofRequest request).received? name := rfl

/-- A name is looked up from the last cookie of a request on. -/
theorem received?_ofRequest (request : Http.Request) (name : String) :
    (ofRequest request).received? name =
      ((Cookie.ofRequest request).reverse.find? (·.1 == name)).map Prod.snd := by
  have hfind := find?_foldl_replaceNamed Prod.fst [] (Cookie.ofRequest request) name
  rw [List.find?_nil, Option.or_none] at hfind
  exact congrArg (Option.map Prod.snd) hfind

theorem isSome_get?_ofRequest_iff {request : Http.Request} {name : String} :
    ((ofRequest request).get? name).isSome ↔ ∃ value, (name, value) ∈ Cookie.ofRequest request := by
  rw [get?_ofRequest, received?_ofRequest, Option.isSome_map, List.find?_isSome]
  constructor
  · rintro ⟨⟨n, value⟩, hmem, hname⟩
    obtain rfl : n = name := by simpa using hname
    exact ⟨value, List.mem_reverse.1 hmem⟩
  · rintro ⟨value, hmem⟩
    exact ⟨(name, value), List.mem_reverse.2 hmem, by simp⟩

theorem get?_ofRequest_iff {request : Http.Request} {name value : String} :
    (ofRequest request).get? name = some value ↔ Cookie.Gives request name value := by
  rw [get?_ofRequest, received?_ofRequest, Option.map_eq_some_iff]
  constructor
  · rintro ⟨⟨n, v⟩, hfound, rfl⟩
    obtain ⟨hname, front, back, hsplit, hfront⟩ := List.find?_eq_some_iff_append.1 hfound
    obtain rfl : n = name := by simpa using hname
    refine ⟨back.reverse, front.reverse, ?_, ?_⟩
    · rw [← List.reverse_reverse (Cookie.ofRequest request), hsplit]
      simp
    · intro c hc
      simpa using hfront c (List.mem_reverse.1 hc)
  · intro h
    obtain ⟨before, after, hsplit, hafter⟩ := h
    refine ⟨(name, value), List.find?_eq_some_iff_append.2 ⟨by simp, after.reverse,
      before.reverse, ?_, ?_⟩, rfl⟩
    · rw [hsplit]
      simp
    · intro c hc
      simpa using hafter c (List.mem_reverse.1 hc)

end Jar

namespace Http

theorem HeaderValue.plain?_eq_some_iff {value : HeaderValue} {text : String} :
    value.plain? = some text ↔
      (∀ b ∈ value.bytes, isPlainByte b) ∧ value.bytes = Text.utf8 text := by
  unfold plain?
  rw [← List.all_eq_true]
  split
  · next h => simp [h, Text.ofUtf8?_eq_some_iff]
  · next h => simp [h]

namespace Request

/-- The first header of a name has this value. -/
def FirstHeader (request : Request) (name : HeaderName) (value : HeaderValue) : Prop :=
  ∃ before after, request.headers = before ++ ⟨name, value⟩ :: after ∧
    ∀ h ∈ before, h.name ≠ name

/-- The first header of the name that a text spells is visible ASCII, spaces and tabs, and reads
as this text. -/
def PlainHeader (request : Request) (name text : String) : Prop :=
  ∃ header value, HeaderName.ofText? name = some header ∧ request.FirstHeader header value ∧
    (∀ b ∈ value.bytes, isPlainByte b) ∧ value.bytes = Text.utf8 text

variable {request : Request}

theorem header?_eq_some_iff {name : HeaderName} {value : HeaderValue} :
    request.header? name = some value ↔ request.FirstHeader name value := by
  rw [header?, Option.map_eq_some_iff]
  constructor
  · rintro ⟨⟨n, v⟩, hfound, rfl⟩
    obtain ⟨hname, before, after, hsplit, hbefore⟩ := List.find?_eq_some_iff_append.1 hfound
    obtain rfl : n = name := by simpa using hname
    refine ⟨before, after, hsplit, ?_⟩
    intro h hh
    simpa using hbefore h hh
  · intro ⟨before, after, hsplit, hbefore⟩
    refine ⟨⟨name, value⟩, List.find?_eq_some_iff_append.2 ⟨by simp, before, after, hsplit, ?_⟩,
      rfl⟩
    intro h hh
    simpa using hbefore h hh

theorem plainHeader?_eq_some_iff {name text : String} :
    request.plainHeader? name = some text ↔ request.PlainHeader name text := by
  simp only [plainHeader?, PlainHeader, Option.bind_eq_some_iff, header?_eq_some_iff,
    HeaderValue.plain?_eq_some_iff]
  constructor
  · intro ⟨header, hname, value, hfirst, hplain⟩
    exact ⟨header, value, hname, hfirst, hplain⟩
  · intro ⟨header, value, hname, hfirst, hplain⟩
    exact ⟨header, hname, value, hfirst, hplain⟩

end Request

end Http

end DoubleSubmit
