import DoubleSubmit.Http.Request

/-! Drafts and the requests made from them. A draft is a request exactly if its method, its target
and each of its headers is one of HTTP (`Draft.exists_check_iff`), and then the request has the
values of the draft under every name (`Draft.headerValues_of_check`). -/

namespace DoubleSubmit.Http.Request

variable {headers : List (String × List UInt8)} {checked : List Header}

/-- A header of a draft is one of HTTP. -/
def ValidHeader (header : String × List UInt8) : Prop :=
  (HeaderName.ofText? header.1).isSome ∧ header.2.all isFieldByte

theorem checkHeader_eq_ok_iff {name : String} {value : List UInt8} {header : Header} :
    checkHeader name value = .ok header ↔
      HeaderName.ofText? name = some header.name ∧ header.value.bytes = value := by
  obtain ⟨name', ⟨bytes, hvalid⟩⟩ := header
  unfold checkHeader HeaderValue.ofBytes?
  cases HeaderName.ofText? name with
  | none => simp
  | some => grind

theorem exists_checkHeader_iff {header : String × List UInt8} :
    (∃ checked, checkHeader header.1 header.2 = .ok checked) ↔ ValidHeader header := by
  simp only [checkHeader_eq_ok_iff, ValidHeader, Option.isSome_iff_exists]
  constructor
  · rintro ⟨checked, hname, hvalue⟩
    exact ⟨⟨checked.name, hname⟩, hvalue ▸ checked.value.valid⟩
  · rintro ⟨⟨name, hname⟩, hvalid⟩
    exact ⟨⟨name, header.2, hvalid⟩, hname, rfl⟩

theorem checkHeaders_cons_eq_ok_iff {header : String × List UInt8} :
    checkHeaders (header :: headers) = .ok checked ↔ ∃ first rest,
      checkHeader header.1 header.2 = .ok first ∧ checkHeaders headers = .ok rest ∧
        checked = first :: rest := by
  rw [checkHeaders]
  cases checkHeader header.1 header.2 with
  | error => simp
  | ok first =>
    cases checkHeaders headers with
    | error => simp
    | ok rest => simp [eq_comm]

theorem exists_checkHeaders_iff :
    (∃ checked, checkHeaders headers = .ok checked) ↔ ∀ header ∈ headers, ValidHeader header := by
  induction headers with
  | nil => simp [checkHeaders]
  | cons header headers ih =>
    rw [List.forall_mem_cons, ← ih, ← exists_checkHeader_iff]
    simp only [checkHeaders_cons_eq_ok_iff]
    constructor
    · rintro ⟨_, first, rest, hfirst, hrest, rfl⟩
      exact ⟨⟨first, hfirst⟩, rest, hrest⟩
    · rintro ⟨⟨first, hfirst⟩, rest, hrest⟩
      exact ⟨_, first, rest, hfirst, hrest, rfl⟩

theorem headerValues_of_checkHeaders (h : checkHeaders headers = .ok checked)
    (name : HeaderName) :
    ((checked.filter fun header => header.name = name).map (·.value)).map (·.bytes) =
      (headers.filter fun header => HeaderName.ofText? header.1 = some name).map Prod.snd := by
  induction headers generalizing checked with
  | nil => cases h; rfl
  | cons header headers ih =>
    obtain ⟨first, rest, hfirst, hrest, rfl⟩ := checkHeaders_cons_eq_ok_iff.1 h
    obtain ⟨hname, hvalue⟩ := checkHeader_eq_ok_iff.1 hfirst
    rw [List.filter_cons, List.filter_cons, hname]
    by_cases heq : first.name = name
    · simp [heq, hvalue, ← ih hrest]
    · simp [heq, ← ih hrest]

namespace Draft

/-- The values that a draft has under a name. -/
def values (draft : Draft) (name : HeaderName) : List (List UInt8) :=
  (draft.headers.filter fun header => HeaderName.ofText? header.1 = some name).map Prod.snd

/-- The draft without its headers of a name. -/
def without (draft : Draft) (name : HeaderName) : Draft :=
  { draft with
    headers := draft.headers.filter fun header => HeaderName.ofText? header.1 ≠ some name }

variable {draft : Draft} {request : Request}

theorem check_eq_ok_iff : draft.check = .ok request ↔
    Method.ofName? draft.method = some request.method ∧
      Uri.path? draft.target = some request.path ∧
      checkHeaders draft.headers = .ok request.headers ∧ draft.session = request.session := by
  obtain ⟨method, path, headers, session⟩ := request
  unfold check
  cases Method.ofName? draft.method with
  | none => simp
  | some =>
    cases Uri.path? draft.target with
    | none => simp
    | some => cases checkHeaders draft.headers <;> simp

theorem exists_check_iff : (∃ request, draft.check = .ok request) ↔
    (Method.ofName? draft.method).isSome ∧ (Uri.path? draft.target).isSome ∧
      ∀ header ∈ draft.headers, ValidHeader header := by
  simp only [check_eq_ok_iff, ← exists_checkHeaders_iff, Option.isSome_iff_exists]
  constructor
  · rintro ⟨request, hmethod, hpath, hheaders, _⟩
    exact ⟨⟨_, hmethod⟩, ⟨_, hpath⟩, _, hheaders⟩
  · rintro ⟨⟨method, hmethod⟩, ⟨path, hpath⟩, headers, hheaders⟩
    exact ⟨⟨method, path, headers, draft.session⟩, hmethod, hpath, hheaders, rfl⟩

/-- The session attached to a draft does not matter to whether it is a request. -/
theorem check_withSession (h : draft.check = .ok request) (session : Option String) :
    { draft with session }.check = .ok { request with session } := by
  obtain ⟨hmethod, hpath, hheaders, -⟩ := check_eq_ok_iff.1 h
  exact check_eq_ok_iff.2 ⟨hmethod, hpath, hheaders, rfl⟩

theorem method_name_of_check (h : draft.check = .ok request) :
    request.method.name = draft.method :=
  Method.name_of_ofName? (check_eq_ok_iff.1 h).1

/-- A draft whose other headers make a request is one if its values under the name are values of
HTTP. -/
theorem exists_check_of_without {name : HeaderName}
    (h : ∃ request, (draft.without name).check = .ok request)
    (hvalues : ∀ value ∈ draft.values name, value.all isFieldByte) :
    ∃ request, draft.check = .ok request := by
  rw [exists_check_iff] at h ⊢
  obtain ⟨hmethod, htarget, hheaders⟩ := h
  refine ⟨hmethod, htarget, fun header hheader => ?_⟩
  by_cases hname : HeaderName.ofText? header.1 = some name
  · refine ⟨Option.isSome_of_eq_some hname, hvalues header.2 (List.mem_map.2 ⟨header, ?_, rfl⟩)⟩
    exact List.mem_filter.2 ⟨hheader, decide_eq_true hname⟩
  · exact hheaders header (List.mem_filter.2 ⟨hheader, decide_eq_true hname⟩)

theorem headerValues_of_check (h : draft.check = .ok request) (name : HeaderName) :
    (request.headerValues name).map (·.bytes) = draft.values name :=
  headerValues_of_checkHeaders (check_eq_ok_iff.1 h).2.2.1 name

end Draft

end DoubleSubmit.Http.Request
