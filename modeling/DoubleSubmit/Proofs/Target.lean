import DoubleSubmit.Proofs.Admission
import DoubleSubmit.Proofs.Draft
import Mathlib.Data.List.Forall2
import Mathlib.Data.List.TakeWhile

/-! Targets and the paths that exemptions are asked about. The path of a target is read off its
front, which is what stands before the first question mark or number sign
(`Http.Uri.eq_frontPath_of_pathChars?`). So no query and no fragment changes what a request is
answered, and least of all whether its path is exempt (`Protection.query_wins_no_exemption`). -/

namespace DoubleSubmit

namespace Http.Uri

/-- What stands before the first question mark or number sign of a target. -/
def front (target : String) : String := String.ofList (target.toList.takeWhile (!endsPath ·))

/-- A path, or the root in place of none. -/
def orRoot (path : List Char) : List Char := if path = [] then ['/'] else path

/-- The path of a target that has this front. -/
def frontPath (cs : List Char) : List Char :=
  if cs = ['*'] ∨ cs.head? = some '/' then cs
  else
    match scheme? cs with
    | some (_, rest) => orRoot (rest.dropWhile (· != '/'))
    | none => []

variable {cs path : List Char}

/-! ## Parts of a target -/

theorem endsPath_eq_false_of_isSchemeChar {c : Char} (h : isSchemeChar c) : endsPath c = false := by
  rw [← Bool.not_eq_true]
  intro hends
  simp only [endsPath, Bool.or_eq_true, beq_iff_eq] at hends
  rcases hends with rfl | rfl <;> exact absurd h (by decide)

theorem scheme?_eq_some_iff {scheme rest : List Char} : scheme? cs = some (scheme, rest) ↔
    cs = scheme ++ ':' :: '/' :: '/' :: rest ∧ ∀ c ∈ scheme, isSchemeChar c := by
  constructor
  · intro h
    unfold scheme? at h
    split at h
    · next hrest =>
      cases h
      refine ⟨?_, fun c hc => List.mem_takeWhile_imp hc⟩
      rw [← hrest, List.takeWhile_append_dropWhile]
    · cases h
  · rintro ⟨rfl, hscheme⟩
    have hcolon : ¬isSchemeChar ':' := by decide
    rw [scheme?, List.dropWhile_append_of_pos hscheme, List.takeWhile_append_of_pos hscheme,
      List.dropWhile_cons_of_neg hcolon, List.takeWhile_cons_of_neg hcolon, List.append_nil]
    rfl

theorem Authority.read?_of_endsAuthority {c : Char} (h : endsAuthority c) (a : Authority) :
    a.read? c = none := by
  simp only [endsAuthority, endsPath, Bool.or_eq_true, beq_iff_eq] at h
  rcases h with rfl | rfl | rfl <;> rfl

theorem Authority.not_endsAuthority_of_foldlM {a b : Authority} (h : cs.foldlM read? a = some b) :
    ∀ c ∈ cs, endsAuthority c = false := by
  induction cs generalizing a with
  | nil =>
    intro c hc
    cases hc
  | cons c cs ih =>
    obtain ⟨next, hread, hrest⟩ := Option.bind_eq_some_iff.1 h
    refine List.forall_mem_cons.2 ⟨?_, ih hrest⟩
    rw [← Bool.not_eq_true]
    intro hends
    rw [read?_of_endsAuthority hends] at hread
    cases hread

/-- An authority holds no slash, and so neither a path nor a query nor a fragment. -/
theorem Authority.not_endsAuthority_of_isValid (h : isValid cs) :
    ∀ c ∈ cs, endsAuthority c = false := by
  unfold isValid at h
  cases hread : cs.foldlM read? start with
  | none =>
    rw [hread] at h
    cases h
  | some a => exact not_endsAuthority_of_foldlM hread

theorem eq_takeWhile_of_resource? (h : resource? cs = some path) :
    path = cs.takeWhile (!endsPath ·) := by
  unfold resource? at h
  dsimp only at h
  split at h
  · exact (Option.some.inj h).symm
  · cases h

/-- The path behind an authority is what the front has from its first slash on. -/
theorem takeWhile_dropWhile_endsAuthority (cs : List Char) :
    (cs.dropWhile (!endsAuthority ·)).takeWhile (!endsPath ·) =
      (cs.takeWhile (!endsPath ·)).dropWhile (· != '/') := by
  induction cs with
  | nil => rfl
  | cons c cs ih =>
    by_cases hslash : c = '/'
    · subst hslash
      rfl
    · have hauthority : endsAuthority c = endsPath c := by simp [endsAuthority, hslash]
      cases hends : endsPath c with
      | true => simp [hauthority, hends]
      | false => simp [hauthority, hends, hslash, ih]

/-! ## The path is read off the front -/

theorem eq_of_absolutePath? {scheme rest : List Char}
    (h : absolutePath? scheme rest = some path) :
    path = orRoot ((rest.takeWhile (!endsPath ·)).dropWhile (· != '/')) := by
  unfold absolutePath? at h
  dsimp only at h
  split at h
  · cases hresource : resource? (rest.dropWhile (!endsAuthority ·)) with
    | none =>
      rw [hresource] at h
      cases h
    | some found =>
      have hfound := eq_takeWhile_of_resource? hresource
      rw [takeWhile_dropWhile_endsAuthority] at hfound
      rw [← hfound]
      rw [hresource] at h
      cases found <;> exact (Option.some.inj h).symm
  · cases h

theorem head?_takeWhile_endsPath (h : cs.head? = some '/') :
    (cs.takeWhile (!endsPath ·)).head? = some '/' := by
  cases cs with
  | nil => cases h
  | cons c cs =>
    cases h
    rfl

theorem frontPath_of_head? (h : cs.head? = some '/') : frontPath cs = cs := if_pos (.inr h)

/-- Behind a scheme the path starts at the first slash, and without one it is the root. -/
theorem frontPath_absolute {scheme rest : List Char} (hscheme : ∀ c ∈ scheme, isSchemeChar c) :
    frontPath (scheme ++ ':' :: '/' :: '/' :: rest) = orRoot (rest.dropWhile (· != '/')) := by
  have hother : ¬(scheme ++ ':' :: '/' :: '/' :: rest = ['*'] ∨
      (scheme ++ ':' :: '/' :: '/' :: rest).head? = some '/') := by
    rintro (heq | hhead)
    · have hlength := congrArg List.length heq
      simp only [List.length_append, List.length_cons, List.length_nil] at hlength
      omega
    · cases scheme with
      | nil => cases hhead
      | cons c scheme =>
        cases hhead
        exact absurd (hscheme '/' List.mem_cons_self) (by decide)
  rw [frontPath, if_neg hother, scheme?_eq_some_iff.2 ⟨rfl, hscheme⟩]

theorem takeWhile_endsPath_absolute {scheme : List Char} (hscheme : ∀ c ∈ scheme, isSchemeChar c)
    (rest : List Char) : (scheme ++ ':' :: '/' :: '/' :: rest).takeWhile (!endsPath ·) =
      scheme ++ ':' :: '/' :: '/' :: rest.takeWhile (!endsPath ·) := by
  have hkept : ∀ c ∈ scheme, (!endsPath c) = true := fun c hc => by
    rw [endsPath_eq_false_of_isSchemeChar (hscheme c hc)]
    rfl
  rw [List.takeWhile_append_of_pos hkept]
  rfl

/-- The path of a target is read off its front. -/
theorem eq_frontPath_of_pathChars? (h : pathChars? cs = some path) :
    path = frontPath (cs.takeWhile (!endsPath ·)) := by
  unfold pathChars? at h
  split at h
  · next hasterisk =>
    cases h
    subst hasterisk
    rfl
  split at h
  · next hslash =>
    rw [frontPath_of_head? (head?_takeWhile_endsPath hslash)]
    exact eq_takeWhile_of_resource? h
  next hasterisk hslash =>
  cases hscheme : scheme? cs with
  | some found =>
    -- The scheme and the slashes behind it belong to the front.
    obtain ⟨scheme, rest⟩ := found
    rw [hscheme] at h
    obtain ⟨rfl, hchars⟩ := scheme?_eq_some_iff.1 hscheme
    rw [takeWhile_endsPath_absolute hchars, frontPath_absolute hchars]
    exact eq_of_absolutePath? h
  | none =>
    -- What is left is an authority, which is its own front.
    rw [hscheme] at h
    dsimp only at h
    split at h
    · next hvalid =>
      cases h
      have hfront : cs.takeWhile (!endsPath ·) = cs := by
        refine List.takeWhile_eq_self_iff.2 fun c hc => ?_
        have hchar := Authority.not_endsAuthority_of_isValid hvalid c hc
        exact congrArg not (Bool.or_eq_false_iff.1 hchar).2
      rw [hfront, frontPath, if_neg (not_or.2 ⟨hasterisk, hslash⟩), hscheme]
    · cases h

theorem eq_frontPath_of_path? {target path : String} (h : path? target = some path) :
    path = String.ofList (frontPath (front target).toList) := by
  unfold path? at h
  split at h
  · cases h
  · obtain ⟨chars, hchars, rfl⟩ := Option.map_eq_some_iff.1 h
    rw [eq_frontPath_of_pathChars? hchars, front, String.toList_ofList]

/-- Targets with one front have one path, if they are targets at all. -/
theorem path?_eq_of_front_eq {target target' : String} (hfront : front target' = front target)
    (hvalid : (path? target').isSome = (path? target).isSome) : path? target' = path? target := by
  cases h : path? target with
  | none =>
    rw [h] at hvalid
    simpa using hvalid
  | some path =>
    rw [h] at hvalid
    obtain ⟨path', h'⟩ := Option.isSome_iff_exists.1 hvalid
    rw [h', eq_frontPath_of_path? h, eq_frontPath_of_path? h', hfront]

/-- The path of a target in origin form is its front. -/
theorem eq_front_of_path? {target path : String} (hslash : target.toList.head? = some '/')
    (h : path? target = some path) : path = front target := by
  rw [eq_frontPath_of_path? h, front, String.toList_ofList,
    frontPath_of_head? (head?_takeWhile_endsPath hslash)]

/-- The path of a target in absolute form is what its front has behind the authority, and the root
where this is nothing. -/
theorem eq_of_path?_absolute {target scheme authority path found : String}
    (hfront : front target = scheme ++ "://" ++ authority ++ path)
    (hscheme : ∀ c ∈ scheme.toList, isSchemeChar c) (hauthority : '/' ∉ authority.toList)
    (hpath : path = "" ∨ path.toList.head? = some '/') (h : path? target = some found) :
    found = if path = "" then "/" else path := by
  have hchars : (front target).toList =
      scheme.toList ++ ':' :: '/' :: '/' :: (authority.toList ++ path.toList) := by
    rw [hfront, String.toList_append, String.toList_append, String.toList_append,
      List.append_assoc, List.append_assoc]
    rfl
  have hskipped : ∀ c ∈ authority.toList, (c != '/') = true := by
    intro c hc
    rw [bne_iff_ne]
    rintro rfl
    exact hauthority hc
  rw [eq_frontPath_of_path? h, hchars, frontPath_absolute hscheme,
    List.dropWhile_append_of_pos hskipped]
  rcases hpath with rfl | hhead
  · rfl
  · have hne : path ≠ "" := by
      rintro rfl
      cases hhead
    have hstart : path.toList.dropWhile (· != '/') = path.toList := by
      cases hcs : path.toList with
      | nil => rfl
      | cons c cs =>
        rw [hcs] at hhead
        cases hhead
        rfl
    rw [hstart, if_neg hne, orRoot, if_neg fun hnil => hne (String.toList_eq_nil_iff.1 hnil),
      String.ofList_toList]

end Http.Uri

/-! ## Requests with another query -/

theorem Http.Request.Draft.check_withTarget {draft : Http.Request.Draft} {target : String}
    (h : Http.Uri.path? target = Http.Uri.path? draft.target) :
    { draft with target }.check = draft.check := by
  unfold check
  rw [h]

/-- Two visits that differ at most in what follows the fronts of their targets, which are both
targets or both none. -/
structure Visit.SameFront (visit visit' : Visit) : Prop where
  application_eq : visit'.application = visit.application
  draft_eq : visit'.draft = { visit.draft with target := visit'.draft.target }
  front_eq : Http.Uri.front visit'.draft.target = Http.Uri.front visit.draft.target
  isSome_path? : (Http.Uri.path? visit'.draft.target).isSome =
    (Http.Uri.path? visit.draft.target).isSome

theorem Visit.SameFront.check_eq {visit visit' : Visit} (h : visit.SameFront visit') :
    visit'.draft.check = visit.draft.check := by
  have hpath := Http.Uri.path?_eq_of_front_eq h.front_eq h.isSome_path?
  rw [h.draft_eq]
  exact Http.Request.Draft.check_withTarget hpath

namespace Protection

variable {p : Protection} {mint : Mint}

theorem visit_eq_of_sameFront {visit visit' : Visit} (h : visit.SameFront visit') (mint : Mint) :
    p.visit visit' mint = p.visit visit mint := by
  rw [Protection.visit, Protection.visit, h.check_eq, h.application_eq]

theorem run_eq_of_sameFront {visits visits' : List Visit}
    (h : List.Forall₂ Visit.SameFront visits visits') (mint : Mint) :
    p.run visits' mint = p.run visits mint := by
  induction h generalizing mint with
  | nil => rfl
  | cons hvisit _ ih => rw [run_cons, run_cons, visit_eq_of_sameFront hvisit, ih]

/-- What follows the front of a target, be it a query, a fragment, both or nothing, changes nothing
in a run as long as the targets stay targets: the answers are the same, and so is what is issued. A
guarded request whose path is not exempt and that echoes no token of its session is refused whatever
stands there. For the path is a piece of the front, kept as it is written: all of it in origin form,
and in absolute form what stands behind the authority, or the root if that is nothing. -/
theorem query_wins_no_exemption (p : Protection) :
    (∀ visits visits' mint, List.Forall₂ Visit.SameFront visits visits' →
      p.run visits' mint = p.run visits mint) ∧
    (∀ (visit : Visit) (request : Http.Request) (mint : Mint) (target : String),
      visit.draft.check = .ok request → visit.application.readyError = none →
      request.method.name ∈ ["POST", "PUT", "PATCH", "DELETE"] →
      (∀ paths, p.policy.exempt = some paths → paths.covers request.path = false) →
      (¬∃ key text, p.policy.Echoed ((p.provider.find? request).getD "") request key text) →
      Http.Uri.front target = Http.Uri.front visit.draft.target →
      (Http.Uri.path? target).isSome →
        ∃ cookies, (p.visit { visit with draft := { visit.draft with target } } mint).1 =
          .ok (.responded ⟨403, "", cookies, none⟩)) ∧
    (∀ (draft : Http.Request.Draft) (request : Http.Request), draft.check = .ok request →
      draft.target.toList.head? = some '/' → request.path = Http.Uri.front draft.target) ∧
    (∀ (draft : Http.Request.Draft) (request : Http.Request) (scheme authority path : String),
      draft.check = .ok request →
      Http.Uri.front draft.target = scheme ++ "://" ++ authority ++ path →
      (∀ c ∈ scheme.toList, Http.Uri.isSchemeChar c) → '/' ∉ authority.toList →
      (path = "" ∨ path.toList.head? = some '/') →
        request.path = if path = "" then "/" else path) := by
  refine ⟨fun _ _ mint h => run_eq_of_sameFront h mint, ?_, ?_, ?_⟩
  · intro visit request mint target hcheck hready hmethod hexempt hechoed hfront htarget
    obtain ⟨-, hpath, -⟩ := Http.Request.Draft.check_eq_ok_iff.1 hcheck
    have hsame : visit.SameFront { visit with draft := { visit.draft with target } } :=
      ⟨rfl, rfl, hfront, by rw [htarget, hpath]; rfl⟩
    have hinadmissible : ¬p.Admissible request := by
      rintro (hother | ⟨paths, hpaths, hcovers⟩ | hechoes)
      · exact hother hmethod
      · rw [hexempt paths hpaths] at hcovers
        cases hcovers
      · exact hechoed hechoes
    obtain ⟨cookies, hanswer⟩ : ∃ cookies, (p.serve request visit.application mint).1 =
        .responded ⟨403, "", cookies, none⟩ := serve_of_not_admissible hready hinadmissible
    rw [visit_eq_of_sameFront hsame, visit_of_check hcheck, hanswer]
    exact ⟨cookies, rfl⟩
  · intro draft request hcheck hslash
    exact Http.Uri.eq_front_of_path? hslash (Http.Request.Draft.check_eq_ok_iff.1 hcheck).2.1
  · intro draft request scheme authority path hcheck hfront hscheme hauthority hpath
    exact Http.Uri.eq_of_path?_absolute hfront hscheme hauthority hpath
      (Http.Request.Draft.check_eq_ok_iff.1 hcheck).2.1

end Protection

/-! ## A query that ends like an exempt path -/

namespace Sample

/-- The sample protection with the paths exempt that end with `/health`. -/
def exempting : Protection where
  policy := .chosen [0x6b] [.hostPrefix false, .cookieName "t", .headerName "x",
    .exempt (.endingWith "/health")]
  provider := .attached
  entropy := .counting

def queryPost : Visit :=
  { blindPost with draft := { blindPost.draft with target := "/pay?/health" } }

theorem sameFront_queryPost : blindPost.SameFront queryPost :=
  ⟨rfl, rfl, by decide +kernel, by decide +kernel⟩

theorem exists_check_of_target (target : String) (h : (Http.Uri.path? target).isSome) :
    ∃ request, Http.Request.Draft.check ⟨"POST", target, [], none⟩ = .ok request := by
  have hmethod : (Http.Method.ofName? "POST").isSome := by decide
  exact Http.Request.Draft.exists_check_iff.2
    ⟨hmethod, h, fun _ hheader => absurd hheader List.not_mem_nil⟩

end Sample

namespace Protection

/-- A post that echoes nothing is refused, with a query that ends like an exempt path as without
one. A path is not decoded, be it in origin form or in absolute form, where an empty one is the
root. -/
theorem query_like_exempt_path_refused :
    Sample.exempting.run [Sample.queryPost] Mint.fresh =
      Sample.exempting.run [Sample.blindPost] Mint.fresh ∧
    (∃ cookies, (Sample.exempting.visit Sample.queryPost Mint.fresh).1 =
      .ok (.responded ⟨403, "", cookies, none⟩)) ∧
    (∃ request, Http.Request.Draft.check ⟨"POST", "/%68ealth?x", [], none⟩ = .ok request ∧
      request.path = "/%68ealth") ∧
    ∃ request, Http.Request.Draft.check ⟨"POST", "http://h:80?/health", [], none⟩ = .ok request ∧
      request.path = "/" := by
  obtain ⟨hrun, hrefused, horigin, habsolute⟩ := query_wins_no_exemption Sample.exempting
  refine ⟨hrun _ _ _ (.cons Sample.sameFront_queryPost .nil), ?_, ?_, ?_⟩
  · refine hrefused Sample.blindPost Sample.blindRequest Mint.fresh "/pay?/health"
      Sample.check_blindPost rfl (by decide) ?_ ?_ (by decide +kernel) (by decide +kernel)
    · intro paths hpaths
      cases hpaths
      decide
    · rintro ⟨key, text, hechoed⟩
      exact Cookie.not_gives_of_ofRequest_eq_nil rfl hechoed.cookie
  · obtain ⟨request, hcheck⟩ :=
      Sample.exists_check_of_target "/%68ealth?x" (by decide +kernel)
    have hpath := horigin _ _ hcheck (by decide)
    exact ⟨request, hcheck, hpath.trans (by decide +kernel)⟩
  · obtain ⟨request, hcheck⟩ :=
      Sample.exists_check_of_target "http://h:80?/health" (by decide +kernel)
    exact ⟨request, hcheck, habsolute _ _ "http" "h:80" "" hcheck (by decide +kernel)
      (List.all_eq_true.1 (by decide)) (by decide) (.inl rfl)⟩

end Protection

end DoubleSubmit
