import DoubleSubmit.Cookie.Basic
import DoubleSubmit.Cookie.Received
import DoubleSubmit.Named
import DoubleSubmit.Text.Order

/-! The cookie jar of a request: the cookies that it brought, and over them the changes that its
answer will tell the client. Neither holds a name twice. Looking up a name after a change gives
what the change leaves (`get?_add`, `get?_remove`), and the list of all cookies holds what looking
up finds (`mem_toList_iff`). The order in which a jar holds cookies and changes means nothing: what
is shown of it depends on what looking up finds (`sorted_setCookies_eq`,
`sortedPairs_toList_eq`). -/

namespace DoubleSubmit

/-- What an answer does to a cookie of the client. -/
inductive CookieChange where
  | set (cookie : Cookie)
  | remove (cookie : Cookie)
  deriving DecidableEq

namespace CookieChange

/-- The cookie that tells the client of the change. -/
def sent : CookieChange → Cookie
  | set cookie => cookie
  | remove cookie => cookie.removal

def name : CookieChange → String
  | set cookie | remove cookie => cookie.name

def value? : CookieChange → Option String
  | set cookie => some cookie.value
  | remove _ => none

@[simp] theorem name_sent (change : CookieChange) : change.sent.name = change.name := by
  cases change <;> rfl

end CookieChange

/-- The cookies of a request and the changes laid over them. -/
structure Jar where
  received : List (String × String)
  changes : List CookieChange
  received_distinct : NamesDistinct Prod.fst received
  changes_distinct : NamesDistinct CookieChange.name changes
  deriving DecidableEq

namespace Jar

/-- The jar with these cookies received, of equal names the last. -/
def ofReceived (cookies : List (String × String)) : Jar where
  received := cookies.foldl (replaceNamed Prod.fst) []
  changes := []
  received_distinct := NamesDistinct.foldl .nil _
  changes_distinct := .nil

def ofRequest (request : Http.Request) : Jar := ofReceived (Cookie.ofRequest request)

def change? (jar : Jar) (name : String) : Option CookieChange :=
  jar.changes.find? (·.name == name)

def received? (jar : Jar) (name : String) : Option String :=
  (jar.received.find? (·.1 == name)).map Prod.snd

/-- The value of a cookie: what its change leaves, or what it came with. -/
def get? (jar : Jar) (name : String) : Option String :=
  match jar.change? name with
  | some change => change.value?
  | none => jar.received? name

def forget (jar : Jar) (name : String) : Jar :=
  { jar with
    changes := jar.changes.filter (·.name != name)
    changes_distinct := jar.changes_distinct.filter _ }

/-- The jar with a change in place of an earlier one of its name. -/
def record (jar : Jar) (change : CookieChange) : Jar :=
  { jar with
    changes := replaceNamed CookieChange.name jar.changes change
    changes_distinct := jar.changes_distinct.replaceNamed change }

def add (jar : Jar) (cookie : Cookie) : Jar := jar.record (.set cookie)

/-- Removes a cookie. The client is told only if the request brought it. -/
def remove (jar : Jar) (cookie : Cookie) : Jar :=
  if (jar.received? cookie.name).isSome then jar.record (.remove cookie)
  else jar.forget cookie.name

def toList (jar : Jar) : List (String × String) :=
  jar.changes.filterMap (fun change => change.value?.map fun value => (change.name, value)) ++
    jar.received.filter fun cookie => (jar.change? cookie.1).isNone

/-- The texts that tell the client of the changes; a text that no header can carry is left out. -/
def setCookies (jar : Jar) : List String :=
  (jar.changes.map (·.sent.text)).filter Http.HeaderValue.canCarry

variable {jar : Jar}

theorem change?_eq_some_iff {name : String} {change : CookieChange} :
    jar.change? name = some change ↔ change ∈ jar.changes ∧ change.name = name :=
  jar.changes_distinct.find?_eq_some_iff

theorem mem_changes_iff {change : CookieChange} :
    change ∈ jar.changes ↔ jar.change? change.name = some change := by
  rw [change?_eq_some_iff]
  exact (and_iff_left rfl).symm

theorem change?_eq_none_iff {name : String} :
    jar.change? name = none ↔ ∀ change ∈ jar.changes, change.name ≠ name := by
  simp [change?]

theorem received?_eq_some_iff {name value : String} :
    jar.received? name = some value ↔ (name, value) ∈ jar.received := by
  simp only [received?, Option.map_eq_some_iff, jar.received_distinct.find?_eq_some_iff]
  constructor
  · rintro ⟨⟨n, v⟩, ⟨hm, rfl⟩, rfl⟩
    exact hm
  · exact fun hm => ⟨_, ⟨hm, rfl⟩, rfl⟩

@[simp] theorem received?_record (change : CookieChange) (name : String) :
    (jar.record change).received? name = jar.received? name := rfl

@[simp] theorem received?_forget (name other : String) :
    (jar.forget name).received? other = jar.received? other := rfl

theorem change?_record (change : CookieChange) (name : String) :
    (jar.record change).change? name =
      if change.name = name then some change else jar.change? name :=
  find?_replaceNamed CookieChange.name jar.changes change name

theorem change?_forget (name other : String) :
    (jar.forget name).change? other = if name = other then none else jar.change? other := by
  unfold change? forget
  rw [List.find?_filter]
  by_cases h : name = other
  · subst h
    rw [if_pos rfl, List.find?_eq_none]
    simp
  · rw [if_neg h]
    congr 1
    funext a
    by_cases ha : a.name = other
    · simp [ha, Ne.symm h]
    · simp [ha]

theorem change?_add_self (jar : Jar) (cookie : Cookie) :
    (jar.add cookie).change? cookie.name = some (.set cookie) :=
  (change?_record _ _).trans (if_pos rfl)

theorem change?_remove_self {cookie : Cookie} (h : (jar.received? cookie.name).isSome) :
    (jar.remove cookie).change? cookie.name = some (.remove cookie) := by
  rw [remove, if_pos h]
  exact (change?_record _ _).trans (if_pos rfl)

theorem change?_remove_of_ne {cookie : Cookie} {name : String} (h : cookie.name ≠ name) :
    (jar.remove cookie).change? name = jar.change? name := by
  unfold remove
  split
  · rw [change?_record, if_neg (show (CookieChange.remove cookie).name ≠ name from h)]
  · rw [change?_forget, if_neg h]

theorem get?_record (change : CookieChange) (name : String) :
    (jar.record change).get? name =
      if change.name = name then change.value? else jar.get? name := by
  by_cases h : change.name = name <;> simp [get?, change?_record, h]

/-- A cookie that was added is there, and all others are as before. -/
theorem get?_add (cookie : Cookie) (name : String) :
    (jar.add cookie).get? name = if cookie.name = name then some cookie.value else jar.get? name :=
  get?_record _ _

/-- A cookie that was removed is gone, and all others are as before. -/
theorem get?_remove (cookie : Cookie) (name : String) :
    (jar.remove cookie).get? name = if cookie.name = name then none else jar.get? name := by
  unfold remove
  split
  · exact get?_record _ _
  · next hr =>
    by_cases h : cookie.name = name
    · subst h
      simpa [get?, change?_forget] using hr
    · simp [get?, change?_forget, h]

@[simp] theorem received?_add (cookie : Cookie) (name : String) :
    (jar.add cookie).received? name = jar.received? name := rfl

@[simp] theorem received?_remove (cookie : Cookie) (name : String) :
    (jar.remove cookie).received? name = jar.received? name := by
  unfold remove
  split <;> rfl

/-- The list of all cookies holds what looking up finds. -/
theorem mem_toList_iff {name value : String} :
    (name, value) ∈ jar.toList ↔ jar.get? name = some value := by
  simp only [toList, List.mem_append, List.mem_filterMap, Option.map_eq_some_iff, Prod.mk.injEq,
    List.mem_filter, Option.isNone_iff_eq_none, get?]
  cases h : jar.change? name with
  | some change =>
    have hc := change?_eq_some_iff.1 h
    constructor
    · rintro (⟨other, ho, v, hv, hn, rfl⟩ | ⟨-, hnone⟩)
      · have := change?_eq_some_iff.2 ⟨ho, hn⟩
        rw [h, Option.some.injEq] at this
        exact this ▸ hv
      · cases hnone
    · exact fun hv => .inl ⟨change, hc.1, value, hv, hc.2, rfl⟩
  | none =>
    have hc := change?_eq_none_iff.1 h
    constructor
    · rintro (⟨other, ho, v, hv, hn, rfl⟩ | ⟨hm, -⟩)
      · exact absurd hn (hc other ho)
      · exact received?_eq_some_iff.2 hm
    · exact fun hr => .inr ⟨received?_eq_some_iff.1 hr, rfl⟩

/-- The list of all cookies holds no name twice, as a received cookie is listed only where no change
has its name. -/
theorem toList_distinct (jar : Jar) : NamesDistinct Prod.fst jar.toList := by
  refine List.pairwise_append.2 ⟨?_, jar.received_distinct.filter _, ?_⟩
  · refine jar.changes_distinct.filterMap _ fun change change' hne pair hpair pair' hpair' => ?_
    obtain ⟨value, -, rfl⟩ := Option.map_eq_some_iff.1 hpair
    obtain ⟨value', -, rfl⟩ := Option.map_eq_some_iff.1 hpair'
    exact hne
  · intro pair hpair cookie hcookie
    obtain ⟨change, hchange, hvalue⟩ := List.mem_filterMap.1 hpair
    obtain ⟨value, -, rfl⟩ := Option.map_eq_some_iff.1 hvalue
    have hnone := Option.isNone_iff_eq_none.1 (List.mem_filter.1 hcookie).2
    exact change?_eq_none_iff.1 hnone change hchange

variable {other : Jar}

/-- Jars in which the same changes are found tell the client the same. -/
theorem sorted_setCookies_eq (h : ∀ name, other.change? name = jar.change? name) :
    Text.sorted other.setCookies = Text.sorted jar.setCookies := by
  have hperm : other.changes.Perm jar.changes := by
    rw [List.perm_ext_iff_of_nodup other.changes_distinct.nodup jar.changes_distinct.nodup]
    intro change
    rw [mem_changes_iff, mem_changes_iff, h]
  exact Text.sorted_eq_of_perm ((hperm.map _).filter _)

/-- Jars in which the same cookies are found show the same list of them. -/
theorem sortedPairs_toList_eq (h : ∀ name, other.get? name = jar.get? name) :
    Text.sortedPairs other.toList = Text.sortedPairs jar.toList := by
  refine Text.sortedPairs_eq_of_perm ?_
  rw [List.perm_ext_iff_of_nodup other.toList_distinct.nodup jar.toList_distinct.nodup]
  rintro ⟨name, value⟩
  rw [mem_toList_iff, mem_toList_iff, h]

end Jar

end DoubleSubmit
