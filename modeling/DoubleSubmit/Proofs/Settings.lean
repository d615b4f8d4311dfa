import DoubleSubmit.Setup

/-! The settings of a protection. A call is of one setting (`Setup.Call.value?`), the last call of a
setting is in force, and a setting that no call is of is the standard one (`Setup.get_made`). So
calls of different settings may be made in either order (`Setup.made_swap`). -/

namespace DoubleSubmit

namespace Policy

/-- What can be chosen of a policy. -/
inductive Setting where
  | cookieName
  | headerName
  | httpOnly
  | hostPrefix
  | secure
  | randomSize
  | sameSite
  | expires
  | exempt
  deriving DecidableEq

/-- What a setting can be. -/
@[reducible]
def Setting.Value : Setting → Type
  | cookieName | headerName => String
  | httpOnly | hostPrefix | secure => Bool
  | randomSize => RandomSize
  | sameSite => SameSite
  | expires => Option Calendar.Instant
  | exempt => Option Exemption

def get (policy : Policy) : (setting : Setting) → setting.Value
  | .cookieName => policy.cookieName
  | .headerName => policy.headerName
  | .httpOnly => policy.httpOnly
  | .hostPrefix => policy.hostPrefix
  | .secure => policy.secure
  | .randomSize => policy.randomSize
  | .sameSite => policy.sameSite
  | .expires => policy.expires
  | .exempt => policy.exempt

namespace Choice

/-- The setting that a choice is of. -/
def setting : Choice → Setting
  | cookieName _ => .cookieName
  | headerName _ => .headerName
  | httpOnly _ => .httpOnly
  | hostPrefix _ => .hostPrefix
  | secure _ => .secure
  | randomSize _ => .randomSize
  | sameSite _ => .sameSite
  | expires _ => .expires
  | exempt _ => .exempt

/-- What a choice makes of a setting, if it is of this setting. -/
def value? : (setting : Setting) → Choice → Option setting.Value
  | .cookieName, .cookieName name => some name
  | .headerName, .headerName name => some name
  | .httpOnly, .httpOnly on => some on
  | .hostPrefix, .hostPrefix on => some on
  | .secure, .secure on => some on
  | .randomSize, .randomSize size => some size
  | .sameSite, .sameSite policy => some policy
  | .expires, .expires instant => some instant
  | .exempt, .exempt paths => some (some paths)
  | _, _ => none

theorem value?_eq_none {choice : Choice} {setting : Setting} (h : choice.setting ≠ setting) :
    value? setting choice = none := by
  cases choice <;> cases setting <;> first | rfl | exact (h rfl).elim

end Choice

/-- A policy is its key and its settings. -/
theorem ext_get {policy other : Policy} (hsecret : policy.secret = other.secret)
    (h : ∀ setting, policy.get setting = other.get setting) : policy = other := by
  cases policy
  cases other
  obtain rfl := hsecret
  obtain rfl := h .cookieName
  obtain rfl := h .headerName
  obtain rfl := h .httpOnly
  obtain rfl := h .hostPrefix
  obtain rfl := h .secure
  obtain rfl := h .randomSize
  obtain rfl := h .sameSite
  obtain rfl := h .expires
  obtain rfl := h .exempt
  rfl

theorem get_choose (policy : Policy) (choice : Choice) (setting : Setting) :
    (policy.choose choice).get setting = (choice.value? setting).getD (policy.get setting) := by
  cases choice <;> cases setting <;> rfl

theorem secret_choose (policy : Policy) (choice : Choice) :
    (policy.choose choice).secret = policy.secret := by
  cases choice <;> rfl

end Policy

namespace Setup

/-- What can be called for: a setting of the policy, or the provider of sessions. -/
inductive Setting where
  | policy (setting : Policy.Setting)
  | provider
  deriving DecidableEq

/-- What a setting can be. -/
@[reducible]
def Setting.Value : Setting → Type
  | policy setting => setting.Value
  | provider => SessionProvider

def get (setup : Setup) : (setting : Setting) → setting.Value
  | .policy setting => setup.policy.get setting
  | .provider => setup.provider

namespace Call

/-- The setting that a call is of. -/
def setting : Call → Setting
  | choose choice => .policy choice.setting
  | findWith _ => .provider

/-- What a call chooses of the policy, if it is not for the provider. -/
def choice? : Call → Option Policy.Choice
  | choose choice => some choice
  | findWith _ => none

/-- What a call makes of a setting, if it is of this setting. -/
def value? : (setting : Setting) → Call → Option setting.Value
  | .policy setting, .choose choice => choice.value? setting
  | .provider, .findWith provider => some provider
  | _, _ => none

theorem value?_eq_none {call : Call} {setting : Setting} (h : call.setting ≠ setting) :
    value? setting call = none := by
  cases call with
  | choose choice =>
    cases setting with
    | policy setting =>
      exact Policy.Choice.value?_eq_none fun heq => h (congrArg Setting.policy heq)
    | provider => rfl
  | findWith provider =>
    cases setting with
    | policy setting => rfl
    | provider => exact (h rfl).elim

end Call

/-- A setup is its key and its settings. -/
theorem ext_get {setup other : Setup} (hsecret : setup.policy.secret = other.policy.secret)
    (h : ∀ setting, setup.get setting = other.get setting) : setup = other := by
  cases setup
  cases other
  obtain rfl := Policy.ext_get hsecret fun setting => h (.policy setting)
  obtain rfl := h .provider
  rfl

theorem get_call (setup : Setup) (call : Call) (setting : Setting) :
    (setup.call call).get setting = (call.value? setting).getD (setup.get setting) := by
  cases call with
  | choose choice =>
    cases setting with
    | policy setting => exact Policy.get_choose setup.policy choice setting
    | provider => rfl
  | findWith provider => cases setting <;> rfl

theorem secret_call (setup : Setup) (call : Call) :
    (setup.call call).policy.secret = setup.policy.secret := by
  cases call with
  | choose choice => exact Policy.secret_choose setup.policy choice
  | findWith provider => rfl

/-- After calls, a setting is as the last of its calls has it. -/
theorem get_foldl_call (setup : Setup) (calls : List Call) (setting : Setting) :
    (calls.foldl call setup).get setting =
      (calls.filterMap (Call.value? setting)).getLast?.getD (setup.get setting) := by
  induction calls generalizing setup with
  | nil => rfl
  | cons call calls ih =>
    rw [List.foldl_cons, ih, get_call, List.filterMap_cons]
    cases Call.value? setting call with
    | none => rfl
    | some value =>
      rw [List.getLast?_cons]
      cases (calls.filterMap (Call.value? setting)).getLast? <;> rfl

theorem secret_foldl_call (setup : Setup) (calls : List Call) :
    (calls.foldl call setup).policy.secret = setup.policy.secret := by
  induction calls generalizing setup with
  | nil => rfl
  | cons call calls ih => rw [List.foldl_cons, ih, secret_call]

/-- Calls for the provider leave the policy to the choices among the calls. -/
theorem policy_foldl_call (setup : Setup) (calls : List Call) :
    (calls.foldl call setup).policy =
      (calls.filterMap Call.choice?).foldl Policy.choose setup.policy := by
  induction calls generalizing setup with
  | nil => rfl
  | cons call calls ih =>
    rw [List.foldl_cons, ih]
    cases call <;> rfl

variable (key : List UInt8)

/-- The last call of a setting is in force, and without one the standard. -/
theorem get_made (calls : List Call) (setting : Setting) : (made key calls).get setting =
    (calls.filterMap (Call.value? setting)).getLast?.getD ((standard key).get setting) :=
  get_foldl_call _ calls setting

/-- No call changes the key. -/
theorem secret_made (calls : List Call) : (made key calls).policy.secret = Secret.ofKey? key :=
  secret_foldl_call _ calls

/-- Calls that agree for each setting, in the order of its own calls, make the same setup. -/
theorem made_congr {calls others : List Call}
    (h : ∀ setting, calls.filterMap (Call.value? setting) =
      others.filterMap (Call.value? setting)) : made key calls = made key others := by
  refine ext_get ?_ fun setting => ?_
  · rw [secret_made, secret_made]
  · rw [get_made, get_made, h]

theorem made_swap (before after : List Call) {first second : Call}
    (h : first.setting ≠ second.setting) :
    made key (before ++ second :: first :: after) =
      made key (before ++ first :: second :: after) := by
  refine made_congr key fun setting => ?_
  simp only [List.filterMap_append, List.filterMap_cons]
  -- One of the two is of another setting than this one.
  by_cases hfirst : first.setting = setting
  · rw [Call.value?_eq_none fun hsecond => h (hfirst.trans hsecond.symm)]
  · rw [Call.value?_eq_none hfirst]

/-- What calls make of a key. The policy is the one that is chosen, whatever is called for besides.
Each setting is that of the last call of its kind, or the standard one, and calls of different
settings may change places. -/
structure Follows (setup : Setup) (calls : List Call) : Prop where
  secret_eq : setup.policy.secret = Secret.ofKey? key
  policy_eq : setup.policy = Policy.chosen key (calls.filterMap Call.choice?)
  get_eq : ∀ setting, setup.get setting =
    (calls.filterMap (Call.value? setting)).getLast?.getD ((standard key).get setting)
  swap_eq : ∀ before first second after, calls = before ++ first :: second :: after →
    first.setting ≠ second.setting → made key (before ++ second :: first :: after) = setup

theorem made_follows (calls : List Call) : (made key calls).Follows key calls where
  secret_eq := secret_made key calls
  policy_eq := policy_foldl_call (standard key) calls
  get_eq := get_made key calls
  swap_eq := by
    rintro before first second after rfl hne
    exact made_swap key before after hne

end Setup

end DoubleSubmit
