import DoubleSubmit.Protection

/-! How a protection is set up. What is set up starts with the standard policy for a key and with
the sessions that are attached to requests. Each call changes one thing of it: a setting of the
policy, or the way to find sessions. -/

namespace DoubleSubmit

/-- A policy and a way to find sessions. -/
structure Setup where
  policy : Policy
  provider : SessionProvider

namespace Setup

/-- What holds unless something else is called for. -/
def standard (key : List UInt8) : Setup := ⟨.standard key, .attached⟩

/-- A call that changes one thing of a setup. -/
inductive Call where
  | choose (choice : Policy.Choice)
  | findWith (provider : SessionProvider)

/-- A choice leaves the way to find sessions as it is, and another way to find them leaves the
policy as it is. -/
def call (setup : Setup) : Call → Setup
  | .choose choice => { setup with policy := setup.policy.choose choice }
  | .findWith provider => { setup with provider := provider }

/-- The standard setup after calls. -/
def made (key : List UInt8) (calls : List Call) : Setup := calls.foldl call (standard key)

/-- The protection that is set up, with its source of random bytes. -/
def protection (setup : Setup) (entropy : Entropy) : Protection where
  policy := setup.policy
  provider := setup.provider
  entropy := entropy

end Setup

end DoubleSubmit
