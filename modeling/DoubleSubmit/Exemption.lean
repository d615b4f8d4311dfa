/-! Exempt paths: those that the guard lets through without a token. -/

namespace DoubleSubmit

structure Exemption where
  covers : String → Bool

namespace Exemption

/-- How an exemption is shown: its rule is not printed. -/
def redacted : String := "Exempt(..)"

def occursIn (needle : List Char) : List Char → Bool
  | [] => needle.isEmpty
  | c :: cs => needle.isPrefixOf (c :: cs) || occursIn needle cs

def exactly (path : String) : Exemption := ⟨fun p => p == path⟩

def startingWith (text : String) : Exemption := ⟨fun p => text.toList.isPrefixOf p.toList⟩

def endingWith (text : String) : Exemption := ⟨fun p => text.toList.isSuffixOf p.toList⟩

def containing (text : String) : Exemption := ⟨fun p => occursIn text.toList p.toList⟩

def always : Exemption := ⟨fun _ => true⟩

def never : Exemption := ⟨fun _ => false⟩

theorem occursIn_iff {needle cs : List Char} : occursIn needle cs ↔ needle <:+: cs := by
  induction cs with
  | nil => simp [occursIn]
  | cons c cs ih => simp [occursIn, ih, List.infix_cons_iff]

end Exemption

end DoubleSubmit
