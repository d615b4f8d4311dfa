/-! The source of random bytes: an endless stream, of which each draw takes the next window. -/

namespace DoubleSubmit

structure Entropy where
  byte : Nat → UInt8

namespace Entropy

/-- The stream that counts from zero to 255 over and over. -/
def counting : Entropy := ⟨fun i => UInt8.ofNat i⟩

/-- The stream that repeats `bytes`; of no bytes, the counting stream. -/
def cycle (bytes : Array UInt8) : Entropy :=
  if h : 0 < bytes.size then
    ⟨fun i => have := Nat.mod_lt i h; bytes[i % bytes.size]⟩
  else counting

/-- The `size` bytes of the stream from `start` on. -/
def window (entropy : Entropy) (start size : Nat) : List UInt8 :=
  (List.range' start size).map entropy.byte

@[simp] theorem length_window (entropy : Entropy) (start size : Nat) :
    (entropy.window start size).length = size := by
  simp [window]

end Entropy

end DoubleSubmit
