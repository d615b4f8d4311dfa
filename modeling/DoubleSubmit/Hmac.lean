import DoubleSubmit.Sha256

/-! HMAC with SHA-256. A key acts only through its block of 64 bytes: itself when it is no
longer than that, else its digest, filled up with zeros. -/

namespace DoubleSubmit.Hmac

def blockSize : Nat := 64

/-- The key that is used: a key longer than a block is replaced by its digest. -/
def effectiveKey (key : List UInt8) : List UInt8 :=
  if key.length ≤ blockSize then key else Sha256.digest key

def keyBlock (key : List UInt8) : List UInt8 :=
  effectiveKey key ++ List.replicate (blockSize - (effectiveKey key).length) 0

/-- The authentication code of a message under a key block. -/
def digestOfBlock (block message : List UInt8) : List UInt8 :=
  Sha256.digest (block.map (· ^^^ 0x5c) ++ Sha256.digest (block.map (· ^^^ 0x36) ++ message))

/-- The authentication code of a message, 32 bytes. -/
def digest (key message : List UInt8) : List UInt8 := digestOfBlock (keyBlock key) message

theorem length_effectiveKey_le (key : List UInt8) :
    (effectiveKey key).length ≤ blockSize := by
  unfold effectiveKey
  split
  · assumption
  · simp [blockSize]

@[simp] theorem length_keyBlock (key : List UInt8) : (keyBlock key).length = blockSize := by
  have := length_effectiveKey_le key
  simp [keyBlock]
  omega

@[simp] theorem length_digest (key message : List UInt8) : (digest key message).length = 32 :=
  Sha256.length_digest _

end DoubleSubmit.Hmac
