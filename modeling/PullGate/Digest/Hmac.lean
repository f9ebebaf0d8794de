import PullGate.Digest.Sha256
/-!
# Keyed digests

The digest of a message under a key: the key, brought to the length of a block, is put before the
message twice, each time with a mask of its own.
-/

namespace PullGate.Digest.Hmac

/-- The number of bytes in a block. -/
def blockSize : Nat := 64

/-- A key brought to the length of a block: a longer one is digested first, and zeros follow. -/
def block (key : List UInt8) : List UInt8 :=
  let short := if blockSize < key.length then Sha256.digest key else key
  short ++ List.replicate (blockSize - short.length) 0

/-- The keyed digest of a message. -/
def digest (key message : List UInt8) : List UInt8 :=
  let inner := Sha256.digest ((block key).map (· ^^^ 0x36) ++ message)
  Sha256.digest ((block key).map (· ^^^ 0x5c) ++ inner)

/-- A prepared key has the length of a block. -/
theorem length_block (key : List UInt8) : (block key).length = blockSize := by
  unfold block
  dsimp only
  split
  · simp [Sha256.length_digest, blockSize]
  · rename_i h
    simp only [List.length_append, List.length_replicate]
    omega

/-- Only the prepared key counts. -/
theorem digest_congr {k₁ k₂ : List UInt8} (h : block k₁ = block k₂) (message : List UInt8) :
    digest k₁ message = digest k₂ message := by
  simp [digest, h]

end PullGate.Digest.Hmac
