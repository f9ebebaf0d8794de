import Mathlib.Data.FinEnum
import Mathlib.Data.Fintype.BigOperators
import Mathlib.Data.Fintype.Pigeonhole
import PullGate.Proofs.Signing
/-!
# Signatures under other secrets

Whether a header that one secret makes is accepted under another. Before a key is used it is brought to
the length of a block, and that does not tell all keys apart: zeros at the end do not count, and a long
key counts as its digest (`block_eq_block_iff`). A header is accepted exactly if the two keys come to
the same block in this way, or if two different messages that are digested for it have one digest
(`refused_under_other_iff`). The second cannot be ruled out, as there are more keys than digests
(`exists_accepted_under_other`).
-/

namespace PullGate

/-- Two different messages with one digest. -/
structure Digest.Collide (m₁ m₂ : List UInt8) : Prop where
  ne : m₁ ≠ m₂
  digest_eq : Digest.Sha256.digest m₁ = Digest.Sha256.digest m₂

/-! ## Keys that come to the same block -/

namespace Digest.Hmac

/-- A key that is longer than a block is digested. -/
def short (key : List UInt8) : List UInt8 :=
  if blockSize < key.length then Sha256.digest key else key

/-- One key is the other with zeros behind it, each digested first if it is longer than a block. -/
def Interchangeable (k₁ k₂ : List UInt8) : Prop :=
  ∃ zeros, short k₁ = short k₂ ++ List.replicate zeros 0 ∨
    short k₂ = short k₁ ++ List.replicate zeros 0

theorem short_of_length_le {key : List UInt8} (h : key.length ≤ blockSize) : short key = key := by
  rw [short, if_neg (by omega)]

/-- A longer key is taken by its digest. -/
theorem short_of_lt_length {key : List UInt8} (h : blockSize < key.length) :
    short key = Sha256.digest key := by
  rw [short, if_pos h]

/-- What is taken of a key fits into a block. -/
theorem length_short_le (key : List UInt8) : (short key).length ≤ blockSize := by
  by_cases h : blockSize < key.length
  · rw [short_of_lt_length h, Sha256.length_digest]
    decide
  · rw [short_of_length_le (by omega)]
    omega

/-- A block is what is taken of the key, filled up with zeros. -/
theorem block_eq (key : List UInt8) :
    block key = short key ++ List.replicate (blockSize - (short key).length) 0 := rfl

/-- Zeros behind a key are filled up all the same. -/
theorem block_eq_of_zeros {k₁ k₂ : List UInt8} {zeros : Nat}
    (h : short k₁ = short k₂ ++ List.replicate zeros 0) : block k₁ = block k₂ := by
  have hlength : (short k₂).length + zeros ≤ blockSize := by
    have hle := length_short_le k₁
    rw [h, List.length_append, List.length_replicate] at hle
    exact hle
  rw [block_eq, block_eq, h, List.append_assoc, List.replicate_append_replicate,
    List.length_append, List.length_replicate]
  congr 2
  omega

/-- Of two lists that are filled up alike, the longer one has zeros where the shorter one ends. -/
theorem exists_zeros {a b : List UInt8} {m n : Nat}
    (h : a ++ List.replicate m 0 = b ++ List.replicate n 0) (hle : b.length ≤ a.length) :
    ∃ zeros, a = b ++ List.replicate zeros 0 := by
  have hb : b <+: a ++ List.replicate m 0 := by
    rw [h]
    exact List.prefix_append b _
  obtain ⟨rest, rfl⟩ := List.prefix_of_prefix_length_le hb (List.prefix_append a _) hle
  rw [List.append_assoc, List.append_cancel_left_eq] at h
  obtain ⟨-, hrest, -⟩ := List.append_eq_replicate_iff.1 h
  exact ⟨rest.length, congrArg (b ++ ·) hrest⟩

/-- Two keys come to the same block exactly if they differ in nothing but the zeros at their ends. -/
theorem block_eq_block_iff {k₁ k₂ : List UInt8} : block k₁ = block k₂ ↔ Interchangeable k₁ k₂ := by
  constructor
  · intro h
    rw [block_eq, block_eq] at h
    rcases Nat.le_total (short k₂).length (short k₁).length with hle | hle
    · obtain ⟨zeros, hzeros⟩ := exists_zeros h hle
      exact ⟨zeros, .inl hzeros⟩
    · obtain ⟨zeros, hzeros⟩ := exists_zeros h.symm hle
      exact ⟨zeros, .inr hzeros⟩
  · rintro ⟨zeros, h | h⟩
    · exact block_eq_of_zeros h
    · exact (block_eq_of_zeros h).symm

/-- Keys of one length that are not digested first are all told apart. -/
theorem Interchangeable.eq_of_length_eq {k₁ k₂ : List UInt8} (h : Interchangeable k₁ k₂)
    (hlength : k₁.length = k₂.length) (hshort : k₁.length ≤ blockSize) : k₁ = k₂ := by
  have hfull : blockSize - k₁.length = blockSize - k₂.length := by rw [hlength]
  have hblocks := block_eq_block_iff.2 h
  rw [block_eq, block_eq, short_of_length_le hshort, short_of_length_le (hlength ▸ hshort), hfull]
    at hblocks
  exact List.append_cancel_right hblocks

/-! ## What is digested last -/

/-- The message whose digest is the keyed digest. -/
def outer (key message : List UInt8) : List UInt8 :=
  (block key).map (· ^^^ 0x5c) ++ Sha256.digest ((block key).map (· ^^^ 0x36) ++ message)

theorem digest_eq (key message : List UInt8) : digest key message = Sha256.digest (outer key message) :=
  rfl

/-- The message begins with the masked block, so that another block gives another message. -/
theorem outer_ne_outer {k₁ k₂ : List UInt8} (h : block k₁ ≠ block k₂) (m₁ m₂ : List UInt8) :
    outer k₁ m₁ ≠ outer k₂ m₂ := by
  intro heq
  have hlength : ((block k₁).map (· ^^^ (0x5c : UInt8))).length =
      ((block k₂).map (· ^^^ (0x5c : UInt8))).length := by
    rw [List.length_map, List.length_map, length_block, length_block]
  have hmasked := List.append_inj_left heq hlength
  have hmask : Function.Injective (· ^^^ (0x5c : UInt8)) := fun a b => (UInt8.xor_left_inj 0x5c).1
  exact h (List.map_injective_iff.2 hmask hmasked)

/-- Two keys give a message the same keyed digest exactly if they come to the same block, or if what is
digested last collides. -/
theorem digest_eq_digest_iff {k₁ k₂ message : List UInt8} :
    digest k₁ message = digest k₂ message ↔
      Interchangeable k₁ k₂ ∨ Collide (outer k₁ message) (outer k₂ message) := by
  constructor
  · intro h
    by_cases hblock : block k₁ = block k₂
    · exact .inl (block_eq_block_iff.1 hblock)
    · exact .inr ⟨outer_ne_outer hblock message message, h⟩
  · rintro (h | h)
    · exact digest_congr (block_eq_block_iff.2 h) message
    · exact h.digest_eq

end Digest.Hmac

/-! ## Headers of other secrets -/

namespace Secret

open Digest (Collide)
open Digest.Hmac (Interchangeable outer blockSize)

variable (s t : Secret) (body : List UInt8)

/-- Two secrets sign a body alike if they are interchangeable, or if two texts collide. -/
theorem sign_eq_sign_iff :
    s.sign body = t.sign body ↔
      Interchangeable s.key t.key ∨ Collide (outer s.key body) (outer t.key body) :=
  Digest.Hmac.digest_eq_digest_iff

/-- A header that a secret makes is well formed, so that only its digest counts. -/
theorem verify_header_of_other :
    t.verify body (some (s.header body)) =
      if s.sign body = t.sign body then .ok () else .error .mismatch := by
  rw [verify, digestOf?_header]

/-- The header of an interchangeable secret is accepted. -/
theorem verify_header_of_interchangeable (h : Interchangeable s.key t.key) :
    t.verify body (some (s.header body)) = .ok () := by
  rw [verify_header_of_other, if_pos ((sign_eq_sign_iff s t body).2 (.inl h))]

/-- For every body there are secrets that are not interchangeable, and of which one accepts the header
of the other: there are more keys of 33 bytes than digests. -/
theorem exists_accepted_under_other :
    ∃ s t : Secret, ¬ Interchangeable s.key t.key ∧
      t.verify body (some (s.header body)) = .ok () := by
  have hmore : Fintype.card (List.Vector UInt8 32) < Fintype.card (List.Vector UInt8 33) := by
    have hbytes : Nontrivial UInt8 := ⟨0, 1, by decide⟩
    rw [card_vector, card_vector]
    exact Nat.pow_lt_pow_right Fintype.one_lt_card (by decide)
  -- Keys of one length that fit into a block are told apart, so two with one digest will do.
  let signed (v : List.Vector UInt8 33) : List.Vector UInt8 32 :=
    ⟨sign ⟨v.toList⟩ body, length_sign _ body⟩
  obtain ⟨v, w, hne, hsame⟩ := Fintype.exists_ne_map_eq_of_card_lt signed hmore
  refine ⟨⟨v.toList⟩, ⟨w.toList⟩, ?_, ?_⟩
  · intro h
    have hlength : v.toList.length = w.toList.length := by
      rw [List.Vector.toList_length, List.Vector.toList_length]
    have hshort : v.toList.length ≤ blockSize := by
      rw [List.Vector.toList_length]
      decide
    exact hne (List.Vector.toList_injective (h.eq_of_length_eq hlength hshort))
  · have hsign : sign ⟨v.toList⟩ body = sign ⟨w.toList⟩ body := congrArg List.Vector.toList hsame
    rw [verify_header_of_other, if_pos hsign]

/-- **Other secrets.** A header that one secret makes is refused under another for its digest, unless
it is accepted. It is refused exactly if neither of the two keys is the other with zeros behind it,
where a key longer than a block counts as its digest, and the messages that are digested last, which
then differ, have different digests. Of two keys that do come to the same, one accepts for every body
what the other accepts. -/
theorem refused_under_other_iff :
    (t.verify body (some (s.header body)) = .error .mismatch ↔
      ¬ Interchangeable s.key t.key ∧ ¬ Collide (outer s.key body) (outer t.key body)) ∧
    (t.verify body (some (s.header body)) = .ok () ↔
      Interchangeable s.key t.key ∨ Collide (outer s.key body) (outer t.key body)) ∧
    (Interchangeable s.key t.key → ∀ other header, s.verify other header = t.verify other header) := by
  rw [← not_or, ← sign_eq_sign_iff, verify_header_of_other]
  refine ⟨?_, ?_, ?_⟩
  · by_cases h : s.sign body = t.sign body <;> simp [h]
  · by_cases h : s.sign body = t.sign body <;> simp [h]
  · intro h other header
    have hother : s.sign other = t.sign other := (sign_eq_sign_iff s t other).2 (.inl h)
    unfold verify
    rw [hother]

/-- Two letters are told apart, while the empty secret and a zero byte are one secret. -/
theorem refused_under_other_iff_letters :
    let body : List UInt8 := [0x7b, 0x7d]
    (⟨[0x74]⟩ : Secret).verify body (some ((⟨[0x73]⟩ : Secret).header body)) = .error .mismatch ∧
      ∀ other header, (⟨[]⟩ : Secret).verify other header = (⟨[0]⟩ : Secret).verify other header := by
  intro body
  have hletters : ¬ Interchangeable [0x73] [0x74] := by
    intro h
    exact absurd (h.eq_of_length_eq rfl (by decide)) (by decide)
  have hdigests : ¬ Collide (outer [0x73] body) (outer [0x74] body) := by
    rintro ⟨-, hdigest⟩
    revert hdigest
    decide +kernel
  have hzero : Interchangeable [] [0] := ⟨1, .inr rfl⟩
  exact ⟨(refused_under_other_iff ⟨[0x73]⟩ ⟨[0x74]⟩ body).1.2 ⟨hletters, hdigests⟩,
    (refused_under_other_iff ⟨[]⟩ ⟨[0]⟩ body).2.2 hzero⟩

/-- The header of the empty secret is accepted under a zero byte, and that of a long secret under its
digest. -/
theorem accepted_under_other :
    let body : List UInt8 := [0x7b, 0x7d]
    let long : Secret := ⟨List.replicate 65 0x61⟩
    let digested : Secret := ⟨Digest.Sha256.digest long.key⟩
    ((⟨[]⟩ : Secret) ≠ ⟨[0]⟩ ∧
      (⟨[0]⟩ : Secret).verify body (some ((⟨[]⟩ : Secret).header body)) = .ok ()) ∧
    (long ≠ digested ∧ digested.verify body (some (long.header body)) = .ok ()) := by
  intro body long digested
  have hlong : Interchangeable long.key digested.key := by
    refine ⟨0, .inl ?_⟩
    rw [List.replicate_zero, List.append_nil, Digest.Hmac.short_of_lt_length (by decide),
      Digest.Hmac.short_of_length_le (by decide)]
  refine ⟨⟨by decide, ?_⟩, ?_, ?_⟩
  · exact verify_header_of_interchangeable ⟨[]⟩ ⟨[0]⟩ body ⟨1, .inr rfl⟩
  · intro heq
    have hlength : long.key.length = digested.key.length := by rw [← heq]
    exact absurd hlength (by decide)
  · exact verify_header_of_interchangeable long digested body hlong

end Secret

end PullGate
