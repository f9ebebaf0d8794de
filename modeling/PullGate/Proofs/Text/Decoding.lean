import Mathlib.Data.List.Basic
import PullGate.Text.Base64
import PullGate.Text.Utf8
/-!
# Bytes that are texts

Which bytes are read as a text, and which characters they are read as: exactly the UTF-8 of a text, as
this text (`decode?_eq_some_iff`). Other bytes are read with a replacement character.
-/

namespace PullGate.Text.Utf8

/-- What a first byte beyond ASCII says of the bytes that may follow it. -/
theorem cases_of_lead? {n : Nat} {l : Lead} (h : lead? n = some l) :
    (l.following = 1 ∧ n = 0xc0 + l.bits ∧ 2 ≤ l.bits ∧ l.bits < 0x20 ∧ l.least = 0x80 ∧
      l.greatest = 0xbf) ∨
    (l.following = 2 ∧ n = 0xe0 + l.bits ∧ l.bits < 0x10 ∧ 0x80 ≤ l.least ∧ l.greatest ≤ 0xbf ∧
      (l.bits = 0 → 0xa0 ≤ l.least) ∧ (l.bits = 0xd → l.greatest ≤ 0x9f)) ∨
    (l.following = 3 ∧ n = 0xf0 + l.bits ∧ l.bits ≤ 4 ∧ 0x80 ≤ l.least ∧ l.greatest ≤ 0xbf ∧
      (l.bits = 0 → 0x90 ≤ l.least) ∧ (l.bits = 4 → l.greatest ≤ 0x8f)) := by
  unfold lead? at h
  split_ifs at h <;> cases h <;> simp <;> omega

/-- A code point that is no half of a pair is that of its character. -/
theorem toNat_ofNat {n : Nat} (h : n < 0xd800 ∨ (0xdfff < n ∧ n < 0x110000)) :
    (Char.ofNat n).toNat = n := by
  have hvalid : n.isValidChar := h
  rw [Char.ofNat, dif_pos hvalid]
  rfl

private theorem ofNat_eq {n : Nat} {b : UInt8} (h : n = b.toNat) : UInt8.ofNat n = b := by
  rw [h, UInt8.ofNat_toNat]

/-- Further bytes are told by their upper two bits. -/
theorem isFollowing_iff {b : UInt8} : isFollowing b = true ↔ 0x80 ≤ b.toNat ∧ b.toNat < 0xc0 := by
  simp [isFollowing]

section

variable {a b c d : UInt8} {l : Lead}

/-- Two bytes that are read as a character are its bytes. -/
theorem encodeChar_two (hl : lead? a.toNat = some l) (hb : l.least ≤ b.toNat ∧ b.toNat ≤ l.greatest)
    (hone : l.following = 1) : encodeChar (Char.ofNat (l.bits * 0x40 + b.toNat % 0x40)) = [a, b] := by
  obtain ⟨-, ha, hmin, hmax, hleast, hgreatest⟩ | ⟨htwo, -⟩ | ⟨hthree, -⟩ := cases_of_lead? hl
  · rw [encodeChar, toNat_ofNat (.inl (by omega))]
    rw [if_neg (by omega), if_pos (by omega), ofNat_eq (b := a) (by omega),
      ofNat_eq (b := b) (by omega)]
  · omega
  · omega

/-- Three bytes that are read as a character are its bytes. -/
theorem encodeChar_three (hl : lead? a.toNat = some l)
    (hb : l.least ≤ b.toNat ∧ b.toNat ≤ l.greatest) (hc : isFollowing c = true)
    (htwo : l.following = 2) :
    encodeChar (Char.ofNat ((l.bits * 0x40 + b.toNat % 0x40) * 0x40 + c.toNat % 0x40)) =
      [a, b, c] := by
  rw [isFollowing_iff] at hc
  obtain ⟨hone, -⟩ | ⟨-, ha, hbits, hleast, hgreatest, hzero, hsurrogate⟩ | ⟨hthree, -⟩ :=
    cases_of_lead? hl
  · omega
  · rw [encodeChar, toNat_ofNat (by omega)]
    rw [if_neg (by omega), if_neg (by omega), if_pos (by omega), ofNat_eq (b := a) (by omega),
      ofNat_eq (b := b) (by omega), ofNat_eq (b := c) (by omega)]
  · omega

/-- Four bytes that are read as a character are its bytes. -/
theorem encodeChar_four (hl : lead? a.toNat = some l)
    (hb : l.least ≤ b.toNat ∧ b.toNat ≤ l.greatest) (hc : isFollowing c = true)
    (hd : isFollowing d = true) (hone : ¬ l.following = 1) (htwo : ¬ l.following = 2) :
    encodeChar (Char.ofNat (((l.bits * 0x40 + b.toNat % 0x40) * 0x40 + c.toNat % 0x40) * 0x40 +
      d.toNat % 0x40)) = [a, b, c, d] := by
  rw [isFollowing_iff] at hc hd
  obtain ⟨hone', -⟩ | ⟨htwo', -⟩ | ⟨-, ha, hbits, hleast, hgreatest, hzero, hfour⟩ := cases_of_lead? hl
  · exact absurd hone' hone
  · exact absurd htwo' htwo
  · rw [encodeChar, toNat_ofNat (by omega)]
    rw [if_neg (by omega), if_neg (by omega), if_neg (by omega), ofNat_eq (b := a) (by omega),
      ofNat_eq (b := b) (by omega), ofNat_eq (b := c) (by omega), ofNat_eq (b := d) (by omega)]

end

theorem encode_cons (c : Char) (cs : List Char) : encode (c :: cs) = encodeChar c ++ encode cs := rfl

/-- Bytes that are all read as characters are the bytes of these. -/
theorem encode_of_units {bytes : List UInt8} {cs : List Char} (h : units bytes = cs.map some) :
    encode cs = bytes := by
  fun_induction units bytes generalizing cs with
  | case1 =>
    obtain rfl := List.map_eq_nil_iff.1 h.symm
    rfl
  | case2 a rest ha ih =>
    obtain ⟨c, cs, rfl, hc, hrest⟩ := List.map_eq_cons_iff.1 h.symm
    obtain rfl := Option.some.inj hc
    rw [encode_cons, ih hrest.symm, encodeChar, toNat_ofNat (.inl (by omega))]
    simp [ha]
  -- two bytes, then three and four: what the reader checked is what makes the writer choose that
  -- length
  | case5 a ha l hl b rest hb two hone =>
    rename_i ih
    obtain ⟨c, cs, rfl, hc, hrest⟩ := List.map_eq_cons_iff.1 h.symm
    obtain rfl := Option.some.inj hc
    rw [encode_cons, ih hrest.symm, encodeChar_two hl (by simpa using hb) hone]
    rfl
  | case7 a ha l hl b hb two hone c rest hc three =>
    rename_i htwo ih
    obtain ⟨c, cs, rfl, hc, hrest⟩ := List.map_eq_cons_iff.1 h.symm
    obtain rfl := Option.some.inj hc
    rw [encode_cons, ih hrest.symm, encodeChar_three hl (by simpa using hb) ‹_› htwo]
    rfl
  | case9 a ha l hl b hb two hone c hc three htwo d rest =>
    rename_i hd ih
    obtain ⟨c, cs, rfl, hc, hrest⟩ := List.map_eq_cons_iff.1 h.symm
    obtain rfl := Option.some.inj hc
    rw [encode_cons, ih hrest.symm, encodeChar_four hl (by simpa using hb) ‹_› hd hone htwo]
    rfl
  | _ =>
    -- in all other cases a unit is unread
    obtain ⟨_, _, _, hc, -⟩ := List.map_eq_cons_iff.1 h.symm
    cases hc

/-- What is no text is read with a replacement character. -/
theorem mem_decodeLossy {bytes : List UInt8} (h : ∀ cs, encode cs ≠ bytes) :
    '\ufffd' ∈ decodeLossy bytes := by
  by_contra hmem
  refine h (decodeLossy bytes) (encode_of_units ?_)
  have hsome : ∀ u ∈ units bytes, some (u.getD '\ufffd') = u := by
    intro u hu
    cases u with
    | none => exact absurd (List.mem_map_of_mem (f := (·.getD '\ufffd')) hu) hmem
    | some c => rfl
  rw [decodeLossy, List.map_map]
  exact ((List.map_congr_left hsome).trans (List.map_id (units bytes))).symm

/-- The bytes of a character are those that are kept for it in strings. -/
theorem encodeChar_eq (c : Char) : encodeChar c = String.utf8EncodeChar c := by
  have hvalid : c.toNat < 0xd800 ∨ (0xdfff < c.toNat ∧ c.toNat < 0x110000) := c.valid
  unfold encodeChar String.utf8EncodeChar
  simp only [Char.toNat_val]
  generalize c.toNat = n at hvalid ⊢
  by_cases hone : n < 0x80
  · rw [if_pos hone, if_pos (show n ≤ 127 by omega)]
  rw [if_neg hone, if_neg (show ¬ n ≤ 127 by omega)]
  by_cases htwo : n < 0x800
  · rw [if_pos htwo, if_pos (show n ≤ 2047 by omega),
      show 0xc0 + n / 0x40 = n / 64 % 32 + 192 by omega, Nat.add_comm 0x80]
  rw [if_neg htwo, if_neg (show ¬ n ≤ 2047 by omega)]
  by_cases hthree : n < 0x10000
  · rw [if_pos hthree, if_pos (show n ≤ 65535 by omega),
      show 0xe0 + n / 0x1000 = n / 4096 % 16 + 224 by omega, Nat.add_comm 0x80, Nat.add_comm 0x80]
  · rw [if_neg hthree, if_neg (show ¬ n ≤ 65535 by omega),
      show 0xf0 + n / 0x40000 = n / 262144 % 8 + 240 by omega, Nat.add_comm 0x80, Nat.add_comm 0x80,
      Nat.add_comm 0x80]

/-- The bytes of a text are those in which it is kept. -/
theorem ofString_eq (s : String) : ofString s = s.toUTF8.data.toList := by
  rw [String.toUTF8, ← String.utf8Encode_toList, List.utf8Encode, List.toList_data_toByteArray,
    ofString, encode]
  exact List.flatMap_congr fun c _ => encodeChar_eq c

end PullGate.Text.Utf8
