import PullGate.Proofs.Json.Spelling
/-!
# Texts in their places

Characters between quotation marks are read, however they are spelled, and passed over, whatever
follows the closing mark.
-/

namespace PullGate.Json

open PullGate.Text (Utf8.encode Utf8.encodeChar)

/-! ## Bytes that stand for themselves -/

/-- Whether a byte between quotation marks stands for itself. -/
def isPlain (b : UInt8) : Bool := b.toNat ≠ 0x22 && b.toNat ≠ 0x5c && 0x20 ≤ b.toNat

theorem isPlain_iff {b : UInt8} :
    isPlain b = true ↔ b ≠ 0x22 ∧ b ≠ 0x5c ∧ ¬ b.toNat < 0x20 := by
  simp [isPlain, ← UInt8.toNat_inj, and_assoc]

/-- Plain bytes are read as they are. -/
theorem readBytes_plain {bytes : List UInt8} (h : ∀ b ∈ bytes, isPlain b = true)
    (rest read : List UInt8) : readBytes (bytes ++ rest) read = readBytes rest (bytes.reverse ++ read) := by
  induction bytes generalizing read with
  | nil => rfl
  | cons b bytes ih =>
    obtain ⟨hmark, hback, hcontrol⟩ := isPlain_iff.1 (h b List.mem_cons_self)
    rw [List.cons_append, readBytes.eq_def]
    simp only [hmark, hback, hcontrol, if_false]
    rw [ih fun c hc => h c (List.mem_cons_of_mem _ hc), List.reverse_cons, List.append_assoc]
    rfl

/-- Plain bytes are passed over. -/
theorem skipText_plain {bytes : List UInt8} (h : ∀ b ∈ bytes, isPlain b = true)
    (rest : List UInt8) : skipText (bytes ++ rest) = skipText rest := by
  induction bytes with
  | nil => rfl
  | cons b bytes ih =>
    obtain ⟨hmark, hback, hcontrol⟩ := isPlain_iff.1 (h b List.mem_cons_self)
    rw [List.cons_append, skipText_cons hmark hback hcontrol]
    exact ih fun c hc => h c (List.mem_cons_of_mem _ hc)

/-- Bytes outside ASCII are plain. -/
theorem isPlain_ofNat {n : Nat} (h : 0x80 ≤ n) (h' : n < 0x100) : isPlain (UInt8.ofNat n) = true := by
  have hn : (UInt8.ofNat n).toNat = n := by simp; omega
  simp only [isPlain, hn, Bool.and_eq_true, decide_eq_true_eq]
  omega

/-- A character that is no control character and needs no backslash is spelled by such bytes. -/
theorem isPlain_of_mem_encodeChar {c : Char} (h : c ≠ '"' ∧ c ≠ '\\' ∧ 0x20 ≤ c.toNat) :
    ∀ b ∈ Utf8.encodeChar c, isPlain b = true := by
  have hv : c.toNat < 0x110000 := by
    have := c.valid
    rcases this with h | h
    · exact Nat.lt_trans h (by decide)
    · exact h.2
  have hmark : c.toNat ≠ 0x22 := fun he => h.1 (Char.toNat_inj.1 he)
  have hback : c.toNat ≠ 0x5c := fun he => h.2.1 (Char.toNat_inj.1 he)
  unfold Text.Utf8.encodeChar
  generalize c.toNat = n at hv hmark hback h ⊢
  intro b hb
  dsimp only at hb
  split at hb
  · obtain rfl := List.mem_singleton.1 hb
    have hn : (UInt8.ofNat n).toNat = n := by simp; omega
    simp only [isPlain, hn, Bool.and_eq_true, decide_eq_true_eq]
    omega
  -- beyond ASCII every byte is plain, the first and those that follow it
  have hfollowing (m : Nat) : isPlain (UInt8.ofNat (0x80 + m % 0x40)) = true :=
    isPlain_ofNat (by omega) (by omega)
  repeat' split at hb
  all_goals simp only [List.mem_cons, List.not_mem_nil, or_false] at hb
  · rcases hb with rfl | rfl
    · exact isPlain_ofNat (by omega) (by omega)
    · exact hfollowing n
  · rcases hb with rfl | rfl | rfl
    · exact isPlain_ofNat (by omega) (by omega)
    · exact hfollowing (n / 0x40)
    · exact hfollowing n
  · rcases hb with rfl | rfl | rfl | rfl
    · exact isPlain_ofNat (by omega) (by omega)
    · exact hfollowing (n / 0x1000)
    · exact hfollowing (n / 0x40)
    · exact hfollowing n

/-! ## Escapes -/

/-- One byte after a backslash stands for a byte of ASCII. -/
theorem encodeChar_of_escaped? {e b : UInt8} (h : escaped? e = some b) :
    Utf8.encodeChar (Char.ofNat b.toNat) = [b] := by
  unfold escaped? at h
  repeat' split at h
  all_goals first | (cases h; rfl) | cases h

/-- **Texts are read.** Whichever way characters are spelled, their bytes are read up to the closing
mark. -/
theorem SpellsChars.readBytes {bytes : List UInt8} {cs : List Char} (h : SpellsChars bytes cs)
    (rest read : List UInt8) :
    readBytes (bytes ++ 0x22 :: rest) read = .ok (read.reverse ++ Utf8.encode cs, rest) := by
  induction h generalizing read with
  | nil =>
    rw [List.nil_append, readBytes.eq_def]
    simp [Text.Utf8.encode]
  | plain h more ih =>
    rw [List.append_assoc, readBytes_plain (isPlain_of_mem_encodeChar h), ih]
    simp [Text.Utf8.encode]
  | @short e b bytes cs h more ih =>
    rw [List.cons_append, List.cons_append, readBytes.eq_def]
    simp only [h, show ¬ (0x5c : UInt8) = 0x22 by decide, if_false, if_true]
    rw [ih]
    simp [Text.Utf8.encode, encodeChar_of_escaped? h]
  | @hex a b c d n bytes cs h alone more ih =>
    simp only [List.cons_append]
    rw [readBytes.eq_def]
    simp only [h, alone.1, alone.2, show ¬ (0x5c : UInt8) = 0x22 by decide, if_false, if_true,
      show escaped? 0x75 = none by decide, Bool.false_eq_true, Bool.not_false]
    rw [ih]
    simp [pushChar, Text.Utf8.encode]
  | @pair a b c d a' b' c' d' n m bytes cs h leading h' trailing more ih =>
    -- the first half of a pair is never taken for a second
    have hn : isTrailing n = false := by
      simp only [isLeading, isTrailing, Bool.and_eq_true, decide_eq_true_eq] at leading ⊢
      simp
      omega
    simp only [List.cons_append]
    rw [readBytes.eq_def]
    simp only [h, h', leading, hn, trailing, show ¬ (0x5c : UInt8) = 0x22 by decide, if_false, if_true,
      show escaped? 0x75 = none by decide, Bool.false_eq_true, Bool.not_true, ne_eq, not_true]
    rw [ih]
    simp [pushChar, Text.Utf8.encode]

/-- What spells a text is read as it. -/
theorem SpellsChars.readText {bytes : List UInt8} {s : String} (h : SpellsChars bytes s.toList)
    (rest : List UInt8) : readText (bytes ++ 0x22 :: rest) = .ok (s, rest) := by
  rw [Json.readText, h.readBytes]
  simp [Text.Utf8.decode?_encode]

/-- Texts are passed over. -/
theorem SpellsChars.skipText {bytes : List UInt8} {cs : List Char} (h : SpellsChars bytes cs)
    (rest : List UInt8) : skipText (bytes ++ 0x22 :: rest) = .ok rest := by
  induction h with
  | nil => exact skipText_mark rest
  | plain h more ih => rw [List.append_assoc, skipText_plain (isPlain_of_mem_encodeChar h), ih]
  | short h more ih => rw [List.cons_append, List.cons_append, skipText_short (by simp [h]), ih]
  | hex h alone more ih =>
    simp only [List.cons_append]
    rw [skipText_hex (by simp [h]), ih]
  | pair h leading h' trailing more ih =>
    simp only [List.cons_append]
    rw [skipText_hex (by simp [h]), skipText_hex (by simp [h']), ih]

/-! ## Texts as they are written -/

/-- The digits of a number below 32 after two zeros are read as the number. -/
theorem hexValue?_control : ∀ n, n < 0x20 →
    hexValue? 0x30 0x30 (byte (Text.Hex.digit (n / 16))) (byte (Text.Hex.digit (n % 16))) = some n ∧
      isLeading n = false ∧ isTrailing n = false := by
  decide

theorem encodeChar_digit : ∀ n, n < 16 →
    Utf8.encodeChar (Text.Hex.digit n) = [byte (Text.Hex.digit n)] := by
  decide

/-- A short escape spells its character. -/
theorem spellsChars_short {e b : UInt8} {c : Char} {bytes : List UInt8} {cs : List Char}
    (he : escaped? e = some b) (hc : c.toNat = b.toNat) (h : SpellsChars bytes cs) :
    SpellsChars (0x5c :: e :: bytes) (c :: cs) := by
  rw [show c = Char.ofNat b.toNat by rw [← hc, Char.ofNat_toNat]]
  exact .short he h

/-- A control character is written with its number. -/
theorem spellsChars_control {c : Char} (hc : c.toNat < 0x20) {bytes : List UInt8} {cs : List Char}
    (h : SpellsChars bytes cs) :
    SpellsChars (Utf8.encode ['\\', 'u', '0', '0', Text.Hex.digit (c.toNat / 16),
      Text.Hex.digit (c.toNat % 16)] ++ bytes) (c :: cs) := by
  obtain ⟨hvalue, halone⟩ := hexValue?_control c.toNat hc
  have hbytes : Utf8.encode
      ['\\', 'u', '0', '0', Text.Hex.digit (c.toNat / 16), Text.Hex.digit (c.toNat % 16)] =
      [0x5c, 0x75, 0x30, 0x30, byte (Text.Hex.digit (c.toNat / 16)),
        byte (Text.Hex.digit (c.toNat % 16))] := by
    simp only [Utf8.encode, List.flatMap_cons, encodeChar_digit _ (show c.toNat / 16 < 16 by omega),
      encodeChar_digit _ (show c.toNat % 16 < 16 by omega)]
    rfl
  have hspells := SpellsChars.hex hvalue halone h
  rw [Char.ofNat_toNat] at hspells
  rwa [hbytes]

/-- What is written for a character spells it. -/
theorem spellsChars_escapedChar (c : Char) {bytes : List UInt8} {cs : List Char}
    (h : SpellsChars bytes cs) : SpellsChars (Utf8.encode (escapedChar c) ++ bytes) (c :: cs) := by
  unfold escapedChar
  split
  · rename_i hc
    exact spellsChars_short rfl (hc ▸ rfl) h
  split
  · rename_i hc
    exact spellsChars_short rfl (hc ▸ rfl) h
  split
  · rename_i hc
    exact spellsChars_short rfl hc h
  split
  · rename_i hc
    exact spellsChars_short rfl hc h
  split
  · rename_i hc
    exact spellsChars_short rfl (hc ▸ rfl) h
  split
  · rename_i hc
    exact spellsChars_short rfl (hc ▸ rfl) h
  split
  · rename_i hc
    exact spellsChars_short rfl (hc ▸ rfl) h
  split
  -- what is left is a control character without a short form, or stands for itself
  · rename_i hcontrol
    exact spellsChars_control hcontrol h
  · rename_i hmark hback _ _ _ _ _ hcontrol
    rw [show Utf8.encode [c] = Utf8.encodeChar c by simp [Text.Utf8.encode]]
    exact .plain ⟨hmark, hback, Nat.le_of_not_lt hcontrol⟩ h

/-- What is written for characters spells them. -/
theorem spellsChars_escaped (cs : List Char) :
    SpellsChars (Utf8.encode (cs.flatMap escapedChar)) cs := by
  induction cs with
  | nil => exact .nil
  | cons c cs ih =>
    have h := spellsChars_escapedChar c ih
    rwa [Utf8.encode, Utf8.encode, ← List.flatMap_append, ← List.flatMap_cons] at h

end PullGate.Json
