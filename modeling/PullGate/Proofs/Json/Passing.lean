import PullGate.Proofs.Json.Meaning
/-!
# What is passed over is JSON

In front of what is left when a value was passed over there stands a value (`fronts_of_skipValue`), so
that nothing but JSON is passed over. A value is passed over with a stack of the lists and objects around
the place that is reached; what is left of these is passed over up to their ends (`Closes`).
-/

namespace PullGate.Json

open PullGate.Decimal (isDigit skipDigits)

variable {bytes rest : List UInt8}

/-! ## Blanks, words and texts -/

/-- Bytes begin with the blanks that are passed over. -/
theorem exists_blanks (bytes : List UInt8) : ∃ ws, Blanks ws ∧ bytes = ws ++ skipBlanks bytes := by
  induction bytes with
  | nil => exact ⟨[], blanks_nil, rfl⟩
  | cons b rest ih =>
    rw [skipBlanks]
    split
    · next hb =>
      obtain ⟨ws, hws, heq⟩ := ih
      exact ⟨b :: ws, List.forall_mem_cons.2 ⟨hb, hws⟩, congrArg (b :: ·) heq⟩
    · exact ⟨[], blanks_nil, rfl⟩

/-- What is found behind blanks has blanks in front. -/
theorem exists_blanks_of_skipBlanks {found : List UInt8} (h : skipBlanks bytes = found) :
    ∃ ws, Blanks ws ∧ bytes = ws ++ found := by
  subst h
  exact exists_blanks bytes

theorem Blanks.append {ws ws' : List UInt8} (h : Blanks ws) (h' : Blanks ws') : Blanks (ws ++ ws') :=
  List.forall_mem_append.2 ⟨h, h'⟩

/-- A word that is read stands there letter by letter. -/
theorem eq_of_readWord {word : List Char} (h : readWord word bytes = .ok rest) :
    bytes = word.map byte ++ rest := by
  fun_induction readWord word bytes with
  | case1 bytes =>
    cases h
    rfl
  | case2 => cases h
  | case3 c word rest ih => rw [ih h, List.map_cons, List.cons_append]
  | case4 => cases h

/-- The bytes are those of a text up to its closing mark, and then the rest. -/
def EndsText (bytes rest : List UInt8) : Prop :=
  ∃ chars, StandsChars chars ∧ bytes = chars ++ 0x22 :: rest

namespace EndsText

theorem mark : EndsText (0x22 :: rest) rest := ⟨[], .nil, rfl⟩

/-- A plain byte may stand before the end of a text. -/
theorem plain {b : UInt8} (hmark : ¬ b = 0x22) (hback : ¬ b = 0x5c) (hcontrol : ¬ b.toNat < 0x20)
    (more : EndsText bytes rest) : EndsText (b :: bytes) rest := by
  obtain ⟨chars, hchars, rfl⟩ := more
  exact ⟨b :: chars, .plain (isPlain_iff.2 ⟨hmark, hback, hcontrol⟩) hchars, rfl⟩

theorem short {e : UInt8} (h : (escaped? e).isSome = true) (more : EndsText bytes rest) :
    EndsText (0x5c :: e :: bytes) rest := by
  obtain ⟨chars, hchars, rfl⟩ := more
  exact ⟨_, .short h hchars, rfl⟩

theorem hex {a b c d : UInt8} (h : (hexValue? a b c d).isSome = true)
    (more : EndsText bytes rest) : EndsText (0x5c :: 0x75 :: a :: b :: c :: d :: bytes) rest := by
  obtain ⟨chars, hchars, rfl⟩ := more
  exact ⟨_, .hex h hchars, rfl⟩

/-- A text that is passed over ends where it was passed over to. -/
theorem of_skipText (h : skipText bytes = .ok rest) : EndsText bytes rest := by
  fun_induction skipText bytes with
  | case2 =>
    cases h
    exact mark
  | case4 e bytes he _ ih => exact short he (ih h)
  | case5 a b c d bytes hhex _ _ ih => exact hex hhex (ih h)
  | case10 b bytes hmark hback hcontrol ih => exact plain hmark hback hcontrol (ih h)
  | _ => cases h

/-- A text that is read ends where it was read to. -/
theorem of_readText {s : String} (h : readText bytes = .ok (s, rest)) : EndsText bytes rest := by
  unfold readText at h
  split at h
  · cases h
  · split at h
    · cases h
    · cases h
      exact of_skipText (skipText_of_readBytes ‹_›)

end EndsText

/-! ## Numbers -/

theorem exists_digits (bytes : List UInt8) :
    ∃ ds, AreDigits ds ∧ bytes = ds ++ skipDigits bytes :=
  ⟨bytes.takeWhile isDigit, List.all_eq_true.1 List.all_takeWhile, List.takeWhile_append_dropWhile.symm⟩

/-- An exponent begins with a sign or none. -/
theorem exists_sign (bytes : List UInt8) :
    ∃ sign, (sign = [] ∨ sign = [0x2b] ∨ sign = [0x2d]) ∧ bytes = sign ++ (exponentSign bytes).2 := by
  rcases bytes with _ | ⟨b, rest⟩
  · exact ⟨[], .inl rfl, rfl⟩
  · rw [exponentSign]
    split
    · next hb => exact ⟨[b], .inr (.inl (congrArg ([·]) hb)), rfl⟩
    · split
      · next hb => exact ⟨[b], .inr (.inr (congrArg ([·]) hb)), rfl⟩
      · exact ⟨[], .inl rfl, rfl⟩

/-- What is passed over for an exponent is one. -/
theorem exists_exponent_of_skipOptionalExponent (h : skipOptionalExponent bytes = .ok rest) :
    ∃ exponent, StandsExponent exponent ∧ bytes = exponent ++ rest := by
  rcases bytes with _ | ⟨e, after⟩
  · cases h
    exact ⟨[], .nil, rfl⟩
  rw [skipOptionalExponent] at h
  split at h
  · next hletter =>
    obtain ⟨sign, hsign, hafter⟩ := exists_sign after
    rw [skipExponent] at h
    split at h
    · cases h
    -- one digit at least stands behind the sign
    · next b more hmore =>
      split at h
      · next hb =>
        cases h
        obtain ⟨ds, hds, heq⟩ := exists_digits more
        refine ⟨e :: (sign ++ b :: ds), .digits (by simpa using hletter) hsign ?_, ?_⟩
        · exact List.forall_mem_cons.2 ⟨hb, hds⟩
        · rw [List.cons_append, List.append_assoc, List.cons_append, ← heq, ← hmore, ← hafter]
      · cases h
  · cases h
    exact ⟨[], .nil, rfl⟩

/-- What is passed over behind digits is a fraction and an exponent. -/
theorem exists_fraction_of_skipAfterDigits (h : skipAfterDigits bytes = .ok rest) :
    ∃ fraction exponent, StandsFraction fraction ∧ StandsExponent exponent ∧
      bytes = fraction ++ (exponent ++ rest) := by
  rcases bytes with _ | ⟨b, more⟩
  · cases h
    exact ⟨[], [], .nil, .nil, rfl⟩
  rw [skipAfterDigits.eq_def] at h
  dsimp only at h
  split at h
  · next hpoint =>
    rcases more with _ | ⟨d, more⟩
    · cases h
    simp only at h
    split at h
    · next hd =>
      obtain ⟨ds, hds, heq⟩ := exists_digits more
      -- the first digit is passed over with the others
      rw [skipDigits, List.dropWhile_cons_of_pos hd, ← skipDigits] at h
      obtain ⟨exponent, hexponent, hrest⟩ := exists_exponent_of_skipOptionalExponent h
      refine ⟨0x2e :: d :: ds, exponent, .digits (List.forall_mem_cons.2 ⟨hd, hds⟩), hexponent, ?_⟩
      rw [hpoint, List.cons_append, List.cons_append, ← hrest, ← heq]
    · cases h
  · obtain ⟨exponent, hexponent, hrest⟩ := exists_exponent_of_skipOptionalExponent h
    exact ⟨[], exponent, .nil, hexponent, hrest⟩

/-- A number that is passed over is one. -/
theorem exists_unsigned_of_skipNumber (h : skipNumber bytes = .ok rest) :
    ∃ core, StandsUnsigned core ∧ bytes = core ++ rest := by
  -- what follows the digits before a point or an exponent
  have hafter {whole after : List UInt8} (hwhole : StandsWhole whole)
      (h : skipAfterDigits after = .ok rest) :
      ∃ core, StandsUnsigned core ∧ whole ++ after = core ++ rest := by
    obtain ⟨fraction, exponent, hfraction, hexponent, rfl⟩ := exists_fraction_of_skipAfterDigits h
    exact ⟨_, .mk hwhole hfraction hexponent, by simp only [List.append_assoc]⟩
  rcases bytes with _ | ⟨b, more⟩
  · cases h
  rw [skipNumber.eq_def] at h
  dsimp only at h
  split at h
  · next hb =>
    subst hb
    rcases more with _ | ⟨d, more⟩
    · exact hafter .zero h
    · simp only at h
      split at h
      · cases h
      · exact hafter .zero h
  · next hb =>
    split at h
    · next hdigit =>
      obtain ⟨ds, hds, heq⟩ := exists_digits more
      have hwhole : StandsWhole (b :: ds) := .digits hb (List.forall_mem_cons.2 ⟨hdigit, hds⟩)
      obtain ⟨core, hcore, hrest⟩ := hafter hwhole h
      rw [List.cons_append, ← heq] at hrest
      exact ⟨core, hcore, hrest⟩
    · cases h

/-! ## Values in front -/

/-- The bytes are a value, and then the rest. -/
def Fronts (bytes rest : List UInt8) : Prop := ∃ core t, Stands core t ∧ bytes = core ++ rest

namespace Fronts

theorem null (h : readWord ['u', 'l', 'l'] bytes = .ok rest) : Fronts (0x6e :: bytes) rest := by
  rw [eq_of_readWord h]
  exact ⟨_, _, .null, rfl⟩

theorem yes (h : readWord ['r', 'u', 'e'] bytes = .ok rest) : Fronts (0x74 :: bytes) rest := by
  rw [eq_of_readWord h]
  exact ⟨_, _, .yes, rfl⟩

theorem no (h : readWord ['a', 'l', 's', 'e'] bytes = .ok rest) : Fronts (0x66 :: bytes) rest := by
  rw [eq_of_readWord h]
  exact ⟨_, _, .no, rfl⟩

/-- What is passed over behind a minus is the rest of a number. -/
theorem negative (h : skipNumber bytes = .ok rest) : Fronts (0x2d :: bytes) rest := by
  obtain ⟨core, hcore, rfl⟩ := exists_unsigned_of_skipNumber h
  exact ⟨_, _, .number (.negative hcore), rfl⟩

/-- What is passed over as a number is one. -/
theorem positive (h : skipNumber bytes = .ok rest) : Fronts bytes rest := by
  obtain ⟨core, hcore, rfl⟩ := exists_unsigned_of_skipNumber h
  exact ⟨_, _, .number (.positive hcore), rfl⟩

/-- A text, from its opening mark on. -/
theorem text (h : EndsText bytes rest) : Fronts (0x22 :: bytes) rest := by
  obtain ⟨chars, hchars, rfl⟩ := h
  exact ⟨_, _, .text hchars, by simp⟩

/-- What is passed over as a value that nests nothing is one. -/
theorem of_skipScalar {b : UInt8} (h : skipScalar b bytes = .ok rest) : Fronts (b :: bytes) rest := by
  unfold skipScalar at h
  split at h
  · next hb => exact hb ▸ null h
  split at h
  · next hb => exact hb ▸ yes h
  split at h
  · next hb => exact hb ▸ no h
  split at h
  · next hb => exact hb ▸ negative h
  split at h
  · exact positive h
  split at h
  · next hb => exact hb ▸ text (.of_skipText h)
  · cases h

/-- What is read as such a value is one. -/
theorem of_readScalar {b : UInt8} {v : Value} (h : readScalar b bytes = .ok (v, rest)) :
    Fronts (b :: bytes) rest := by
  unfold readScalar at h
  split at h
  · next hb =>
    split at h <;> cases h
    exact hb ▸ null ‹_›
  split at h
  · next hb =>
    split at h <;> cases h
    exact hb ▸ yes ‹_›
  split at h
  · next hb =>
    split at h <;> cases h
    exact hb ▸ no ‹_›
  split at h
  · next hb =>
    split at h <;> cases h
    exact hb ▸ negative (skipNumber_of_readNumber ‹_›)
  split at h
  · split at h <;> cases h
    exact positive (skipNumber_of_readNumber ‹_›)
  split at h
  · next hb =>
    split at h <;> cases h
    exact hb ▸ text (.of_readText ‹_›)
  · cases h

end Fronts

/-! ## Values that are passed over -/

/-- The bytes are items of a list or members of an object, from the first on or from a later one. -/
def StandsPart (first : Bool) (bytes : List UInt8) : Frame → Prop
  | .list => ∃ items, StandsItems first bytes items
  | .object => ∃ members, StandsMembers first bytes members

theorem StandsPart.nil (first : Bool) : ∀ frame : Frame, StandsPart first [] frame
  | .list => ⟨[], .nil⟩
  | .object => ⟨[], .nil⟩

/-- The bytes go on to the ends of the lists and objects around a place, and then there is the rest. -/
inductive Closes : List Frame → List UInt8 → List UInt8 → Prop
  | nil {rest : List UInt8} : Closes [] rest rest
  | cons {frame : Frame} {frames : List Frame} {part ws after rest : List UInt8}
      (hpart : StandsPart false part frame) (blanks : Blanks ws) (outer : Closes frames after rest) :
      Closes (frame :: frames) (part ++ (ws ++ frame.closing :: after)) rest

/-- Further blanks belong to the gap. -/
theorem Gap.append {first : Bool} {gap ws : List UInt8} (h : Gap first gap) (hws : Blanks ws) :
    Gap first (gap ++ ws) := by
  cases h with
  | first blanks => exact .first (blanks.append hws)
  | later blanks blanks' =>
    rw [List.append_assoc, List.cons_append]
    exact .later blanks (blanks'.append hws)

/-- The bytes are a colon and a value behind it, with blanks around the colon, and then the rest. -/
def FrontsMember (bytes rest : List UInt8) : Prop :=
  ∃ ws after, Blanks ws ∧ bytes = ws ++ 0x3a :: after ∧ Fronts (skipBlanks after) rest

/-- An item in front of the rest of a list belongs to it. -/
theorem StandsPart.item {first : Bool} {gap after part tail : List UInt8} (hgap : Gap first gap)
    (hfronts : Fronts (skipBlanks bytes) after) (hafter : after = part ++ tail)
    (hpart : StandsPart false part .list) :
    ∃ whole, StandsPart first whole .list ∧ gap ++ bytes = whole ++ tail := by
  obtain ⟨core, t, hstands, hcore⟩ := hfronts
  obtain ⟨ws, hws, rfl⟩ := exists_blanks_of_skipBlanks hcore
  obtain ⟨items, hitems⟩ := hpart
  exact ⟨_, ⟨_, .cons (hgap.append hws) hstands hitems⟩, by simp only [hafter, List.append_assoc]⟩

/-- A member in front of the rest of an object belongs to it. -/
theorem StandsPart.member {first : Bool} {gap left after part tail : List UInt8} (hgap : Gap first gap)
    (hkey : EndsText bytes left) (hfronts : FrontsMember left after) (hafter : after = part ++ tail)
    (hpart : StandsPart false part .object) :
    ∃ whole, StandsPart first whole .object ∧ gap ++ 0x22 :: bytes = whole ++ tail := by
  obtain ⟨key, hchars, rfl⟩ := hkey
  obtain ⟨ws, value, hws, rfl, core, t, hstands, hcore⟩ := hfronts
  obtain ⟨ws', hws', rfl⟩ := exists_blanks_of_skipBlanks hcore
  obtain ⟨members, hmembers⟩ := hpart
  refine ⟨_, ⟨_, .cons hgap (.mk hchars hws hws') hstands hmembers⟩, ?_⟩
  simp only [hafter, List.append_assoc, List.cons_append]

/-- A key that is passed over stands between blanks and before a colon. -/
theorem exists_key_of_skipKey (h : skipKey bytes = .ok rest) :
    ∃ ws key left ws', Blanks ws ∧ bytes = ws ++ 0x22 :: key ∧ EndsText key left ∧ Blanks ws' ∧
      left = ws' ++ 0x3a :: rest := by
  unfold skipKey at h
  split at h
  · cases h
  · next b key hmark =>
    obtain ⟨ws, hws, rfl⟩ := exists_blanks_of_skipBlanks hmark
    split at h
    · cases h
    · next hb =>
      obtain rfl := Decidable.not_not.1 hb
      split at h
      · cases h
      · next left hskip =>
        split at h
        · cases h
        -- a colon follows the key, with blanks around it
        · next c after hcolon =>
          obtain ⟨ws', hws', rfl⟩ := exists_blanks_of_skipBlanks hcolon
          split at h
          · next hc =>
            cases h
            exact ⟨ws, key, _, ws', hws, rfl, .of_skipText hskip, hws', hc ▸ rfl⟩
          · cases h

/-- An item or a member more is put in front of others. -/
theorem StandsPart.cons {first : Bool} {gap after part tail : List UInt8} {frame : Frame}
    (hgap : Gap first gap) (hvalue : skipToValue frame bytes = .ok rest)
    (hfronts : Fronts (skipBlanks rest) after) (hafter : after = part ++ tail)
    (hpart : StandsPart false part frame) :
    ∃ whole, StandsPart first whole frame ∧ gap ++ bytes = whole ++ tail := by
  cases frame with
  | list =>
    cases hvalue
    exact item hgap hfronts hafter hpart
  | object =>
    obtain ⟨ws, key, left, ws', hws, rfl, hkey, hws', hleft⟩ := exists_key_of_skipKey hvalue
    have hmember : FrontsMember left after := ⟨ws', rest, hws', hleft, hfronts⟩
    rw [← List.append_assoc]
    exact member (hgap.append hws) hkey hmember hafter hpart

mutual

/-- A value is passed over, and then the rest of all that is around it. -/
theorem fronts_of_skipNext : ∀ (fuel : Nat) {frames : List Frame} {bytes rest : List UInt8},
    skipNext fuel frames bytes = .ok rest →
      ∃ after, Fronts (skipBlanks bytes) after ∧ Closes frames after rest
  | 0, _, _, _, h => by cases h
  | fuel + 1, frames, bytes, rest, h => by
    rw [skipNext] at h
    split at h
    · cases h
    · next b more hmore =>
      rw [hmore]
      split at h
      · next hb =>
        obtain ⟨part, ws, after, ⟨items, hitems⟩, hws, rfl, hcloses⟩ := standsPart_of_skipOpened fuel h
        rw [hb]
        exact ⟨after, ⟨_, _, .list hitems hws, by simp [Frame.closing]⟩, hcloses⟩
      split at h
      · next hb =>
        obtain ⟨part, ws, after, ⟨members, hmembers⟩, hws, rfl, hcloses⟩ :=
          standsPart_of_skipOpened fuel h
        rw [hb]
        exact ⟨after, ⟨_, _, .object hmembers hws, by simp [Frame.closing]⟩, hcloses⟩
      split at h
      · cases h
      -- without parts of its own it is done at once
      · exact ⟨_, .of_skipScalar ‹_›, closes_of_skipAfter fuel h⟩

/-- The inside of a list or an object is passed over up to its end, and then all around it. -/
theorem standsPart_of_skipOpened : ∀ (fuel : Nat) {frame : Frame} {frames : List Frame}
    {bytes rest : List UInt8}, skipOpened fuel frame frames bytes = .ok rest →
      ∃ part ws after, StandsPart true part frame ∧ Blanks ws ∧
        bytes = part ++ (ws ++ frame.closing :: after) ∧ Closes frames after rest
  | 0, _, _, _, _, h => by cases h
  | fuel + 1, frame, frames, bytes, rest, h => by
    rw [skipOpened] at h
    split at h
    · cases h
    · next b more hmore =>
      obtain ⟨ws, hws, rfl⟩ := exists_blanks_of_skipBlanks hmore
      split at h
      · next hb =>
        rw [hb]
        exact ⟨[], ws, more, .nil true frame, hws, rfl, closes_of_skipAfter fuel h⟩
      · split at h
        · cases h
        · next hvalue =>
          obtain ⟨after, hfronts, hcloses⟩ := fronts_of_skipNext fuel h
          -- the inside was still open behind its first value
          cases hcloses with
          | cons hpart hws' outer =>
            obtain ⟨whole, hwhole, heq⟩ := StandsPart.cons (.first hws) hvalue hfronts rfl hpart
            exact ⟨whole, _, _, hwhole, hws', heq, outer⟩

/-- What is passed over behind a value closes all that is open. -/
theorem closes_of_skipAfter : ∀ (fuel : Nat) {frames : List Frame} {bytes rest : List UInt8},
    skipAfter fuel frames bytes = .ok rest → Closes frames bytes rest
  | 0, [], bytes, rest, h => by
    rw [skipAfter] at h
    cases h
    exact .nil
  | 0, _ :: _, _, _, h => by cases h
  | fuel + 1, [], bytes, rest, h => by
    rw [skipAfter] at h
    cases h
    exact .nil
  | fuel + 1, frame :: frames, bytes, rest, h => by
    rw [skipAfter] at h
    split at h
    · cases h
    · next b more hmore =>
      obtain ⟨ws, hws, rfl⟩ := exists_blanks_of_skipBlanks hmore
      split at h
      · next hb =>
        rw [hb]
        exact Closes.cons (.nil false frame) hws (closes_of_skipAfter fuel h)
      split at h
      · next hcomma =>
        split at h
        · cases h
        · next hvalue =>
          obtain ⟨after, hfronts, hcloses⟩ := fronts_of_skipNext fuel h
          cases hcloses with
          | cons hpart hws' outer =>
            obtain ⟨whole, hwhole, heq⟩ :=
              StandsPart.cons (.later hws blanks_nil) hvalue hfronts rfl hpart
            rw [hcomma]
            simp only [List.append_assoc, List.cons_append, List.nil_append] at heq
            rw [heq]
            exact .cons hwhole hws' outer
      · cases h

end

/-- **What is passed over is a value.** -/
theorem fronts_of_skipValue {size : Nat} (h : skipValue size bytes = .ok rest) :
    Fronts (skipBlanks bytes) rest := by
  obtain ⟨after, hfronts, hcloses⟩ := fronts_of_skipNext _ h
  cases hcloses
  exact hfronts

end PullGate.Json
