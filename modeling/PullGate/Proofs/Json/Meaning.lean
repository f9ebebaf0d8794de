import PullGate.Proofs.Json.Raw
import PullGate.Proofs.Json.Reading
/-!
# What values mean

The element that a value means to a shape, if it means one, told from the tree of its text alone.
Reading a text by a shape comes to what its tree means, and to nothing if it means nothing
(`Shape.toOption_ofBytes`), whatever else stands in the text.
-/

namespace PullGate.Json

open PullGate.Decimal (isDigit readUpTo skipDigits)

/-! ## Texts -/

/-- The text that the bytes between marks stand for. -/
def text? (chars : List UInt8) : Option String := (readText (chars ++ [0x22])).toOption.map (·.1)

section

variable {chars : List UInt8} (rest read : List UInt8)

/-- A text ends at its closing mark. -/
theorem readBytes_end : readBytes (0x22 :: rest) read = .ok (read.reverse, rest) := by
  rw [readBytes.eq_def]
  simp

/-- A plain byte stands for itself. -/
theorem readBytes_cons {b : UInt8} (h : isPlain b = true) :
    readBytes (b :: rest) read = readBytes rest (b :: read) := by
  obtain ⟨hmark, hback, hcontrol⟩ := isPlain_iff.1 h
  rw [readBytes.eq_def]
  simp only [hmark, hback, hcontrol, if_false]

/-- A short escape stands for its byte. -/
theorem readBytes_short {e c : UInt8} (h : escaped? e = some c) :
    readBytes (0x5c :: e :: rest) read = readBytes rest (c :: read) := by
  rw [readBytes.eq_def]
  simp only [show ¬ (0x5c : UInt8) = 0x22 by decide, h, if_false, if_true]

/-- An escape in digits stands for its character, if it is no half of a pair. -/
theorem readBytes_hex {a b c d : UInt8} {n : Nat} (h : hexValue? a b c d = some n)
    (hleading : isLeading n = false) (htrailing : isTrailing n = false) :
    readBytes (0x5c :: 0x75 :: a :: b :: c :: d :: rest) read = readBytes rest (pushChar n read) := by
  rw [readBytes.eq_def]
  simp only [h, hleading, htrailing, show ¬ (0x5c : UInt8) = 0x22 by decide, if_false, if_true,
    show escaped? 0x75 = none by decide, Bool.false_eq_true, Bool.not_false]

/-- The second half of a pair alone is refused. -/
theorem readBytes_trailing {a b c d : UInt8} {n : Nat} (h : hexValue? a b c d = some n)
    (htrailing : isTrailing n = true) :
    (readBytes (0x5c :: 0x75 :: a :: b :: c :: d :: rest) read).toOption = none := by
  rw [readBytes.eq_def]
  simp only [h, htrailing, show ¬ (0x5c : UInt8) = 0x22 by decide, if_false, if_true,
    show escaped? 0x75 = none by decide]
  rfl

/-- The first half of a pair needs the second. -/
theorem readBytes_leading {a b c d : UInt8} {n : Nat} (h : hexValue? a b c d = some n)
    (hleading : isLeading n = true) (htrailing : isTrailing n = false)
    (hrest : ∀ a b c d more, rest ≠ 0x5c :: 0x75 :: a :: b :: c :: d :: more) :
    (readBytes (0x5c :: 0x75 :: a :: b :: c :: d :: rest) read).toOption = none := by
  rw [readBytes.eq_def]
  simp only [h, hleading, htrailing, show ¬ (0x5c : UInt8) = 0x22 by decide, if_false, if_true,
    show escaped? 0x75 = none by decide, Bool.false_eq_true, Bool.not_true]
  -- a second half would begin with these two bytes and go on with four more
  rcases rest with _ | ⟨x, rest⟩
  · rfl
  dsimp only
  split
  · rfl
  rename_i hx
  rcases rest with _ | ⟨y, rest⟩
  · rfl
  dsimp only
  split
  · rfl
  rename_i hy
  split
  · rename_i a b c d more
    rw [ne_eq, Decidable.not_not] at hx hy
    exact absurd (by rw [hx, hy]) (hrest a b c d more)
  · rfl

/-- Two halves stand for one character; the first half before anything else is refused. -/
theorem readBytes_pair {a b c d a' b' c' d' : UInt8} {n m : Nat} (h : hexValue? a b c d = some n)
    (hleading : isLeading n = true) (htrailing : isTrailing n = false)
    (h' : hexValue? a' b' c' d' = some m) :
    readBytes (0x5c :: 0x75 :: a :: b :: c :: d :: 0x5c :: 0x75 :: a' :: b' :: c' :: d' :: rest) read =
      if isTrailing m then
        readBytes rest (pushChar (0x10000 + (n - 0xd800) * 0x400 + (m - 0xdc00)) read)
      else .error (.here .loneSurrogate rest) := by
  rw [readBytes.eq_def]
  simp only [h, h', hleading, htrailing, show ¬ (0x5c : UInt8) = 0x22 by decide, if_false, if_true,
    show escaped? 0x75 = none by decide, Bool.false_eq_true, Bool.not_true, ne_eq, not_true]

end

/-- What bytes between marks come to does not hang on what follows their mark. -/
theorem StandsChars.readBytes : ∀ {chars : List UInt8}, StandsChars chars → ∀ read,
    ∃ o : Option (List UInt8), ∀ rest,
      (readBytes (chars ++ 0x22 :: rest) read).toOption = o.map fun bytes => (bytes, rest)
  | _, .nil, read => ⟨some read.reverse, fun rest => by rw [List.nil_append, readBytes_end]; rfl⟩
  | _, .plain (b := b) h more, read => by
    obtain ⟨o, ho⟩ := StandsChars.readBytes more (b :: read)
    exact ⟨o, fun rest => by rw [List.cons_append, readBytes_cons _ _ h, ho]⟩
  | _, .short h more, read => by
    obtain ⟨c, hc⟩ := Option.isSome_iff_exists.1 h
    obtain ⟨o, ho⟩ := StandsChars.readBytes more (c :: read)
    exact ⟨o, fun rest => by rw [List.cons_append, List.cons_append, readBytes_short _ _ hc, ho]⟩
  | _, .hex h more, read => by
    obtain ⟨n, hn⟩ := Option.isSome_iff_exists.1 h
    rcases htrailing : isTrailing n with _ | _
    · rcases hleading : isLeading n with _ | _
      · obtain ⟨o, ho⟩ := StandsChars.readBytes more (pushChar n read)
        exact ⟨o, fun rest => by
          simp only [List.cons_append, readBytes_hex _ _ hn hleading htrailing, ho]⟩
      · -- the second half is read with the first, so that the rest is what follows both
        cases more with
        | nil =>
          exact ⟨none, fun rest => readBytes_leading _ _ hn hleading htrailing (by simp)⟩
        | plain hb more =>
          have hback := (isPlain_iff.1 hb).2.1
          exact ⟨none, fun rest => readBytes_leading _ _ hn hleading htrailing (by simp [hback])⟩
        | @short e _ he more =>
          have hu : e ≠ 0x75 := by
            rintro rfl
            cases he
          exact ⟨none, fun rest => readBytes_leading _ _ hn hleading htrailing (by simp [hu])⟩
        | hex h' more =>
          obtain ⟨m, hm⟩ := Option.isSome_iff_exists.1 h'
          simp only [List.cons_append, readBytes_pair _ _ hn hleading htrailing hm]
          split
          · exact StandsChars.readBytes more _
          · exact ⟨none, fun rest => rfl⟩
    · exact ⟨none, fun rest => readBytes_trailing _ _ hn htrailing⟩

/-- Characters are read as the text that they stand for, or not at all. -/
theorem StandsChars.readText {chars : List UInt8} (h : StandsChars chars) (rest : List UInt8) :
    (readText (chars ++ 0x22 :: rest)).toOption = (text? chars).map fun s => (s, rest) := by
  obtain ⟨o, ho⟩ := h.readBytes []
  have htext (rest : List UInt8) : (Json.readText (chars ++ 0x22 :: rest)).toOption =
      (o.bind Text.Utf8.decode?).map fun cs => (String.ofList cs, rest) := by
    have hbytes := ho rest
    rw [Json.readText]
    rcases hread : Json.readBytes (chars ++ 0x22 :: rest) [] with f | ⟨bytes, tail⟩ <;>
      rw [hread] at hbytes
    · rcases o with _ | bytes
      · rfl
      · cases hbytes
    · rcases o with _ | bytes'
      · cases hbytes
      · cases hbytes
        dsimp only [Option.bind_some]
        cases Text.Utf8.decode? bytes <;> rfl
  rw [htext, text?, htext, Option.map_map, Option.map_map]
  rfl

/-- Every spelling of a text, whatever of it is escaped, stands for the text. -/
theorem SpellsChars.text? {bytes : List UInt8} {s : String} (h : SpellsChars bytes s.toList) :
    text? bytes = some s := by
  rw [Json.text?, h.readText]
  rfl

/-! ## Numbers -/

/-- The number without a sign that bytes stand for. -/
def natural? (bytes : List UInt8) : Option UInt64 :=
  match readNumber true bytes with
  | .ok (.natural n, []) => some n
  | _ => none

section

variable {positive : Bool} {n : UInt64} {rest : List UInt8}

/-- What is made of a fraction or an exponent is a float. -/
theorem makeFloat_ne {significand : Nat} {power : Int} {bytes : List UInt8} :
    makeFloat positive significand power bytes ≠ .ok (.natural n, rest) := by
  intro h
  unfold makeFloat at h
  dsimp only at h
  repeat' split at h
  all_goals cases h

/-- Nothing with an exponent is a natural number. -/
theorem readExponent_ne {significand : Nat} {power : Int} {bytes : List UInt8} :
    readExponent positive significand power bytes ≠ .ok (.natural n, rest) := by
  intro h
  unfold readExponent readExponentDigits at h
  split at h
  · cases h
  split at h
  · cases h
  dsimp only at h
  split at h
  · split at h
    · split at h <;> cases h
    · exact makeFloat_ne h
  · exact makeFloat_ne h

/-- Nothing behind a fraction is a natural number. -/
theorem afterFraction_ne {significand : Nat} {power : Int} {bytes : List UInt8} :
    afterFraction positive significand power bytes ≠ .ok (.natural n, rest) := by
  intro h
  unfold afterFraction at h
  split at h
  · split at h
    · exact readExponent_ne h
    · exact makeFloat_ne h
  · exact makeFloat_ne h

/-- Nothing with a fraction is a natural number. -/
theorem readFraction_ne {significand : Nat} {power : Int} {bytes : List UInt8} :
    readFraction positive significand power bytes ≠ .ok (.natural n, rest) := by
  intro h
  unfold readFraction at h
  split at h
  · cases h
  split at h
  · cases h
  · exact afterFraction_ne h

/-- Nothing with more digits than 64 bits hold is a natural number. -/
theorem afterMoreDigits_ne {m : Nat} {bytes : List UInt8} :
    afterMoreDigits positive m bytes ≠ .ok (.natural n, rest) := by
  intro h
  unfold afterMoreDigits at h
  dsimp only at h
  split at h
  · split at h
    · exact readFraction_ne h
    · exact afterFraction_ne h
  · exact afterFraction_ne h

/-- Only digits alone come to a number without a sign. -/
theorem eq_of_afterDigits {m : Nat} {bytes : List UInt8}
    (h : afterDigits positive m bytes = .ok (.natural n, rest)) :
    rest = bytes ∧ wholeNumber positive m = .natural n := by
  unfold afterDigits at h
  split at h
  · split at h
    · exact absurd h readFraction_ne
    split at h
    · exact absurd h readExponent_ne
    · simp only [Except.ok.injEq, Prod.mk.injEq] at h
      exact ⟨h.2.symm, h.1⟩
  · simp only [Except.ok.injEq, Prod.mk.injEq] at h
    exact ⟨h.2.symm, h.1⟩

/-- A natural number ends with the digits that 64 bits hold. -/
theorem eq_of_afterCounted {m : Nat} {bytes : List UInt8}
    (h : afterCounted positive m bytes = .ok (.natural n, rest)) :
    rest = bytes ∧ wholeNumber positive m = .natural n := by
  unfold afterCounted at h
  split at h
  · split at h
    · exact eq_of_afterDigits h
    · exact absurd h afterMoreDigits_ne
  · exact eq_of_afterDigits h

/-- Digits that are read up to a limit are a front of the bytes, and read alike by themselves. -/
theorem readUpTo_split (limit m : Nat) (bytes : List UInt8) :
    ∃ front, bytes = front ++ (readUpTo limit m bytes).2 ∧
      readUpTo limit m front = ((readUpTo limit m bytes).1, []) := by
  induction bytes generalizing m with
  | nil => exact ⟨[], rfl, rfl⟩
  | cons b bytes ih =>
    by_cases h : (isDigit b && m * 10 + Decimal.digitValue b ≤ limit) = true
    · obtain ⟨front, hfront, hread⟩ := ih (m * 10 + Decimal.digitValue b)
      refine ⟨b :: front, ?_, ?_⟩
      · rw [readUpTo, if_pos h, List.cons_append, ← hfront]
      · rw [readUpTo, readUpTo, if_pos h, if_pos h, hread]
    · exact ⟨[], by rw [readUpTo, if_neg h]; rfl, by rw [readUpTo, readUpTo, if_neg h]⟩

/-- A whole number that is natural is positive. -/
theorem positive_of_wholeNumber {m : Nat} (h : wholeNumber positive m = .natural n) :
    positive = true := by
  unfold wholeNumber at h
  split at h
  · assumption
  · split at h <;> cases h

/-- Digits that are read as a number without a sign have none, and are read so alone. -/
theorem exists_front_of_readNumber {bytes : List UInt8}
    (h : readNumber positive bytes = .ok (.natural n, rest)) :
    positive = true ∧
      ∃ front, bytes = front ++ rest ∧ readNumber positive front = .ok (.natural n, []) := by
  rcases bytes with _ | ⟨b, bytes⟩
  · cases h
  by_cases hzero : b = 0x30
  -- behind a zero in front there is no other digit, so the number is this zero
  · have hafter : afterDigits positive 0 bytes = .ok (.natural n, rest) := by
      simp only [readNumber, if_pos hzero] at h
      split at h
      · split at h
        · cases h
        · exact h
      · exact h
    obtain ⟨rfl, hnumber⟩ := eq_of_afterDigits hafter
    refine ⟨positive_of_wholeNumber hnumber, [b], rfl, ?_⟩
    simp only [readNumber, if_pos hzero, afterDigits, hnumber]
  · have hdigit := isDigit_of_readNumber hzero h
    rw [readNumber_cons hzero hdigit] at h
    obtain ⟨rfl, hnumber⟩ := eq_of_afterCounted h
    -- the digits that were read are the front, and what follows them is not looked at
    obtain ⟨front, hfront, hread⟩ := readUpTo_split greatestNatural (Decimal.digitValue b) bytes
    refine ⟨positive_of_wholeNumber hnumber, b :: front, by rw [List.cons_append, ← hfront], ?_⟩
    rw [readNumber_cons hzero hdigit, hread]
    simp only [afterCounted, afterDigits, hnumber]

end

/-- Bytes are a natural number if all of them are read as one. -/
theorem natural?_eq_some_iff {bytes : List UInt8} {n : UInt64} :
    natural? bytes = some n ↔ readNumber true bytes = .ok (.natural n, []) := by
  rw [natural?]
  constructor
  · intro h
    split at h
    · cases h
      assumption
    · cases h
  · intro h
    rw [h]

/-- What a number comes to does not hang on what follows. -/
theorem StandsNumber.readNatural {bytes ws rest : List UInt8} (h : StandsNumber bytes) (noun : String)
    (hws : Blanks ws) (hrest : Closed rest) :
    (readNatural noun (ws ++ (bytes ++ rest))).toOption = (natural? bytes).map fun n => (n, rest) := by
  cases h with
  | @negative bytes h =>
    -- what has a sign is none, be it zero
    have hnone : natural? (0x2d :: bytes) = none := rfl
    rw [hnone, Option.map_none, Json.readNatural, readNumberValue, List.cons_append,
      skipBlanks_append_cons hws (by decide)]
    simp only [if_true]
    rcases hread : readNumber false (bytes ++ rest) with f | ⟨n | n | f, tail⟩
    · rfl
    · exact absurd (exists_front_of_readNumber hread).1 Bool.false_ne_true
    · rfl
    · rfl
  | positive h =>
    obtain ⟨b, more, rfl, hb⟩ := h.exists_cons
    have hnone (hother : ∀ n, readNumber true (b :: more ++ rest) ≠ .ok (.natural n, rest)) :
        natural? (b :: more) = none :=
      Option.eq_none_iff_forall_ne_some.2 fun n hn =>
        hother n (readNumber_append hrest (natural?_eq_some_iff.1 hn))
    rw [Json.readNatural, readNumberValue, List.cons_append,
      skipBlanks_append_cons hws (not_blank_of_kindOf? (kindOf?_of_isDigit hb))]
    simp only [ne_of_isDigit hb (c := 0x2d) (by decide), hb, if_true, if_false]
    rw [← List.cons_append]
    rcases hread : readNumber true (b :: more ++ rest) with f | ⟨n | n | f, tail⟩
    · rw [hnone fun n h => by rw [hread] at h; cases h]
      rfl
    · have hskip := skipNumber_of_readNumber hread
      rw [h.skipNumber hrest] at hskip
      obtain rfl := Except.ok.inj hskip
      obtain ⟨-, front, hfront, halone⟩ := exists_front_of_readNumber hread
      obtain rfl := List.append_cancel_right hfront
      rw [natural?_eq_some_iff.2 halone]
      rfl
    · rw [hnone fun n h => by rw [hread] at h; cases h]
      rfl
    · rw [hnone fun n h => by rw [hread] at h; cases h]
      rfl

/-! ## Items and members -/

section

variable {α σ : Type}

/-- What items mean, if each of them means something. -/
def meanItems? (mean : Raw → Option α) : List Raw → Option (List α)
  | [] => some []
  | t :: items => (mean t).bind fun a => (meanItems? mean items).map fun as => a :: as

/-- The state after all members, if each can be put into it. -/
def putMembers? (put : String → Raw → σ → Option σ) : List (List UInt8 × Raw) → σ → Option σ
  | [], state => some state
  | (key, t) :: members, state =>
    ((text? key).bind fun name => put name t state).bind (putMembers? put members)

/-- A reading that comes to this fails where there is nothing, and else stops at the rest. -/
theorem cases_of_toOption {r : Result α} {o : Option α} {rest : List UInt8}
    (h : r.toOption = o.map fun a => (a, rest)) :
    (∃ f, r = .error f ∧ o = none) ∨ ∃ a, r = .ok (a, rest) ∧ o = some a := by
  rcases r with f | ⟨a, left⟩ <;> rcases o with _ | b <;> cases h
  · exact .inl ⟨f, rfl, rfl⟩
  · exact .inr ⟨a, rfl, rfl⟩

/-- The bytes of the value come to this, whatever stands around them. -/
def Means (size : Nat) (read : List UInt8 → Result α) (t : Raw) (o : Option α) : Prop :=
  ∀ ws bytes rest : List UInt8, Blanks ws → Stands bytes t → bytes.length ≤ size → Closed rest →
    (read (ws ++ (bytes ++ rest))).toOption = o.map fun a => (a, rest)

/-- The bytes of the value come to this from the colon before them on. -/
def MeansMember (size : Nat) (read : List UInt8 → Result σ) (t : Raw) (o : Option σ) : Prop :=
  ∀ colon bytes rest : List UInt8, Colon colon → Stands bytes t → bytes.length ≤ size →
    Closed rest → (read (colon ++ (bytes ++ rest))).toOption = o.map fun s => (s, rest)

/-- Behind a gap the next item is found where it begins. -/
theorem nextItem_stands {first : Bool} {gap bytes : List UInt8} {t : Raw} (hgap : Gap first gap)
    (h : Stands bytes t) (rest : List UInt8) :
    nextItem first (gap ++ (bytes ++ rest)) = .ok (some (bytes ++ rest)) := by
  obtain ⟨b, more, rfl, hb⟩ := h.exists_cons
  have hblank := not_blank_of_kindOf? hb
  have hend : b ≠ 0x5d := ne_of_kindOf? hb (by simp [kindOf?, isDigit])
  cases hgap with
  | first blanks => simp [nextItem, skipBlanks_append_cons blanks hblank, hend]
  | later blanks blanks' =>
    have hcomma : isBlank 0x2c = false := by decide
    simp [nextItem, skipBlanks_append_cons blanks hcomma, skipBlanks_append_cons blanks' hblank, hend]

/-- Behind a gap the next key is found, and behind it the colon. -/
theorem nextKey_stands {first : Bool} {gap keyed key : List UInt8} (hgap : Gap first gap)
    (hkey : StandsKey keyed key) : ∃ colon, Colon colon ∧ StandsChars key ∧ ∀ rest,
      nextKey first (gap ++ (keyed ++ rest)) = .ok (some (key ++ 0x22 :: (colon ++ rest))) := by
  cases hkey with
  | @mk _ ws ws' chars blanks blanks' =>
    refine ⟨_, .mk blanks blanks', chars, fun rest => ?_⟩
    have hmark : isBlank 0x22 = false := by decide
    cases hgap with
    | first blanks => simp [nextKey, skipBlanks_append_cons blanks hmark]
    | later blanks blanks' =>
      have hcomma : isBlank 0x2c = false := by decide
      simp [nextKey, skipBlanks_append_cons blanks hcomma, skipBlanks_append_cons blanks' hmark]

/-- A list has no more items than bytes. -/
theorem StandsItems.length_le {first : Bool} {bytes : List UInt8} {items : List Raw}
    (h : StandsItems first bytes items) : items.length ≤ bytes.length := by
  induction items generalizing first bytes with
  | nil => exact Nat.zero_le _
  | cons t items ih =>
    cases h with
    | cons hgap item later =>
      have hlater := ih later
      have hitem := item.length_pos
      simp only [List.length_cons, List.length_append]
      omega

/-- An object has no more members than bytes. -/
theorem StandsMembers.length_le {first : Bool} {bytes : List UInt8}
    {members : List (List UInt8 × Raw)} (h : StandsMembers first bytes members) :
    members.length ≤ bytes.length := by
  induction members generalizing first bytes with
  | nil => exact Nat.zero_le _
  | cons m members ih =>
    cases h with
    | cons hgap hkey value later =>
      have hlater := ih later
      have hvalue := value.length_pos
      simp only [List.length_cons, List.length_append]
      omega

/-- Reading items comes to what they mean. -/
theorem readItems_stands {mean : Raw → Option α} {item : List UInt8 → Result α} (size : Nat)
    (hitem : ∀ t, Means size item t (mean t)) (fuel index : Nat) (read : List α) {items : List Raw}
    {bytes tail rest : List UInt8} (h : StandsItems (index == 0) bytes items)
    (hsize : bytes.length ≤ size) (hfuel : items.length < fuel)
    (htail : skipBlanks tail = 0x5d :: rest) :
    (readItems item fuel index read (bytes ++ tail)).toOption =
      (meanItems? mean items).map fun as => (read.reverse ++ as, tail) := by
  induction items generalizing fuel index read bytes with
  | nil =>
    cases h
    obtain ⟨fuel, rfl⟩ := Nat.exists_eq_succ_of_ne_zero (Nat.ne_of_gt hfuel)
    simp [readItems, nextItem_end htail, meanItems?, Except.toOption]
  | cons t items ih =>
    cases h with
    | @cons _ gap spelled more _ _ hgap ht later =>
      obtain ⟨fuel, rfl⟩ := Nat.exists_eq_succ_of_ne_zero (Nat.ne_of_gt (Nat.zero_lt_of_lt hfuel))
      simp only [List.length_append, List.length_cons] at hsize hfuel
      -- what follows the item is a comma or the end of the list
      have hread := hitem t [] _ _ blanks_nil ht (by omega)
        (later.closed (closed_of_skipBlanks htail (by decide)))
      rw [List.nil_append] at hread
      simp only [List.append_assoc, readItems, nextItem_stands hgap ht, meanItems?]
      rcases cases_of_toOption hread with ⟨f, hitem, hmean⟩ | ⟨a, hitem, hmean⟩ <;>
        simp only [hitem, hmean]
      · rfl
      · rw [ih fuel (index + 1) (a :: read) later (by omega) (by omega), Option.bind_some,
          Option.map_map]
        simp only [Function.comp_def, List.reverse_cons, List.append_assoc, List.singleton_append]

/-- A value means the same as a member. -/
theorem Means.memberValue {size : Nat} {read : List UInt8 → Result α} {t : Raw} {o : Option α}
    (h : Means size read t o) (key : String) : MeansMember size (memberValue key read) t o := by
  intro colon bytes rest hcolon hstands hsize hrest
  obtain ⟨ws, hws, hread⟩ := hcolon.readColon
  rw [← h ws bytes rest hws hstands hsize hrest]
  simp only [Json.memberValue, hread]
  cases read (ws ++ (bytes ++ rest)) <;> rfl

/-- A member that is passed over changes nothing. -/
theorem meansMember_skipMember (fuel : Nat) (key : String) (t : Raw) (state : σ) :
    MeansMember fuel (fun bytes => match skipMember fuel key bytes with
      | .error f => .error f
      | .ok rest => .ok (state, rest)) t (some state) := by
  intro colon bytes rest hcolon hstands hsize hrest
  obtain ⟨ws, hws, hread⟩ := hcolon.readColon
  simp only [skipMember, hread, hstands.skipValue hws hrest hsize]
  rfl

/-- Reading members comes to the state after all of them. -/
theorem readMembers_stands {put : String → Raw → σ → Option σ}
    {member : String → σ → List UInt8 → Result σ} (size : Nat)
    (hmember : ∀ name t state, MeansMember size (member name state) t (put name t state))
    (fuel : Nat) {members : List (List UInt8 × Raw)} {first : Bool} {bytes tail rest : List UInt8}
    (state : σ) (h : StandsMembers first bytes members) (hsize : bytes.length ≤ size)
    (hfuel : members.length < fuel) (htail : skipBlanks tail = 0x7d :: rest) :
    (readMembers member fuel first state (bytes ++ tail)).toOption =
      (putMembers? put members state).map fun state => (state, tail) := by
  induction members generalizing fuel first bytes state with
  | nil =>
    cases h
    obtain ⟨fuel, rfl⟩ := Nat.exists_eq_succ_of_ne_zero (Nat.ne_of_gt hfuel)
    simp [readMembers, nextKey_end htail, putMembers?, Except.toOption]
  | cons m members ih =>
    cases h with
    | @cons _ gap keyed spelled more key t _ hgap hkey ht later =>
      obtain ⟨fuel, rfl⟩ := Nat.exists_eq_succ_of_ne_zero (Nat.ne_of_gt (Nat.zero_lt_of_lt hfuel))
      simp only [List.length_append, List.length_cons] at hsize hfuel
      obtain ⟨colon, hcolon, chars, hnext⟩ := nextKey_stands hgap hkey
      have htext := chars.readText (colon ++ (spelled ++ (more ++ tail)))
      simp only [List.append_assoc, readMembers, hnext, putMembers?]
      -- a key that is no text ends the reading, and means nothing either
      rcases cases_of_toOption htext with ⟨f, hread, hname⟩ | ⟨name, hread, hname⟩ <;>
        simp only [hread, hname]
      · rfl
      have hvalue := hmember name t state colon spelled (more ++ tail) hcolon ht (by omega)
        (later.closed (closed_of_skipBlanks htail (by decide)))
      rcases cases_of_toOption hvalue with ⟨f, hstate, hput⟩ | ⟨next, hstate, hput⟩ <;>
        simp only [hstate, Option.bind_some, hput]
      · rfl
      · exact ih fuel next later (by omega) (by omega)

/-- What the reading of a list's inside comes to, with the end of the list behind it. -/
def ended (r : Result α) : Option (α × List UInt8) :=
  r.toOption.bind fun (a, left) => (endList left).toOption.map fun rest => (a, rest)

/-- A list comes to what its inside does, with the end behind it. -/
theorem toOption_insideList {depth : Nat} (hdepth : 1 < depth) (opened bytes : List UInt8)
    (body : Nat → List UInt8 → Result α) :
    (insideList depth opened bytes body).toOption = ended (body (depth - 1) bytes) := by
  rw [insideList, if_neg (Nat.not_le.2 hdepth), ended]
  rcases body (depth - 1) bytes with f | ⟨a, left⟩
  · rfl
  · dsimp only [Except.toOption, Option.bind_some]
    cases endList left <;> rfl

/-- With the end behind it, the inside comes to what it did. -/
theorem ended_of_toOption {r : Result α} {o : Option α} {tail rest : List UInt8}
    (h : r.toOption = o.map fun a => (a, tail)) (htail : skipBlanks tail = 0x5d :: rest) :
    ended r = o.map fun a => (a, rest) := by
  have hend : (endList tail).toOption = some rest := by
    simp only [endList, htail, if_true]
    rfl
  rw [ended, h]
  cases o with
  | none => rfl
  | some a => simp only [Option.map_some, Option.bind_some, hend]

theorem ended_pair {β : Type} {r : Result β} {o : Option β} {rest : List UInt8}
    (h : ended r = o.map fun b => (b, rest)) (a : α) :
    ended (match r with
      | .error f => .error f
      | .ok (b, bytes) => .ok ((a, b), bytes)) = (o.map fun b => (a, b)).map fun p => (p, rest) := by
  rcases r with f | ⟨b, left⟩
  · cases o with
    | none => rfl
    | some b => cases h
  · simp only [ended, Except.toOption, Option.bind_some] at h ⊢
    rcases hend : endList left with f | left' <;> rw [hend] at h <;> cases o <;> cases h <;> rfl

/-- An object comes to what its inside does. -/
theorem toOption_insideObject {depth : Nat} {opened bytes tail rest : List UInt8}
    {body : Nat → List UInt8 → Result α} {o : Option α} (hdepth : 1 < depth)
    (h : (body (depth - 1) bytes).toOption = o.map fun a => (a, tail))
    (htail : skipBlanks tail = 0x7d :: rest) :
    (insideObject depth opened bytes body).toOption = o.map fun a => (a, rest) := by
  rw [insideObject, if_neg (Nat.not_le.2 hdepth)]
  rcases cases_of_toOption h with ⟨f, hbody, rfl⟩ | ⟨a, hbody, rfl⟩ <;> simp only [hbody]
  · rfl
  · simp only [endObject, htail, if_true]
    rfl

end

/-! ## Shapes -/

mutual

/-- The element that a value means to a shape. It is told for the shapes that `IsPlain` allows. -/
def Shape.mean? : {α : Type} → Shape α → Raw → Option α
  | _, .text, t => match t with
    | .text chars => text? chars
    | _ => none
  | _, .flag, t => match t with
    | .flag b => some b
    | _ => none
  | _, .natural _, t => match t with
    | .number bytes => natural? bytes
    | _ => none
  | _, .optional s, t => match t with
    | .null => some none
    | other => (s.mean? other).map some
  | _, .list s, t => match t with
    | .list items => meanItems? (fun t => s.mean? t) items
    | _ => none
  | _, .record _ fields, t => match t with
    | .object members =>
      (putMembers? (fun name t slots => fields.put? name t slots) members fields.empty).bind
        fun slots => (fields.finish slots).toOption
    | .list items => fields.take? items
    | _ => none
  | _, .via make _ s, t => (s.mean? t).map make
  | _, _, _ => none

/-- The value of one member put among those that are there, unless no member has this name. -/
def Fields.put? : {α : Type} → (f : Fields α) → String → Raw → f.Slots → Option f.Slots
  | _, .nil, _, _, slots => some slots
  | _, .cons name s _ rest, key, t, slots =>
    if key = name then
      if slots.1.isSome then none else (s.mean? t).map fun a => (some a, slots.2)
    else (rest.put? key t slots.2).map fun more => (slots.1, more)

/-- The values of the members from a list, which may lack those at its end that may be left out. -/
def Fields.take? : {α : Type} → Fields α → List Raw → Option α
  | _, .nil, items => if items.isEmpty then some () else none
  | _, .cons _ _ absent rest, [] => absent.bind fun a => (rest.take? []).map fun b => (a, b)
  | _, .cons _ s _ rest, t :: items =>
    (s.mean? t).bind fun a => (rest.take? items).map fun b => (a, b)

end

mutual

/-- The shape is made of texts, flags, numbers without a sign, lists and records, with no more than so
many of the last two in one another. -/
def Shape.IsPlain : {α : Type} → Shape α → Nat → Prop
  | _, .text, _ | _, .flag, _ | _, .natural _, _ => True
  | _, .optional s, d | _, .via _ _ s, d => s.IsPlain d
  | _, .list s, d => 0 < d ∧ s.IsPlain (d - 1)
  | _, .record _ fields, d => 0 < d ∧ fields.ArePlain (d - 1)
  | _, _, _ => False

/-- The shapes of all members are so. -/
def Fields.ArePlain : {α : Type} → Fields α → Nat → Prop
  | _, .nil, _ => True
  | _, .cons _ s _ rest, d => s.IsPlain d ∧ rest.ArePlain d

end

section

variable {α : Type} {size : Nat}

/-- Texts are read as what they mean. -/
theorem means_text (size : Nat) (t : Raw) :
    Means size (readTextValue "a string") t (Shape.text.mean? t) := by
  intro ws bytes rest hws hstands _ _
  rw [readTextValue, hstands.skipBlanks hws]
  cases t with
  | text chars =>
    cases hstands with
    | text hchars =>
      simp only [List.append_assoc, List.cons_append, List.nil_append, if_true, hchars.readText,
        Shape.mean?]
  | _ =>
    obtain ⟨b, more, rfl, hb⟩ := hstands.exists_cons
    have hmark : b ≠ 0x22 := ne_of_kindOf? hb (by simp [kindOf?, isDigit, Raw.kind])
    simp only [List.cons_append, if_neg hmark]
    rfl

theorem means_flag (size : Nat) (t : Raw) : Means size readFlag t (Shape.flag.mean? t) := by
  intro ws bytes rest hws hstands _ _
  rw [readFlag, hstands.skipBlanks hws]
  cases t with
  | flag f => cases hstands <;> rfl
  | _ =>
    obtain ⟨b, more, rfl, hb⟩ := hstands.exists_cons
    have ht : b ≠ 0x74 := ne_of_kindOf? hb (by simp [kindOf?, Raw.kind])
    have hf : b ≠ 0x66 := ne_of_kindOf? hb (by simp [kindOf?, Raw.kind])
    simp only [List.cons_append, ht, hf, decide_false, Bool.or_false, Bool.false_eq_true, if_false]
    rfl

theorem means_natural (size : Nat) (noun : String) (t : Raw) :
    Means size (readNatural noun) t ((Shape.natural noun).mean? t) := by
  intro ws bytes rest hws hstands _ hrest
  cases t with
  | number spelled =>
    cases hstands with
    | number h => exact h.readNatural noun hws hrest
  | _ =>
    rw [readNatural, readNumberValue, hstands.skipBlanks hws]
    obtain ⟨b, more, rfl, hb⟩ := hstands.exists_cons
    have hminus : b ≠ 0x2d := ne_of_kindOf? hb (by simp [kindOf?, isDigit, Raw.kind])
    have hdigit : isDigit b = false :=
      Bool.eq_false_iff.2 fun h => absurd ((kindOf?_of_isDigit h).symm.trans hb) (by simp [Raw.kind])
    simp only [List.cons_append, hminus, hdigit, if_false, Bool.false_eq_true]
    rfl

theorem Means.optional {s : Shape α} {fuel depth : Nat} {t : Raw}
    (h : Means size (s.read fuel depth) t (s.mean? t)) :
    Means size ((Shape.optional s).read fuel depth) t ((Shape.optional s).mean? t) := by
  intro ws bytes rest hws hstands hsize hrest
  have hread := h ws bytes rest hws hstands hsize hrest
  simp only [Shape.read, readOptional, hstands.skipBlanks hws]
  cases t with
  | null =>
    cases hstands
    rfl
  | _ =>
    obtain ⟨b, more, rfl, hb⟩ := hstands.exists_cons
    have hnull : b ≠ 0x6e := ne_of_kindOf? hb (by simp [kindOf?, Raw.kind])
    simp only [List.cons_append, if_neg hnull, Shape.mean?] at hread ⊢
    rcases cases_of_toOption hread with ⟨f, hvalue, hmean⟩ | ⟨a, hvalue, hmean⟩ <;>
      simp only [hvalue, hmean] <;> rfl

theorem Means.list {s : Shape α} {depth : Nat} (hdepth : 1 < depth)
    (h : ∀ t, Means size (s.read size (depth - 1)) t (s.mean? t)) (t : Raw) :
    Means size ((Shape.list s).read size depth) t ((Shape.list s).mean? t) := by
  intro ws bytes rest hws hstands hsize hrest
  simp only [Shape.read, hstands.skipBlanks hws]
  cases t with
  | list items =>
    cases hstands with
    | @list bytes ws' _ hitems blanks =>
      simp only [List.length_append, List.length_cons, List.length_nil] at hsize
      have hcount := hitems.length_le
      have hend := skipBlanks_append_cons blanks (by decide : isBlank 0x5d = false) rest
      have hread := readItems_stands size h size 0 [] hitems (by omega) (by omega) hend
      simp only [List.cons_append, List.append_assoc, List.nil_append, if_true, Shape.mean?]
      exact (toOption_insideList hdepth _ _ _).trans (ended_of_toOption hread hend)
  | _ =>
    obtain ⟨b, more, rfl, hb⟩ := hstands.exists_cons
    have hopen : b ≠ 0x5b := ne_of_kindOf? hb (by simp [kindOf?, isDigit, Raw.kind])
    simp only [List.cons_append, if_neg hopen]
    rfl

theorem Means.via {β : Type} {make : β → α} {view : α → β} {s : Shape β} {fuel depth : Nat} {t : Raw}
    (h : Means size (s.read fuel depth) t (s.mean? t)) :
    Means size ((Shape.via make view s).read fuel depth) t ((Shape.via make view s).mean? t) := by
  intro ws bytes rest hws hstands hsize hrest
  have hread := h ws bytes rest hws hstands hsize hrest
  simp only [Shape.read, Shape.mean?]
  rcases cases_of_toOption hread with ⟨f, hvalue, hmean⟩ | ⟨b, hvalue, hmean⟩ <;>
    simp only [hvalue, hmean] <;> rfl

/-- A record comes to what the members of its object or the items of its list come to. -/
theorem Means.record {noun : String} {fields : Fields α} {depth : Nat} (hdepth : 1 < depth)
    (hmember : ∀ name t slots, MeansMember size (fields.readMember size (depth - 1) name slots) t
      (fields.put? name t slots))
    (hlist : ∀ {items : List Raw} {bytes tail rest : List UInt8}, StandsItems true bytes items →
      bytes.length ≤ size → skipBlanks tail = 0x5d :: rest →
      ended (fields.readList size (depth - 1) (fields.expected noun) 0 (bytes ++ tail)) =
        (fields.take? items).map fun a => (a, rest)) (t : Raw) :
    Means size ((Shape.record noun fields).read size depth) t ((Shape.record noun fields).mean? t) := by
  intro ws bytes rest hws hstands hsize hrest
  simp only [Shape.read, hstands.skipBlanks hws]
  cases t with
  | list items =>
    cases hstands with
    | @list bytes ws' _ hitems blanks =>
      simp only [List.length_append, List.length_cons, List.length_nil] at hsize
      have hend := skipBlanks_append_cons blanks (by decide : isBlank 0x5d = false) rest
      simp only [List.cons_append, List.append_assoc, List.nil_append, if_true, Shape.mean?]
      -- the end of the list is looked for outside the members, so that items too many fail there
      exact (toOption_insideList hdepth _ _ _).trans (hlist hitems (by omega) hend)
  | object members =>
    cases hstands with
    | @object bytes ws' _ hmembers blanks =>
      simp only [List.length_append, List.length_cons, List.length_nil] at hsize
      have hcount := hmembers.length_le
      have hend := skipBlanks_append_cons blanks (by decide : isBlank 0x7d = false) rest
      have hread := readMembers_stands size hmember size fields.empty hmembers (by omega) (by omega)
        hend
      simp only [List.cons_append, List.append_assoc, List.nil_append, if_true, Shape.mean?,
        show ¬ (0x7b : UInt8) = 0x5b by decide, if_false]
      refine toOption_insideObject hdepth ?_ hend
      rcases cases_of_toOption hread with ⟨f, hall, hslots⟩ | ⟨slots, hall, hslots⟩ <;>
        simp only [hall, hslots]
      · rfl
      · rw [Option.bind_some]
        cases fields.finish slots <;> rfl
  | _ =>
    obtain ⟨b, more, rfl, hb⟩ := hstands.exists_cons
    have hopen : b ≠ 0x5b := ne_of_kindOf? hb (by simp [kindOf?, isDigit, Raw.kind])
    have hopen' : b ≠ 0x7b := ne_of_kindOf? hb (by simp [kindOf?, isDigit, Raw.kind])
    simp only [List.cons_append, if_neg hopen, if_neg hopen']
    rfl

end

/-- Behind the items that were looked for there must be no more. -/
theorem endList_stands {first : Bool} {gap bytes : List UInt8} {t : Raw} (hgap : Gap first gap)
    (h : Stands bytes t) (rest : List UInt8) : (endList (gap ++ (bytes ++ rest))).toOption = none := by
  obtain ⟨b, more, rfl, hb⟩ := h.exists_cons
  have hend : b ≠ 0x5d := ne_of_kindOf? hb (by simp [kindOf?, isDigit])
  have hcomma : b ≠ 0x2c := ne_of_kindOf? hb (by simp [kindOf?, isDigit])
  cases hgap with
  | first blanks =>
    simp only [endList, List.cons_append, skipBlanks_append_cons blanks (not_blank_of_kindOf? hb), hend,
      hcomma, if_false]
    rfl
  | @later ws ws' blanks blanks' =>
    simp only [endList, List.append_assoc, List.cons_append, skipBlanks_append_cons blanks
      (by decide : isBlank 0x2c = false), skipBlanks_append_cons blanks' (not_blank_of_kindOf? hb)]
    rfl

mutual

/-- **Reading comes to what is meant.** Wherever a value stands, reading it by a shape comes to what it
means to the shape, and to nothing if it means nothing. -/
theorem Shape.means (fuel : Nat) : ∀ {α : Type} (s : Shape α) {d depth : Nat}, s.IsPlain d → d < depth →
    ∀ t, Means fuel (s.read fuel depth) t (s.mean? t)
  | _, .text, _, _, _, _, t => means_text fuel t
  | _, .flag, _, _, _, _, t => means_flag fuel t
  | _, .natural noun, _, _, _, _, t => means_natural fuel noun t
  | _, .optional s, _, _, hplain, hdepth, t =>
    Means.optional (Shape.means fuel s (by simpa only [Shape.IsPlain] using hplain) hdepth t)
  | _, .list s, d, depth, hplain, hdepth, t => by
    obtain ⟨hpos, hplain⟩ : 0 < d ∧ s.IsPlain (d - 1) := by simpa only [Shape.IsPlain] using hplain
    exact Means.list (by omega) (Shape.means fuel s hplain (by omega)) t
  | _, .via make _ s, _, _, hplain, hdepth, t =>
    Means.via (Shape.means fuel s (by simpa only [Shape.IsPlain] using hplain) hdepth t)
  | _, .record noun fields, d, depth, hplain, hdepth, t => by
    obtain ⟨hpos, hplain⟩ : 0 < d ∧ fields.ArePlain (d - 1) := by
      simpa only [Shape.IsPlain] using hplain
    have hless : d - 1 < depth - 1 := by omega
    exact Means.record (by omega)
      (fun name t slots => Fields.meansMember fuel fields hplain hless name t slots)
      (fun hitems hsize htail => Fields.takes fuel fields _ 0 hplain hless hitems hsize htail) t

/-- A member is put where it is read for. -/
theorem Fields.meansMember (fuel : Nat) : ∀ {α : Type} (f : Fields α) {d depth : Nat}, f.ArePlain d →
    d < depth → ∀ (name : String) (t : Raw) (slots : f.Slots),
      MeansMember fuel (f.readMember fuel depth name slots) t (f.put? name t slots)
  | _, .nil, _, _, _, _, name, t, slots => meansMember_skipMember fuel name t slots
  | _, .cons name' s absent rest, d, depth, hplain, hdepth, name, t, slots => by
    obtain ⟨hs, hmore⟩ : s.IsPlain d ∧ rest.ArePlain d := by simpa only [Fields.ArePlain] using hplain
    intro colon bytes after hcolon hstands hsize hafter
    simp only [Fields.readMember, Fields.put?]
    by_cases hname : name = name'
    · rw [if_pos hname, if_pos hname]
      by_cases hslot : slots.1.isSome = true
      · rw [if_pos hslot, if_pos hslot]
        rfl
      · have hread := (Shape.means fuel s hs hdepth t).memberValue name colon bytes after hcolon hstands
          hsize hafter
        rw [if_neg hslot, if_neg hslot]
        rcases cases_of_toOption hread with ⟨f, hvalue, hmean⟩ | ⟨a, hvalue, hmean⟩ <;>
          simp only [hvalue, hmean] <;> rfl
    · have hread := Fields.meansMember fuel rest hmore hdepth name t slots.2 colon bytes after hcolon
        hstands hsize hafter
      rw [if_neg hname, if_neg hname]
      rcases cases_of_toOption hread with ⟨f, hvalue, hput⟩ | ⟨more, hvalue, hput⟩ <;>
        simp only [hvalue, hput] <;> rfl

/-- Reading the values of members from a list, up to the end of the list, comes to what they mean. -/
theorem Fields.takes (fuel : Nat) : ∀ {α : Type} (f : Fields α) (expected : String) (index : Nat)
    {d depth : Nat} {items : List Raw} {bytes tail rest : List UInt8}, f.ArePlain d → d < depth →
    StandsItems (index == 0) bytes items → bytes.length ≤ fuel → skipBlanks tail = 0x5d :: rest →
    ended (f.readList fuel depth expected index (bytes ++ tail)) =
      (f.take? items).map fun a => (a, rest)
  | _, .nil, expected, index, d, depth, items, bytes, tail, rest, _, _, hitems, hsize, htail => by
    cases hitems with
    | nil => exact ended_of_toOption rfl htail
    | cons hgap ht later =>
      -- where no member is left to be read, an item stands where the end of the list should be
      have hend := endList_stands hgap ht
      simp only [List.append_assoc]
      exact congrArg (Option.map _) (hend _)
  | _, .cons name s absent more, expected, index, d, depth, items, bytes, tail, rest, hplain, hdepth,
      hitems, hsize, htail => by
    obtain ⟨hs, hmore⟩ : s.IsPlain d ∧ more.ArePlain d := by simpa only [Fields.ArePlain] using hplain
    cases hitems with
    | nil =>
      have hlater := Fields.takes fuel more expected (index + 1) hmore hdepth .nil (Nat.zero_le _) htail
      simp only [List.nil_append, Fields.readList, nextItem_end htail, Fields.take?] at hlater ⊢
      rcases absent with _ | a
      · rfl
      · exact ended_pair hlater a
    | cons hgap ht later =>
      simp only [List.length_append] at hsize
      have hread := Shape.means fuel s hs hdepth _ [] _ _ blanks_nil ht (by omega)
        (later.closed (closed_of_skipBlanks htail (by decide)))
      have hlater := Fields.takes fuel more expected (index + 1) hmore hdepth later (by omega) htail
      simp only [List.append_assoc, Fields.readList, nextItem_stands hgap ht, Fields.take?,
        List.nil_append] at hread ⊢
      rcases cases_of_toOption hread with ⟨f, hvalue, hmean⟩ | ⟨a, hvalue, hmean⟩ <;>
        simp only [hvalue, hmean]
      · rfl
      · exact ended_pair hlater a

end

/-- **A text comes to what it means.** A whole text is read by a shape just if its value means an
element to the shape, and as this element. -/
theorem Shape.toOption_ofBytes {α : Type} {s : Shape α} {d : Nat} (hplain : s.IsPlain d)
    (hdepth : d < depthLimit) {bytes : List UInt8} {t : Raw} (h : StandsWholly bytes t) :
    (s.ofBytes bytes).toOption = s.mean? t := by
  obtain ⟨ws, core, ws', hws, hstands, hws', rfl⟩ := h
  have hblanks : skipBlanks ws' = [] := by
    have := skipBlanks_append hws' []
    rwa [List.append_nil] at this
  have hread := Shape.means (ws ++ (core ++ ws')).length s hplain hdepth t ws core ws' hws hstands
    (by simp only [List.length_append]; omega)
    (by have := closed_append hws' closed_nil; rwa [List.append_nil] at this)
  rw [Shape.ofBytes, wholly]
  rcases cases_of_toOption hread with ⟨f, hvalue, hmean⟩ | ⟨a, hvalue, hmean⟩ <;>
    simp only [hvalue, hmean]
  · rfl
  · simp only [readEnd, hblanks]
    rfl

end PullGate.Json
