import PullGate.Proofs.Json.Spelling
/-!
# Numbers in their places

A number is read up to the byte that ends it, so what is read of its bytes alone is read of them
wherever they stand (`readNumber_append`), and what is read can be passed over
(`skipNumber_of_readNumber`).
-/

namespace PullGate.Json

open PullGate.Decimal (isDigit readUpTo skipDigits)

/-! ## Ends of values -/

/-- Whether a byte may stand behind a value. -/
def closes (b : UInt8) : Bool := isBlank b || b = 0x2c || b = 0x5d || b = 0x7d

/-- What follows a value: nothing, or a byte that may stand there. -/
def Closed (bytes : List UInt8) : Prop := ∀ b more, bytes = b :: more → closes b = true

theorem closed_nil : Closed [] := nofun

theorem closed_cons {b : UInt8} (h : closes b = true) (more : List UInt8) : Closed (b :: more) := by
  rintro _ _ ⟨⟩
  exact h

/-- A byte that may stand behind a value does not go on with a number. -/
theorem not_in_number_of_closes {b : UInt8} (h : closes b = true) :
    isDigit b = false ∧ b ≠ 0x2e ∧ b ≠ 0x65 ∧ b ≠ 0x45 := by
  simp only [closes, isBlank, Bool.or_eq_true, decide_eq_true_eq] at h
  rcases h with (((((rfl | rfl) | rfl) | rfl) | rfl) | rfl) | rfl <;> decide

/-! ## Digits -/

/-- What follows a value begins with no digit. -/
theorem skipDigits_of_closed {rest : List UInt8} (h : Closed rest) : skipDigits rest = rest := by
  rcases rest with _ | ⟨b, more⟩
  · rfl
  · exact List.dropWhile_cons_of_neg (by simp [(not_in_number_of_closes (h b more rfl)).1])

/-- Digits are passed over alike whatever follows the number. -/
theorem skipDigits_append {bytes rest : List UInt8} (h : Closed rest) :
    skipDigits (bytes ++ rest) = skipDigits bytes ++ rest := by
  induction bytes with
  | nil => exact skipDigits_of_closed h
  | cons b bytes ih =>
    by_cases hb : isDigit b = true
    · simpa [skipDigits, hb] using ih
    · simp [skipDigits, hb]

/-- No digit is read of what follows a value. -/
theorem readUpTo_of_closed {limit n : Nat} {rest : List UInt8} (h : Closed rest) :
    readUpTo limit n rest = (n, rest) := by
  rcases rest with _ | ⟨b, more⟩
  · rfl
  · rw [readUpTo, if_neg (by simp [(not_in_number_of_closes (h b more rfl)).1])]

/-- Digits are read alike whatever follows the number. -/
theorem readUpTo_append {limit n : Nat} {bytes rest : List UInt8} (h : Closed rest) :
    readUpTo limit n (bytes ++ rest) =
      ((readUpTo limit n bytes).1, (readUpTo limit n bytes).2 ++ rest) := by
  induction bytes generalizing n with
  | nil => exact readUpTo_of_closed h
  | cons b bytes ih =>
    rw [List.cons_append, readUpTo, readUpTo]
    split
    · exact ih
    · rfl

/-- Reading digits passes over nothing but digits. -/
theorem skipDigits_readUpTo (limit n : Nat) (bytes : List UInt8) :
    skipDigits (readUpTo limit n bytes).2 = skipDigits bytes := by
  induction bytes generalizing n with
  | nil => rfl
  | cons b bytes ih =>
    rw [readUpTo]
    split
    · rename_i h
      have hb : isDigit b = true := (Bool.and_eq_true _ _ ▸ h).1
      rw [ih, skipDigits, skipDigits, List.dropWhile_cons_of_pos hb]
    · rfl

/-! ## Floats -/

/-- What a float is made of does not hang on what follows. -/
theorem makeFloat_eq {positive : Bool} {significand : Nat} {power : Int} {bytes tail : List UInt8}
    {n : Number} (h : makeFloat positive significand power bytes = .ok (n, tail)) :
    tail = bytes ∧ ∀ other, makeFloat positive significand power other = .ok (n, other) := by
  unfold makeFloat at h ⊢
  dsimp only at h ⊢
  split at h
  · rename_i hpower
    split at h
    -- which of these cases it is depends on the number alone
    · rename_i hlarge
      split at h
      · rename_i hzero
        cases h
        exact ⟨rfl, fun other => by rw [if_pos hpower, if_pos hlarge, if_pos hzero]⟩
      · cases h
    · rename_i hlarge
      split at h
      · cases h
      · rename_i hinf
        cases h
        exact ⟨rfl, fun other => by rw [if_pos hpower, if_neg hlarge, if_neg hinf]⟩
  · rename_i hpower
    cases h
    exact ⟨rfl, fun other => by rw [if_neg hpower]⟩

/-- The sign of an exponent is read alike whatever follows it. -/
theorem exponentSign_append {bytes : List UInt8} (rest : List UInt8)
    (h : (exponentSign bytes).2 ≠ []) :
    exponentSign (bytes ++ rest) = ((exponentSign bytes).1, (exponentSign bytes).2 ++ rest) := by
  rcases bytes with _ | ⟨b, bytes⟩
  · exact absurd rfl h
  · simp only [List.cons_append, exponentSign]
    split
    · rfl
    · split <;> rfl

/-- The digits of an exponent are read alike whatever follows the number. -/
theorem readExponentDigits_append {positive grows : Bool} {significand : Nat} {power : Int}
    {bytes rest : List UInt8} {n : Number} (hrest : Closed rest)
    (h : readExponentDigits positive significand power grows bytes = .ok (n, [])) :
    readExponentDigits positive significand power grows (bytes ++ rest) = .ok (n, rest) := by
  rcases bytes with _ | ⟨b, bytes⟩
  · cases h
  simp only [List.cons_append, readExponentDigits, readUpTo_append hrest] at h ⊢
  split at h
  · cases h
  · rename_i hdigit
    rw [if_neg hdigit]
    generalize readUpTo greatestExponent (Decimal.digitValue b) bytes = r at h ⊢
    obtain ⟨e, _ | ⟨d, more⟩⟩ := r
    · -- what follows is no digit, so the exponent ends here as well
      obtain ⟨-, hmake⟩ := makeFloat_eq h
      rcases rest with _ | ⟨d, more⟩
      · exact hmake _
      · dsimp only [List.nil_append]
        rw [if_neg (by simp [(not_in_number_of_closes (hrest d more rfl)).1])]
        exact hmake _
    · dsimp only [List.cons_append] at h ⊢
      split at h
      · rename_i hd
        rw [if_pos hd]
        split at h
        · cases h
        · rename_i hbeyond
          rw [if_neg hbeyond, skipDigits_append hrest]
          simp only [Except.ok.injEq, Prod.mk.injEq] at h ⊢
          exact ⟨h.1, by rw [h.2, List.nil_append]⟩
      · rename_i hd
        rw [if_neg hd]
        obtain ⟨hnil, -⟩ := makeFloat_eq h
        cases hnil

theorem readExponent_append {positive : Bool} {significand : Nat} {power : Int}
    {bytes rest : List UInt8} {n : Number} (hrest : Closed rest)
    (h : readExponent positive significand power bytes = .ok (n, [])) :
    readExponent positive significand power (bytes ++ rest) = .ok (n, rest) := by
  unfold readExponent at h ⊢
  have hdigits : (exponentSign bytes).2 ≠ [] := by
    intro hnil
    rw [hnil] at h
    cases h
  rw [exponentSign_append rest hdigits]
  exact readExponentDigits_append hrest h

theorem afterFraction_append {positive : Bool} {significand : Nat} {power : Int}
    {bytes rest : List UInt8} {n : Number} (hrest : Closed rest)
    (h : afterFraction positive significand power bytes = .ok (n, [])) :
    afterFraction positive significand power (bytes ++ rest) = .ok (n, rest) := by
  rcases bytes with _ | ⟨b, bytes⟩
  · obtain ⟨-, hmake⟩ := makeFloat_eq h
    rcases rest with _ | ⟨c, more⟩
    · exact hmake _
    · obtain ⟨-, -, he, hE⟩ := not_in_number_of_closes (hrest c more rfl)
      simp only [List.nil_append, afterFraction, he, hE, decide_false, Bool.or_false,
        Bool.false_eq_true, if_false]
      exact hmake _
  · simp only [List.cons_append, afterFraction] at h ⊢
    split at h
    · rename_i hexponent
      rw [if_pos hexponent]
      exact readExponent_append hrest h
    · obtain ⟨hnil, -⟩ := makeFloat_eq h
      cases hnil

theorem readFraction_append {positive : Bool} {significand : Nat} {power : Int}
    {bytes rest : List UInt8} {n : Number} (hrest : Closed rest)
    (h : readFraction positive significand power bytes = .ok (n, [])) :
    readFraction positive significand power (bytes ++ rest) = .ok (n, rest) := by
  rcases bytes with _ | ⟨b, bytes⟩
  · cases h
  simp only [List.cons_append, readFraction] at h ⊢
  split at h
  · cases h
  · rename_i hdigit
    rw [if_neg hdigit, ← List.cons_append, readUpTo_append hrest, skipDigits_append hrest]
    have hcounted : (b :: bytes ++ rest).length -
        ((readUpTo greatestNatural significand (b :: bytes)).2 ++ rest).length =
        (b :: bytes).length - (readUpTo greatestNatural significand (b :: bytes)).2.length := by
      simp only [List.length_append]
      omega
    dsimp only
    rw [hcounted]
    exact afterFraction_append hrest h

theorem afterDigits_append {positive : Bool} {m : Nat} {bytes rest : List UInt8} {n : Number}
    (hrest : Closed rest) (h : afterDigits positive m bytes = .ok (n, [])) :
    afterDigits positive m (bytes ++ rest) = .ok (n, rest) := by
  rcases bytes with _ | ⟨b, bytes⟩
  · cases h
    rcases rest with _ | ⟨c, more⟩
    · rfl
    -- the number ends here, and what closes it begins neither a fraction nor an exponent
    · obtain ⟨-, hpoint, he, hE⟩ := not_in_number_of_closes (hrest c more rfl)
      simp [afterDigits, hpoint, he, hE]
  · simp only [List.cons_append, afterDigits] at h ⊢
    split at h
    · rename_i hpoint
      rw [if_pos hpoint]
      exact readFraction_append hrest h
    · rename_i hpoint
      rw [if_neg hpoint]
      split at h
      · rename_i hexponent
        rw [if_pos hexponent]
        exact readExponent_append hrest h
      · cases h

/-- The rest of a number, from a digit on that 64 bits do not hold. -/
def afterMoreDigits (positive : Bool) (n : Nat) (bytes : List UInt8) : Result Number :=
  let after := skipDigits bytes
  let power := bytes.length - after.length
  match after with
  | b :: more =>
    if b = 0x2e then readFraction positive n power more else afterFraction positive n power after
  | [] => afterFraction positive n power after

/-- The rest of a number, after the digits that 64 bits hold. -/
def afterCounted (positive : Bool) (n : Nat) (bytes : List UInt8) : Result Number :=
  match bytes with
  | d :: _ => if !isDigit d then afterDigits positive n bytes else afterMoreDigits positive n bytes
  | [] => afterDigits positive n bytes

/-- A number that begins with a digit but zero goes on with the digits that 64 bits hold. -/
theorem readNumber_cons {positive : Bool} {b : UInt8} (hzero : b ≠ 0x30) (hdigit : isDigit b = true)
    (bytes : List UInt8) : readNumber positive (b :: bytes) =
      afterCounted positive (readUpTo greatestNatural (Decimal.digitValue b) bytes).1
        (readUpTo greatestNatural (Decimal.digitValue b) bytes).2 := by
  simp only [readNumber, if_neg hzero, hdigit, Bool.not_true, Bool.false_eq_true, if_false]
  rfl

/-- A number begins with a digit. -/
theorem isDigit_of_readNumber {positive : Bool} {b : UInt8} {bytes tail : List UInt8} {n : Number}
    (hzero : b ≠ 0x30) (h : readNumber positive (b :: bytes) = .ok (n, tail)) : isDigit b = true := by
  simp only [readNumber, if_neg hzero] at h
  split at h
  · cases h
  · rename_i hdigit
    simpa using hdigit

/-- Digits that 64 bits do not hold are read alike whatever follows the number. -/
theorem afterMoreDigits_append {positive : Bool} {m : Nat} {bytes rest : List UInt8} {n : Number}
    (hrest : Closed rest) (h : afterMoreDigits positive m bytes = .ok (n, [])) :
    afterMoreDigits positive m (bytes ++ rest) = .ok (n, rest) := by
  -- no digit of what follows counts as a power of ten
  have hpower : (bytes ++ rest).length - (skipDigits bytes ++ rest).length =
      bytes.length - (skipDigits bytes).length := by
    simp only [List.length_append]
    omega
  simp only [afterMoreDigits, skipDigits_append hrest, hpower] at h ⊢
  generalize skipDigits bytes = after at h ⊢
  rcases after with _ | ⟨c, after⟩
  · have hafter := afterFraction_append hrest h
    rcases rest with _ | ⟨c, rest⟩
    · exact hafter
    · dsimp only [List.nil_append] at hafter ⊢
      rwa [if_neg (not_in_number_of_closes (hrest c rest rfl)).2.1]
  · dsimp only [List.cons_append] at h ⊢
    split at h
    · rename_i hpoint
      rw [if_pos hpoint]
      exact readFraction_append hrest h
    · rename_i hpoint
      rw [if_neg hpoint]
      exact afterFraction_append hrest h

theorem afterCounted_append {positive : Bool} {m : Nat} {bytes rest : List UInt8} {n : Number}
    (hrest : Closed rest) (h : afterCounted positive m bytes = .ok (n, [])) :
    afterCounted positive m (bytes ++ rest) = .ok (n, rest) := by
  rcases bytes with _ | ⟨d, more⟩
  · simp only [afterCounted] at h
    have hafter := afterDigits_append hrest h
    rcases rest with _ | ⟨c, more⟩
    · exact hafter
    · simp only [List.nil_append, afterCounted] at hafter ⊢
      rwa [if_pos (by simp [(not_in_number_of_closes (hrest c more rfl)).1])]
  · simp only [List.cons_append, afterCounted] at h ⊢
    split at h
    · rename_i hd
      rw [if_pos hd]
      exact afterDigits_append hrest h
    · rename_i hd
      rw [if_neg hd]
      exact afterMoreDigits_append hrest h

/-- **Numbers stand for themselves.** What the bytes of a number are read as does not hang on what
follows. -/
theorem readNumber_append {positive : Bool} {bytes rest : List UInt8} {n : Number}
    (hrest : Closed rest) (h : readNumber positive bytes = .ok (n, [])) :
    readNumber positive (bytes ++ rest) = .ok (n, rest) := by
  rcases bytes with _ | ⟨b, bytes⟩
  · cases h
  by_cases hzero : b = 0x30
  · -- a zero in front has no digits after it
    simp only [List.cons_append, readNumber, if_pos hzero] at h ⊢
    rcases bytes with _ | ⟨d, more⟩
    · have hafter := afterDigits_append hrest h
      rcases rest with _ | ⟨c, more⟩
      · exact hafter
      · dsimp only [List.nil_append] at hafter ⊢
        rwa [if_neg (by simp [(not_in_number_of_closes (hrest c more rfl)).1])]
    · dsimp only [List.cons_append] at h ⊢
      split at h
      · cases h
      · rename_i hd
        rw [if_neg hd]
        exact afterDigits_append hrest h
  · have hdigit := isDigit_of_readNumber hzero h
    rw [readNumber_cons hzero hdigit] at h
    rw [List.cons_append, readNumber_cons hzero hdigit, readUpTo_append hrest]
    exact afterCounted_append hrest h

/-! ## Passing over numbers -/

/-- An exponent that is read is passed over to the same place. -/
theorem skipExponent_of_readExponent {positive : Bool} {significand : Nat} {power : Int}
    {bytes tail : List UInt8} {n : Number}
    (h : readExponent positive significand power bytes = .ok (n, tail)) :
    skipExponent bytes = .ok tail := by
  unfold readExponent readExponentDigits at h
  unfold skipExponent
  generalize exponentSign bytes = sign at h ⊢
  obtain ⟨grows, _ | ⟨b, rest⟩⟩ := sign
  · cases h
  dsimp only at h ⊢
  split at h
  · cases h
  · rename_i hdigit
    rw [if_pos (by simpa using hdigit), ← skipDigits_readUpTo greatestExponent (Decimal.digitValue b)]
    -- digits beyond the greatest exponent are passed over in both cases
    generalize readUpTo greatestExponent (Decimal.digitValue b) rest = r at h ⊢
    obtain ⟨e, _ | ⟨d, more⟩⟩ := r
    · obtain ⟨rfl, -⟩ := makeFloat_eq h
      rfl
    · dsimp only at h ⊢
      split at h
      · rename_i hd
        split at h
        · cases h
        · cases h
          rw [skipDigits, List.dropWhile_cons_of_pos hd]
          rfl
      · rename_i hd
        obtain ⟨rfl, -⟩ := makeFloat_eq h
        rw [skipDigits, List.dropWhile_cons_of_neg hd]

theorem skipOptionalExponent_of_afterFraction {positive : Bool} {significand : Nat} {power : Int}
    {bytes tail : List UInt8} {n : Number}
    (h : afterFraction positive significand power bytes = .ok (n, tail)) :
    skipOptionalExponent bytes = .ok tail := by
  rcases bytes with _ | ⟨b, bytes⟩
  · obtain ⟨rfl, -⟩ := makeFloat_eq h
    rfl
  · simp only [afterFraction] at h
    rw [skipOptionalExponent]
    split at h
    · rename_i hexponent
      rw [if_pos hexponent]
      exact skipExponent_of_readExponent h
    · rename_i hexponent
      rw [if_neg hexponent]
      obtain ⟨rfl, -⟩ := makeFloat_eq h
      rfl

/-- What is read as a fraction after a point is passed over with its point. -/
theorem skipAfterDigits_of_readFraction {positive : Bool} {significand : Nat} {power : Int}
    {bytes tail : List UInt8} {n : Number}
    (h : readFraction positive significand power bytes = .ok (n, tail)) :
    skipAfterDigits (0x2e :: bytes) = .ok tail := by
  rcases bytes with _ | ⟨b, bytes⟩
  · cases h
  simp only [readFraction] at h
  split at h
  · cases h
  · rename_i hdigit
    rw [skipDigits_readUpTo] at h
    simp only [skipAfterDigits, if_true]
    rw [if_pos (by simpa using hdigit)]
    exact skipOptionalExponent_of_afterFraction h

theorem skipAfterDigits_of_afterDigits {positive : Bool} {m : Nat} {bytes tail : List UInt8}
    {n : Number} (h : afterDigits positive m bytes = .ok (n, tail)) :
    skipAfterDigits bytes = .ok tail := by
  rcases bytes with _ | ⟨b, bytes⟩
  · cases h
    rfl
  · simp only [afterDigits] at h
    split at h
    · rename_i hpoint
      rw [hpoint]
      exact skipAfterDigits_of_readFraction h
    · rename_i hpoint
      simp only [skipAfterDigits, if_neg hpoint, skipOptionalExponent]
      split at h
      · rename_i hexponent
        rw [if_pos hexponent]
        exact skipExponent_of_readExponent h
      · rename_i hexponent
        rw [if_neg hexponent]
        cases h
        rfl

theorem skipAfterDigits_of_afterMoreDigits {positive : Bool} {m : Nat} {bytes tail : List UInt8}
    {n : Number} (h : afterMoreDigits positive m bytes = .ok (n, tail)) :
    skipAfterDigits (skipDigits bytes) = .ok tail := by
  simp only [afterMoreDigits] at h
  generalize skipDigits bytes = after at h ⊢
  rcases after with _ | ⟨c, after⟩
  · exact skipOptionalExponent_of_afterFraction h
  · dsimp only at h
    split at h
    · rename_i hpoint
      rw [hpoint]
      exact skipAfterDigits_of_readFraction h
    · rename_i hpoint
      simp only [skipAfterDigits, if_neg hpoint]
      exact skipOptionalExponent_of_afterFraction h

theorem skipAfterDigits_of_afterCounted {positive : Bool} {m : Nat} {bytes tail : List UInt8}
    {n : Number} (h : afterCounted positive m bytes = .ok (n, tail)) :
    skipAfterDigits (skipDigits bytes) = .ok tail := by
  rcases bytes with _ | ⟨d, more⟩
  · exact skipAfterDigits_of_afterDigits h
  · simp only [afterCounted] at h
    split at h
    · rename_i hd
      rw [skipDigits, List.dropWhile_cons_of_neg (by simpa using hd)]
      exact skipAfterDigits_of_afterDigits h
    · exact skipAfterDigits_of_afterMoreDigits h

/-- What is read as a number is passed over. -/
theorem skipNumber_of_readNumber {positive : Bool} {bytes tail : List UInt8} {n : Number}
    (h : readNumber positive bytes = .ok (n, tail)) : skipNumber bytes = .ok tail := by
  rcases bytes with _ | ⟨b, bytes⟩
  · cases h
  by_cases hzero : b = 0x30
  · simp only [readNumber, skipNumber, if_pos hzero] at h ⊢
    rcases bytes with _ | ⟨d, more⟩
    · cases h
      rfl
    · dsimp only at h ⊢
      split at h
      · cases h
      · rename_i hd
        rw [if_neg hd]
        exact skipAfterDigits_of_afterDigits h
  · have hdigit := isDigit_of_readNumber hzero h
    rw [readNumber_cons hzero hdigit] at h
    simp only [skipNumber, if_neg hzero, if_pos hdigit]
    -- all digits are passed over, also those that are too many for a natural number
    rw [← skipDigits_readUpTo greatestNatural (Decimal.digitValue b)]
    exact skipAfterDigits_of_afterCounted h

/-! ## Numbers as they are spelled -/

theorem toNat_byte {c : Char} (h : c.isDigit = true) :
    (byte c).toNat = c.toNat ∧ 0x30 ≤ c.toNat ∧ c.toNat ≤ 0x39 := by
  simp only [Char.isDigit, Bool.and_eq_true, decide_eq_true_eq, ge_iff_le, UInt32.le_iff_toNat_le] at h
  refine ⟨?_, h⟩
  rw [byte, UInt8.toNat_ofNat']
  exact Nat.mod_eq_of_lt (Nat.lt_of_le_of_lt h.2 (by decide))

theorem isDigit_byte {c : Char} (h : c.isDigit = true) : isDigit (byte c) = true := by
  obtain ⟨hc, hle⟩ := toNat_byte h
  simpa [isDigit, hc] using hle

/-- Further digits make a number no smaller. -/
theorem le_ofDigitChars (cs : List Char) (n : Nat) : n ≤ Nat.ofDigitChars 10 cs n := by
  induction cs generalizing n with
  | nil => simp
  | cons c cs ih =>
    rw [Nat.ofDigitChars_cons]
    exact Nat.le_trans (by omega) (ih _)

/-- Digits are read as their number if that is not too great. -/
theorem readUpTo_digits {limit : Nat} {cs : List Char} (n : Nat)
    (hcs : ∀ c ∈ cs, c.isDigit = true) (hle : Nat.ofDigitChars 10 cs n ≤ limit) :
    readUpTo limit n (cs.map byte) = (Nat.ofDigitChars 10 cs n, []) := by
  induction cs generalizing n with
  | nil => simp [readUpTo]
  | cons c cs ih =>
    have hc := hcs c List.mem_cons_self
    rw [Nat.ofDigitChars_cons, Nat.mul_comm] at hle ⊢
    rw [List.map_cons, readUpTo, Decimal.digitValue, (toNat_byte hc).1, if_pos]
    · exact ih _ (fun d hd => hcs d (List.mem_cons_of_mem _ hd)) hle
    · simp only [isDigit_byte hc, Bool.true_and, decide_eq_true_eq]
      exact Nat.le_trans (le_ofDigitChars cs _) hle

/-- Only zero begins with a zero. -/
theorem toDigits_eq_cons {n : Nat} (h : 0 < n) :
    ∃ c cs, Nat.toDigits 10 n = c :: cs ∧ c ≠ '0' := by
  induction n using Nat.strongRecOn with
  | _ n ih =>
    by_cases hn : n < 10
    · refine ⟨n.digitChar, [], Nat.toDigits_of_lt_base hn, ?_⟩
      have : ∀ m, m < 10 → 0 < m → m.digitChar ≠ '0' := by decide
      exact this n hn h
    · obtain ⟨c, cs, hdigits, hc⟩ := ih (n / 10) (by omega) (by omega)
      exact ⟨c, cs ++ [(n % 10).digitChar], by
        rw [Nat.toDigits_of_base_le (by decide) (by omega), hdigits]; rfl, hc⟩

/-- A number has a digit in front. -/
theorem digits_eq_cons (n : Nat) : ∃ b more, digits n = b :: more ∧ isDigit b = true := by
  rcases hdigits : Nat.toDigits 10 n with _ | ⟨c, cs⟩
  · exact absurd hdigits Nat.toDigits_ne_nil
  · have hc : c ∈ Nat.toDigits 10 n := by rw [hdigits]; exact List.mem_cons_self
    exact ⟨byte c, cs.map byte, by rw [digits, hdigits, List.map_cons],
      isDigit_byte (Nat.isDigit_of_mem_toDigits (by decide) (by decide) hc)⟩

/-- The digits of a number are read as the number. -/
theorem readNumber_digits (positive : Bool) {n : Nat} (h : n ≤ greatestNatural) :
    readNumber positive (digits n) = .ok (wholeNumber positive n, []) := by
  rcases Nat.eq_zero_or_pos n with rfl | hpos
  · rfl
  have hvalue : Nat.ofDigitChars 10 (Nat.toDigits 10 n) 0 = n := Nat.ofDigitChars_ten_toDigits
  have hdigit : ∀ c ∈ Nat.toDigits 10 n, c.isDigit = true :=
    fun c => Nat.isDigit_of_mem_toDigits (by decide) (by decide)
  -- the first digit is not zero, so that all digits are read as one number
  obtain ⟨c, cs, hdigits, hc⟩ := toDigits_eq_cons hpos
  rw [hdigits] at hvalue hdigit
  have hfirst := hdigit c List.mem_cons_self
  replace hvalue : Nat.ofDigitChars 10 cs (c.toNat - 0x30) = n := by
    rwa [Nat.ofDigitChars_cons, Nat.mul_zero, Nat.zero_add] at hvalue
  have hread : readUpTo greatestNatural (Decimal.digitValue (byte c)) (cs.map byte) = (n, []) := by
    rw [Decimal.digitValue, (toNat_byte hfirst).1, readUpTo_digits _ (fun d hd => hdigit d (List.mem_cons_of_mem _ hd))
      (by rwa [hvalue]), hvalue]
  have hne : byte c ≠ 0x30 := fun hzero => hc <| Char.toNat_inj.1 <| by
    rw [← (toNat_byte hfirst).1, hzero]
    rfl
  simp only [digits, hdigits, List.map_cons, readNumber, hne, if_false, isDigit_byte hfirst, hread]
  rfl

/-- A number is spelled from its sign or from a digit on, and what follows the sign is read as it. -/
theorem SpellsNumber.read {bytes : List UInt8} {n : Number} (h : SpellsNumber bytes n) :
    (∃ b more, bytes = b :: more ∧ isDigit b = true ∧ readNumber true bytes = .ok (n, [])) ∨
      ∃ more, bytes = 0x2d :: more ∧ readNumber false more = .ok (n, []) := by
  cases h with
  | natural n =>
    have hread := readNumber_digits true (Nat.le_pred_of_lt n.toNat_lt)
    obtain ⟨b, more, hdigits, hb⟩ := digits_eq_cons n.toNat
    exact .inl ⟨b, more, hdigits, hb, by rw [hread, wholeNumber, if_pos rfl, UInt64.ofNat_toNat]⟩
  | @negative n positive le =>
    have hread := readNumber_digits false (Nat.le_trans le (by decide : Nat.pow 2 63 ≤ greatestNatural))
    exact .inr ⟨_, rfl, by
      rw [hread, wholeNumber, if_neg Bool.false_ne_true, if_neg (by omega)]⟩
  | float h =>
    cases h with
    | positive digit read => exact .inl ⟨_, _, rfl, digit, read⟩
    | negative read => exact .inr ⟨_, rfl, read⟩

end PullGate.Json
