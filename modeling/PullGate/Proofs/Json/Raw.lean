import PullGate.Proofs.Json.Skipping
/-!
# Values as they stand in texts

A JSON text as a tree that keeps what is written: a number by its bytes, a text by the bytes between its
marks. Such a tree need not stand for a value: a number may be beyond all bounds, and the halves of a
pair may be apart. But every one of them is passed over (`Stands.skipValue`).
-/

namespace PullGate.Json

open PullGate.Decimal (isDigit readUpTo skipDigits)

/-- A value as it stands in a text. -/
inductive Raw where
  | null
  | flag (b : Bool)
  | number (bytes : List UInt8)
  /-- The bytes between the marks. -/
  | text (bytes : List UInt8)
  | list (items : List Raw)
  /-- The keys are the bytes between their marks. -/
  | object (members : List (List UInt8 × Raw))

/-! ## Numbers -/

/-- Decimal digits. -/
def AreDigits (bytes : List UInt8) : Prop := ∀ b ∈ bytes, isDigit b = true

instance (bytes : List UInt8) : Decidable (AreDigits bytes) :=
  decidable_of_iff (bytes.all isDigit = true) List.all_eq_true

/-- The digits before a point: a zero, or digits of which the first is none. -/
inductive StandsWhole : List UInt8 → Prop
  | zero : StandsWhole [0x30]
  | digits {b : UInt8} {bytes : List UInt8} (nonzero : b ≠ 0x30) (h : AreDigits (b :: bytes)) :
      StandsWhole (b :: bytes)

/-- A point with digits after it, or nothing. -/
inductive StandsFraction : List UInt8 → Prop
  | nil : StandsFraction []
  | digits {b : UInt8} {bytes : List UInt8} (h : AreDigits (b :: bytes)) :
      StandsFraction (0x2e :: b :: bytes)

/-- The letter of an exponent with a sign and digits after it, or nothing. -/
inductive StandsExponent : List UInt8 → Prop
  | nil : StandsExponent []
  | digits {e b : UInt8} {sign bytes : List UInt8} (letter : e = 0x65 ∨ e = 0x45)
      (hsign : sign = [] ∨ sign = [0x2b] ∨ sign = [0x2d]) (h : AreDigits (b :: bytes)) :
      StandsExponent (e :: (sign ++ b :: bytes))

/-- A number after its sign. -/
inductive StandsUnsigned : List UInt8 → Prop
  | mk {whole fraction exponent : List UInt8} (hwhole : StandsWhole whole)
      (hfraction : StandsFraction fraction) (hexponent : StandsExponent exponent) :
      StandsUnsigned (whole ++ (fraction ++ exponent))

/-- A number. -/
inductive StandsNumber : List UInt8 → Prop
  | positive {bytes : List UInt8} (h : StandsUnsigned bytes) : StandsNumber bytes
  | negative {bytes : List UInt8} (h : StandsUnsigned bytes) : StandsNumber (0x2d :: bytes)

theorem AreDigits.tail {b : UInt8} {bytes : List UInt8} (h : AreDigits (b :: bytes)) :
    AreDigits bytes := fun c hc => h c (List.mem_cons_of_mem b hc)

/-- Digits in front are passed over. -/
theorem skipDigits_append_of_areDigits {bytes : List UInt8} (h : AreDigits bytes)
    (rest : List UInt8) : skipDigits (bytes ++ rest) = skipDigits rest := by
  rw [skipDigits, List.dropWhile_append_of_pos h, skipDigits]

/-- An exponent is passed over. -/
theorem StandsExponent.skipOptionalExponent {exponent rest : List UInt8} (h : StandsExponent exponent)
    (hrest : Closed rest) : skipOptionalExponent (exponent ++ rest) = .ok rest := by
  cases h with
  | nil =>
    rcases rest with _ | ⟨b, rest⟩
    · rfl
    · obtain ⟨-, -, he, hE⟩ := not_in_number_of_closes (hrest b rest rfl)
      simp [Json.skipOptionalExponent, he, hE]
  | @digits e b sign bytes letter hsign h =>
    have hb := h b List.mem_cons_self
    have hdigits : skipDigits (bytes ++ rest) = rest := by
      rw [skipDigits_append_of_areDigits h.tail, skipDigits_of_closed hrest]
    have hsigned : (exponentSign (sign ++ b :: bytes ++ rest)).2 = b :: (bytes ++ rest) := by
      rcases hsign with rfl | rfl | rfl
      · simp [exponentSign, ne_of_isDigit hb (c := 0x2b) (by decide),
          ne_of_isDigit hb (c := 0x2d) (by decide)]
      · rfl
      · rfl
    have hletter : (decide (e = 0x65) || decide (e = 0x45)) = true := by simpa using letter
    rw [List.cons_append, Json.skipOptionalExponent, if_pos hletter, skipExponent, hsigned]
    simp only [hb, if_true, hdigits]

/-- A fraction is passed over, with the exponent behind it. -/
theorem StandsFraction.skipAfterDigits {fraction exponent rest : List UInt8}
    (h : StandsFraction fraction) (hexponent : StandsExponent exponent) (hrest : Closed rest) :
    skipAfterDigits (fraction ++ (exponent ++ rest)) = .ok rest := by
  have hskip := hexponent.skipOptionalExponent hrest
  cases h with
  | nil =>
    rw [List.nil_append]
    rcases hexponent' : exponent ++ rest with _ | ⟨b, more⟩
    · obtain rfl := (List.append_eq_nil_iff.1 hexponent').2
      rfl
    · have hpoint : b ≠ 0x2e := by
        cases hexponent with
        | nil => exact (not_in_number_of_closes (hrest b more hexponent')).2.1
        | digits letter hsign h =>
          cases hexponent'
          rcases letter with rfl | rfl <;> decide
      rw [hexponent'] at hskip
      simp only [Json.skipAfterDigits, if_neg hpoint, hskip]
  | @digits b bytes h =>
    -- an exponent and what follows a number begin with no digit
    have hdigits : skipDigits (exponent ++ rest) = exponent ++ rest := by
      cases hexponent with
      | nil => exact skipDigits_of_closed hrest
      | digits letter hsign h =>
        rcases letter with rfl | rfl <;> exact List.dropWhile_cons_of_neg (by decide)
    simp only [List.cons_append, Json.skipAfterDigits, if_true, h b List.mem_cons_self]
    rw [← List.cons_append, skipDigits_append_of_areDigits h, hdigits, hskip]

/-- A number is passed over. -/
theorem StandsUnsigned.skipNumber {bytes rest : List UInt8} (h : StandsUnsigned bytes)
    (hrest : Closed rest) : skipNumber (bytes ++ rest) = .ok rest := by
  cases h with
  | @mk whole fraction exponent hwhole hfraction hexponent =>
    have hskip := hfraction.skipAfterDigits hexponent hrest
    -- neither a point nor a letter nor the end of a number is a digit
    have hnodigit : ∀ b more, fraction ++ (exponent ++ rest) = b :: more → isDigit b = false := by
      intro b more heq
      cases hfraction with
      | digits h =>
        cases heq
        rfl
      | nil =>
        cases hexponent with
        | digits letter hsign h =>
          cases heq
          rcases letter with rfl | rfl <;> rfl
        | nil => exact (not_in_number_of_closes (hrest b more heq)).1
    simp only [List.append_assoc]
    generalize fraction ++ (exponent ++ rest) = after at hskip hnodigit
    cases hwhole with
    | zero =>
      rcases after with _ | ⟨b, more⟩
      · exact hskip
      · simp [Json.skipNumber, hnodigit b more rfl, hskip]
    | @digits b bytes nonzero h =>
      have hdigits : skipDigits after = after := by
        rcases after with _ | ⟨c, more⟩
        · rfl
        · exact List.dropWhile_cons_of_neg (by simp [hnodigit c more rfl])
      simp only [List.cons_append, Json.skipNumber, if_neg nonzero, h b List.mem_cons_self, if_true,
        skipDigits_append_of_areDigits h.tail, hdigits, hskip]

/-! ## Texts -/

/-- Bytes between marks: bytes that stand for themselves, and escapes. -/
inductive StandsChars : List UInt8 → Prop
  | nil : StandsChars []
  | plain {b : UInt8} {bytes : List UInt8} (h : isPlain b = true) (more : StandsChars bytes) :
      StandsChars (b :: bytes)
  /-- A backslash and one byte. -/
  | short {e : UInt8} {bytes : List UInt8} (h : (escaped? e).isSome = true)
      (more : StandsChars bytes) : StandsChars (0x5c :: e :: bytes)
  /-- Four hexadecimal digits. -/
  | hex {a b c d : UInt8} {bytes : List UInt8} (h : (hexValue? a b c d).isSome = true)
      (more : StandsChars bytes) : StandsChars (0x5c :: 0x75 :: a :: b :: c :: d :: bytes)

/-- The characters of a text are passed over up to the mark. -/
theorem StandsChars.skipText {bytes : List UInt8} (h : StandsChars bytes) (rest : List UInt8) :
    skipText (bytes ++ 0x22 :: rest) = .ok rest := by
  induction h with
  | nil => exact skipText_mark rest
  | @plain b bytes h more ih =>
    obtain ⟨hmark, hback, hcontrol⟩ := isPlain_iff.1 h
    rw [List.cons_append, skipText_cons hmark hback hcontrol, ih]
  | short h more ih => rw [List.cons_append, List.cons_append, skipText_short h, ih]
  | hex h more ih =>
    simp only [List.cons_append]
    rw [skipText_hex h, ih]

/-- A key with the colon after it, from the opening mark on. -/
inductive StandsKey : List UInt8 → List UInt8 → Prop
  | mk {key ws ws' : List UInt8} (chars : StandsChars key) (blanks : Blanks ws)
      (blanks' : Blanks ws') : StandsKey (0x22 :: key ++ 0x22 :: ws ++ 0x3a :: ws') key

mutual

/-- The bytes are the value, without blanks in front or behind. -/
inductive Stands : List UInt8 → Raw → Prop
  | null : Stands [0x6e, 0x75, 0x6c, 0x6c] .null
  | yes : Stands [0x74, 0x72, 0x75, 0x65] (.flag true)
  | no : Stands [0x66, 0x61, 0x6c, 0x73, 0x65] (.flag false)
  | number {bytes : List UInt8} (h : StandsNumber bytes) : Stands bytes (.number bytes)
  | text {bytes : List UInt8} (chars : StandsChars bytes) :
      Stands (0x22 :: bytes ++ [0x22]) (.text bytes)
  | list {bytes ws : List UInt8} {items : List Raw} (h : StandsItems true bytes items)
      (blanks : Blanks ws) : Stands (0x5b :: bytes ++ ws ++ [0x5d]) (.list items)
  | object {bytes ws : List UInt8} {members : List (List UInt8 × Raw)}
      (h : StandsMembers true bytes members) (blanks : Blanks ws) :
      Stands (0x7b :: bytes ++ ws ++ [0x7d]) (.object members)

/-- The bytes are items of a list, from the first on or from a later one. -/
inductive StandsItems : Bool → List UInt8 → List Raw → Prop
  | nil {first : Bool} : StandsItems first [] []
  | cons {first : Bool} {gap bytes more : List UInt8} {t : Raw} {items : List Raw}
      (hgap : Gap first gap) (item : Stands bytes t) (rest : StandsItems false more items) :
      StandsItems first (gap ++ bytes ++ more) (t :: items)

/-- The bytes are members of an object, from the first on or from a later one. -/
inductive StandsMembers : Bool → List UInt8 → List (List UInt8 × Raw) → Prop
  | nil {first : Bool} : StandsMembers first [] []
  | cons {first : Bool} {gap keyed bytes more key : List UInt8} {t : Raw}
      {members : List (List UInt8 × Raw)} (hgap : Gap first gap) (hkey : StandsKey keyed key)
      (value : Stands bytes t) (rest : StandsMembers false more members) :
      StandsMembers first (gap ++ keyed ++ bytes ++ more) ((key, t) :: members)

end

/-- The bytes are a whole JSON text of the value, with blanks around it or without. -/
def StandsWholly (bytes : List UInt8) (t : Raw) : Prop :=
  ∃ ws core ws', Blanks ws ∧ Stands core t ∧ Blanks ws' ∧ bytes = ws ++ (core ++ ws')

/-! ## Writing -/

/-- What is written before an item or a member. -/
def gapBytes : Bool → List UInt8
  | true => []
  | false => [0x2c]

mutual

/-- The value written without blanks. -/
def Raw.bytes : Raw → List UInt8
  | .null => [0x6e, 0x75, 0x6c, 0x6c]
  | .flag true => [0x74, 0x72, 0x75, 0x65]
  | .flag false => [0x66, 0x61, 0x6c, 0x73, 0x65]
  | .number bytes => bytes
  | .text chars => 0x22 :: chars ++ [0x22]
  | .list items => 0x5b :: Raw.itemsBytes true items ++ [] ++ [0x5d]
  | .object members => 0x7b :: Raw.membersBytes true members ++ [] ++ [0x7d]

def Raw.itemsBytes : Bool → List Raw → List UInt8
  | _, [] => []
  | first, t :: items => gapBytes first ++ t.bytes ++ Raw.itemsBytes false items

def Raw.membersBytes : Bool → List (List UInt8 × Raw) → List UInt8
  | _, [] => []
  | first, (key, t) :: members =>
    gapBytes first ++ (0x22 :: key ++ 0x22 :: [] ++ 0x3a :: []) ++ t.bytes ++
      Raw.membersBytes false members

end

mutual

/-- The bytes that the value keeps are those of numbers and texts. -/
def Raw.IsSpelled : Raw → Prop
  | .null | .flag _ => True
  | .number bytes => StandsNumber bytes
  | .text chars => StandsChars chars
  | .list items => Raw.ItemsAreSpelled items
  | .object members => Raw.MembersAreSpelled members

def Raw.ItemsAreSpelled : List Raw → Prop
  | [] => True
  | t :: items => t.IsSpelled ∧ Raw.ItemsAreSpelled items

def Raw.MembersAreSpelled : List (List UInt8 × Raw) → Prop
  | [] => True
  | (key, t) :: members => StandsChars key ∧ t.IsSpelled ∧ Raw.MembersAreSpelled members

end

theorem gap_gapBytes : ∀ first : Bool, Gap first (gapBytes first)
  | true => .first blanks_nil
  | false => .later blanks_nil blanks_nil

mutual

/-- Every value has a text. -/
theorem Raw.stands_bytes : ∀ {t : Raw}, t.IsSpelled → Stands t.bytes t
  | .null, _ => .null
  | .flag true, _ => .yes
  | .flag false, _ => .no
  | .number _, h => .number h
  | .text _, h => .text h
  | .list _, h => .list (Raw.standsItems_bytes true h) blanks_nil
  | .object _, h => .object (Raw.standsMembers_bytes true h) blanks_nil

/-- The bytes that are written for items stand for them. -/
theorem Raw.standsItems_bytes : ∀ (first : Bool) {items : List Raw}, Raw.ItemsAreSpelled items →
    StandsItems first (Raw.itemsBytes first items) items
  | _, [], _ => .nil
  | first, _ :: _, h =>
    .cons (gap_gapBytes first) (Raw.stands_bytes h.1) (Raw.standsItems_bytes false h.2)

/-- The bytes that are written for members stand for them. -/
theorem Raw.standsMembers_bytes : ∀ (first : Bool) {members : List (List UInt8 × Raw)},
    Raw.MembersAreSpelled members → StandsMembers first (Raw.membersBytes first members) members
  | _, [], _ => .nil
  | first, (_, _) :: _, h =>
    .cons (gap_gapBytes first) (.mk h.1 blanks_nil blanks_nil) (Raw.stands_bytes h.2.1)
      (Raw.standsMembers_bytes false h.2.2)

end

/-- What a value is made of. -/
inductive Raw.Kind where
  | null
  | flag
  | number
  | text
  | list
  | object
  deriving DecidableEq

/-- The kind of a value. -/
def Raw.kind : Raw → Kind
  | .null => .null
  | .flag _ => .flag
  | .number _ => .number
  | .text _ => .text
  | .list _ => .list
  | .object _ => .object

/-- The kind of the values that begin with a byte. -/
def kindOf? (b : UInt8) : Option Raw.Kind :=
  if b = 0x6e then some .null
  else if b = 0x74 || b = 0x66 then some .flag
  else if b = 0x2d || isDigit b then some .number
  else if b = 0x22 then some .text
  else if b = 0x5b then some .list
  else if b = 0x7b then some .object
  else none

theorem kindOf?_of_isDigit {b : UInt8} (h : isDigit b = true) : kindOf? b = some .number := by
  simp [kindOf?, ne_of_isDigit h (c := 0x6e) (by decide), ne_of_isDigit h (c := 0x74) (by decide),
    ne_of_isDigit h (c := 0x66) (by decide), h]

/-- What begins a value is no blank. -/
theorem not_blank_of_kindOf? {b : UInt8} {k : Raw.Kind} (h : kindOf? b = some k) :
    isBlank b = false := by
  refine Bool.not_eq_true _ ▸ fun hblank => ?_
  simp only [isBlank, Bool.or_eq_true, decide_eq_true_eq] at hblank
  rcases hblank with ((rfl | rfl) | rfl) | rfl <;> cases h

/-- Bytes that begin values of different kinds differ. -/
theorem ne_of_kindOf? {b c : UInt8} {k : Raw.Kind} (h : kindOf? b = some k) (hc : kindOf? c ≠ some k) :
    b ≠ c := by
  rintro rfl
  exact hc h

/-- A number without a sign begins with a digit. -/
theorem StandsUnsigned.exists_cons {bytes : List UInt8} (h : StandsUnsigned bytes) :
    ∃ b more, bytes = b :: more ∧ isDigit b = true := by
  cases h with
  | mk hwhole _ _ =>
    cases hwhole with
    | zero => exact ⟨_, _, rfl, rfl⟩
    | digits _ h => exact ⟨_, _, rfl, h _ List.mem_cons_self⟩

/-- The first byte of a value tells its kind. -/
theorem Stands.exists_cons {bytes : List UInt8} {t : Raw} (h : Stands bytes t) :
    ∃ b more, bytes = b :: more ∧ kindOf? b = some t.kind := by
  cases h with
  | number h =>
    cases h with
    | positive h =>
      obtain ⟨b, more, rfl, hb⟩ := h.exists_cons
      exact ⟨b, more, rfl, kindOf?_of_isDigit hb⟩
    | negative h => exact ⟨_, _, rfl, rfl⟩
  | _ => exact ⟨_, _, rfl, rfl⟩

/-- The blanks before a value are passed over, and nothing of it. -/
theorem Stands.skipBlanks {bytes : List UInt8} {t : Raw} (h : Stands bytes t) {ws : List UInt8}
    (hws : Blanks ws) (rest : List UInt8) : skipBlanks (ws ++ (bytes ++ rest)) = bytes ++ rest := by
  obtain ⟨b, more, rfl, hb⟩ := h.exists_cons
  exact skipBlanks_append_cons hws (not_blank_of_kindOf? hb) _

theorem Stands.length_pos {bytes : List UInt8} {t : Raw} (h : Stands bytes t) : 0 < bytes.length := by
  obtain ⟨b, more, rfl, -⟩ := h.exists_cons
  exact Nat.succ_pos _

/-! ## Later items and members -/

/-- Behind an item the rest of a list may stand. -/
theorem StandsItems.closed {bytes : List UInt8} {items : List Raw} (h : StandsItems false bytes items)
    {tail : List UInt8} (htail : Closed tail) : Closed (bytes ++ tail) := by
  cases h with
  | nil => exact htail
  | cons hgap _ _ =>
    simp only [List.append_assoc]
    exact hgap.closed _

/-- Behind a member the rest of an object may stand. -/
theorem StandsMembers.closed {bytes : List UInt8} {members : List (List UInt8 × Raw)}
    (h : StandsMembers false bytes members) {tail : List UInt8} (htail : Closed tail) :
    Closed (bytes ++ tail) := by
  cases h with
  | nil => exact htail
  | cons hgap _ _ _ =>
    simp only [List.append_assoc]
    exact hgap.closed _

/-! ## Passing over -/

/-- The key is passed over with the colon after it; blanks are left. -/
theorem StandsKey.skipKey {keyed key : List UInt8} (h : StandsKey keyed key) :
    ∃ ws, Blanks ws ∧ ∀ rest, skipKey (keyed ++ rest) = .ok (ws ++ rest) := by
  cases h with
  | @mk _ ws ws' chars blanks blanks' =>
    refine ⟨ws', blanks', fun rest => ?_⟩
    have hmark : isBlank 0x22 = false := by decide
    have hcolon : isBlank 0x3a = false := by decide
    simp only [List.append_assoc, List.cons_append, Json.skipKey]
    rw [skipBlanks_cons hmark]
    simp only [ne_eq, not_true, if_false, chars.skipText]
    rw [skipBlanks_append_cons blanks hcolon]
    simp

/-- The bytes are passed over in so many steps, and then it goes on after them. -/
def Passes (bytes : List UInt8) (steps : Nat) : Prop :=
  ∀ (k : Nat) (frames : List Frame) (rest : List UInt8), Closed rest →
    skipNext (steps + k) frames (bytes ++ rest) = skipAfter k frames rest

/-- The bytes are passed over up to the end of the list or the object that they are in. -/
def PassesPart (first : Bool) (frame : Frame) (bytes : List UInt8) (steps : Nat) : Prop :=
  ∀ (k : Nat) (frames : List Frame) (tail rest : List UInt8),
    skipBlanks tail = frame.closing :: rest →
    skipPart first (steps + 1 + k) frame frames (bytes ++ tail) = skipAfter k frames rest

/-- A value that nests nothing is passed over in one step. -/
theorem passes_of_skipScalar {b : UInt8} {more : List UInt8} {k : Raw.Kind} (hb : kindOf? b = some k)
    (hlist : k ≠ .list) (hobject : k ≠ .object)
    (h : ∀ rest, Closed rest → skipScalar b (more ++ rest) = .ok rest) : Passes (b :: more) 1 := by
  intro n frames rest hrest
  have hopen : b ≠ 0x5b := ne_of_kindOf? hb fun he => hlist (Option.some.inj he).symm
  have hopen' : b ≠ 0x7b := ne_of_kindOf? hb fun he => hobject (Option.some.inj he).symm
  rw [Nat.add_comm, List.cons_append, skipNext, skipBlanks_cons (not_blank_of_kindOf? hb)]
  simp only [hopen, hopen', if_false, h rest hrest]

/-- Where nothing is left of a list or an object it takes no step to its end. -/
theorem passesPart_nil (first : Bool) (frame : Frame) : PassesPart first frame [] 0 := by
  intro k frames tail rest htail
  rw [Nat.zero_add, Nat.add_comm]
  exact skipPart_end htail k frames

/-- An item takes its own steps and one more. -/
theorem Passes.item {first : Bool} {gap bytes more : List UInt8} {t : Raw} {n m : Nat}
    (hgap : Gap first gap) (hitem : Stands bytes t) (h : Passes bytes n)
    (hclosed : ∀ tail, Closed tail → Closed (more ++ tail)) (hmore : PassesPart false .list more m) :
    PassesPart first .list (gap ++ bytes ++ more) (n + m + 1) := by
  intro k frames tail rest htail
  obtain ⟨b, spelled, rfl, hb⟩ := hitem.exists_cons
  have hend : b ≠ Frame.list.closing := ne_of_kindOf? hb (by simp [kindOf?, isDigit, Frame.closing])
  obtain ⟨ws, hws, hskip⟩ := skipPart_gap hgap .list (not_blank_of_kindOf? hb) hend (n + m + 1 + k)
    frames (spelled ++ (more ++ tail))
  -- one step for what stands before the item, and then its own, with the list around it
  rw [show n + m + 1 + 1 + k = n + m + 1 + k + 1 by omega, List.append_assoc, List.append_assoc,
    List.cons_append, hskip _ rfl, show n + m + 1 + k = n + (m + k) + 1 by omega,
    skipNext_append hws, ← List.cons_append, show n + (m + k) + 1 = n + (m + 1 + k) by omega,
    h _ _ _ (hclosed tail (closed_of_skipBlanks htail (by decide)))]
  exact hmore k frames tail rest htail

/-- A member takes its value's steps and one more. -/
theorem Passes.member {first : Bool} {gap keyed key bytes more : List UInt8} {n m : Nat}
    (hgap : Gap first gap) (hkey : StandsKey keyed key) (h : Passes bytes n)
    (hclosed : ∀ tail, Closed tail → Closed (more ++ tail)) (hmore : PassesPart false .object more m) :
    PassesPart first .object (gap ++ keyed ++ bytes ++ more) (n + m + 1) := by
  intro k frames tail rest htail
  obtain ⟨ws', hws', hskipKey⟩ := hkey.skipKey
  obtain ⟨spelled, rfl⟩ : ∃ spelled, keyed = 0x22 :: spelled := by
    cases hkey
    exact ⟨_, rfl⟩
  obtain ⟨ws, hws, hskip⟩ := skipPart_gap hgap .object (b := 0x22) (by decide) (by decide)
    (n + m + 1 + k) frames (spelled ++ (bytes ++ (more ++ tail)))
  have hvalue : skipToValue .object (ws ++ 0x22 :: (spelled ++ (bytes ++ (more ++ tail)))) =
      .ok (ws' ++ (bytes ++ (more ++ tail))) := by
    have hkey := hskipKey (bytes ++ (more ++ tail))
    rw [Json.skipKey, List.cons_append] at hkey
    rw [skipToValue, Json.skipKey, skipBlanks_append hws]
    exact hkey
  simp only [List.append_assoc, List.cons_append]
  rw [show n + m + 1 + 1 + k = n + m + 1 + k + 1 by omega, hskip _ hvalue,
    show n + m + 1 + k = n + (m + k) + 1 by omega, skipNext_append hws',
    show n + (m + k) + 1 = n + (m + 1 + k) by omega,
    h _ _ _ (hclosed tail (closed_of_skipBlanks htail (by decide)))]
  exact hmore k frames tail rest htail

mutual

/-- **Every value is passed over.** It takes at most two steps for each byte, and then goes on after
the value. -/
theorem Stands.passes : ∀ {bytes : List UInt8} {t : Raw}, Stands bytes t →
    ∃ n, n ≤ 2 * bytes.length ∧ Passes bytes n
  | _, _, .null => ⟨1, by decide, passes_of_skipScalar rfl nofun nofun fun _ _ => rfl⟩
  | _, _, .yes => ⟨1, by decide, passes_of_skipScalar rfl nofun nofun fun _ _ => rfl⟩
  | _, _, .no => ⟨1, by decide, passes_of_skipScalar rfl nofun nofun fun _ _ => rfl⟩
  | _, _, .number (.positive h) => by
    obtain ⟨b, more, rfl, hb⟩ := h.exists_cons
    refine ⟨1, by simp only [List.length_cons]; omega,
      passes_of_skipScalar (kindOf?_of_isDigit hb) nofun nofun fun rest hrest => ?_⟩
    have hskip := h.skipNumber hrest
    rw [List.cons_append] at hskip
    simp [skipScalar, ne_of_isDigit hb (c := 0x6e) (by decide),
      ne_of_isDigit hb (c := 0x74) (by decide), ne_of_isDigit hb (c := 0x66) (by decide),
      ne_of_isDigit hb (c := 0x2d) (by decide), hb, hskip]
  | _, _, .number (.negative h) =>
    ⟨1, by simp only [List.length_cons]; omega,
      passes_of_skipScalar rfl nofun nofun fun _ hrest => h.skipNumber hrest⟩
  | _, _, .text chars =>
    ⟨1, by simp only [List.length_cons, List.cons_append]; omega,
      passes_of_skipScalar rfl nofun nofun fun rest _ => by
        have hskip := chars.skipText rest
        rwa [← List.singleton_append, ← List.append_assoc] at hskip⟩
  | _, _, .list h blanks => by
    obtain ⟨n, hle, hpasses⟩ := StandsItems.passes h
    refine ⟨n + 2, ?_, fun k frames rest hrest => ?_⟩
    · simp only [List.length_append, List.length_cons, List.length_nil, Bool.toNat_true] at hle ⊢
      omega
    · have hpart := hpasses k frames _ _
        (skipBlanks_append_cons blanks (by decide : isBlank 0x5d = false) rest)
      rw [show n + 2 + k = n + 1 + k + 1 by omega]
      simpa [skipNext, skipBlanks_cons, isBlank, skipPart] using hpart
  | _, _, .object h blanks => by
    obtain ⟨n, hle, hpasses⟩ := StandsMembers.passes h
    refine ⟨n + 2, ?_, fun k frames rest hrest => ?_⟩
    · simp only [List.length_append, List.length_cons, List.length_nil, Bool.toNat_true] at hle ⊢
      omega
    · have hpart := hpasses k frames _ _
        (skipBlanks_append_cons blanks (by decide : isBlank 0x7d = false) rest)
      rw [show n + 2 + k = n + 1 + k + 1 by omega]
      simpa [skipNext, skipBlanks_cons, isBlank, skipPart] using hpart

/-- Items are passed over in at most two steps for each byte. -/
theorem StandsItems.passes : ∀ {first : Bool} {bytes : List UInt8} {items : List Raw},
    StandsItems first bytes items →
    ∃ n, n ≤ 2 * bytes.length + first.toNat ∧ PassesPart first .list bytes n
  | first, _, _, .nil => ⟨0, Nat.zero_le _, passesPart_nil first .list⟩
  | first, _, _, .cons hgap item later => by
    obtain ⟨n, hn, hitem⟩ := Stands.passes item
    obtain ⟨m, hm, hlater⟩ := StandsItems.passes later
    have hle := hgap.length_le
    refine ⟨n + m + 1, ?_, hitem.item hgap item (fun _ => later.closed) hlater⟩
    -- the comma pays for the step before an item; the first has none, but the bracket is left
    simp only [List.length_append, Bool.toNat_false] at hm ⊢
    omega

theorem StandsMembers.passes : ∀ {first : Bool} {bytes : List UInt8}
    {members : List (List UInt8 × Raw)}, StandsMembers first bytes members →
    ∃ n, n ≤ 2 * bytes.length + first.toNat ∧ PassesPart first .object bytes n
  | first, _, _, .nil => ⟨0, Nat.zero_le _, passesPart_nil first .object⟩
  | first, _, _, .cons hgap hkey value later => by
    obtain ⟨n, hn, hvalue⟩ := Stands.passes value
    obtain ⟨m, hm, hlater⟩ := StandsMembers.passes later
    have hle := hgap.length_le
    refine ⟨n + m + 1, ?_, hvalue.member hgap hkey (fun _ => later.closed) hlater⟩
    simp only [List.length_append, Bool.toNat_false] at hm ⊢
    omega

end

/-- A value that nobody asks for never stops the reading. -/
theorem Stands.skipValue {bytes ws rest : List UInt8} {t : Raw} (h : Stands bytes t) (hws : Blanks ws)
    (hrest : Closed rest) {size : Nat} (hsize : bytes.length ≤ size) :
    skipValue size (ws ++ (bytes ++ rest)) = .ok rest := by
  obtain ⟨n, hle, hpasses⟩ := h.passes
  obtain ⟨k, hk⟩ : ∃ k, 2 * size + 2 = n + k := Nat.exists_eq_add_of_le (by omega)
  rw [Json.skipValue, skipNext_append hws, hk, hpasses k [] rest hrest]
  simp [skipAfter]

end PullGate.Json
