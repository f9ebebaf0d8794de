import PullGate.Proofs.Json.Chars
import PullGate.Proofs.Json.Numbers
/-!
# Values in their places

Where a value begins and ends among blanks, commas and brackets. Every spelling of a value is passed over
in `Value.steps` many steps, which are fewer than twice its bytes, so that a value that nobody asks
for never stops the reading (`Spells.skipValue`).
-/

namespace PullGate.Json

/-! ## Blanks -/

/-- Blanks in front are passed over. -/
theorem skipBlanks_append {ws : List UInt8} (h : Blanks ws) (rest : List UInt8) :
    skipBlanks (ws ++ rest) = skipBlanks rest := by
  induction ws with
  | nil => rfl
  | cons b ws ih =>
    rw [List.cons_append, skipBlanks, if_pos (h b List.mem_cons_self)]
    exact ih fun c hc => h c (List.mem_cons_of_mem _ hc)

theorem skipBlanks_cons {b : UInt8} (h : isBlank b = false) (rest : List UInt8) :
    skipBlanks (b :: rest) = b :: rest := by
  rw [skipBlanks, if_neg (by simp [h])]

/-- Behind blanks there is this. -/
theorem skipBlanks_append_cons {ws : List UInt8} (h : Blanks ws) {b : UInt8} (hb : isBlank b = false)
    (rest : List UInt8) : skipBlanks (ws ++ b :: rest) = b :: rest := by
  rw [skipBlanks_append h, skipBlanks_cons hb]

/-- Blanks may stand behind a value, before what may. -/
theorem closed_append {ws : List UInt8} (h : Blanks ws) {rest : List UInt8} (hrest : Closed rest) :
    Closed (ws ++ rest) := by
  rcases ws with _ | ⟨b, ws⟩
  · exact hrest
  · exact closed_cons (by simp [closes, h b List.mem_cons_self]) _

/-- If what comes behind blanks may stand behind a value, so may the blanks with it. -/
theorem closed_of_skipBlanks {b : UInt8} {bytes rest : List UInt8} (h : skipBlanks bytes = b :: rest)
    (hb : closes b = true) : Closed bytes := by
  rcases bytes with _ | ⟨c, bytes⟩
  · exact closed_nil
  · rw [skipBlanks] at h
    split at h
    · rename_i hc
      exact closed_cons (by simp [closes, hc]) _
    · cases h
      exact closed_cons hb _

/-! ## Beginnings -/

/-- What a value's first byte is not. -/
structure Begins (b : UInt8) (v : Value) : Prop where
  not_blank : isBlank b = false
  not_listEnd : b ≠ 0x5d
  not_objectEnd : b ≠ 0x7d
  null_of_eq : b = 0x6e → v = .null

/-- A digit is no byte outside the range of digits. -/
theorem ne_of_isDigit {b c : UInt8} (h : Decimal.isDigit b = true)
    (hc : c.toNat < 0x30 ∨ 0x39 < c.toNat) : b ≠ c := by
  simp only [Decimal.isDigit, Bool.and_eq_true, decide_eq_true_eq] at h
  rintro rfl
  omega

/-- A digit begins a value, whichever it is. -/
theorem begins_of_isDigit {b : UInt8} (h : Decimal.isDigit b = true) (v : Value) : Begins b v where
  not_blank := by
    simp [isBlank, ne_of_isDigit h (c := 0x20) (by decide), ne_of_isDigit h (c := 0x0a) (by decide),
      ne_of_isDigit h (c := 0x09) (by decide), ne_of_isDigit h (c := 0x0d) (by decide)]
  not_listEnd := ne_of_isDigit h (by decide)
  not_objectEnd := ne_of_isDigit h (by decide)
  null_of_eq he := absurd he (ne_of_isDigit h (by decide))

/-- A value is spelled from a byte on that is no blank and no end. -/
theorem Spells.begins {bytes : List UInt8} {v : Value} (h : Spells bytes v) :
    ∃ b more, bytes = b :: more ∧ Begins b v := by
  have hother {b : UInt8} {v : Value} (h : isBlank b = false ∧ b ≠ 0x5d ∧ b ≠ 0x7d ∧ b ≠ 0x6e) :
      Begins b v := ⟨h.1, h.2.1, h.2.2.1, fun he => absurd he h.2.2.2⟩
  cases h with
  | null => exact ⟨_, _, rfl, by decide, by decide, by decide, fun _ => rfl⟩
  | yes => exact ⟨_, _, rfl, hother (by decide)⟩
  | no => exact ⟨_, _, rfl, hother (by decide)⟩
  | number h =>
    rcases h.read with ⟨b, more, rfl, hdigit, -⟩ | ⟨more, rfl, -⟩
    · exact ⟨_, _, rfl, begins_of_isDigit hdigit _⟩
    · exact ⟨_, _, rfl, hother (by decide)⟩
  | text chars => exact ⟨_, _, rfl, hother (by decide)⟩
  | list spells blanks => exact ⟨_, _, rfl, hother (by decide)⟩
  | object spells blanks => exact ⟨_, _, rfl, hother (by decide)⟩

/-- Nothing of a value is passed over as a blank. -/
theorem Spells.skipBlanks {bytes : List UInt8} {v : Value} (h : Spells bytes v) (rest : List UInt8) :
    skipBlanks (bytes ++ rest) = bytes ++ rest := by
  obtain ⟨b, more, rfl, hb⟩ := h.begins
  exact skipBlanks_cons hb.not_blank _

theorem Spells.length_pos {bytes : List UInt8} {v : Value} (h : Spells bytes v) :
    0 < bytes.length := by
  obtain ⟨b, more, rfl, -⟩ := h.begins
  exact Nat.succ_pos _

/-! ## Later items and members -/

/-- A gap that is not the first may stand behind a value. -/
theorem Gap.closed {gap : List UInt8} (h : Gap false gap) (rest : List UInt8) :
    Closed (gap ++ rest) := by
  cases h with
  | later blanks _ =>
    rw [List.append_assoc]
    exact closed_append blanks (closed_cons (by decide) _)

/-- Behind an item the rest of a list may stand. -/
theorem SpellsItems.closed {bytes : List UInt8} {items : List Value}
    (h : SpellsItems false bytes items) {tail : List UInt8} (htail : Closed tail) :
    Closed (bytes ++ tail) := by
  cases h with
  | nil => exact htail
  | cons hgap _ _ =>
    simp only [List.append_assoc]
    exact hgap.closed _

/-- Behind a member the rest of an object may stand. -/
theorem SpellsMembers.closed {bytes : List UInt8} {members : List (String × Value)}
    (h : SpellsMembers false bytes members) {tail : List UInt8} (htail : Closed tail) :
    Closed (bytes ++ tail) := by
  cases h with
  | nil => exact htail
  | cons hgap _ _ _ =>
    simp only [List.append_assoc]
    exact hgap.closed _

/-! ## Values without parts -/

/-- Whether a value is no list and no object. -/
def Value.isScalar : Value → Bool
  | list _ | object _ => false
  | _ => true

/-- A digit begins a number. -/
theorem readScalar_of_isDigit {b : UInt8} (h : Decimal.isDigit b = true) {more rest : List UInt8}
    {n : Number} (hread : readNumber true (b :: more) = .ok (n, rest)) :
    readScalar b more = .ok (.number n, rest) ∧ skipScalar b more = .ok rest := by
  have hskip := skipNumber_of_readNumber hread
  simp [readScalar, skipScalar, ne_of_isDigit h (c := 0x6e) (by decide),
    ne_of_isDigit h (c := 0x74) (by decide), ne_of_isDigit h (c := 0x66) (by decide),
    ne_of_isDigit h (c := 0x2d) (by decide), h, hread, hskip]

/-- A value without parts is read and passed over from its first byte on. -/
theorem Spells.scalar {bytes rest : List UInt8} {v : Value} (h : Spells bytes v)
    (hv : v.isScalar = true) (hrest : Closed rest) :
    ∃ b more, bytes = b :: more ∧ isBlank b = false ∧ b ≠ 0x5b ∧ b ≠ 0x7b ∧
      readScalar b (more ++ rest) = .ok (v, rest) ∧ skipScalar b (more ++ rest) = .ok rest := by
  cases h with
  | null => exact ⟨_, _, rfl, by decide, by decide, by decide, rfl, rfl⟩
  | yes => exact ⟨_, _, rfl, by decide, by decide, by decide, rfl, rfl⟩
  | no => exact ⟨_, _, rfl, by decide, by decide, by decide, rfl, rfl⟩
  | number h =>
    rcases h.read with ⟨b, more, rfl, hdigit, hread⟩ | ⟨more, rfl, hread⟩
    · exact ⟨b, more, rfl, (begins_of_isDigit hdigit .null).not_blank, ne_of_isDigit hdigit (by decide),
        ne_of_isDigit hdigit (by decide), readScalar_of_isDigit hdigit (readNumber_append hrest hread)⟩
    · have hnumber := readNumber_append hrest hread
      refine ⟨_, _, rfl, by decide, by decide, by decide, ?_, ?_⟩
      · simp [readScalar, hnumber]
      · simp [skipScalar, skipNumber_of_readNumber hnumber]
  | text chars =>
    have hmark : Decimal.isDigit 0x22 = false := by decide
    refine ⟨_, _, rfl, by decide, by decide, by decide, ?_, ?_⟩
    · simp [readScalar, chars.readText, hmark]
    · simp [skipScalar, chars.skipText, hmark]
  | list spells blanks => cases hv
  | object spells blanks => cases hv

/-! ## Passing over -/

mutual

/-- In how many steps a value is passed over. -/
def Value.steps : Value → Nat
  | .list items => Value.itemSteps items + 2
  | .object members => Value.memberSteps members + 2
  | _ => 1

/-- In how many steps items are passed over, with what stands before each. -/
def Value.itemSteps : List Value → Nat
  | [] => 0
  | v :: rest => v.steps + Value.itemSteps rest + 1

/-- In how many steps members are passed over, with what stands before each. -/
def Value.memberSteps : List (String × Value) → Nat
  | [] => 0
  | (_, v) :: rest => v.steps + Value.memberSteps rest + 1

end

/-- A value that nests nothing takes one step. -/
theorem Value.steps_of_isScalar {v : Value} (h : v.isScalar = true) : v.steps = 1 := by
  cases v with
  | list items => cases h
  | object members => cases h
  | _ => rfl

/-- Blanks before a value are passed over with it. -/
theorem skipNext_append {ws : List UInt8} (h : Blanks ws) (fuel : Nat) (frames : List Frame)
    (rest : List UInt8) : skipNext (fuel + 1) frames (ws ++ rest) = skipNext (fuel + 1) frames rest := by
  rw [skipNext, skipNext, skipBlanks_append h]

theorem Value.steps_pos (v : Value) : 0 < v.steps := by
  cases v <;> simp [Value.steps]

/-- A key is passed over with the colon after it; blanks are left. -/
theorem SpellsKey.skipKey {bytes : List UInt8} {key : String} (h : SpellsKey bytes key) :
    ∃ ws, Blanks ws ∧ ∀ rest, skipKey (bytes ++ rest) = .ok (ws ++ rest) := by
  cases h with
  | @mk bytes ws ws' key chars blanks blanks' =>
    refine ⟨ws', blanks', fun rest => ?_⟩
    have hmark : isBlank 0x22 = false := by decide
    have hcolon : isBlank 0x3a = false := by decide
    simp only [List.append_assoc, List.cons_append, Json.skipKey]
    rw [skipBlanks_cons hmark]
    simp only [ne_eq, not_true, if_false, chars.skipText]
    rw [skipBlanks_append_cons blanks hcolon]
    simp

/-- Passes over the rest of a list or an object from its beginning or from behind an item or a
member. -/
def skipPart (first : Bool) (fuel : Nat) (frame : Frame) (frames : List Frame) (bytes : List UInt8) :
    Except Failure (List UInt8) :=
  if first then skipOpened fuel frame frames bytes else skipAfter fuel (frame :: frames) bytes

/-- At its end a list or an object is left. -/
theorem skipPart_end {first : Bool} {frame : Frame} {tail rest : List UInt8}
    (h : skipBlanks tail = frame.closing :: rest) (fuel : Nat) (frames : List Frame) :
    skipPart first (fuel + 1) frame frames tail = skipAfter fuel frames rest := by
  cases first
  · simp [skipPart, skipAfter, h]
  · simp [skipPart, skipOpened, h]

/-- After what stands before an item or a member comes its key, if it has one, and its value. -/
theorem skipPart_gap {first : Bool} {gap : List UInt8} (hgap : Gap first gap) (frame : Frame)
    {b : UInt8} (hb : isBlank b = false) (hend : b ≠ frame.closing) (fuel : Nat)
    (frames : List Frame) (more : List UInt8) :
    ∃ ws, Blanks ws ∧ ∀ rest, skipToValue frame (ws ++ b :: more) = .ok rest →
      skipPart first (fuel + 1) frame frames (gap ++ b :: more) =
        skipNext fuel (frame :: frames) rest := by
  cases hgap with
  | first blanks =>
    refine ⟨[], blanks_nil, fun rest hvalue => ?_⟩
    rw [List.nil_append] at hvalue
    simp only [skipPart, if_true, skipOpened, skipBlanks_append_cons blanks hb, if_neg hend, hvalue]
  | @later ws ws' blanks blanks' =>
    refine ⟨ws', blanks', fun rest hvalue => ?_⟩
    have hcomma : isBlank 0x2c = false := by decide
    have hclosing : (0x2c : UInt8) ≠ frame.closing := by cases frame <;> decide
    simp only [skipPart, Bool.false_eq_true, if_false, skipAfter, List.append_assoc, List.cons_append,
      skipBlanks_append_cons blanks hcomma, if_neg hclosing, if_true, hvalue]

/-- Behind a gap an item of a list is passed over next. -/
theorem skipPart_item {first : Bool} {gap bytes : List UInt8} {v : Value} (hgap : Gap first gap)
    (h : Spells bytes v) (fuel : Nat) (frames : List Frame) (rest : List UInt8) :
    skipPart first (fuel + 2) .list frames (gap ++ bytes ++ rest) =
      skipNext (fuel + 1) (.list :: frames) (bytes ++ rest) := by
  obtain ⟨b, more, rfl, hb⟩ := h.begins
  obtain ⟨ws, hws, hskip⟩ :=
    skipPart_gap hgap .list hb.not_blank hb.not_listEnd (fuel + 1) frames (more ++ rest)
  rw [List.append_assoc, List.cons_append, hskip _ rfl]
  exact skipNext_append hws fuel _ _

/-- Behind a gap and a key the value of a member is passed over next. -/
theorem skipPart_member {first : Bool} {gap key : List UInt8} {name : String} (hgap : Gap first gap)
    (hkey : SpellsKey key name) (fuel : Nat) (frames : List Frame) (rest : List UInt8) :
    skipPart first (fuel + 2) .object frames (gap ++ key ++ rest) =
      skipNext (fuel + 1) (.object :: frames) rest := by
  obtain ⟨ws', hws', hskipKey⟩ := hkey.skipKey
  obtain ⟨more, rfl⟩ : ∃ more, key = 0x22 :: more := by
    cases hkey
    exact ⟨_, rfl⟩
  obtain ⟨ws, hws, hskip⟩ := skipPart_gap hgap .object (b := 0x22) (by decide) (by decide)
    (fuel + 1) frames (more ++ rest)
  have hvalue : skipToValue .object (ws ++ 0x22 :: (more ++ rest)) = .ok (ws' ++ rest) := by
    have hkey := hskipKey rest
    rw [Json.skipKey, List.cons_append] at hkey
    rw [skipToValue, Json.skipKey, skipBlanks_append hws]
    exact hkey
  rw [List.append_assoc, List.cons_append, hskip _ hvalue]
  exact skipNext_append hws' fuel _ _

/-- A value that nests nothing is passed over at once. -/
theorem skipNext_of_isScalar {bytes rest : List UInt8} {v : Value} (h : Spells bytes v)
    (hv : v.isScalar = true) (k : Nat) (frames : List Frame) (hrest : Closed rest) :
    skipNext (v.steps + k) frames (bytes ++ rest) = skipAfter k frames rest := by
  obtain ⟨b, more, rfl, hblank, hlist, hobject, -, hskip⟩ := h.scalar hv hrest
  rw [Value.steps_of_isScalar hv, Nat.add_comm, List.cons_append, skipNext, skipBlanks_cons hblank]
  simp only [hlist, hobject, if_false, hskip]

mutual

/-- **Every value is passed over.** It takes as many steps as the value has, and then goes on after
it. -/
theorem Spells.skipNext : ∀ (v : Value) {bytes : List UInt8}, Spells bytes v →
    ∀ (k : Nat) (frames : List Frame) {rest : List UInt8}, Closed rest →
      skipNext (v.steps + k) frames (bytes ++ rest) = skipAfter k frames rest
  | .list items, _, .list spells blanks, k, frames, rest, _ => by
    have hpart := SpellsItems.skipPart items spells k frames
      (skipBlanks_append_cons blanks (by decide : isBlank 0x5d = false) rest)
    -- one step opens the list, and one closes it
    rw [show Value.steps (.list items) + k = Value.itemSteps items + 1 + k + 1 by
      simp only [Value.steps]; omega]
    simpa [Json.skipNext, skipBlanks_cons, isBlank, skipPart] using hpart
  | .object members, _, .object spells blanks, k, frames, rest, _ => by
    have hpart := SpellsMembers.skipPart members spells k frames
      (skipBlanks_append_cons blanks (by decide : isBlank 0x7d = false) rest)
    rw [show Value.steps (.object members) + k = Value.memberSteps members + 1 + k + 1 by
      simp only [Value.steps]; omega]
    simpa [Json.skipNext, skipBlanks_cons, isBlank, skipPart] using hpart
  | .null, _, h, k, frames, _, hrest => skipNext_of_isScalar h rfl k frames hrest
  | .flag _, _, h, k, frames, _, hrest => skipNext_of_isScalar h rfl k frames hrest
  | .number _, _, h, k, frames, _, hrest => skipNext_of_isScalar h rfl k frames hrest
  | .text _, _, h, k, frames, _, hrest => skipNext_of_isScalar h rfl k frames hrest

/-- Items are passed over up to the end of the list. -/
theorem SpellsItems.skipPart : ∀ (items : List Value) {first : Bool} {bytes : List UInt8},
    SpellsItems first bytes items → ∀ (k : Nat) (frames : List Frame) {tail rest : List UInt8},
      skipBlanks tail = 0x5d :: rest →
      skipPart first (Value.itemSteps items + 1 + k) .list frames (bytes ++ tail) =
        skipAfter k frames rest
  | [], _, _, .nil, k, frames, tail, rest, htail => by
    rw [Value.itemSteps, Nat.zero_add, Nat.add_comm]
    exact skipPart_end htail k frames
  | v :: items, first, _, .cons hgap item later, k, frames, tail, rest, htail => by
    have hpos := v.steps_pos
    have hclosed := later.closed (closed_of_skipBlanks htail (by decide))
    have hlater := SpellsItems.skipPart items later k frames htail
    have hitem := Spells.skipNext v item (Value.itemSteps items + 1 + k) (.list :: frames) hclosed
    -- one step for what stands before the item, and then its own, with the list around it
    rw [show Value.itemSteps (v :: items) + 1 + k =
      v.steps + (Value.itemSteps items + 1 + k) - 1 + 2 by simp only [Value.itemSteps]; omega,
      List.append_assoc, skipPart_item hgap item,
      show v.steps + (Value.itemSteps items + 1 + k) - 1 + 1 =
        v.steps + (Value.itemSteps items + 1 + k) by omega, hitem]
    exact hlater

/-- Members are passed over up to the end of the object. -/
theorem SpellsMembers.skipPart : ∀ (members : List (String × Value)) {first : Bool}
    {bytes : List UInt8}, SpellsMembers first bytes members →
    ∀ (k : Nat) (frames : List Frame) {tail rest : List UInt8},
      skipBlanks tail = 0x7d :: rest →
      skipPart first (Value.memberSteps members + 1 + k) .object frames (bytes ++ tail) =
        skipAfter k frames rest
  | [], _, _, .nil, k, frames, tail, rest, htail => by
    rw [Value.memberSteps, Nat.zero_add, Nat.add_comm]
    exact skipPart_end htail k frames
  | (name, v) :: members, first, _, .cons hgap hkey value later, k, frames, tail, rest, htail => by
    have hpos := v.steps_pos
    have hclosed := later.closed (closed_of_skipBlanks htail (by decide))
    have hlater := SpellsMembers.skipPart members later k frames htail
    have hvalue :=
      Spells.skipNext v value (Value.memberSteps members + 1 + k) (.object :: frames) hclosed
    rw [show Value.memberSteps ((name, v) :: members) + 1 + k =
      v.steps + (Value.memberSteps members + 1 + k) - 1 + 2 by simp only [Value.memberSteps]; omega,
      List.append_assoc, List.append_assoc, skipPart_member hgap hkey,
      show v.steps + (Value.memberSteps members + 1 + k) - 1 + 1 =
        v.steps + (Value.memberSteps members + 1 + k) by omega, hvalue]
    exact hlater

end

/-! ## Bytes are enough -/

/-- A gap has a byte unless it is the first. -/
theorem Gap.length_le {gap : List UInt8} {first : Bool} (h : Gap first gap) :
    1 ≤ gap.length + first.toNat := by
  cases h with
  | first blanks => exact Nat.le_add_left _ _
  | later blanks blanks' =>
    simp only [List.length_append, List.length_cons]
    omega

mutual

/-- Passing over a value takes at most two steps for each byte. -/
theorem Spells.steps_le : ∀ (v : Value) {bytes : List UInt8}, Spells bytes v →
    v.steps ≤ 2 * bytes.length
  | .list items, _, .list spells _ => by
    have hitems := SpellsItems.steps_le items spells
    simp only [Value.steps, List.length_append, List.length_cons, List.length_nil]
    simp only [Bool.toNat_true] at hitems
    omega
  | .object members, _, .object spells _ => by
    have hmembers := SpellsMembers.steps_le members spells
    simp only [Value.steps, List.length_append, List.length_cons, List.length_nil]
    simp only [Bool.toNat_true] at hmembers
    omega
  | .null, _, h => Nat.le_trans h.length_pos (Nat.le_mul_of_pos_left _ Nat.two_pos)
  | .flag _, _, h => Nat.le_trans h.length_pos (Nat.le_mul_of_pos_left _ Nat.two_pos)
  | .number _, _, h => Nat.le_trans h.length_pos (Nat.le_mul_of_pos_left _ Nat.two_pos)
  | .text _, _, h => Nat.le_trans h.length_pos (Nat.le_mul_of_pos_left _ Nat.two_pos)

/-- Items take at most two steps for each byte. -/
theorem SpellsItems.steps_le : ∀ (items : List Value) {first : Bool} {bytes : List UInt8},
    SpellsItems first bytes items → Value.itemSteps items ≤ 2 * bytes.length + first.toNat
  | [], _, _, .nil => Nat.zero_le _
  | v :: items, first, _, .cons hgap item later => by
    -- the comma pays for the step before an item; the first has none, but the bracket is left
    have hgap := hgap.length_le
    have hitem := Spells.steps_le v item
    have hlater := SpellsItems.steps_le items later
    simp only [Value.itemSteps, List.length_append, Bool.toNat_false] at hlater ⊢
    omega

theorem SpellsMembers.steps_le : ∀ (members : List (String × Value)) {first : Bool}
    {bytes : List UInt8}, SpellsMembers first bytes members →
    Value.memberSteps members ≤ 2 * bytes.length + first.toNat
  | [], _, _, .nil => Nat.zero_le _
  | (name, v) :: members, first, _, .cons hgap hkey value later => by
    have hgap := hgap.length_le
    have hvalue := Spells.steps_le v value
    have hlater := SpellsMembers.steps_le members later
    simp only [Value.memberSteps, List.length_append, Bool.toNat_false] at hlater ⊢
    omega

end

/-- A value that nobody asks for never stops the reading. -/
theorem Spells.skipValue {bytes ws rest : List UInt8} {v : Value} (h : Spells bytes v)
    (hws : Blanks ws) (hrest : Closed rest) {size : Nat} (hsize : bytes.length ≤ size) :
    skipValue size (ws ++ (bytes ++ rest)) = .ok rest := by
  obtain ⟨k, hk⟩ : ∃ k, 2 * size + 2 = v.steps + k :=
    Nat.exists_eq_add_of_le (Nat.le_trans (Spells.steps_le v h) (by omega))
  rw [Json.skipValue, skipNext_append hws, hk, Spells.skipNext v h k [] hrest]
  simp [skipAfter]

end PullGate.Json
