import PullGate.Proofs.Json.Chars
import PullGate.Proofs.Json.Numbers
/-!
# What is written spells its value

The text that is written for a value is one of its spellings, as long as no number in it is a float.
-/

namespace PullGate.Json

open PullGate.Text (Utf8.encode Utf8.encodeChar)

/-! ## Values that are written exactly -/

/-- Whether a number is written with all that there is of it. -/
def Number.isExact : Number → Bool
  | natural _ => true
  | negative n => 0 < n && n ≤ Nat.pow 2 63
  | float _ => false

mutual

/-- Whether all numbers in a value are written with all that there is of them. -/
def Value.isExact : Value → Bool
  | .number n => n.isExact
  | .list items => Value.areExact items
  | .object members => Value.membersAreExact members
  | _ => true

/-- Whether the items are written exactly. -/
def Value.areExact : List Value → Bool
  | [] => true
  | v :: rest => v.isExact && Value.areExact rest

/-- Whether the members are written exactly. -/
def Value.membersAreExact : List (String × Value) → Bool
  | [] => true
  | (_, v) :: rest => v.isExact && Value.membersAreExact rest

end

/-- Items made one by one are exact if each is. -/
theorem Value.areExact_map {α : Type} (tree : α → Value) {as : List α}
    (h : ∀ a ∈ as, (tree a).isExact = true) : Value.areExact (as.map tree) = true := by
  induction as with
  | nil => rfl
  | cons a as ih =>
    rw [List.map_cons, Value.areExact, h a List.mem_cons_self,
      ih fun b hb => h b (List.mem_cons_of_mem a hb), Bool.and_true]

/-- The bytes that are written for a value. -/
def Value.bytes (v : Value) : List UInt8 := Text.Utf8.encode v.render

/-! ## Parts -/

theorem encode_nil : Utf8.encode [] = [] := rfl

theorem encode_append (cs ds : List Char) :
    Utf8.encode (cs ++ ds) = Utf8.encode cs ++ Utf8.encode ds :=
  List.flatMap_append

theorem encode_cons {c : Char} (h : c.toNat < 0x80) (cs : List Char) :
    Utf8.encode (c :: cs) = byte c :: Utf8.encode cs := by
  simp [Text.Utf8.encode, Text.Utf8.encodeChar, h, byte]

/-- The digits of a number are encoded as they are. -/
theorem encode_digits (n : Nat) : Utf8.encode (Nat.toDigits 10 n) = digits n := by
  have hdigits : ∀ cs : List Char, (∀ c ∈ cs, c.isDigit = true) → Utf8.encode cs = cs.map byte := by
    intro cs hcs
    induction cs with
    | nil => rfl
    | cons c cs ih =>
      have hle := (toNat_byte (hcs c List.mem_cons_self)).2.2
      rw [encode_cons (Nat.lt_of_le_of_lt hle (by decide)),
        ih fun d hd => hcs d (List.mem_cons_of_mem _ hd), List.map_cons]
  exact hdigits _ fun c => Nat.isDigit_of_mem_toDigits (by decide) (by decide)

/-- What is written for an exact number spells it. -/
theorem spellsNumber_render {n : Number} (h : n.isExact = true) :
    SpellsNumber (Utf8.encode n.render.toList) n := by
  cases n with
  | natural n =>
    simp only [Number.render, Nat.toString_eq_repr, Nat.toList_repr, encode_digits]
    exact .natural n
  | negative n =>
    simp only [Number.isExact, Bool.and_eq_true, decide_eq_true_eq] at h
    simp only [Number.render, Nat.toString_eq_repr, String.toList_append, Nat.toList_repr,
      encode_append, encode_digits]
    exact .negative h.1 h.2
  | float f => cases h

/-- What is written for a text are its escaped characters between two marks. -/
theorem encode_renderText (s : String) :
    Utf8.encode (renderText s) = 0x22 :: Utf8.encode (s.toList.flatMap escapedChar) ++ [0x22] := by
  rw [renderText, List.cons_append, encode_cons (by decide), encode_append]
  rfl

/-- What is written for a name and a colon spells a key. -/
theorem spellsKey_render (name : String) :
    SpellsKey (Utf8.encode (renderText name) ++ [0x3a]) name := by
  have h := SpellsKey.mk (spellsChars_escaped name.toList) blanks_nil blanks_nil
  simpa [encode_renderText] using h

theorem gap_later : Gap false [0x2c] := .later blanks_nil blanks_nil

/-! ## Values -/

mutual

/-- **What is written is read.** The bytes that are written for a value spell it. -/
theorem Value.spells_bytes : ∀ {v : Value}, v.isExact = true → Spells v.bytes v
  | .null, _ => .null
  | .flag true, _ => .yes
  | .flag false, _ => .no
  | .number n, h => .number (spellsNumber_render h)
  | .text s, _ => by
    rw [Value.bytes, Value.render, encode_renderText]
    exact .text (spellsChars_escaped s.toList)
  | .list [], _ => .list .nil blanks_nil
  | .list (v :: rest), h => by
    simp only [Value.isExact, Value.areExact, Bool.and_eq_true] at h
    have hspells := Spells.list (.cons (.first blanks_nil) (Value.spells_bytes h.1)
      (Value.spellsItems_renderItems h.2)) blanks_nil
    simpa [Value.bytes, Value.render, encode_append, encode_cons, encode_nil, byte] using hspells
  | .object [], _ => .object .nil blanks_nil
  | .object ((name, v) :: rest), h => by
    simp only [Value.isExact, Value.membersAreExact, Bool.and_eq_true] at h
    have hspells := Spells.object (.cons (.first blanks_nil) (spellsKey_render name)
      (Value.spells_bytes h.1) (Value.spellsMembers_renderMembers h.2)) blanks_nil
    simpa [Value.bytes, Value.render, encode_append, encode_cons, encode_nil, byte] using hspells

/-- What is written for further items spells them. -/
theorem Value.spellsItems_renderItems : ∀ {items : List Value}, Value.areExact items = true →
    SpellsItems false (Utf8.encode (Value.renderItems items)) items
  | [], _ => .nil
  | v :: rest, h => by
    simp only [Value.areExact, Bool.and_eq_true] at h
    have hspells := SpellsItems.cons gap_later (Value.spells_bytes h.1)
      (Value.spellsItems_renderItems h.2)
    simpa [Value.bytes, Value.renderItems, encode_append, encode_cons, encode_nil, byte] using hspells

/-- What is written for further members spells them. -/
theorem Value.spellsMembers_renderMembers : ∀ {members : List (String × Value)},
    Value.membersAreExact members = true →
    SpellsMembers false (Utf8.encode (Value.renderMembers members)) members
  | [], _ => .nil
  | (name, v) :: rest, h => by
    simp only [Value.membersAreExact, Bool.and_eq_true] at h
    have hspells := SpellsMembers.cons gap_later (spellsKey_render name) (Value.spells_bytes h.1)
      (Value.spellsMembers_renderMembers h.2)
    simpa [Value.bytes, Value.renderMembers, encode_append, encode_cons, encode_nil, byte] using hspells

end

end PullGate.Json
