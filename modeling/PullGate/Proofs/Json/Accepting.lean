import PullGate.Proofs.Json.Passing
/-!
# Only JSON is read

What a reading accepts is JSON: in front of what it leaves there stands a value. So a text is read by a
shape just if it is a JSON text whose tree means an element to the shape (`Shape.ofBytes_eq_ok_iff`).
-/

namespace PullGate.Json

variable {bytes rest : List UInt8}

/-! ## Values that are read -/

section

variable {α σ : Type}

/-- What is read is a value. -/
def ReadsValues (read : List UInt8 → Result α) : Prop :=
  ∀ (bytes rest : List UInt8) (a : α), read bytes = .ok (a, rest) → Fronts (skipBlanks bytes) rest

/-- What is read is the value of a member, from the colon on. -/
def ReadsMembers (read : List UInt8 → Result α) : Prop :=
  ∀ (bytes rest : List UInt8) (a : α), read bytes = .ok (a, rest) → FrontsMember bytes rest

/-- What is read as a text is a value. -/
theorem readsValues_readTextValue (expected : String) : ReadsValues (readTextValue expected) := by
  intro bytes rest s h
  unfold readTextValue at h
  split at h
  · cases h
  · next b more hmore =>
    rw [hmore]
    split at h
    · next hb => exact hb ▸ .text (.of_readText h)
    · cases h

theorem readsValues_readFlag : ReadsValues readFlag := by
  intro bytes rest flag h
  unfold readFlag at h
  split at h
  · cases h
  · next b more hmore =>
    rw [hmore]
    split at h
    · split at h <;> cases h
      exact .of_readScalar ‹_›
    · cases h

theorem readsValues_readNatural (noun : String) : ReadsValues (readNatural noun) := by
  intro bytes rest n h
  have hnumber : readNumberValue noun bytes = .ok (.natural n, rest) := by
    unfold readNatural at h
    split at h <;> cases h
    assumption
  unfold readNumberValue at hnumber
  split at hnumber
  · cases hnumber
  · next b more hmore =>
    rw [hmore]
    split at hnumber
    · next hb => exact hb ▸ .negative (skipNumber_of_readNumber hnumber)
    split at hnumber
    · exact .positive (skipNumber_of_readNumber hnumber)
    · cases hnumber

theorem ReadsValues.optional {read : List UInt8 → Result α} (h : ReadsValues read) :
    ReadsValues (readOptional read) := by
  intro bytes rest o hread
  unfold readOptional at hread
  dsimp only at hread
  split at hread
  · split at hread <;> cases hread
    exact h _ _ _ ‹_›
  · next b more hmore =>
    split at hread
    · next hb =>
      split at hread
      · cases hread
      · next hword =>
        cases hread
        exact hmore ▸ hb ▸ .null hword
    · split at hread <;> cases hread
      exact h _ _ _ ‹_›

/-- Before a colon there are blanks alone. -/
theorem exists_blanks_of_readColon (h : readColon bytes = .ok rest) :
    ∃ ws, Blanks ws ∧ bytes = ws ++ 0x3a :: rest := by
  unfold readColon at h
  split at h
  · cases h
  · next b more hmore =>
    obtain ⟨ws, hws, rfl⟩ := exists_blanks_of_skipBlanks hmore
    split at h
    · next hb =>
      cases h
      exact ⟨ws, hws, hb ▸ rfl⟩
    · cases h

/-- A value behind a colon is that of a member. -/
theorem ReadsMembers.memberValue {read : List UInt8 → Result α} (h : ReadsValues read)
    (key : String) : ReadsMembers (memberValue key read) := by
  intro bytes rest a hread
  unfold Json.memberValue at hread
  split at hread
  · cases hread
  · next after hcolon =>
    obtain ⟨ws, hws, rfl⟩ := exists_blanks_of_readColon hcolon
    split at hread
    · cases hread
    · cases hread
      exact ⟨ws, after, hws, rfl, h _ _ _ ‹_›⟩

/-- A member that is passed over has a value. -/
theorem frontsMember_of_skipMember {fuel : Nat} {key : String} (h : skipMember fuel key bytes = .ok rest) :
    FrontsMember bytes rest := by
  unfold skipMember at h
  split at h
  · cases h
  · next after hcolon =>
    obtain ⟨ws, hws, rfl⟩ := exists_blanks_of_readColon hcolon
    split at h
    · cases h
    · cases h
      exact ⟨ws, after, hws, rfl, fronts_of_skipValue ‹_›⟩

/-- Before an item there is a gap, with a comma unless it is the first. -/
theorem exists_gap_of_nextItem {first : Bool} {found : List UInt8}
    (h : nextItem first bytes = .ok (some found)) : ∃ gap, Gap first gap ∧ bytes = gap ++ found := by
  unfold nextItem at h
  split at h
  · cases h
  · next b more hmore =>
    obtain ⟨ws, hws, rfl⟩ := exists_blanks_of_skipBlanks hmore
    split at h
    · cases h
    split at h
    -- before the first item there are blanks alone, and before a later one a comma as well
    · next hfirst =>
      cases h
      exact ⟨ws, hfirst ▸ .first hws, rfl⟩
    · next hfirst =>
      obtain rfl := Bool.eq_false_iff.2 hfirst
      split at h
      · next hcomma =>
        split at h
        · cases h
        · next c left hleft =>
          obtain ⟨ws', hws', rfl⟩ := exists_blanks_of_skipBlanks hleft
          split at h
          · cases h
          · cases h
            exact ⟨ws ++ 0x2c :: ws', .later hws hws', by simp [hcomma]⟩
      · cases h

/-- If there is no item, the list ends. -/
theorem end_of_nextItem {first : Bool} (h : nextItem first bytes = .ok none) :
    ∃ tail, skipBlanks bytes = 0x5d :: tail := by
  unfold nextItem at h
  split at h
  · cases h
  · next b tail htail =>
    split at h
    · next hb => exact ⟨tail, hb ▸ htail⟩
    split at h
    · cases h
    split at h
    · split at h
      · cases h
      · split at h <;> cases h
    · cases h

/-- Before a key there is a gap, with a comma unless it is the first. -/
theorem exists_gap_of_nextKey {first : Bool} {found : List UInt8}
    (h : nextKey first bytes = .ok (some found)) :
    ∃ gap, Gap first gap ∧ bytes = gap ++ 0x22 :: found := by
  unfold nextKey at h
  split at h
  · cases h
  · next b more hmore =>
    obtain ⟨ws, hws, rfl⟩ := exists_blanks_of_skipBlanks hmore
    split at h
    · cases h
    split at h
    · next hfirst =>
      split at h
      · next hb =>
        cases h
        exact ⟨ws, hfirst ▸ .first hws, hb ▸ rfl⟩
      · cases h
    · next hfirst =>
      obtain rfl := Bool.eq_false_iff.2 hfirst
      split at h
      · next hcomma =>
        split at h
        · cases h
        · next c left hleft =>
          obtain ⟨ws', hws', rfl⟩ := exists_blanks_of_skipBlanks hleft
          split at h
          · next hc =>
            cases h
            exact ⟨ws ++ 0x2c :: ws', .later hws hws', by simp [hcomma, hc]⟩
          -- what follows the comma is no key, whether it is the end of the object or not
          · split at h <;> cases h
      · cases h

/-- Before the end of a list there are blanks alone. -/
theorem exists_blanks_of_endList (h : endList bytes = .ok rest) :
    ∃ ws, Blanks ws ∧ bytes = ws ++ 0x5d :: rest := by
  unfold endList at h
  split at h
  · cases h
  · next b more hmore =>
    obtain ⟨ws, hws, rfl⟩ := exists_blanks_of_skipBlanks hmore
    split at h
    · next hb =>
      cases h
      exact ⟨ws, hws, hb ▸ rfl⟩
    · split at h
      · split at h <;> cases h
      · cases h

/-- Before the end of an object there are blanks alone. -/
theorem exists_blanks_of_endObject (h : endObject bytes = .ok rest) :
    ∃ ws, Blanks ws ∧ bytes = ws ++ 0x7d :: rest := by
  unfold endObject at h
  split at h
  · cases h
  · next b more hmore =>
    obtain ⟨ws, hws, rfl⟩ := exists_blanks_of_skipBlanks hmore
    split at h
    · next hb =>
      cases h
      exact ⟨ws, hws, hb ▸ rfl⟩
    · cases h

/-- Items that are read, up to the end of the list. -/
theorem standsPart_of_readItems {item : List UInt8 → Result α} (hitem : ReadsValues item)
    {fuel index : Nat} {read as : List α}
    (h : readItems item fuel index read bytes = .ok (as, rest)) :
    ∃ part, StandsPart (index == 0) part .list ∧ bytes = part ++ rest := by
  induction fuel generalizing index read bytes with
  | zero => cases h
  | succ fuel ih =>
    rw [readItems] at h
    split at h
    · cases h
    · cases h
      exact ⟨[], .nil _ _, rfl⟩
    · next found hfound =>
      obtain ⟨gap, hgap, rfl⟩ := exists_gap_of_nextItem hfound
      split at h
      · cases h
      · next hfirst =>
        obtain ⟨part, hpart, hrest⟩ := ih h
        exact StandsPart.item hgap (hitem _ _ _ hfirst) hrest hpart

/-- Members that are read, up to the end of the object. -/
theorem standsPart_of_readMembers {member : String → σ → List UInt8 → Result σ}
    (hmember : ∀ key s, ReadsMembers (member key s)) {fuel : Nat} {first : Bool} {s s' : σ}
    (h : readMembers member fuel first s bytes = .ok (s', rest)) :
    ∃ part, StandsPart first part .object ∧ bytes = part ++ rest := by
  induction fuel generalizing first s bytes with
  | zero => cases h
  | succ fuel ih =>
    rw [readMembers] at h
    split at h
    · cases h
    · cases h
      exact ⟨[], .nil _ _, rfl⟩
    · next found hfound =>
      obtain ⟨gap, hgap, rfl⟩ := exists_gap_of_nextKey hfound
      split at h
      · cases h
      · next hkey =>
        split at h
        · cases h
        · next hvalue =>
          obtain ⟨part, hpart, hrest⟩ := ih h
          exact StandsPart.member hgap (.of_readText hkey) (hmember _ _ _ _ _ hvalue) hrest hpart

/-- A list whose inside is read as items is a value. -/
theorem fronts_of_insideList {depth : Nat} {opened : List UInt8} {a : α}
    {body : Nat → List UInt8 → Result α}
    (hbody : ∀ {depth tail a}, body depth bytes = .ok (a, tail) →
      ∃ part, StandsPart true part .list ∧ bytes = part ++ tail)
    (h : insideList depth opened bytes body = .ok (a, rest)) : Fronts (0x5b :: bytes) rest := by
  unfold insideList at h
  split at h
  · cases h
  split at h
  · cases h
  · next tail hread =>
    obtain ⟨part, ⟨items, hitems⟩, rfl⟩ := hbody hread
    split at h
    · cases h
    · next hend =>
      cases h
      obtain ⟨ws, hws, rfl⟩ := exists_blanks_of_endList hend
      exact ⟨_, _, .list hitems hws, by simp⟩

/-- What is read as an object is one, if its inside is. -/
theorem fronts_of_insideObject {depth : Nat} {opened : List UInt8} {a : α}
    {body : Nat → List UInt8 → Result α}
    (hbody : ∀ {depth tail a}, body depth bytes = .ok (a, tail) →
      ∃ part, StandsPart true part .object ∧ bytes = part ++ tail)
    (h : insideObject depth opened bytes body = .ok (a, rest)) : Fronts (0x7b :: bytes) rest := by
  unfold insideObject at h
  split at h
  · cases h
  split at h
  · cases h
  · next tail hread =>
    obtain ⟨part, ⟨members, hmembers⟩, rfl⟩ := hbody hread
    split at h
    · cases h
    · next hend =>
      cases h
      obtain ⟨ws, hws, rfl⟩ := exists_blanks_of_endObject hend
      exact ⟨_, _, .object hmembers hws, by simp⟩

end

/-! ## Shapes -/

/-- At the end of the list no more is read. -/
theorem Fields.eq_of_readList (fuel : Nat) : ∀ {α : Type} (f : Fields α) {depth index : Nat}
    {expected : String} {bytes rest : List UInt8} {a : α}, (∃ tail, skipBlanks bytes = 0x5d :: tail) →
    f.readList fuel depth expected index bytes = .ok (a, rest) → bytes = rest
  | _, .nil, _, _, _, _, _, _, _, h => by
    rw [Fields.readList.eq_def] at h
    cases h
    rfl
  | _, .cons name s absent more, _, index, _, bytes, _, _, hend, h => by
    obtain ⟨tail, htail⟩ := hend
    rw [Fields.readList.eq_def] at h
    simp only [nextItem_end htail] at h
    split at h
    · cases h
    split at h
    · cases h
    · next hlater =>
      cases h
      exact Fields.eq_of_readList fuel more ⟨tail, htail⟩ hlater

/-- A record is read from a list of the values of its members, or from an object of the members. -/
theorem Shape.readsValues_record {α : Type} {fuel : Nat} {noun : String} {fields : Fields α}
    (hlist : ∀ {depth : Nat} {bytes rest : List UInt8} {a : α},
      fields.readList fuel depth (fields.expected noun) 0 bytes = .ok (a, rest) →
        ∃ part, StandsPart true part .list ∧ bytes = part ++ rest)
    (hmember : ∀ depth key slots, ReadsMembers (fields.readMember fuel depth key slots)) (depth : Nat) :
    ReadsValues ((Shape.record noun fields).read fuel depth) := by
  intro bytes rest a h
  rw [Shape.read] at h
  split at h
  · cases h
  · next b more hmore =>
    rw [hmore]
    split at h
    · next hb => exact hb ▸ fronts_of_insideList hlist h
    split at h
    · next hb =>
      refine hb ▸ fronts_of_insideObject (fun hread => ?_) h
      split at hread
      · cases hread
      · next hmembers =>
        split at hread
        · cases hread
        · cases hread
          exact standsPart_of_readMembers (fun key slots => hmember _ key slots) hmembers
    · cases h

mutual

/-- **What a shape is read from is a value.** -/
theorem Shape.readsValues (fuel : Nat) : ∀ {α : Type} (s : Shape α) {d : Nat} (depth : Nat),
    s.IsPlain d → ReadsValues (s.read fuel depth)
  | _, .text, _, _, _ => readsValues_readTextValue "a string"
  | _, .flag, _, _, _ => readsValues_readFlag
  | _, .natural noun, _, _, _ => readsValues_readNatural noun
  | _, .optional s, _, depth, hplain =>
    ReadsValues.optional (Shape.readsValues fuel s depth (by simpa only [Shape.IsPlain] using hplain))
  | _, .list s, d, depth, hplain => by
    obtain ⟨-, hplain⟩ : 0 < d ∧ s.IsPlain (d - 1) := by simpa only [Shape.IsPlain] using hplain
    intro bytes rest as h
    rw [Shape.read] at h
    split at h
    · cases h
    · next b more hmore =>
      rw [hmore]
      split at h
      · next hb =>
        refine hb ▸ fronts_of_insideList (fun hread => ?_) h
        exact standsPart_of_readItems (Shape.readsValues fuel s _ hplain) hread
      · cases h
  | _, .via make _ s, _, depth, hplain => by
    intro bytes rest a h
    rw [Shape.read] at h
    split at h
    · cases h
    · cases h
      exact Shape.readsValues fuel s depth (by simpa only [Shape.IsPlain] using hplain) _ _ _ ‹_›
  | _, .record noun fields, d, depth, hplain => by
    obtain ⟨-, hplain⟩ : 0 < d ∧ fields.ArePlain (d - 1) := by
      simpa only [Shape.IsPlain] using hplain
    exact Shape.readsValues_record (fun hread => Fields.standsPart fuel fields _ _ 0 hplain hread)
      (fun depth key slots => Fields.readsMembers fuel fields depth hplain key slots) depth

/-- What is read as a member of a record is one. -/
theorem Fields.readsMembers (fuel : Nat) : ∀ {α : Type} (f : Fields α) {d : Nat} (depth : Nat),
    f.ArePlain d → ∀ (key : String) (slots : f.Slots), ReadsMembers (f.readMember fuel depth key slots)
  | _, .nil, _, _, _, key, slots => by
    intro bytes rest s h
    rw [Fields.readMember] at h
    split at h
    · cases h
    · cases h
      exact frontsMember_of_skipMember ‹_›
  | _, .cons name s absent more, d, depth, hplain, key, slots => by
    obtain ⟨hs, hmore⟩ : s.IsPlain d ∧ more.ArePlain d := by simpa only [Fields.ArePlain] using hplain
    intro bytes rest state h
    rw [Fields.readMember] at h
    split at h
    · split at h
      · cases h
      split at h
      · cases h
      · cases h
        exact ReadsMembers.memberValue (Shape.readsValues fuel s depth hs) key _ _ _ ‹_›
    · split at h
      · cases h
      · cases h
        exact Fields.readsMembers fuel more depth hmore key slots.2 _ _ _ ‹_›

/-- The values of members are read from the items of a list. -/
theorem Fields.standsPart (fuel : Nat) : ∀ {α : Type} (f : Fields α) {d : Nat} (depth : Nat)
    (expected : String) (index : Nat) {bytes rest : List UInt8} {a : α}, f.ArePlain d →
    f.readList fuel depth expected index bytes = .ok (a, rest) →
      ∃ part, StandsPart (index == 0) part .list ∧ bytes = part ++ rest
  | _, .nil, _, _, _, _, bytes, rest, _, _, h => by
    rw [Fields.readList.eq_def] at h
    cases h
    exact ⟨[], .nil _ _, rfl⟩
  | _, .cons name s absent more, d, depth, expected, index, bytes, rest, a, hplain, h => by
    obtain ⟨hs, hmore⟩ : s.IsPlain d ∧ more.ArePlain d := by simpa only [Fields.ArePlain] using hplain
    rw [Fields.readList.eq_def] at h
    dsimp only at h
    split at h
    · cases h
    · next hnone =>
      split at h
      · cases h
      split at h
      · cases h
      · next hlater =>
        cases h
        exact ⟨[], .nil _ _, Fields.eq_of_readList fuel more (end_of_nextItem hnone) hlater⟩
    · next found hfound =>
      obtain ⟨gap, hgap, rfl⟩ := exists_gap_of_nextItem hfound
      split at h
      · cases h
      · next hfirst =>
        split at h
        · cases h
        · next hlater =>
          cases h
          obtain ⟨part, hpart, hrest⟩ := Fields.standsPart fuel more depth expected (index + 1) hmore hlater
          exact StandsPart.item hgap (Shape.readsValues fuel s depth hs _ _ _ hfirst) hrest hpart

end

/-- Behind a whole document there are blanks alone. -/
theorem blanks_of_readEnd (h : readEnd bytes = .ok ()) : Blanks bytes := by
  obtain ⟨ws, hws, heq⟩ := exists_blanks bytes
  unfold readEnd at h
  split at h
  · next hnil =>
    rw [hnil, List.append_nil] at heq
    exact heq ▸ hws
  · cases h

/-- A text that is read by a shape is a JSON text. -/
theorem Shape.exists_standsWholly {α : Type} {s : Shape α} {d : Nat} (hplain : s.IsPlain d) {a : α}
    (h : s.ofBytes bytes = .ok a) : ∃ t, StandsWholly bytes t := by
  unfold Shape.ofBytes wholly at h
  split at h
  · cases h
  · next rest hread =>
    split at h
    · cases h
    · next hend =>
      obtain ⟨core, t, hstands, hcore⟩ := Shape.readsValues _ s _ hplain _ _ _ hread
      obtain ⟨ws, hws, hbytes⟩ := exists_blanks bytes
      exact ⟨t, ws, core, rest, hws, hstands, blanks_of_readEnd hend, hcore ▸ hbytes⟩

/-- What is read of a JSON text is what its tree means. -/
theorem Shape.mean?_of_ofBytes {α : Type} {s : Shape α} {d : Nat} (hplain : s.IsPlain d)
    (hdepth : d < depthLimit) {t : Raw} (ht : StandsWholly bytes t) {a : α} (h : s.ofBytes bytes = .ok a) :
    s.mean? t = some a := by
  rw [← Shape.toOption_ofBytes hplain hdepth ht, h]
  rfl

/-- **What is read, exactly.** A shape reads those texts that are JSON and mean something to it, and
reads them as what they mean. -/
theorem Shape.ofBytes_eq_ok_iff {α : Type} {s : Shape α} {d : Nat} (hplain : s.IsPlain d)
    (hdepth : d < depthLimit) {a : α} :
    s.ofBytes bytes = .ok a ↔ ∃ t, StandsWholly bytes t ∧ s.mean? t = some a := by
  constructor
  · intro h
    obtain ⟨t, ht⟩ := Shape.exists_standsWholly hplain h
    exact ⟨t, ht, Shape.mean?_of_ofBytes hplain hdepth ht h⟩
  · rintro ⟨t, ht, hmean⟩
    rw [← Shape.toOption_ofBytes hplain hdepth ht] at hmean
    rcases hread : s.ofBytes bytes with e | b <;> rw [hread] at hmean <;> cases hmean
    rfl

end PullGate.Json
