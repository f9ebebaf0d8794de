import PullGate.Json.Decode
import PullGate.Proofs.Json.Skipping
/-!
# Texts are read as their trees are

Reading a text by a shape and reading its tree by the shape come to the same: if the tree stands for an
element, every spelling of it does (`Shape.ofBytes_of_decode`). Members that nobody asks for are the
ones that are passed over.
-/

namespace PullGate.Json

/-! ## Depth -/

mutual

/-- How deep lists and objects lie in one another. -/
def Value.depth : Value → Nat
  | .list items => Value.itemsDepth items + 1
  | .object members => Value.membersDepth members + 1
  | _ => 0

/-- How deep the deepest of items is. -/
def Value.itemsDepth : List Value → Nat
  | [] => 0
  | v :: rest => max v.depth (Value.itemsDepth rest)

/-- How deep the deepest of members is. -/
def Value.membersDepth : List (String × Value) → Nat
  | [] => 0
  | (_, v) :: rest => max v.depth (Value.membersDepth rest)

end

/-- Items made one by one nest no deeper than each of them may. -/
theorem Value.itemsDepth_map_le {α : Type} (tree : α → Value) {d : Nat} {as : List α}
    (h : ∀ a ∈ as, (tree a).depth ≤ d) : Value.itemsDepth (as.map tree) ≤ d := by
  induction as with
  | nil => exact Nat.zero_le d
  | cons a as ih =>
    exact Nat.max_le.2 ⟨h a List.mem_cons_self, ih fun b hb => h b (List.mem_cons_of_mem a hb)⟩

/-! ## Items -/

/-- Every spelling of the value of at most so many bytes is read as this, whatever stands around it. -/
def Reads {α : Type} (size : Nat) (read : List UInt8 → Result α) (v : Value) (a : α) : Prop :=
  ∀ ws bytes rest : List UInt8, Blanks ws → Spells bytes v → bytes.length ≤ size → Closed rest →
    read (ws ++ (bytes ++ rest)) = .ok (a, rest)

/-- Before the end of a list there is no further item. -/
theorem nextItem_end {first : Bool} {tail rest : List UInt8} (h : skipBlanks tail = 0x5d :: rest) :
    nextItem first tail = .ok none := by
  simp [nextItem, h]

/-- Behind a gap the next item is found where it begins. -/
theorem nextItem_gap {first : Bool} {gap bytes : List UInt8} {v : Value} (hgap : Gap first gap)
    (h : Spells bytes v) (rest : List UInt8) :
    nextItem first (gap ++ (bytes ++ rest)) = .ok (some (bytes ++ rest)) := by
  obtain ⟨b, more, rfl, hb⟩ := h.begins
  cases hgap with
  | first blanks =>
    simp [nextItem, skipBlanks_append_cons blanks hb.not_blank, hb.not_listEnd]
  | later blanks blanks' =>
    have hcomma : isBlank 0x2c = false := by decide
    simp [nextItem, skipBlanks_append_cons blanks hcomma,
      skipBlanks_append_cons blanks' hb.not_blank, hb.not_listEnd]

/-- A list has no more items than bytes. -/
theorem SpellsItems.length_le {first : Bool} {bytes : List UInt8} {items : List Value}
    (h : SpellsItems first bytes items) : items.length ≤ bytes.length := by
  induction items generalizing first bytes with
  | nil => exact Nat.zero_le _
  | cons v items ih =>
    cases h with
    | cons hgap item later =>
      have hlater := ih later
      have hitem := item.length_pos
      simp only [List.length_cons, List.length_append]
      omega

/-- Items are decoded one by one. -/
theorem decodeItems_map {α β : Type} {dec : Value → Except Cause β} {tree : α → Value} {f : α → β}
    (as : List α) (h : ∀ a ∈ as, dec (tree a) = .ok (f a)) :
    decodeItems dec (as.map tree) = .ok (as.map f) := by
  induction as with
  | nil => rfl
  | cons a as ih =>
    simp only [List.map_cons, decodeItems, h a List.mem_cons_self,
      ih fun b hb => h b (List.mem_cons_of_mem a hb)]

/-- A list that is decoded has its first item decoded, and the others. -/
theorem decodeItems_cons_eq_ok {α : Type} {dec : Value → Except Cause α} {v : Value}
    {items : List Value} {as : List α} (h : decodeItems dec (v :: items) = .ok as) :
    ∃ a more, dec v = .ok a ∧ decodeItems dec items = .ok more ∧ as = a :: more := by
  rw [decodeItems] at h
  rcases hv : dec v with c | a <;> rw [hv] at h
  · cases h
  · rcases hitems : decodeItems dec items with c | more <;> rw [hitems] at h
    · cases h
    · cases h
      exact ⟨a, more, rfl, rfl, rfl⟩

/-- Items are read up to the end of the list. -/
theorem readItems_spells {α : Type} (dec : Value → Except Cause α) {item : List UInt8 → Result α}
    (size : Nat) {depth : Nat}
    (hitem : ∀ v a, v.depth < depth → dec v = .ok a → Reads size item v a)
    (fuel index : Nat) (read : List α) {items : List Value} {bytes tail rest : List UInt8}
    {as : List α} (hspells : SpellsItems (index == 0) bytes items) (hsize : bytes.length ≤ size)
    (hdepth : Value.itemsDepth items < depth) (hfuel : items.length < fuel)
    (hdec : decodeItems dec items = .ok as) (htail : skipBlanks tail = 0x5d :: rest) :
    readItems item fuel index read (bytes ++ tail) = .ok (read.reverse ++ as, tail) := by
  induction items generalizing fuel index read bytes as with
  | nil =>
    cases hspells
    cases hdec
    obtain ⟨fuel, rfl⟩ := Nat.exists_eq_succ_of_ne_zero (Nat.ne_of_gt hfuel)
    simp [readItems, nextItem_end htail]
  | cons v items ih =>
    cases hspells with
    | @cons _ gap spelling more _ _ hgap hv later =>
      obtain ⟨fuel, rfl⟩ := Nat.exists_eq_succ_of_ne_zero (Nat.ne_of_gt (Nat.zero_lt_of_lt hfuel))
      simp only [List.length_append, List.length_cons] at hsize hfuel
      obtain ⟨hv_depth, hitems_depth⟩ := Nat.max_lt.1 hdepth
      obtain ⟨a, as, ha, has, rfl⟩ := decodeItems_cons_eq_ok hdec
      -- what follows the item is a comma or the end of the list
      have hread := hitem v a hv_depth ha [] _ _ blanks_nil hv (by omega)
        (later.closed (closed_of_skipBlanks htail (by decide)))
      rw [List.nil_append] at hread
      simp only [List.append_assoc, readItems, nextItem_gap hgap hv, hread]
      rw [ih fuel (index + 1) (a :: read) later (by omega) hitems_depth (by omega) has,
        List.reverse_cons, List.append_assoc]
      rfl

/-! ## Members -/

/-- A colon with blanks around it. -/
inductive Colon : List UInt8 → Prop
  | mk {ws ws' : List UInt8} (blanks : Blanks ws) (blanks' : Blanks ws') : Colon (ws ++ 0x3a :: ws')

/-- Every spelling of the value of at most so many bytes makes this of a state, from the colon before it
on. -/
def ReadsMember {σ : Type} (size : Nat) (read : List UInt8 → Result σ) (v : Value) (state : σ) :
    Prop :=
  ∀ colon bytes rest : List UInt8, Colon colon → Spells bytes v → bytes.length ≤ size →
    Closed rest → read (colon ++ (bytes ++ rest)) = .ok (state, rest)

/-- A colon is passed over, with the blanks before it. -/
theorem Colon.readColon {colon : List UInt8} (h : Colon colon) :
    ∃ ws, Blanks ws ∧ ∀ rest, readColon (colon ++ rest) = .ok (ws ++ rest) := by
  cases h with
  | @mk ws ws' blanks blanks' =>
    refine ⟨ws', blanks', fun rest => ?_⟩
    have hcolon : isBlank 0x3a = false := by decide
    simp [Json.readColon, skipBlanks_append_cons blanks hcolon]

/-- The value of a member is read as it would be anywhere else. -/
theorem Reads.memberValue {α : Type} {size : Nat} {read : List UInt8 → Result α} {v : Value} {a : α}
    (h : Reads size read v a) (key : String) : ReadsMember size (memberValue key read) v a := by
  intro colon bytes rest hcolon hspells hsize hrest
  obtain ⟨ws, hws, hread⟩ := hcolon.readColon
  simp only [Json.memberValue, hread, h _ _ _ hws hspells hsize hrest]

/-- A member that is passed over changes nothing. -/
theorem readsMember_skipMember {σ : Type} (fuel : Nat) (key : String) (v : Value) (state : σ) :
    ReadsMember fuel (fun bytes => match skipMember fuel key bytes with
      | .error f => .error f
      | .ok rest => .ok (state, rest)) v state := by
  intro colon bytes rest hcolon hspells hsize hrest
  obtain ⟨ws, hws, hread⟩ := hcolon.readColon
  simp only [skipMember, hread, hspells.skipValue hws hrest hsize]

/-- Before the end of an object there is no further key. -/
theorem nextKey_end {first : Bool} {tail rest : List UInt8} (h : skipBlanks tail = 0x7d :: rest) :
    nextKey first tail = .ok none := by
  simp [nextKey, h]

/-- A key is read up to the colon after it. -/
theorem nextKey_gap {first : Bool} {gap key : List UInt8} {name : String} (hgap : Gap first gap)
    (hkey : SpellsKey key name) :
    ∃ colon, Colon colon ∧ ∀ rest, ∃ chars,
      nextKey first (gap ++ (key ++ rest)) = .ok (some chars) ∧
        readText chars = .ok (name, colon ++ rest) := by
  cases hkey with
  | @mk chars ws ws' key hchars blanks blanks' =>
    refine ⟨_, .mk blanks blanks', fun rest =>
      ⟨chars ++ 0x22 :: (ws ++ 0x3a :: ws' ++ rest), ?_, hchars.readText _⟩⟩
    have hmark : isBlank 0x22 = false := by decide
    cases hgap with
    | first blanks => simp [nextKey, skipBlanks_append_cons blanks hmark]
    | later blanks blanks' =>
      have hcomma : isBlank 0x2c = false := by decide
      simp [nextKey, skipBlanks_append_cons blanks hcomma, skipBlanks_append_cons blanks' hmark]

/-- An object has no more members than bytes. -/
theorem SpellsMembers.length_le {first : Bool} {bytes : List UInt8} {members : List (String × Value)}
    (h : SpellsMembers first bytes members) : members.length ≤ bytes.length := by
  induction members generalizing first bytes with
  | nil => exact Nat.zero_le _
  | cons m members ih =>
    cases h with
    | cons hgap hkey value later =>
      have hlater := ih later
      have hvalue := value.length_pos
      simp only [List.length_cons, List.length_append]
      omega

/-- Members are read up to the end of the object. -/
theorem readMembers_spells {σ : Type} (dec : String → Value → σ → Except Cause σ)
    {member : String → σ → List UInt8 → Result σ} (size : Nat) {depth : Nat}
    (hmember : ∀ name v state state', v.depth < depth → dec name v state = .ok state' →
      ReadsMember size (member name state) v state')
    (fuel : Nat) {members : List (String × Value)} {first : Bool} {bytes tail rest : List UInt8}
    {state state' : σ} (hspells : SpellsMembers first bytes members) (hsize : bytes.length ≤ size)
    (hdepth : Value.membersDepth members < depth) (hfuel : members.length < fuel)
    (hdec : decodeMembers dec members state = .ok state') (htail : skipBlanks tail = 0x7d :: rest) :
    readMembers member fuel first state (bytes ++ tail) = .ok (state', tail) := by
  induction members generalizing fuel first bytes state with
  | nil =>
    cases hspells
    cases hdec
    obtain ⟨fuel, rfl⟩ := Nat.exists_eq_succ_of_ne_zero (Nat.ne_of_gt hfuel)
    simp [readMembers, nextKey_end htail]
  | cons m members ih =>
    cases hspells with
    | @cons _ gap key spelling more name v _ hgap hkey hv later =>
      obtain ⟨fuel, rfl⟩ := Nat.exists_eq_succ_of_ne_zero (Nat.ne_of_gt (Nat.zero_lt_of_lt hfuel))
      simp only [List.length_append, List.length_cons] at hsize hfuel
      obtain ⟨hv_depth, hmembers_depth⟩ := Nat.max_lt.1 hdepth
      rw [decodeMembers] at hdec
      rcases hstate : dec name v state with c | next <;> rw [hstate] at hdec
      · cases hdec
      obtain ⟨colon, hcolon, hnext⟩ := nextKey_gap hgap hkey
      obtain ⟨chars, hchars, htext⟩ := hnext (spelling ++ (more ++ tail))
      have hread := hmember name v state next hv_depth hstate _ _ _ hcolon hv (by omega)
        (later.closed (closed_of_skipBlanks htail (by decide)))
      simp only [List.append_assoc, readMembers, hchars, htext, hread]
      exact ih fuel later (by omega) hmembers_depth (by omega) hdec

/-! ## Lists and objects -/

/-- A list is read if its inside is, up to the bracket. -/
theorem insideList_of_body {α : Type} {depth : Nat} {opened bytes tail rest : List UInt8}
    {body : Nat → List UInt8 → Result α} {a : α} (hdepth : 1 < depth)
    (h : body (depth - 1) bytes = .ok (a, tail)) (htail : skipBlanks tail = 0x5d :: rest) :
    insideList depth opened bytes body = .ok (a, rest) := by
  simp [insideList, Nat.not_le.2 hdepth, h, endList, htail]

/-- An object is read if its inside is, up to the brace. -/
theorem insideObject_of_body {α : Type} {depth : Nat} {opened bytes tail rest : List UInt8}
    {body : Nat → List UInt8 → Result α} {a : α} (hdepth : 1 < depth)
    (h : body (depth - 1) bytes = .ok (a, tail)) (htail : skipBlanks tail = 0x7d :: rest) :
    insideObject depth opened bytes body = .ok (a, rest) := by
  simp [insideObject, Nat.not_le.2 hdepth, h, endObject, htail]

/-! ## Any value -/

/-- Items kept as they are are all kept. -/
theorem decodeItems_ok (items : List Value) : decodeItems (fun v => .ok v) items = .ok items := by
  induction items with
  | nil => rfl
  | cons v items ih => rw [decodeItems, ih]

/-- Members kept as they are are all kept, the last one first. -/
theorem decodeMembers_ok (members state : List (String × Value)) :
    decodeMembers (fun key v state => .ok ((key, v) :: state)) members state =
      .ok (members.reverse ++ state) := by
  induction members generalizing state with
  | nil => rfl
  | cons m members ih =>
    simp only [decodeMembers, ih, List.reverse_cons, List.append_assoc, List.singleton_append]

/-- A value that may be anything is read as itself. -/
theorem reads_readValue (fuel : Nat) {depth : Nat} {v : Value} (hdepth : v.depth < depth) :
    Reads fuel (readValue fuel depth) v v := by
  induction depth generalizing v with
  | zero => cases hdepth
  | succ depth ih =>
    intro ws bytes rest hws hspells hsize hrest
    rw [readValue, skipBlanks_append hws, hspells.skipBlanks]
    by_cases hv : v.isScalar = true
    · obtain ⟨b, more, rfl, -, hlist, hobject, hread, -⟩ := hspells.scalar hv hrest
      simp [hlist, hobject, hread]
    · cases hspells with
      | @list bytes ws' items spells blanks =>
        simp only [Value.depth, Nat.add_lt_add_iff_right] at hdepth
        simp only [List.length_append, List.length_cons, List.length_nil] at hsize
        obtain ⟨depth, rfl⟩ := Nat.exists_eq_succ_of_ne_zero (Nat.ne_of_gt (Nat.zero_lt_of_lt hdepth))
        have hitem (v a : Value) (hv : v.depth < depth + 1)
            (ha : (Except.ok v : Except Cause Value) = .ok a) :
            Reads fuel (readValue fuel (depth + 1)) v a := by
          cases ha
          exact ih hv
        have hend := skipBlanks_append_cons blanks (by decide : isBlank 0x5d = false) rest
        have hread := readItems_spells (fun v => .ok v) fuel hitem fuel 0 [] spells (by omega) hdepth
          (by have := spells.length_le; omega) (decodeItems_ok items) hend
        simp [hread, endList, hend]
      | @object bytes ws' members spells blanks =>
        simp only [Value.depth, Nat.add_lt_add_iff_right] at hdepth
        simp only [List.length_append, List.length_cons, List.length_nil] at hsize
        obtain ⟨depth, rfl⟩ := Nat.exists_eq_succ_of_ne_zero (Nat.ne_of_gt (Nat.zero_lt_of_lt hdepth))
        have hend := skipBlanks_append_cons blanks (by decide : isBlank 0x7d = false) rest
        simp only [List.cons_append, List.append_assoc, List.nil_append]
        rw [readMembers_spells (fun key v state => .ok ((key, v) :: state)) fuel ?_ fuel spells
          (by omega) hdepth (by have := spells.length_le; omega) (decodeMembers_ok members []) hend]
        · simp [endObject, hend]
        · rintro name v state _ hv ⟨⟩ colon bytes rest hcolon hspells hsize hrest
          simp only [Reads.memberValue (ih hv) name _ _ _ hcolon hspells hsize hrest]
      | _ => exact absurd rfl hv

/-! ## Values without parts -/

/-- A text is read as it. -/
theorem reads_readTextValue (size : Nat) (expected s : String) :
    Reads size (readTextValue expected) (.text s) s := by
  intro ws bytes rest hws hspells _ _
  rw [readTextValue, skipBlanks_append hws, hspells.skipBlanks]
  cases hspells with
  | text chars => simp [chars.readText]

theorem reads_readFlag (size : Nat) (b : Bool) : Reads size readFlag (.flag b) b := by
  intro ws bytes rest hws hspells _ _
  rw [readFlag, skipBlanks_append hws, hspells.skipBlanks]
  cases hspells with
  | yes => rfl
  | no => rfl

theorem reads_readNumberValue (size : Nat) (expected : String) (n : Number) :
    Reads size (readNumberValue expected) (.number n) n := by
  intro ws bytes rest hws hspells _ hrest
  rw [readNumberValue, skipBlanks_append hws, hspells.skipBlanks]
  cases hspells with
  | number h =>
    rcases h.read with ⟨b, more, rfl, hdigit, hread⟩ | ⟨more, rfl, hread⟩
    · have hread := readNumber_append hrest hread
      rw [List.cons_append] at hread ⊢
      simp only [ne_of_isDigit hdigit (c := 0x2d) (by decide), hdigit, if_false, if_true, hread]
    · exact readNumber_append hrest hread

theorem reads_readNatural (size : Nat) (noun : String) (n : UInt64) :
    Reads size (readNatural noun) (.number (.natural n)) n := by
  intro ws bytes rest hws hspells hsize hrest
  simp only [readNatural, reads_readNumberValue size noun _ _ _ _ hws hspells hsize hrest]

/-- A natural number below `2 ^ 63` is read as an integer. -/
theorem reads_readInteger_natural (size : Nat) {n : UInt64} (h : n.toNat < Nat.pow 2 63) :
    Reads size readInteger (.number (.natural n)) n.toNat := by
  intro ws bytes rest hws hspells hsize hrest
  simp only [readInteger, reads_readNumberValue size "i64" _ _ _ _ hws hspells hsize hrest, if_pos h]

theorem reads_readInteger_negative (size n : Nat) :
    Reads size readInteger (.number (.negative n)) (-n) := by
  intro ws bytes rest hws hspells hsize hrest
  simp only [readInteger, reads_readNumberValue size "i64" _ _ _ _ hws hspells hsize hrest]

/-- Null is read as nothing. -/
theorem reads_readUnit (size : Nat) (noun : String) (depth : Nat) :
    Reads size (readUnit noun depth) .null () := by
  intro ws bytes rest hws hspells _ hrest
  rw [readUnit, skipBlanks_append hws, hspells.skipBlanks]
  cases hspells
  rfl

/-- Null is read as nothing. -/
theorem reads_readOptional_null {α : Type} (size : Nat) (value : List UInt8 → Result α) :
    Reads size (readOptional value) .null none := by
  intro ws bytes rest hws hspells _ _
  simp only [readOptional, skipBlanks_append hws, hspells.skipBlanks]
  cases hspells
  rfl

/-- A value that is not null is read as it would be anywhere else. -/
theorem Reads.readOptional {α : Type} {size : Nat} {value : List UInt8 → Result α} {v : Value} {a : α}
    (h : Reads size value v a) (hv : v ≠ .null) : Reads size (readOptional value) v (some a) := by
  intro ws bytes rest hws hspells hsize hrest
  have hread := h _ _ _ hws hspells hsize hrest
  simp only [Json.readOptional, skipBlanks_append hws, hspells.skipBlanks, hread]
  -- only null begins with its letter
  obtain ⟨b, more, rfl, hb⟩ := hspells.begins
  simp only [List.cons_append, if_neg fun he => hv (hb.null_of_eq he)]

/-! ## Names -/

/-- A text that is known is read as what it stands for. -/
theorem reads_readTag {α : Type} (size : Nat) (known : List String) (find : String → Option α)
    {s : String} {a : α} (h : find s = some a) : Reads size (readTag known find) (.text s) (s, a) := by
  intro ws bytes rest hws hspells hsize hrest
  simp only [readTag, reads_readTextValue size "variant identifier" s _ _ _ hws hspells hsize hrest, h]

/-- A key is read as a text is. -/
theorem SpellsKey.readTag {α : Type} {key : List UInt8} {name : String} (hkey : SpellsKey key name)
    (known : List String) (find : String → Option α) {a : α} (h : find name = some a) :
    ∃ colon, Colon colon ∧ ∀ ws rest, Blanks ws →
      readTag known find (ws ++ (key ++ rest)) = .ok ((name, a), colon ++ rest) := by
  cases hkey with
  | @mk chars ws ws' key hchars blanks blanks' =>
    refine ⟨_, .mk blanks blanks', fun before rest hbefore => ?_⟩
    have hmark : isBlank 0x22 = false := by decide
    simp only [List.append_assoc, List.cons_append, Json.readTag, readTextValue,
      skipBlanks_append_cons hbefore hmark, if_true, hchars.readText, h]

/-- The name that is found stands alone or as the key of a null. -/
theorem decodeName_eq_ok {α : Type} {values : List α} {name : α → String} {v : Value} {a : α}
    (h : decodeName values name v = .ok a) :
    ∃ s, values.find? (fun a => name a = s) = some a ∧ (v = .text s ∨ v = .object [(s, .null)]) := by
  unfold decodeName at h
  split at h
  · rename_i s
    dsimp only at h
    split at h
    · rename_i hfind
      cases h
      exact ⟨s, hfind, .inl rfl⟩
    · cases h
  · rename_i key content
    rcases hfind : values.find? (fun a => name a = key) with _ | b <;> simp only [hfind] at h
    · cases h
    · cases content with
      | null =>
        cases h
        exact ⟨key, hfind, .inr rfl⟩
      | _ => cases h
  · cases h
  · cases h

/-- A name is read alone or as the key of a null. -/
theorem reads_readName {α : Type} (size depth : Nat) (values : List α) (name : α → String) {v : Value}
    {a : α} (hdepth : v.depth < depth) (h : decodeName values name v = .ok a) :
    Reads size (readName (values.map name) (fun text => values.find? fun a => name a = text) depth)
      v a := by
  intro ws bytes rest hws hspells hsize hrest
  obtain ⟨s, hfind, rfl | rfl⟩ := decodeName_eq_ok h
  · have htag := reads_readTag size (values.map name) (fun text => values.find? fun a => name a = text)
      hfind [] _ _ blanks_nil hspells hsize hrest
    rw [readName, skipBlanks_append hws, hspells.skipBlanks]
    cases hspells with
    | text chars =>
      simp only [List.nil_append, List.cons_append] at htag ⊢
      simp only [if_true, htag]
  · rw [readName, skipBlanks_append hws, hspells.skipBlanks]
    cases hspells with
    | @object _ ws' _ spells blanks =>
      cases spells with
      | @cons _ gap key spelling more _ _ _ hgap hkey hnull hmore =>
        cases hgap with
        | first hgap =>
        cases hmore
        cases hnull
        obtain ⟨colon, hcolon, htag⟩ :=
          hkey.readTag (values.map name) (fun text => values.find? fun a => name a = text) hfind
        obtain ⟨ws'', hws'', hread⟩ := hcolon.readColon
        have hn : isBlank 0x6e = false := by decide
        have hend : isBlank 0x7d = false := by decide
        have hdeep : ¬ depth ≤ 1 := Nat.not_le.2 hdepth
        simp only [List.cons_append, List.append_assoc, List.nil_append]
        simp only [show ¬ (0x7b : UInt8) = 0x22 by decide, if_false, if_true, hdeep, htag gap _ hgap,
          hread, readNull, skipBlanks_append_cons hws'' hn]
        have hword (tail : List UInt8) :
            readWord ['u', 'l', 'l'] (0x75 :: 0x6c :: 0x6c :: tail) = .ok tail := rfl
        simp only [hword, endVariant, skipBlanks_append_cons blanks hend, if_true]

/-! ## Shapes -/

/-- A list is read if its items are. -/
theorem Shape.reads_list {α : Type} (fuel : Nat) {s : Shape α} {depth : Nat} {items : List Value}
    {as : List α}
    (hitem : ∀ v a, v.depth < depth - 1 → s.decode v = .ok a →
      Reads fuel (s.read fuel (depth - 1)) v a)
    (hdepth : (Value.list items).depth < depth)
    (h : decodeItems (fun v => s.decode v) items = .ok as) :
    Reads fuel ((Shape.list s).read fuel depth) (.list items) as := by
  intro ws bytes rest hws hspells hsize hrest
  simp only [Shape.read, skipBlanks_append hws, hspells.skipBlanks]
  cases hspells with
  | @list bytes ws' _ spells blanks =>
    simp only [Value.depth] at hdepth
    simp only [List.length_append, List.length_cons, List.length_nil] at hsize
    have hcount := spells.length_le
    have hend := skipBlanks_append_cons blanks (by decide : isBlank 0x5d = false) rest
    have hread := readItems_spells (fun v => s.decode v) fuel hitem fuel 0 [] spells (by omega)
      (by omega) (by omega) h hend
    simp only [List.cons_append, List.append_assoc, List.nil_append, if_true]
    exact insideList_of_body (by omega) hread hend

/-- A record is read from an object if its members are. -/
theorem Shape.reads_record {α : Type} (fuel : Nat) {noun : String} {fields : Fields α} {depth : Nat}
    {members : List (String × Value)} {slots : fields.Slots} {a : α}
    (hmember : ∀ name v slots slots', v.depth < depth - 1 →
      fields.decodeMember name v slots = .ok slots' →
        ReadsMember fuel (fields.readMember fuel (depth - 1) name slots) v slots')
    (hdepth : (Value.object members).depth < depth)
    (hslots : decodeMembers (fun key v slots => fields.decodeMember key v slots) members fields.empty =
      .ok slots) (hfinish : fields.finish slots = .ok a) :
    Reads fuel ((Shape.record noun fields).read fuel depth) (.object members) a := by
  intro ws bytes rest hws hspells hsize hrest
  simp only [Shape.read, skipBlanks_append hws, hspells.skipBlanks]
  cases hspells with
  | @object bytes ws' _ spells blanks =>
    simp only [Value.depth] at hdepth
    simp only [List.length_append, List.length_cons, List.length_nil] at hsize
    have hcount := spells.length_le
    have hend := skipBlanks_append_cons blanks (by decide : isBlank 0x7d = false) rest
    have hread := readMembers_spells (fun key v slots => fields.decodeMember key v slots) fuel
      hmember fuel spells (by omega) (by omega) (by omega) hslots hend
    simp only [List.cons_append, List.append_assoc, List.nil_append, if_true,
      show ¬ (0x7b : UInt8) = 0x5b by decide, if_false]
    exact insideObject_of_body (by omega) (by simp only [hread, hfinish]) hend

/-- A record is read from a list if the values of its members are. -/
theorem Shape.reads_record_list {α : Type} (fuel : Nat) {noun : String} {fields : Fields α}
    {depth : Nat} {items : List Value} {a : α}
    (hread : ∀ {bytes tail rest : List UInt8}, Value.itemsDepth items < depth - 1 →
      SpellsItems true bytes items → bytes.length ≤ fuel → skipBlanks tail = 0x5d :: rest →
        fields.readList fuel (depth - 1) (fields.expected noun) 0 (bytes ++ tail) = .ok (a, tail))
    (hdepth : (Value.list items).depth < depth) :
    Reads fuel ((Shape.record noun fields).read fuel depth) (.list items) a := by
  intro ws bytes rest hws hspells hsize hrest
  simp only [Shape.read, skipBlanks_append hws, hspells.skipBlanks]
  cases hspells with
  | @list bytes ws' _ spells blanks =>
    simp only [Value.depth] at hdepth
    simp only [List.length_append, List.length_cons, List.length_nil] at hsize
    have hend := skipBlanks_append_cons blanks (by decide : isBlank 0x5d = false) rest
    simp only [List.cons_append, List.append_assoc, List.nil_append, if_true]
    exact insideList_of_body (by omega) (hread (by omega) spells (by omega) hend) hend

mutual

/-- **Texts are read as their trees are.** If the tree stands for an element of the shape, every spelling
of it is read as that element. -/
theorem Shape.reads (fuel : Nat) : ∀ {α : Type} (s : Shape α) {depth : Nat} {v : Value} {a : α},
    v.depth < depth → s.decode v = .ok a → Reads fuel (s.read fuel depth) v a
  | _, .text, depth, v, a, hdepth, h => by
    simp only [Shape.decode] at h
    split at h
    · cases h
      exact reads_readTextValue fuel "a string" _
    · cases h
  | _, .flag, depth, v, a, hdepth, h => by
    simp only [Shape.decode] at h
    split at h
    · cases h
      exact reads_readFlag fuel _
    · cases h
  | _, .natural noun, depth, v, a, hdepth, h => by
    simp only [Shape.decode] at h
    split at h
    · cases h
      exact reads_readNatural fuel noun _
    · cases h
    · cases h
  | _, .integer, depth, v, a, hdepth, h => by
    obtain ⟨n, hlt, rfl, rfl⟩ | ⟨n, rfl, rfl⟩ := Shape.decode_integer_eq_ok h
    · exact reads_readInteger_natural fuel hlt
    · exact reads_readInteger_negative fuel n
  | _, .unit noun, depth, v, a, hdepth, h => by
    simp only [Shape.decode] at h
    unfold decodeUnit at h
    split at h
    · exact reads_readUnit fuel noun depth
    · cases h
  | _, .any, depth, v, a, hdepth, h => by
    simp only [Shape.decode] at h
    cases h
    exact reads_readValue fuel hdepth
  | _, .optional s, depth, v, a, hdepth, h => by
    obtain ⟨rfl, rfl⟩ | ⟨hnull, b, hb, rfl⟩ := Shape.decode_optional_eq_ok h
    · exact reads_readOptional_null fuel _
    · exact Reads.readOptional (Shape.reads fuel s hdepth hb) hnull
  | _, .list s, depth, v, a, hdepth, h => by
    simp only [Shape.decode] at h
    split at h
    · exact Shape.reads_list fuel (fun v a hv ha => Shape.reads fuel s hv ha) hdepth h
    · cases h
  | _, .enumeration values name, depth, v, a, hdepth, h => by
    simp only [Shape.decode] at h
    exact reads_readName fuel depth values name hdepth h
  | _, .record noun fields, depth, v, a, hdepth, h => by
    obtain ⟨members, slots, rfl, hslots, hfinish⟩ | ⟨items, rfl, hlist, hlength⟩ :=
      Shape.decode_record_eq_ok h
    · exact Shape.reads_record fuel
        (fun name v slots slots' hv hmember => Fields.readsMember fuel fields name hv hmember)
        hdepth hslots hfinish
    · exact Shape.reads_record_list fuel
        (fun hdepth hspells hsize htail => Fields.readsList fuel fields (fields.expected noun) 0
          hdepth hlist hlength hspells hsize htail) hdepth
  | _, .via make _ s, depth, v, a, hdepth, h => by
    simp only [Shape.decode] at h
    rcases hv : s.decode v with c | b <;> rw [hv] at h
    · cases h
    · cases h
      intro ws bytes rest hws hspells hsize hrest
      simp only [Shape.read, Shape.reads fuel s hdepth hv _ _ _ hws hspells hsize hrest]

/-- A member is read as it is taken from a tree. -/
theorem Fields.readsMember (fuel : Nat) : ∀ {α : Type} (f : Fields α) {depth : Nat} (name : String)
    {v : Value} {slots slots' : f.Slots}, v.depth < depth → f.decodeMember name v slots = .ok slots' →
    ReadsMember fuel (f.readMember fuel depth name slots) v slots'
  | _, .nil, depth, name, v, slots, slots', hdepth, h => by
    simp only [Fields.decodeMember] at h
    cases h
    exact readsMember_skipMember fuel name v slots
  | _, .cons name' s absent more, depth, name, v, slots, slots', hdepth, h => by
    intro colon bytes rest hcolon hspells hsize hrest
    simp only [Fields.decodeMember, Fields.readMember] at h ⊢
    split at h
    · rename_i hname
      split at h
      · cases h
      · rename_i hslot
        rcases hv : s.decode v with c | a <;> rw [hv] at h
        · cases h
        cases h
        have hread := (Shape.reads fuel s hdepth hv).memberValue name _ _ _ hcolon hspells hsize hrest
        rw [if_pos hname, if_neg hslot]
        simp only [hread]
    · rename_i hname
      rcases hv : more.decodeMember name v slots.2 with c | others <;> rw [hv] at h
      · cases h
      cases h
      have hread := Fields.readsMember fuel more name hdepth hv _ _ _ hcolon hspells hsize hrest
      rw [if_neg hname]
      simp only [hread]

/-- The members of a list of their values are read as they are taken from a tree. -/
theorem Fields.readsList (fuel : Nat) : ∀ {α : Type} (f : Fields α) {depth : Nat} (expected : String)
    (index : Nat) {items : List Value} {a : α} {bytes tail rest : List UInt8},
    Value.itemsDepth items < depth → f.decodeList expected index items = .ok a →
    items.length ≤ f.size → SpellsItems (index == 0) bytes items → bytes.length ≤ fuel →
    skipBlanks tail = 0x5d :: rest →
    f.readList fuel depth expected index (bytes ++ tail) = .ok (a, tail)
  | _, .nil, depth, expected, index, items, a, bytes, tail, rest, hdepth, h, hlength, hspells, hsize,
      htail => by
    obtain rfl := List.eq_nil_of_length_eq_zero (Nat.le_zero.1 hlength)
    cases hspells
    cases h
    rfl
  | _, .cons name s absent more, depth, expected, index, [], a, bytes, tail, rest, hdepth, h,
      hlength, hspells, hsize, htail => by
    cases hspells
    simp only [List.nil_append, Fields.decodeList, Fields.readList, nextItem_end htail] at h ⊢
    rcases absent with _ | a
    · cases h
    simp only at h
    rcases hmore : more.decodeList expected (index + 1) [] with c | b <;> rw [hmore] at h
    · cases h
    cases h
    have hread := Fields.readsList fuel more expected (index + 1) hdepth hmore (Nat.zero_le _) .nil
      (Nat.zero_le _) htail
    simp only [List.nil_append] at hread
    simp only [hread]
  | _, .cons name s absent more, depth, expected, index, v :: items, a, bytes, tail, rest, hdepth, h,
      hlength, hspells, hsize, htail => by
    cases hspells with
    | @cons _ gap spelling later _ _ hgap hv hlater =>
      obtain ⟨hv_depth, hitems_depth⟩ := Nat.max_lt.1 hdepth
      simp only [List.length_append] at hsize
      simp only [Fields.decodeList] at h
      rcases hdec : s.decode v with c | a <;> rw [hdec] at h
      · cases h
      simp only at h
      rcases hmore : more.decodeList expected (index + 1) items with c | b <;> rw [hmore] at h
      · cases h
      cases h
      have hfirst := Shape.reads fuel s hv_depth hdec [] _ _ blanks_nil hv (by omega)
        (hlater.closed (closed_of_skipBlanks htail (by decide)))
      have hread := Fields.readsList fuel more expected (index + 1) hitems_depth hmore
        (Nat.le_of_succ_le_succ hlength) hlater (by omega) htail
      rw [List.nil_append] at hfirst
      simp only [List.append_assoc, Fields.readList, nextItem_gap hgap hv, hfirst, hread]

end

/-! ## Whole texts -/

/-- A document is read if its value is. -/
theorem wholly_of_reads {α : Type} {front : Nat → List UInt8 → Result α} {bytes : List UInt8}
    {v : Value} {a : α} (h : SpellsWhole bytes v)
    (hreads : Reads bytes.length (front bytes.length) v a) : wholly front bytes = .ok a := by
  obtain ⟨ws, spelling, ws', hws, hspells, hws', rfl⟩ := h
  have hblanks : skipBlanks ws' = [] := by
    have := skipBlanks_append hws' []
    rwa [List.append_nil] at this
  have hread := hreads ws spelling ws' hws hspells
    (by simp only [List.length_append]; omega)
    (by have := closed_append hws' closed_nil; rwa [List.append_nil] at this)
  simp only [wholly, hread, readEnd, hblanks]

/-- What the tree of a text stands for, the text stands for. -/
theorem Shape.ofBytes_of_decode {α : Type} {s : Shape α} {bytes : List UInt8} {v : Value} {a : α}
    (h : SpellsWhole bytes v) (hdepth : v.depth < depthLimit) (hdec : s.decode v = .ok a) :
    s.ofBytes bytes = .ok a :=
  wholly_of_reads h (Shape.reads bytes.length s hdepth hdec)

end PullGate.Json
