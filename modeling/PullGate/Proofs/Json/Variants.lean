import PullGate.Json.Form
import PullGate.Proofs.Json.Keeping
/-!
# Variants that are written and read

A value with variants is written with the name of its variant inside, beside or around its content, and
the name leads back to the variant. `Form.ofBytes_write` says that the text that is written for an
element which its form keeps is read as the element.
-/

namespace PullGate.Json

variable {α : Type}

/-! ## Contents -/

namespace Branches

/-- The variants keep the element: the first that has it keeps what is in it, and leaves out no more than
can be put in again. -/
def Keeps : Branches α → Nat → α → Prop
  | .nil, _, _ => False
  | .cons _ s make view rest, d, a => match view a with
    | some b => s.Keeps d b ∧ make b = a ∧ ∀ c, s.absent = some c → c = b
    | none => rest.Keeps d a

/-- The element is written under this name with this value in it; `bare` says that the value may be left
out. From the name and the value the element is found again. -/
structure Writes (b : Branches α) (d : Nat) (a : α) (tag : String) (v : Value) (bare : Bool) :
    Prop where
  write : b.write a = some (tag, v, bare)
  mem_tags : tag ∈ b.tags
  decodeContent : b.decodeContent tag v = .ok a
  withoutContent : bare = true → b.withoutContent tag = some a
  isExact : v.isExact = true
  depth_le : v.depth ≤ d

/-- Every value is written under one of its tags. -/
theorem exists_writes {b : Branches α} {d : Nat} {a : α} (hnodup : b.tags.Nodup) (h : b.Keeps d a) :
    ∃ tag v bare, b.Writes d a tag v bare := by
  induction b with
  | nil => exact h.elim
  | @cons β tag s make view rest ih =>
    obtain ⟨htag, hrest⟩ := List.nodup_cons.1 hnodup
    rw [Keeps] at h
    rcases hview : view a with _ | c <;> simp only [hview] at h
    · obtain ⟨tag', v, bare, hwrites⟩ := ih hrest h
      have hne : tag ≠ tag' := fun he => htag (he ▸ hwrites.mem_tags)
      refine ⟨tag', v, bare, ?_, List.mem_cons_of_mem _ hwrites.mem_tags, ?_, fun hbare => ?_,
        hwrites.isExact, hwrites.depth_le⟩
      · rw [Branches.write, hview, hwrites.write]
      · rw [Branches.decodeContent, if_neg hne, hwrites.decodeContent]
      · rw [Branches.withoutContent, if_neg hne, hwrites.withoutContent hbare]
    · obtain ⟨hkeeps, rfl, habsent⟩ := h
      refine ⟨tag, s.write c, s.absent.isSome, ?_, List.mem_cons_self, ?_, fun hbare => ?_,
        s.isExact_write hkeeps, s.depth_write_le hkeeps⟩
      · rw [Branches.write, hview]
      · simp only [Branches.decodeContent, if_true, s.decode_write hkeeps]
      · obtain ⟨c', hc'⟩ := Option.isSome_iff_exists.1 hbare
        rw [Branches.withoutContent, if_pos rfl, hc', habsent c' hc']
        rfl

/-- A known tag is found. -/
theorem find?_eq_some {b : Branches α} {tag : String} (h : tag ∈ b.tags) : b.find? tag = some tag := by
  rw [find?]
  rcases hfind : b.tags.find? (fun t => t = tag) with _ | t
  · exact absurd (List.find?_eq_none.1 hfind tag h) (by simp)
  · have heq := List.find?_some hfind
    rw [of_decide_eq_true heq]

/-- What is in a variant is read as its tree is. -/
theorem reads_readContent (fuel : Nat) {b : Branches α} {depth : Nat} {tag : String} {v : Value} {a : α}
    (hdepth : v.depth < depth) (h : b.decodeContent tag v = .ok a) :
    Reads fuel (b.readContent fuel depth tag) v a := by
  intro ws bytes rest hws hspells hsize hrest
  induction b with
  | nil => cases h
  | cons t s make view more ih =>
    rw [decodeContent] at h
    rw [readContent]
    split at h
    · rcases hdec : s.decode v with c | x <;> simp only [hdec] at h
      · cases h
      · cases h
        simp only [if_true, *, s.reads fuel hdepth hdec _ _ _ hws hspells hsize hrest]
    · rename_i hne
      rw [if_neg hne, ih h]

end Branches

/-! ## The name among the members -/

/-- One member taken from a tree, as it is read from a text. -/
def decodeInsideMember (key : String) (b : Branches α) (name : String) (v : Value)
    (state : InsideState) : Except Cause InsideState :=
  if name = key then
    if state.tag.isSome then .error (.duplicateField key)
    else match v with
    | .text s => match b.find? s with
      | some tag => .ok { state with tag := some tag }
      | none => .error (.unknownVariant s b.tags)
    | other => .error (.wrongType (.ofValue other) "variant identifier")
  else .ok { state with members := (name, v) :: state.members }

/-- A member beside the tag is read as it is decoded. -/
theorem readsMember_readInsideMember (fuel : Nat) {depth : Nat} (key : String) (b : Branches α)
    {name : String} {v : Value} {state state' : InsideState} (hdepth : v.depth < depth)
    (h : decodeInsideMember key b name v state = .ok state') :
    ReadsMember fuel (readInsideMember fuel depth key b name state) v state' := by
  intro colon bytes rest hcolon hspells hsize hrest
  unfold decodeInsideMember at h
  unfold readInsideMember
  split at h
  · rename_i hname
    rw [if_pos hname]
    split at h
    · cases h
    · rename_i hnone
      rw [if_neg hnone]
      split at h
      · split at h
        · rename_i hfind
          cases h
          have hread := (reads_readTag fuel b.tags b.find? hfind).memberValue name _ _ _ hcolon hspells
            hsize hrest
          simp only [hread]
        · cases h
      · cases h
  · rename_i hname
    cases h
    have hread := (reads_readValue fuel hdepth).memberValue name _ _ _ hcolon hspells hsize hrest
    simp only [if_neg hname, hread]

/-- Members beside the tag are all kept. -/
theorem decodeMembers_inside {key : String} {b : Branches α} {members : List (String × Value)}
    (h : key ∉ members.map (·.1)) (state : InsideState) :
    decodeMembers (decodeInsideMember key b) members state =
      .ok { state with members := members.reverse ++ state.members } := by
  induction members generalizing state with
  | nil => rfl
  | cons m members ih =>
    obtain ⟨name, v⟩ := m
    simp only [List.map_cons, List.mem_cons, not_or] at h
    simp only [decodeMembers, decodeInsideMember, if_neg (Ne.symm h.1), ih h.2, List.reverse_cons,
      List.append_assoc, List.singleton_append]

/-- The name and the other members are told apart, if the name comes first and only once. -/
theorem reads_readInside (fuel : Nat) {depth : Nat} (noun : String) {key tag : String} {b : Branches α}
    {members : List (String × Value)} (htag : tag ∈ b.tags) (hkey : key ∉ members.map (·.1))
    (hdepth : (Value.object ((key, .text tag) :: members)).depth < depth) :
    Reads fuel (readInside fuel depth noun key b) (.object ((key, .text tag) :: members))
      (tag, .object members) := by
  intro ws bytes rest hws hspells hsize hrest
  simp only [readInside, skipBlanks_append hws, hspells.skipBlanks]
  cases hspells with
  | @object bytes ws' _ spells blanks =>
    simp only [Value.depth] at hdepth
    simp only [List.length_append, List.length_cons, List.length_nil] at hsize
    have hcount := spells.length_le
    have hend := skipBlanks_append_cons blanks (by decide : isBlank 0x7d = false) rest
    have hdec : decodeMembers (decodeInsideMember key b) ((key, .text tag) :: members) ⟨none, []⟩ =
        .ok ⟨some tag, members.reverse⟩ := by
      simp only [decodeMembers, decodeInsideMember, if_true, Option.isSome_none, Bool.false_eq_true,
        if_false, Branches.find?_eq_some htag]
      rw [decodeMembers_inside hkey, List.append_nil]
    have hread := readMembers_spells (decodeInsideMember key b) fuel
      (fun name v state state' hv h => readsMember_readInsideMember fuel key b hv h) fuel spells
      (by omega) (by omega : Value.membersDepth _ < depth - 1) (by omega) hdec hend
    simp only [List.cons_append, List.append_assoc, List.nil_append, if_true]
    exact insideObject_of_body (by omega) (by simp only [hread, List.reverse_reverse]) hend

/-! ## The name beside the content -/

/-- One member taken from a tree, as it is read from a text, where the name comes before the content. -/
def decodeBesideMember (key content : String) (b : Branches α) (name : String) (v : Value)
    (state : BesideState α) : Except Cause (BesideState α) :=
  if name = key then
    match state, v with
    | .start, .text s => match b.find? s with
      | some tag => .ok (.tagged tag)
      | none => .error (.unknownVariant s b.tags)
    | _, _ => .error (.duplicateField key)
  else if name = content then
    match state with
    | .tagged tag => match b.decodeContent tag v with
      | .error c => .error c
      | .ok a => .ok (.complete a)
    | _ => .error (.duplicateField content)
  else .ok state

/-- The name beside a content is read alone. -/
theorem reads_readName_text (size depth : Nat) {b : Branches α} {s tag : String}
    (h : b.find? s = some tag) : Reads size (readName b.tags b.find? depth) (.text s) tag := by
  intro ws bytes rest hws hspells hsize hrest
  have htag := reads_readTag size b.tags b.find? h [] _ _ blanks_nil hspells hsize hrest
  rw [readName, skipBlanks_append hws, hspells.skipBlanks]
  cases hspells with
  | text chars =>
    simp only [List.nil_append, List.cons_append] at htag ⊢
    simp only [if_true, htag]

/-- A member that is the tag or the content is read as it is decoded. -/
theorem readsMember_readBesideMember (fuel : Nat) {depth : Nat} (key content : String) (b : Branches α)
    {name : String} {v : Value} {state state' : BesideState α} (hdepth : v.depth < depth)
    (h : decodeBesideMember key content b name v state = .ok state') :
    ReadsMember fuel (readBesideMember fuel depth key content b name state) v state' := by
  intro colon bytes rest hcolon hspells hsize hrest
  unfold decodeBesideMember at h
  unfold readBesideMember
  split at h
  · rename_i hname
    rw [if_pos hname]
    split at h
    · split at h
      · rename_i hfind
        cases h
        have hread := (reads_readName_text fuel depth hfind).memberValue name _ _ _ hcolon hspells
          hsize hrest
        simp only [hread]
      · cases h
    · cases h
  · rename_i hname
    rw [if_neg hname]
    split at h
    · rename_i hcontent
      rw [if_pos hcontent]
      split at h
      · rename_i tag
        rcases hdec : b.decodeContent tag v with c | a <;> simp only [hdec] at h
        · cases h
        · cases h
          have hread := (Branches.reads_readContent fuel hdepth hdec).memberValue name _ _ _ hcolon
            hspells hsize hrest
          simp only [hread]
      · cases h
    · rename_i hcontent
      cases h
      rw [if_neg hcontent]
      exact readsMember_skipMember fuel name v state _ _ _ hcolon hspells hsize hrest

/-- An object whose members leave a complete state is read as what the state holds. -/
theorem reads_readBeside (fuel : Nat) {depth : Nat} (noun : String) {key content : String}
    {b : Branches α} {members : List (String × Value)} {state : BesideState α} {a : α}
    (hdec : decodeMembers (decodeBesideMember key content b) members .start = .ok state)
    (hfinish : state.finish key content b = .ok a) (hdepth : (Value.object members).depth < depth) :
    Reads fuel (readBeside fuel depth noun key content b) (.object members) a := by
  intro ws bytes rest hws hspells hsize hrest
  simp only [readBeside, skipBlanks_append hws, hspells.skipBlanks]
  cases hspells with
  | @object bytes ws' _ spells blanks =>
    simp only [Value.depth] at hdepth
    simp only [List.length_append, List.length_cons, List.length_nil] at hsize
    have hcount := spells.length_le
    have hend := skipBlanks_append_cons blanks (by decide : isBlank 0x7d = false) rest
    have hread := readMembers_spells (decodeBesideMember key content b) fuel
      (fun name v state state' hv h => readsMember_readBesideMember fuel key content b hv h) fuel
      spells (by omega) (by omega : Value.membersDepth _ < depth - 1) (by omega) hdec hend
    simp only [List.cons_append, List.append_assoc, List.nil_append, if_true]
    exact insideObject_of_body (by omega) (by simp only [hread, hfinish]) hend

/-- A tag alone is known. -/
theorem decodeMembers_beside_bare {key content tag : String} {b : Branches α} (h : tag ∈ b.tags) :
    decodeMembers (decodeBesideMember key content b) [(key, .text tag)] .start = .ok (.tagged tag) := by
  simp only [decodeMembers, decodeBesideMember, if_true, Branches.find?_eq_some h]

/-- A tag and its content are complete. -/
theorem decodeMembers_beside {key content tag : String} {b : Branches α} {v : Value} {a : α}
    (hne : content ≠ key) (h : tag ∈ b.tags) (hdec : b.decodeContent tag v = .ok a) :
    decodeMembers (decodeBesideMember key content b) [(key, .text tag), (content, v)] .start =
      .ok (.complete a) := by
  simp only [decodeMembers, decodeBesideMember, if_true, if_neg hne, Branches.find?_eq_some h, hdec]

/-! ## The name around the content -/

/-- An object whose only member has a variant's name is read as the variant. -/
theorem reads_readAround (fuel : Nat) {depth : Nat} {tag : String} {b : Branches α} {v : Value} {a : α}
    (htag : tag ∈ b.tags) (hdec : b.decodeContent tag v = .ok a)
    (hdepth : (Value.object [(tag, v)]).depth < depth) :
    Reads fuel (readAround fuel depth b) (.object [(tag, v)]) a := by
  intro ws bytes rest hws hspells hsize hrest
  simp only [readAround, skipBlanks_append hws, hspells.skipBlanks]
  cases hspells with
  | @object _ ws' _ spells blanks =>
    cases spells with
    | @cons _ gap key spelling more _ _ _ hgap hkey hv hmore =>
      cases hgap with
      | first hgap =>
      cases hmore
      simp only [Value.depth, Value.membersDepth, Nat.max_zero] at hdepth
      simp only [List.length_append, List.length_cons, List.length_nil] at hsize
      obtain ⟨colon, hcolon, hread⟩ := hkey.readTag b.tags b.find? (Branches.find?_eq_some htag)
      obtain ⟨ws'', hws'', hcolon⟩ := hcolon.readColon
      have hend := skipBlanks_append_cons blanks (by decide : isBlank 0x7d = false) rest
      have hcontent := Branches.reads_readContent fuel (by omega : v.depth < depth - 1) hdec ws'' spelling
        (ws' ++ 0x7d :: rest) hws'' hv (by omega) (closed_of_skipBlanks hend (by decide))
      simp only [List.cons_append, List.append_assoc, List.nil_append, if_true,
        if_neg (show ¬ depth ≤ 1 by omega), hread gap _ hgap, hcolon, hcontent, endVariant, hend]

/-! ## All forms -/

/-- The form keeps the element, and writes it with no more than so many lists and objects in one
another. -/
def Form.Keeps : Form α → Nat → α → Prop
  | .plain s, d, a => s.Keeps d a
  | .inside _ key b, d, a => b.tags.Nodup ∧ b.Keeps d a ∧
      ∃ tag members bare, b.write a = some (tag, .object members, bare) ∧ key ∉ members.map (·.1)
  | .beside _ key content b, d, a => 0 < d ∧ content ≠ key ∧ b.tags.Nodup ∧ b.Keeps (d - 1) a
  | .around b, d, a => 0 < d ∧ b.tags.Nodup ∧ b.Keeps (d - 1) a

/-- What a form writes for an element that it keeps is written exactly, and every spelling of it is read
as the element. -/
theorem Form.write_spec : ∀ {f : Form α} {d : Nat} {a : α}, f.Keeps d a →
    (f.write a).isExact = true ∧
      ∀ fuel depth, d < depth → Reads fuel (f.read fuel depth) (f.write a) a
  | .plain s, d, a, h =>
    ⟨s.isExact_write h, fun fuel _ hdepth =>
      s.reads fuel (Nat.lt_of_le_of_lt (s.depth_write_le h) hdepth) (s.decode_write h)⟩
  | .inside noun key b, d, a, ⟨hnodup, hkeeps, tag, members, bare, hwrite, hkey⟩ => by
    obtain ⟨tag', v, bare', hw⟩ := Branches.exists_writes hnodup hkeeps
    obtain ⟨rfl, rfl, rfl⟩ : tag = tag' ∧ .object members = v ∧ bare = bare' := by
      simpa using hwrite.symm.trans hw.write
    have hdepth := hw.depth_le
    simp only [Form.write, hwrite]
    refine ⟨hw.isExact, fun fuel depth hd ws bytes rest hws hspells hsize hrest => ?_⟩
    have hread := reads_readInside fuel noun hw.mem_tags hkey
      (by simp only [Value.depth, Value.membersDepth] at hdepth ⊢; omega : _ < depth) _ _ _ hws hspells
      hsize hrest
    simp only [Form.read, hread, hw.decodeContent]
  | .beside noun key content b, d, a, ⟨hpos, hne, hnodup, hkeeps⟩ => by
    obtain ⟨tag, v, bare, hw⟩ := Branches.exists_writes hnodup hkeeps
    have hdepth := hw.depth_le
    rcases bare with _ | _ <;> simp only [Form.write, hw.write]
    · refine ⟨by simp [Value.isExact, Value.membersAreExact, hw.isExact], fun fuel depth hd => ?_⟩
      refine reads_readBeside fuel noun (decodeMembers_beside hne hw.mem_tags hw.decodeContent) rfl ?_
      simp only [Value.depth, Value.membersDepth]
      omega
    · refine ⟨rfl, fun fuel depth hd => ?_⟩
      refine reads_readBeside fuel noun (decodeMembers_beside_bare hw.mem_tags) ?_ ?_
      · simp only [BesideState.finish, hw.withoutContent rfl]
      · simp only [Value.depth, Value.membersDepth]
        omega
  | .around b, d, a, ⟨hpos, hnodup, hkeeps⟩ => by
    obtain ⟨tag, v, bare, hw⟩ := Branches.exists_writes hnodup hkeeps
    have hdepth := hw.depth_le
    simp only [Form.write, hw.write]
    refine ⟨by simp [Value.isExact, Value.membersAreExact, hw.isExact], fun fuel depth hd => ?_⟩
    refine reads_readAround fuel hw.mem_tags hw.decodeContent ?_
    simp only [Value.depth, Value.membersDepth]
    omega

/-- **Texts of variants.** The text that is written for an element which the form keeps is read as the
element. -/
theorem Form.ofBytes_write {f : Form α} {d : Nat} {a : α} (hd : d < depthLimit) (h : f.Keeps d a) :
    f.ofBytes (f.write a).bytes = .ok a :=
  have hspec := Form.write_spec h
  wholly_of_reads (Value.spells_bytes hspec.1).whole (hspec.2 _ depthLimit hd)

end PullGate.Json
