/-!
# UTF-8

Texts as bytes. `decode?` reads bytes strictly, `decodeLossy` puts the replacement character where a
stretch of bytes is no character. `decode?_encode` says that what was written is read back.
-/

namespace PullGate.Text.Utf8

/-! ## Writing -/

/-- The bytes of a character. -/
def encodeChar (c : Char) : List UInt8 :=
  let n := c.toNat
  if n < 0x80 then [UInt8.ofNat n]
  else if n < 0x800 then [UInt8.ofNat (0xc0 + n / 0x40), UInt8.ofNat (0x80 + n % 0x40)]
  else if n < 0x10000 then
    [UInt8.ofNat (0xe0 + n / 0x1000), UInt8.ofNat (0x80 + n / 0x40 % 0x40),
      UInt8.ofNat (0x80 + n % 0x40)]
  else
    [UInt8.ofNat (0xf0 + n / 0x40000), UInt8.ofNat (0x80 + n / 0x1000 % 0x40),
      UInt8.ofNat (0x80 + n / 0x40 % 0x40), UInt8.ofNat (0x80 + n % 0x40)]

/-- The bytes of a text. -/
def encode (cs : List Char) : List UInt8 := cs.flatMap encodeChar

/-- The bytes of a string. -/
def ofString (s : String) : List UInt8 := encode s.toList

/-! ## Reading -/

/-- What the first byte of a character says: how many bytes follow it, the bits that it gives, and
the least and the greatest byte that may come second. -/
structure Lead where
  following : Nat
  bits : Nat
  least : Nat
  greatest : Nat

/-- The meaning of a first byte beyond ASCII, if it begins a character. -/
def lead? (n : Nat) : Option Lead :=
  if n < 0xc2 then none
  else if n < 0xe0 then some ⟨1, n - 0xc0, 0x80, 0xbf⟩
  else if n = 0xe0 then some ⟨2, 0, 0xa0, 0xbf⟩
  else if n = 0xed then some ⟨2, 0xd, 0x80, 0x9f⟩
  else if n < 0xf0 then some ⟨2, n - 0xe0, 0x80, 0xbf⟩
  else if n = 0xf0 then some ⟨3, 0, 0x90, 0xbf⟩
  else if n < 0xf4 then some ⟨3, n - 0xf0, 0x80, 0xbf⟩
  else if n = 0xf4 then some ⟨3, 4, 0x80, 0x8f⟩
  else none

/-- Whether a byte goes on with a character. -/
def isFollowing (b : UInt8) : Bool := 0x80 ≤ b.toNat && b.toNat < 0xc0

/-- The characters of a text as bytes; `none` stands for a stretch of bytes that is no character. -/
def units : List UInt8 → List (Option Char)
  | [] => []
  | a :: rest =>
    if a.toNat < 0x80 then some (Char.ofNat a.toNat) :: units rest
    else match lead? a.toNat with
    | none => none :: units rest
    | some l => match rest with
      | [] => [none]
      | b :: rest' =>
        if l.least ≤ b.toNat && b.toNat ≤ l.greatest then
          let two := l.bits * 0x40 + b.toNat % 0x40
          if l.following = 1 then some (Char.ofNat two) :: units rest'
          else match rest' with
          | [] => [none]
          | c :: rest'' =>
            if isFollowing c then
              let three := two * 0x40 + c.toNat % 0x40
              if l.following = 2 then some (Char.ofNat three) :: units rest''
              else match rest'' with
              | [] => [none]
              | d :: rest''' =>
                if isFollowing d then
                  some (Char.ofNat (three * 0x40 + d.toNat % 0x40)) :: units rest'''
                else none :: units (d :: rest''')
            else none :: units (c :: rest'')
        else none :: units (b :: rest')

/-- The text that bytes stand for, if all of them are characters. -/
def decode? (bytes : List UInt8) : Option (List Char) := (units bytes).mapM id

/-- The text that bytes stand for, with a replacement character for each faulty stretch. -/
def decodeLossy (bytes : List UInt8) : List Char := (units bytes).map (·.getD '\ufffd')

/-- How many bytes in front are characters. -/
def soundLength (bytes : List UInt8) : Nat :=
  ((units bytes).takeWhile (·.isSome)).foldl (fun n c => n + (c.map Char.utf8Size).getD 0) 0

/-! ## What is written is read back -/

private theorem toNat_ofNat_of_lt {n : Nat} (h : n < 0x100) : (UInt8.ofNat n).toNat = n := by
  simp; omega

/-- The first of two bytes leads one more, and has the upper bits. -/
private theorem lead?_two {n : Nat} (h : 0x80 ≤ n) (h' : n < 0x800) :
    lead? (0xc0 + n / 0x40) = some ⟨1, n / 0x40, 0x80, 0xbf⟩ := by
  unfold lead?
  rw [if_neg (by omega), if_pos (by omega)]
  simp

/-- The first of three bytes leads two more, and the second is in the range that it allows. -/
private theorem lead?_three {n : Nat} (h : 0x800 ≤ n) (h' : n < 0x10000)
    (hv : n < 0xd800 ∨ 0xdfff < n) :
    ∃ least greatest, lead? (0xe0 + n / 0x1000) = some ⟨2, n / 0x1000, least, greatest⟩ ∧
      least ≤ 0x80 + n / 0x40 % 0x40 ∧ 0x80 + n / 0x40 % 0x40 ≤ greatest := by
  unfold lead?
  rw [if_neg (by omega), if_neg (by omega)]
  by_cases h0 : n / 0x1000 = 0
  · exact ⟨_, _, by rw [if_pos (by omega), h0], by omega, by omega⟩
  · rw [if_neg (by omega)]
    by_cases hd : n / 0x1000 = 0xd
    · exact ⟨_, _, by rw [if_pos (by omega), hd], by omega, by omega⟩
    · rw [if_neg (by omega), if_pos (by omega)]
      exact ⟨_, _, by rw [Nat.add_sub_cancel_left], by omega, by omega⟩

/-- The first of four bytes leads three more, and the second is in the range that it allows. -/
private theorem lead?_four {n : Nat} (h : 0x10000 ≤ n) (h' : n < 0x110000) :
    ∃ least greatest, lead? (0xf0 + n / 0x40000) = some ⟨3, n / 0x40000, least, greatest⟩ ∧
      least ≤ 0x80 + n / 0x1000 % 0x40 ∧ 0x80 + n / 0x1000 % 0x40 ≤ greatest := by
  unfold lead?
  rw [if_neg (by omega), if_neg (by omega), if_neg (by omega), if_neg (by omega),
    if_neg (by omega)]
  by_cases h0 : n / 0x40000 = 0
  · exact ⟨_, _, by rw [if_pos (by omega), h0], by omega, by omega⟩
  · rw [if_neg (by omega)]
    by_cases h4 : n / 0x40000 = 4
    · exact ⟨_, _, by rw [if_neg (by omega), if_pos (by omega), h4], by omega, by omega⟩
    · rw [if_pos (by omega)]
      exact ⟨_, _, by rw [Nat.add_sub_cancel_left], by omega, by omega⟩

/-- Six bits behind the mark of a further byte are a further byte. -/
private theorem isFollowing_ofNat (m : Nat) : isFollowing (UInt8.ofNat (0x80 + m % 0x40)) = true := by
  simp only [isFollowing, toNat_ofNat_of_lt (show 0x80 + m % 0x40 < 0x100 by omega)]
  simp; omega

private theorem units_nil : units [] = [] := rfl

/-- A byte of ASCII is a character by itself. -/
private theorem units_ascii {a : UInt8} (ha : a.toNat < 0x80) (rest : List UInt8) :
    units (a :: rest) = some (Char.ofNat a.toNat) :: units rest := by
  rw [units, if_pos ha]

/-- A first byte and as many more as it says are read as one character. -/
private theorem units_of_lead {a b : UInt8} {l : Lead} (bs : List UInt8) (ha : ¬ a.toNat < 0x80)
    (hl : lead? a.toNat = some l) (hb : l.least ≤ b.toNat ∧ b.toNat ≤ l.greatest)
    (hbs : ∀ c ∈ bs, isFollowing c = true) (hlength : bs.length + 1 = l.following)
    (hmost : bs.length ≤ 2) (rest : List UInt8) :
    units (a :: b :: (bs ++ rest)) =
      some (Char.ofNat ((b :: bs).foldl (fun n c => n * 0x40 + c.toNat % 0x40) l.bits)) ::
        units rest := by
  have hsecond : (decide (l.least ≤ b.toNat) && decide (b.toNat ≤ l.greatest)) = true := by
    simpa using hb
  rw [units.eq_def]
  simp only [ha, if_false, hl, hsecond, if_true, ← hlength]
  match bs with
  | [] => rfl
  | [c] => simp [hbs c]
  | [c, d] => simp [hbs c, hbs d]

/-- Two bytes made of a code point are read as it. -/
private theorem units_two {n : Nat} (h : 0x80 ≤ n) (h' : n < 0x800) (rest : List UInt8) :
    units (UInt8.ofNat (0xc0 + n / 0x40) :: UInt8.ofNat (0x80 + n % 0x40) :: rest) =
      some (Char.ofNat n) :: units rest := by
  have ha := toNat_ofNat_of_lt (show 0xc0 + n / 0x40 < 0x100 by omega)
  have hb := toNat_ofNat_of_lt (show 0x80 + n % 0x40 < 0x100 by omega)
  refine (units_of_lead [] (by omega) (ha ▸ lead?_two h h') ?_ nofun rfl (Nat.zero_le 2)
    rest).trans ?_
  · dsimp only
    omega
  · simp only [List.foldl_cons, List.foldl_nil, hb]
    rw [show n / 0x40 * 0x40 + (0x80 + n % 0x40) % 0x40 = n by omega]

/-- Three bytes made of a code point are read as it, unless it is half a pair. -/
private theorem units_three {n : Nat} (h : 0x800 ≤ n) (h' : n < 0x10000) (hv : n < 0xd800 ∨ 0xdfff < n)
    (rest : List UInt8) :
    units (UInt8.ofNat (0xe0 + n / 0x1000) :: UInt8.ofNat (0x80 + n / 0x40 % 0x40) ::
      UInt8.ofNat (0x80 + n % 0x40) :: rest) = some (Char.ofNat n) :: units rest := by
  obtain ⟨least, greatest, hl, hrange⟩ := lead?_three h h' hv
  have ha := toNat_ofNat_of_lt (show 0xe0 + n / 0x1000 < 0x100 by omega)
  have hb := toNat_ofNat_of_lt (show 0x80 + n / 0x40 % 0x40 < 0x100 by omega)
  have hc := toNat_ofNat_of_lt (show 0x80 + n % 0x40 < 0x100 by omega)
  refine (units_of_lead [_] (by omega) (ha ▸ hl) (hb.symm ▸ hrange) ?_ rfl (Nat.le_succ 1)
    rest).trans ?_
  · exact List.forall_mem_singleton.2 (isFollowing_ofNat _)
  · simp only [List.foldl_cons, List.foldl_nil, hb, hc]
    rw [show (n / 0x1000 * 0x40 + (0x80 + n / 0x40 % 0x40) % 0x40) * 0x40 +
      (0x80 + n % 0x40) % 0x40 = n by omega]

/-- Four bytes made of a code point are read as it. -/
private theorem units_four {n : Nat} (h : 0x10000 ≤ n) (h' : n < 0x110000) (rest : List UInt8) :
    units (UInt8.ofNat (0xf0 + n / 0x40000) :: UInt8.ofNat (0x80 + n / 0x1000 % 0x40) ::
      UInt8.ofNat (0x80 + n / 0x40 % 0x40) :: UInt8.ofNat (0x80 + n % 0x40) :: rest) =
        some (Char.ofNat n) :: units rest := by
  obtain ⟨least, greatest, hl, hrange⟩ := lead?_four h h'
  have ha := toNat_ofNat_of_lt (show 0xf0 + n / 0x40000 < 0x100 by omega)
  have hb := toNat_ofNat_of_lt (show 0x80 + n / 0x1000 % 0x40 < 0x100 by omega)
  have hc := toNat_ofNat_of_lt (show 0x80 + n / 0x40 % 0x40 < 0x100 by omega)
  have hd := toNat_ofNat_of_lt (show 0x80 + n % 0x40 < 0x100 by omega)
  refine (units_of_lead [_, _] (by omega) (ha ▸ hl) (hb.symm ▸ hrange) ?_ rfl (Nat.le_refl 2)
    rest).trans ?_
  · exact List.forall_mem_cons.2
      ⟨isFollowing_ofNat _, List.forall_mem_singleton.2 (isFollowing_ofNat _)⟩
  · simp only [List.foldl_cons, List.foldl_nil, hb, hc, hd]
    rw [show ((n / 0x40000 * 0x40 + (0x80 + n / 0x1000 % 0x40) % 0x40) * 0x40 +
      (0x80 + n / 0x40 % 0x40) % 0x40) * 0x40 + (0x80 + n % 0x40) % 0x40 = n by omega]

/-- A character's bytes are read as that character, whatever follows. -/
theorem units_encodeChar (c : Char) (rest : List UInt8) :
    units (encodeChar c ++ rest) = some c :: units rest := by
  have hv : c.toNat < 0xd800 ∨ (0xdfff < c.toNat ∧ c.toNat < 0x110000) := c.valid
  have hc : Char.ofNat c.toNat = c := Char.ofNat_toNat c
  unfold encodeChar
  generalize c.toNat = n at hv hc ⊢
  subst hc
  dsimp only
  split
  · have hn := toNat_ofNat_of_lt (show n < 0x100 by omega)
    rw [List.singleton_append, units_ascii (by omega), hn]
  split
  · exact units_two (n := n) (by omega) (by omega) rest
  split
  · exact units_three (n := n) (by omega) (by omega) (by omega) rest
  · exact units_four (n := n) (by omega) (by omega) rest

/-- A text's bytes are read as its characters, whatever follows. -/
theorem units_encode (cs : List Char) (rest : List UInt8) :
    units (encode cs ++ rest) = cs.map some ++ units rest := by
  induction cs with
  | nil => rfl
  | cons c cs ih =>
    rw [encode, List.flatMap_cons, List.append_assoc, units_encodeChar]
    exact congrArg _ ih

private theorem mapM_some (cs : List Char) : (cs.map some).mapM id = some cs := by
  induction cs with
  | nil => rfl
  | cons c cs ih => simp [ih]

/-- Reading strictly undoes writing. -/
theorem decode?_encode (cs : List Char) : decode? (encode cs) = some cs := by
  have h := units_encode cs []
  rw [List.append_nil, units_nil, List.append_nil] at h
  rw [decode?, h, mapM_some]

/-- Reading with replacement undoes writing. -/
theorem decodeLossy_encode (cs : List Char) : decodeLossy (encode cs) = cs := by
  have h := units_encode cs []
  rw [List.append_nil, units_nil, List.append_nil] at h
  simp [decodeLossy, h, Function.comp_def]

end PullGate.Text.Utf8
