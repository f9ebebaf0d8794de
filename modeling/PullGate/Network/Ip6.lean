import PullGate.Network.Ip4
/-!
# Addresses of eight groups

Eight numbers of sixteen bits with colons between, in hexadecimal digits. One run of zero groups may
be left out, and the last two groups may be written as an address of four parts.
-/

namespace PullGate.Network

/-- An address of eight groups. -/
structure Ip6 where
  groups : List UInt16
  length_eq : groups.length = 8
  deriving DecidableEq, Repr

/-- The two groups that an address of four parts takes. -/
def Ip4.groups (ip : Ip4) : List UInt16 :=
  [.ofNat (ip.a.toNat * 256 + ip.b.toNat), .ofNat (ip.c.toNat * 256 + ip.d.toNat)]

/-- The address of four parts that two groups hold. -/
def Ip4.ofGroups (high low : UInt16) : Ip4 :=
  ⟨.ofNat (high.toNat / 256), .ofNat (high.toNat % 256), .ofNat (low.toNat / 256),
    .ofNat (low.toNat % 256)⟩

/-! ## Reading -/

/-- Groups that were read, whether the last two were written as an address of four parts, and what
follows. -/
structure GroupRun where
  groups : List UInt16
  endsInParts : Bool
  rest : List Char

/-- Reads groups, at most `left`. All but the first are behind colons. -/
def readGroups : Nat → Bool → List Char → GroupRun
  | 0, _, text => ⟨[], false, text⟩
  | left + 1, first, text =>
    match (if first then some text else afterChar? ':' text) with
    | none => ⟨[], false, text⟩
    | some inner =>
      match (if left = 0 then none else Ip4.read? inner) with
      | some (ip, rest) => ⟨ip.groups, true, rest⟩
      | none => match NumberRule.group.read? inner with
        | none => ⟨[], false, text⟩
        | some (g, rest) =>
          let more := readGroups left false rest
          ⟨.ofNat g :: more.groups, more.endsInParts, more.rest⟩

/-- No more groups are read than there is room for. -/
theorem length_readGroups (left : Nat) (first : Bool) (text : List Char) :
    (readGroups left first text).groups.length ≤ left := by
  fun_induction readGroups left first text with
  | case1 => simp
  | case2 => simp
  | case3 left first text inner _ ip rest h =>
    have : left ≠ 0 := by rintro rfl; simp at h
    simp only [Ip4.groups, List.length_cons, List.length_nil]
    omega
  | case4 => simp
  | case5 left first text inner _ _ g rest _ more ih => simpa using ih

namespace Ip6

/-- Reads an address from the front of a text. -/
def read? (text : List Char) : Option (Ip6 × List Char) :=
  let head := readGroups 8 true text
  if full : head.groups.length = 8 then some (⟨head.groups, full⟩, head.rest)
  else if head.endsInParts then none
  else do
    let rest ← afterChar? ':' head.rest
    let rest ← afterChar? ':' rest
    let tail := readGroups (7 - head.groups.length) true rest
    let zeros := List.replicate (8 - head.groups.length - tail.groups.length) 0
    return (⟨head.groups ++ zeros ++ tail.groups, by
      have before := length_readGroups 8 true text
      have after := length_readGroups (7 - head.groups.length) true rest
      simp only [zeros, List.length_append, List.length_replicate]
      simp only [head, tail] at full before after ⊢
      omega⟩, tail.rest)

/-! ## Writing -/

/-- How many of the groups from one on are zero, without a gap. -/
def zerosFrom (groups : List UInt16) (start : Nat) : Nat :=
  ((groups.drop start).takeWhile (· = 0)).length

/-- Where the longest run of zero groups starts, and how long it is; the first of several. -/
def longestZeros (groups : List UInt16) : Nat × Nat :=
  (List.range groups.length).foldl
    (fun best start =>
      if best.2 < zerosFrom groups start then (start, zerosFrom groups start) else best) (0, 0)

/-- Groups with colons between. -/
def renderGroups (groups : List UInt16) : String :=
  ":".intercalate (groups.map fun g => String.ofList (Nat.toDigits 16 g.toNat))

/-- The address as text. A run of more than one zero group is left out, and an address that stands for
one of four parts shows it. -/
def render (ip : Ip6) : String :=
  match ip.groups with
  | [0, 0, 0, 0, 0, 0xffff, high, low] => "::ffff:" ++ (Ip4.ofGroups high low).render
  | groups =>
    let (start, length) := longestZeros groups
    if 1 < length then
      renderGroups (groups.take start) ++ "::" ++ renderGroups (groups.drop (start + length))
    else renderGroups groups

end Ip6

end PullGate.Network
