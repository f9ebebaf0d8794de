import PullGate.Grammar.Automaton
/-!
# Numbered grammars

Numbering a list gives each of its members one number (`numbers_numbering`). So symbols that occur in a
grammar are told apart by their codes (`RuleSet.code_injective`), and a numbered production is one of the
grammar with codes for its symbols (`RuleSet.exists_produces`).
-/

namespace PullGate.Grammar

open Std (HashMap)

/-! ## Numberings -/

section

variable {α : Type} [BEq α] [Hashable α]

/-- An array has the members of a list, each once, and a map tells where. -/
structure Numbers (all : Array α) (number : HashMap α Nat) (members : List α) : Prop where
  isSome_iff : ∀ a, number[a]?.isSome = true ↔ a ∈ members
  eq_some_iff : ∀ a (n : Nat), number[a]? = some n ↔ all[n]? = some a

namespace Numbers

variable {all : Array α} {number : HashMap α Nat} {members : List α}

theorem mem_iff (h : Numbers all number members) (a : α) : a ∈ members ↔ ∃ n : Nat, all[n]? = some a := by
  rw [← h.isSome_iff, Option.isSome_iff_exists]
  exact exists_congr fun n => h.eq_some_iff a n

variable [LawfulBEq α]

/-- A member stands at its number. -/
theorem getElem?_getD (h : Numbers all number members) {a : α} (ha : a ∈ members) (d : Nat) :
    all[number.getD a d]? = some a := by
  obtain ⟨n, hn⟩ := Option.isSome_iff_exists.1 ((h.isSome_iff a).2 ha)
  rw [HashMap.getD_eq_getD_getElem?, hn]
  exact (h.eq_some_iff a n).1 hn

/-- The number of a member is its place. -/
theorem getD_eq (h : Numbers all number members) {a : α} {n : Nat} (ha : all[n]? = some a) (d : Nat) :
    number.getD a d = n := by
  rw [HashMap.getD_eq_getD_getElem?, (h.eq_some_iff a n).2 ha]
  rfl

/-- Different members have different numbers. -/
theorem getD_injective (h : Numbers all number members) {a b : α} (ha : a ∈ members)
    (hb : b ∈ members) {d : Nat} (hab : number.getD a d = number.getD b d) : a = b := by
  have hat := h.getElem?_getD ha d
  rw [hab, h.getElem?_getD hb d] at hat
  exact (Option.some.inj hat).symm

/-- One member more, if it is new. -/
theorem push (h : Numbers all number members) {a : α} (ha : number.contains a = false) :
    Numbers (all.push a) (number.insert a all.size) (members ++ [a]) := by
  have hnone : number[a]? = none := by
    rw [HashMap.contains_eq_isSome_getElem?] at ha
    exact Option.not_isSome_iff_eq_none.1 (Bool.not_eq_true _ ▸ ha)
  constructor
  · intro b
    rw [HashMap.getElem?_insert, List.mem_append, List.mem_singleton, ← h.isSome_iff]
    by_cases hab : a = b
    · simp [hab]
    · simp [hab, Ne.symm hab]
  · intro b n
    rw [HashMap.getElem?_insert, Array.getElem?_push]
    by_cases hab : a = b
    · subst hab
      rw [if_pos (beq_self_eq_true a)]
      by_cases hn : n = all.size
      · simp [hn]
      · rw [if_neg hn, ← h.eq_some_iff, hnone]
        simp [Ne.symm hn]
    · rw [if_neg (by simpa using hab), h.eq_some_iff]
      by_cases hn : n = all.size
      · simp [hn, hab]
      · rw [if_neg hn]

/-- One member more that was there before. -/
theorem again (h : Numbers all number members) {a : α} (ha : number.contains a = true) :
    Numbers all number (members ++ [a]) := by
  rw [HashMap.contains_eq_isSome_getElem?] at ha
  refine ⟨fun b => ?_, h.eq_some_iff⟩
  rw [List.mem_append, List.mem_singleton, ← h.isSome_iff]
  refine ⟨.inl, ?_⟩
  rintro (hb | rfl)
  · exact hb
  · exact ha

end Numbers

variable [LawfulBEq α]

/-- The numbering of a list, from one of other members on. -/
theorem numbers_foldl {all : Array α} {number : HashMap α Nat} {before : List α}
    (h : Numbers all number before) (members : List α) :
    let found := members.foldl (fun (all, number) a =>
      if number.contains a then (all, number) else (all.push a, number.insert a all.size)) (all, number)
    Numbers found.1 found.2 (before ++ members) ∧ (∀ (n : Nat) a, all[n]? = some a → found.1[n]? = some a) ∧
      ((before ++ members).Nodup → found.1.toList = all.toList ++ members) := by
  induction members generalizing all number before with
  | nil => exact ⟨by simpa using h, fun _ _ => id, fun _ => by simp⟩
  | cons a members ih =>
    rw [List.foldl_cons]
    by_cases ha : number.contains a = true
    · obtain ⟨hnumbers, hkept, -⟩ := ih (h.again ha)
      simp only [ha, if_true] at hnumbers hkept ⊢
      rw [List.append_assoc] at hnumbers
      refine ⟨hnumbers, hkept, fun hnodup => ?_⟩
      rw [HashMap.contains_eq_isSome_getElem?] at ha
      -- what was numbered before stands twice in the whole list
      have hmem := (h.isSome_iff a).1 ha
      exact absurd rfl ((List.nodup_append.1 hnodup).2.2 a hmem a List.mem_cons_self)
    · rw [Bool.not_eq_true] at ha
      obtain ⟨hnumbers, hkept, hall⟩ := ih (h.push ha)
      simp only [ha, Bool.false_eq_true, if_false] at hnumbers hkept hall ⊢
      rw [List.append_assoc] at hnumbers hall
      refine ⟨hnumbers, fun n b hb => hkept n b ?_, fun hnodup => ?_⟩
      · rw [Array.getElem?_push, if_neg, hb]
        exact Nat.ne_of_lt (Array.getElem?_eq_some_iff.1 hb).1
      · rw [hall hnodup, Array.toList_push, List.append_assoc, List.singleton_append]

theorem numbers_empty : Numbers (#[] : Array α) (∅ : HashMap α Nat) [] := by
  constructor <;> simp

/-- Numbering a list gives each of its members one number. -/
theorem numbers_numbering (members : List α) :
    Numbers (numbering members).1 (numbering members).2 members :=
  (numbers_foldl numbers_empty members).1

theorem numbering_cons_zero (a : α) (members : List α) : (numbering (a :: members)).1[0]? = some a := by
  have hone := (numbers_empty (α := α)).push (a := a) (by simp)
  have hkept := (numbers_foldl hone members).2.1 0 a (by simp)
  simpa [numbering] using hkept

/-- Members that differ are numbered in their order. -/
theorem toList_numbering {members : List α} (h : members.Nodup) :
    (numbering members).1.toList = members := by
  have hall := (numbers_foldl numbers_empty members).2.2 h
  rwa [Array.toList_empty, List.nil_append] at hall

/-- Members that were numbered once are numbered the same way again. -/
theorem numbering_again (members : List α) {a : α} {n : Nat}
    (h : (numbering (numbering members).1.toList).2[a]? = some n) : (numbering members).1[n]? = some a := by
  have hnumbers := numbers_numbering members
  have hnodup : (numbering members).1.toList.Nodup := by
    refine List.pairwise_iff_getElem.2 fun i j hi hj hij hsame => ?_
    have hati := List.getElem?_eq_getElem hi
    have hatj := List.getElem?_eq_getElem hj
    rw [Array.getElem?_toList, ← hnumbers.eq_some_iff] at hati hatj
    rw [hsame, hatj] at hati
    exact Nat.ne_of_lt hij (Option.some.inj hati).symm
  have hat := ((numbers_numbering _).eq_some_iff a n).1 h
  rw [← Array.getElem?_toList, toList_numbering hnodup, Array.getElem?_toList] at hat
  exact hat

end

/-! ## What a grammar has -/

variable {τ ν μ : Type}

/-- The phrase that a symbol is, if it is one with a name. -/
def Symbol.name? : Symbol τ ν → Option ν
  | .phrase n => some n
  | .token _ | .repetition _ => none

variable [DecidableEq τ] [DecidableEq ν] [DecidableEq μ]

namespace RuleSet

/-- A flat sequence of a symbol: of a phrase by its rule, of a repetition its body, or two runs of it. -/
inductive Produces (g : RuleSet τ ν μ) : Symbol τ ν → List (Step (Symbol τ ν) μ) → Prop
  | phrase {n : ν} {r : Rule τ ν μ} {a : Alternative (Symbol τ ν) μ} (rule : (n, r) ∈ g.rules)
      (alternative : a ∈ g.unfold r) : g.Produces (.phrase n) a.steps
  | body {place : Nat} {r : Rule τ ν μ} {a : Alternative (Symbol τ ν) μ}
      (body : g.bodies[place]? = some r) (alternative : a ∈ g.unfold r) :
      g.Produces (.repetition place) a.steps
  | pair {place : Nat} (exists_body : place < g.bodies.length) :
      g.Produces (.repetition place)
        [⟨.repetition place, .free, []⟩, ⟨.repetition place, .free, []⟩]

/-- Every phrase that the grammar speaks of has a rule. -/
def Closed (g : RuleSet τ ν μ) : Prop :=
  ∀ s steps, g.Produces s steps → ∀ t ∈ steps, ∀ n, t.symbol = .phrase n → n ∈ g.rules.map (·.1)

variable (g : RuleSet τ ν μ)

/-- The flat sequences of the phrases. -/
def named : List (ν × List (Alternative (Symbol τ ν) μ)) := g.rules.map fun (n, r) => (n, g.unfold r)

/-- The flat sequences of the repetitions. -/
def repeated : List (List (Bool × Alternative (Symbol τ ν) μ)) :=
  g.bodies.zipIdx.map fun (b, place) => repetitionAlternatives g.bodies place b

/-- The tokens of the grammar, as often as they occur. -/
def tokenList : List τ :=
  (g.named.flatMap (·.2.flatMap (·.steps)) ++ g.repeated.flatMap (·.flatMap (·.2.steps))).filterMap
    fun s => match s.symbol with | .token t => some t | _ => none

/-- The phrases of the grammar, the start in front. -/
def phraseList : List ν := g.start :: g.rules.map (·.1)

variable {g}

/-- A named phrase has a rule, and its sequences are the rule's. -/
theorem mem_named {n : ν} {alternatives : List (Alternative (Symbol τ ν) μ)}
    (h : (n, alternatives) ∈ g.named) : ∃ r, (n, r) ∈ g.rules ∧ alternatives = g.unfold r := by
  obtain ⟨⟨_, r⟩, hr, hsame⟩ := List.mem_map.1 h
  cases hsame
  exact ⟨r, hr, rfl⟩

/-- The sequences at a repetition's place are those of its body, once or again. -/
theorem getElem?_repeated (place : Nat) : g.repeated[place]? =
    g.bodies[place]?.map (repetitionAlternatives g.bodies place) := by
  rw [repeated, List.getElem?_map, List.getElem?_zipIdx, Nat.zero_add, Option.map_map]
  rfl

/-- What is listed for a repetition is one of its flat sequences. -/
theorem produces_of_mem_repetitionAlternatives {place : Nat} {body : Rule τ ν μ}
    (hbody : g.bodies[place]? = some body) {pairs : Bool} {a : Alternative (Symbol τ ν) μ}
    (ha : (pairs, a) ∈ repetitionAlternatives g.bodies place body) :
    g.Produces (.repetition place) a.steps := by
  rcases List.mem_cons.1 ha with hpair | ha
  · cases hpair
    exact .pair (List.getElem?_eq_some_iff.1 hbody).1
  · obtain ⟨a', ha', hsame⟩ := List.mem_map.1 ha
    cases hsame
    exact .body hbody ha'

/-- A symbol that the grammar has. -/
def Has (g : RuleSet τ ν μ) : Symbol τ ν → Prop
  | .token t => t ∈ g.tokenList
  | .phrase n => n ∈ g.phraseList
  | .repetition _ => True

/-- What is produced is a symbol of the grammar. -/
theorem Produces.has {s : Symbol τ ν} {steps : List (Step (Symbol τ ν) μ)} (h : g.Produces s steps) :
    g.Has s := by
  cases h with
  | phrase rule => exact List.mem_cons_of_mem _ (List.mem_map_of_mem rule)
  | body => trivial
  | pair => trivial

/-- A closed grammar has all symbols of its flat sequences. -/
theorem Closed.has (hclosed : g.Closed) {s : Symbol τ ν} {steps : List (Step (Symbol τ ν) μ)}
    (h : g.Produces s steps) {t : Step (Symbol τ ν) μ} (ht : t ∈ steps) : g.Has t.symbol := by
  rcases hsymbol : t.symbol with x | n | place
  -- tokens are numbered as they stand in the flat sequences of rules and repetitions
  · refine List.mem_filterMap.2 ⟨t, List.mem_append.2 ?_, by rw [hsymbol]⟩
    cases h with
    | @phrase n r a rule alternative =>
      left
      have hnamed : (n, g.unfold r) ∈ g.named := List.mem_map_of_mem rule
      exact List.mem_flatMap_of_mem hnamed (List.mem_flatMap_of_mem alternative ht)
    | @body place r a body alternative =>
      right
      have hrepeated := getElem?_repeated (g := g) place
      rw [body] at hrepeated
      have hbody : (false, a) ∈ repetitionAlternatives g.bodies place r :=
        List.mem_cons_of_mem _ (List.mem_map_of_mem alternative)
      exact List.mem_flatMap_of_mem (List.mem_of_getElem? hrepeated)
        (List.mem_flatMap_of_mem hbody ht)
    | pair =>
      simp only [List.mem_cons, List.not_mem_nil, or_false, or_self] at ht
      rw [ht] at hsymbol
      cases hsymbol
  · exact List.mem_cons_of_mem _ (hclosed s steps h t ht n hsymbol)
  · trivial

/-- The tokens of a grammar are those of its flat sequences. -/
theorem exists_produces_of_mem_tokenList {x : τ} (h : x ∈ g.tokenList) :
    ∃ s steps, g.Produces s steps ∧ ∃ t ∈ steps, t.symbol = .token x := by
  obtain ⟨t, ht, hsymbol⟩ := List.mem_filterMap.1 h
  have hsymbol : t.symbol = .token x := by
    split at hsymbol
    · rename_i hx
      cases hsymbol
      exact hx
    · cases hsymbol
  -- it stands in a flat sequence of a rule or of a repetition
  rcases List.mem_append.1 ht with ht | ht
  · obtain ⟨⟨n, alternatives⟩, hn, hmem⟩ := List.mem_flatMap.1 ht
    obtain ⟨a, ha, hstep⟩ := List.mem_flatMap.1 hmem
    obtain ⟨r, hr, rfl⟩ := mem_named hn
    exact ⟨.phrase n, a.steps, .phrase hr ha, t, hstep, hsymbol⟩
  · obtain ⟨alternatives, hn, hmem⟩ := List.mem_flatMap.1 ht
    obtain ⟨⟨pairs, a⟩, ha, hstep⟩ := List.mem_flatMap.1 hmem
    obtain ⟨place, hplace⟩ := List.mem_iff_getElem?.1 hn
    rw [getElem?_repeated] at hplace
    obtain ⟨body, hbody, rfl⟩ := Option.map_eq_some_iff.1 hplace
    exact ⟨.repetition place, a.steps, produces_of_mem_repetitionAlternatives hbody ha, t, hstep, hsymbol⟩

/-! ## Codes -/

variable [Hashable τ] [Hashable ν]

/-- The code of a symbol. -/
def code (g : RuleSet τ ν μ) : Symbol τ ν → Code
  | .token t => .token ((numbering g.tokenList).2.getD t 0 + 1)
  | .phrase n => .head ((numbering g.phraseList).2.getD n 0)
  | .repetition place => .head ((numbering g.phraseList).1.size + place)

variable (g)

/-- A step with the code of its symbol. -/
def coded (s : Step (Symbol τ ν) μ) : Step Code μ := ⟨g.code s.symbol, s.binding, s.marks⟩

/-- A production with codes for its symbols. -/
def production (head : Nat) (pairs : Bool) (a : Alternative (Symbol τ ν) μ) : Production μ :=
  ⟨head, a.steps.map g.coded, a.weight, pairs⟩

/-- The productions of the phrases. -/
def ofPhrases : List (Production μ) := g.named.flatMap fun (n, alternatives) =>
  alternatives.map (g.production ((numbering g.phraseList).2.getD n 0) false)

/-- The productions of the repetitions. -/
def ofRepetitions : List (Production μ) := g.repeated.zipIdx.flatMap fun (alternatives, place) =>
  alternatives.map fun (pairs, a) => g.production ((numbering g.phraseList).1.size + place) pairs a

/-- The numbered grammar, part by part. -/
theorem numbered_eq : g.numbered =
    { tokens := (numbering g.tokenList).1
      phrases := (numbering g.phraseList).1
      heads := (numbering g.phraseList).1.size + g.bodies.length
      productions := (g.ofPhrases ++ g.ofRepetitions).toArray } := rfl

variable {g}

/-- Numbered tokens are tokens of the grammar. -/
theorem mem_tokenList_of_mem_tokens {t : τ} (h : t ∈ g.numbered.tokens.toList) : t ∈ g.tokenList := by
  rw [numbered_eq] at h
  obtain ⟨n, hn⟩ := List.mem_iff_getElem?.1 h
  rw [Array.getElem?_toList] at hn
  exact ((numbers_numbering g.tokenList).mem_iff t).2 ⟨n, hn⟩

omit [DecidableEq τ] [DecidableEq μ] [Hashable τ] in
/-- A phrase's number is below the count of phrases. -/
theorem getD_phraseList_lt {n : ν} (hn : n ∈ g.phraseList) :
    (numbering g.phraseList).2.getD n 0 < (numbering g.phraseList).1.size :=
  (Array.getElem?_eq_some_iff.1 ((numbers_numbering g.phraseList).getElem?_getD hn 0)).1

/-- Symbols of the grammar are told apart by their codes. -/
theorem code_injective {s s' : Symbol τ ν} (hs : g.Has s) (hs' : g.Has s') (h : g.code s = g.code s') :
    s = s' := by
  cases s with
  | token t =>
    cases s' with
    | token t' =>
      have hsame := Nat.succ.inj (Code.token.inj h)
      rw [(numbers_numbering g.tokenList).getD_injective hs hs' hsame]
    | phrase n' => cases h
    -- repetitions are numbered behind all phrases
    | repetition place' => cases h
  | phrase n =>
    cases s' with
    | token t' => cases h
    | phrase n' =>
      rw [(numbers_numbering g.phraseList).getD_injective hs hs' (Code.head.inj h)]
    | repetition place' =>
      have hsame := Code.head.inj h
      have := getD_phraseList_lt hs
      omega
  | repetition place =>
    cases s' with
    | token t' => cases h
    | phrase n' =>
      have hsame := Code.head.inj h
      have := getD_phraseList_lt hs'
      omega
    | repetition place' =>
      have hsame := Code.head.inj h
      rw [Nat.add_left_cancel hsame]

theorem code_start : g.code (.phrase g.start) = .head 0 :=
  congrArg Code.head ((numbers_numbering g.phraseList).getD_eq (numbering_cons_zero g.start _) 0)

/-- What a head is by name. -/
theorem getElem?_phrases {s : Symbol τ ν} (hs : g.Has s) {h : Nat} (hcode : g.code s = .head h) :
    (numbering g.phraseList).1[h]? = s.name? := by
  cases s with
  | token t => cases hcode
  | phrase n =>
    rw [← Code.head.inj hcode]
    exact (numbers_numbering g.phraseList).getElem?_getD hs 0
  | repetition place =>
    rw [← Code.head.inj hcode]
    exact Array.getElem?_eq_none (Nat.le_add_right _ _)

/-- **Numbered productions are the grammar's.** Each is a flat sequence of a symbol, in codes. -/
theorem exists_produces {p : Production μ} (hp : p ∈ g.numbered.productions) :
    p.head < g.numbered.heads ∧
      ∃ s steps, g.Produces s steps ∧ g.code s = .head p.head ∧ p.steps = steps.map g.coded := by
  rw [numbered_eq, List.mem_toArray, List.mem_append] at hp
  rw [numbered_eq]
  -- productions of phrases come first, and then those of repetitions, with higher heads
  rcases hp with hp | hp
  · obtain ⟨⟨n, alternatives⟩, hn, hp⟩ := List.mem_flatMap.1 hp
    obtain ⟨r, hr, rfl⟩ := mem_named hn
    obtain ⟨a, ha, rfl⟩ := List.mem_map.1 hp
    have hlt := getD_phraseList_lt (Produces.phrase hr ha).has
    exact ⟨Nat.lt_add_right _ hlt, .phrase n, a.steps, .phrase hr ha, rfl, rfl⟩
  · obtain ⟨⟨alternatives, place⟩, hplace, hp⟩ := List.mem_flatMap.1 hp
    obtain ⟨⟨pairs, a⟩, ha, rfl⟩ := List.mem_map.1 hp
    have hrepeated := List.mem_zipIdx_iff_getElem?.1 hplace
    rw [getElem?_repeated] at hrepeated
    obtain ⟨body, hbody, hsame⟩ := Option.map_eq_some_iff.1 hrepeated
    dsimp only at hbody hsame
    subst hsame
    have hlt := (List.getElem?_eq_some_iff.1 hbody).1
    exact ⟨Nat.add_lt_add_left hlt _, .repetition place, a.steps,
      produces_of_mem_repetitionAlternatives hbody ha, rfl, rfl⟩

end RuleSet

end PullGate.Grammar
