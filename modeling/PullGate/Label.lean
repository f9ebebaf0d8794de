/-!
# Labels

The labels that the gate owns, and sets of them. A set's labels are listed in the order in which
the labels are declared, which is the order they are added and removed in; labels that belong to
others never enter a set.
-/

namespace PullGate

/-! ## Labels -/

/-- A label that the gate owns. -/
inductive Label where
  | invalid
  | awaitingReview
  | changesRequested
  | testsFailing
  | requireTests
  | requireNames
  | requireAnnotations
  deriving DecidableEq, Repr, Inhabited

namespace Label

/-- The part a label plays for a pull request. -/
inductive Category where
  /-- The pull request was turned away, and nothing else happens to it. -/
  | terminal
  /-- Where review and checks stand. -/
  | workflow
  /-- Something that the submitted sources lack. -/
  | requirement
  deriving DecidableEq, Repr

/-- All labels, in their order. -/
def all : List Label :=
  [invalid, awaitingReview, changesRequested, testsFailing, requireTests, requireNames,
    requireAnnotations]

/-- The text of the label. -/
def name : Label → String
  | invalid => "invalid"
  | awaitingReview => "awaiting review"
  | changesRequested => "changes requested"
  | testsFailing => "tests are failing"
  | requireTests => "require tests"
  | requireNames => "require descriptive names"
  | requireAnnotations => "require type annotations"

/-- The label with exactly this text. -/
def ofName? (text : String) : Option Label := all.find? fun l => l.name = text

/-- The part the label plays. -/
def category : Label → Category
  | invalid => .terminal
  | awaitingReview | changesRequested | testsFailing => .workflow
  | requireTests | requireNames | requireAnnotations => .requirement

/-- Whether the label asks for something that the sources lack. -/
def isRequirement (l : Label) : Bool := l.category = .requirement

/-- Whether the pull request needs work before it can be reviewed. -/
def blocksReview (l : Label) : Bool := l.isRequirement || l = changesRequested

/-- The place of the label in the order. -/
def rank (l : Label) : Nat := l.ctorIdx

theorem mem_all (l : Label) : l ∈ all := by cases l <;> decide

theorem nodup_all : all.Nodup := by decide

/-- Labels are told apart by their names. -/
theorem name_injective {a b : Label} (h : a.name = b.name) : a = b := by
  cases a <;> cases b <;> first | rfl | exact absurd h (by decide)

@[simp] theorem ofName?_name (l : Label) : ofName? l.name = some l := by
  cases l <;> decide

/-- Only the name of a label tells it: names count letter by letter. -/
theorem ofName?_eq_some_iff {text : String} {l : Label} : ofName? text = some l ↔ l.name = text := by
  constructor
  · intro h
    have := List.find?_some h
    simpa using this
  · rintro rfl
    exact ofName?_name l

end Label

/-! ## Sets of labels -/

/-- A set of labels, by membership. -/
structure LabelSet where
  has : Label → Bool

namespace LabelSet

/-- Sets with the same members are equal. -/
@[ext] theorem ext {a b : LabelSet} (h : ∀ l, a.has l = b.has l) : a = b := by
  cases a; cases b; simp only [mk.injEq]; exact funext h

instance : DecidableEq LabelSet := fun a b =>
  decidable_of_iff (∀ l ∈ Label.all, a.has l = b.has l)
    ⟨fun h => ext fun l => h l (Label.mem_all l), fun h _ _ => by rw [h]⟩

/-- The set without labels. -/
def empty : LabelSet := ⟨fun _ => false⟩

instance : EmptyCollection LabelSet := ⟨empty⟩
instance : Inhabited LabelSet := ⟨empty⟩

/-- The set with one label more. -/
def insert (s : LabelSet) (l : Label) : LabelSet := ⟨fun k => k = l || s.has k⟩

/-- The set without a label. -/
def erase (s : LabelSet) (l : Label) : LabelSet := ⟨fun k => k ≠ l && s.has k⟩

/-- The set of the labels in a list. -/
def ofList (ls : List Label) : LabelSet := ⟨fun k => ls.contains k⟩

/-- The set of the labels with these names; names of no label are passed over. -/
def ofNames (names : List String) : LabelSet := ofList (names.filterMap Label.ofName?)

/-- The labels of the set, in order. -/
def toList (s : LabelSet) : List Label := Label.all.filter s.has

/-- Whether the set has a label of a category. -/
def hasCategory (s : LabelSet) (c : Label.Category) : Bool :=
  Label.all.any fun l => s.has l && l.category = c

/-- Whether the pull request was turned away. -/
def isTerminal (s : LabelSet) : Bool := s.hasCategory .terminal

/-- Whether a label keeps the pull request from review. -/
def blocksReview (s : LabelSet) : Bool := Label.all.any fun l => s.has l && l.blocksReview

/-- The requirements in the set. -/
def requirements (s : LabelSet) : LabelSet := ⟨fun l => l.isRequirement && s.has l⟩

/-- The labels of one set that are not in another, in order. -/
def difference (a b : LabelSet) : List Label := Label.all.filter fun l => a.has l && !b.has l

/-- Whether the set has no labels. -/
def isEmpty (s : LabelSet) : Bool := s.toList.isEmpty

/-- How many labels the set has. -/
def size (s : LabelSet) : Nat := s.toList.length

/-! ### Membership -/

@[simp] theorem has_empty (l : Label) : (∅ : LabelSet).has l = false := rfl

@[simp] theorem has_insert (s : LabelSet) (l k : Label) :
    (s.insert l).has k = (decide (k = l) || s.has k) := rfl

@[simp] theorem has_erase (s : LabelSet) (l k : Label) :
    (s.erase l).has k = (decide (k ≠ l) && s.has k) := rfl

@[simp] theorem has_ofList (ls : List Label) (l : Label) : (ofList ls).has l = ls.contains l := rfl

@[simp] theorem has_requirements (s : LabelSet) (l : Label) :
    s.requirements.has l = (l.isRequirement && s.has l) := rfl

@[simp] theorem mem_toList {s : LabelSet} {l : Label} : l ∈ s.toList ↔ s.has l = true := by
  simp [toList, Label.mem_all]

/-- The difference has the labels of the first set that are not in the second. -/
@[simp] theorem mem_difference {a b : LabelSet} {l : Label} :
    l ∈ a.difference b ↔ a.has l = true ∧ b.has l = false := by
  simp [difference, Label.mem_all]

/-- A set is that of its list. -/
@[simp] theorem ofList_toList (s : LabelSet) : ofList s.toList = s := by
  ext l
  by_cases h : s.has l = true
  · simp [h]
  · have : l ∉ s.toList := by simpa using h
    simp [this, h]

/-- The names of the labels of a set stand for the set. -/
theorem ofNames_map_name (s : LabelSet) : ofNames (s.toList.map Label.name) = s := by
  have h : Label.ofName? ∘ Label.name = some := funext Label.ofName?_name
  rw [ofNames, List.filterMap_map, h, List.filterMap_some, ofList_toList]

/-- Of all labels `invalid` alone is final. -/
theorem isTerminal_eq (s : LabelSet) : s.isTerminal = s.has .invalid := by
  simp [isTerminal, hasCategory, Label.all, Label.category]

/-- A set blocks a review if one of its labels does. -/
theorem blocksReview_iff {s : LabelSet} :
    s.blocksReview = true ↔ ∃ l, s.has l = true ∧ l.blocksReview = true := by
  simp only [blocksReview, List.any_eq_true, Bool.and_eq_true]
  exact ⟨fun ⟨l, _, h⟩ => ⟨l, h⟩, fun ⟨l, h⟩ => ⟨l, Label.mem_all l, h⟩⟩

/-- Only the empty set is empty. -/
theorem isEmpty_iff {s : LabelSet} : s.isEmpty = true ↔ s = ∅ := by
  constructor
  · intro h
    ext l
    have : l ∉ s.toList := by simp [List.isEmpty_iff.1 h]
    simpa using this
  · rintro rfl
    rfl

end LabelSet

end PullGate
