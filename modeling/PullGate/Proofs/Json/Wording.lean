import PullGate.Json.Decode
import PullGate.Json.Read
/-!
# The words of a failure

What is wrong with a text is said with words of the shape that it should have had (`Cause.words`). A
reader uses no other words than its shape's, whatever the text is: `Shape.fails_read` for texts that are
read as they come, `Shape.refuses_decode` for trees.
-/

namespace PullGate.Json

/-! ## Words -/

/-- The words of a shape in a cause. -/
def Cause.words : Cause → List String
  | wrongType _ expected | wrongValue _ expected | wrongLength _ expected => [expected]
  | unknownVariant _ known => [describedKnown known]
  | missingField name | duplicateField name => [name]
  | _ => []

@[simp] theorem Cause.words_wrongType (found : Found) (expected : String) :
    (wrongType found expected).words = [expected] := rfl

@[simp] theorem Cause.words_wrongValue (found : Found) (expected : String) :
    (wrongValue found expected).words = [expected] := rfl

@[simp] theorem Cause.words_wrongLength (n : Nat) (expected : String) :
    (wrongLength n expected).words = [expected] := rfl

@[simp] theorem Cause.words_unknownVariant (name : String) (known : List String) :
    (unknownVariant name known).words = [describedKnown known] := rfl

@[simp] theorem Cause.words_missingField (name : String) : (missingField name).words = [name] := rfl

@[simp] theorem Cause.words_duplicateField (name : String) : (duplicateField name).words = [name] := rfl

/-- What is wrong with the form of a text is said without words of a shape. -/
@[simp] theorem Cause.words_of_form {c : Cause} (h : c.category ≠ .data) : c.words = [] := by
  cases c <;> first | rfl | exact absurd rfl h

mutual

/-- The words for what is wrong with values of a shape. -/
def Shape.words : {α : Type} → Shape α → List String
  | _, .text => ["a string"]
  | _, .flag => ["a boolean"]
  | _, .natural noun => [noun]
  | _, .integer => ["i64"]
  | _, .unit noun => [noun]
  | _, .any => []
  | _, .optional s => s.words
  | _, .list s => "a sequence" :: s.words
  | _, .enumeration values name =>
    ["variant identifier", describedKnown (values.map name), "unit", "string or map",
      "map with a single key"]
  | _, .record noun fields =>
    ("struct " ++ noun) :: fields.expected noun :: expectedItems fields.size :: fields.words
  | _, .via _ _ s => s.words

/-- The words for what is wrong with members. -/
def Fields.words : {α : Type} → Fields α → List String
  | _, .nil => []
  | _, .cons name s _ rest => name :: (s.words ++ rest.words)

end

/-! ## Failures -/

section

variable {α β σ : Type} {ws more : List String}

/-- All failures are said with these words. -/
def Fails (ws : List String) (r : Except Failure α) : Prop :=
  ∀ f, r = .error f → f.cause.words ⊆ ws

@[simp] theorem fails_ok (a : α) : Fails ws (.ok a : Except Failure α) := nofun

@[simp] theorem fails_error (f : Failure) :
    Fails ws (.error f : Except Failure α) ↔ f.cause.words ⊆ ws :=
  ⟨fun h => h f rfl, fun h _ hf => Except.error.inj hf ▸ h⟩

theorem Fails.mono {r : Except Failure α} (h : Fails ws r) (hmore : ws ⊆ more) : Fails more r :=
  fun f hf => List.Subset.trans (h f hf) hmore

/-- The words of a failure that was met. -/
theorem Fails.words_subset {r : Except Failure α} {f : Failure} (h : Fails ws r) (hf : r = .error f) :
    f.cause.words ⊆ ws := h f hf

@[simp] theorem cause_here (c : Cause) (rest : List UInt8) : (Failure.here c rest).cause = c := rfl

@[simp] theorem cause_at (c : Cause) (rest : List UInt8) : (Failure.at_ c rest).cause = c := rfl

@[simp] theorem cause_pending (c : Cause) (rest : List UInt8) : (Failure.pending c rest).cause = c := rfl

@[simp] theorem cause_inside (f : Failure) (s : Segment) : (f.inside s).cause = f.cause := rfl

/-- The end of a value leaves the cause of a failure as it is. -/
@[simp] theorem cause_closedBy (f : Failure) (close : List UInt8 → List UInt8) :
    (f.closedBy close).cause = f.cause := by
  unfold Failure.closedBy
  split <;> rfl

/-- A failure that was met is passed on. -/
theorem Fails.passed {r : Except Failure α} {f : Failure} (h : Fails ws r) (hf : r = .error f) :
    Fails ws (.error f : Except Failure β) := (fails_error f).2 (h f hf)

/-- A failure that was met inside is passed on. -/
theorem Fails.inside {r : Except Failure α} {f : Failure} {s : Segment} (h : Fails ws r)
    (hf : r = .error f) : Fails ws (.error (f.inside s) : Except Failure β) :=
  (fails_error _).2 (h f hf)

/-- A failure that was met is passed on with its place. -/
theorem Fails.closedBy {r : Except Failure α} {f : Failure} {close : List UInt8 → List UInt8}
    (h : Fails ws r) (hf : r = .error f) : Fails ws (.error (f.closedBy close) : Except Failure β) := by
  rw [fails_error, cause_closedBy]
  exact h f hf

/-! ## Texts and numbers -/

/-- A word that is not there is missed without words of a shape. -/
@[simp] theorem fails_readWord (word : List Char) (bytes : List UInt8) :
    Fails ws (readWord word bytes) := by
  fun_induction readWord word bytes <;> simp_all +decide

@[simp] theorem fails_readBytes (bytes read : List UInt8) : Fails ws (readBytes bytes read) := by
  fun_induction readBytes bytes read <;> simp_all +decide

@[simp] theorem fails_readText (bytes : List UInt8) : Fails ws (readText bytes) := by
  unfold readText
  split
  · exact (fails_readBytes _ _).passed ‹_›
  · split <;> simp +decide

@[simp] theorem fails_skipText (bytes : List UInt8) : Fails ws (skipText bytes) := by
  fun_induction skipText bytes <;> simp_all +decide

@[simp] theorem fails_makeFloat (positive : Bool) (significand : Nat) (power : Int) (rest : List UInt8) :
    Fails ws (makeFloat positive significand power rest) := by
  unfold makeFloat
  dsimp only
  repeat' split
  all_goals simp +decide

@[simp] theorem fails_readExponentDigits (positive : Bool) (significand : Nat) (power : Int) (grows : Bool)
    (bytes : List UInt8) :
    Fails ws (readExponentDigits positive significand power grows bytes) := by
  unfold readExponentDigits
  dsimp only
  repeat' split
  all_goals simp +decide

@[simp] theorem fails_afterFraction (positive : Bool) (significand : Nat) (power : Int)
    (rest : List UInt8) : Fails ws (afterFraction positive significand power rest) := by
  unfold afterFraction readExponent
  repeat' split
  all_goals simp +decide

@[simp] theorem fails_readFraction (positive : Bool) (significand : Nat) (power : Int)
    (bytes : List UInt8) : Fails ws (readFraction positive significand power bytes) := by
  unfold readFraction
  dsimp only
  repeat' split
  all_goals simp +decide

@[simp] theorem fails_afterDigits (positive : Bool) (n : Nat) (rest : List UInt8) :
    Fails ws (afterDigits positive n rest) := by
  unfold afterDigits readExponent
  repeat' split
  all_goals simp +decide

/-- A number fails without words of a shape, and so do its parts. -/
@[simp] theorem fails_readNumber (positive : Bool) (bytes : List UInt8) :
    Fails ws (readNumber positive bytes) := by
  unfold readNumber
  dsimp only
  repeat' split
  all_goals simp +decide

@[simp] theorem fails_skipOptionalExponent (bytes : List UInt8) :
    Fails ws (skipOptionalExponent bytes) := by
  unfold skipOptionalExponent skipExponent
  repeat' split
  all_goals simp +decide

@[simp] theorem fails_skipAfterDigits (rest : List UInt8) : Fails ws (skipAfterDigits rest) := by
  unfold skipAfterDigits
  repeat' split
  all_goals simp +decide

@[simp] theorem fails_skipNumber (bytes : List UInt8) : Fails ws (skipNumber bytes) := by
  unfold skipNumber
  repeat' split
  all_goals simp +decide

@[simp] theorem fails_skipKey (bytes : List UInt8) : Fails ws (skipKey bytes) := by
  unfold skipKey
  split
  · simp +decide
  · split
    · simp +decide
    · split
      · exact (fails_skipText _).passed ‹_›
      · repeat' split
        all_goals simp +decide

@[simp] theorem fails_skipToValue (frame : Frame) (bytes : List UInt8) :
    Fails ws (skipToValue frame bytes) := by
  cases frame with
  | list => exact fails_ok _
  | object => exact fails_skipKey bytes

/-- A value that nests nothing is passed over without words of a shape. -/
@[simp] theorem fails_skipScalar (b : UInt8) (rest : List UInt8) : Fails ws (skipScalar b rest) := by
  unfold skipScalar
  repeat' split
  all_goals simp +decide

/-! ## Passing over values -/

mutual

/-- What is passed over fails without words of a shape, however deep. -/
theorem fails_skipNext (fuel : Nat) (frames : List Frame) (bytes : List UInt8) :
    Fails ws (skipNext fuel frames bytes) := by
  cases fuel with
  | zero => simp +decide [skipNext]
  | succ fuel =>
    rw [skipNext]
    split
    · simp +decide
    · split
      · exact fails_skipOpened fuel _ frames _
      · split
        · exact fails_skipOpened fuel _ frames _
        · split
          · exact (fails_skipScalar _ _).passed ‹_›
          · exact fails_skipAfter fuel frames _

theorem fails_skipOpened (fuel : Nat) (frame : Frame) (frames : List Frame) (bytes : List UInt8) :
    Fails ws (skipOpened fuel frame frames bytes) := by
  cases fuel with
  | zero => simp +decide [skipOpened]
  | succ fuel =>
    rw [skipOpened]
    split
    · cases frame <;> simp +decide [Frame.ended]
    · split
      · exact fails_skipAfter fuel frames _
      · split
        · exact (fails_skipToValue _ _).passed ‹_›
        · exact fails_skipNext fuel _ _

theorem fails_skipAfter (fuel : Nat) (frames : List Frame) (bytes : List UInt8) :
    Fails ws (skipAfter fuel frames bytes) := by
  cases frames with
  | nil => simp +decide [skipAfter]
  | cons frame frames =>
    cases fuel with
    | zero => simp +decide [skipAfter]
    | succ fuel =>
      rw [skipAfter]
      split
      · cases frame <;> simp +decide [Frame.ended]
      · split
        · exact fails_skipAfter fuel frames _
        · split
          · split
            · exact (fails_skipToValue _ _).passed ‹_›
            · exact fails_skipNext fuel _ _
          · cases frame <;> simp +decide [Frame.expectedEnd]

end

/-! ## Items and members -/

/-- Between items only the form can fail. -/
@[simp] theorem fails_nextItem (first : Bool) (bytes : List UInt8) :
    Fails ws (nextItem first bytes) := by
  unfold nextItem
  repeat' split
  all_goals simp +decide

/-- Before a key only the form can fail. -/
@[simp] theorem fails_nextKey (first : Bool) (bytes : List UInt8) : Fails ws (nextKey first bytes) := by
  unfold nextKey
  repeat' split
  all_goals simp +decide

@[simp] theorem fails_readColon (bytes : List UInt8) : Fails ws (readColon bytes) := by
  unfold readColon
  repeat' split
  all_goals simp +decide

@[simp] theorem fails_endList (bytes : List UInt8) : Fails ws (endList bytes) := by
  unfold endList
  repeat' split
  all_goals simp +decide

@[simp] theorem fails_endObject (bytes : List UInt8) : Fails ws (endObject bytes) := by
  unfold endObject
  repeat' split
  all_goals simp +decide

/-- A list fails in the words of its inside. -/
theorem fails_insideList {depth : Nat} {opened bytes : List UInt8}
    {body : Nat → List UInt8 → Result α} (hbody : ∀ depth bytes, Fails ws (body depth bytes)) :
    Fails ws (insideList depth opened bytes body) := by
  unfold insideList
  split
  · simp +decide
  · split
    · exact (hbody _ _).closedBy ‹_›
    · split
      · exact (fails_endList _).passed ‹_›
      · simp +decide

/-- An object fails in the words of its inside. -/
theorem fails_insideObject {depth : Nat} {opened bytes : List UInt8}
    {body : Nat → List UInt8 → Result α} (hbody : ∀ depth bytes, Fails ws (body depth bytes)) :
    Fails ws (insideObject depth opened bytes body) := by
  unfold insideObject
  split
  · simp +decide
  · split
    · exact (hbody _ _).closedBy ‹_›
    · split
      · exact (fails_endObject _).passed ‹_›
      · simp +decide

/-- Items fail in the words of one. -/
theorem fails_readItems {item : List UInt8 → Result α} (hitem : ∀ bytes, Fails ws (item bytes))
    (fuel index : Nat) (read : List α) (bytes : List UInt8) :
    Fails ws (readItems item fuel index read bytes) := by
  induction fuel generalizing index read bytes with
  | zero => simp +decide [readItems]
  | succ fuel ih =>
    rw [readItems]
    split
    · exact (fails_nextItem _ _).passed ‹_›
    · simp +decide
    · split
      · exact (hitem _).inside ‹_›
      · exact ih _ _ _

/-- Members fail in the words of one. -/
theorem fails_readMembers {member : String → σ → List UInt8 → Result σ}
    (hmember : ∀ key state bytes, Fails ws (member key state bytes)) (fuel : Nat) (first : Bool)
    (state : σ) (bytes : List UInt8) : Fails ws (readMembers member fuel first state bytes) := by
  induction fuel generalizing first state bytes with
  | zero => simp +decide [readMembers]
  | succ fuel ih =>
    rw [readMembers]
    split
    · exact (fails_nextKey _ _).inside ‹_›
    · simp +decide
    · split
      · exact (fails_readText _).inside ‹_›
      · split
        · exact (hmember _ _ _).passed ‹_›
        · exact ih _ _ _

/-- A member fails in the words of its value. -/
theorem fails_memberValue {key : String} {value : List UInt8 → Result α}
    (hvalue : ∀ bytes, Fails ws (value bytes)) (bytes : List UInt8) :
    Fails ws (memberValue key value bytes) := by
  unfold memberValue
  split
  · exact (fails_readColon _).inside ‹_›
  · split
    · exact (hvalue _).inside ‹_›
    · simp +decide

/-! ## Values -/

@[simp] theorem fails_readScalar (b : UInt8) (rest : List UInt8) : Fails ws (readScalar b rest) := by
  unfold readScalar
  repeat' split
  all_goals first
    | simp +decide; done
    | exact (fails_readWord _ _).passed ‹_›
    | exact (fails_readNumber _ _).passed ‹_›
    | exact (fails_readText _).passed ‹_›

/-- Any value is read without words of a shape. -/
@[simp] theorem fails_readValue (fuel depth : Nat) (bytes : List UInt8) :
    Fails ws (readValue fuel depth bytes) := by
  -- what lies in a list or an object is read with less depth
  induction depth using Nat.strongRecOn generalizing bytes with
  | _ depth ih =>
    unfold readValue
    split
    · simp +decide
    · split
      · split
        · simp +decide
        · simp +decide
        · rename_i depth
          have hitems := fails_readItems (ih (depth + 1) (Nat.lt_succ_self _)) fuel 0 []
          split
          · exact (hitems _).closedBy ‹_›
          · split
            · exact (fails_endList _).passed ‹_›
            · simp +decide
      · split
        · split
          · simp +decide
          · simp +decide
          · rename_i depth
            split
            · rename_i hread
              refine (fails_readMembers (fun key state bytes => ?_) _ _ _ _).closedBy hread
              split
              · exact (fails_memberValue (ih (depth + 1) (Nat.lt_succ_self _)) _).passed ‹_›
              · simp +decide
            · split
              · exact (fails_endObject _).passed ‹_›
              · simp +decide
        · exact fails_readScalar _ _

/-- What is refused for what it is, is refused in the words for what it should be. -/
@[simp] theorem words_refuse (expected : String) (bytes : List UInt8) :
    (refuse expected bytes).cause.words ⊆ [expected] := by
  unfold refuse
  split
  · simp +decide
  · split
    · simp +decide
    · split
      · simp +decide
      · split
        · rename_i hscalar
          exact (fails_readScalar _ _).words_subset hscalar
        · simp +decide

/-- A text fails in the words for it. -/
theorem fails_readTextValue (expected : String) (bytes : List UInt8) :
    Fails [expected] (readTextValue expected bytes) := by
  unfold readTextValue
  repeat' split
  all_goals simp +decide

/-- True and false fail in the words for them. -/
theorem fails_readFlag (bytes : List UInt8) : Fails ["a boolean"] (readFlag bytes) := by
  unfold readFlag
  split
  · simp +decide
  · split
    · split
      · simp +decide
      · simp +decide
      · exact (fails_readScalar _ _).passed ‹_›
    · simp +decide

/-- A number fails in the words for it. -/
theorem fails_readNumberValue (expected : String) (bytes : List UInt8) :
    Fails [expected] (readNumberValue expected bytes) := by
  unfold readNumberValue
  repeat' split
  all_goals simp +decide

theorem fails_readNatural (noun : String) (bytes : List UInt8) :
    Fails [noun] (readNatural noun bytes) := by
  unfold readNatural
  split
  · exact (fails_readNumberValue _ _).passed ‹_›
  all_goals simp +decide

theorem fails_readInteger (bytes : List UInt8) : Fails ["i64"] (readInteger bytes) := by
  unfold readInteger
  split
  · exact (fails_readNumberValue _ _).passed ‹_›
  · split <;> simp +decide
  all_goals simp +decide

/-- Nothing fails under its noun. -/
theorem fails_readUnit (noun : String) (depth : Nat) (bytes : List UInt8) :
    Fails [noun] (readUnit noun depth bytes) := by
  unfold readUnit
  split
  · simp +decide
  · split
    · exact fails_insideList fun _ _ => by simp
    · split
      · exact fails_insideObject fun _ _ => by simp
      · split
        · exact (fails_readScalar _ _).passed ‹_›
        all_goals simp +decide

theorem fails_readNull (bytes : List UInt8) : Fails ["unit"] (readNull bytes) := by
  unfold readNull
  repeat' split
  all_goals simp +decide

@[simp] theorem fails_endVariant (bytes : List UInt8) : Fails ws (endVariant bytes) := by
  unfold endVariant
  repeat' split
  all_goals simp +decide

/-- A tag fails as such, or as none of those that are known. -/
theorem fails_readTag {known : List String} {find : String → Option α} (bytes : List UInt8) :
    Fails ["variant identifier", describedKnown known] (readTag known find bytes) := by
  unfold readTag
  split
  · exact ((fails_readTextValue _ _).passed ‹_›).mono (by simp)
  · split <;> simp +decide

/-- A name fails so too, or for what it holds. -/
theorem fails_readName {known : List String} {find : String → Option α} (depth : Nat)
    (bytes : List UInt8) :
    Fails ["variant identifier", describedKnown known, "unit"] (readName known find depth bytes) := by
  have htag (bytes : List UInt8) : Fails ["variant identifier", describedKnown known, "unit"]
      (readTag known find bytes) := (fails_readTag bytes).mono (by simp)
  have hnull (bytes : List UInt8) : Fails ["variant identifier", describedKnown known, "unit"]
      (readNull bytes) := (fails_readNull bytes).mono (by simp)
  unfold readName
  split
  · simp +decide
  · split
    · split
      · exact (htag _).passed ‹_›
      · simp +decide
    · split
      · split
        · simp +decide
        · split
          · exact (htag _).passed ‹_›
          · split
            · exact (fails_readColon _).passed ‹_›
            · split
              · exact (hnull _).inside ‹_›
              · split
                · exact (fails_endVariant _).passed ‹_›
                · simp +decide
      · simp +decide

/-- An optional value fails in the words of what it holds. -/
theorem fails_readOptional {value : List UInt8 → Result α} (hvalue : ∀ bytes, Fails ws (value bytes))
    (bytes : List UInt8) : Fails ws (readOptional value bytes) := by
  unfold readOptional
  dsimp only
  split
  · split
    · exact (hvalue _).passed ‹_›
    · simp
  · split
    · split
      · exact (fails_readWord _ _).passed ‹_›
      · simp
    · split
      · exact (hvalue _).passed ‹_›
      · simp

/-- A member that is passed over fails without words of a shape. -/
theorem fails_skipMember (fuel : Nat) (key : String) (bytes : List UInt8) :
    Fails ws (skipMember fuel key bytes) := by
  unfold skipMember
  split
  · exact (fails_readColon _).inside ‹_›
  · split
    · exact (fails_skipNext _ _ _).inside ‹_›
    · simp +decide

end

/-! ## Shapes -/

/-- A member that is missed is one of the record's. -/
theorem Fields.mem_words_of_finish : ∀ {α : Type} (f : Fields α) {slots : f.Slots} {name : String},
    f.finish slots = .error name → name ∈ f.words
  | _, .nil, _, _, h => nomatch h
  | _, .cons name s absent rest, slots, missing, h => by
    simp only [Fields.finish] at h
    rw [Fields.words]
    split at h
    · cases h
      exact List.mem_cons_self
    · split at h
      · rename_i hrest
        cases h
        exact List.mem_cons_of_mem _ (List.mem_append_right _ (rest.mem_words_of_finish hrest))
      · cases h

theorem Fields.words_subset_record {α : Type} (noun : String) (fields : Fields α) :
    fields.words ⊆ (Shape.record noun fields).words := fun w hw => by simp [Shape.words, hw]

theorem Fields.expected_words_subset_record {α : Type} (noun : String) (fields : Fields α) :
    fields.expected noun :: fields.words ⊆ (Shape.record noun fields).words :=
  List.cons_subset.2 ⟨by simp [Shape.words], fields.words_subset_record noun⟩

/-- A record fails as its members do, or for want of one of them. -/
theorem Shape.fails_read_record {α : Type} {fuel : Nat} {noun : String} {fields : Fields α}
    (hlist : ∀ depth rest, Fails (fields.expected noun :: fields.words)
      (fields.readList fuel depth (fields.expected noun) 0 rest))
    (hmember : ∀ depth key slots rest, Fails fields.words
      (fields.readMember fuel depth key slots rest)) (depth : Nat) (bytes : List UInt8) :
    Fails (Shape.record noun fields).words ((Shape.record noun fields).read fuel depth bytes) := by
  have hfields := fields.words_subset_record noun
  rw [Shape.read]
  split
  · simp +decide
  · split
    · exact fails_insideList fun depth rest =>
        (hlist depth rest).mono (fields.expected_words_subset_record noun)
    · split
      · refine fails_insideObject fun depth rest => ?_
        have hmembers := fails_readMembers
          (fun key slots bytes => (hmember depth key slots bytes).mono hfields) fuel true fields.empty rest
        split
        · exact hmembers.passed ‹_›
        · split
          · rename_i hmissing
            simpa using hfields (fields.mem_words_of_finish hmissing)
          · simp
      · exact (fails_error _).2 (List.Subset.trans (words_refuse _ _) (by simp [Shape.words]))

mutual

/-- **A shape's own words.** Whatever the text is, what is wrong with it is said with words of the
shape. -/
theorem Shape.fails_read (fuel : Nat) : ∀ {α : Type} (s : Shape α) (depth : Nat) (bytes : List UInt8),
    Fails s.words (s.read fuel depth bytes)
  | _, .text, _, bytes => by
    rw [Shape.read]
    exact fails_readTextValue _ bytes
  | _, .flag, _, bytes => by
    rw [Shape.read]
    exact fails_readFlag bytes
  | _, .natural noun, _, bytes => by
    rw [Shape.read]
    exact fails_readNatural noun bytes
  | _, .integer, _, bytes => by
    rw [Shape.read]
    exact fails_readInteger bytes
  | _, .unit noun, depth, bytes => by
    rw [Shape.read]
    exact fails_readUnit noun depth bytes
  | _, .any, depth, bytes => by
    rw [Shape.read]
    exact fails_readValue fuel depth bytes
  | _, .optional s, depth, bytes => by
    rw [Shape.read]
    exact fails_readOptional (fun bytes => s.fails_read fuel depth bytes) bytes
  | _, .list s, depth, bytes => by
    have hitem (depth : Nat) (bytes : List UInt8) : Fails ("a sequence" :: s.words)
        (s.read fuel depth bytes) := (s.fails_read fuel depth bytes).mono (List.subset_cons_self _ _)
    rw [Shape.read, Shape.words]
    split
    · simp +decide
    · split
      · exact fails_insideList fun depth rest => fails_readItems (hitem depth) _ _ _ _
      · exact (fails_error _).2 (List.Subset.trans (words_refuse _ _) (by simp))
  | _, .enumeration values name, depth, bytes => by
    rw [Shape.read]
    exact (fails_readName depth bytes).mono (by simp [Shape.words])
  | _, .record noun fields, depth, bytes => by
    exact Shape.fails_read_record
      (fun depth rest => fields.fails_readList fuel depth (fields.expected noun) 0 rest)
      (fun depth key slots rest => fields.fails_readMember fuel depth key slots rest) depth bytes
  | _, .via make _ s, depth, bytes => by
    rw [Shape.read, Shape.words]
    split
    · exact (s.fails_read fuel depth bytes).passed ‹_›
    · simp

/-- A member of a record fails in the words of the members. -/
theorem Fields.fails_readMember (fuel : Nat) : ∀ {α : Type} (f : Fields α) (depth : Nat) (key : String)
    (slots : f.Slots) (bytes : List UInt8),
    Fails f.words (f.readMember fuel depth key slots bytes)
  | _, .nil, _, key, slots, bytes => by
    simp only [Fields.readMember]
    split
    · exact (fails_skipMember _ _ _).passed ‹_›
    · simp
  | _, .cons name s absent rest, depth, key, slots, bytes => by
    have hvalue (bytes : List UInt8) : Fails s.words
        (memberValue key (fun bytes => s.read fuel depth bytes) bytes) :=
      fails_memberValue (fun bytes => s.fails_read fuel depth bytes) bytes
    simp only [Fields.readMember]
    rw [Fields.words]
    split
    · split
      · simp
      · split
        · exact ((hvalue _).passed ‹_›).mono (by simp)
        · simp
    · split
      · exact ((rest.fails_readMember fuel depth key slots.2 bytes).passed ‹_›).mono (by simp)
      · simp

/-- The members in a list fail so too, or for their number. -/
theorem Fields.fails_readList (fuel : Nat) : ∀ {α : Type} (f : Fields α) (depth : Nat)
    (expected : String) (index : Nat) (bytes : List UInt8),
    Fails (expected :: f.words) (f.readList fuel depth expected index bytes)
  | _, .nil, _, _, _, _ => by
    rw [Fields.readList]
    exact fails_ok _
  | _, .cons name s absent rest, depth, expected, index, bytes => by
    have hrest (bytes : List UInt8) : Fails (expected :: (Fields.cons name s absent rest).words)
        (rest.readList fuel depth expected (index + 1) bytes) :=
      (rest.fails_readList fuel depth expected (index + 1) bytes).mono
        (List.cons_subset_cons _ fun w hw => by simp [Fields.words, hw])
    simp only [Fields.readList]
    split
    · exact (fails_nextItem _ _).passed ‹_›
    · split
      · simp
      · split
        · exact (hrest _).passed ‹_›
        · simp
    · split
      · exact ((s.fails_read fuel depth _).inside ‹_›).mono fun w hw => by simp [Fields.words, hw]
      · split
        · exact (hrest _).passed ‹_›
        · simp

end

/-- Behind a document only the form can fail. -/
theorem fails_readEnd {ws : List String} (bytes : List UInt8) : Fails ws (readEnd bytes) := by
  unfold readEnd
  split <;> simp +decide

/-- What is wrong with a whole text is said with words of the shape. -/
theorem Shape.words_of_ofBytes {α : Type} {s : Shape α} {bytes : List UInt8} {e : Error}
    (h : s.ofBytes bytes = .error e) : e.cause.words ⊆ s.words := by
  unfold Shape.ofBytes wholly at h
  split at h
  · rename_i hread
    cases h
    exact (s.fails_read _ _ _).words_subset hread
  · split at h
    · rename_i hend
      cases h
      exact (fails_readEnd _).words_subset hend
    · cases h

/-- What is wrong with the front of a text is said with words of the shape. -/
theorem Shape.words_of_ofFront {α : Type} {s : Shape α} {bytes : List UInt8} {e : Error}
    (h : s.ofFront bytes = .error e) : e.cause.words ⊆ s.words := by
  unfold Shape.ofFront at h
  split at h
  · rename_i hread
    cases h
    exact (s.fails_read _ _ _).words_subset hread
  · cases h

/-! ## Trees -/

section

variable {α σ : Type} {ws more : List String}

/-- What is wrong with a tree is said with these words. -/
def Refuses (ws : List String) (r : Except Cause α) : Prop := ∀ c, r = .error c → c.words ⊆ ws

@[simp] theorem refuses_ok (a : α) : Refuses ws (.ok a : Except Cause α) := nofun

@[simp] theorem refuses_error (c : Cause) : Refuses ws (.error c : Except Cause α) ↔ c.words ⊆ ws :=
  ⟨fun h => h c rfl, fun h _ hc => Except.error.inj hc ▸ h⟩

theorem Refuses.mono {r : Except Cause α} (h : Refuses ws r) (hmore : ws ⊆ more) : Refuses more r :=
  fun c hc => List.Subset.trans (h c hc) hmore

/-- What was found wrong is passed on. -/
theorem Refuses.passed {β : Type} {r : Except Cause α} {c : Cause} (h : Refuses ws r) (hc : r = .error c) :
    Refuses ws (.error c : Except Cause β) := (refuses_error c).2 (h c hc)

/-- Items are refused in the words for one. -/
theorem refuses_decodeItems {item : Value → Except Cause α} (hitem : ∀ v, Refuses ws (item v))
    (vs : List Value) : Refuses ws (decodeItems item vs) := by
  induction vs with
  | nil => exact refuses_ok _
  | cons v rest ih =>
    rw [decodeItems]
    split
    · exact (hitem v).passed ‹_›
    · split
      · exact ih.passed ‹_›
      · exact refuses_ok _

/-- Members are refused in the words for one. -/
theorem refuses_decodeMembers {member : String → Value → σ → Except Cause σ}
    (hmember : ∀ key v state, Refuses ws (member key v state)) (members : List (String × Value))
    (state : σ) : Refuses ws (decodeMembers member members state) := by
  induction members generalizing state with
  | nil => exact refuses_ok _
  | cons m rest ih =>
    rw [decodeMembers]
    split
    · exact (hmember _ _ _).passed ‹_›
    · exact ih _

theorem refuses_decodeUnit (noun : String) (v : Value) : Refuses [noun] (decodeUnit noun v) := by
  unfold decodeUnit
  split <;> simp

/-- A text that is no name is refused in the words of the names. -/
theorem refuses_decodeName_text (values : List α) (name : α → String) (text : String) :
    Refuses (Shape.enumeration values name).words (decodeName values name (.text text)) := by
  unfold decodeName
  dsimp only
  split <;> simp [Shape.words]

theorem refuses_decodeName (values : List α) (name : α → String) (v : Value) :
    Refuses (Shape.enumeration values name).words (decodeName values name v) := by
  unfold decodeName
  dsimp only
  split
  · exact refuses_decodeName_text values name _
  · split
    · rename_i hfind
      exact (refuses_decodeName_text values name _).passed hfind
    · split
      · exact ((refuses_decodeUnit _ _).passed ‹_›).mono (by simp [Shape.words])
      · exact refuses_ok _
  · simp [Shape.words]
  · simp [Shape.words]

end

/-- A record is refused as its members are, or for want of one of them, or for its length. -/
theorem Shape.refuses_decode_record {α : Type} {noun : String} {fields : Fields α}
    (hlist : ∀ items, Refuses (fields.expected noun :: fields.words)
      (fields.decodeList (fields.expected noun) 0 items))
    (hmember : ∀ key v slots, Refuses fields.words (fields.decodeMember key v slots)) (v : Value) :
    Refuses (Shape.record noun fields).words ((Shape.record noun fields).decode v) := by
  have hfields := fields.words_subset_record noun
  unfold Shape.decode
  split
  · split
    · exact (refuses_decodeMembers (fun key v slots => (hmember key v slots).mono hfields) _ _).passed
        ‹_›
    · split
      · simpa using hfields (fields.mem_words_of_finish ‹_›)
      · simp
  · split
    · exact ((hlist _).passed ‹_›).mono (fields.expected_words_subset_record noun)
    · split <;> simp [Shape.words]
  · simp [Shape.words]

mutual

/-- What is wrong with a tree is said with words of the shape. -/
theorem Shape.refuses_decode : ∀ {α : Type} (s : Shape α) (v : Value), Refuses s.words (s.decode v)
  | _, .text, v => by
    unfold Shape.decode
    rw [Shape.words]
    split <;> simp
  | _, .flag, v => by
    unfold Shape.decode
    rw [Shape.words]
    split <;> simp
  | _, .natural noun, v => by
    unfold Shape.decode
    rw [Shape.words]
    split <;> simp
  | _, .integer, v => by
    unfold Shape.decode
    rw [Shape.words]
    repeat' split
    all_goals simp
  | _, .unit noun, v => by
    unfold Shape.decode
    exact refuses_decodeUnit noun v
  | _, .any, v => by
    unfold Shape.decode
    exact refuses_ok v
  | _, .optional s, v => by
    unfold Shape.decode
    rw [Shape.words]
    split
    · simp
    · split
      · exact (s.refuses_decode _).passed ‹_›
      · simp
  | _, .list s, v => by
    unfold Shape.decode
    rw [Shape.words]
    split
    · exact refuses_decodeItems (fun v => (s.refuses_decode v).mono (List.subset_cons_self _ _)) _
    · simp
  | _, .enumeration values name, v => by
    unfold Shape.decode
    exact refuses_decodeName values name v
  | _, .record noun fields, v => by
    exact Shape.refuses_decode_record (fields.refuses_decodeList (fields.expected noun) 0)
      fields.refuses_decodeMember v
  | _, .via make _ s, v => by
    unfold Shape.decode
    rw [Shape.words]
    split
    · exact (s.refuses_decode _).passed ‹_›
    · simp

/-- A member of a record is refused in the words of the members. -/
theorem Fields.refuses_decodeMember : ∀ {α : Type} (f : Fields α) (key : String) (v : Value)
    (slots : f.Slots), Refuses f.words (f.decodeMember key v slots)
  | _, .nil, _, _, _ => by
    simp only [Fields.decodeMember]
    exact refuses_ok _
  | _, .cons name s absent rest, key, v, slots => by
    simp only [Fields.decodeMember]
    rw [Fields.words]
    split
    · split
      · simp
      · split
        · exact ((s.refuses_decode v).passed ‹_›).mono (by simp)
        · simp
    · split
      · exact ((rest.refuses_decodeMember key v slots.2).passed ‹_›).mono (by simp)
      · simp

/-- The members in a list are refused so too, or for their number. -/
theorem Fields.refuses_decodeList : ∀ {α : Type} (f : Fields α) (expected : String) (index : Nat)
    (vs : List Value), Refuses (expected :: f.words) (f.decodeList expected index vs)
  | _, .nil, _, _, _ => by
    simp only [Fields.decodeList]
    exact refuses_ok _
  | _, .cons name s absent rest, expected, index, vs => by
    have hrest (vs : List Value) : Refuses (expected :: (Fields.cons name s absent rest).words)
        (rest.decodeList expected (index + 1) vs) :=
      (rest.refuses_decodeList expected (index + 1) vs).mono
        (List.cons_subset_cons _ fun w hw => by simp [Fields.words, hw])
    cases vs with
    | nil =>
      simp only [Fields.decodeList]
      split
      · simp
      · split
        · exact (hrest _).passed ‹_›
        · simp
    | cons v vs =>
      simp only [Fields.decodeList]
      split
      · exact ((s.refuses_decode v).passed ‹_›).mono fun w hw => by simp [Fields.words, hw]
      · split
        · exact (hrest _).passed ‹_›
        · simp

end

end PullGate.Json
