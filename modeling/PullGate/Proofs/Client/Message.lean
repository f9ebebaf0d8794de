import PullGate.Client.Fault
import PullGate.Client.Replies
import PullGate.Proofs.Json.Wording
import PullGate.Proofs.Text.Occurrence
/-!
# What messages quote

The message for a body that was not of the right shape is made of fixed words, of words of the shape,
and of what is quoted: what was found, where, and under which keys. Of every text by which a status or
a failure of the network is told, `infix_message_iff_of_mem_statusMarks` and its companion for small
letters say that it stands in the message only if it stands in a quote.
-/

namespace PullGate

/-! ## Messages in parts -/

namespace Json

/-- What a message quotes of a step. -/
def Segment.text : Segment → String
  | index n => toString n
  | key name => name
  | unknown => ""

/-- What a cause quotes; nothing, if it does not hang on what is in the text. -/
def Cause.quote : Cause → String
  | wrongType found _ | wrongValue found _ => found.described
  | wrongLength n _ => toString n
  | unknownVariant name _ => name
  | _ => ""

/-- What an error quotes, besides its path. -/
def Error.quotes (e : Error) : List String :=
  e.cause.quote :: match e.position with
    | some p => [toString p.line, toString p.column]
    | none => []

/-- A cause behind a colon and a line behind it: what is quoted and the words of the shape, each with
the fixed words in front. The last fixed words go up to the line, since some causes end like the
beginning of a text that is looked for: what follows `a list` might make a `timeout` of it. -/
def Cause.parts (line : String) : Cause → List (String × String)
  | wrongType found expected =>
    [(": " ++ "invalid type: ", found.described), (", expected ", expected), (" at line ", line)]
  | wrongValue found expected =>
    [(": " ++ "invalid value: ", found.described), (", expected ", expected), (" at line ", line)]
  | wrongLength n expected =>
    [(": " ++ "invalid length ", toString n), (", expected ", expected), (" at line ", line)]
  | unknownVariant name known =>
    [(": " ++ "unknown variant `", name), ("`, ", describedKnown known), (" at line ", line)]
  | missingField name => [(": " ++ "missing field `", name), ("`" ++ " at line ", line)]
  | duplicateField name => [(": " ++ "duplicate field `", name), ("`" ++ " at line ", line)]
  | other => [(": " ++ other.message ++ " at line ", line)]

/-- An error behind a colon in parts. Where it is without a place, they go on to where the line would
stand. -/
def Error.parts (e : Error) : List (String × String) :=
  match e.position with
  | some p => e.cause.parts (toString p.line) ++ [(" column ", toString p.column)]
  | none => e.cause.parts ""

/-- A step in parts, behind fixed words and a mark. -/
def Segment.parts (front mark : String) : Segment → List (String × String)
  | index n => [(front ++ "[", toString n), ("]", "")]
  | key name => [(front ++ mark, name)]
  | unknown => [(front ++ mark ++ "?", "")]

/-- Steps in parts, behind fixed words. -/
def pathParts (front : String) : List Segment → List (String × String)
  | [] => [(front ++ ".", "")]
  | s :: rest => s.parts front "" ++ rest.flatMap (Segment.parts "" ".")

end Json

/-- A part and the fixed words in front as characters. -/
def Text.chars (p : String × String) : List Char × List Char := (p.1.toList, p.2.toList)

namespace Json

open Text (chars spell)

/-- What each cause is called, written out piece by piece. -/
theorem Cause.message_eq (c : Cause) : c.message = match c with
    | wrongType found expected => "invalid type: " ++ found.described ++ ", expected " ++ expected
    | wrongValue found expected => "invalid value: " ++ found.described ++ ", expected " ++ expected
    | wrongLength n expected => "invalid length " ++ toString n ++ ", expected " ++ expected
    | unknownVariant name known => "unknown variant `" ++ name ++ "`, " ++ describedKnown known
    | missingField name => "missing field `" ++ name ++ "`"
    | duplicateField name => "duplicate field `" ++ name ++ "`"
    | c => c.message := by
  cases c <;> rfl

/-- What is said of an error: its cause, and where it is if that is known. -/
theorem Error.message_eq (e : Error) : e.message = match e.position with
    | some p => e.cause.message ++ " at line " ++ toString p.line ++ " column " ++ toString p.column
    | none => e.cause.message := by
  obtain ⟨cause, _ | p, path⟩ := e <;> rfl

/-- The parts of a cause spell its message, between a colon and the line. -/
theorem Cause.spell_parts (c : Cause) (line : String) :
    spell ((c.parts line).map chars) = (": " ++ c.message ++ " at line " ++ line).toList := by
  rw [message_eq]
  cases c <;> simp only [parts, chars, spell, List.map_cons, List.map_nil, List.flatMap_cons,
    List.flatMap_nil, String.toList_append, List.append_assoc, List.append_nil]

/-- The parts of an error begin with its message. -/
theorem Error.prefix_spell_parts (e : Error) :
    (": " ++ e.message).toList <+: spell (e.parts.map chars) := by
  rw [message_eq, parts]
  split
  · rw [List.map_append, Text.spell_append, Cause.spell_parts]
    simp only [chars, spell, List.map_cons, List.map_nil, List.flatMap_cons, List.flatMap_nil,
      String.toList_append, List.append_assoc, List.append_nil]
    exact List.prefix_rfl
  · rw [Cause.spell_parts]
    simp only [String.toList_append, List.append_assoc, List.prefix_append_right_inj]
    exact List.prefix_append _ _

/-- The parts of steps spell the path that goes on with them. -/
theorem spell_steps (path : List Segment) :
    spell ((path.flatMap (Segment.parts "" ".")).map chars) = (renderPath.go "." path).toList := by
  induction path with
  | nil => rfl
  | cons s rest ih =>
    rw [List.flatMap_cons, List.map_append, Text.spell_append, ih]
    cases s <;> simp [Segment.parts, renderPath.go, chars, spell]

/-- The parts of a path spell it, behind what stands in front. -/
theorem spell_pathParts (front : String) (path : List Segment) :
    spell ((pathParts front path).map chars) = (front ++ renderPath path).toList := by
  cases path with
  | nil => simp [pathParts, renderPath, chars, spell]
  | cons s rest =>
    rw [pathParts, List.map_append, Text.spell_append, spell_steps]
    cases s <;> simp [Segment.parts, renderPath, renderPath.go, chars, spell]

/-! ## Quotes in messages -/

/-- What a cause quotes stands in its message. -/
theorem Cause.infix_quote (c : Cause) : c.quote.toList <:+: c.message.toList := by
  have hquote {a q b : String} : q.toList <:+: (a ++ q ++ b).toList := by
    rw [String.toList_append, String.toList_append]
    exact List.infix_append _ _ _
  rw [message_eq]
  cases c with
  | wrongType | wrongValue | wrongLength | unknownVariant =>
    rw [String.toList_append]
    exact hquote.trans (List.prefix_append _ _).isInfix
  | _ => exact List.nil_infix

/-- What an error quotes stands in its message. -/
theorem Error.infix_of_mem_quotes (e : Error) {q : String} (hq : q ∈ e.quotes) :
    q.toList <:+: e.message.toList := by
  rw [message_eq]
  unfold quotes at hq
  split at hq
  · simp only [String.toList_append]
    simp only [List.mem_cons, List.not_mem_nil, or_false] at hq
    rcases hq with rfl | rfl | rfl
    · rw [List.append_assoc, List.append_assoc, List.append_assoc]
      exact e.cause.infix_quote.trans (List.prefix_append _ _).isInfix
    · exact (List.infix_append _ _ _).trans (List.prefix_append _ _).isInfix
    · exact (List.suffix_append _ _).isInfix
  · rw [List.mem_singleton] at hq
    exact hq ▸ e.cause.infix_quote

/-- Each step of a path stands in the path. -/
theorem infix_renderPath {path : List Segment} {s : Segment} (hs : s ∈ path) :
    s.text.toList <:+: (renderPath path).toList := by
  -- the mark in front differs between the first step and the later ones
  have hgo (mark : String) : s.text.toList <:+: (renderPath.go mark path).toList := by
    induction path generalizing mark with
    | nil => cases hs
    | cons first rest ih =>
      rcases List.mem_cons.1 hs with rfl | hs
      · cases s with
        | unknown => exact List.nil_infix
        | index n =>
          simp only [renderPath.go, Segment.text, String.toList_append]
          exact (List.infix_append _ _ _).trans (List.prefix_append _ _).isInfix
        | key name =>
          simp only [renderPath.go, Segment.text, String.toList_append]
          exact List.infix_append _ _ _
      · have hrest : (renderPath.go "." rest).toList <:+ (renderPath.go mark (first :: rest)).toList := by
          cases first <;> simp only [renderPath.go, String.toList_append] <;> exact List.suffix_append _ _
        exact (ih hs ".").trans hrest.isInfix
  cases path with
  | nil => cases hs
  | cons first rest => exact hgo ""

/-! ## What is in a part -/

section

variable {P : String → Prop} (hnil : ¬ P "")

include hnil

/-- What holds of none of a cause's words holds of a part only if it holds of the quote. -/
theorem Cause.exists_part_iff {c : Cause} (hwords : ∀ w ∈ c.words, ¬ P w) (line : String) :
    (∃ p ∈ c.parts line, P p.2) ↔ P c.quote ∨ P line := by
  cases c <;> simp_all [parts, quote]

/-- If no word of the cause has a property, a part of the error has it exactly if a quotation does. -/
theorem Error.exists_part_iff {e : Error} (hwords : ∀ w ∈ e.cause.words, ¬ P w) :
    (∃ p ∈ e.parts, P p.2) ↔ ∃ q ∈ e.quotes, P q := by
  obtain ⟨cause, position, path⟩ := e
  have hcause := Cause.exists_part_iff hnil hwords
  cases position with
  | none => simp [parts, quotes, hcause, hnil]
  | some p => simp [parts, quotes, or_and_right, exists_or, hcause, or_assoc]

/-- A part of a path has a property exactly if a step does. -/
theorem exists_pathPart_iff (front : String) (path : List Segment) :
    (∃ p ∈ pathParts front path, P p.2) ↔ ∃ s ∈ path, P s.text := by
  have hstep (front mark : String) (s : Segment) :
      (∃ p ∈ s.parts front mark, P p.2) ↔ P s.text := by
    cases s <;> simp [Segment.parts, Segment.text, hnil]
  cases path with
  | nil => simp [pathParts, hnil]
  | cons s rest =>
    simp only [pathParts, List.mem_append, or_and_right, exists_or, hstep, List.exists_mem_cons_iff,
      List.mem_flatMap]
    refine or_congr_right ⟨?_, ?_⟩
    · rintro ⟨p, ⟨s, hs, hp⟩, hP⟩
      exact ⟨s, hs, (hstep _ _ s).1 ⟨p, hp, hP⟩⟩
    · rintro ⟨s, hs, hP⟩
      obtain ⟨p, hp, hP⟩ := (hstep "" "." s).2 hP
      exact ⟨p, ⟨s, hs, hp⟩, hP⟩

end

end Json

/-! ## Walls -/

namespace Client

open Text (Bars chars smallAlone spell toSmall)

/-- What tells of a status in a message, but for what is looked for in small letters. -/
def statusMarks : List (List Char) :=
  (404 :: plainStatuses).map (Nat.toDigits 10) ++
    (List.range 10).map fun d => "status: ".toList ++ [Nat.digitChar d]

/-- What is looked for in small letters. -/
def smallMarks : List (List Char) := ("not found" :: networkWords).map String.toList

/-- Nothing that is looked for can stand across these fixed words. -/
def IsWall (w : String) : Prop :=
  (∀ n ∈ statusMarks, Bars w.toList n) ∧ ∀ n ∈ smallMarks, Bars (w.toList.flatMap smallAlone) n

instance (w : String) : Decidable (IsWall w) := inferInstanceAs (Decidable (_ ∧ _))

/-- The fixed words around a cause's quotations are walls. -/
theorem isWall_of_mem_causeParts {c : Json.Cause} {line : String} : ∀ p ∈ c.parts line, IsWall p.1 := by
  have hline : IsWall " at line " := by decide +kernel
  have hmember : IsWall ("`" ++ " at line ") := by decide +kernel
  have hexpected : IsWall ", expected " := by decide +kernel
  cases c with
  | wrongType | wrongValue | wrongLength =>
    simp only [Json.Cause.parts, List.forall_mem_cons]
    exact ⟨by decide +kernel, hexpected, hline, List.forall_mem_nil _⟩
  | unknownVariant =>
    simp only [Json.Cause.parts, List.forall_mem_cons]
    exact ⟨by decide +kernel, by decide +kernel, hline, List.forall_mem_nil _⟩
  | missingField | duplicateField =>
    simp only [Json.Cause.parts, List.forall_mem_cons]
    exact ⟨by decide +kernel, hmember, List.forall_mem_nil _⟩
  | _ =>
    simp only [Json.Cause.parts, List.forall_mem_singleton, IsWall, String.toList_append]
    decide +kernel

/-- The fixed words around an error's quotations are walls. -/
theorem isWall_of_mem_errorParts {e : Json.Error} : ∀ p ∈ e.parts, IsWall p.1 := by
  have hcolumn : IsWall " column " := by decide +kernel
  unfold Json.Error.parts
  split
  · exact List.forall_mem_append.2
      ⟨isWall_of_mem_causeParts, (List.forall_mem_singleton).2 hcolumn⟩
  · exact isWall_of_mem_causeParts

/-- The fixed words around a step are walls, if what stands in front of them makes them so. -/
theorem isWall_of_mem_segmentParts {front mark : String} (hindex : IsWall (front ++ "["))
    (hkey : IsWall (front ++ mark)) (hunknown : IsWall (front ++ mark ++ "?")) {s : Json.Segment} :
    ∀ p ∈ s.parts front mark, IsWall p.1 := by
  have hclose : IsWall "]" := by decide +kernel
  cases s with
  | index n => exact List.forall_mem_cons.2 ⟨hindex, (List.forall_mem_singleton).2 hclose⟩
  | key name => exact (List.forall_mem_singleton).2 hkey
  | unknown => exact (List.forall_mem_singleton).2 hunknown

/-- The fixed words around the steps of a path are walls. -/
theorem isWall_of_mem_pathParts {path : List Json.Segment} :
    ∀ p ∈ Json.pathParts "JSON Error in " path, IsWall p.1 := by
  have hfirst {s : Json.Segment} : ∀ p ∈ s.parts "JSON Error in " "", IsWall p.1 :=
    isWall_of_mem_segmentParts (by decide +kernel) (by decide +kernel) (by decide +kernel)
  have hlater {s : Json.Segment} : ∀ p ∈ s.parts "" ".", IsWall p.1 :=
    isWall_of_mem_segmentParts (by decide +kernel) (by decide +kernel) (by decide +kernel)
  cases path with
  | nil =>
    simp only [Json.pathParts, List.forall_mem_singleton]
    decide +kernel
  | cons s rest =>
    intro p hp
    rw [Json.pathParts, List.mem_append, List.mem_flatMap] at hp
    rcases hp with hp | ⟨s, -, hp⟩
    · exact hfirst p hp
    · exact hlater p hp

/-! ## Faults that lie in a body -/

/-- The fault is that a body was not of the right shape, and is said with these words. -/
def Fault.SaidWith (words : List String) : Fault → Prop
  | unread e | misshapen e => e.cause.words ⊆ words
  | _ => False

/-- What the message quotes of a body. -/
def Fault.quotes : Fault → List String
  | unread e => e.quotes
  | misshapen e => e.path.map Json.Segment.text ++ e.quotes
  | _ => []

/-- The first words of the message, if it does not begin with a part. -/
def Fault.front : Fault → String
  | unread _ => "Serde Error"
  | _ => ""

/-- The message in parts behind its first words, if the fault lies in a body. -/
def Fault.parts : Fault → List (String × String)
  | unread e => e.parts
  | misshapen e => Json.pathParts "JSON Error in " e.path ++ e.parts
  | _ => []

section

variable {f : Fault} {words : List String}

/-- All fixed words in the message of a fault are walls. -/
theorem isWall_of_mem_faultParts : ∀ p ∈ f.parts, IsWall p.1 := by
  cases f with
  | unread e => exact isWall_of_mem_errorParts
  | misshapen e => exact List.forall_mem_append.2 ⟨isWall_of_mem_pathParts, isWall_of_mem_errorParts⟩
  | _ => exact List.forall_mem_nil _

/-- What holds of none of the words holds of a part only if it holds of a quote. -/
theorem Fault.exists_part_iff {P : String → Prop} (hf : f.SaidWith words) (hnil : ¬ P "")
    (hwords : ∀ w ∈ words, ¬ P w) : (∃ p ∈ f.parts, P p.2) ↔ ∃ q ∈ f.quotes, P q := by
  cases f with
  | unread e => exact Json.Error.exists_part_iff hnil fun w hw => hwords w (hf hw)
  | misshapen e =>
    have herror := Json.Error.exists_part_iff hnil fun w hw => hwords w (hf hw)
    have hpath := Json.exists_pathPart_iff hnil "JSON Error in " e.path
    simp only [parts, quotes, List.mem_append, or_and_right, exists_or, herror, hpath, List.mem_map,
      exists_exists_and_eq_and]
  | _ => exact hf.elim

/-- The message of a body that is not JSON is that of the reader, behind two words. -/
theorem Fault.message_unread (e : Json.Error) : (unread e).message = "Serde Error: " ++ e.message := rfl

/-- The message of a body of another shape names the path and then what is wrong. -/
theorem Fault.message_misshapen (e : Json.Error) :
    (misshapen e).message = "JSON Error in " ++ Json.renderPath e.path ++ ": " ++ e.message := rfl

/-- Quotes stand in the message. -/
theorem Fault.infix_of_mem_quotes {q : String} (hq : q ∈ f.quotes) :
    q.toList <:+: f.message.toList := by
  cases f with
  | unread e =>
    rw [message_unread, String.toList_append]
    exact (e.infix_of_mem_quotes hq).trans (List.suffix_append _ _).isInfix
  | misshapen e =>
    rw [quotes, List.mem_append, List.mem_map] at hq
    simp only [message_misshapen, String.toList_append]
    rcases hq with ⟨s, hs, rfl⟩ | hq
    · rw [List.append_assoc, List.append_assoc]
      exact (Json.infix_renderPath hs).trans (List.infix_append' _ _ _)
    · exact (e.infix_of_mem_quotes hq).trans (List.suffix_append _ _).isInfix
  | _ => cases hq

/-- The parts spell the message, and may go on behind it. -/
theorem Fault.prefix_spell_parts (hf : f.SaidWith words) :
    f.message.toList <+: f.front.toList ++ spell (f.parts.map chars) := by
  cases f with
  | unread e =>
    have hfront : "Serde Error: " = "Serde Error" ++ ": " := by decide +kernel
    rw [message_unread, hfront, String.append_assoc, String.toList_append]
    exact (List.prefix_append_right_inj _).2 e.prefix_spell_parts
  | misshapen e =>
    rw [parts, List.map_append, Text.spell_append, Json.spell_pathParts, message_misshapen,
      String.append_assoc, String.toList_append]
    exact (List.prefix_append_right_inj _).2 e.prefix_spell_parts
  | _ => exact hf.elim

/-- **Words stand in quotes.** Whatever is made of each character: if the walls bar a word that is not
in the first words and in no word of the shape, it stands in the message only if it stands in a quote.
-/
theorem Fault.infix_message_iff (image : Char → List Char) (hf : f.SaidWith words) {word : List Char}
    (hword : word ≠ []) (hfront : ¬ word <:+: f.front.toList.flatMap image)
    (hwalls : ∀ p ∈ f.parts, Bars (p.1.toList.flatMap image) word)
    (hwords : ∀ w ∈ words, ¬ word <:+: w.toList.flatMap image) :
    word <:+: f.message.toList.flatMap image ↔ ∃ q ∈ f.quotes, word <:+: q.toList.flatMap image := by
  constructor
  · intro h
    have hnil : ¬ word <:+: "".toList.flatMap image := by simpa using hword
    have hspelled := h.trans ((Fault.prefix_spell_parts hf).flatMap image).isInfix
    rw [List.flatMap_append, Text.flatMap_spell, Text.infix_append_spell, or_iff_right hfront] at hspelled
    · rw [← Fault.exists_part_iff (P := fun w => word <:+: w.toList.flatMap image) hf hnil hwords]
      simpa [chars] using hspelled
    · exact List.forall_mem_map.2 (List.forall_mem_map.2 hwalls)
  · rintro ⟨q, hq, h⟩
    exact h.trans ((Fault.infix_of_mem_quotes hq).flatMap image)

/-! ## Marks -/

/-- None of these words has anything in it that is looked for. -/
def Harmless (words : List String) : Prop :=
  ∀ w ∈ words, (∀ n ∈ statusMarks, ¬ n <:+: w.toList) ∧
    ∀ n ∈ smallMarks, ¬ n <:+: w.toList.flatMap smallAlone

instance (words : List String) : Decidable (Harmless words) :=
  inferInstanceAs (Decidable (∀ _ ∈ _, _ ∧ _))

theorem harmless_front : Harmless [f.front] := by
  have hnone : Harmless [""] := by decide +kernel
  have hserde : Harmless ["Serde Error"] := by decide +kernel
  cases f <;> assumption

/-- A status stands in the message of a fault exactly if it stands in something that is quoted. -/
theorem infix_message_iff_of_mem_statusMarks (hf : f.SaidWith words) (hwords : Harmless words)
    {n : List Char} (hn : n ∈ statusMarks) :
    n <:+: f.message.toList ↔ ∃ q ∈ f.quotes, n <:+: q.toList := by
  have hne : ∀ n ∈ statusMarks, n ≠ [] := by decide +kernel
  have h := Fault.infix_message_iff (fun c => [c]) hf (hne n hn)
  simp only [List.flatMap_singleton'] at h
  exact h ((harmless_front _ (List.mem_singleton_self _)).1 n hn)
    (fun p hp => (isWall_of_mem_faultParts p hp).1 n hn) fun w hw => (hwords w hw).1 n hn

/-- A telling word stands in the message, in small letters, exactly if it does so in a quotation. -/
theorem infix_small_message_iff_of_mem_smallMarks (hf : f.SaidWith words) (hwords : Harmless words)
    {n : List Char} (hn : n ∈ smallMarks) :
    n <:+: (toSmall f.message).toList ↔ ∃ q ∈ f.quotes, n <:+: (toSmall q).toList := by
  have hne : ∀ n ∈ smallMarks, n ≠ [] ∧ 'σ' ∉ n ∧ 'ς' ∉ n := by decide +kernel
  have hsmall (s : String) : n <:+: (toSmall s).toList ↔ n <:+: s.toList.flatMap smallAlone := by
    rw [toSmall, String.toList_ofList, Text.infix_smallFrom (hne n hn).2]
  simp only [hsmall]
  exact Fault.infix_message_iff smallAlone hf (hne n hn).1
    ((harmless_front _ (List.mem_singleton_self _)).2 n hn)
    (fun p hp => (isWall_of_mem_faultParts p hp).2 n hn) fun w hw => (hwords w hw).2 n hn

end

end Client

end PullGate
