import PullGate.Proofs.Client.Conversation
import PullGate.Proofs.Text.Decoding
/-!
# Contents of files

What is answered when the host serves a file. Its contents are encoded, with blanks wherever the host
puts them (`Wraps`). `contents_answered` says that the answer is the file's text, if the file is a text,
and empty, if the host serves no contents; a file that is no text is answered with replacement
characters, and so its answer is never empty.
-/

namespace PullGate.Client

open PullGate.Json (SpellsWhole Value depthLimit)
open PullGate.Text (Base64.encode)

/-! ## Encoded contents -/

/-- The blanks that may stand anywhere in encoded contents. -/
def blanks : List Char := [' ', '\n', '\t', '\r', '\x0b', '\x0c']

/-- A text is made of these symbols, with blanks anywhere. -/
inductive Wraps : List Char → List UInt8 → Prop
  | nil : Wraps [] []
  | blank {c : Char} {cs : List Char} {symbols : List UInt8} (h : c ∈ blanks)
      (more : Wraps cs symbols) : Wraps (c :: cs) symbols
  | symbol {c : Char} {b : UInt8} {cs : List Char} {symbols : List UInt8}
      (h : c = Char.ofNat b.toNat) (more : Wraps cs symbols) : Wraps (c :: cs) (b :: symbols)

/-- A byte is a character of its own, and no blank. -/
def IsMark (b : UInt8) : Prop := b.toNat < 0x80 ∧ isFiller b = false

instance (b : UInt8) : Decidable (IsMark b) := inferInstanceAs (Decidable (_ ∧ _))

theorem isMark_symbol {n : Nat} (h : n < 64) : IsMark (Text.Base64.symbol n) := by
  have hall : ∀ n < 64, IsMark (Text.Base64.symbol n) := by decide
  exact hall n h

theorem isMark_pad : IsMark Text.Base64.pad := by decide

/-- Nothing that is written for bytes is a blank. -/
theorem isMark_of_mem_encode {bytes : List UInt8} : ∀ b ∈ Base64.encode bytes, IsMark b := by
  fun_induction Base64.encode bytes with
  | case1 => exact List.forall_mem_nil _
  -- the last group may be short, and then it is padded
  | case2 a =>
    have ha := a.toNat_lt
    simp only [List.forall_mem_cons, isMark_pad, true_and]
    exact ⟨isMark_symbol (by omega), isMark_symbol (by omega), List.forall_mem_nil _⟩
  | case3 a b =>
    have ha := a.toNat_lt
    have hb := b.toNat_lt
    simp only [List.forall_mem_cons, isMark_pad, true_and]
    exact ⟨isMark_symbol (by omega), isMark_symbol (by omega), isMark_symbol (by omega),
      List.forall_mem_nil _⟩
  | case4 a b c rest ih =>
    have ha := a.toNat_lt
    have hb := b.toNat_lt
    have hc := c.toNat_lt
    simp only [List.forall_mem_cons]
    exact ⟨isMark_symbol (by omega), isMark_symbol (by omega), isMark_symbol (by omega),
      isMark_symbol (by omega), ih⟩

/-- Without its blanks, the text is its symbols. -/
theorem Wraps.filter {cs : List Char} {symbols : List UInt8} (h : Wraps cs symbols)
    (hsymbols : ∀ b ∈ symbols, IsMark b) :
    (Text.Utf8.encode cs).filter (fun b => !isFiller b) = symbols := by
  induction h with
  | nil => rfl
  | @blank c cs symbols hc more ih =>
    have hall : blanks.all (fun c => (Text.Utf8.encodeChar c).all isFiller) = true := by decide
    have hfiller : (Text.Utf8.encodeChar c).filter (fun b => !isFiller b) = [] := by
      simpa using List.all_eq_true.1 hall c hc
    rw [Text.Utf8.encode_cons, List.filter_append, hfiller, List.nil_append, ih hsymbols]
  | @symbol c b cs symbols hc more ih =>
    obtain ⟨⟨hascii, hmark⟩, hmore⟩ := List.forall_mem_cons.1 hsymbols
    have hb : Text.Utf8.encodeChar c = [b] := by
      rw [hc, Text.Utf8.encodeChar, Text.Utf8.toNat_ofNat (.inl (by omega))]
      simp [hascii]
    rw [Text.Utf8.encode_cons, hb, List.singleton_append, List.filter_cons_of_pos (by simp [hmark]),
      ih hmore]

/-- What encoded contents are read as, wherever blanks were put. -/
theorem decodedText_of_wraps {encoded : String} {bytes : List UInt8}
    (h : Wraps encoded.toList (Base64.encode bytes)) :
    decodedText encoded = String.ofList (Text.Utf8.decodeLossy bytes) := by
  rw [decodedText, Text.Utf8.ofString, h.filter isMark_of_mem_encode, Text.Base64.decode?_encode]

/-! ## Files that are served -/

/-- A body is a text of an object that describes a file, or of a list of such objects, the first of
which is this file. The file is served with these encoded contents, or without contents. -/
def Serves (body : List UInt8) (encoded? : Option String) : Prop :=
  ∃ tree others, SpellsWhole body tree ∧ tree.depth < depthLimit ∧
    contentsOf tree = .ok (encoded? :: others)

/-- The text of a file that is served is what its encoding stands for, or empty if it has none. -/
theorem contentText_of_serves {body : List UInt8} {encoded? : Option String}
    (h : Serves body encoded?) : contentText body = .ok ((encoded?.map decodedText).getD "") := by
  obtain ⟨tree, others, hspells, hdepth, hcontents⟩ := h
  have htree : Json.Shape.any.ofBytes body = .ok tree := Json.Shape.ofBytes_of_decode hspells hdepth rfl
  rw [contentText, htree]
  simp only [hcontents]
  cases encoded? <;> rfl

section

variable {τ : Type} {repository : Repository} {path : String} {reference : Commit}
  {transport : Transport τ} {t : τ} {reply : Reply} {encoded? : Option String}

/-- A file that is served is answered by what its contents are read as. -/
theorem answer_of_serves
    (hheard : .ok reply ∈ (call repository (.getFileContent path reference)).heard transport t)
    (hstatus : 200 ≤ reply.status ∧ reply.status < 300) (hserves : Serves reply.body encoded?) :
    ((call repository (.getFileContent path reference)).run transport t).1.2 =
      .ok (.fileContent ((encoded?.map decodedText).getD "")) := by
  rw [call, heard_mapOk, fileText] at hheard
  have hread : reply.read contentText = .ok ((encoded?.map decodedText).getD "") := by
    rw [Reply.read, if_pos (by simpa using hstatus), contentText_of_serves hserves]
  rw [call, run_mapOk, fileText]
  simp only [run_ask hheard, hread]
  rfl

/-- **Files as they are answered.** A file without contents is answered by the empty text, and one that
is a text by this text, wherever the host put blanks into its encoded contents. A file that is no text
is answered by a text with a replacement character in it. -/
theorem contents_answered
    (hheard : .ok reply ∈ (call repository (.getFileContent path reference)).heard transport t)
    (hstatus : 200 ≤ reply.status ∧ reply.status < 300) (hserves : Serves reply.body encoded?) :
    let answer := ((call repository (.getFileContent path reference)).run transport t).1.2
    (encoded? = none → answer = .ok (.fileContent "")) ∧
    ∀ encoded bytes, encoded? = some encoded → Wraps encoded.toList (Base64.encode bytes) →
      (∀ text : String, text.toUTF8.data.toList = bytes → answer = .ok (.fileContent text)) ∧
      ((∀ text : String, text.toUTF8.data.toList ≠ bytes) →
        ∃ text, answer = .ok (.fileContent text) ∧ '\ufffd' ∈ text.toList) := by
  have hanswer := answer_of_serves hheard hstatus hserves
  refine ⟨?_, fun encoded bytes hencoded hwraps => ?_⟩
  · rintro rfl
    exact hanswer
  · subst hencoded
    have htext : (Option.map decodedText (some encoded)).getD "" =
        String.ofList (Text.Utf8.decodeLossy bytes) := decodedText_of_wraps hwraps
    rw [htext] at hanswer
    constructor
    · rintro text rfl
      rw [hanswer, ← Text.Utf8.ofString_eq, Text.Utf8.ofString, Text.Utf8.decodeLossy_encode,
        String.ofList_toList]
    · intro hne
      refine ⟨_, hanswer, ?_⟩
      rw [String.toList_ofList]
      refine Text.Utf8.mem_decodeLossy fun cs hcs => hne (String.ofList cs) ?_
      rw [← Text.Utf8.ofString_eq, Text.Utf8.ofString, String.toList_ofList, hcs]

end

/-! ## A file in pieces -/

/-- What the host says of a file with these encoded contents. -/
def fileTree (encoded : String) : Value := .object [
  ("_links", .object [("self", .text "")]), ("content", .text encoded), ("name", .text "sum.py"),
  ("path", .text "sum.py"), ("sha", .text ""), ("size", .number (.natural 3)), ("type", .text "file"),
  ("url", .text "")]

theorem serves_fileTree (encoded : String) : Serves (fileTree encoded).bytes (some encoded) := by
  have hexact : (fileTree encoded).isExact = true := rfl
  have hdepth : (fileTree encoded).depth = 2 := rfl
  exact ⟨fileTree encoded, [], (Json.Value.spells_bytes hexact).whole, by rw [hdepth]; decide, rfl⟩

/-- The contents of a file are heard where they are asked for. -/
theorem heard_fileTree (encoded : String) :
    .ok ⟨200, (fileTree encoded).bytes⟩ ∈
      (call ⟨"octo", "algorithms"⟩ (.getFileContent "sum.py" ⟨"c0ffee"⟩)).heard
        (.steady ⟨200, (fileTree encoded).bytes⟩) () := by
  have hsent : address? (withQuery (inRepository ⟨"octo", "algorithms"⟩ ("/contents/" ++ "sum.py"))
      ("ref=" ++ Text.Percent.queryValue "c0ffee")) =
      some "/repos/octo/algorithms/contents/sum.py?ref=c0ffee" := by
    decide
  rw [call, heard_mapOk, fileText, heard_ask _ _ hsent]
  exact List.mem_singleton_self _

/-- A check mark that is served in two lines is answered. -/
theorem contents_answered_check_mark :
    ((call ⟨"octo", "algorithms"⟩ (.getFileContent "sum.py" ⟨"c0ffee"⟩)).run
      (.steady ⟨200, (fileTree "4p\nyT\n").bytes⟩) ()).1.2 = .ok (.fileContent "✓") := by
  have hwraps : Wraps "4p\nyT\n".toList (Base64.encode [0xe2, 0x9c, 0x93]) := by
    have hsymbols : Base64.encode [0xe2, 0x9c, 0x93] = [0x34, 0x70, 0x79, 0x54] := by decide
    rw [hsymbols]
    exact .symbol rfl (.symbol rfl (.blank (by decide) (.symbol rfl (.symbol rfl
      (.blank (by decide) .nil)))))
  have hbytes : "✓".toUTF8.data.toList = [0xe2, 0x9c, 0x93] := by decide
  exact ((contents_answered (heard_fileTree _) ⟨by decide, by decide⟩ (serves_fileTree _)).2
    _ _ rfl hwraps).1 "✓" hbytes

/-- A byte that is no text by itself is answered nevertheless, and not by the empty text. -/
theorem contents_of_no_text :
    Wraps "/w==".toList (Base64.encode [0xff]) ∧
    (∀ text : String, text.toUTF8.data.toList ≠ [0xff]) ∧
    ((call ⟨"octo", "algorithms"⟩ (.getFileContent "sum.py" ⟨"c0ffee"⟩)).run
      (.steady ⟨200, (fileTree "/w==").bytes⟩) ()).1.2 = .ok (.fileContent "\ufffd") := by
  refine ⟨?_, fun text htext => ?_, ?_⟩
  · have hsymbols : Base64.encode [0xff] = [0x2f, 0x77, 0x3d, 0x3d] := by decide
    rw [hsymbols]
    exact .symbol rfl (.symbol rfl (.symbol rfl (.symbol rfl .nil)))
  · rw [← Text.Utf8.ofString_eq, Text.Utf8.ofString] at htext
    have hread := Text.Utf8.decode?_encode text.toList
    rw [htext] at hread
    cases hread
  · rw [answer_of_serves (heard_fileTree _) ⟨by decide, by decide⟩ (serves_fileTree _)]
    have htext : decodedText "/w==" = "\ufffd" := by decide
    rw [Option.map_some, Option.getD_some, htext]

end PullGate.Client
