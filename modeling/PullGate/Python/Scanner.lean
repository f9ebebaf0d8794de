import PullGate.Grammar.Reading
import PullGate.Python.Grammar
import PullGate.Text.Identifier
/-!
# Finding tokens

Which token comes next depends on what the parser could take. The end of a line is a token only
where a statement may end; a deeper margin only where a block may begin; a word is a keyword only
where that keyword may stand, and a name elsewhere. All else of a line's margin is blank.

Layout is looked at first, then the contents of an open string, then the other tokens, which never
depend on margins.
-/

namespace PullGate.Python

open PullGate.Grammar (Lexeme Scan Scanner)
open PullGate.Text (isIdentifierStart isIdentifierPart)

/-! ## The state of the scanner -/

/-- How an open string was begun. -/
structure Quote where
  mark : Char
  isTriple : Bool
  isFormat : Bool
  isRaw : Bool
  isBytes : Bool
  deriving DecidableEq, Repr

/-- A place of the text: what is left, and how many characters come before. -/
structure Cursor where
  rest : List Char
  offset : Nat

namespace Cursor

/-- The place a number of characters further on. -/
def drop (c : Cursor) (n : Nat) : Cursor := ⟨c.rest.drop n, c.offset + n⟩

end Cursor

/-- What the scanner remembers: where it stands, the margins of the open blocks, the open strings,
both innermost first, and whether the last string begun or ended leaves a format string open. -/
structure ScanState where
  cursor : Cursor
  margins : List Nat
  quotes : List Quote
  inFormat : Bool

namespace ScanState

/-- The state before a text. -/
def start (text : List Char) : ScanState := ⟨⟨text, 0⟩, [0], [], false⟩

/-- States of one text are told apart by where they stand and what is open. -/
instance : BEq ScanState where
  beq a b := a.cursor.offset == b.cursor.offset && a.margins == b.margins &&
    a.quotes == b.quotes && a.inFormat == b.inFormat

end ScanState

/-- What a scan finds. -/
abbrev Found := Scan Token ScanState

/-- A token from one place to another, in a state that goes on from there. -/
def Found.between (t : Token) (start stop : Cursor) (s : ScanState) : Found :=
  .token ⟨t, start.offset, stop.offset⟩ { s with cursor := stop }

/-! ## Contents of strings -/

/-- How a look into a string ends: after characters that stand for themselves, or after the closing
quotes. -/
inductive Inside where
  | text (stop : Cursor)
  | close (stop : Cursor)

/-- After a backslash of a raw string: an escaped quote or backslash, then an escaped end of line,
belong to the text too. -/
def rawEscape (mark : Char) (c : Cursor) : Cursor :=
  let c := match c.rest with
    | d :: _ => if d = mark || d = '\\' then c.drop 1 else c
    | [] => c
  match c.rest with
  | '\r' :: '\n' :: _ => c.drop 2
  | '\r' :: _ | '\n' :: _ => c.drop 1
  | _ => c

/-- Looks into an open string, `any` saying that plain text was read already. Nothing is found where
the string is broken off or where something other than plain text comes first. -/
def Quote.inside (q : Quote) : (length : Nat) → (any : Bool) → Cursor → Option Inside
  | 0, _, _ => none
  | n + 1, any, c =>
    let ended : Option Inside := if any then some (.text c) else none
    match c.rest with
    | [] | '\x00' :: _ => none
    | d :: rest =>
      if q.isFormat && (d = '\x7b' || d = '\x7d') then ended
      else if d = '\\' then
        if q.isRaw then q.inside n any (rawEscape q.mark (c.drop 1))
        else if q.isBytes then
          match rest with
          | 'N' :: _ | 'u' :: _ | 'U' :: _ => q.inside n true (c.drop 3)
          | _ => ended
        else ended
      else if d = q.mark then
        if q.isTriple then
          match rest with
          | e :: f :: _ =>
            if e = q.mark then
              if f = q.mark then if any then some (.text c) else some (.close (c.drop 3))
              else some (.text (c.drop 2))
            else some (.text (c.drop 1))
          | e :: [] => some (.text (c.drop (if e = q.mark then 2 else 1)))
          | [] => some (.text (c.drop 1))
        else if any then some (.text c) else some (.close (c.drop 1))
      else if d = '\n' && any && !q.isTriple then none
      else q.inside n true (c.drop 1)

/-- A doubled brace of a format string, which stands for one. -/
def doubledBrace : List Char → Bool
  | '\x7b' :: '\x7b' :: _ | '\x7d' :: '\x7d' :: _ => true
  | _ => false

/-! ## Margins -/

/-- What the blank stretch before a token shows: whether a line ended, how wide the margin of the
last line is, and the margin of the first comment that stands on a line of its own. -/
structure Margin where
  lineEnded : Bool
  width : Nat
  comment : Option Nat

/-- Skips blanks, joined lines and, if comments count, comments on lines of their own. Nothing is
found where a comment follows other tokens on its line, or a backslash joins no lines. -/
def skipMargin (comments : Bool) : (inComment : Bool) → Margin → List Char → Nat →
    Option (Margin × Cursor)
  | _, m, [], offset => some ({ m with lineEnded := true, width := 0 }, ⟨[], offset⟩)
  | true, m, c :: rest, offset =>
    if c = '\n' || c = '\x00' then skipMargin comments false { m with width := 0 } rest (offset + 1)
    else skipMargin comments true m rest (offset + 1)
  | false, m, '\\' :: '\r' :: '\n' :: rest, offset => skipMargin comments false m rest (offset + 3)
  | false, m, '\\' :: '\n' :: rest, offset => skipMargin comments false m rest (offset + 2)
  | false, m, '\\' :: rest, offset =>
    if rest = [] || rest = ['\r'] then
      some ({ m with lineEnded := true, width := 0 }, ⟨[], offset + 1 + rest.length⟩)
    else none
  | false, m, c :: rest, offset =>
    if c = '\n' then
      skipMargin comments false { m with lineEnded := true, width := 0 } rest (offset + 1)
    else if c = ' ' then
      skipMargin comments false { m with width := m.width + 1 } rest (offset + 1)
    else if c = '\t' then
      skipMargin comments false { m with width := m.width + 8 } rest (offset + 1)
    else if c = '\r' || c = '\x0c' then
      skipMargin comments false { m with width := 0 } rest (offset + 1)
    else if c = '#' && comments then
      if m.lineEnded then
        skipMargin comments true { m with comment := m.comment.or (some m.width) } rest (offset + 1)
      else none
    else some (m, ⟨c :: rest, offset⟩)

/-- Whether a comment's margin, if there is a comment, is less than a width. -/
def Margin.commentBelow (m : Margin) (width : Nat) : Bool :=
  match m.comment with
  | none => true
  | some w => w < width

/-- Whether the characters begin with a quotation mark. -/
def beginsWithQuote : List Char → Bool
  | c :: _ => c = '"' || c = '\'' || c = '`'
  | [] => false

/-- The layout token at a margin. A shallower line ends its block even where no block can end, so
that it cannot continue a statement begun further in; brackets, strings and format fields that may
go on there are exempt. -/
def layoutToken (expects : Token → Bool) (s : ScanState) (m : Margin) (next : Cursor) :
    Option Found :=
  if !m.lineEnded then none
  else
    let here (t : Token) (margins : List Nat) : Found :=
      .between t s.cursor s.cursor { s with margins }
    let newline := if expects .newline then some (here .newline s.margins) else none
    match s.margins with
    | [] => newline
    | width :: outer =>
      if expects .indent && width < m.width then some (here .indent (m.width :: s.margins))
      else
        let inBrackets := expects (.literal "]") || expects (.literal ")") || expects (.literal "\x7d")
        let dedents := expects .dedent ||
          !expects .newline && !inBrackets &&
            !(expects (.node .stringStart) && beginsWithQuote next.rest)
        if dedents && m.width < width && !s.inFormat && m.commentBelow width then
          some (here .dedent outer)
        else newline

/-! ## Beginnings of strings -/

/-- The letters before a string's quotes, and what follows them. -/
def stringPrefix (q : Quote) : Cursor → (length : Nat) → Quote × Cursor
  | c, 0 => (q, c)
  | c, n + 1 =>
    match c.rest with
    | d :: _ =>
      if d = 'f' || d = 'F' then stringPrefix { q with isFormat := true } (c.drop 1) n
      else if d = 'r' || d = 'R' then stringPrefix { q with isRaw := true } (c.drop 1) n
      else if d = 'b' || d = 'B' then stringPrefix { q with isBytes := true } (c.drop 1) n
      else if d = 'u' || d = 'U' then stringPrefix q (c.drop 1) n
      else (q, c)
    | [] => (q, c)

/-- The beginning of a string at a place. -/
def stringBegin (s : ScanState) (start : Cursor) : Option Found :=
  let (q, c) := stringPrefix ⟨'"', false, false, false, false⟩ start start.rest.length
  let begun (q : Quote) (stop : Cursor) : Option Found :=
    some (.between (.node .stringStart) start stop
      { s with quotes := q :: s.quotes, inFormat := q.isFormat })
  match c.rest with
  | '"' :: '"' :: '"' :: _ => begun { q with mark := '"', isTriple := true } (c.drop 3)
  | '"' :: _ => begun { q with mark := '"' } (c.drop 1)
  | '\'' :: '\'' :: '\'' :: _ => begun { q with mark := '\'', isTriple := true } (c.drop 3)
  | '\'' :: _ => begun { q with mark := '\'' } (c.drop 1)
  | '`' :: _ => begun { q with mark := '`' } (c.drop 1)
  | _ => none

/-! ## Tokens that depend on layout or on open strings -/

/-- A token inside an open string, or nothing if none is possible here. The outer layer says
whether the search is over. -/
def stringToken (expects : Token → Bool) (s : ScanState) : Option (Option Found) :=
  match s.quotes with
  | [] => none
  | q :: outer =>
    let c := s.cursor
    if expects (.node .escapeInterpolation) && q.isFormat &&
        (c.rest.head? = some '\x7b' || c.rest.head? = some '\x7d') then
      some (if doubledBrace c.rest then
        some (.between (.node .escapeInterpolation) c (c.drop 2) s) else none)
    else if expects .plainText then
      some ((q.inside c.rest.length false c).map fun
        | .text stop => .between .plainText c stop s
        | .close stop => .between (.node .stringEnd) c stop { s with quotes := outer, inFormat := false })
    else none

/-- A token found from the margin: layout, or the beginning of a string. -/
def marginToken (expects : Token → Bool) (s : ScanState) : Option Found := do
  let comments := expects .indent || expects .dedent || expects .newline ||
    expects (.literal "except")
  let (m, next) ← skipMargin comments false ⟨false, 0, none⟩ s.cursor.rest s.cursor.offset
  match layoutToken expects s m next with
  | some found => some found
  | none =>
    if m.comment.isNone && expects (.node .stringStart) then stringBegin s next else none

/-! ## Escapes -/

/-- How many hexadecimal digits the characters begin with, at most `n`. -/
def hexRun (n : Nat) (cs : List Char) : Nat :=
  ((cs.take n).takeWhile fun c => c.isDigit || ('a' ≤ c && c ≤ 'f') || ('A' ≤ c && c ≤ 'F')).length

/-- The length of the escape sequence after a backslash, if there is one. -/
def escapeLength : List Char → Option Nat
  | 'u' :: cs => if hexRun 4 cs = 4 then some 5 else none
  | 'U' :: cs => if hexRun 8 cs = 8 then some 9 else none
  | 'x' :: cs => if hexRun 2 cs = 2 then some 3 else none
  | 'N' :: '\x7b' :: cs =>
    let name := cs.takeWhile (· ≠ '\x7d')
    if name ≠ [] && (cs.drop name.length) ≠ [] then some (name.length + 3) else none
  | '\r' :: '\n' :: _ => some 2
  | '\n' :: _ => some 1
  | cs =>
    match ((cs.take 3).takeWhile Char.isDigit).length with
    | 0 => match cs with
      | c :: _ => if c ∈ ['\'', '"', 'a', 'b', 'f', 'r', 'n', 't', 'v', '\\'] then some 1 else none
      | [] => none
    | n => some n

/-! ## Numbers -/

/-- How many characters of digits, single underscores between or after them, come first. -/
def digitRun (afterDigit : Bool) : List Char → Nat
  | [] => 0
  | c :: cs =>
    if c.isDigit then digitRun true cs + 1
    else if c = '_' && afterDigit then digitRun false cs + 1
    else 0

/-- How many characters of digits come first where underscores may stand before any of them. -/
def basedRun (isDigit : Char → Bool) : List Char → Nat
  | '_' :: c :: cs => if isDigit c then basedRun isDigit cs + 2 else 0
  | c :: cs => if isDigit c then basedRun isDigit cs + 1 else 0
  | [] => 0

/-- One more if the next character is one of these. -/
def suffixed (letters : List Char) (cs : List Char) (n : Nat) : Nat :=
  match cs.drop n with
  | c :: _ => if c ∈ letters then n + 1 else n
  | [] => n

/-- The length of an integer with a base before it. -/
def basedInteger (cs : List Char) : Option Nat :=
  let ofBase (isDigit : Char → Bool) (rest : List Char) : Option Nat :=
    match basedRun isDigit rest with
    | 0 => none
    | n => some (suffixed ['L', 'l'] cs (n + 2))
  match cs with
  | '0' :: c :: rest =>
    if c = 'x' || c = 'X' then
      ofBase (fun d => d.isDigit || ('a' ≤ d && d ≤ 'f') || ('A' ≤ d && d ≤ 'F')) rest
    else if c = 'o' || c = 'O' then ofBase (fun d => '0' ≤ d && d ≤ '7') rest
    else if c = 'b' || c = 'B' then ofBase (fun d => d = '0' || d = '1') rest
    else none
  | _ => none

/-- The length with an exponent, if one follows the first `n` characters. -/
def exponent (cs : List Char) (n : Nat) : Option Nat :=
  match cs.drop n with
  | e :: rest =>
    if e = 'e' || e = 'E' then
      let sign := match rest with
        | c :: _ => if c = '+' || c = '-' then 1 else 0
        | [] => 0
      match digitRun false (rest.drop sign) with
      | 0 => none
      | k => some (n + 1 + sign + k)
    else none
  | [] => none

/-- The number at the beginning of the characters and its length. -/
def number (cs : List Char) : Option (Kind × Nat) :=
  match basedInteger cs with
  | some n => some (.integerLiteral, n)
  | none =>
    let whole := digitRun false cs
    let imaginary := suffixed ['j', 'J'] cs
    match cs.drop whole with
    | '.' :: rest =>
      let places := digitRun false rest
      if whole = 0 && places = 0 then none
      else
        let n := whole + 1 + places
        some (.floatLiteral, imaginary ((exponent cs n).getD n))
    | _ =>
      if whole = 0 then none
      else match exponent cs whole with
        | some n => some (.floatLiteral, imaginary n)
        | none => some (.integerLiteral, suffixed ['L', 'l', 'j', 'J'] cs whole)

/-! ## Words and marks -/

/-- The keywords and marks of the grammar. -/
def literalTexts : List String :=
  (pythonGrammar.numbered.tokens.toList.filterMap fun | .literal text => some text | _ => none)

/-- The marks, longer ones before their beginnings. -/
def marks : List (List Char) :=
  ((literalTexts.map String.toList).filter fun cs => !cs.all fun c => c.isAlpha || c = '_').mergeSort
    fun a b => b.length ≤ a.length

/-- The keywords, with the tokens they are. -/
def keywords : Std.HashMap String Token :=
  let words := literalTexts.filter fun text => text.toList.all fun c => c.isAlpha || c = '_'
  .ofList <| words.map (fun w => (w, .literal w)) ++
    [("True", .node .trueLiteral), ("False", .node .falseLiteral), ("None", .node .noneLiteral)]

/-- The word as a token: a keyword where the parser can take it, and a name elsewhere. -/
def wordToken (expects : Token → Bool) (word : List Char) : Token :=
  match keywords.get? (String.ofList word) with
  | some t => if expects t then t else .node .identifier
  | none => .node .identifier

/-- Characters that part tokens and mean nothing between them. -/
def isBlank (c : Char) : Bool :=
  c = ' ' || c = '\t' || c = '\n' || c = '\r' || c = '\x0b' || c = '\x0c' ||
    c = '\ufeff' || c = '\u2060' || c = '\u200b'

/-- The place after the blanks. -/
def Cursor.skipBlanks (c : Cursor) : Cursor := c.drop (c.rest.takeWhile isBlank).length

/-- The token at a place where blanks and layout are done with. -/
def plainToken (expects : Token → Bool) (s : ScanState) (c : Cursor) : Option Found :=
  let found (t : Token) (n : Nat) : Option Found := some (.between t c (c.drop n) s)
  let filler (k : Kind) (n : Nat) : Option Found :=
    some (.filler ⟨.node k, c.offset, c.offset + n⟩ { s with cursor := c.drop n })
  match c.rest with
  | [] => some .finish
  | '#' :: rest => filler .comment ((rest.takeWhile (· ≠ '\n')).length + 1)
  | ['\\'] => filler .lineContinuation 1
  | '\\' :: '\x00' :: _ | '\\' :: '\n' :: _ => filler .lineContinuation 2
  | '\\' :: '\r' :: '\n' :: _ => filler .lineContinuation 3
  | '\\' :: _ => none
  | d :: rest =>
    if isIdentifierStart d then
      let word := d :: rest.takeWhile isIdentifierPart
      let star := "except*"
      if (c.rest.take star.length) = star.toList && word.length + 1 = star.length &&
          expects (.literal star) then found (.literal star) star.length
      else found (wordToken expects word) word.length
    else
      let numeral := if d.isDigit || (d = '.' && expects (.node .floatLiteral)) then number c.rest else none
      match numeral with
      | some (k, n) => found (.node k) n
      | none =>
        if d = '!' && expects (.node .typeConversion) &&
            (rest.head?.any fun e => 'a' ≤ e && e ≤ 'z') then found (.node .typeConversion) 2
        else if expects (.node .ellipsis) && ['.', '.', '.'].isPrefixOf c.rest then
          found (.node .ellipsis) 3
        else do
          let mark ← marks.find? fun m =>
            m.isPrefixOf c.rest && expects (.literal (String.ofList m))
          found (.literal (String.ofList mark)) mark.length

/-- The token at a place that does not depend on layout. -/
def innerToken (expects : Token → Bool) (s : ScanState) : Option Found :=
  let c := s.cursor
  if (expects (.node .escapeSequence) || expects .loneBackslash) && c.rest.head? = some '\\' then
    match escapeLength (c.rest.drop 1) with
    | some n => some (.between (.node .escapeSequence) c (c.drop (n + 1)) s)
    | none => some (.between .loneBackslash c (c.drop 1) s)
  else if expects .formatText then
    let c := c.drop (c.rest.takeWhile (· = '\n')).length
    match (c.rest.takeWhile fun d => d ≠ '\x7b' && d ≠ '\x7d' && d ≠ '\n').length with
    | 0 => plainToken expects s c.skipBlanks
    | n => some (.between .formatText c (c.drop n) s)
  else plainToken expects s c.skipBlanks

/-! ## The scanner -/

/-- The next token of a source, given what the parser could take. -/
def nextToken (expects : Token → Bool) (s : ScanState) : Option Found :=
  match stringToken expects s with
  | some (some found) => some found
  | some none => innerToken expects s
  | none =>
    match marginToken expects s with
    | some found => some found
    | none => innerToken expects s

/-- Whether a token is a keyword. -/
def Token.isKeyword : Token → Bool
  | .literal text => keywords.contains text
  | .node .trueLiteral | .node .falseLiteral | .node .noneLiteral => true
  | _ => false

/-- The scanner of Python sources. A keyword that turns out not to fit is read as a name. -/
def pythonScanner : Scanner Token ScanState where
  position s := s.cursor.offset
  scan := nextToken
  otherwise t := if t.isKeyword then some (.node .identifier) else none

end PullGate.Python
