import Pagesmith.Text.Words

/-!
# Places in a YAML text

Indentation carries meaning in YAML, so reading keeps track of line and column. A `Cursor` is what
is left of the text together with the place it starts at. Lines and columns are counted in
characters; how far two places are apart is counted in octets.

A text may hold a mark of byte order anywhere. At the beginning of a line it is passed over, but it
takes a column.

Five characters end a line. A carriage return followed by a line feed is one line end, and all but
the two Unicode separators are kept as a line feed.
-/

/-! ## Why a text is not well formed

A text that is not well formed YAML breaks off at the first place where something is wrong. The
message about a `Malformation` says what is wrong and where, and then what was being read there and
since where. Lines and columns are counted from one in messages.

### Places in messages

The very beginning of a text is not named as a place, and a passage that begins where it goes wrong
is not placed a second time. -/

namespace Pagesmith.Yaml

/-- A place in a text: its line and its column, counted from zero. -/
structure Mark where
  line : Nat := 0
  column : Nat := 0
deriving DecidableEq, Repr

/-- How a message ends that is about a place. -/
def Mark.text (m : Mark) : String :=
  if m = {} then "" else s!" at line {m.line + 1} column {m.column + 1}"

/-- What can be wrong at a place of a text. -/
inductive Flaw
  | noToken
  | noColon
  | itemHere
  | keyHere
  | valueHere
  | noDirectiveName
  | directiveName
  | unknownDirective
  | noLineEnd
  | noVersion
  | longVersion
  | noPoint
  | noExclamation
  | noSpace
  | noWordEnd
  | noTagText
  | noTagEnd
  | noOctet
  | firstOctet
  | furtherOctet
  | noName
  | depthZero
  | tabInBlock
  | tabInPlain
  | documentMark
  | textEnd
  | unknownEscape
  | escapeDigits
  | escapeNumber
  | colonInPlain
  | secondVersion
  | unknownVersion
  | secondHandle
  | unknownHandle
  | noDocumentStart
  | noContent
  | noItem
  | noKey
  | noItemEnd
  | noEntryEnd
deriving DecidableEq, Repr

def Flaw.text : Flaw → String
  | noToken => "found character that cannot start any token"
  | noColon => "could not find expected ':'"
  | itemHere => "block sequence entries are not allowed in this context"
  | keyHere => "mapping keys are not allowed in this context"
  | valueHere => "mapping values are not allowed in this context"
  | noDirectiveName => "could not find expected directive name"
  | directiveName => "found unexpected non-alphabetical character"
  | unknownDirective => "found unknown directive name"
  | noLineEnd => "did not find expected comment or line break"
  | noVersion => "did not find expected version number"
  | longVersion => "found extremely long version number"
  | noPoint => "did not find expected digit or '.' character"
  | noExclamation => "did not find expected '!'"
  | noSpace => "did not find expected whitespace"
  | noWordEnd => "did not find expected whitespace or line break"
  | noTagText => "did not find expected tag URI"
  | noTagEnd => "did not find the expected '>'"
  | noOctet => "did not find URI escaped octet"
  | firstOctet => "found an incorrect leading UTF-8 octet"
  | furtherOctet => "found an incorrect trailing UTF-8 octet"
  | noName => "did not find expected alphabetic or numeric character"
  | depthZero => "found an indentation indicator equal to 0"
  | tabInBlock => "found a tab character where an indentation space is expected"
  | tabInPlain => "found a tab character that violates indentation"
  | documentMark => "found unexpected document indicator"
  | textEnd => "found unexpected end of stream"
  | unknownEscape => "found unknown escape character"
  | escapeDigits => "did not find expected hexdecimal number"
  | escapeNumber => "found invalid Unicode character escape code"
  | colonInPlain => "found unexpected ':'"
  | secondVersion => "found duplicate %YAML directive"
  | unknownVersion => "found incompatible YAML document"
  | secondHandle => "found duplicate %TAG directive"
  | unknownHandle => "found undefined tag handle"
  | noDocumentStart => "did not find expected <document start>"
  | noContent => "did not find expected node content"
  | noItem => "did not find expected '-' indicator"
  | noKey => "did not find expected key"
  | noItemEnd => "did not find expected ',' or ']'"
  | noEntryEnd => "did not find expected ',' or '\x7d'"

/-- What can be read when something is wrong. -/
inductive Passage
  | nextToken
  | simpleKey
  | directive
  | versionDirective
  | tagDirective
  | tagDirectiveHandle
  | tagDirectiveName
  | tagDirectiveText
  | tag
  | tagText
  | anchor
  | reference
  | blockScalar
  | quotedScalar
  | escape
  | plainScalar
  | properties
  | blockNode
  | flowNode
  | blockSequence
  | blockMapping
  | flowSequence
  | flowMapping
deriving DecidableEq, Repr

def Passage.text : Passage → String
  | nextToken => "while scanning for the next token"
  | simpleKey => "while scanning a simple key"
  | directive => "while scanning a directive"
  | versionDirective => "while scanning a %YAML directive"
  | tagDirective => "while scanning a %TAG directive"
  | tagDirectiveHandle => "while scanning a tag directive"
  | tagDirectiveName => "while parsing a tag directive"
  | tagDirectiveText => "while parsing a %TAG directive"
  | tag => "while scanning a tag"
  | tagText => "while parsing a tag"
  | anchor => "while scanning an anchor"
  | reference => "while scanning an alias"
  | blockScalar => "while scanning a block scalar"
  | quotedScalar => "while scanning a quoted scalar"
  | escape => "while parsing a quoted scalar"
  | plainScalar => "while scanning a plain scalar"
  | properties => "while parsing a node"
  | blockNode => "while parsing a block node"
  | flowNode => "while parsing a flow node"
  | blockSequence => "while parsing a block collection"
  | blockMapping => "while parsing a block mapping"
  | flowSequence => "while parsing a flow sequence"
  | flowMapping => "while parsing a flow mapping"

/-- Why a text is not well formed. -/
inductive Malformation
  /-- A character that no text may hold, behind so many octets. -/
  | character (octets : Nat)
  /-- Something is wrong at a place, in a passage that began at some other place. -/
  | flaw (what : Flaw) (place : Mark) (passage : Option (Passage × Mark))
deriving DecidableEq, Repr

def Malformation.message : Malformation → String
  | character octets =>
    "control characters are not allowed" ++
      (if octets = 0 then "" else s!" at position {octets}")
  | flaw what place none => what.text ++ place.text
  | flaw what place (some (passage, start)) =>
    what.text ++ place.text ++ ", " ++ passage.text ++ (if start = place then "" else start.text)

/-! ## Cursors -/

/-- What is left of a text, and where it starts. -/
structure Cursor where
  rest : List Char
  /-- The octets in front. -/
  index : Nat := 0
  line : Nat := 0
  column : Nat := 0

/-- A character inside a line that separates words. -/
def isBlank (c : Char) : Bool := c == ' ' || c == '\t'

/-- A character that ends a line. -/
def isBreak (c : Char) : Bool :=
  c == '\n' || c == '\r' || c == '\x85' || c == '\u2028' || c == '\u2029'

/-- A blank, or a character that ends a line. -/
def isSpacing (c : Char) : Bool := isBlank c || isBreak c

/-- The characters of anchors and of the names of directives. -/
def isNameChar (c : Char) : Bool :=
  ('a' ≤ c && c ≤ 'z') || ('A' ≤ c && c ≤ 'Z') || ('0' ≤ c && c ≤ '9') || c == '_' || c == '-'

/-- The characters a YAML text may hold. -/
def isAdmissible (c : Char) : Bool :=
  let n := c.toNat
  n == 0x09 || n == 0x0A || n == 0x0D || (0x20 ≤ n && n ≤ 0x7E) || n == 0x85 ||
    (0xA0 ≤ n && n ≤ 0xFFFD) || 0x10000 ≤ n

def octets (s : List Char) : Nat := s.foldl (fun n c ↦ n + c.utf8Size) 0

/-- Whether a text is at its end or goes on with blank or line end. -/
def endsWord : List Char → Bool
  | [] => true
  | c :: _ => isSpacing c

/-- Whether a text is at its end or at the end of a line. -/
def endsLine : List Char → Bool
  | [] => true
  | c :: _ => isBreak c

/-- Whether a text goes on with `mark` and a word ends behind it. -/
def startsWithWord (mark : List Char) (s : List Char) : Bool :=
  mark.isPrefixOf s && endsWord (s.drop mark.length)

/-- The line end in front of a text: how it is kept, its octets, and what follows. -/
def lineEnd? : List Char → Option (Char × Nat × List Char)
  | '\r' :: '\n' :: s => some ('\n', 2, s)
  | c :: s =>
    if c = '\u2028' ∨ c = '\u2029' then some (c, c.utf8Size, s)
    else if isBreak c then some ('\n', c.utf8Size, s)
    else none
  | [] => none

namespace Cursor

def mark (c : Cursor) : Mark := ⟨c.line, c.column⟩

def peek? (c : Cursor) : Option Char := c.rest.head?

/-- Pass over `n` characters within a line. -/
def advance (c : Cursor) (n : Nat) : Cursor :=
  { c with
    rest := c.rest.drop n
    index := c.index + octets (c.rest.take n)
    column := c.column + n }

/-- The longest run of characters of class `p`, which has no line ends, and the place behind it. -/
def span (p : Char → Bool) (c : Cursor) : List Char × Cursor :=
  let run := c.rest.takeWhile p
  (run, c.advance run.length)

/-- The place behind the run that `span` finds. -/
def skip (p : Char → Bool) (c : Cursor) : Cursor := (c.span p).2

/-- The place behind a line end, and how the line end is kept. -/
def lineEnd? (c : Cursor) : Option (Char × Cursor) :=
  (Yaml.lineEnd? c.rest).map fun (kept, n, rest) ↦
    (kept, { rest, index := c.index + n, line := c.line + 1, column := 0 })

/-- The place behind a line end, if there is one. -/
def skipLineEnd (c : Cursor) : Cursor := (c.lineEnd?.map (·.2)).getD c

/-- The place behind a mark of byte order, if there is one and a line begins with it. -/
def skipByteOrder (c : Cursor) : Cursor :=
  if c.column = 0 ∧ c.peek? = some '\ufeff' then c.advance 1 else c

/-- The place behind a comment, if there is one. -/
def skipComment (c : Cursor) : Cursor :=
  if c.peek? = some '#' then c.skip fun ch ↦ !isBreak ch else c

/-- Whether a mark between documents starts here. -/
def atDocumentMark (c : Cursor) : Bool :=
  c.column == 0 &&
    (startsWithWord ['-', '-', '-'] c.rest || startsWithWord ['.', '.', '.'] c.rest)

/-- The place at the beginning of the next line, unless a line begins here. -/
def forceLine (c : Cursor) : Cursor :=
  if c.column = 0 then c else { c with line := c.line + 1, column := 0 }

end Cursor

/-! ### Reading

What is `Scanned` at a cursor is either found, together with the place behind it, or the text is not
well formed. -/

/-- Something read from a text. -/
abbrev Scanned (α : Type) := Except Malformation α

/-- Report `what` is wrong at a place, in a passage that began at `start`. -/
def Cursor.fail {α : Type} (c : Cursor) (what : Flaw) (passage : Passage) (start : Mark) :
    Scanned α :=
  .error (.flaw what c.mark (some (passage, start)))

/-! ### Gaps

Between the words of a scalar lies a `Gap`, a run of blanks and line ends. Without line ends the
blanks stand for themselves; otherwise the blanks do not count, a single line end is a space, and of
several the first is dropped. -/

/-- A run of blanks and line ends. -/
structure Gap where
  /-- The blanks before the first line end. -/
  blanks : List Char := []
  /-- The line ends, as they are kept. -/
  breaks : List Char := []
  /-- The first tab that stands where a line is still being indented. -/
  tab : Option Cursor := none

/-- The text a gap stands for. -/
def Gap.text (g : Gap) : List Char :=
  match g.breaks with
  | [] => g.blanks
  | ['\n'] => [' ']
  | '\n' :: more => more
  | breaks => breaks

/-- The gap at a place, and the place behind it. Tabs before column `indent` of a line that has just
begun are noted; `broken` says whether a line end has gone before. The fuel is the length of the
text. -/
def Cursor.gap (indent : Nat) : (fuel : Nat) → (broken : Bool) → Cursor → Gap × Cursor
  | 0, _, c => ({}, c)
  | fuel + 1, broken, c =>
    match c.lineEnd? with
    | some (kept, next) =>
      let (g, last) := gap indent fuel true next
      ({ g with breaks := kept :: g.breaks }, last)
    | none =>
      match c.peek? with
      | some ch =>
        if isBlank ch then
          let (g, last) := gap indent fuel broken (c.advance 1)
          if broken then
            (if ch = '\t' ∧ c.column < indent then { g with tab := some c } else g, last)
          else ({ g with blanks := ch :: g.blanks }, last)
        else ({}, c)
      | none => ({}, c)

end Pagesmith.Yaml
