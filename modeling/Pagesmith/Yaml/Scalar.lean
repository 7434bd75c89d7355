import Pagesmith.Yaml.Cursor

/-!
# Scalars and tags

A scalar is written plain, in single or double quotes, or as a block of indented lines that is
either kept line by line or folded. Each reader here, such as `plainScalar`, starts at the scalar,
gives its text and the place behind it, and fails on a text that is not such a scalar.

All readers work through the text with the text's length as fuel: each step takes at least one
character.
-/

namespace Pagesmith.Yaml

/-! ## Quoted scalars -/

/-- The number that so many `digits` of base sixteen stand for. -/
def hexNumber (digits : Nat) (s : List Char) : Option Nat :=
  let run := s.take digits
  if run.length = digits then
    run.foldlM (fun n c ↦ (Text.hexDigit? c).map (16 * n + ·)) 0
  else none

def charOf? (n : Nat) : Option Char :=
  if h : n.isValidChar then some (Char.ofNatAux n h) else none

/-- The character that a backslash and one character stand for. -/
def escapeChar? : Char → Option Char
  | '0' => some '\x00'
  | 'a' => some '\x07'
  | 'b' => some '\x08'
  | 't' | '\t' => some '\t'
  | 'n' => some '\n'
  | 'v' => some '\x0b'
  | 'f' => some '\x0c'
  | 'r' => some '\r'
  | 'e' => some '\x1b'
  | ' ' => some ' '
  | '"' => some '"'
  | '/' => some '/'
  | '\\' => some '\\'
  | 'N' => some '\x85'
  | '_' => some '\u00a0'
  | 'L' => some '\u2028'
  | 'P' => some '\u2029'
  | _ => none

/-- How many digits of base sixteen have to follow a backslash and one character. -/
def escapeDigits : Char → Nat
  | 'x' => 2
  | 'u' => 4
  | 'U' => 8
  | _ => 0

/-- What is written with a backslash at a place, in a scalar that begins at `start`. -/
def escape (start : Mark) (c : Cursor) : Scanned (Char × Cursor) :=
  match c.rest with
  | _ :: e :: s =>
    let next := c.advance 2
    match escapeChar? e, escapeDigits e with
    | some ch, _ => .ok (ch, next)
    | none, 0 => c.fail .unknownEscape .escape start
    | none, digits =>
      match hexNumber digits s with
      | none => next.fail .escapeDigits .escape start
      | some n =>
        match charOf? n with
        | none => next.fail .escapeNumber .escape start
        | some ch => .ok (ch, next.advance digits)
  | _ => c.fail .unknownEscape .escape start

/-- The rest of a quoted scalar that begins at `start`, up to and with its closing quote. -/
def quotedFrom (double : Bool) (start : Mark) : (fuel : Nat) → Cursor →
    Scanned (List Char × Cursor)
  | 0, c => c.fail .textEnd .quotedScalar start
  | fuel + 1, c => do
    if c.atDocumentMark then c.fail .documentMark .quotedScalar start
    else match c.rest with
      | [] => c.fail .textEnd .quotedScalar start
      | ch :: s =>
        if isSpacing ch then
          let (g, next) := c.gap 0 (s.length + 1) false
          let (text, last) ← quotedFrom double start fuel next
          return (g.text ++ text, last)
        else if double then
          if ch = '"' then return ([], c.advance 1)
          else if ch = '\\' then
            match (c.advance 1).lineEnd? with
            | some (_, next) =>
              let (g, next) := next.gap 0 (s.length + 1) true
              let (text, last) ← quotedFrom double start fuel next
              return (g.breaks ++ text, last)
            | none =>
              let (e, next) ← escape start c
              let (text, last) ← quotedFrom double start fuel next
              return (e :: text, last)
          else
            let (text, last) ← quotedFrom double start fuel (c.advance 1)
            return (ch :: text, last)
        else if ch = '\'' then
          match s with
          | '\'' :: _ =>
            let (text, last) ← quotedFrom double start fuel (c.advance 2)
            return ('\'' :: text, last)
          | _ => return ([], c.advance 1)
        else
          let (text, last) ← quotedFrom double start fuel (c.advance 1)
          return (ch :: text, last)

def quotedScalar (double : Bool) (c : Cursor) : Scanned (List Char × Cursor) :=
  quotedFrom double c.mark (c.rest.length + 1) (c.advance 1)

/-! ## Plain scalars -/

/-- The characters that belong to the syntax of collections in brackets. -/
def isFlowIndicator (c : Char) : Bool :=
  c == ',' || c == '[' || c == ']' || c == '\x7b' || c == '\x7d'

/-- Whether a `:` in front of a text stands against a mark of brackets, where it may not stand. -/
def colonClashes : List Char → Bool
  | ':' :: d :: _ => d == '?' || isFlowIndicator d
  | _ => false

/-- A word of a plain scalar: up to a blank, a line end, or a mark that ends the scalar. -/
def plainWord (flow : Bool) : List Char → List Char
  | [] => []
  | c :: s =>
    if isSpacing c || (c == ':' && endsWord s) ||
        (flow && (isFlowIndicator c || colonClashes (c :: s))) then []
    else c :: plainWord flow s

/-- A plain scalar as it was read. -/
structure Plain where
  text : List Char
  /-- A line end followed the last word. -/
  broken : Bool
  last : Cursor

/-- The rest of a plain scalar that begins at `start`: further words, each with the gap in front of
it. -/
def plainFrom (flow : Bool) (indent : Nat) (start : Mark) :
    (fuel : Nat) → (gap : List Char) → (broken : Bool) → Cursor → Scanned Plain
  | 0, _, broken, c => .ok ⟨[], broken, c⟩
  | fuel + 1, gap, broken, c => do
    if c.atDocumentMark || c.peek? == some '#' then return ⟨[], broken, c⟩
    else
      let word := plainWord flow c.rest
      let text := if word.isEmpty then [] else gap ++ word
      let broken := if word.isEmpty then broken else false
      let c := c.advance word.length
      if flow && colonClashes c.rest then c.fail .colonInPlain .plainScalar start
      else if !(c.rest.head?.any isSpacing) then return ⟨text, broken, c⟩
      else
        let (g, next) := c.gap indent (c.rest.length + 1) false
        let broken := broken || !g.breaks.isEmpty
        match g.tab with
        | some tab => tab.fail .tabInPlain .plainScalar start
        | none =>
          if !flow && next.column < indent then return ⟨text, broken, next⟩
          else
            let more ← plainFrom flow indent start fuel g.text broken next
            return { more with text := text ++ more.text }

/-- A plain scalar. Outside brackets its lines are indented to column `indent` at least. -/
def plainScalar (flow : Bool) (indent : Nat) (c : Cursor) : Scanned Plain :=
  plainFrom flow indent c.mark (c.rest.length + 1) [] false c

/-! ## Block scalars -/

/-- What becomes of the line ends behind the last line. -/
inductive Chomping
  | strip
  | clip
  | keep
deriving DecidableEq

/-- The mark for what becomes of the line ends. -/
def Chomping.ofMark? : Char → Option Chomping
  | '+' => some keep
  | '-' => some strip
  | _ => none

/-- The digit that says how deep a block scalar is indented; without one the depth is zero, and its
first line decides. -/
def blockDepth (start : Mark) (c : Cursor) : Scanned (Nat × Cursor) :=
  match c.peek?.bind Text.digit? with
  | some 0 => c.fail .depthZero .blockScalar start
  | some n => .ok (n, c.advance 1)
  | none => .ok (0, c)

/-- The marks behind the `|` or `>` of a block scalar, in either order: what becomes of its end, and
how deep it is indented. -/
def blockHeader (start : Mark) (c : Cursor) : Scanned (Chomping × Nat × Cursor) := do
  match c.peek?.bind Chomping.ofMark? with
  | some chomping =>
    let (depth, c) ← blockDepth start (c.advance 1)
    return (chomping, depth, c)
  | none =>
    let (depth, c) ← blockDepth start c
    match c.peek?.bind Chomping.ofMark? with
    | some chomping => return (chomping, depth, c.advance 1)
    | none => return (.clip, depth, c)

/-- The empty lines at a place: their line ends, the greatest column reached, and the place at the
next line that is not empty, behind its indentation. With `indent` zero all leading spaces count as
indentation. -/
def emptyLines (indent : Nat) (start : Mark) : (fuel : Nat) → Cursor →
    Scanned (List Char × Nat × Cursor)
  | 0, c => .ok ([], c.column, c)
  | fuel + 1, c =>
    let spaces := c.rest.takeWhile (· == ' ')
    let n := if indent = 0 then spaces.length else min spaces.length (indent - c.column)
    let c := c.advance n
    if (indent = 0 || c.column < indent) && c.peek? == some '\t' then
      c.fail .tabInBlock .blockScalar start
    else match c.lineEnd? with
      | none => .ok ([], c.column, c)
      | some (kept, next) => do
        let (breaks, deepest, last) ← emptyLines indent start fuel next
        return (kept :: breaks, max c.column deepest, last)

/-- The lines of a block scalar from a place on, given the line ends not yet written: the one behind
the previous line, those of the empty lines after it, and whether that line began with a blank. -/
def blockLines (literal : Bool) (chomping : Chomping) (indent : Nat) (start : Mark) :
    (fuel : Nat) → (lineBreak empties : List Char) → (indented : Bool) → Cursor →
      Scanned (List Char × Cursor)
  | 0, _, _, _, c => .ok ([], c)
  | fuel + 1, lineBreak, empties, indented, c => do
    if c.column == indent && !c.rest.isEmpty then
      let startsBlank := c.rest.head?.any isBlank
      let joint :=
        if !literal && lineBreak.head? == some '\n' && !indented && !startsBlank then
          if empties.isEmpty then [' '] else empties
        else lineBreak ++ empties
      let (line, c) := c.span fun ch ↦ !isBreak ch
      let (lineBreak, c) := match c.lineEnd? with
        | some (kept, next) => ([kept], next)
        | none => ([], c)
      let (empties, _, c) ← emptyLines indent start (c.rest.length + 1) c
      let (text, last) ←
        blockLines literal chomping indent start fuel lineBreak empties startsBlank c
      return (joint ++ line ++ text, last)
    else
      let tail := match chomping with
        | .strip => []
        | .clip => lineBreak
        | .keep => lineBreak ++ empties
      return (tail, c)

/-- A block scalar, at its `|` or `>`, in a collection whose indentation is `parent`, `-1` standing
for none. -/
def blockScalar (literal : Bool) (parent : Int) (c : Cursor) : Scanned (List Char × Cursor) := do
  let start := c.mark
  let (chomping, depth, c) ← blockHeader start (c.advance 1)
  let c := (c.skip isBlank).skipComment
  if !endsLine c.rest then c.fail .noLineEnd .blockScalar start
  else
    let c := c.skipLineEnd
    let indent := if depth = 0 then 0 else (max parent 0).toNat + depth
    let (empties, deepest, c) ← emptyLines indent start (c.rest.length + 1) c
    let indent := if indent = 0 then max deepest (max (parent + 1) 1).toNat else indent
    blockLines literal chomping indent start (c.rest.length + 1) [] empties false c

/-! ## Tags

A tag says what kind of value a node is. Four tags stand for the scalars that are no texts. A tag
that begins with an exclamation mark is a name of the writer's own; any other tag makes a scalar a
text.

### Writing

A tag is written in full between `<` and `>`, or as a handle and what follows it, where a directive
says what the handle stands for. Octets may be written with a percent sign and two digits. Octets
written so have to look like the beginning and the rest of a character, but nothing else about them
is looked at, so a tag need not be a text. A zero octet ends the tag. -/

/-- What a node's tag says. -/
inductive Tag
  | truth
  | whole
  | fraction
  | nothing
  /-- A name of the writer's own, with its exclamation mark. -/
  | own (name : List Char)
  /-- Such a tag that is not a text. -/
  | illegible
  | other
deriving DecidableEq, Repr

def Tag.ofOctets (s : List UInt8) : Tag :=
  match s.head?, String.fromUTF8? ⟨s.toArray⟩ with
  | some 0x21, some name => own name.toList
  | some 0x21, none => illegible
  | _, some "tag:yaml.org,2002:bool" => truth
  | _, some "tag:yaml.org,2002:int" => whole
  | _, some "tag:yaml.org,2002:float" => fraction
  | _, some "tag:yaml.org,2002:null" => nothing
  | _, _ => other

/-! ### Octets -/

/-- An octet written with a percent sign at a place, in a passage that begins at `start`. -/
def octet (passage : Passage) (start : Mark) (c : Cursor) : Scanned (Nat × Cursor) :=
  match c.rest with
  | '%' :: s =>
    match hexNumber 2 s with
    | some n => .ok (n, c.advance 3)
    | none => c.fail .noOctet passage start
  | _ => c.fail .noOctet passage start

/-- So many further octets of a character. -/
def furtherOctets (passage : Passage) (start : Mark) : Nat → Cursor →
    Scanned (List UInt8 × Cursor)
  | 0, c => .ok ([], c)
  | more + 1, c => do
    let (n, next) ← octet passage start c
    if 0x80 ≤ n ∧ n < 0xC0 then
      let (octets, last) ← furtherOctets passage start more next
      return (n.toUInt8 :: octets, last)
    else c.fail .furtherOctet passage start

/-- How many octets follow the first one of a character. -/
def furtherCount? (first : Nat) : Option Nat :=
  if first < 0x80 then some 0
  else if first < 0xC0 then none
  else if first < 0xE0 then some 1
  else if first < 0xF0 then some 2
  else if first < 0xF8 then some 3
  else none

/-- The octets of one character, written with percent signs at a place. -/
def octetsOfChar (passage : Passage) (start : Mark) (c : Cursor) :
    Scanned (List UInt8 × Cursor) := do
  let (first, next) ← octet passage start c
  match furtherCount? first with
  | none => c.fail .firstOctet passage start
  | some more =>
    let (octets, last) ← furtherOctets passage start more next
    return (first.toUInt8 :: octets, last)

/-! ### Handles and texts -/

/-- The characters of tags beside those of names; brackets and commas only between `<` and `>`. -/
def isTagChar (verbatim : Bool) (c : Char) : Bool :=
  isNameChar c ||
    [';', '/', '?', ':', '@', '&', '=', '+', '$', '.', '!', '~', '*', '\'', '(', ')'].contains c ||
    (verbatim && [',', '[', ']'].contains c)

/-- The longest run of characters of a tag at a place, percent signs resolved. The fuel is the
length of the text. -/
def tagChars (passage : Passage) (start : Mark) (verbatim : Bool) : (fuel : Nat) → Cursor →
    Scanned (List UInt8 × Cursor)
  | 0, c => .ok ([], c)
  | fuel + 1, c =>
    match c.peek? with
    | none => .ok ([], c)
    | some ch =>
      if ch = '%' then do
        let (octets, next) ← octetsOfChar passage start c
        let (more, last) ← tagChars passage start verbatim fuel next
        return (octets ++ more, last)
      else if isTagChar verbatim ch then do
        let (more, last) ← tagChars passage start verbatim fuel (c.advance 1)
        return (ch.toNat.toUInt8 :: more, last)
      else .ok ([], c)

def upToZero (s : List UInt8) : List UInt8 := s.takeWhile (· ≠ 0)

/-- At least one character of a tag. -/
def tagText (passage : Passage) (start : Mark) (verbatim : Bool) (c : Cursor) :
    Scanned (List UInt8 × Cursor) := do
  let (text, last) ← tagChars passage start verbatim c.rest.length c
  if text.isEmpty then last.fail .noTagText passage start else return (upToZero text, last)

/-- The handle of a tag: an exclamation mark, name characters, and a closing exclamation mark if
there is one. -/
def tagHandle (passage : Passage) (start : Mark) (c : Cursor) : Scanned (List Char × Cursor) :=
  if c.peek? = some '!' then
    let (name, last) := (c.advance 1).span isNameChar
    if last.peek? = some '!' then .ok ('!' :: name ++ ['!'], last.advance 1)
    else .ok ('!' :: name, last)
  else c.fail .noExclamation passage start

/-- Whether a handle is closed by a second exclamation mark. -/
def isClosedHandle (handle : List Char) : Bool :=
  1 < handle.length && handle.getLast? == some '!'

/-- A tag at its exclamation mark: its handle, which is empty if there is none, and the octets that
follow. -/
def tagParts (flow : Bool) (c : Cursor) : Scanned ((List Char × List UInt8) × Cursor) := do
  let start := c.mark
  let (parts, last) ←
    match c.rest with
    | '!' :: '<' :: _ => do
      let (text, last) ← tagText .tagText start true (c.advance 2)
      if last.peek? = some '>' then pure (([], text), last.advance 1)
      else last.fail .noTagEnd .tag start
    | _ => do
      let (handle, last) ← tagHandle .tag start c
      if isClosedHandle handle then
        let (text, last) ← tagText .tagText start false last
        pure ((handle, text), last)
      else
        let (more, last) ← tagChars .tagText start false last.rest.length last
        let text := upToZero ((handle.drop 1).map (·.toNat.toUInt8) ++ more)
        pure (if text.isEmpty then ([], [0x21]) else (['!'], text), last)
  if endsWord last.rest || (flow && last.peek? = some ',') then return (parts, last)
  else last.fail .noWordEnd .tag start

end Pagesmith.Yaml
