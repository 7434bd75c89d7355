import Pagesmith.Yaml.Scalar

/-!
# Tokens

A YAML text is cut into tokens before its structure is read. Marks and scalars are a `Token` of
their own each; beside them stand tokens for what indentation says: where a collection of indented
lines begins and where it ends. The last token says that the text ends, or why it cannot be cut any
further.
-/

namespace Pagesmith.Yaml

/-- The parts a YAML text is cut into. -/
inductive Token
  | versionDirective (major minor : Nat)
  | tagDirective (handle : List Char) (start : List UInt8)
  | documentStart
  | documentEnd
  | blockSequenceStart
  | blockMappingStart
  | blockEnd
  | flowSequenceStart
  | flowSequenceEnd
  | flowMappingStart
  | flowMappingEnd
  | blockEntry
  | flowEntry
  | key
  | value
  | reference (name : List Char)
  | anchor (name : List Char)
  | tag (handle : List Char) (suffix : List UInt8)
  | scalar (text : List Char) (plain : Bool)
  | textEnd
  | fault (m : Malformation)
deriving DecidableEq, Repr

/-- A token and the place where it begins. -/
structure Placed where
  token : Token
  mark : Mark
deriving DecidableEq, Repr

/-! ## Names -/

/-- The marks that may follow an anchor's name at once. -/
def anchorEnds : List Char := ['?', ':', ',', ']', '\x7d', '%', '@', '\x60']

/-- The name behind `&` or `*`. -/
def anchorName (passage : Passage) (c : Cursor) : Scanned (List Char × Cursor) :=
  let (name, last) := (c.advance 1).span isNameChar
  if !name.isEmpty &&
      (endsWord last.rest || last.rest.head?.any (anchorEnds.contains ·)) then
    .ok (name, last)
  else last.fail .noName passage c.mark

/-! ## Directives -/

/-- A number of at most nine digits, in a directive that begins at `start`. -/
def versionNumber (start : Mark) (c : Cursor) : Scanned (Nat × Cursor) :=
  let (digits, last) := c.span fun ch ↦ (Text.digit? ch).isSome
  if 9 < digits.length then (c.advance 9).fail .longVersion .versionDirective start
  else if digits.isEmpty then c.fail .noVersion .versionDirective start
  else .ok (digits.foldl (fun n ch ↦ 10 * n + (Text.digit? ch).getD 0) 0, last)

/-- The version that a directive states. -/
def versionDirective (start : Mark) (c : Cursor) : Scanned (Token × Cursor) := do
  let (major, c) ← versionNumber start (c.skip isBlank)
  if c.peek? ≠ some '.' then c.fail .noPoint .versionDirective start
  else
    let (minor, c) ← versionNumber start (c.advance 1)
    return (.versionDirective major minor, c)

/-- The handle that a directive states, and what it stands for. -/
def tagDirective (start : Mark) (c : Cursor) : Scanned (Token × Cursor) := do
  let (handle, c) ← tagHandle .tagDirectiveHandle start (c.skip isBlank)
  if !(isClosedHandle handle || handle = ['!']) then
    c.fail .noExclamation .tagDirectiveName start
  else if !(c.rest.head?.any isBlank) then c.fail .noSpace .tagDirective start
  else
    let (text, c) ← tagText .tagDirectiveText start true (c.skip isBlank)
    if endsWord c.rest then return (.tagDirective handle text, c)
    else c.fail .noWordEnd .tagDirective start

/-- A directive, at its percent sign: the version of YAML, or what a tag's handle stands for. -/
def directive (c : Cursor) : Scanned (Token × Cursor) := do
  let start := c.mark
  let (name, c) := (c.advance 1).span isNameChar
  if name.isEmpty then c.fail .noDirectiveName .directive start
  else if !endsWord c.rest then c.fail .directiveName .directive start
  else
    let (token, c) ←
      if name = ['Y', 'A', 'M', 'L'] then versionDirective start c
      else if name = ['T', 'A', 'G'] then tagDirective start c
      else c.fail .unknownDirective .directive start
    let c := (c.skip isBlank).skipComment
    if endsLine c.rest then return (token, c.skipLineEnd)
    else c.fail .noLineEnd .directive start

/-! ## Cutting a text into tokens

### Keys

What stands before a `:` is a key, and nothing marks it as one. So wherever a key may begin, the
place is kept as a candidate, one for every level of brackets. A `:` on the same line and not too
far behind puts the tokens of a key in front of what was read since; otherwise the candidate lapses.
At the indentation of an open mapping there must be a key, and there a lapse is an error.

### Texts that break off

A token is settled when no candidate stands in front of it any more. Where a text cannot be cut any
further, only the settled tokens count; the fault comes in place of the others. -/

/-! ### The state of the cut -/

/-- A place where a key may have begun. -/
structure Candidate where
  /-- The number of tokens in front of it. -/
  position : Nat
  start : Cursor
  /-- There must be a key here. -/
  required : Bool

/-- How far a text has been cut. -/
structure Cutting where
  cursor : Cursor
  /-- The tokens so far, the last one first. -/
  tokens : List Placed := []
  /-- The columns of the open block collections, the innermost first. -/
  indents : List Nat := []
  /-- Where a key may have begun at the innermost level of brackets. -/
  candidate : Option Candidate := none
  /-- The candidates of the levels around it; outside all brackets there is no level around. -/
  outer : List (Option Candidate) := []
  /-- A key may begin here. -/
  keyAllowed : Bool := true

namespace Cutting

def inFlow (c : Cutting) : Bool := !c.outer.isEmpty

/-- The column of the innermost open block collection, `-1` outside all. -/
def indent (c : Cutting) : Int :=
  match c.indents with
  | [] => -1
  | n :: _ => n

def fail {α : Type} (c : Cutting) (what : Flaw) : Scanned α :=
  .error (.flaw what c.cursor.mark none)

/-- The state with the token `t`, which begins at `m`. -/
def push (c : Cutting) (t : Token) (m : Mark) : Cutting := { c with tokens := ⟨t, m⟩ :: c.tokens }

/-- The state with the token `t`, behind the `n` characters it is made of. -/
def take (c : Cutting) (n : Nat) (t : Token) : Cutting :=
  { c.push t c.cursor.mark with cursor := c.cursor.advance n }

/-- The state with the token `t` in front of all but the first `position` tokens. -/
def insert (c : Cutting) (position : Nat) (t : Token) (m : Mark) : Cutting :=
  let behind := c.tokens.length - position
  { c with tokens := c.tokens.take behind ++ ⟨t, m⟩ :: c.tokens.drop behind }

def allowKey (c : Cutting) (b : Bool) : Cutting := { c with keyAllowed := b }

/-- Give up a candidate; there must not have to be a key. -/
def giveUp (c : Cutting) (k : Candidate) : Scanned Unit :=
  if k.required then c.cursor.fail .noColon .simpleKey k.start.mark else .ok ()

/-- Give up the candidate of this level. -/
def dropCandidate (c : Cutting) : Scanned Cutting := do
  c.candidate.forM c.giveUp
  return { c with candidate := none }

/-- Keep this place as a candidate, if a key may begin here. -/
def noteCandidate (c : Cutting) : Scanned Cutting :=
  if c.keyAllowed then do
    let required := !c.inFlow && c.indent == c.cursor.column
    let c ← c.dropCandidate
    return { c with candidate := some ⟨c.tokens.length, c.cursor, required⟩ }
  else .ok c

/-- Whether the key of a candidate could still end here: on its line, and not too far behind. -/
def inReach (c : Cutting) (k : Candidate) : Bool :=
  k.start.line == c.cursor.line && c.cursor.index ≤ k.start.index + 1024

/-- The candidate of a level, if it has not lapsed. -/
def recheck (c : Cutting) (k? : Option Candidate) : Scanned (Option Candidate) := do
  match k? with
  | none => return none
  | some k =>
    if c.inReach k then return some k
    else
      c.giveUp k
      return none

/-- Let all candidates lapse that are out of reach, those of the outer levels first. -/
def lapse (c : Cutting) : Scanned Cutting := do
  let outer ← c.outer.reverse.mapM c.recheck
  return { c with candidate := ← c.recheck c.candidate, outer := outer.reverse }

/-- Open a block collection at the column of `start`, if it is deeper than all open ones. Its token
`t` goes behind the first `position` ones. -/
def openBlock (c : Cutting) (start : Mark) (position : Nat) (t : Token) : Cutting :=
  if !c.inFlow && c.indent < start.column then
    { c.insert position t start with indents := start.column :: c.indents }
  else c

/-- Close the block collections deeper than `column`. -/
def closeBlocks (c : Cutting) (column : Int) : Cutting :=
  if c.inFlow then c
  else
    let closed := c.indents.takeWhile fun n : Nat ↦ decide (column < n)
    { c with
      tokens := List.replicate closed.length ⟨.blockEnd, c.cursor.mark⟩ ++ c.tokens
      indents := c.indents.drop closed.length }

/-- Pass over blanks, comments and line ends. A tab is not passed over where it would count as
indentation. -/
def skipToToken : (fuel : Nat) → Cutting → Cutting
  | 0, c => c
  | fuel + 1, c =>
    let tabs := c.inFlow || !c.keyAllowed
    let start := c.cursor.skipByteOrder
    let cursor := (start.skip fun ch ↦ ch == ' ' || (tabs && ch == '\t')).skipComment
    match cursor.lineEnd? with
    | some (_, next) =>
      skipToToken fuel { c with cursor := next, keyAllowed := c.keyAllowed || !c.inFlow }
    | none => { c with cursor }

/-! ### One token -/

/-- Whether a text begins a plain scalar. -/
def startsPlain (flow : Bool) : List Char → Bool
  | [] => false
  | ch :: s =>
    !(isSpacing ch || ['-', '?', ':', ',', '[', ']', '\x7b', '\x7d', '#', '&', '*', '!', '|', '>',
      '\'', '"', '%', '@', '\x60'].contains ch) ||
    (ch == '-' && !(s.head?.any isBlank)) ||
    (!flow && (ch == '?' || ch == ':') && !endsWord s)

/-- Cut off a mark that opens brackets, as the token `t`. -/
def openFlow (c : Cutting) (t : Token) : Scanned Cutting := do
  let c ← c.noteCandidate
  return { c.take 1 t with candidate := none, outer := c.candidate :: c.outer, keyAllowed := true }

/-- Cut off a mark that closes brackets, as the token `t`. -/
def closeFlow (c : Cutting) (t : Token) : Scanned Cutting := do
  let c := (← c.dropCandidate).take 1 t |>.allowKey false
  match c.outer with
  | [] => return c
  | k :: outer => return { c with candidate := k, outer }

/-- Cut off the mark of an item or of a key, which opens a block collection outside brackets. -/
def entry (c : Cutting) (collection t : Token) (misplaced : Flaw) (allowed : Bool) :
    Scanned Cutting := do
  if !c.inFlow && !c.keyAllowed then c.fail misplaced
  else
    let c ← (c.openBlock c.cursor.mark c.tokens.length collection).dropCandidate
    return (c.take 1 t).allowKey allowed

/-- Cut off a `:`. What stands before it becomes a key, if there is a candidate. -/
def colon (c : Cutting) : Scanned Cutting :=
  match c.candidate with
  | some k =>
    let c := (c.insert k.position .key k.start.mark).openBlock k.start.mark k.position
      .blockMappingStart
    .ok { c.take 1 .value with candidate := none, keyAllowed := false }
  | none =>
    if !c.inFlow && !c.keyAllowed then c.fail .valueHere
    else
      let c := c.openBlock c.cursor.mark c.tokens.length .blockMappingStart
      .ok ((c.take 1 .value).allowKey !c.inFlow)

/-- Cut off a mark at the beginning of a line that ends all block collections. -/
def atTopLevel (c : Cutting) (read : Cursor → Scanned (Token × Cursor)) : Scanned Cutting := do
  let c := (← (c.closeBlocks (-1)).dropCandidate).allowKey false
  let (t, cursor) ← read c.cursor
  return { c.push t c.cursor.mark with cursor }

/-- Cut off a token with which a key may begin. -/
def keyStart {α : Type} (c : Cutting) (token : α → Token) (read : Cursor → Scanned (α × Cursor)) :
    Scanned Cutting := do
  let c := (← c.noteCandidate).allowKey false
  let (a, cursor) ← read c.cursor
  return { c.push (token a) c.cursor.mark with cursor }

/-- Cut off a scalar written as an indented block. -/
def block (c : Cutting) (literal : Bool) : Scanned Cutting := do
  let c := (← c.dropCandidate).allowKey true
  let (text, cursor) ← blockScalar literal c.indent c.cursor
  return { c.push (.scalar text false) c.cursor.mark with cursor }

/-- Cut off a plain scalar. If it ended with its line, a key may follow. -/
def plain (c : Cutting) : Scanned Cutting := do
  let c ← c.noteCandidate
  let p ← plainScalar c.inFlow (c.indent + 1).toNat c.cursor
  return { c.push (.scalar p.text true) c.cursor.mark with
    cursor := p.last, keyAllowed := p.broken }

/-- Cut off the token that begins here. -/
def next (c : Cutting) (ch : Char) (s : List Char) : Scanned Cutting :=
  let flow := c.inFlow
  if c.cursor.column = 0 ∧ ch = '%' then c.atTopLevel directive
  else if c.cursor.atDocumentMark then
    c.atTopLevel fun p ↦ .ok (if ch = '-' then .documentStart else .documentEnd, p.advance 3)
  else match ch with
    | '[' => c.openFlow .flowSequenceStart
    | '\x7b' => c.openFlow .flowMappingStart
    | ']' => c.closeFlow .flowSequenceEnd
    | '\x7d' => c.closeFlow .flowMappingEnd
    | ',' => do return ((← c.dropCandidate).take 1 .flowEntry).allowKey true
    | '*' => c.keyStart .reference (anchorName .reference)
    | '&' => c.keyStart .anchor (anchorName .anchor)
    | '!' => c.keyStart (fun (handle, suffix) ↦ .tag handle suffix) (tagParts flow)
    | '\'' => c.keyStart (.scalar · false) (quotedScalar false)
    | '"' => c.keyStart (.scalar · false) (quotedScalar true)
    | _ =>
      if ch = '-' ∧ endsWord s then c.entry .blockSequenceStart .blockEntry .itemHere true
      else if ch = '?' ∧ (flow ∨ endsWord s) then c.entry .blockMappingStart .key .keyHere !flow
      else if ch = ':' ∧ (flow ∨ endsWord s) then c.colon
      else if ch = '|' ∧ !flow then c.block true
      else if ch = '>' ∧ !flow then c.block false
      else if startsPlain flow (ch :: s) then c.plain
      else c.cursor.fail .noToken .nextToken c.cursor.mark

/-- Cut off the end of the text, which counts as the beginning of a line. -/
def finish (c : Cutting) : Scanned Cutting := do
  let c ← ({ c with cursor := c.cursor.forceLine }.closeBlocks (-1)).dropCandidate
  return c.push .textEnd c.cursor.mark

/-- Cut off one token, together with the tokens of the indentation in front of it. -/
def step (c : Cutting) : Scanned Cutting := do
  let c ← (c.skipToToken (c.cursor.rest.length + 1)).lapse
  let c := c.closeBlocks c.cursor.column
  match c.cursor.rest with
  | [] => (← c.finish).lapse
  | ch :: s => (← c.next ch s).lapse

/-! ### All tokens -/

def settled (c : Cutting) : Nat :=
  ((c.candidate :: c.outer).filterMap fun k? ↦ k?.map (·.position)).foldl min c.tokens.length

/-- The settled tokens, and then a fault. -/
def breakOff (c : Cutting) (m : Malformation) : List Placed :=
  c.tokens.reverse.take c.settled ++ [⟨.fault m, {}⟩]

/-- Cut up the rest of a text. The fuel is more than the length of the text: every token but those
of the indentation takes a character. -/
def run : (fuel : Nat) → Cutting → List Placed
  | 0, c => c.tokens.reverse
  | fuel + 1, c =>
    match c.step with
    | .error m => c.breakOff m
    | .ok next =>
      if next.tokens.head?.any (·.token = .textEnd) then next.tokens.reverse else run fuel next

end Cutting

/-- The tokens of a text. A character that may not stand in it counts before all else. -/
def Token.scan (s : List Char) : List Placed :=
  let admissible := s.takeWhile isAdmissible
  if admissible.length = s.length then Cutting.run (s.length + 2) { cursor := { rest := s } }
  else [⟨.fault (.character (octets admissible)), {}⟩]

end Pagesmith.Yaml
