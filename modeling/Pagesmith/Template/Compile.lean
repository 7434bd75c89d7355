import Pagesmith.Template.Directive
import Pagesmith.Text.Words

/-!
# From text to trees

The tree of a template is found by descent. Nodes are read up to a boundary: the end of the text, or
a tag that belongs to a section around them. An opening tag reads the nodes of its section in the
same way, looks at how they were ended, and goes on behind them. A conditional reads twice if it has
an `else`.

How many sections are open is counted by hand: one more when a section is entered, one less when it
has been read to its end. A tag that ends the nodes of a section leaves the count as it is.
-/

/-! ## Template trees

A compiled template is a list of `Node`s: literal text, fields to fill in, and sections that hold
nodes of their own. -/

namespace Pagesmith

/-- A node of a template. -/
inductive Node
  | text (s : String)
  | field (path : FieldPath)
  | conditional (path : FieldPath) (thenBranch elseBranch : List Node)
  | iteration (path : FieldPath) (body : List Node)
deriving Repr, Inhabited

namespace Node

mutual

def decEq : (a b : Node) → Decidable (a = b)
  | text s, text t => if h : s = t then isTrue (by rw [h]) else isFalse (by simp [h])
  | field p, field q => if h : p = q then isTrue (by rw [h]) else isFalse (by simp [h])
  | conditional p as bs, conditional q cs ds =>
    match decEqList as cs, decEqList bs ds with
    | isTrue h, isTrue h' =>
      if h'' : p = q then isTrue (by rw [h, h', h'']) else isFalse (by simp [h''])
    | isFalse h, _ => isFalse (by simp [h])
    | _, isFalse h => isFalse (by simp [h])
  | iteration p as, iteration q bs =>
    match decEqList as bs with
    | isTrue h => if h' : p = q then isTrue (by rw [h, h']) else isFalse (by simp [h'])
    | isFalse h => isFalse (by simp [h])
  | text _, field _ | text _, conditional .. | text _, iteration .. => isFalse (by simp)
  | field _, text _ | field _, conditional .. | field _, iteration .. => isFalse (by simp)
  | conditional .., text _ | conditional .., field _ | conditional .., iteration .. =>
    isFalse (by simp)
  | iteration .., text _ | iteration .., field _ | iteration .., conditional .. =>
    isFalse (by simp)

def decEqList : (as bs : List Node) → Decidable (as = bs)
  | [], [] => isTrue rfl
  | [], _ :: _ => isFalse (by simp)
  | _ :: _, [] => isFalse (by simp)
  | a :: as, b :: bs =>
    match decEq a b, decEqList as bs with
    | isTrue h, isTrue h' => isTrue (by rw [h, h'])
    | isFalse h, _ => isFalse (by simp [h])
    | _, isFalse h => isFalse (by simp [h])

end

instance : DecidableEq Node := decEq

end Node

/-- A compiled template. -/
structure Template where
  nodes : List Node
deriving DecidableEq, Repr

/-! ## Template text and tags

A template is literal text with tags between `{{` and `}}`. Cutting it into tokens loses nothing:
a tag starts at the first `{{` and ends at the first `}}` behind it, and every tag keeps the place
of its first brace, since that is where errors point. -/

/-- A place in a text, by line and column from one. Only `\n` starts a line, and a column is a
character. -/
structure Position where
  line : Nat
  column : Nat
deriving DecidableEq, Repr

namespace Position

def start : Position := ⟨1, 1⟩

def step (p : Position) (c : Char) : Position :=
  if c = '\n' then ⟨p.line + 1, 1⟩ else ⟨p.line, p.column + 1⟩

/-- The place behind `s`, where `p` is the place in front of it. -/
def after (p : Position) (s : List Char) : Position := s.foldl step p

end Position

/-- A piece of a template: literal text, or the inside of a tag. -/
inductive Token
  | text (s : List Char)
  | tag (body : List Char) (pos : Position)
deriving DecidableEq, Repr

namespace Token

def openMark : List Char := ['\x7b', '\x7b']

def closeMark : List Char := ['\x7d', '\x7d']

/-- Text as a token, unless it is empty. -/
def ofText (s : List Char) : List Token := if s.isEmpty then [] else [text s]

/-- The tokens of a text that starts at `pos`, or the place of a tag that is never closed. -/
def scanFrom (pos : Position) (s : List Char) : Except Position (List Token) :=
  match _ho : Text.cut openMark s with
  | none => .ok (ofText s)
  | some (before, inner) =>
    let here := pos.after before
    match _hc : Text.cut closeMark inner with
    | none => .error here
    | some (body, rest) =>
      (scanFrom (here.after (openMark ++ body ++ closeMark)) rest).map fun tokens ↦
        ofText before ++ tag body here :: tokens
termination_by s.length
decreasing_by
  have h₁ := Text.length_lt_of_cut_eq_some (by simp [openMark]) _ho
  have h₂ := Text.length_lt_of_cut_eq_some (by simp [closeMark]) _hc
  omega

def scan (s : List Char) : Except Position (List Token) := scanFrom .start s

end Token

/-! ## From tokens to trees -/

/-- Why a template does not compile. -/
inductive SyntaxCause
  | unclosedTag
  | tag (fault : TagFault)
  | tooDeep
  | elseOutside
  | closeWithoutOpen (helper : Helper)
  | unclosed (helper : Helper)
  | duplicateElse
  | elseInEach
  | wrongClose (closing opening : Helper)
deriving DecidableEq, Repr

/-- How many sections may be open at once. -/
def maxNesting : Nat := 32

def SyntaxCause.message : SyntaxCause → String
  | unclosedTag => "unclosed '\x7b\x7b': expected '\x7d\x7d'"
  | tag fault => fault.message
  | tooDeep => s!"sections nested deeper than {maxNesting} levels"
  | elseOutside => "\x7b\x7belse\x7d\x7d outside of \x7b\x7b#if\x7d\x7d"
  | closeWithoutOpen helper =>
    s!"\x7b\x7b/{helper.name}\x7d\x7d without matching \x7b\x7b#{helper.name}\x7d\x7d"
  | unclosed helper =>
    s!"unclosed \x7b\x7b#{helper.name}\x7d\x7d: expected \x7b\x7b/{helper.name}\x7d\x7d"
  | duplicateElse => "duplicate \x7b\x7belse\x7d\x7d in \x7b\x7b#if\x7d\x7d"
  | elseInEach => "\x7b\x7belse\x7d\x7d is only valid inside \x7b\x7b#if\x7d\x7d"
  | wrongClose closing opening =>
    s!"\x7b\x7b/{closing.name}\x7d\x7d does not close \x7b\x7b#{opening.name}\x7d\x7d"

/-- Why and where a template does not compile. -/
structure SyntaxError where
  pos : Position
  cause : SyntaxCause
deriving DecidableEq, Repr

namespace Descent

/-- What has ended the nodes that `parseNodes` has read. -/
inductive End
  | eof
  | else_ (pos : Position)
  | close (helper : Helper) (pos : Position)
deriving DecidableEq, Repr

/-- The parts of sections that are read: the two branches of a conditional, and an iteration. -/
inductive Part
  | if_
  | else_
  | each
deriving DecidableEq, Repr

/-- Whether a part of the section that opens at `start` may end like this. -/
def Part.check (start : Position) : Part → End → Except SyntaxError Unit
  | if_, .else_ _ | if_, .close .if_ _ | else_, .close .if_ _ | each, .close .each _ => .ok ()
  | if_, .eof | else_, .eof => .error ⟨start, .unclosed .if_⟩
  | each, .eof => .error ⟨start, .unclosed .each⟩
  | else_, .else_ pos => .error ⟨pos, .duplicateElse⟩
  | each, .else_ pos => .error ⟨pos, .elseInEach⟩
  | if_, .close .each pos | else_, .close .each pos => .error ⟨pos, .wrongClose .each .if_⟩
  | each, .close .if_ pos => .error ⟨pos, .wrongClose .if_ .each⟩

/-- What has been read of `tokens`: nodes, what has ended them, the tokens behind that, and how many
sections are open there. That `rest` is no longer than `tokens` is what the descent ends by. -/
structure Run (tokens : List Token) where
  nodes : List Node
  stop : End
  rest : List Token
  depth : Nat
  le : rest.length ≤ tokens.length

/-- The same run with `node` in front, for longer tokens. -/
def Run.cons {tokens shorter : List Token} (node : Node) (r : Run shorter)
    (h : shorter.length ≤ tokens.length) : Run tokens :=
  ⟨node :: r.nodes, r.stop, r.rest, r.depth, Nat.le_trans r.le h⟩

/-- One more open section, unless there are `maxNesting` already. -/
def enter (depth : Nat) (pos : Position) : Except SyntaxError Nat :=
  if maxNesting ≤ depth then .error ⟨pos, .tooDeep⟩ else .ok (depth + 1)

/-- Read a part of the section that opens at `start`, and look at how it was ended. -/
def parsePart {tokens : List Token} (part : Part) (start : Position)
    (read : Except SyntaxError (Run tokens)) : Except SyntaxError (Run tokens) := do
  let r ← read
  part.check start r.stop
  return r

section Sections

variable {token : Token} {tokens : List Token} (pos : Position) (path : FieldPath)
  (read : Nat → (rest : List Token) → rest.length ≤ tokens.length → Except SyntaxError (Run rest))

/-- Read a conditional and what follows it, behind the tag that opens it. The readings of shorter
tokens are done by `read`. -/
def parseIf (depth : Nat) : Except SyntaxError (Run (token :: tokens)) := do
  let thenRun ← parsePart .if_ pos (read (← enter depth pos) tokens (Nat.le_refl _))
  match thenRun.stop with
  | .else_ _ =>
    let elseRun ← parsePart .else_ pos (read thenRun.depth thenRun.rest thenRun.le)
    have hle : elseRun.rest.length ≤ tokens.length := Nat.le_trans elseRun.le thenRun.le
    let r ← read (elseRun.depth - 1) elseRun.rest hle
    return r.cons (.conditional path thenRun.nodes elseRun.nodes) (Nat.le_succ_of_le hle)
  | _ =>
    let r ← read (thenRun.depth - 1) thenRun.rest thenRun.le
    return r.cons (.conditional path thenRun.nodes []) (Nat.le_succ_of_le thenRun.le)

/-- Read an iteration and what follows it, behind the tag that opens it. -/
def parseEach (depth : Nat) : Except SyntaxError (Run (token :: tokens)) := do
  let bodyRun ← parsePart .each pos (read (← enter depth pos) tokens (Nat.le_refl _))
  let r ← read (bodyRun.depth - 1) bodyRun.rest bodyRun.le
  return r.cons (.iteration path bodyRun.nodes) (Nat.le_succ_of_le bodyRun.le)

end Sections

/-- Read nodes up to a boundary, with `depth` sections open. -/
def parseNodes (depth : Nat) : (tokens : List Token) → Except SyntaxError (Run tokens)
  | [] => .ok ⟨[], .eof, [], depth, Nat.le_refl _⟩
  | .text s :: tokens => do
    let r ← parseNodes depth tokens
    return r.cons (.text (String.ofList s)) (Nat.le_succ _)
  | .tag body pos :: tokens =>
    match Directive.ofBody body with
    | .error fault => .error ⟨pos, .tag fault⟩
    | .ok (.field path) => do
      let r ← parseNodes depth tokens
      return r.cons (.field path) (Nat.le_succ _)
    | .ok (.openSection .if_ path) =>
      parseIf pos path (fun depth rest _ ↦ parseNodes depth rest) depth
    | .ok (.openSection .each path) =>
      parseEach pos path (fun depth rest _ ↦ parseNodes depth rest) depth
    | .ok .else_ => .ok ⟨[], .else_ pos, tokens, depth, Nat.le_succ _⟩
    | .ok (.close helper) => .ok ⟨[], .close helper pos, tokens, depth, Nat.le_succ _⟩
termination_by tokens => tokens.length

/-- Whether the nodes of a whole text may end like this. -/
def End.check : End → Except SyntaxError Unit
  | eof => .ok ()
  | else_ pos => .error ⟨pos, .elseOutside⟩
  | close helper pos => .error ⟨pos, .closeWithoutOpen helper⟩

end Descent

def Node.ofTokens (tokens : List Token) : Except SyntaxError (List Node) := do
  let r ← Descent.parseNodes 0 tokens
  r.stop.check
  return r.nodes

/-- Compile a template's text. -/
def Template.compile (source : String) : Except SyntaxError Template := do
  let tokens ← (Token.scan source.toList).mapError fun pos ↦ ⟨pos, .unclosedTag⟩
  let nodes ← Node.ofTokens tokens
  .ok ⟨nodes⟩

end Pagesmith
