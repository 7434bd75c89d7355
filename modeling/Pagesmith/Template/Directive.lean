import Pagesmith.Text.Words

/-!
# Field paths and tags

The inside of a tag is one of six things: a field to fill in, the opening of an `if` or `each`
section, the `else` between two branches, or the end of a section. White space around the whole,
behind `#` and behind `/` does not matter, and the parts of an opening are separated by it.
Everything else is refused, with a message that names what was not understood.
-/

/-! ## Field paths

A path names a value relative to a scope: `title`, `author.name`, `this`, `this.name`, `../title`.
Its words are made of ASCII letters, digits, `_` and `-`; at most one `../` may lead it, and one
`this.` after that is dropped, since it names the scope itself. -/

namespace Pagesmith

/-- Where a path starts: at the current scope or at the one around it. -/
inductive PathRoot
  | current
  | parent
deriving DecidableEq, Repr

/-- A field path. Without segments it names the value of its scope. -/
structure FieldPath where
  root : PathRoot
  segments : List String
deriving DecidableEq, Repr

/-- Why a text is not a path. -/
inductive PathFault
  | twoLevelsUp (raw : String)
  | notAField (raw : String)
deriving DecidableEq, Repr

def PathFault.message : PathFault → String
  | twoLevelsUp raw => s!"'{raw}': only one level of '../' is supported"
  | notAField raw => s!"'{raw}' is not a valid field reference"

namespace FieldPath

/-- The mark `../`, which leads to the scope around the current one. -/
def upMark : List Char := "../".toList

/-- The word for the scope itself. -/
def thisWord : List Char := "this".toList

def isWordChar (c : Char) : Bool :=
  ('a' ≤ c && c ≤ 'z') || ('A' ≤ c && c ≤ 'Z') || ('0' ≤ c && c ≤ '9') || c == '_' || c == '-'

/-- A non-empty run of `isWordChar`. -/
def isWord (w : List Char) : Bool := !w.isEmpty && w.all isWordChar

/-- The path as it is written, `this` standing for a path without segments. -/
def text (p : FieldPath) : String :=
  (match p.root with
    | .current => ""
    | .parent => "../") ++
  (if p.segments.isEmpty then "this" else ".".intercalate p.segments)

/-- What is left of a path behind `../` and `this`; nothing is left of `this` alone. -/
def dropThis (rest : List Char) : List Char :=
  if rest = thisWord then [] else (Text.dropMark? (thisWord ++ ['.']) rest).getD rest

/-- The path a text stands for. -/
def parse (raw : List Char) : Except PathFault FieldPath :=
  let (root, rest) := match Text.dropMark? upMark raw with
    | some rest => (PathRoot.parent, rest)
    | none => (PathRoot.current, raw)
  if upMark.isPrefixOf rest then .error (.twoLevelsUp (String.ofList raw))
  else
    match dropThis rest with
    | [] =>
      if thisWord.isSuffixOf raw then .ok ⟨root, []⟩
      else .error (.notAField (String.ofList raw))
    | rest =>
      let segments := Text.splitWhere (· == '.') rest
      if segments.all isWord then .ok ⟨root, segments.map String.ofList⟩
      else .error (.notAField (String.ofList raw))

end FieldPath

/-! ## What a tag says -/

/-- The two helpers that open a section. -/
inductive Helper
  | if_
  | each
deriving DecidableEq, Repr

def Helper.name : Helper → String
  | if_ => "if"
  | each => "each"

def Helper.ofName? (name : List Char) : Option Helper :=
  if name = Helper.if_.name.toList then some .if_
  else if name = Helper.each.name.toList then some .each
  else none

/-- What a tag says. -/
inductive Directive
  | field (path : FieldPath)
  | openSection (helper : Helper) (path : FieldPath)
  | else_
  | close (helper : Helper)
deriving DecidableEq, Repr

/-- Why a tag is refused. -/
inductive TagFault
  | empty
  | unknownHelper (name : String)
  | requiresField (helper : Helper)
  | tooManyFields (helper : Helper)
  | unknownClosing (name : String)
  | path (fault : PathFault)
deriving DecidableEq, Repr

def TagFault.message : TagFault → String
  | empty => "empty tag '\x7b\x7b\x7d\x7d'"
  | unknownHelper name => s!"unknown helper '{name}'"
  | requiresField helper => s!"'#{helper.name}' requires a field"
  | tooManyFields helper => s!"'#{helper.name}' takes exactly one field"
  | unknownClosing name => s!"unknown closing tag '/{name}'"
  | path fault => fault.message

namespace Directive

private def pathOf (raw : List Char) : Except TagFault FieldPath :=
  (FieldPath.parse raw).mapError .path

/-- What follows `#`: the name of a `Helper` and exactly one path. -/
def ofOpening (s : List Char) : Except TagFault Directive :=
  match Text.words s with
  | [] => .error (.unknownHelper "#")
  | name :: args =>
    match Helper.ofName? name, args with
    | none, _ => .error (.unknownHelper (String.ofList ('#' :: name)))
    | some helper, [raw] => (pathOf raw).map (openSection helper)
    | some helper, [] => .error (.requiresField helper)
    | some helper, _ => .error (.tooManyFields helper)

/-- What follows `/`: the name of a `Helper`. -/
def ofClosing (s : List Char) : Except TagFault Directive :=
  let name := Text.trim s
  match Helper.ofName? name with
  | some helper => .ok (close helper)
  | none => .error (.unknownClosing (String.ofList name))

def elseWord : List Char := "else".toList

/-- A tag without mark: `else`, or one path and nothing else. -/
def ofPlain (s : List Char) : Except TagFault Directive :=
  if s = elseWord then .ok else_
  else
    match Text.words s with
    | first :: _ :: _ => .error (.unknownHelper (String.ofList first))
    | _ => (pathOf s).map field

/-- What the inside of a tag says. -/
def ofBody (body : List Char) : Except TagFault Directive :=
  match Text.trim body with
  | [] => .error .empty
  | '#' :: s => ofOpening s
  | '/' :: s => ofClosing s
  | s => ofPlain s

end Directive

end Pagesmith
