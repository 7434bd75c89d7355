import Pagesmith.Json.Basic
import Pagesmith.Template.Compile
import Pagesmith.Template.Directive

/-!
# Filling in a template

By `renderAll` nodes are rendered in order, and the first failure is the result of the whole: there
is no partial output. A field that is missing or null renders as nothing, and an iteration over
nothing makes no pass.
-/

/-! ## Values in scope

A template is filled in against a `Scope`: a value, and the value of the scope around it if there is
one. Only one level up can be reached, so a scope keeps no more than that.

Three questions are asked of a value in scope: what a path leads to, whether it counts as true, and
what its text is. -/

namespace Pagesmith

/-- The value at hand and the one of the scope around it. -/
structure Scope where
  this : Json
  parent : Option Json
deriving Repr

namespace Scope

def root (value : Json) : Scope := ⟨value, none⟩

/-- A scope for one item of an iteration in `s`. -/
def child (s : Scope) (value : Json) : Scope := ⟨value, some s.this⟩

def maxIndex : Nat := Nat.pow 2 64 - 1

end Scope

/-- One step along a path: into a field of an object, or to an item of an array by its number. -/
def Json.step? (segment : String) : Json → Option Json
  | object fields => fields.lookup segment
  | array items =>
    match Text.natural Scope.maxIndex segment.toList with
    | .ok i => items[i]?
    | .error _ => none
  | _ => none

/-- The value that `segments` lead to. -/
def Json.walk? (segments : List String) (v : Json) : Option Json :=
  segments.foldlM (fun v segment ↦ v.step? segment) v

namespace Scope

/-- The value that `path` leads to. No path leads out of the outermost scope. -/
def lookup (s : Scope) (path : FieldPath) : Option Json :=
  match path.root with
  | .current => s.this.walk? path.segments
  | .parent => s.parent.bind (Json.walk? path.segments)

end Scope

/-- Whether a value, or its absence, counts as true: null, false, zero, the empty text and the empty
array do not. -/
def isTruthy : Option Json → Bool
  | none => false
  | some .null => false
  | some (.bool b) => b
  | some (.number n) => !n.isZero
  | some (.string s) => !s.isEmpty
  | some (.array items) => !items.isEmpty
  | some (.object _) => true

/-- Why a value has no text. -/
inductive TextFault
  | object
  | nested
deriving DecidableEq, Repr

def TextFault.message : TextFault → String
  | object => "cannot render an object as text"
  | nested => "cannot render a nested array or object as text"

namespace Json

def scalarText? : Json → Option String
  | null => some ""
  | bool true => some "true"
  | bool false => some "false"
  | number n => some (String.ofList n.templateText)
  | string s => some s
  | array _ => none
  | object _ => none

/-- The text of a value: scalars as they are, an array as its items with commas between them. -/
def templateText : Json → Except TextFault String
  | object _ => .error .object
  | array items =>
    match items.mapM scalarText? with
    | some parts => .ok (",".intercalate parts)
    | none => .error .nested
  | v => .ok (v.scalarText?.getD "")

end Json

/-! ## Rendering -/

/-- Why a template cannot be filled in. -/
inductive RenderCause
  | noText (path : FieldPath) (fault : TextFault)
  | notAnArray (path : FieldPath) (found : Json.Kind)
deriving DecidableEq, Repr

def RenderCause.message : RenderCause → String
  | noText path fault => s!"\x7b\x7b{path.text}\x7d\x7d: {fault.message}"
  | notAnArray path found =>
    s!"\x7b\x7b#each {path.text}\x7d\x7d expects an array, found {found.name}"

/-- The values an iteration passes over: none if `path` leads to null or nowhere. -/
def Scope.itemsAt (s : Scope) (path : FieldPath) : Except RenderCause (List Json) :=
  match s.lookup path with
  | none => .ok []
  | some .null => .ok []
  | some (.array items) => .ok items
  | some other => .error (.notAnArray path other.kind)

/-- The text of a field, which is empty if `path` leads to null or nowhere. -/
def Scope.textAt (s : Scope) (path : FieldPath) : Except RenderCause String :=
  match s.lookup path with
  | none => .ok ""
  | some v => v.templateText.mapError (.noText path)

namespace Node

mutual

def render (s : Scope) : Node → Except RenderCause String
  | text t => .ok t
  | field path => s.textAt path
  | conditional path thenBranch elseBranch =>
    if isTruthy (s.lookup path) then renderAll s thenBranch else renderAll s elseBranch
  | iteration path body => do
    let items ← s.itemsAt path
    let passes ← items.mapM fun item ↦ renderAll (s.child item) body
    .ok (String.join passes)

def renderAll (s : Scope) : List Node → Except RenderCause String
  | [] => .ok ""
  | node :: nodes => do
    let first ← render s node
    let rest ← renderAll s nodes
    .ok (first ++ rest)

end

end Node

/-- Fill in a template against `data`. -/
def Template.render (t : Template) (data : Json) : Except RenderCause String :=
  Node.renderAll (.root data) t.nodes

end Pagesmith
