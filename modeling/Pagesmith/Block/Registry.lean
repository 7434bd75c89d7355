import Pagesmith.Block.Basic
import Pagesmith.Record
import Pagesmith.Template.Compile
import Pagesmith.Template.Render

/-!
# Registries

A `Registry` holds the compiled block types by name. It is loaded from a list of definitions in one
pass: disabled ones are passed over, and the first enabled one that is not acceptable is the result
of the whole load. A registry never changes; to reload is to load another one.

## Sharing

Definitions often repeat a template text. A `Loading` therefore remembers the texts it has compiled
and takes the tree of a known text from there. The memory is part of loading only; no registry keeps
it.
-/

/-! ## Errors about blocks

Templates are compiled and filled in without knowing which block type they belong to; the name is
attached by `withBlockType` where it is known. The other errors carry their name from the start, or
have none. -/

namespace Pagesmith

/-- What can go wrong with block types and blocks. -/
inductive BlockError
  | templateSyntax (blockType : String) (line column : Nat) (detail : String)
  | unknownType (blockType : String)
  | render (blockType detail : String)
  | invalidType (name reason : String)
  | deserialization (detail : String)
deriving DecidableEq, Repr

namespace BlockError

def message : BlockError → String
  | templateSyntax blockType line column detail =>
    s!"Template syntax error in block type '{blockType}' at line {line}, column {column}: {detail}"
  | unknownType blockType => s!"Unknown block type '{blockType}'"
  | render blockType detail => s!"Error rendering block type '{blockType}': {detail}"
  | invalidType name reason => s!"Invalid block type '{name}': {reason}"
  | deserialization detail => s!"Deserialization error: {detail}"

/-- The block type an error is about, if it is about one. -/
def blockType? : BlockError → Option String
  | templateSyntax blockType .. => some blockType
  | unknownType blockType => some blockType
  | render blockType _ => some blockType
  | invalidType name _ => some name
  | deserialization _ => none

/-- Attach the name of the block type to an error of `ofSyntax` or `ofRender`. -/
def withBlockType (name : String) : BlockError → BlockError
  | templateSyntax _ line column detail => templateSyntax name line column detail
  | render _ detail => render name detail
  | e => e

/-- The error of a template that does not compile; its block type is still unknown. -/
def ofSyntax (e : SyntaxError) : BlockError :=
  templateSyntax "" e.pos.line e.pos.column e.cause.message

/-- The error of a template that cannot be filled in; its block type is still unknown. -/
def ofRender (c : RenderCause) : BlockError := render "" c.message

def ofRecord (f : Record.Fault) : BlockError := deserialization f.message

end BlockError

/-! ## Loading -/

/-- A block type with its compiled template. -/
structure CompiledType where
  definition : BlockType
  template : Template
deriving DecidableEq, Repr

/-- Compiled block types, sorted by name. -/
structure Registry where
  types : List (String × CompiledType)
deriving DecidableEq, Repr

namespace Registry

def empty : Registry := ⟨[]⟩

def find? (r : Registry) (name : String) : Option CompiledType := r.types.lookup name

def contains (r : Registry) (name : String) : Bool := (r.find? name).isSome

/-- The type `name`, or the error `unknownType`. -/
def get (r : Registry) (name : String) : Except BlockError CompiledType :=
  match r.find? name with
  | some t => .ok t
  | none => .error (.unknownType name)

def names (r : Registry) : List String := r.types.map (·.1)

def size (r : Registry) : Nat := r.types.length

/-- What loading has found so far: types by name, and trees by template text. -/
structure Loading where
  types : List (String × CompiledType)
  compiled : List (String × Template)

/-- The tree of the template of `t`, compiled unless its text is known. -/
def Loading.templateOf (l : Loading) (t : BlockType) :
    Except BlockError (Template × List (String × Template)) :=
  match l.compiled.lookup t.template with
  | some template => .ok (template, l.compiled)
  | none =>
    match Template.compile t.template with
    | .ok template => .ok (template, (t.template, template) :: l.compiled)
    | .error e => .error ((BlockError.ofSyntax e).withBlockType t.name)

/-- Take `t` in, unless it is disabled. It needs a name that no other type has, and a template that
compiles. -/
def Loading.add (l : Loading) (t : BlockType) : Except BlockError Loading :=
  if !t.enabled then .ok l
  else if (Text.trim t.name.toList).isEmpty then
    .error (.invalidType t.name "name must not be empty")
  else if (l.types.lookup t.name).isSome then
    .error (.invalidType t.name "defined more than once")
  else do
    let (template, compiled) ← l.templateOf t
    return ⟨insertField t.name ⟨t, template⟩ l.types, compiled⟩

/-- Compile every enabled one of `definitions`. -/
def load (definitions : List BlockType) : Except BlockError Registry := do
  let l ← definitions.foldlM Loading.add ⟨[], []⟩
  return ⟨l.types⟩

end Registry

/-! ## The live registry

Renderers share one registry, the `live` one of a `Session`. It is replaced as a whole, and only by
a registry that has been loaded completely; whoever took a registry before keeps the one they took.
Because registries are values, holding one is to remember it. -/

/-- The live registry, and registries taken earlier under names of their own. -/
structure Session where
  live : Registry := .empty
  held : List (String × Registry) := []

namespace Session

def replace (s : Session) (r : Registry) : Session := { s with live := r }

/-- Load `definitions` and make them live: the number of types, or the error and the same session.
-/
def reload (s : Session) (definitions : List BlockType) : Except BlockError Nat × Session :=
  match Registry.load definitions with
  | .ok r => (.ok r.size, s.replace r)
  | .error e => (.error e, s)

/-- Keep the live registry under `name`. -/
def hold (s : Session) (name : String) : Session := { s with held := (name, s.live) :: s.held }

/-- The registry that is held under `name`, or the live one if there is none. -/
def registryFor (s : Session) (name : Option String) : Registry :=
  ((name.bind fun n ↦ s.held.lookup n)).getD s.live

end Session

end Pagesmith
