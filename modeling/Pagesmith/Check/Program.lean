import Pagesmith.Block.Basic
import Pagesmith.Block.Registry
import Pagesmith.CommandLine
import Pagesmith.Page.Document
import Pagesmith.Page.Render

/-!
# The checker

The checker reads definition files, says of each whether its block types can be loaded, and warns
about default configurations that do not fit their schemas. If all files are in order, it can show
a page made of their blocks.

Each file is loaded by itself; the page needs a registry of all types together, so a name that two
files define is found only then.

What a definition file is written in does not matter here: among its `Sources` the checker is given
a reader for it.
-/

namespace Pagesmith.Check

open CommandLine

def isPath (s : String) : Bool := !s.isEmpty

def command : Command where
  name := "blockpage-check"
  about := "Validate block type definitions and preview pages built from them"
  operands := some {
    name := "FILES"
    help := "YAML files, each holding one block type or a list of them"
    accepts := isPath }
  flags := [
    { name := "render", placeholder := some "PAGE_JSON", accepts := isPath,
      help := "Render a JSON block list against the loaded block types" },
    { name := "document", placeholder := some "TITLE",
      help := "With --render, wrap the output in a full HTML document with this title" }]
  hasVersion := true

/-- What the checker is asked to do. -/
structure Request where
  files : List String
  /-- The page file to show. -/
  page : Option String
  /-- The title of the document around the page. -/
  title : Option String
deriving DecidableEq, Repr

/-- The request that `args` make. A title needs a page. -/
def Request.ofArguments (args : List String) : Except Halt Request := do
  let a ← command.read args
  let r : Request := ⟨a.operands, a.value? "render", a.value? "document"⟩
  if r.title.isSome && r.page.isNone then .error .usage else return r

/-- What the checker is given to read. -/
structure Sources where
  /-- The text of a file, or why it cannot be read. -/
  file : String → Except String String
  /-- The block types that the text of a definition file holds. -/
  definitions : String → Except BlockError (List BlockType)

/-- The text of the file at `path`. -/
def readFile (sources : Sources) (path : String) : Except BlockError String :=
  (sources.file path).mapError fun reason ↦ .deserialization s!"Failed to read file: {reason}"

def errorText : BlockError → String
  | .templateSyntax blockType line column detail =>
    s!"  Template syntax error in '{blockType}' at line {line}, column {column}:\n    {detail}\n"
  | .invalidType name reason => s!"  Invalid block type '{name}':\n    {reason}\n"
  | .deserialization detail => s!"  Deserialization error:\n    {detail}\n"
  | e => s!"  {e.message}\n"

/-! ## Definition files -/

/-- The block types of a definition file, which can be loaded. -/
def loadDefinitions (sources : Sources) (path : String) : Except BlockError (List BlockType) := do
  let types ← sources.definitions (← readFile sources path)
  let _ ← Registry.load types
  return types

/-- The warnings about a block type's default configuration. -/
def warnings (t : BlockType) : Except BlockError (List String) := do
  let schema ← (BlockSchema.ofJson t.schema).mapError .ofRecord
  return (schema.check t.defaultConfig).map fun issue ↦
    s!"  warning: '{t.name}' default config: {issue.message}\n"

/-- The `warnings` about block types, up to the first schema that cannot be read. -/
def allWarnings : List BlockType → List String × Except BlockError Unit
  | [] => ([], .ok ())
  | t :: ts =>
    match warnings t with
    | .error e => ([], .error e)
    | .ok ws =>
      let (more, result) := allWarnings ts
      (ws ++ more, result)

/-- What is said of a definition file that is in order: its types. -/
def validText (path : String) (types : List BlockType) : String :=
  s!"✓ {path} is valid ({types.length} block types)\n"

/-- What is said of a definition file that is not. -/
def invalidText (path : String) (e : BlockError) : String :=
  s!"✗ {path} has errors:\n{errorText e}"

/-- Report on what `loadDefinitions` has given: the report `r` goes on, and the types of a valid
file are given. -/
def reportLoaded (path : String) (r : Report) :
    Except BlockError (List BlockType) → Report × List BlockType
  | .error e => ((r.warn (invalidText path e)).fail, [])
  | .ok types =>
    let (lines, result) := allWarnings types
    let r := lines.foldl Report.warn r
    match result with
    | .error e => ((r.warn (invalidText path e)).fail, [])
    | .ok () => (r.print (validText path types), types)

def checkFile (sources : Sources) (path : String) (r : Report) : Report × List BlockType :=
  reportLoaded path r (loadDefinitions sources path)

/-- Check definition files one after the other. -/
def checkFiles (sources : Sources) : List String → Report → Report × List BlockType
  | [], r => (r, [])
  | path :: paths, r =>
    let (r, types) := checkFile sources path r
    let (r, more) := checkFiles sources paths r
    (r, types ++ more)

/-! ## The page -/

/-- A page as it is shown: by itself, or in a document if there is a `title`. -/
def framed (title : Option String) (body : String) : String :=
  match title with
  | some title => Document.render ⟨title, .null⟩ body none
  | none => body

/-- The page of a page file, as it is shown. -/
def showPage (sources : Sources) (year : Int) (path : String) (types : List BlockType)
    (title : Option String) : Except BlockError String := do
  let blocks ← Block.listOfText (← readFile sources path)
  let registry ← Registry.load types
  return framed title (Page.render registry year blocks)

def unrenderedText (path : String) (e : BlockError) : String :=
  s!"✗ {path} could not be rendered:\n{errorText e}"

/-- What is left to do when all definition files were checked, with report `r` and these `types`. -/
def finish (sources : Sources) (year : Int) (q : Request) (r : Report) (types : List BlockType) :
    Report :=
  match q.page with
  | none => r
  | some path =>
    if r.exit ≠ 0 then r.warn "Skipping render: block type definitions have errors\n"
    else match showPage sources year path types q.title with
      | .ok page => r.print page
      | .error e => (r.warn (unrenderedText path e)).fail

def answer (sources : Sources) (year : Int) (q : Request) : Report :=
  let (r, types) := checkFiles sources q.files {}
  finish sources year q r types

/-- Run the checker, in a year. -/
def run (sources : Sources) (year : Int) (args : List String) : Report :=
  match Request.ofArguments args with
  | .ok q => answer sources year q
  | .error .help => { stdout := command.helpText command.name [] }
  | .error .version => { stdout := s!"{command.name} 0.1.0\n" }
  | .error .usage => { stderr := command.usageText command.name false, exit := 2 }

end Pagesmith.Check
