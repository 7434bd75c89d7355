import Pagesmith.Block.Basic
import Pagesmith.Block.Registry
import Pagesmith.Html.Escape
import Pagesmith.Json.Records
import Pagesmith.Json.Text

/-!
# Pages

A page is the concatenation of the `fragment`s of its blocks, in order. Blocks do not see each
other: one whose type is unknown or whose template fails is replaced by a comment that names its
type, and all others render as they would alone.
-/

/-! ## Page files

A page file holds the blocks of a page, as a list in JSON, which `Block.listOfText` reads. A fault
in it is reported with its line and column. -/

namespace Pagesmith.Block

open Json.Reader

/-- The wording of a failure in `whole`. -/
def failureText (f : Failure RecordsFault) (whole : List Char) : String :=
  let (line, column) := f.place whole
  s!"{f.fault.message} at line {line} column {column}"

def readText (s : String) : Except String (List Block) :=
  (recordsOfText (shape Json.source) s.toList).mapError fun f ↦ failureText f s.toList

/-- The blocks that a page file holds. -/
def listOfText (s : String) : Except BlockError (List Block) :=
  (readText s).mapError .deserialization

end Pagesmith.Block

/-! ## What a block's template sees

A block is rendered against its own configuration, escaped, together with two fields that every
block has: `year`, the year of rendering, and `jsonConfig`, the unescaped configuration as JSON
text. They win over fields of the same name. A configuration that is not an object has no fields. -/

namespace Pagesmith

def yearField : String := "year"

/-- The name of the field that holds the unescaped configuration. -/
def jsonConfigField : String := "jsonConfig"

def Json.fields : Json → List (String × Json)
  | object fields => fields
  | _ => []

/-- The value that a block with this configuration is rendered against: the fields of `config`,
escaped, then `yearField` and `jsonConfigField`. -/
def blockScope (config : Json) (year : Int) : Json :=
  .object
    (insertField jsonConfigField (.string config.text)
      (insertField yearField (.int year) config.sanitize.fields))

/-! ## Rendering -/

namespace Page

/-- The comment in place of a block of unknown type. -/
def unknownMarker (blockType : String) : String :=
  s!"<!-- Unknown block type: {Html.escape blockType} -->"

/-- The comment in place of a block that fails to render. -/
def errorMarker (blockType : String) : String :=
  s!"<!-- Error rendering {Html.escape blockType} block -->"

/-- The text of one block, or why it has none. -/
def renderBlock (r : Registry) (year : Int) (b : Block) : Except BlockError String := do
  let t ← r.get b.type
  (t.template.render (blockScope b.config year)).mapError fun cause ↦
    (BlockError.ofRender cause).withBlockType t.definition.name

/-- What a block contributes to a page: its text, or one of the two markers. -/
def fragment (r : Registry) (year : Int) (b : Block) : String :=
  match renderBlock r year b with
  | .ok text => text
  | .error (.unknownType name) => unknownMarker name
  | .error _ => errorMarker b.type

def render (r : Registry) (year : Int) (blocks : List Block) : String :=
  String.join (blocks.map (fragment r year))

end Page

end Pagesmith
