import Pagesmith.Block.Basic
import Pagesmith.Block.Registry
import Pagesmith.Decimal
import Pagesmith.Yaml.Document

/-!
# Definition files

Administrators write block types in YAML: a file holds one type or a list of them. The records are
read by the `Record.Shape`s that read them from JSON. What differs is what YAML has beside JSON:
keys that are no texts, fractions that are not finite, and tags, which are passed over where a field
is wanted and refused inside a configuration. A type that is left empty is read as a record without
fields.
-/

namespace Pagesmith

/-- Fractions in messages are written with all their digits and a point. -/
def fractionLayout : Layout where
  tie := .up
  positional := fun _ ↦ true
  keepsPoint := true
  signsExponent := false

namespace Yaml.Value

open Record

def fractionText (x : Binary64) : String :=
  let magnitude := if x.isZero then ['0', '.', '0'] else fractionLayout.magnitude x
  String.ofList (if x.negative then '-' :: magnitude else magnitude)

def found : Value → Found
  | null => .unit
  | bool b => .boolean b
  | integer n => .integer n
  | fraction x => .fraction (fractionText x)
  | infinity negative => .fraction (if negative then "-inf" else "inf")
  | notANumber => .fraction "NaN"
  | text s => .string s
  | sequence _ => .sequence
  | mapping _ => .map
  | tagged _ _ => .variant

/-- The text of `v`, which has to be one; `wanted` is how it was asked for. -/
def expectText (wanted : Wanted) (v : Value) : Reading String :=
  match v.untagged with
  | text s => .ok s
  | v => .error (.invalidType v.found wanted)

def expectBoolean (v : Value) : Reading Bool :=
  match v.untagged with
  | bool b => .ok b
  | v => .error (.invalidType v.found .boolean)

mutual

/-- A value as JSON. -/
def toJson : Value → Reading Json
  | null | infinity _ | notANumber => .ok .null
  | bool b => .ok (.bool b)
  | integer n => .ok (.int n)
  | fraction x => .ok (.number (.fraction x))
  | text s => .ok (.string s)
  | sequence items => do return .array (← itemsToJson items)
  | mapping entries => do return .ofFields (← entriesToJson .stringKey entries)
  | tagged _ v => .error (.invalidType (tagged [] v).found .json)

def itemsToJson : List Value → Reading (List Json)
  | [] => .ok []
  | v :: vs => do return (← toJson v) :: (← itemsToJson vs)

/-- The entries of a mapping as JSON fields; `wanted` is how the first key is asked for. -/
def entriesToJson (wanted : Wanted) : List (Value × Value) → Reading (List (String × Json))
  | [] => .ok []
  | (k, v) :: es => do
    let name ← expectText wanted k
    let content ← toJson v
    return (name, content) :: (← entriesToJson .string es)

end

/-- YAML values as a source of scalars and configurations. -/
def source : Source Value where
  string := expectText .string
  boolean := expectBoolean
  json := toJson

/-- Read a record from a mapping, or from nothing. -/
def readRecord {δ ρ : Type} (shape : Shape Value δ ρ) (v : Value) : Reading ρ :=
  match v.untagged with
  | mapping entries => shape.ofEntries (expectText .fieldName) entries
  | null => shape.ofEntries (expectText .fieldName) []
  | v => .error (.invalidType v.found (.record shape.name))

end Yaml.Value

namespace BlockType

def ofYaml (v : Yaml.Value) : Record.Reading BlockType := v.readRecord (shape Yaml.Value.source)

/-- The block types of a YAML value: those of a sequence, or a single one. -/
def listOfYaml (v : Yaml.Value) : Record.Reading (List BlockType) :=
  match v.untagged with
  | .sequence items => items.mapM ofYaml
  | v => do return [← ofYaml v]

end BlockType

/-- Why a definition file holds no block types. -/
inductive DefinitionFault
  /-- The text is not a document with a value. -/
  | unreadable (f : Yaml.Fault)
  /-- The document is not made of block types. -/
  | record (f : Record.Fault)

/-- The block types that the YAML text `s` holds. -/
def BlockType.ofDefinitions (s : String) : Except DefinitionFault (List BlockType) := do
  let v ← (Yaml.Value.ofText s).mapError .unreadable
  (listOfYaml v).mapError .record

def DefinitionFault.error : DefinitionFault → BlockError
  | unreadable f => .deserialization f.message
  | record f => .ofRecord f

/-- The block types that `s` holds, with a fault as a `BlockError`. -/
def BlockType.readDefinitions (s : String) : Except BlockError (List BlockType) :=
  (BlockType.ofDefinitions s).mapError DefinitionFault.error

end Pagesmith
