import Pagesmith.Json.Basic
import Pagesmith.Text.Quoted

/-!
# Reading records

A record has a name and named fields in a declared order. It is read from named contents, where the
order is that of the contents and unknown names are passed over, or from a list of contents in the
declared order. Fields are read one after the other into a draft; at the end the draft must hold
the required ones.

The contents may come from different kinds of dynamic value. A `Source` says how the scalars of one
kind are read; the shapes of records are written once for all sources.
-/

/-! ## Faults

A record is read from a dynamic value, and the first thing that does not fit is reported as a
`Fault`: what was found and what was wanted in its place, a field that is missing or comes twice, a
list of the wrong length, or a name outside a fixed choice. -/

namespace Pagesmith.Record

/-- What was found where something else was wanted. -/
inductive Found
  | null
  | unit
  | boolean (b : Bool)
  | integer (n : Int)
  | fraction (text : String)
  | string (s : String)
  | sequence
  | map
  | variant
deriving DecidableEq, Repr

def Found.text : Found → String
  | null => "null"
  | unit => "unit value"
  | boolean true => "boolean `true`"
  | boolean false => "boolean `false`"
  | integer n => s!"integer `{String.ofList (Number.integerText n)}`"
  | fraction t => s!"floating point `{t}`"
  | string s => s!"string {Text.quoted s}"
  | sequence => "sequence"
  | map => "map"
  | variant => "enum"

/-- What was wanted. -/
inductive Wanted
  | string
  | boolean
  | map
  | sequence
  | unit
  | stringOrMap
  | stringKey
  | fieldName
  | json
  | record (name : String)
deriving DecidableEq, Repr

def Wanted.text : Wanted → String
  | string => "a string"
  | boolean => "a boolean"
  | map => "a map"
  | sequence => "a sequence"
  | unit => "unit"
  | stringOrMap => "string or map"
  | stringKey => "a string key"
  | fieldName => "field identifier"
  | json => "any valid JSON value"
  | record name => s!"struct {name}"

/-- Why a value is not a record. -/
inductive Fault
  | invalidType (found : Found) (wanted : Wanted)
  | notSingleKey
  | tooShort (length : Nat) (record : String) (fields : Nat)
  | tooLong (length : Nat)
  | unknownVariant (name : String) (variants : List String)
  | missingField (name : String)
  | duplicateField (name : String)
deriving DecidableEq, Repr

def Fault.message : Fault → String
  | invalidType found wanted => s!"invalid type: {found.text}, expected {wanted.text}"
  | notSingleKey => "invalid value: map, expected map with a single key"
  | tooShort length record fields =>
    s!"invalid length {length}, expected struct {record} with {fields} element" ++
      (if fields = 1 then "" else "s")
  | tooLong length => s!"invalid length {length}, expected fewer elements in array"
  | unknownVariant name variants =>
    s!"unknown variant `{name}`, expected one of " ++
      ", ".intercalate (variants.map fun v ↦ s!"`{v}`")
  | missingField name => s!"missing field `{name}`"
  | duplicateField name => s!"duplicate field `{name}`"

end Pagesmith.Record

/-! ## Shapes -/

namespace Pagesmith.Record

abbrev Reading := Except Fault

/-- How scalars and free-form contents are read from values of one kind. -/
structure Source (α : Type) where
  string : α → Reading String
  boolean : α → Reading Bool
  json : α → Reading Json

/-- How records `ρ` are read from contents `α` by way of a draft `δ`. -/
structure Shape (α δ ρ : Type) where
  /-- The name of the record in messages. -/
  name : String
  /-- The names of its fields, in the declared order. -/
  fields : List String
  /-- The draft before any field is read. -/
  empty : δ
  /-- Read one field into the draft. -/
  set : δ → String × α → Reading δ
  /-- The record a draft amounts to, or the first required field it lacks. -/
  finish : δ → Except String ρ

namespace Shape

variable {α κ δ ρ : Type} (shape : Shape α δ ρ)

/-- Read one entry into a draft. The names read before are kept beside it, as no field of the record
may come twice. -/
def setOnce (name : κ → Reading String) : List String × δ → κ × α → Reading (List String × δ)
  | (seen, draft), (key, content) => do
    let name ← name key
    if shape.fields.contains name && seen.contains name then .error (.duplicateField name)
    else return (name :: seen, ← shape.set draft (name, content))

/-- Read a record from contents with keys, where `name` says what a key is read as. -/
def ofEntries (name : κ → Reading String) (contents : List (κ × α)) : Reading ρ := do
  let (_, draft) ← contents.foldlM (shape.setOnce name) ([], shape.empty)
  (shape.finish draft).mapError .missingField

/-- Read a record from named contents. -/
def ofFields (contents : List (String × α)) : Reading ρ := shape.ofEntries .ok contents

/-- Read a record from a list of contents, which stand for the fields in their order. -/
def ofItems (contents : List α) : Reading ρ := do
  let draft ← (shape.fields.zip contents).foldlM shape.set shape.empty
  let record ← (shape.finish draft).mapError fun field ↦
    .tooShort (shape.fields.idxOf field) shape.name shape.fields.length
  if shape.fields.length < contents.length then .error (.tooLong contents.length)
  else .ok record

end Shape

end Pagesmith.Record

namespace Pagesmith.Json

open Record

def found : Json → Found
  | null => .null
  | bool b => .boolean b
  | number (.integer n) => .integer n
  | number (.fraction x) => .fraction (String.ofList (Number.jsonText (.fraction x)))
  | string s => .string s
  | array _ => .sequence
  | object _ => .map

/-- The fault of `v`, which is not what was `wanted`. -/
def unlike {β : Type} (v : Json) (wanted : Wanted) : Reading β :=
  .error (.invalidType v.found wanted)

def source : Source Json where
  string := fun
    | string s => .ok s
    | v => v.unlike .string
  boolean := fun
    | bool b => .ok b
    | v => v.unlike .boolean
  json := .ok

/-- Read a record from an object or from an array. -/
def readRecord {δ ρ : Type} (shape : Shape Json δ ρ) : Json → Reading ρ
  | object fields => shape.ofFields fields
  | array items => shape.ofItems items
  | v => v.unlike (.record shape.name)

/-- Read a list with `read`, item by item. -/
def readList {β : Type} (read : Json → Reading β) : Json → Reading (List β)
  | array items => items.mapM read
  | v => v.unlike .sequence

end Pagesmith.Json
