import Pagesmith.Record

/-!
# Blocks, block types and schemas

A page is made of blocks. Each `Block` names its `BlockType` and carries a configuration; the type
brings the template, the configuration a new block starts with, and a schema that is advisory only.
-/

namespace Pagesmith

/-- A block of a page: the name of its type and its configuration. -/
structure Block where
  type : String
  config : Json
deriving DecidableEq, Repr

/-- A type of block, as an administrator defines it. -/
structure BlockType where
  name : String
  category : String
  template : String
  defaultConfig : Json
  schema : Json
  enabled : Bool
deriving DecidableEq, Repr

/-- A new block of a type, with the type's default configuration. -/
def BlockType.instantiate (t : BlockType) : Block := ⟨t.name, t.defaultConfig⟩

def emptyConfig : Json := .object []

namespace Block

structure Draft where
  type : Option String := none
  config : Option Json := none

def shape {α : Type} (source : Record.Source α) : Record.Shape α Draft Block where
  name := "BlockInstance"
  fields := ["type", "config"]
  empty := {}
  set := fun d (name, x) ↦
    match name with
    | "type" => do return { d with type := some (← source.string x) }
    | "config" => do return { d with config := some (← source.json x) }
    | _ => .ok d
  finish := fun d ↦
    match d.type with
    | none => .error "type"
    | some type => .ok ⟨type, d.config.getD emptyConfig⟩

def ofJson (v : Json) : Record.Reading Block := v.readRecord (shape Json.source)

def listOfJson (v : Json) : Record.Reading (List Block) := v.readList ofJson

/-- A block as JSON, with the field `type` first. -/
def toJson (b : Block) : Json := .object [("type", .string b.type), ("config", b.config)]

def listToJson (blocks : List Block) : Json := .array (blocks.map toJson)

end Block

namespace BlockType

structure Draft where
  name : Option String := none
  category : Option String := none
  template : Option String := none
  defaultConfig : Option Json := none
  schema : Option Json := none
  enabled : Option Bool := none

/-- How block types are read: `name` and `template` are required, and the other fields have
defaults. -/
def shape {α : Type} (source : Record.Source α) : Record.Shape α Draft BlockType where
  name := "BlockType"
  fields := ["name", "category", "template", "defaultConfig", "schema", "enabled"]
  empty := {}
  set := fun d (name, x) ↦
    match name with
    | "name" => do return { d with name := some (← source.string x) }
    | "category" => do return { d with category := some (← source.string x) }
    | "template" => do return { d with template := some (← source.string x) }
    | "defaultConfig" => do return { d with defaultConfig := some (← source.json x) }
    | "schema" => do return { d with schema := some (← source.json x) }
    | "enabled" => do return { d with enabled := some (← source.boolean x) }
    | _ => .ok d
  finish := fun d ↦
    match d.name, d.template with
    | none, _ => .error "name"
    | some _, none => .error "template"
    | some name, some template => .ok {
        name
        category := d.category.getD ""
        template
        defaultConfig := d.defaultConfig.getD emptyConfig
        schema := d.schema.getD .null
        enabled := d.enabled.getD true }

def ofJson (v : Json) : Record.Reading BlockType := v.readRecord (shape Json.source)

def listOfJson (v : Json) : Record.Reading (List BlockType) := v.readList ofJson

/-- A block type as JSON, its fields in the declared order. -/
def toJson (t : BlockType) : Json := .object [
  ("name", .string t.name), ("category", .string t.category), ("template", .string t.template),
  ("defaultConfig", t.defaultConfig), ("schema", t.schema), ("enabled", .bool t.enabled)]

end BlockType

/-! ## Schemas of configurations

A `BlockSchema` declares fields of a configuration, their types and whether they must be there.
Nothing is enforced: `BlockSchema.check` lists what an editor should look at, in the order of the
fields' names. -/

/-- The declared type of a field. Rich text is a string with a meaning of its own. -/
inductive FieldType
  | string
  | html
  | number
  | boolean
  | array
  | object
deriving DecidableEq, Repr

namespace FieldType

def all : List FieldType := [string, html, number, boolean, array, object]

def name : FieldType → String
  | string => "string"
  | html => "html"
  | number => "number"
  | boolean => "boolean"
  | array => "array"
  | object => "object"

def ofName? (s : String) : Option FieldType := all.find? fun t ↦ t.name == s

/-- The kind of value that a field of this type has. Both `string` and `html` stand for strings. -/
def kind : FieldType → Json.Kind
  | string | html => .string
  | number => .number
  | boolean => .boolean
  | array => .array
  | object => .object

/-- The type of that name, or the fault that lists the names of `all`. -/
def ofName (s : String) : Record.Reading FieldType :=
  match ofName? s with
  | some t => .ok t
  | none => .error (.unknownVariant s (all.map name))

/-- Read a type from its name, or from an object that has the name as its only key, with null. -/
def ofJson : Json → Record.Reading FieldType
  | .string s => ofName s
  | .object [(s, content)] => do
    let t ← ofName s
    if content.isNull then .ok t else content.unlike .unit
  | .object _ => .error .notSingleKey
  | v => v.unlike .stringOrMap

end FieldType

/-- The declaration of one field. -/
structure FieldSchema where
  type : FieldType
  required : Bool
deriving DecidableEq, Repr

/-- The declared fields, sorted by name. -/
structure BlockSchema where
  fields : List (String × FieldSchema)
deriving DecidableEq, Repr

namespace FieldSchema

structure Draft where
  type : Option FieldType := none
  required : Option Bool := none

/-- How declarations are read: from `type` and `required`, which is false if left out. -/
def shape : Record.Shape Json Draft FieldSchema where
  name := "FieldSchema"
  fields := ["type", "required"]
  empty := {}
  set := fun d (name, x) ↦
    match name with
    | "type" => do return { d with type := some (← FieldType.ofJson x) }
    | "required" => do return { d with required := some (← Json.source.boolean x) }
    | _ => .ok d
  finish := fun d ↦
    match d.type with
    | none => .error "type"
    | some type => .ok ⟨type, d.required.getD false⟩

def ofJson (v : Json) : Record.Reading FieldSchema := v.readRecord shape

def toJson (f : FieldSchema) : Json :=
  .object [("type", .string f.type.name), ("required", .bool f.required)]

end FieldSchema

namespace BlockSchema

/-- Read the declared fields, one by one. -/
def readFields : Json → Record.Reading (List (String × FieldSchema))
  | .object fields => do
    let read ← fields.mapM fun (name, x) ↦ do return (name, ← FieldSchema.ofJson x)
    return sortFields read
  | v => v.unlike .map

/-- How schemas are read, by way of the one field `fields`. -/
def shape : Record.Shape Json (Option (List (String × FieldSchema))) BlockSchema where
  name := "BlockSchema"
  fields := ["fields"]
  empty := none
  set := fun d (name, x) ↦
    match name with
    | "fields" => do return some (← readFields x)
    | _ => .ok d
  finish := fun d ↦ .ok ⟨d.getD []⟩

/-- Read a stored schema; `null` is the schema without fields. -/
def ofJson (v : Json) : Record.Reading BlockSchema :=
  if v.isNull then .ok ⟨[]⟩ else v.readRecord shape

def toJson (s : BlockSchema) : Json :=
  .object [("fields", .object (s.fields.map fun (name, f) ↦ (name, f.toJson)))]

end BlockSchema

/-- A mismatch between a schema and a configuration. -/
inductive SchemaIssue
  | missing (field : String)
  | wrongType (field : String) (expected : FieldType)
deriving DecidableEq, Repr

def SchemaIssue.message : SchemaIssue → String
  | missing field => s!"missing required field '{field}'"
  | wrongType field expected => s!"field '{field}' should be of type {expected.name}"

/-- The issue that `config` has with the field `name`, if there is one. A null counts as missing. -/
def FieldSchema.issue? (f : FieldSchema) (name : String) (config : Json) : Option SchemaIssue :=
  match config.field? name with
  | none | some .null => if f.required then some (.missing name) else none
  | some v => if v.kind = f.type.kind then none else some (.wrongType name f.type)

/-- All issues of a configuration, in the order of the declared names. -/
def BlockSchema.check (s : BlockSchema) (config : Json) : List SchemaIssue :=
  s.fields.filterMap fun (name, f) ↦ f.issue? name config

end Pagesmith
