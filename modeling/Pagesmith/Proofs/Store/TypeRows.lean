import Pagesmith.Block.Basic
import Pagesmith.Proofs.Block.Schema
import Pagesmith.Proofs.Json.RoundTrip
import Pagesmith.Store.Script

/-!
# Records come back

A block, a block type, a declaration of a field and a schema are each read from every value that
`Spells` them: from the object that is written for them, also if fields of other names are added to
it or those left out that hold the default, and from the list of their contents in the declared
order. The `parts` below say what the defaults are.

A schema is the one record that holds others. Its declared fields may be spelled in any of these
ways each, and they are the same whatever the order in which they come, since they are sorted when
they are read.
-/

namespace Pagesmith

open Record

/-- The contents of an object's fields, without their names. -/
def Json.withoutNames : Json → Json
  | object fields => array (fields.map Prod.snd)
  | v => v

/-- Whether `record` comes back from what is `written` for it, from the contents alone in their
order, and from everything else that spells its `parts`. -/
structure ComesBack {ρ : Type} (read : Json → Reading ρ) (parts : List Part) (written : Json)
    (record : ρ) : Prop where
  object : read written = .ok record
  array : read written.withoutNames = .ok record
  spelled : ∀ v, Spells parts v → read v = .ok record

theorem comesBack_of_spells {ρ : Type} {read : Json → Reading ρ} {parts : List Part}
    {written : Json} {record : ρ} (hread : ∀ v, Spells parts v → read v = .ok record)
    (hwritten : Spells parts written ∧ Spells parts written.withoutNames) :
    ComesBack read parts written record :=
  ⟨hread _ hwritten.1, hread _ hwritten.2, hread⟩

/-- A field that a draft lacks only where it holds the default. -/
theorem getD_ite_of_default {α : Type} {p : Prop} [Decidable p] {a default : α}
    (h : ¬p → a = default) : (if p then some a else none).getD default = a := by
  by_cases hp : p
  · rw [if_pos hp, Option.getD_some]
  · rw [if_neg hp, Option.getD_none, h hp]

namespace Block

variable (b : Block)

def parts : List Part :=
  [.required "type" (.string b.type), .optional "config" b.config emptyConfig]

def drafts : Drafts (shape Json.source) b.parts b where
  after seen :=
    { type := if "type" ∈ seen then some b.type else none
      config := if "config" ∈ seen then some b.config else none }
  start := rfl
  names := rfl
  part seen p hp x hx := by
    simp only [parts, List.mem_cons, List.not_mem_nil, or_false] at hp
    rcases hp with rfl | rfl <;> cases hx <;>
      simp [shape, Part.required, Part.optional, Json.source]
  other seen name x hname := by
    simp [parts, Part.required, Part.optional] at hname
    simp [shape, hname, eq_comm (b := name)]
  finish seen h := by
    simp only [parts, List.forall_mem_cons, Part.required, Part.optional] at h
    obtain ⟨htype, hconfig, -⟩ := h
    simp only [shape, if_pos (not_not.mp htype), getD_ite_of_default hconfig]

theorem spells_toJson : Spells b.parts b.toJson ∧ Spells b.parts b.toJson.withoutNames := by
  refine spells_of_written ?_ ?_
  · simp [parts, Part.required, Part.optional]
  · rw [← b.drafts.names]
    decide

theorem comesBack : ComesBack ofJson b.parts b.toJson b :=
  comesBack_of_spells (fun _ ↦ b.drafts.readRecord) b.spells_toJson

end Block

namespace BlockType

variable (t : BlockType)

def parts : List Part :=
  [.required "name" (.string t.name), .optional "category" (.string t.category) (.string ""),
    .required "template" (.string t.template),
    .optional "defaultConfig" t.defaultConfig emptyConfig,
    .optional "schema" t.schema .null, .optional "enabled" (.bool t.enabled) (.bool true)]

def drafts : Drafts (shape Json.source) t.parts t where
  after seen :=
    { name := if "name" ∈ seen then some t.name else none
      category := if "category" ∈ seen then some t.category else none
      template := if "template" ∈ seen then some t.template else none
      defaultConfig := if "defaultConfig" ∈ seen then some t.defaultConfig else none
      schema := if "schema" ∈ seen then some t.schema else none
      enabled := if "enabled" ∈ seen then some t.enabled else none }
  start := rfl
  names := rfl
  part seen p hp x hx := by
    simp only [parts, List.mem_cons, List.not_mem_nil, or_false] at hp
    rcases hp with rfl | rfl | rfl | rfl | rfl | rfl <;> cases hx <;>
      simp [shape, Part.required, Part.optional, Json.source]
  other seen name x hname := by
    simp [parts, Part.required, Part.optional] at hname
    simp [shape, hname, eq_comm (b := name)]
  finish seen h := by
    simp only [parts, List.forall_mem_cons, Part.required, Part.optional, Json.string.injEq,
      Json.bool.injEq] at h
    obtain ⟨hname, hcategory, htemplate, hconfig, hschema, henabled, -⟩ := h
    simp only [shape, if_pos (not_not.mp hname), if_pos (not_not.mp htemplate),
      getD_ite_of_default hcategory, getD_ite_of_default hconfig, getD_ite_of_default hschema,
      getD_ite_of_default henabled]

theorem spells_toJson : Spells t.parts t.toJson ∧ Spells t.parts t.toJson.withoutNames := by
  refine spells_of_written ?_ ?_
  · simp [parts, Part.required, Part.optional]
  · rw [← t.drafts.names]
    decide

theorem comesBack : ComesBack ofJson t.parts t.toJson t :=
  comesBack_of_spells (fun _ ↦ t.drafts.readRecord) t.spells_toJson

end BlockType

theorem FieldType.ofJson_name (t : FieldType) : ofJson (.string t.name) = .ok t := by
  cases t <;> rfl

namespace FieldSchema

variable (f : FieldSchema)

def parts : List Part :=
  [.required "type" (.string f.type.name), .optional "required" (.bool f.required) (.bool false)]

def drafts : Drafts shape f.parts f where
  after seen :=
    { type := if "type" ∈ seen then some f.type else none
      required := if "required" ∈ seen then some f.required else none }
  start := rfl
  names := rfl
  part seen p hp x hx := by
    simp only [parts, List.mem_cons, List.not_mem_nil, or_false] at hp
    rcases hp with rfl | rfl <;> cases hx <;>
      simp [shape, Part.required, Part.optional, Json.source, FieldType.ofJson_name]
  other seen name x hname := by
    simp [parts, Part.required, Part.optional] at hname
    simp [shape, hname, eq_comm (b := name)]
  finish seen h := by
    simp only [parts, List.forall_mem_cons, Part.required, Part.optional, Json.bool.injEq] at h
    obtain ⟨htype, hrequired, -⟩ := h
    simp only [shape, if_pos (not_not.mp htype), getD_ite_of_default hrequired]

theorem spells_toJson : Spells f.parts f.toJson ∧ Spells f.parts f.toJson.withoutNames := by
  refine spells_of_written ?_ ?_
  · simp [parts, Part.required, Part.optional]
  · rw [← f.drafts.names]
    decide

theorem comesBack : ComesBack ofJson f.parts f.toJson f :=
  comesBack_of_spells (fun _ ↦ f.drafts.readRecord) f.spells_toJson

end FieldSchema

namespace BlockSchema

/-- Whether a value spells the fields `declared`: it is an object that spells each of them under its
name, and has no other fields. -/
inductive SpellsFields (declared : List (String × FieldSchema)) : Json → Prop
  | object {entries : List (String × Json)} (hdistinct : (entries.map Prod.fst).Nodup)
      (hall : ∀ d ∈ declared, d.1 ∈ entries.map Prod.fst)
      (hspells : ∀ e ∈ entries, ∃ f, (e.1, f) ∈ declared ∧ Spells f.parts e.2) :
      SpellsFields declared (.object entries)

theorem readFields_of_spellsFields {declared : List (String × FieldSchema)}
    (hsorted : SortedFields declared) {v : Json} (h : SpellsFields declared v) :
    readFields v = .ok declared := by
  cases h with
  | @object entries hdistinct hall hspells =>
    -- what is declared under a name is what is read there
    let read (e : String × Json) : String × FieldSchema :=
      (e.1, (declared.lookup e.1).getD ⟨.string, false⟩)
    have hlookup : ∀ e ∈ entries, ∃ f, declared.lookup e.1 = some f ∧ Spells f.parts e.2 := by
      intro e he
      obtain ⟨f, hf, hspell⟩ := hspells e he
      exact ⟨f, hsorted.mem_iff.mp hf, hspell⟩
    have hread : entries.mapM (fun e ↦ (do return (e.1, ← FieldSchema.ofJson e.2) :
        Reading (String × FieldSchema))) = .ok (entries.map read) := by
      refine mapM_eq_ok_map fun e he ↦ ?_
      obtain ⟨f, hf, hspell⟩ := hlookup e he
      simp only [read, hf, Option.getD_some]
      rw [FieldSchema.ofJson, f.drafts.readRecord hspell]
      rfl
    have hnames : (entries.map read).map Prod.fst = entries.map Prod.fst := by
      rw [List.map_map]
      rfl
    have hsort : sortFields (entries.map read) = declared := by
      refine (sortedFields_sortFields _).eq_of_lookup hsorted fun name ↦ ?_
      rw [sortFields_eq_setFields]
      by_cases hname : name ∈ entries.map Prod.fst
      · obtain ⟨e, he, rfl⟩ := List.mem_map.mp hname
        obtain ⟨f, hf, -⟩ := hlookup e he
        rw [hf]
        refine lookup_setFields_of_mem (hnames ▸ hdistinct) (List.mem_map.mpr ⟨e, he, ?_⟩) []
        simp only [read, hf, Option.getD_some]
      · rw [lookup_setFields_of_not_mem (hnames ▸ hname), List.lookup_nil, eq_comm,
          List.lookup_eq_none_iff]
        intro d hd
        exact bne_iff_ne.mpr fun heq ↦ hname (heq ▸ hall d hd)
    rw [readFields]
    change (entries.mapM _ >>= _) = _
    rw [hread]
    exact congrArg Except.ok hsort

variable (s : BlockSchema)

def parts : List Part := [⟨"fields", SpellsFields s.fields, s.fields = []⟩]

def drafts (hsorted : SortedFields s.fields) : Drafts shape s.parts s where
  after seen := if "fields" ∈ seen then some s.fields else none
  start := rfl
  names := rfl
  part seen p hp x hx := by
    cases List.mem_singleton.mp hp
    simp [shape, readFields_of_spellsFields hsorted hx]
  other seen name x hname := by
    simp [parts] at hname
    simp [shape, hname, eq_comm (b := name)]
  finish seen h := by
    simp only [shape, getD_ite_of_default (List.forall_mem_singleton.mp h)]

theorem ofJson_of_spells (hsorted : SortedFields s.fields) {v : Json} (h : Spells s.parts v) :
    ofJson v = .ok s := by
  have hnull : ¬v.isNull = true := by
    cases h <;> exact Bool.false_ne_true
  rw [ofJson, if_neg hnull]
  exact (s.drafts hsorted).readRecord h

theorem spellsFields_written {declared : List (String × FieldSchema)}
    (hsorted : SortedFields declared) :
    SpellsFields declared (.object (declared.map fun (name, f) ↦ (name, f.toJson))) := by
  have hnames : (declared.map fun (name, f) ↦ (name, f.toJson)).map Prod.fst =
      declared.map Prod.fst := by
    rw [List.map_map]
    rfl
  refine .object (hnames ▸ hsorted.nodup_names) (fun d hd ↦ ?_) fun e he ↦ ?_
  · rw [hnames]
    exact List.mem_map_of_mem hd
  · obtain ⟨⟨name, f⟩, hf, rfl⟩ := List.mem_map.mp he
    exact ⟨f, hf, f.spells_toJson.1⟩

theorem spells_toJson (hsorted : SortedFields s.fields) :
    Spells s.parts s.toJson ∧ Spells s.parts s.toJson.withoutNames :=
  spells_of_written (.cons ⟨rfl, spellsFields_written hsorted⟩ .nil) (List.nodup_singleton _)

theorem comesBack (hsorted : SortedFields s.fields) : ComesBack ofJson s.parts s.toJson s :=
  comesBack_of_spells (fun _ ↦ s.ofJson_of_spells hsorted) (s.spells_toJson hsorted)

end BlockSchema

end Pagesmith

/-! ## Block types as rows

A block type goes into the database as the parameters of `upsertType`, a column for each, and comes
back as a row. What is in between is left to the database. All that is asked of it is that a column
gives back the parameter that went into it, and for most parameters it is enough that the cell holds
it. So what is shown here is that parameters and columns are about the same fields, in the same
order, and that the null schema survives being kept as an empty cell. -/

namespace Pagesmith.Store

/-! ### Parameters and cells -/

namespace Param

/-- Whether reading `column` of `r` gives back a parameter. -/
def ReadFrom (r : Cells) (column : String) : Param → Prop
  | null => r.cell column = .null
  | text s => r.text column = .ok s
  | integer n => r.integer column = .ok n
  | boolean b => r.boolean column = .ok b
  | json v => r.json column = v

/-- A parameter as the content of a cell. -/
def cell : Param → Json
  | null => .null
  | text s => .string s
  | integer n => .int n
  | boolean b => .bool b
  | json v => v

variable {r : Cells} {column : String}

/-- JSON is read from the text of its cell, and so it comes back if it does from its text. -/
theorem readFrom_of_cell {p : Param} (hcell : r.cell column = p.cell)
    (hjson : ∀ v, p = .json v → v.Sorted ∧ v.Integral ∧ v.nesting ≤ Json.Reader.maxDepth) :
    p.ReadFrom r column := by
  cases p with
  | null => exact hcell
  | text s => rw [ReadFrom, Cells.text, Cells.required, hcell]; rfl
  | integer n => rw [ReadFrom, Cells.integer, Cells.required, hcell]; rfl
  | boolean b => rw [ReadFrom, Cells.boolean, Cells.required, hcell]; rfl
  | json v =>
    obtain ⟨hsorted, hintegral, hdepth⟩ := hjson v rfl
    rw [ReadFrom, Cells.json, hcell, cell, Json.ofText?_text hsorted hintegral hdepth]
    rfl

end Param

variable {r : Cells}

theorem json_of_cell_eq_null {column : String} (h : r.cell column = .null) :
    r.json column = .null := by
  rw [Cells.json, h, Json.ofText?_text .null .null (Nat.zero_le _)]
  rfl

/-- The null that a schema is kept as, and the schema that is kept, are read as the schema. -/
theorem json_of_readFrom_schemaParam {column : String} {schema : Json}
    (h : (Statement.schemaParam schema).ReadFrom r column) : r.json column = schema := by
  cases schema with
  | null => exact json_of_cell_eq_null h
  | bool | number | string | array | object => exact h

theorem getD_optionalJson (column : String) :
    (r.optionalJson column).getD .null = r.json column := by
  rw [Cells.optionalJson]
  cases r.json column <;> rfl

/-! ### Block types -/

/-- The columns that the parameters of a block type go into. -/
def upsertColumns : List String :=
  ["name", "category", "template", "default_config", "config_schema", "enabled"]

/-- A row whose columns give back the parameters of a block type is the row of this type. -/
theorem exists_readRow_upsertType {t : BlockType} {created updated : Instant}
    (h : List.Forall₂ (fun column p ↦ p.ReadFrom r column) upsertColumns
      (Statement.upsertType t).params)
    (hcreated : r.instant "created_at" = .ok created)
    (hupdated : r.instant "updated_at" = .ok updated) :
    ∃ record, (Statement.upsertType t).readRow r = .ok record ∧ record.blockType = t := by
  simp only [upsertColumns, Statement.params, List.forall₂_cons, Param.ReadFrom] at h
  obtain ⟨hname, hcategory, htemplate, hconfig, hschema, henabled, -⟩ := h
  have hrow : (Statement.upsertType t).readRow r =
      .ok ⟨t.name, t.category, t.template, r.json "default_config",
        r.optionalJson "config_schema", t.enabled, created, updated⟩ := by
    change r.type = _
    rw [Cells.type, hname, hcategory, htemplate, henabled, hcreated, hupdated]
    rfl
  refine ⟨_, hrow, ?_⟩
  rw [TypeRecord.blockType, getD_optionalJson, hconfig, json_of_readFrom_schemaParam hschema]

/-! ### The law -/

/-- **Records come back.** Blocks, block types, declared fields and schemas are read from what is
written for them and from all else that spells them. A schema that has been read is read again from
what is written for it. A block type that has gone into the database is the block type of its row.
-/
theorem records_come_back :
    (∀ b : Block, ComesBack Block.ofJson b.parts b.toJson b) ∧
    (∀ t : BlockType, ComesBack BlockType.ofJson t.parts t.toJson t) ∧
    (∀ f : FieldSchema, ComesBack FieldSchema.ofJson f.parts f.toJson f) ∧
    (∀ s : BlockSchema, SortedFields s.fields →
      ComesBack BlockSchema.ofJson s.parts s.toJson s) ∧
    (∀ v s, BlockSchema.ofJson v = .ok s → BlockSchema.ofJson s.toJson = .ok s) ∧
    ∀ (t : BlockType) (r : Cells) (created updated : Instant),
      List.Forall₂ (fun column p ↦ p.ReadFrom r column) upsertColumns
        (Statement.upsertType t).params →
      r.instant "created_at" = .ok created → r.instant "updated_at" = .ok updated →
      ∃ record, (Statement.upsertType t).readRow r = .ok record ∧ record.blockType = t :=
  ⟨Block.comesBack, BlockType.comesBack, FieldSchema.comesBack, BlockSchema.comesBack,
    fun _ s h ↦ (s.comesBack (BlockSchema.sorted_of_ofJson h)).object,
    fun _ _ _ _ ↦ exists_readRow_upsertType⟩

/-- A block type without a schema, from fewer fields and one of another name, and from a row with an
empty cell; and a schema from lists of contents only. -/
theorem records_come_back_of_quote :
    let t : BlockType := ⟨"quote", "text", "<q>", .object [], .null, true⟩
    let s : BlockSchema := ⟨[("by", ⟨.string, false⟩), ("words", ⟨.html, true⟩)]⟩
    let r : Cells := [("name", .string "quote"), ("category", .string "text"),
      ("template", .string "<q>"), ("default_config", .object []), ("config_schema", .null),
      ("enabled", .bool true), ("created_at", .string "2024-02-29T12:00:00Z"),
      ("updated_at", .string "2024-02-29T12:00:00Z")]
    BlockType.ofJson (.object [("template", .string "<q>"), ("author", .string "x"),
      ("category", .string "text"), ("name", .string "quote")]) = .ok t ∧
    SortedFields s.fields ∧
    BlockSchema.ofJson (.array [.object [("words", .array [.string "html", .bool true]),
      ("by", .array [.string "string", .bool false])]]) = .ok s ∧
    ∃ record, (Statement.upsertType t).readRow r = .ok record ∧ record.blockType = t := by
  intro t s r
  obtain ⟨-, htype, -, hschema, -, hrow⟩ := records_come_back
  have hsorted : SortedFields s.fields := by decide
  refine ⟨(htype t).spelled _ (.object ?_ ?_ ?_), hsorted,
    (hschema s hsorted).spelled _ (.array (.cons (.object ?_ ?_ ?_) .nil)), hrow t r _ _ ?_ rfl rfl⟩
  · decide
  · simp [BlockType.parts, Record.Part.required, Record.Part.optional, t]
  · simp [BlockType.parts, Record.Part.required, Record.Part.optional, t, emptyConfig]
  · decide
  · simp [s]
  · have hspells (f : FieldSchema) :
        Record.Spells f.parts (.array [.string f.type.name, .bool f.required]) :=
      f.spells_toJson.2
    simpa [s] using ⟨hspells ⟨.html, true⟩, hspells ⟨.string, false⟩⟩
  · have hempty : (Param.json (.object [])).ReadFrom r "default_config" :=
      Param.readFrom_of_cell rfl (by
        rintro _ ⟨⟩
        exact ⟨.object .nil nofun, .object nofun, by decide⟩)
    exact .cons rfl (.cons rfl (.cons rfl (.cons hempty (.cons rfl (.cons rfl .nil)))))

end Pagesmith.Store
