import Pagesmith.Block.Basic
import Pagesmith.Proofs.Json.Fields
import Pagesmith.Proofs.Record.Drafts

/-!
# What a schema finds

A schema finds an issue in a configuration wherever a declared field is not what was declared: there
is nothing under its name although something is required, or what is there is another kind of value.
A null is nothing, and a value that is no object has nothing under any name (`Lacks`).

So at most one issue belongs to a field, and it depends on what is found under the name of this
field and on nothing else. From this come the other laws: what a configuration holds beside the
declared fields does not matter, and setting the fields that have an issue leaves none, since no
issue of another field can arise from it.

The declared fields are sorted by name. This is a property of the schemas that are read, and the
issues have their order from it.
-/

namespace Pagesmith

namespace Json

/-- Whether there is nothing under `name`: the value is no object, it does not have the field, or
the field is null. -/
inductive Lacks (name : String) : Json → Prop
  | notObject {v : Json} (h : v.kind ≠ .object) : Lacks name v
  | absent {fields : List (String × Json)} (h : ∀ f ∈ fields, f.1 ≠ name) :
      Lacks name (object fields)
  | null {fields : List (String × Json)} (h : fields.lookup name = some .null) :
      Lacks name (object fields)

variable {name : String} {v : Json}

theorem lacks_iff : v.Lacks name ↔ v.field? name = none ∨ v.field? name = some .null := by
  constructor
  · rintro (h | h | h)
    · cases v with
      | object fields => exact absurd rfl h
      | null | bool | number | string | array => exact .inl rfl
    · refine .inl (List.lookup_eq_none_iff.mpr fun f hf ↦ ?_)
      exact bne_iff_ne.mpr (h f hf).symm
    · exact .inr h
  · cases v with
    | object fields =>
      rintro (h | h)
      · refine .absent fun f hf heq ↦ ?_
        exact bne_iff_ne.mp (List.lookup_eq_none_iff.mp h f hf) heq.symm
      · exact .null h
    | null | bool | number | string | array => exact fun _ ↦ .notObject nofun

theorem exists_of_not_lacks (h : ¬v.Lacks name) : ∃ x, v.field? name = some x ∧ x ≠ .null := by
  rw [lacks_iff, not_or] at h
  obtain ⟨x, hx⟩ := Option.ne_none_iff_exists'.mp h.1
  exact ⟨x, hx, fun hnull ↦ h.2 (hnull ▸ hx)⟩

end Json

theorem FieldType.kind_ne_null (t : FieldType) : t.kind ≠ .null := by
  cases t <;> decide

def SchemaIssue.field : SchemaIssue → String
  | missing field => field
  | wrongType field _ => field

/-! ## The issue of one field -/

namespace FieldSchema

variable {f : FieldSchema} {name : String} {config config' x : Json} {i : SchemaIssue}

theorem issue?_of_lacks (h : config.Lacks name) :
    f.issue? name config = if f.required then some (.missing name) else none := by
  rw [issue?]
  rcases Json.lacks_iff.mp h with h | h <;> rw [h]

theorem issue?_of_field? (h : config.field? name = some x) (hx : x ≠ .null) :
    f.issue? name config =
      if x.kind = f.type.kind then none else some (.wrongType name f.type) := by
  rw [issue?, h]
  cases x with
  | null => exact absurd rfl hx
  | bool | number | string | array | object => rfl

theorem issue?_eq_none_of_kind (h : config.field? name = some x) (hkind : x.kind = f.type.kind) :
    f.issue? name config = none := by
  have hx : x ≠ .null := by
    rintro rfl
    exact f.type.kind_ne_null hkind.symm
  rw [issue?_of_field? h hx, if_pos hkind]

/-- Only what is found under the name matters. -/
theorem issue?_eq_of_field?_eq (h : config.field? name = config'.field? name) :
    f.issue? name config = f.issue? name config' := by
  rw [issue?, issue?, h]

theorem issue?_eq_missing_iff {n : String} :
    f.issue? name config = some (.missing n) ↔
      n = name ∧ f.required = true ∧ config.Lacks name := by
  by_cases h : config.Lacks name
  · rw [issue?_of_lacks h]
    split
    · next hrequired => simp [h, hrequired, eq_comm]
    · next hrequired => simp [hrequired]
  · obtain ⟨x, hx, hnull⟩ := Json.exists_of_not_lacks h
    rw [issue?_of_field? hx hnull]
    split <;> simp [h]

theorem issue?_eq_wrongType_iff {n : String} {t : FieldType} :
    f.issue? name config = some (.wrongType n t) ↔
      n = name ∧ f.type = t ∧
        ∃ x, config.field? name = some x ∧ x ≠ .null ∧ x.kind ≠ f.type.kind := by
  constructor
  · intro h
    by_cases hlacks : config.Lacks name
    · rw [issue?_of_lacks hlacks] at h
      split at h <;> cases h
    · obtain ⟨x, hx, hnull⟩ := Json.exists_of_not_lacks hlacks
      rw [issue?_of_field? hx hnull] at h
      split at h
      · cases h
      · next hkind =>
        cases h
        exact ⟨rfl, rfl, x, hx, hnull, hkind⟩
  · rintro ⟨rfl, rfl, x, hx, hnull, hkind⟩
    rw [issue?_of_field? hx hnull, if_neg hkind]

theorem field_of_issue? (h : f.issue? name config = some i) : i.field = name := by
  cases i with
  | missing n => exact (issue?_eq_missing_iff.mp h).1
  | wrongType n t => exact (issue?_eq_wrongType_iff.mp h).1

end FieldSchema

/-! ## All issues -/

namespace BlockSchema

variable {s : BlockSchema} {config config' : Json} {issues : List SchemaIssue}

/-- Whether `issues` are those of `config`, all of them and no others, in the order of the fields.
-/
structure Finds (s : BlockSchema) (config : Json) (issues : List SchemaIssue) : Prop where
  /-- No two issues are about the same field. -/
  ordered : issues.Pairwise fun i j ↦ i.field < j.field
  missing_iff : ∀ name, .missing name ∈ issues ↔
    (∃ f, (name, f) ∈ s.fields ∧ f.required = true) ∧ config.Lacks name
  wrongType_iff : ∀ name t, .wrongType name t ∈ issues ↔
    (∃ f, (name, f) ∈ s.fields ∧ f.type = t) ∧
      ∃ x, config.field? name = some x ∧ x ≠ .null ∧ x.kind ≠ t.kind

theorem mem_check {i : SchemaIssue} :
    i ∈ s.check config ↔ ∃ f, (i.field, f) ∈ s.fields ∧ f.issue? i.field config = some i := by
  rw [check, List.mem_filterMap]
  constructor
  · rintro ⟨⟨name, f⟩, hf, hi⟩
    obtain rfl := FieldSchema.field_of_issue? hi
    exact ⟨f, hf, hi⟩
  · rintro ⟨f, hf, hi⟩
    exact ⟨_, hf, hi⟩

theorem check_eq_nil_iff :
    s.check config = [] ↔ ∀ f ∈ s.fields, f.2.issue? f.1 config = none :=
  List.filterMap_eq_nil_iff

theorem pairwise_check (h : SortedFields s.fields) :
    (s.check config).Pairwise fun i j ↦ i.field < j.field := by
  rw [check, List.pairwise_filterMap]
  refine h.imp fun hlt i hi j hj ↦ ?_
  rw [FieldSchema.field_of_issue? hi, FieldSchema.field_of_issue? hj]
  exact hlt

theorem finds_check (h : SortedFields s.fields) (config : Json) :
    s.Finds config (s.check config) where
  ordered := pairwise_check h
  missing_iff name := by
    rw [mem_check]
    constructor
    · rintro ⟨f, hf, hi⟩
      obtain ⟨-, hrequired, hlacks⟩ := FieldSchema.issue?_eq_missing_iff.mp hi
      exact ⟨⟨f, hf, hrequired⟩, hlacks⟩
    · rintro ⟨⟨f, hf, hrequired⟩, hlacks⟩
      exact ⟨f, hf, FieldSchema.issue?_eq_missing_iff.mpr ⟨rfl, hrequired, hlacks⟩⟩
  wrongType_iff name t := by
    rw [mem_check]
    constructor
    · rintro ⟨f, hf, hi⟩
      obtain ⟨-, rfl, hx⟩ := FieldSchema.issue?_eq_wrongType_iff.mp hi
      exact ⟨⟨f, hf, rfl⟩, hx⟩
    · rintro ⟨⟨f, hf, rfl⟩, hx⟩
      exact ⟨f, hf, FieldSchema.issue?_eq_wrongType_iff.mpr ⟨rfl, rfl, hx⟩⟩

theorem check_eq_of_agree (h : ∀ f ∈ s.fields, config.field? f.1 = config'.field? f.1) :
    s.check config = s.check config' :=
  List.filterMap_congr fun f hf ↦ FieldSchema.issue?_eq_of_field?_eq (h f hf)

/-- For each issue its field, with the `content` for that name. -/
def repairs (content : String → Json) (issues : List SchemaIssue) : List (String × Json) :=
  issues.map fun i ↦ (i.field, content i.field)

theorem map_fst_repairs (content : String → Json) (issues : List SchemaIssue) :
    (repairs content issues).map Prod.fst = issues.map SchemaIssue.field := by
  rw [repairs, List.map_map]
  rfl

/-- An issue does not outlive its field: setting the fields that have one to values of the declared
kinds leaves none. -/
theorem check_setFields_repairs (h : SortedFields s.fields) {fields : List (String × Json)}
    {content : String → Json}
    (hcontent : ∀ i ∈ s.check (.object fields), ∀ f, (i.field, f) ∈ s.fields →
      (content i.field).kind = f.type.kind) :
    s.check (.object (setFields (repairs content (s.check (.object fields))) fields)) = [] := by
  refine check_eq_nil_iff.mpr fun ⟨name, f⟩ hf ↦ ?_
  by_cases hreported : ∃ i ∈ s.check (.object fields), i.field = name
  · obtain ⟨i, hi, rfl⟩ := hreported
    have hset : (i.field, content i.field) ∈ repairs content (s.check (.object fields)) :=
      List.mem_map.mpr ⟨i, hi, rfl⟩
    refine FieldSchema.issue?_eq_none_of_kind ?_ (hcontent i hi f hf)
    refine lookup_setFields_of_mem ?_ hset fields
    rw [map_fst_repairs, List.Nodup, List.pairwise_map]
    exact (pairwise_check h).imp fun hlt ↦ ne_of_lt hlt
  · -- the field is as it was, and it had no issue
    have hold : f.issue? name (.object fields) = none := by
      refine Option.eq_none_iff_forall_ne_some.mpr fun i hi ↦ hreported ?_
      obtain rfl := FieldSchema.field_of_issue? hi
      exact ⟨i, mem_check.mpr ⟨f, hf, hi⟩, rfl⟩
    rw [← hold]
    refine FieldSchema.issue?_eq_of_field?_eq (lookup_setFields_of_not_mem ?_ fields)
    rw [map_fst_repairs, List.mem_map]
    exact hreported

/-! ## Schemas that are read -/

theorem sorted_of_readFields {v : Json} {fields : List (String × FieldSchema)}
    (h : readFields v = .ok fields) : SortedFields fields := by
  cases v with
  | object entries =>
    obtain ⟨read, -, hsort⟩ := bind_eq_ok_iff.mp h
    cases hsort
    exact sortedFields_sortFields read
  | null | bool | number | string | array => cases h

theorem sorted_of_ofJson {v : Json} (h : ofJson v = .ok s) : SortedFields s.fields := by
  rw [ofJson] at h
  split at h
  · cases h
    exact List.Pairwise.nil
  · have hset : ∀ d f d', (∀ fields ∈ d, SortedFields fields) → shape.set d f = .ok d' →
        ∀ fields ∈ d', SortedFields fields := by
      rintro d ⟨name, x⟩ d' hd hset
      simp only [shape] at hset
      split at hset
      · obtain ⟨fields, hread, ⟨⟩⟩ := bind_eq_ok_iff.mp hset
        rintro _ ⟨⟩
        exact sorted_of_readFields hread
      · cases hset
        exact hd
    have hempty : ∀ fields ∈ shape.empty, SortedFields fields := fun _ hf ↦ by cases hf
    obtain ⟨d, hd, hfinish⟩ := Record.exists_draft_of_readRecord hempty hset h
    cases hfinish
    cases d with
    | none => exact List.Pairwise.nil
    | some fields => exact hd fields rfl

end BlockSchema

/-! ## The law -/

/-- **What a schema finds.** The issues of a configuration, whatever kind of value it is, are
exactly the mismatches, in the order of the names and at most one for a field. They depend on the
declared fields alone, and setting the fields they are about to values of the declared kinds leaves
none. Schemas that are read have their fields sorted, and null is a schema that finds nothing. -/
theorem BlockSchema.check_finds_mismatches (s : BlockSchema) (hs : SortedFields s.fields) :
    (∀ config, s.Finds config (s.check config)) ∧
    (∀ config config', (∀ f ∈ s.fields, config.field? f.1 = config'.field? f.1) →
      s.check config = s.check config') ∧
    (∀ fields content,
      (∀ i ∈ s.check (.object fields), ∀ f, (i.field, f) ∈ s.fields →
        (content i.field).kind = f.type.kind) →
      s.check (.object (setFields (repairs content (s.check (.object fields))) fields)) = []) ∧
    (∀ v r, BlockSchema.ofJson v = .ok r → SortedFields r.fields) ∧
    ∃ empty, BlockSchema.ofJson .null = .ok empty ∧ ∀ config, empty.check config = [] :=
  ⟨finds_check hs, fun _ _ ↦ check_eq_of_agree, fun _ _ ↦ check_setFields_repairs hs,
    fun _ _ ↦ sorted_of_ofJson, ⟨[]⟩, rfl, fun _ ↦ rfl⟩

/-- A null under a required name, another kind of value, a list as a configuration, and a
configuration that is set right. -/
theorem BlockSchema.check_of_hero :
    let s : BlockSchema := ⟨[("items", ⟨.array, false⟩), ("title", ⟨.html, true⟩)]⟩
    let fields := [("items", Json.string "nope"), ("note", .null), ("title", .null)]
    let content : String → Json := fun name ↦ if name = "items" then .array [] else .string ""
    SortedFields s.fields ∧
      s.check (.object fields) = [.wrongType "items" .array, .missing "title"] ∧
      s.Finds (.array []) [.missing "title"] ∧
      s.check (.object (setFields (repairs content (s.check (.object fields))) fields)) = [] := by
  intro s fields content
  have hs : SortedFields s.fields := by decide
  obtain ⟨hfinds, -, hrepair, -⟩ := s.check_finds_mismatches hs
  have hcheck : s.check (.object fields) = [.wrongType "items" .array, .missing "title"] := by
    decide
  refine ⟨hs, hcheck, hfinds (.array []), hrepair fields content ?_⟩
  rw [hcheck]
  simp [s, content, SchemaIssue.field, Json.kind, FieldType.kind]

end Pagesmith
