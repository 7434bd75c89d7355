import Pagesmith.Block.Basic
import Pagesmith.Proofs.Json.Fields
import Pagesmith.Proofs.Json.Reading
import Pagesmith.Proofs.Template.Run

/-!
# Null fields and missing fields

A field that is null and a field that is not there cannot be told apart, neither by a template nor
by a schema. So all null fields may be deleted from a value by `strip`, at every depth, and nothing
that is made of the value changes. Null items of a list stay, since they are counted and passed
over.

## What changes on the way

Deleting fields is seen while a path is followed: where one value still leads to a null, the other
one leads nowhere. The difference does not spread. A null leads no further, and the three questions
that a template asks, and the one that a schema asks, are answered for a null as for nothing. An
object that has lost all its fields is still an object, and this is all that is asked of it.
-/

namespace Pagesmith

namespace Json

mutual

/-- The value without the null fields of its objects. -/
def strip : Json → Json
  | array items => array (stripItems items)
  | object fields => object (stripFields fields)
  | null => null
  | bool b => bool b
  | number n => number n
  | string s => string s

def stripItems : List Json → List Json
  | [] => []
  | x :: xs => strip x :: stripItems xs

/-- The fields that are not null, each with its content stripped. -/
def stripFields : List (String × Json) → List (String × Json)
  | [] => []
  | (name, x) :: fs => if x.isNull then stripFields fs else (name, strip x) :: stripFields fs

end

theorem stripItems_eq_map (items : List Json) : stripItems items = items.map strip := by
  induction items with
  | nil => rfl
  | cons x items ih => rw [stripItems, ih, List.map_cons]

/-! ## What a path leads to -/

/-- What is found in a value, and at the same place in the value without its null fields. -/
inductive Found : Option Json → Option Json → Prop
  | missing : Found none none
  | null : Found (some null) none
  | content {v : Json} (h : v.Sorted) : Found (some v) (some v.strip)

/-- Fields behind the place of a name do not have it. -/
theorem lookup_eq_none_of_lt {name : String} {fields : List (String × Json)}
    (h : ∀ f ∈ fields, name < f.1) : fields.lookup name = none := by
  rw [List.lookup_eq_none_iff]
  intro f hf
  exact bne_iff_ne.mpr (h f hf).ne

theorem found_lookup {fields : List (String × Json)} (hfields : SortedFields fields)
    (h : ∀ f ∈ fields, f.2.Sorted) (name : String) :
    Found (fields.lookup name) ((stripFields fields).lookup name) := by
  induction fields with
  | nil => exact .missing
  | cons f fields ih =>
    obtain ⟨k, x⟩ := f
    obtain ⟨hfirst, hrest⟩ := List.pairwise_cons.mp hfields
    have hfound := ih hrest fun f hf ↦ h f (List.mem_cons_of_mem _ hf)
    rw [stripFields, List.lookup_cons]
    by_cases hkey : name = k
    · subst hkey
      rw [beq_self_eq_true]
      by_cases hnull : x.isNull = true
      · -- a null that is deleted does not uncover another field of its name
        rw [if_pos hnull]
        rw [lookup_eq_none_of_lt hfirst] at hfound
        obtain rfl : x = .null := by cases x <;> trivial
        generalize (stripFields fields).lookup name = y at hfound ⊢
        cases hfound
        exact .null
      · rw [if_neg hnull, List.lookup_cons_self]
        exact .content (h (name, x) List.mem_cons_self)
    · rw [beq_eq_false_iff_ne.mpr hkey]
      by_cases hnull : x.isNull = true
      · rw [if_pos hnull]
        exact hfound
      · rw [if_neg hnull, List.lookup_cons, beq_eq_false_iff_ne.mpr hkey]
        exact hfound

theorem found_step? {v : Json} (h : v.Sorted) (segment : String) :
    Found (v.step? segment) (v.strip.step? segment) := by
  cases h with
  | object hfields hcontents => exact found_lookup hfields hcontents segment
  | @array items hitems =>
    rw [strip, step?, step?, stripItems_eq_map]
    cases Text.natural Scope.maxIndex segment.toList with
    | error fault => exact .missing
    | ok i =>
      show Found items[i]? (items.map strip)[i]?
      rw [List.getElem?_map]
      cases hi : items[i]? with
      | none => exact .missing
      | some x => exact .content (hitems x (List.mem_of_getElem? hi))
  | null => exact .missing
  | bool b => exact .missing
  | number n => exact .missing
  | string s => exact .missing

theorem found_walk? {v : Json} (h : v.Sorted) (segments : List String) :
    Found (v.walk? segments) (v.strip.walk? segments) := by
  -- over all values, since every step leads to another one
  induction segments generalizing v with
  | nil => exact .content h
  | cons segment segments ih =>
    rw [walk?, walk?, List.foldlM_cons, List.foldlM_cons]
    have hstep := found_step? h segment
    generalize v.step? segment = x, v.strip.step? segment = y at hstep
    cases hstep with
    | missing => exact .missing
    | content hx => exact ih hx
    | null =>
      cases segments with
      | nil => exact .null
      | cons _ _ => exact .missing

/-! ## What is asked of what is found -/

theorem isTruthy_strip (v : Json) : isTruthy (some v.strip) = isTruthy (some v) := by
  cases v with
  | array items => cases items <;> rfl
  | null => rfl
  | bool b => rfl
  | number n => rfl
  | string s => rfl
  | object fields => rfl

theorem scalarText?_strip (v : Json) : v.strip.scalarText? = v.scalarText? := by
  cases v with
  | bool b => cases b <;> rfl
  | null => rfl
  | number n => rfl
  | string s => rfl
  | array items => rfl
  | object fields => rfl

theorem templateText_strip (v : Json) : v.strip.templateText = v.templateText := by
  cases v with
  | array items =>
    have hitems : scalarText? ∘ strip = scalarText? := funext scalarText?_strip
    rw [strip, templateText, templateText, stripItems_eq_map, List.mapM_map, hitems]
  | null => rfl
  | bool b => rfl
  | number n => rfl
  | string s => rfl
  | object fields => rfl

end Json

/-! ## Templates -/

namespace Scope

def strip (s : Scope) : Scope := ⟨s.this.strip, s.parent.map Json.strip⟩

/-- Whether the values of a scope are sorted. -/
structure Sorted (s : Scope) : Prop where
  this : s.this.Sorted
  parent : ∀ v ∈ s.parent, v.Sorted

variable {s t : Scope}

theorem Sorted.child (h : s.Sorted) {item : Json} (hitem : item.Sorted) : (s.child item).Sorted :=
  ⟨hitem, fun _ hv ↦ Option.some.inj hv ▸ h.this⟩

theorem Sorted.found_lookup (h : s.Sorted) (path : FieldPath) :
    Json.Found (s.lookup path) (s.strip.lookup path) := by
  obtain ⟨root, segments⟩ := path
  obtain ⟨this, parent⟩ := s
  cases root with
  | current => exact Json.found_walk? h.this segments
  | parent =>
    cases parent with
    | none => exact .missing
    | some v => exact Json.found_walk? (h.parent v rfl) segments

/-- Whether `s` has sorted values, and `t` the stripped ones. -/
def Stripped (s t : Scope) : Prop := s.Sorted ∧ t = s.strip

theorem Stripped.isTruthy_lookup (h : Stripped s t) (path : FieldPath) :
    isTruthy (s.lookup path) = isTruthy (t.lookup path) := by
  obtain ⟨hs, rfl⟩ := h
  have hfound := hs.found_lookup path
  generalize s.lookup path = x, s.strip.lookup path = y at hfound ⊢
  cases hfound with
  | missing => rfl
  | null => rfl
  | content hv => exact (Json.isTruthy_strip _).symm

theorem Stripped.textAt (h : Stripped s t) (path : FieldPath) : s.textAt path = t.textAt path := by
  obtain ⟨hs, rfl⟩ := h
  have hfound := hs.found_lookup path
  rw [Scope.textAt, Scope.textAt]
  generalize s.lookup path = x, s.strip.lookup path = y at hfound ⊢
  cases hfound with
  | missing => rfl
  | null => rfl
  | content hv => simp only [Json.templateText_strip]

theorem Stripped.itemsAt (h : Stripped s t) (path : FieldPath) :
    View.ItemsAgree Stripped (Scope.view.itemsAt s path) (Scope.view.itemsAt t path) := by
  obtain ⟨hs, rfl⟩ := h
  have hfound := hs.found_lookup path
  show View.ItemsAgree _ ((s.itemsAt path).map fun items ↦ items.map s.child)
    ((s.strip.itemsAt path).map fun items ↦ items.map s.strip.child)
  rw [Scope.itemsAt, Scope.itemsAt]
  generalize s.lookup path = x, s.strip.lookup path = y at hfound ⊢
  cases hfound with
  | missing => exact .ok .nil
  | null => exact .ok .nil
  | content hv =>
    -- what is no list is refused by its kind, which stripping does not change
    cases hv with
    | @array items hitems =>
      show View.ItemsAgree _ (.ok (items.map s.child))
        (.ok ((Json.stripItems items).map s.strip.child))
      rw [Json.stripItems_eq_map, List.map_map]
      refine .ok ?_
      rw [List.forall₂_map_left_iff, List.forall₂_map_right_iff, List.forall₂_same]
      exact fun item hitem ↦ ⟨hs.child (hitems item hitem), rfl⟩
    | null => exact .ok .nil
    | bool b => exact .error _
    | number n => exact .error _
    | string s => exact .error _
    | object hfields hcontents => exact .error _

theorem simulates_stripped : Scope.view.Simulates Scope.view Stripped where
  isTrue := Stripped.isTruthy_lookup
  itemsAt := Stripped.itemsAt
  textAt := Stripped.textAt

end Scope

theorem Template.render_strip (t : Template) {data : Json} (h : data.Sorted) :
    t.render data.strip = t.render data := by
  have hroot : Scope.Stripped (.root data) (.root data.strip) :=
    ⟨⟨h, fun _ hv ↦ nomatch hv⟩, rfl⟩
  rw [render_eq_result_run, render_eq_result_run,
    Node.runAll_eq_of_simulates Scope.simulates_stripped t.nodes hroot]

/-! ## Schemas -/

theorem Json.found_field? {v : Json} (h : v.Sorted) (name : String) :
    Found (v.field? name) (v.strip.field? name) := by
  cases h with
  | object hfields hcontents => exact found_lookup hfields hcontents name
  | array hitems => exact .missing
  | null => exact .missing
  | bool b => exact .missing
  | number n => exact .missing
  | string s => exact .missing

theorem FieldSchema.issue?_strip (f : FieldSchema) (name : String) {config : Json}
    (h : config.Sorted) : f.issue? name config.strip = f.issue? name config := by
  have hfound := Json.found_field? h name
  rw [issue?, issue?]
  generalize config.field? name = x, config.strip.field? name = y at hfound ⊢
  cases hfound with
  | missing => rfl
  | null => rfl
  | @content v hv =>
    cases hv with
    | null => rfl
    | bool b => rfl
    | number n => rfl
    | string s => rfl
    | array hitems => rfl
    | object hfields hcontents => rfl

theorem BlockSchema.check_strip (s : BlockSchema) {config : Json} (h : config.Sorted) :
    s.check config.strip = s.check config :=
  List.filterMap_congr fun f _ ↦ f.2.issue?_strip f.1 h

/-! ## The law -/

/-- **A null field is a missing field.** Whatever null fields a value has, every template is filled
in against it as if they were not there, and comes to the same text or fails for the same cause; and
every schema has the same issues with it. -/
theorem Json.null_fields_count_as_missing (data : Json) (h : data.Sorted) :
    (∀ t : Template, t.render data.strip = t.render data) ∧
      ∀ s : BlockSchema, s.check data.strip = s.check data :=
  ⟨fun t ↦ t.render_strip h, fun s ↦ s.check_strip h⟩

/-- An object that loses its only field still counts as true, and a null item still makes a pass. -/
theorem Json.nulls_in_a_list :
    let data := object [("a", .null), ("list", array [.null, object [("b", .null)]])]
    let rest := object [("list", array [.null, object []])]
    let t : Template := ⟨[.iteration ⟨.current, ["list"]⟩
      [.conditional ⟨.current, []⟩ [.text "+"] [.text "-"], .field ⟨.current, ["b"]⟩,
        .field ⟨.parent, ["a"]⟩]]⟩
    let s : BlockSchema := ⟨[("a", ⟨.string, true⟩), ("list", ⟨.object, false⟩)]⟩
    data.Sorted ∧ data.strip = rest ∧ t.render data = .ok "-+" ∧ t.render rest = .ok "-+" ∧
      s.check rest = [.missing "a", .wrongType "list" .object] := by
  intro data rest t s
  have hread : ofText? "\x7b\"list\":[null,\x7b\"b\":null\x7d],\"a\":null\x7d" = some data := by
    decide +kernel
  have hsorted : data.Sorted := sorted_of_ofText? hread
  obtain ⟨hrender, hcheck⟩ := null_fields_count_as_missing data hsorted
  have htext : t.render data = .ok "-+" := by decide
  have hstrip : data.strip = rest := by decide
  rw [hstrip] at hrender hcheck
  exact ⟨hsorted, hstrip, htext, (hrender t).trans htext, (hcheck s).trans (by decide)⟩

end Pagesmith
