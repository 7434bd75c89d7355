import Mathlib.Data.List.Induction
import Mathlib.Data.String.Basic
import Pagesmith.Json.Basic

/-!
# Fields by name

By `insertField` a field is set, which changes what is found under its name and nothing else. This
needs no order among the fields: the first field of a name is the one that is found, and it is the
one that is set.

Fields that are sorted by name (`SortedFields`) are known from what is found under each name.
Setting a field keeps them sorted, and fields in any order are sorted by setting one after the
other.
-/

namespace Pagesmith

variable {α : Type}

theorem lookup_insertField_self (name : String) (content : α) (fields : List (String × α)) :
    (insertField name content fields).lookup name = some content := by
  induction fields with
  | nil => rw [insertField, List.lookup_cons_self]
  | cons f fields ih =>
    obtain ⟨k, v⟩ := f
    rw [insertField]
    split
    · rw [List.lookup_cons_self]
    · split
      · rw [List.lookup_cons_self]
      · next hne =>
        have hkey : (name == k) = false := beq_eq_false_iff_ne.mpr hne
        rw [List.lookup_cons, hkey]
        exact ih

theorem lookup_insertField_of_ne {name other : String} (hne : other ≠ name) (content : α)
    (fields : List (String × α)) :
    (insertField name content fields).lookup other = fields.lookup other := by
  have hother : (other == name) = false := beq_eq_false_iff_ne.mpr hne
  induction fields with
  | nil => rw [insertField, List.lookup_cons, hother]
  | cons f fields ih =>
    obtain ⟨k, v⟩ := f
    rw [insertField]
    split
    · rw [List.lookup_cons, hother]
    · split
      · next heq => rw [List.lookup_cons, List.lookup_cons, hother, ← heq, hother]
      · rw [List.lookup_cons, List.lookup_cons, ih]

/-! ## Sorted fields -/

/-- Whether fields are sorted by name, so that no name occurs twice. -/
def SortedFields (fields : List (String × α)) : Prop := fields.Pairwise fun f g ↦ f.1 < g.1

instance (fields : List (String × α)) : Decidable (SortedFields fields) :=
  inferInstanceAs (Decidable (fields.Pairwise _))

variable {name : String} {content : α} {fields : List (String × α)}

theorem eq_or_mem_of_mem_insertField {f : String × α} (h : f ∈ insertField name content fields) :
    f = (name, content) ∨ f ∈ fields := by
  induction fields with
  | nil => exact .inl (List.mem_singleton.mp h)
  | cons g fields ih =>
    obtain ⟨k, v⟩ := g
    rw [insertField] at h
    split at h
    · exact List.mem_cons.mp h
    · split at h
      · exact (List.mem_cons.mp h).imp_right (List.mem_cons_of_mem _)
      · rcases List.mem_cons.mp h with rfl | h
        · exact .inr List.mem_cons_self
        · exact (ih h).imp_right (List.mem_cons_of_mem _)

theorem SortedFields.insertField (h : SortedFields fields) (name : String) (content : α) :
    SortedFields (insertField name content fields) := by
  induction fields with
  | nil => exact List.pairwise_singleton _ _
  | cons g fields ih =>
    obtain ⟨k, v⟩ := g
    obtain ⟨hfirst, hrest⟩ := List.pairwise_cons.mp h
    rw [Pagesmith.insertField]
    split
    · next hlt =>
      refine h.cons fun f hf ↦ ?_
      rcases List.mem_cons.mp hf with rfl | hf
      · exact hlt
      · exact hlt.trans (hfirst f hf)
    · next hnlt =>
      split
      · next heq =>
        subst heq
        exact hrest.cons hfirst
      · next hne =>
        refine (ih hrest).cons fun f hf ↦ ?_
        rcases eq_or_mem_of_mem_insertField hf with rfl | hf
        · exact lt_of_le_of_ne (not_lt.mp hnlt) (Ne.symm hne)
        · exact hfirst f hf

theorem sortedFields_sortFields (fields : List (String × α)) :
    SortedFields (sortFields fields) := by
  rw [sortFields]
  exact List.foldlRecOn fields _ List.Pairwise.nil fun _ h f _ ↦ h.insertField f.1 f.2

theorem mem_of_mem_sortFields {f : String × α} (h : f ∈ sortFields fields) : f ∈ fields := by
  rw [sortFields] at h
  refine List.foldlRecOn (motive := fun sorted ↦ ∀ g ∈ sorted, g ∈ fields) fields _ ?_ ?_ f h
  · exact fun g hg ↦ absurd hg List.not_mem_nil
  · intro sorted hsorted g hg k hk
    rcases eq_or_mem_of_mem_insertField hk with rfl | hk
    · exact hg
    · exact hsorted k hk

/-- In sorted fields, the field of a name is the one that is found. -/
theorem SortedFields.mem_iff (h : SortedFields fields) :
    (name, content) ∈ fields ↔ fields.lookup name = some content := by
  induction fields with
  | nil => exact ⟨fun h ↦ absurd h List.not_mem_nil, nofun⟩
  | cons g fields ih =>
    obtain ⟨k, v⟩ := g
    obtain ⟨hfirst, hrest⟩ := List.pairwise_cons.mp h
    rw [List.mem_cons, List.lookup_cons, Prod.mk.injEq]
    by_cases hkey : name = k
    · subst hkey
      -- all other names are greater
      have hother : (name, content) ∉ fields := fun hmem ↦
        lt_irrefl name (hfirst (name, content) hmem)
      rw [beq_self_eq_true, Option.some.injEq, eq_comm (a := v)]
      exact ⟨fun hmem ↦ (hmem.resolve_right hother).2, fun heq ↦ .inl ⟨rfl, heq⟩⟩
    · rw [beq_eq_false_iff_ne.mpr hkey, ← ih hrest]
      exact ⟨fun hmem ↦ hmem.resolve_left fun heq ↦ hkey heq.1, .inr⟩

theorem SortedFields.nodup_names (h : SortedFields fields) : (fields.map Prod.fst).Nodup :=
  List.pairwise_map.mpr (h.imp ne_of_lt)

/-- Sorted fields in which the same is found are the same. -/
theorem SortedFields.eq_of_lookup {fields' : List (String × α)} (h : SortedFields fields)
    (h' : SortedFields fields') (hlookup : ∀ name, fields.lookup name = fields'.lookup name) :
    fields = fields' := by
  have hasymm : ∀ f g : String × α, f.1 < g.1 → g.1 < f.1 → f = g :=
    fun _ _ hlt hgt ↦ absurd hgt hlt.asymm
  have hnodup {l : List (String × α)} (hl : SortedFields l) : l.Nodup :=
    hl.imp fun hlt heq ↦ absurd (heq ▸ hlt) (lt_irrefl _)
  have hperm : fields.Perm fields' := by
    rw [List.perm_ext_iff_of_nodup (hnodup h) (hnodup h')]
    rintro ⟨name, content⟩
    rw [h.mem_iff, h'.mem_iff, hlookup]
  exact hperm.eq_of_pairwise (fun f g _ _ ↦ hasymm f g) h h'

/-- A field whose name is greater than all others goes to the end. -/
theorem insertField_of_forall_lt (h : ∀ f ∈ fields, f.1 < name) :
    insertField name content fields = fields ++ [(name, content)] := by
  induction fields with
  | nil => rfl
  | cons g fields ih =>
    obtain ⟨k, v⟩ := g
    obtain ⟨hfirst, hrest⟩ := List.forall_mem_cons.mp h
    rw [insertField, if_neg hfirst.asymm, if_neg hfirst.ne', ih hrest, List.cons_append]

theorem SortedFields.sortFields (h : SortedFields fields) : sortFields fields = fields := by
  induction fields using List.reverseRecOn with
  | nil => rfl
  | append_singleton fields f ih =>
    obtain ⟨hfields, -, hlt⟩ := List.pairwise_append.mp h
    have hsorted := ih hfields
    rw [Pagesmith.sortFields] at hsorted ⊢
    rw [List.foldl_append, hsorted]
    exact insertField_of_forall_lt fun g hg ↦ hlt g hg f (List.mem_singleton.mpr rfl)

/-- Setting a field leaves those alone that have another name. -/
theorem filter_insertField {p : String × α → Bool} (h : ∀ content, p (name, content) = false)
    (content : α) (fields : List (String × α)) :
    (insertField name content fields).filter p = fields.filter p := by
  have hset : ¬p (name, content) = true := by rw [h]; exact Bool.false_ne_true
  induction fields with
  | nil => rw [insertField, List.filter_cons_of_neg hset]
  | cons g fields ih =>
    obtain ⟨k, v⟩ := g
    rw [insertField]
    split
    · rw [List.filter_cons_of_neg hset]
    · split
      · next heq =>
        have hold : ¬p (k, v) = true := by rw [← heq, h]; exact Bool.false_ne_true
        rw [List.filter_cons_of_neg hset, List.filter_cons_of_neg hold]
      · rw [List.filter_cons, List.filter_cons, ih]

/-- Setting a field that is not there adds it. -/
theorem perm_insertField (h : fields.lookup name = none) :
    (insertField name content fields).Perm ((name, content) :: fields) := by
  induction fields with
  | nil => exact .refl _
  | cons g fields ih =>
    obtain ⟨k, v⟩ := g
    rw [List.lookup_cons] at h
    have hne : name ≠ k := by
      rintro rfl
      rw [beq_self_eq_true] at h
      exact nomatch h
    rw [beq_eq_false_iff_ne.mpr hne] at h
    rw [insertField, if_neg hne]
    split
    · exact .refl _
    · exact ((ih h).cons _).trans (.swap _ _ _)

/-! ## Setting several fields -/

/-- Set the fields `new` one after the other. -/
def setFields (new fields : List (String × α)) : List (String × α) :=
  new.foldl (fun fields f ↦ insertField f.1 f.2 fields) fields

theorem sortFields_eq_setFields (fields : List (String × α)) :
    sortFields fields = setFields fields [] := rfl

theorem setFields_cons (f : String × α) (new fields : List (String × α)) :
    setFields (f :: new) fields = setFields new (insertField f.1 f.2 fields) := rfl

theorem lookup_setFields_of_not_mem {new : List (String × α)} (h : name ∉ new.map Prod.fst)
    (fields : List (String × α)) : (setFields new fields).lookup name = fields.lookup name := by
  induction new generalizing fields with
  | nil => rfl
  | cons f new ih =>
    rw [List.map_cons, List.mem_cons, not_or] at h
    rw [setFields_cons, ih h.2, lookup_insertField_of_ne h.1]

/-- Where no name comes twice, each field that `setFields` sets is found. -/
theorem lookup_setFields_of_mem {new : List (String × α)} (hnodup : (new.map Prod.fst).Nodup)
    (h : (name, content) ∈ new) (fields : List (String × α)) :
    (setFields new fields).lookup name = some content := by
  induction new generalizing fields with
  | nil => exact absurd h List.not_mem_nil
  | cons f new ih =>
    obtain ⟨hfirst, hrest⟩ := List.nodup_cons.mp hnodup
    rw [setFields_cons]
    rcases List.mem_cons.mp h with rfl | h
    · rw [lookup_setFields_of_not_mem hfirst, lookup_insertField_self]
    · exact ih hrest h _

end Pagesmith

/-! ## Values as trees

What holds of a list as soon as it holds of its items, and of an object as soon as it holds of the
contents of its fields, holds of every value. This is the one induction over values that later
files use; functions on lists of items and of fields are brought into the form of `List.map` and
`List.flatMap` first, to which it applies.

The fields of an object are kept in the order of their names, and no name occurs twice. A value is
*sorted* if this is so of every object in it. -/

namespace Pagesmith.Json

/-- Induction over a value, through its lists and objects. -/
@[elab_as_elim]
theorem induction {motive : Json → Prop} (null : motive null) (bool : ∀ b, motive (bool b))
    (number : ∀ n, motive (number n)) (string : ∀ s, motive (string s))
    (array : ∀ items, (∀ x ∈ items, motive x) → motive (array items))
    (object : ∀ fields, (∀ f ∈ fields, motive f.2) → motive (object fields)) :
    ∀ v, motive v
  | .null => null
  | .bool b => bool b
  | .number n => number n
  | .string s => string s
  | .array items => array items fun x _ ↦ induction null bool number string array object x
  | .object fields => object fields fun f _ ↦ induction null bool number string array object f.2
termination_by v => sizeOf v
decreasing_by
  · next hx =>
    have hlt := List.sizeOf_lt_of_mem hx
    rw [Json.array.sizeOf_spec]
    omega
  · next hf =>
    have hlt := List.sizeOf_lt_of_mem hf
    obtain ⟨name, x⟩ := f
    rw [Prod.mk.sizeOf_spec] at hlt
    rw [Json.object.sizeOf_spec]
    show sizeOf x < _
    omega

/-! ### Sorted values -/

/-- Whether the fields of every object are in the order of their names, none of them twice. -/
inductive Sorted : Json → Prop
  | null : Sorted null
  | bool (b : Bool) : Sorted (bool b)
  | number (n : Number) : Sorted (number n)
  | string (s : String) : Sorted (string s)
  | array {items : List Json} (h : ∀ x ∈ items, Sorted x) : Sorted (array items)
  | object {fields : List (String × Json)} (hfields : SortedFields fields)
      (h : ∀ f ∈ fields, Sorted f.2) : Sorted (object fields)

/-- Sorting the fields of an object leaves nothing to sort if their contents are sorted. -/
theorem sorted_ofFields {fields : List (String × Json)} (h : ∀ f ∈ fields, Sorted f.2) :
    Sorted (ofFields fields) :=
  .object (sortedFields_sortFields fields) fun f hf ↦ h f (mem_of_mem_sortFields hf)

/-! ## The entries of a value

Everything that can be reached in a value through objects alone has the keys on the way as its
address. The `entries` of a value are what can be reached, each with its address, the value itself
among them under no key at all. What stands inside a list has no address.

They are listed depth first: an object comes before its fields, and all that is below one field
before all that is below the next. If the value is sorted this is the lexicographic order of the
addresses, so the list is known as soon as its members are. -/

/-- Whether keys lead from a value to another, every key being a field of an object. -/
inductive Leads : Json → List String → Json → Prop
  | here (v : Json) : Leads v [] v
  | into {fields : List (String × Json)} {key : String} {x y : Json} {keys : List String}
      (hfield : (key, x) ∈ fields) (h : Leads x keys y) : Leads (object fields) (key :: keys) y

/-- What stands at the end of a way through objects. -/
structure Entry where
  keys : List String
  content : Json
deriving DecidableEq

/-- The same place seen from further up, at the end of the keys `above`. -/
def Entry.below (above : List String) (e : Entry) : Entry := ⟨above ++ e.keys, e.content⟩

theorem Entry.below_below (above between : List String) (e : Entry) :
    (e.below between).below above = e.below (above ++ between) := by
  rw [below, below, below, List.append_assoc]

mutual

/-- The entries of a value, depth first. -/
def entries : Json → List Entry
  | object fields => ⟨[], object fields⟩ :: entriesOfFields fields
  | array items => [⟨[], array items⟩]
  | string s => [⟨[], string s⟩]
  | number n => [⟨[], number n⟩]
  | bool b => [⟨[], bool b⟩]
  | null => [⟨[], null⟩]

def entriesOfFields : List (String × Json) → List Entry
  | [] => []
  | (key, x) :: fields => x.entries.map (.below [key]) ++ entriesOfFields fields

end

theorem entriesOfFields_eq_flatMap (fields : List (String × Json)) :
    entriesOfFields fields = fields.flatMap fun f ↦ f.2.entries.map (.below [f.1]) := by
  induction fields with
  | nil => rfl
  | cons f fields ih => rw [entriesOfFields, ih, List.flatMap_cons]

/-- A value that is no object is its own and only entry. -/
theorem entries_of_not_object {v : Json} (h : ∀ fields, v ≠ object fields) :
    v.entries = [⟨[], v⟩] := by
  cases v with
  | object fields => exact absurd rfl (h fields)
  | _ => rfl

theorem mem_entriesOfFields {fields : List (String × Json)} {e : Entry} :
    e ∈ entriesOfFields fields ↔ ∃ f ∈ fields, ∃ d ∈ f.2.entries, d.below [f.1] = e := by
  simp only [entriesOfFields_eq_flatMap, List.mem_flatMap, List.mem_map]

theorem leads_of_not_object {v x : Json} {keys : List String} (hv : ∀ fields, v ≠ object fields) :
    v.Leads keys x ↔ keys = [] ∧ x = v := by
  constructor
  · rintro (_ | ⟨-, -⟩)
    · exact ⟨rfl, rfl⟩
    · exact absurd rfl (hv _)
  · rintro ⟨rfl, rfl⟩
    exact .here x

theorem mem_entries_of_not_object {v : Json} {e : Entry} (h : ∀ fields, v ≠ object fields) :
    e ∈ v.entries ↔ v.Leads e.keys e.content := by
  obtain ⟨keys, content⟩ := e
  rw [entries_of_not_object h, List.mem_singleton, leads_of_not_object h, Entry.mk.injEq]

/-- **The entries of a value** are what keys lead to. -/
theorem mem_entries_iff (v : Json) (e : Entry) : e ∈ v.entries ↔ v.Leads e.keys e.content := by
  induction v using Json.induction generalizing e with
  | null => exact mem_entries_of_not_object nofun
  | bool b => exact mem_entries_of_not_object nofun
  | number n => exact mem_entries_of_not_object nofun
  | string s => exact mem_entries_of_not_object nofun
  | array items => exact mem_entries_of_not_object nofun
  | object fields ih =>
    rw [entries, List.mem_cons, mem_entriesOfFields]
    constructor
    · rintro (rfl | ⟨⟨key, x⟩, hfield, d, hd, rfl⟩)
      · exact .here _
      · exact .into hfield ((ih _ hfield d).mp hd)
    · obtain ⟨keys, content⟩ := e
      rintro (_ | ⟨hfield, h⟩)
      · exact .inl rfl
      · exact .inr ⟨_, hfield, ⟨_, content⟩, (ih _ hfield _).mpr h, rfl⟩

/-- **Depth first is lexicographic.** The entries of a sorted value are in the order of their
addresses, and no two have the same address. -/
theorem Sorted.pairwise_entries {v : Json} (h : v.Sorted) :
    v.entries.Pairwise fun d e ↦ d.keys < e.keys := by
  induction h with
  | null => exact List.pairwise_singleton _ _
  | bool b => exact List.pairwise_singleton _ _
  | number n => exact List.pairwise_singleton _ _
  | string s => exact List.pairwise_singleton _ _
  | array => exact List.pairwise_singleton _ _
  | object hfields _ ih =>
    rw [entries, List.pairwise_cons]
    constructor
    · intro e he
      obtain ⟨f, -, d, -, rfl⟩ := mem_entriesOfFields.mp he
      exact List.nil_lt_cons f.1 d.keys
    · rw [entriesOfFields_eq_flatMap, List.pairwise_flatMap]
      constructor
      · -- below one key the order is that of the rest of the address
        intro f hf
        rw [List.pairwise_map]
        exact (ih f hf).imp fun hlt ↦ List.cons_lt_cons_iff.mpr (.inr ⟨rfl, hlt⟩)
      · -- below different keys the first key decides
        refine hfields.imp fun hlt d hd e he ↦ ?_
        obtain ⟨d, -, rfl⟩ := List.mem_map.mp hd
        obtain ⟨e, -, rfl⟩ := List.mem_map.mp he
        exact List.cons_lt_cons_iff.mpr (.inl hlt)

end Pagesmith.Json
