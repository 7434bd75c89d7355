import Mathlib.Data.List.Forall2
import Mathlib.Data.List.Nodup
import Pagesmith.Proofs.Results
import Pagesmith.Record

/-!
# Records and their drafts

A record is read field by field into a draft, so all that is known of the reading comes from what
one field does to the draft. In one direction this is an invariant: what every field keeps is true
of the draft that the record is made of. In the other direction it says from which values a given
record is read.

## Spelling a record

A record is *spelled* by an object that has its parts, in any order and among fields of other names,
or by the list of its parts in the declared order. A part that holds its default may be left out of
the object. While such a value is read, the draft depends only on the names that have come so far,
because what comes under each name is settled. So the drafts on the way are a function of these
names (`Drafts.after`), and it is enough to look at one name at a time.
-/

namespace Pagesmith.Record

/-! ## What every field keeps -/

section

variable {δ ρ : Type} {shape : Shape Json δ ρ} {P : δ → Prop} {r : ρ}

theorem exists_draft_of_ofFields (hempty : P shape.empty)
    (hset : ∀ d f d', P d → shape.set d f = .ok d' → P d') {fields : List (String × Json)}
    (h : shape.ofFields fields = .ok r) : ∃ d, P d ∧ shape.finish d = .ok r := by
  rw [Shape.ofFields, Shape.ofEntries] at h
  obtain ⟨⟨seen, d⟩, hread, hfinish⟩ := bind_eq_ok_iff.mp h
  have hd : P d := by
    refine of_foldlM_eq_ok (p := fun result ↦ P result.2) ?_ hempty hread
    rintro ⟨seen, d⟩ ⟨name, x⟩ result hd hstep
    rw [Shape.setOnce] at hstep
    obtain ⟨_, ⟨⟩, hstep⟩ := bind_eq_ok_iff.mp hstep
    split at hstep
    · cases hstep
    · obtain ⟨d', hd', ⟨⟩⟩ := bind_eq_ok_iff.mp hstep
      exact hset _ _ _ hd hd'
  exact ⟨d, hd, mapError_eq_ok_iff.mp hfinish⟩

theorem exists_draft_of_ofItems (hempty : P shape.empty)
    (hset : ∀ d f d', P d → shape.set d f = .ok d' → P d') {items : List Json}
    (h : shape.ofItems items = .ok r) : ∃ d, P d ∧ shape.finish d = .ok r := by
  rw [Shape.ofItems] at h
  obtain ⟨d, hread, h⟩ := bind_eq_ok_iff.mp h
  obtain ⟨r', hfinish, h⟩ := bind_eq_ok_iff.mp h
  refine ⟨d, of_foldlM_eq_ok hset hempty hread, ?_⟩
  split at h
  · cases h
  · cases h
    exact mapError_eq_ok_iff.mp hfinish

/-- What is true of the empty draft and kept by every field is true of the draft of a record. -/
theorem exists_draft_of_readRecord (hempty : P shape.empty)
    (hset : ∀ d f d', P d → shape.set d f = .ok d' → P d') {v : Json}
    (h : v.readRecord shape = .ok r) : ∃ d, P d ∧ shape.finish d = .ok r := by
  cases v with
  | object fields => exact exists_draft_of_ofFields hempty hset h
  | array items => exact exists_draft_of_ofItems hempty hset h
  | null | bool | number | string => cases h

end

/-! ## Spelling -/

/-- What stands for a field of a record in a value: its name, the contents it may have, and whether
it may be left out. -/
structure Part where
  name : String
  Fits : Json → Prop
  Optional : Prop

def Part.required (name : String) (content : Json) : Part := ⟨name, (· = content), False⟩

/-- A part that may be left out where it holds `default`. -/
def Part.optional (name : String) (content default : Json) : Part :=
  ⟨name, (· = content), content = default⟩

/-- Whether a value spells the record that has these `parts`, given in the declared order. -/
inductive Spells (parts : List Part) : Json → Prop
  /-- An object, with other fields among the parts. -/
  | object {fields : List (String × Json)} (hdistinct : (fields.map Prod.fst).Nodup)
      (hfits : ∀ p ∈ parts, ∀ x, (p.name, x) ∈ fields → p.Fits x)
      (hmissing : ∀ p ∈ parts, p.name ∉ fields.map Prod.fst → p.Optional) :
      Spells parts (.object fields)
  /-- A list of all parts. -/
  | array {items : List Json} (h : List.Forall₂ Part.Fits parts items) : Spells parts (.array items)

theorem exists_mem_of_forall₂ {α β : Type} {r : α → β → Prop} {l : List α} {l' : List β} {b : β}
    (h : List.Forall₂ r l l') (hb : b ∈ l') : ∃ a ∈ l, r a b := by
  induction h with
  | nil => cases hb
  | @cons a _ _ _ hab _ ih =>
    rcases List.mem_cons.mp hb with rfl | hb
    · exact ⟨a, List.mem_cons_self, hab⟩
    · obtain ⟨a', ha', hr⟩ := ih hb
      exact ⟨a', List.mem_cons_of_mem _ ha', hr⟩

/-- What is written for a record, with the names and without them, spells it. -/
theorem spells_of_written {parts : List Part} {written : List (String × Json)}
    (h : List.Forall₂ (fun p f ↦ p.name = f.1 ∧ p.Fits f.2) parts written)
    (hdistinct : (parts.map Part.name).Nodup) :
    Spells parts (.object written) ∧ Spells parts (.array (written.map Prod.snd)) := by
  have hnames : parts.map Part.name = written.map Prod.fst := by
    rw [← List.forall₂_eq_eq_eq, List.forall₂_map_left_iff, List.forall₂_map_right_iff]
    exact h.imp fun _ _ ↦ And.left
  constructor
  · refine .object (hnames ▸ hdistinct) (fun p hp x hx ↦ ?_) fun p hp hname ↦ ?_
    · obtain ⟨p', hp', hname, hfits⟩ := exists_mem_of_forall₂ h hx
      rwa [List.inj_on_of_nodup_map hdistinct hp hp' hname.symm]
    · rw [← hnames] at hname
      exact absurd (List.mem_map_of_mem hp) hname
  · exact .array (List.forall₂_map_right_iff.mpr (h.imp fun _ _ ↦ And.right))

section

variable {δ ρ : Type}

/-- The drafts on the way to a record that is read from its parts. Which draft it is depends on the
names that have come so far, the last one first, and fields of other names leave it as it is. -/
structure Drafts (shape : Shape Json δ ρ) (parts : List Part) (record : ρ) where
  after : List String → δ
  start : after [] = shape.empty
  names : shape.fields = parts.map Part.name
  part : ∀ seen, ∀ p ∈ parts, ∀ x, p.Fits x →
    shape.set (after seen) (p.name, x) = .ok (after (p.name :: seen))
  other : ∀ seen name x, name ∉ parts.map Part.name →
    shape.set (after seen) (name, x) = .ok (after seen) ∧ after (name :: seen) = after seen
  finish : ∀ seen, (∀ p ∈ parts, p.name ∉ seen → p.Optional) →
    shape.finish (after seen) = .ok record

namespace Drafts

variable {shape : Shape Json δ ρ} {parts : List Part} {record : ρ}

theorem setOnce (d : Drafts shape parts record) {seen : List String} {name : String} {x : Json}
    (hseen : name ∉ seen) (hfits : ∀ p ∈ parts, p.name = name → p.Fits x) :
    shape.setOnce .ok (seen, d.after seen) (name, x) =
      .ok (name :: seen, d.after (name :: seen)) := by
  have hset : shape.set (d.after seen) (name, x) = .ok (d.after (name :: seen)) := by
    by_cases hname : name ∈ parts.map Part.name
    · obtain ⟨p, hp, rfl⟩ := List.mem_map.mp hname
      exact d.part seen p hp x (hfits p hp rfl)
    · obtain ⟨hset, hafter⟩ := d.other seen name x hname
      rw [hset, hafter]
  have hnew : ¬(shape.fields.contains name && seen.contains name) = true := by simp [hseen]
  rw [Shape.setOnce]
  change (if _ then _ else _) = _
  rw [if_neg hnew, hset]
  rfl

theorem foldlM_setOnce (d : Drafts shape parts record) {fields : List (String × Json)}
    {seen : List String} (hdistinct : (fields.map Prod.fst).Nodup)
    (hseen : ∀ f ∈ fields, f.1 ∉ seen)
    (hfits : ∀ p ∈ parts, ∀ x, (p.name, x) ∈ fields → p.Fits x) :
    ∃ seen', (∀ name, name ∈ seen' ↔ name ∈ fields.map Prod.fst ∨ name ∈ seen) ∧
      fields.foldlM (shape.setOnce .ok) (seen, d.after seen) = .ok (seen', d.after seen') := by
  induction fields generalizing seen with
  | nil => exact ⟨seen, fun _ ↦ by simp, rfl⟩
  | cons f fields ih =>
    obtain ⟨name, x⟩ := f
    obtain ⟨hfirst, hrest⟩ := List.nodup_cons.mp hdistinct
    obtain ⟨hnew, hlater⟩ := List.forall_mem_cons.mp hseen
    have hlater' : ∀ f ∈ fields, f.1 ∉ name :: seen := by
      intro f hf hmem
      rcases List.mem_cons.mp hmem with heq | hmem
      · exact hfirst (List.mem_map.mpr ⟨f, hf, heq⟩)
      · exact hlater f hf hmem
    obtain ⟨seen', hseen', hread⟩ := ih hrest hlater' fun p hp y hy ↦
      hfits p hp y (List.mem_cons_of_mem _ hy)
    refine ⟨seen', fun other ↦ ?_, ?_⟩
    · rw [hseen', List.map_cons, List.mem_cons, List.mem_cons]
      tauto
    · rw [List.foldlM_cons, d.setOnce hnew fun p hp heq ↦ hfits p hp x (heq ▸ List.mem_cons_self)]
      exact hread

theorem foldlM_zip (d : Drafts shape parts record) {rest : List Part} {items : List Json}
    {seen : List String} (hrest : ∀ p ∈ rest, p ∈ parts) (h : List.Forall₂ Part.Fits rest items) :
    ∃ seen', (∀ p ∈ rest, p.name ∈ seen') ∧ (∀ name ∈ seen, name ∈ seen') ∧
      ((rest.map Part.name).zip items).foldlM shape.set (d.after seen) = .ok (d.after seen') := by
  induction h generalizing seen with
  | nil => exact ⟨seen, fun _ hp ↦ absurd hp List.not_mem_nil, fun _ h ↦ h, rfl⟩
  | @cons p x rest items hx h ih =>
    obtain ⟨hp, hrest⟩ := List.forall_mem_cons.mp hrest
    obtain ⟨seen', hparts, hseen', hread⟩ := @ih (p.name :: seen) hrest
    obtain ⟨hname, hseen'⟩ := List.forall_mem_cons.mp hseen'
    refine ⟨seen', List.forall_mem_cons.mpr ⟨hname, hparts⟩, hseen', ?_⟩
    rw [List.map_cons, List.zip_cons_cons, List.foldlM_cons, d.part seen p hp x hx]
    exact hread

/-- **What spells a record is read as this record.** -/
theorem readRecord (d : Drafts shape parts record) {v : Json} (h : Spells parts v) :
    v.readRecord shape = .ok record := by
  cases h with
  | object hdistinct hfits hmissing =>
    obtain ⟨seen, hseen, hread⟩ := d.foldlM_setOnce hdistinct (fun _ _ ↦ List.not_mem_nil) hfits
    have hfinish := d.finish seen fun p hp hname ↦ hmissing p hp fun hmem ↦
      hname ((hseen _).mpr (.inl hmem))
    rw [d.start] at hread
    rw [Json.readRecord, Shape.ofFields, Shape.ofEntries, hread]
    change (shape.finish (d.after seen)).mapError _ = _
    rw [hfinish]
    rfl
  | @array items hitems =>
    obtain ⟨seen, hseen, -, hread⟩ := @foldlM_zip _ _ _ _ _ d _ _ [] (fun _ h ↦ h) hitems
    have hfinish := d.finish seen fun p hp hname ↦ absurd (hseen p hp) hname
    have hlength : shape.fields.length = items.length := by
      rw [d.names, List.length_map, hitems.length_eq]
    rw [d.start, ← d.names] at hread
    rw [Json.readRecord, Shape.ofItems, hread]
    change ((shape.finish (d.after seen)).mapError _ >>= _) = _
    rw [hfinish]
    exact if_neg (Nat.not_lt.mpr (Nat.le_of_eq hlength.symm))

end Drafts

end

end Pagesmith.Record
