import Mathlib.Data.List.Forall2
import Pagesmith.Proofs.Json.Fields

/-!
# The strings of a value

A value is a frame with strings in it, its `texts`. The frame is everything that is not a string:
the lists with their lengths, the objects with their names, the numbers, booleans and nulls. A
string has a place in the frame, and of this place one thing counts here: the name of the field
whose content the string is. An item of a list is the content of no field, whatever field the list
is the content of, and neither is a string that is the whole value.

A function of strings and the names of their fields can be applied to all strings at once, by
`mapTexts`. The frame stays, and each string changes at its place.
-/

namespace Pagesmith.Json

/-- A string of a value, with the name of the field whose content it is. -/
structure PlacedText where
  field? : Option String
  text : String
deriving DecidableEq, Repr

/-- The string that `f` makes of `t`, at the same place. -/
def PlacedText.map (f : Option String → String → String) (t : PlacedText) : PlacedText :=
  ⟨t.field?, f t.field? t.text⟩

/-! ## Strings and frames -/

mutual

/-- The strings of what stands under `name?`, in order. -/
def textsUnder (name? : Option String) : Json → List PlacedText
  | string s => [⟨name?, s⟩]
  | array items => textsOfItems items
  | object fields => textsOfFields fields
  | null => []
  | bool _ => []
  | number _ => []

def textsOfItems : List Json → List PlacedText
  | [] => []
  | x :: xs => textsUnder none x ++ textsOfItems xs

def textsOfFields : List (String × Json) → List PlacedText
  | [] => []
  | (name, x) :: fs => textsUnder (some name) x ++ textsOfFields fs

end

def texts (v : Json) : List PlacedText := v.textsUnder none

/-- Whether two values have the same frame: they are the same but for their strings. -/
inductive SameFrame : Json → Json → Prop
  | null : SameFrame null null
  | bool (b : Bool) : SameFrame (bool b) (bool b)
  | number (n : Number) : SameFrame (number n) (number n)
  | string (s t : String) : SameFrame (string s) (string t)
  | array {xs ys : List Json} (h : List.Forall₂ SameFrame xs ys) : SameFrame (array xs) (array ys)
  | object {fs gs : List (String × Json)} (hnames : fs.map Prod.fst = gs.map Prod.fst)
      (h : List.Forall₂ SameFrame (fs.map Prod.snd) (gs.map Prod.snd)) :
      SameFrame (object fs) (object gs)

/-! ## Changing strings -/

mutual

/-- The value with `f` applied to all strings of what stands under `name?`. -/
def mapTextsUnder (f : Option String → String → String) (name? : Option String) : Json → Json
  | string s => string (f name? s)
  | array items => array (mapTextsOfItems f items)
  | object fields => object (mapTextsOfFields f fields)
  | null => null
  | bool b => bool b
  | number n => number n

def mapTextsOfItems (f : Option String → String → String) : List Json → List Json
  | [] => []
  | x :: xs => mapTextsUnder f none x :: mapTextsOfItems f xs

def mapTextsOfFields (f : Option String → String → String) :
    List (String × Json) → List (String × Json)
  | [] => []
  | (name, x) :: fs => (name, mapTextsUnder f (some name) x) :: mapTextsOfFields f fs

end

def mapTexts (f : Option String → String → String) (v : Json) : Json := v.mapTextsUnder f none

variable (f : Option String → String → String)

theorem textsOfItems_eq_flatMap (items : List Json) :
    textsOfItems items = items.flatMap (textsUnder none) := by
  induction items with
  | nil => rfl
  | cons x items ih => rw [textsOfItems, ih, List.flatMap_cons]

theorem textsOfFields_eq_flatMap (fields : List (String × Json)) :
    textsOfFields fields = fields.flatMap fun g ↦ g.2.textsUnder (some g.1) := by
  induction fields with
  | nil => rfl
  | cons g fields ih => rw [textsOfFields, ih, List.flatMap_cons]

theorem mapTextsOfItems_eq_map (items : List Json) :
    mapTextsOfItems f items = items.map (mapTextsUnder f none) := by
  induction items with
  | nil => rfl
  | cons x items ih => rw [mapTextsOfItems, ih, List.map_cons]

theorem mapTextsOfFields_eq_map (fields : List (String × Json)) :
    mapTextsOfFields f fields = fields.map fun g ↦ (g.1, g.2.mapTextsUnder f (some g.1)) := by
  induction fields with
  | nil => rfl
  | cons g fields ih => rw [mapTextsOfFields, ih, List.map_cons]

theorem sameFrame_mapTextsUnder (v : Json) (name? : Option String) :
    SameFrame v (v.mapTextsUnder f name?) := by
  induction v using Json.induction generalizing name? with
  | null => exact .null
  | bool b => exact .bool b
  | number n => exact .number n
  | string s => exact .string s _
  | array items ih =>
    rw [mapTextsUnder, mapTextsOfItems_eq_map]
    refine .array ?_
    rw [List.forall₂_map_right_iff, List.forall₂_same]
    exact fun x hx ↦ ih x hx none
  | object fields ih =>
    rw [mapTextsUnder, mapTextsOfFields_eq_map]
    refine .object ?_ ?_
    · rw [List.map_map]
      rfl
    · rw [List.map_map, List.forall₂_map_right_iff, List.forall₂_map_left_iff, List.forall₂_same]
      exact fun g hg ↦ ih g hg (some g.1)

theorem textsUnder_mapTextsUnder (v : Json) (name? : Option String) :
    (v.mapTextsUnder f name?).textsUnder name? = (v.textsUnder name?).map (.map f) := by
  induction v using Json.induction generalizing name? with
  | null => rfl
  | bool b => rfl
  | number n => rfl
  | string s => rfl
  | array items ih =>
    rw [mapTextsUnder, mapTextsOfItems_eq_map, textsUnder, textsUnder, textsOfItems_eq_flatMap,
      textsOfItems_eq_flatMap, List.flatMap_map, List.map_flatMap]
    exact List.flatMap_congr fun x hx ↦ ih x hx none
  | object fields ih =>
    rw [mapTextsUnder, mapTextsOfFields_eq_map, textsUnder, textsUnder, textsOfFields_eq_flatMap,
      textsOfFields_eq_flatMap, List.flatMap_map, List.map_flatMap]
    exact List.flatMap_congr fun g hg ↦ ih g hg (some g.1)

theorem mapTextsUnder_mapTextsUnder (g : Option String → String → String) (v : Json)
    (name? : Option String) :
    (v.mapTextsUnder f name?).mapTextsUnder g name? =
      v.mapTextsUnder (fun name? s ↦ g name? (f name? s)) name? := by
  induction v using Json.induction generalizing name? with
  | null => rfl
  | bool b => rfl
  | number n => rfl
  | string s => rfl
  | array items ih =>
    simp only [mapTextsUnder, mapTextsOfItems_eq_map, List.map_map]
    exact congrArg array (List.map_congr_left fun x hx ↦ ih x hx none)
  | object fields ih =>
    simp only [mapTextsUnder, mapTextsOfFields_eq_map, List.map_map]
    refine congrArg object (List.map_congr_left fun h hh ↦ ?_)
    exact congrArg (Prod.mk h.1) (ih h hh (some h.1))

theorem mapTextsUnder_eq_self (v : Json) (name? : Option String)
    (h : ∀ t ∈ v.textsUnder name?, t.map f = t) : v.mapTextsUnder f name? = v := by
  induction v using Json.induction generalizing name? with
  | null => rfl
  | bool b => rfl
  | number n => rfl
  | string s =>
    have hs : PlacedText.map f ⟨name?, s⟩ = ⟨name?, s⟩ := h _ List.mem_cons_self
    exact congrArg string (congrArg PlacedText.text hs)
  | array items ih =>
    rw [textsUnder, textsOfItems_eq_flatMap] at h
    rw [mapTextsUnder, mapTextsOfItems_eq_map]
    have hitems : ∀ x ∈ items, x.mapTextsUnder f none = id x := fun x hx ↦
      ih x hx none fun t ht ↦ h t (List.mem_flatMap_of_mem hx ht)
    rw [List.map_congr_left hitems, List.map_id]
  | object fields ih =>
    rw [textsUnder, textsOfFields_eq_flatMap] at h
    rw [mapTextsUnder, mapTextsOfFields_eq_map]
    have hfields : ∀ g ∈ fields, (g.1, g.2.mapTextsUnder f (some g.1)) = id g := fun g hg ↦
      congrArg (Prod.mk g.1) (ih g hg (some g.1) fun t ht ↦ h t (List.mem_flatMap_of_mem hg ht))
    rw [List.map_congr_left hfields, List.map_id]

theorem mapTexts_eq_self_iff (v : Json) : v.mapTexts f = v ↔ ∀ t ∈ v.texts, t.map f = t := by
  refine ⟨fun h ↦ ?_, mapTextsUnder_eq_self f v none⟩
  have htexts : v.texts.map (.map f) = v.texts.map id := by
    rw [List.map_id, texts, ← textsUnder_mapTextsUnder, ← mapTexts, h]
  exact List.map_inj_left.mp htexts

end Pagesmith.Json
