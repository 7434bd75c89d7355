import Pagesmith.Page.Render
import Pagesmith.Proofs.Html.Inert
import Pagesmith.Proofs.Json.Texts
import Pagesmith.Template.Render

/-!
# What escaping a value does to it

Escaping a value is escaping its strings where they stand, those excepted that are the content of a
field named `content` themselves. Everything else about it is said of strings: the frame of the
value stays, the strings can be read back, and a value in which no string needs escaping is left
alone.

The exception is about a place and not about a part of the value. What stands deeper below a field
named `content`, as an item of a list or as the content of a field of its own, has another place,
and is escaped there unless this field is again named `content`.
-/

/-! ## Escaped values

By `Json.sanitize` strings are changed and nothing else, so an escaped value answers most questions
as the value itself does: of what kind it is, whether it counts as true, which fields and how many
items it has. A field is escaped on its own, by a rule that depends on its name; items are escaped
without a name. -/

namespace Pagesmith

namespace Html

/-- Escaping keeps the empty text, and makes no other text empty. -/
theorem isEmpty_escape (s : String) : (escape s).isEmpty = s.isEmpty := by
  rw [Bool.eq_iff_iff, String.isEmpty_iff, String.isEmpty_iff, ← String.toList_eq_nil_iff,
    ← String.toList_eq_nil_iff, escape, String.toList_ofList, escapeChars]
  constructor
  · intro h
    cases hs : s.toList with
    | nil => rfl
    | cons c cs =>
      rw [hs, List.flatMap_cons] at h
      exact absurd (List.append_eq_nil_iff.mp h).1 (escapeChar_ne_nil c)
  · intro h
    rw [h, List.flatMap_nil]

end Html

namespace Json

/-! ### Fields and items -/

/-- What a value is escaped to as the content of the field `name`. -/
def sanitizeUnder (name : String) : Json → Json
  | string s => if name = Html.trustedField then string s else string (Html.escape s)
  | null => sanitize null
  | bool b => sanitize (bool b)
  | number n => sanitize (number n)
  | array items => sanitize (array items)
  | object fields => sanitize (object fields)

theorem sanitizeItems_eq_map (items : List Json) : sanitizeItems items = items.map sanitize := by
  induction items with
  | nil => rfl
  | cons x items ih => rw [sanitizeItems, ih, List.map_cons]

theorem sanitizeFields_cons (name : String) (x : Json) (fields : List (String × Json)) :
    sanitizeFields ((name, x) :: fields) =
      (name, x.sanitizeUnder name) :: sanitizeFields fields := by
  cases x with
  | string s =>
    rw [sanitizeFields, sanitizeUnder]
  | null => rfl
  | bool b => rfl
  | number n => rfl
  | array items => rfl
  | object inner => rfl

/-- A field is found where it was, with its content escaped. -/
theorem lookup_sanitizeFields (name : String) (fields : List (String × Json)) :
    (sanitizeFields fields).lookup name = (fields.lookup name).map (sanitizeUnder name) := by
  induction fields with
  | nil => rfl
  | cons f fields ih =>
    obtain ⟨k, x⟩ := f
    rw [sanitizeFields_cons, List.lookup_cons, List.lookup_cons]
    by_cases hkey : name = k
    · rw [hkey, beq_self_eq_true]
      rfl
    · rw [beq_eq_false_iff_ne.mpr hkey]
      exact ih

/-- Only strings are spared by the name of a field. -/
theorem sanitizeUnder_eq (name : String) (x : Json) :
    x.sanitizeUnder name = x.sanitize ∨ ∃ s, x = string s ∧ x.sanitizeUnder name = string s := by
  cases x with
  | string s =>
    rw [sanitizeUnder]
    split
    · exact .inr ⟨s, rfl, rfl⟩
    · exact .inl rfl
  | null => exact .inl rfl
  | bool b => exact .inl rfl
  | number n => exact .inl rfl
  | array items => exact .inl rfl
  | object fields => exact .inl rfl

theorem sanitizeUnder_of_ne {name : String} (hname : name ≠ Html.trustedField) (x : Json) :
    x.sanitizeUnder name = x.sanitize := by
  cases x with
  | string s => rw [sanitizeUnder, if_neg hname, sanitize]
  | null => rfl
  | bool b => rfl
  | number n => rfl
  | array items => rfl
  | object fields => rfl

theorem fields_sanitize (x : Json) : x.sanitize.fields = sanitizeFields x.fields := by
  cases x <;> rfl

/-! ### What escaping leaves alone -/

theorem isTruthy_sanitize (x : Json) : isTruthy (some x.sanitize) = isTruthy (some x) := by
  cases x with
  | string s =>
    show (!(Html.escape s).isEmpty) = !s.isEmpty
    rw [Html.isEmpty_escape]
  | array items => cases items <;> rfl
  | null => rfl
  | bool b => rfl
  | number n => rfl
  | object fields => rfl

end Json

/-! ## Strings and their places -/

/-! ### Escaping at a place -/

/-- What a string is escaped to as the content of the field `name?`, if of any. -/
def Html.escapeUnder (name? : Option String) (s : String) : String :=
  if name? = some trustedField then s else escape s

/-- What a string is read as that `Html.escapeUnder` has escaped. -/
def Html.unescapeUnder (name? : Option String) (s : String) : String :=
  if name? = some trustedField then s else unescape s

theorem Html.unescapeUnder_escapeUnder (name? : Option String) (s : String) :
    unescapeUnder name? (escapeUnder name? s) = s := by
  by_cases htrusted : name? = some trustedField
  · rw [unescapeUnder, if_pos htrusted, escapeUnder, if_pos htrusted]
  · rw [unescapeUnder, if_neg htrusted, escapeUnder, if_neg htrusted, unescape_escape]

namespace Json

def PlacedText.Trusted (t : PlacedText) : Prop := t.field? = some Html.trustedField

instance (t : PlacedText) : Decidable t.Trusted :=
  inferInstanceAs (Decidable (t.field? = some Html.trustedField))

/-- The value with the five entities read in every string, trusted ones excepted. -/
def unsanitize (v : Json) : Json := v.mapTexts Html.unescapeUnder

/-! ### Escaping a value -/

theorem sanitizeUnder_eq_mapTextsUnder {name : String} {x : Json}
    (h : x.sanitize = x.mapTexts Html.escapeUnder) :
    x.sanitizeUnder name = x.mapTextsUnder Html.escapeUnder (some name) := by
  cases x with
  | string s =>
    rw [sanitizeUnder, mapTextsUnder, Html.escapeUnder, apply_ite string]
    simp only [Option.some.injEq]
  | null => exact h
  | bool b => exact h
  | number n => exact h
  | array items => exact h
  | object fields => exact h

theorem sanitizeFields_eq_map (fields : List (String × Json)) :
    sanitizeFields fields = fields.map fun f ↦ (f.1, f.2.sanitizeUnder f.1) := by
  induction fields with
  | nil => rfl
  | cons f fields ih => rw [sanitizeFields_cons, ih, List.map_cons]

/-- **Escaping a value is escaping its strings at their places.** -/
theorem sanitize_eq_mapTexts (v : Json) : v.sanitize = v.mapTexts Html.escapeUnder := by
  induction v using Json.induction with
  | null => rfl
  | bool b => rfl
  | number n => rfl
  | string s => rfl
  | array items ih =>
    rw [sanitize, sanitizeItems_eq_map, mapTexts, mapTextsUnder, mapTextsOfItems_eq_map]
    exact congrArg array (List.map_congr_left ih)
  | object fields ih =>
    rw [sanitize, sanitizeFields_eq_map, mapTexts, mapTextsUnder, mapTextsOfFields_eq_map]
    refine congrArg object (List.map_congr_left fun f hf ↦ ?_)
    rw [sanitizeUnder_eq_mapTextsUnder (ih f hf)]

theorem texts_sanitize (v : Json) : v.sanitize.texts = v.texts.map (.map Html.escapeUnder) := by
  rw [sanitize_eq_mapTexts]
  exact textsUnder_mapTextsUnder _ v none

theorem sameFrame_sanitize (v : Json) : SameFrame v v.sanitize := by
  rw [sanitize_eq_mapTexts]
  exact sameFrame_mapTextsUnder _ v none

theorem unsanitize_sanitize (v : Json) : v.sanitize.unsanitize = v := by
  rw [sanitize_eq_mapTexts, unsanitize, mapTexts, mapTexts, mapTextsUnder_mapTextsUnder]
  refine mapTextsUnder_eq_self _ v none fun t _ ↦ ?_
  rw [PlacedText.map, Html.unescapeUnder_escapeUnder]

theorem inert_of_mem_texts_sanitize {v : Json} {t : PlacedText} (ht : t ∈ v.sanitize.texts)
    (htrusted : ¬t.Trusted) : Html.Inert t.text.toList := by
  rw [texts_sanitize] at ht
  obtain ⟨u, -, rfl⟩ := List.mem_map.mp ht
  have hplace : u.field? ≠ some Html.trustedField := htrusted
  rw [PlacedText.map, Html.escapeUnder, if_neg hplace, Html.escape, String.toList_ofList]
  exact Html.inert_escapeChars _

/-- A string stays as it is where it is spared, and if nothing in it needs escaping. -/
theorem map_escapeUnder_eq_self_iff (t : PlacedText) :
    t.map Html.escapeUnder = t ↔ ¬t.Trusted → ∀ c ∈ t.text.toList, c ∉ Html.markup := by
  obtain ⟨name?, s⟩ := t
  rw [PlacedText.map, PlacedText.mk.injEq, eq_self, true_and, Html.escapeUnder]
  by_cases htrusted : name? = some Html.trustedField
  · rw [if_pos htrusted]
    exact ⟨fun _ h ↦ absurd htrusted h, fun _ ↦ rfl⟩
  · rw [if_neg htrusted, Html.escape_eq_self_iff]
    exact ⟨fun h _ ↦ h, fun h ↦ h htrusted⟩

/-- **Escaping loses nothing and leaves no markup.** No two values and no two strings are escaped to
the same. The value is read back from the escaped one, which has the same frame; at each place
stands what the string there is escaped to; every string that is not spared is inert; and nothing
has changed exactly if none of these strings held a markup character. -/
theorem sanitize_loses_nothing :
    Function.Injective sanitize ∧ Function.Injective Html.escape ∧
    ∀ v : Json,
      v.sanitize.unsanitize = v ∧ SameFrame v v.sanitize ∧
      v.sanitize.texts = v.texts.map (.map Html.escapeUnder) ∧
      (∀ t ∈ v.sanitize.texts, ¬t.Trusted → Html.Inert t.text.toList) ∧
      (v.sanitize = v ↔ ∀ t ∈ v.texts, ¬t.Trusted → ∀ c ∈ t.text.toList, c ∉ Html.markup) := by
  refine ⟨Function.LeftInverse.injective unsanitize_sanitize, Html.escape_injective, fun v ↦ ?_⟩
  refine ⟨unsanitize_sanitize v, sameFrame_sanitize v, texts_sanitize v, ?_, ?_⟩
  · exact fun t ht htrusted ↦ inert_of_mem_texts_sanitize ht htrusted
  · rw [sanitize_eq_mapTexts, mapTexts_eq_self_iff]
    exact forall₂_congr fun t _ ↦ map_escapeUnder_eq_self_iff t

/-- A list under `content` is escaped, a string under `content` within it is not, and an entity that
was there before is read back as it was. -/
theorem sanitize_nested_content :
    let v := object [("content", array [string "<b>", object [("content", string "<i>")]]),
      ("title", string "&lt;")]
    let w := object [("content", array [string "&lt;b&gt;", object [("content", string "<i>")]]),
      ("title", string "&amp;lt;")]
    v.sanitize = w ∧ w.unsanitize = v ∧ SameFrame v w ∧
      ⟨some "title", "&amp;lt;"⟩ ∈ w.texts ∧ Html.Inert "&amp;lt;".toList := by
  intro v w
  obtain ⟨-, -, hspec⟩ := sanitize_loses_nothing
  obtain ⟨hback, hframe, -, hinert, -⟩ := hspec v
  have hsanitize : v.sanitize = w := by decide
  have hmem : ⟨some "title", "&amp;lt;"⟩ ∈ w.texts := by decide
  rw [hsanitize] at hback hframe hinert
  exact ⟨hsanitize, hback, hframe, hmem, hinert _ hmem (by decide)⟩

end Json

end Pagesmith
