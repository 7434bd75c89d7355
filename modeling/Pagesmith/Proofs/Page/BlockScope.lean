import Pagesmith.Page.Render
import Pagesmith.Proofs.Json.RoundTrip

/-!
# Two views of a configuration

What a template sees shows a block's configuration twice: field by field, escaped, and as a whole,
unescaped, as the text in `jsonConfig`. The two views meet in one object, in which the year and this
text take the places of fields that the configuration may have under the same names. Such a field is
lost to the first view and not to the second, so the configuration can be told from the scope.
-/

namespace Pagesmith

/-- The fields of a scope but for `yearField` and `jsonConfigField`. -/
def ownFields (fields : List (String × Json)) : List (String × Json) :=
  fields.filter fun f ↦ f.1 ≠ yearField ∧ f.1 ≠ jsonConfigField

theorem ownFields_blockScope (config : Json) (year : Int) :
    ownFields (blockScope config year).fields = ownFields config.sanitize.fields := by
  rw [ownFields, blockScope, Json.fields, filter_insertField (by simp),
    filter_insertField (by simp)]
  rfl

theorem ownFields_of_kind_ne {config : Json} (hkind : config.kind ≠ .object) (year : Int) :
    ownFields (blockScope config year).fields = [] := by
  have hfields : config.sanitize.fields = [] := by
    cases config with
    | object fields => exact absurd rfl hkind
    | null | bool | number | string | array => rfl
  rw [ownFields_blockScope, hfields]
  rfl

theorem field?_yearField_blockScope (config : Json) (year : Int) :
    (blockScope config year).field? yearField = some (.int year) := by
  have hne : yearField ≠ jsonConfigField := by decide
  rw [blockScope, Json.field?, lookup_insertField_of_ne hne, lookup_insertField_self]

theorem field?_jsonConfigField_blockScope (config : Json) (year : Int) :
    (blockScope config year).field? jsonConfigField = some (.string config.text) := by
  rw [blockScope, Json.field?, lookup_insertField_self]

/-- The configuration can be told from the scope. -/
theorem eq_of_blockScope_eq {config config' : Json} {year year' : Int} (hsorted : config.Sorted)
    (hintegral : config.Integral) (hsorted' : config'.Sorted) (hintegral' : config'.Integral)
    (h : blockScope config year = blockScope config' year') : config = config' := by
  have htext := congrArg (Json.field? jsonConfigField) h
  rw [field?_jsonConfigField_blockScope, field?_jsonConfigField_blockScope, Option.some.injEq,
    Json.string.injEq] at htext
  exact Json.eq_of_text_eq hsorted hintegral hsorted' hintegral' htext

/-- **A scope keeps both views of the configuration.** It is an object. Its own fields are those of
the escaped configuration, and there are none if the configuration is not an object; its year is the
given one; and its `jsonConfig` is compact text. If the numbers of the configuration are integers, a
reader that goes deep enough for it reads it back from this text, and no other such configuration
has the same scope, in whatever year. -/
theorem blockScope_keeps_both_views (config : Json) (year : Int) :
    (∃ fields, blockScope config year = .object fields ∧
      ownFields fields = ownFields config.sanitize.fields ∧
      (config.kind ≠ .object → ownFields fields = [])) ∧
    (blockScope config year).field? yearField = some (.int year) ∧
    ∃ text, (blockScope config year).field? jsonConfigField = some (.string text) ∧
      Json.IsCompact text.toList ∧
      (config.Sorted → config.Integral →
        (∀ depth, config.nesting ≤ depth →
          Json.Reader.readWithin depth text.toList = .ok config) ∧
        (config.nesting ≤ Json.Reader.maxDepth → Json.ofText? text = some config) ∧
        ∀ (other : Json) (year' : Int), other.Sorted → other.Integral →
          blockScope other year' = blockScope config year → other = config) := by
  refine ⟨⟨_, rfl, ownFields_blockScope config year, fun hkind ↦ ownFields_of_kind_ne hkind year⟩,
    field?_yearField_blockScope config year, config.text,
    field?_jsonConfigField_blockScope config year, ?_, fun hsorted hintegral ↦ ⟨?_, ?_, ?_⟩⟩
  · rw [Json.text, String.toList_ofList]
    exact config.isCompact_compact
  · intro depth hdepth
    rw [Json.text, String.toList_ofList]
    exact Json.Reader.readWithin_compact hsorted hintegral hdepth
  · exact Json.ofText?_text hsorted hintegral
  · intro other year' hother hother' heq
    exact eq_of_blockScope_eq hother hother' hsorted hintegral heq

/-- The configuration may have fields of both names, a trusted field, and characters that are
escaped in JSON text, in HTML or in neither. -/
theorem blockScope_of_colliding_fields :
    let config := Json.object [("content", .string "<b>é</b>"),
      ("jsonConfig", .string "\"\\\x01"), ("year", .array [.int (-1), .null])]
    config.Sorted ∧ config.Integral ∧ config.nesting ≤ Json.Reader.maxDepth ∧
      ∃ text, (blockScope config 2024).field? jsonConfigField = some (.string text) ∧
        Json.ofText? text = some config := by
  intro config
  have hsorted : config.Sorted := .object (by decide)
    (by simpa using ⟨.string _, .string _, .array (by simpa using ⟨.number _, .null⟩)⟩)
  have hyears : (Json.array [.int (-1), .null]).Integral :=
    .array (by simpa using ⟨.int (by decide) (by decide), .null⟩)
  have hintegral : config.Integral := .object (by simpa using ⟨.string _, .string _, hyears⟩)
  have hdepth : config.nesting ≤ Json.Reader.maxDepth := by decide
  obtain ⟨-, -, text, hfield, -, hread⟩ := blockScope_keeps_both_views config 2024
  exact ⟨hsorted, hintegral, hdepth, text, hfield, (hread hsorted hintegral).2.1 hdepth⟩

end Pagesmith
