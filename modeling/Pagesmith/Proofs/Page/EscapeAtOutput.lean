import Pagesmith.Page.Render
import Pagesmith.Proofs.Html.Sanitize
import Pagesmith.Proofs.Json.Fields
import Pagesmith.Proofs.Template.Run

/-!
# Escaping at the output

A configuration is escaped before a template sees it. The same pages come out if nothing is escaped
in advance and every string is escaped at the moment a field puts it out. The second way is the one
that is easy to trust, and this file is about their being the same: not only in the text or the
failure they come to, but in every branch and every number of passes on the way there.

## Trust

Escaping at the output has to know which strings not to escape, and a value alone does not tell. So
the values that are found carry how they were *reached*: a step into a field named `content`, or
into the field `jsonConfig` of the whole configuration, reaches its content with trust; a step into
any other field and a step to an item do not, and an iteration reaches each of its items without
trust. Trust is about strings only. A list that was reached with trust is put out like any other.
-/

namespace Pagesmith

/-- How a value was reached. -/
inductive Reached
  | root
  | trusted
  | plain
deriving DecidableEq, Repr

/-- A value of the unescaped configuration and how it was reached. -/
structure FoundValue where
  value : Json
  reached : Reached

namespace FoundValue

/-- How the step `segment` from a value reaches what it leads to. -/
def below (f : FoundValue) (segment : String) : Reached :=
  match f.value with
  | .object _ =>
    if segment = Html.trustedField ∨ (f.reached = .root ∧ segment = jsonConfigField) then .trusted
    else .plain
  | _ => .plain

def step? (segment : String) (f : FoundValue) : Option FoundValue :=
  (f.value.step? segment).map fun v ↦ ⟨v, f.below segment⟩

def walk? (segments : List String) (f : FoundValue) : Option FoundValue :=
  segments.foldlM (fun f segment ↦ f.step? segment) f

/-- The text of an item of a list that is put out. -/
def itemText? : Json → Option String
  | .string s => some (Html.escape s)
  | v => v.scalarText?

/-- The text of a value that is put out, escaped unless it is a string reached with trust. -/
def text (f : FoundValue) : Except TextFault String :=
  match f.value with
  | .string s => .ok (if f.reached = .trusted then s else Html.escape s)
  | .array items =>
    match items.mapM itemText? with
    | some parts => .ok (",".intercalate parts)
    | none => .error .nested
  | v => v.templateText

end FoundValue

/-- The value at hand and the one of the scope around it. -/
structure FoundScope where
  this : FoundValue
  parent : Option FoundValue

namespace FoundScope

def root (value : Json) : FoundScope := ⟨⟨value, .root⟩, none⟩

/-- A scope for one item of an iteration in `s`. Items are reached without trust. -/
def child (s : FoundScope) (item : Json) : FoundScope := ⟨⟨item, .plain⟩, some s.this⟩

def lookup (s : FoundScope) (path : FieldPath) : Option FoundValue :=
  match path.root with
  | .current => s.this.walk? path.segments
  | .parent => s.parent.bind (FoundValue.walk? path.segments)

def itemsAt (s : FoundScope) (path : FieldPath) : Except RenderCause (List FoundScope) :=
  match (s.lookup path).map FoundValue.value with
  | none => .ok []
  | some .null => .ok []
  | some (.array items) => .ok (items.map s.child)
  | some other => .error (.notAnArray path other.kind)

def textAt (s : FoundScope) (path : FieldPath) : Except RenderCause String :=
  match s.lookup path with
  | none => .ok ""
  | some f => f.text.mapError (.noText path)

def view : View FoundScope where
  isTrue s path := isTruthy ((s.lookup path).map FoundValue.value)
  itemsAt := itemsAt
  textAt := textAt

end FoundScope

/-- The value that `blockScope` is without escaping. -/
def rawScope (config : Json) (year : Int) : Json :=
  .object
    (insertField jsonConfigField (.string config.text)
      (insertField yearField (.int year) config.fields))

/-- The run over `rawScope`, which escapes at the output. -/
def Template.runEscapingAtOutput (t : Template) (config : Json) (year : Int) : Run :=
  Node.runAll FoundScope.view (.root (rawScope config year)) t.nodes

/-! ## What is seen where -/

/-- What rendering sees at a place where escaping at the output finds a value. -/
inductive Sees (config : Json) (year : Int) : FoundValue → Json → Prop
  | root : Sees config year ⟨rawScope config year, .root⟩ (blockScope config year)
  | trusted (v : Json) : Sees config year ⟨v, .trusted⟩ (v.sanitizeUnder Html.trustedField)
  | plain (v : Json) : Sees config year ⟨v, .plain⟩ v.sanitize

namespace Sees

variable {config : Json} {year : Int} {f : FoundValue} {v : Json}

theorem isTruthy_eq (h : Sees config year f v) : isTruthy (some f.value) = isTruthy (some v) := by
  cases h with
  | root => rfl
  | trusted v =>
    obtain hv | ⟨s, rfl, hv⟩ := v.sanitizeUnder_eq Html.trustedField
    · rw [hv, Json.isTruthy_sanitize]
    · rw [hv]
  | plain v => exact (Json.isTruthy_sanitize v).symm

/-! ## Texts -/

theorem itemText?_eq (x : Json) : FoundValue.itemText? x = x.sanitize.scalarText? := by
  cases x with
  | bool b => cases b <;> rfl
  | null => rfl
  | number n => rfl
  | string s => rfl
  | array items => rfl
  | object fields => rfl

/-- A value reached without trust has the text of its escaped image. -/
theorem text_plain_eq (x : Json) : (⟨x, .plain⟩ : FoundValue).text = x.sanitize.templateText := by
  cases x with
  | array items =>
    have hitems : items.mapM FoundValue.itemText? =
        (Json.sanitizeItems items).mapM Json.scalarText? := by
      rw [Json.sanitizeItems_eq_map, List.mapM_map]
      congr 1
      funext x
      exact itemText?_eq x
    rw [Json.sanitize, Json.templateText, ← hitems]
    rfl
  | null => rfl
  | bool b => rfl
  | number n => rfl
  | string s => rfl
  | object fields => rfl

theorem text_eq (h : Sees config year f v) : f.text = v.templateText := by
  cases h with
  | root => rfl
  | trusted v =>
    cases v with
    | string s => rfl
    | array items => exact text_plain_eq (.array items)
    | null => rfl
    | bool b => rfl
    | number n => rfl
    | object fields => rfl
  | plain v => exact text_plain_eq v

/-- Trust is about strings: the items of a list that was reached with trust are escaped. -/
example :
    (⟨.string "<", .trusted⟩ : FoundValue).text = .ok "<" ∧
      (⟨.array [.string "<"], .trusted⟩ : FoundValue).text = .ok "&lt;" :=
  ⟨rfl, rfl⟩

/-! ## Steps -/

theorem field (name : String) (x : Json) {r : Reached} (hr : r = .root → name ≠ jsonConfigField)
    (fields : List (String × Json)) :
    Sees config year ⟨x, (⟨.object fields, r⟩ : FoundValue).below name⟩ (x.sanitizeUnder name) := by
  by_cases hname : name = Html.trustedField
  · rw [FoundValue.below, if_pos (.inl hname), hname]
    exact .trusted x
  · have hplain : ¬(name = Html.trustedField ∨ r = .root ∧ name = jsonConfigField) := by
      rintro (h | h)
      · exact hname h
      · exact hr h.1 h.2
    rw [FoundValue.below, if_neg hplain, Json.sanitizeUnder_of_ne hname]
    exact .plain x

theorem step_sanitize (segment : String) (x : Json) {r : Reached} (hr : r ≠ .root) :
    Option.Rel (Sees config year) (FoundValue.step? segment ⟨x, r⟩) (x.sanitize.step? segment) := by
  cases x with
  | object fields =>
    rw [FoundValue.step?, Json.sanitize, Json.step?, Json.step?, Json.lookup_sanitizeFields]
    cases fields.lookup segment with
    | none => exact .none
    | some x => exact .some (field segment x (fun h ↦ absurd h hr) fields)
  | array items =>
    rw [FoundValue.step?, Json.sanitize, Json.step?, Json.step?, Json.sanitizeItems_eq_map]
    cases Text.natural Scope.maxIndex segment.toList with
    | error fault => exact .none
    | ok i =>
      show Option.Rel _ (items[i]?.map _) (items.map Json.sanitize)[i]?
      rw [List.getElem?_map]
      cases items[i]? with
      | none => exact .none
      | some x => exact .some (.plain x)
  | null => exact .none
  | bool b => exact .none
  | number n => exact .none
  | string s => exact .none

theorem step_root (segment : String) :
    Option.Rel (Sees config year) (FoundValue.step? segment ⟨rawScope config year, .root⟩)
      ((blockScope config year).step? segment) := by
  rw [FoundValue.step?, rawScope, blockScope, Json.step?, Json.step?]
  -- the two fields that every block has are set last, so they are asked for first
  by_cases hjson : segment = jsonConfigField
  · rw [hjson, lookup_insertField_self, lookup_insertField_self]
    exact .some (.trusted (.string config.text))
  · rw [lookup_insertField_of_ne hjson, lookup_insertField_of_ne hjson]
    by_cases hyear : segment = yearField
    · rw [hyear, lookup_insertField_self, lookup_insertField_self]
      exact .some (.plain (.int year))
    · rw [lookup_insertField_of_ne hyear, lookup_insertField_of_ne hyear, Json.fields_sanitize,
        Json.lookup_sanitizeFields]
      cases config.fields.lookup segment with
      | none => exact .none
      | some x => exact .some (field segment x (fun _ ↦ hjson) _)

/-- **One step.** Related values lead to related values, or both lead nowhere. -/
theorem step (h : Sees config year f v) (segment : String) :
    Option.Rel (Sees config year) (f.step? segment) (v.step? segment) := by
  cases h with
  | root => exact step_root segment
  | trusted x =>
    obtain hx | ⟨s, rfl, hx⟩ := x.sanitizeUnder_eq Html.trustedField
    · rw [hx]
      exact step_sanitize segment x (by decide)
    · rw [hx]
      exact .none
  | plain x => exact step_sanitize segment x (by decide)

theorem walk (segments : List String) (h : Sees config year f v) :
    Option.Rel (Sees config year) (f.walk? segments) (v.walk? segments) := by
  -- over all pairs of values, since every step leads to another pair
  induction segments generalizing f v with
  | nil => exact .some h
  | cons segment segments ih =>
    rw [FoundValue.walk?, Json.walk?, List.foldlM_cons, List.foldlM_cons]
    have hstep := h.step segment
    generalize f.step? segment = next, v.step? segment = next' at hstep
    cases hstep with
    | none => exact .none
    | some h => exact ih h

end Sees

/-! ## Scopes -/

/-- Scopes whose values, and the values around them, are seen where they are found. -/
structure SeesScope (config : Json) (year : Int) (s : FoundScope) (t : Scope) : Prop where
  this : Sees config year s.this t.this
  parent : Option.Rel (Sees config year) s.parent t.parent

namespace SeesScope

variable {config : Json} {year : Int} {s : FoundScope} {t : Scope}

theorem root :
    SeesScope config year (.root (rawScope config year)) (.root (blockScope config year)) :=
  ⟨.root, .none⟩

theorem child (h : SeesScope config year s t) (item : Json) :
    SeesScope config year (s.child item) (t.child item.sanitize) :=
  ⟨.plain item, .some h.this⟩

theorem lookup (h : SeesScope config year s t) (path : FieldPath) :
    Option.Rel (Sees config year) (s.lookup path) (t.lookup path) := by
  obtain ⟨root, segments⟩ := path
  cases root with
  | current => exact h.this.walk segments
  | parent =>
    obtain ⟨this, parent⟩ := s
    obtain ⟨this', parent'⟩ := t
    obtain ⟨-, hparent⟩ := h
    cases hparent with
    | none => exact .none
    | some hparent => exact hparent.walk segments

/-- The passes over an array are over related scopes. -/
theorem forall₂_child (h : SeesScope config year s t) (items : List Json) :
    List.Forall₂ (SeesScope config year) (items.map s.child)
      ((Json.sanitizeItems items).map t.child) := by
  rw [Json.sanitizeItems_eq_map, List.map_map, List.forall₂_map_left_iff,
    List.forall₂_map_right_iff, List.forall₂_same]
  exact fun item _ ↦ h.child item

theorem itemsAt (h : SeesScope config year s t) (path : FieldPath) :
    View.ItemsAgree (SeesScope config year) (s.itemsAt path)
      ((t.itemsAt path).map fun items ↦ items.map t.child) := by
  have hpath := h.lookup path
  rw [FoundScope.itemsAt, Scope.itemsAt]
  generalize s.lookup path = found, t.lookup path = seen at hpath ⊢
  cases hpath with
  | none => exact .ok .nil
  | some hseen =>
    -- what is no array is refused by its kind, which is the same on both sides
    cases hseen with
    | root => exact .error _
    | trusted x =>
      cases x with
      | array items => exact .ok (h.forall₂_child items)
      | null => exact .ok .nil
      | bool b => exact .error _
      | number n => exact .error _
      | string s => exact .error _
      | object fields => exact .error _
    | plain x =>
      cases x with
      | array items => exact .ok (h.forall₂_child items)
      | null => exact .ok .nil
      | bool b => exact .error _
      | number n => exact .error _
      | string s => exact .error _
      | object fields => exact .error _

theorem isTrue (h : SeesScope config year s t) (path : FieldPath) :
    FoundScope.view.isTrue s path = Scope.view.isTrue t path := by
  have hpath := h.lookup path
  show isTruthy ((s.lookup path).map FoundValue.value) = isTruthy (t.lookup path)
  generalize s.lookup path = found, t.lookup path = seen at hpath ⊢
  cases hpath with
  | none => rfl
  | some hseen => exact hseen.isTruthy_eq

theorem textAt (h : SeesScope config year s t) (path : FieldPath) :
    s.textAt path = t.textAt path := by
  have hpath := h.lookup path
  rw [FoundScope.textAt, Scope.textAt]
  generalize s.lookup path = found, t.lookup path = seen at hpath ⊢
  cases hpath with
  | none => rfl
  | some hseen =>
    show Except.mapError _ _ = Except.mapError _ _
    rw [hseen.text_eq]

theorem simulates : FoundScope.view.Simulates Scope.view (SeesScope config year) where
  isTrue := isTrue
  itemsAt := itemsAt
  textAt := textAt

end SeesScope

/-! ## The two ways are one -/

theorem Template.runAll_view_blockScope (t : Template) (config : Json) (year : Int) :
    Node.runAll Scope.view (.root (blockScope config year)) t.nodes =
      t.runEscapingAtOutput config year :=
  (Node.runAll_eq_of_simulates SeesScope.simulates t.nodes SeesScope.root).symm

/-- **Escaping at the output.** Rendering a template against an escaped configuration comes to the
same text or the same failure as escaping at the output, and on the way takes the same branches and
makes the same numbers of passes. -/
theorem Template.render_blockScope_eq_runEscapingAtOutput (t : Template) (config : Json)
    (year : Int) :
    t.render (blockScope config year) = (t.runEscapingAtOutput config year).result ∧
      Node.runAll Scope.view (.root (blockScope config year)) t.nodes =
        t.runEscapingAtOutput config year := by
  have hrun := t.runAll_view_blockScope config year
  refine ⟨?_, hrun⟩
  rw [t.render_eq_result_run, hrun]

end Pagesmith
