import Pagesmith.Page.Render
import Pagesmith.Proofs.Html.Inert
import Pagesmith.Proofs.Html.Sanitize
import Pagesmith.Proofs.Json.Fields
import Pagesmith.Proofs.Template.Run

/-!
# Blocks do not see each other

A page is put together from fragments, one for each block and in their order, and the fragment of a
block depends on nothing but the block. There are three ways to come by it (`Page.FragmentOf`): the
template of the block's type writes it to its end; or there is no such type, and it is a comment
that says so; or writing fails, and it is a comment that says that, whatever has been written by
then.

## Comments

The name of a type may be any text, also one that looks like the end of a comment. It is escaped, so
the comment has no angle bracket but the first and the last of its characters.
-/

namespace Pagesmith

namespace Html

/-- Whether `s` is one comment from its first to its last character, with no other bracket. -/
def IsComment (s : String) : Prop :=
  ∃ inner, s.toList = "<!-- ".toList ++ inner ++ " -->".toList ∧ '<' ∉ inner ∧ '>' ∉ inner

/-- Escaped text may stand anywhere in a comment. -/
theorem isComment_escape {opening closing : String} (before behind : List Char)
    (hopening : opening.toList = "<!-- ".toList ++ before)
    (hclosing : closing.toList = behind ++ " -->".toList)
    (hbefore : '<' ∉ before ∧ '>' ∉ before) (hbehind : '<' ∉ behind ∧ '>' ∉ behind) (s : String) :
    IsComment (opening ++ escape s ++ closing) := by
  have htext : (escape s).toList = escapeChars s.toList := String.toList_ofList
  have hescaped := (inert_escapeChars s.toList).noBracket
  refine ⟨before ++ escapeChars s.toList ++ behind, ?_, ?_, ?_⟩
  · rw [String.toList_append, String.toList_append, hopening, hclosing, htext]
    simp only [List.append_assoc]
  · rw [List.mem_append, List.mem_append, not_or, not_or]
    exact ⟨⟨hbefore.1, hescaped.1⟩, hbehind.1⟩
  · rw [List.mem_append, List.mem_append, not_or, not_or]
    exact ⟨⟨hbefore.2, hescaped.2⟩, hbehind.2⟩

end Html

namespace Page

theorem isComment_unknownMarker (name : String) : Html.IsComment (unknownMarker name) :=
  Html.isComment_escape "Unknown block type: ".toList [] rfl rfl (by decide) (by decide) name

theorem isComment_errorMarker (name : String) : Html.IsComment (errorMarker name) :=
  Html.isComment_escape "Error rendering ".toList " block".toList rfl rfl (by decide) (by decide)
    name

/-! ## One block -/

variable {r : Registry} {b : Block}

theorem renderBlock_of_find?_eq_none (year : Int) (h : r.find? b.type = none) :
    renderBlock r year b = .error (.unknownType b.type) := by
  rw [renderBlock, Registry.get, h]
  rfl

theorem renderBlock_of_find?_eq_some {t : CompiledType} (year : Int) (h : r.find? b.type = some t) :
    renderBlock r year b = (t.template.render (blockScope b.config year)).mapError
      fun cause ↦ .render t.definition.name cause.message := by
  rw [renderBlock, Registry.get, h]
  rfl

/-- How `b` comes by its fragment. -/
inductive FragmentOf (r : Registry) (year : Int) (b : Block) : String → Prop
  | text {t : CompiledType} {text : String} (hfind : r.find? b.type = some t)
    (hwrite : t.template.write (blockScope b.config year) = ⟨text, none⟩)
    (hrender : renderBlock r year b = .ok text) : FragmentOf r year b text
  | unknown (hcontains : r.contains b.type = false)
    (hrender : renderBlock r year b = .error (.unknownType b.type)) :
    FragmentOf r year b (unknownMarker b.type)
  /-- What has been written is not part of the fragment. -/
  | failed {t : CompiledType} {written : String} {cause : RenderCause}
    (hfind : r.find? b.type = some t)
    (hwrite : t.template.write (blockScope b.config year) = ⟨written, some cause⟩)
    (hrender : renderBlock r year b = .error (.render t.definition.name cause.message)) :
    FragmentOf r year b (errorMarker b.type)

theorem fragmentOf_fragment (r : Registry) (year : Int) (b : Block) :
    FragmentOf r year b (fragment r year b) := by
  cases hfind : r.find? b.type with
  | none =>
    have hcontains : r.contains b.type = false := by
      rw [Registry.contains, hfind, Option.isSome_none]
    have hrender := renderBlock_of_find?_eq_none year hfind
    rw [fragment, hrender]
    exact .unknown hcontains hrender
  | some t =>
    have hrender := renderBlock_of_find?_eq_some year hfind
    cases htemplate : t.template.render (blockScope b.config year) with
    | ok text =>
      rw [htemplate] at hrender
      rw [fragment, hrender]
      exact .text hfind (Template.render_eq_ok_iff_write.mp htemplate) hrender
    | error cause =>
      obtain ⟨written, hwrite⟩ := Template.render_eq_error_iff_write.mp htemplate
      rw [htemplate] at hrender
      rw [fragment, hrender]
      exact .failed hfind hwrite hrender

theorem FragmentOf.eq_fragment {year : Int} {s : String} (h : FragmentOf r year b s) :
    s = fragment r year b := by
  cases h with
  | text _ _ hrender => rw [fragment, hrender]
  | unknown _ hrender => rw [fragment, hrender]
  | failed _ _ hrender => rw [fragment, hrender]

/-! ## The page -/

theorem render_append (r : Registry) (year : Int) (xs ys : List Block) :
    render r year (xs ++ ys) = render r year xs ++ render r year ys := by
  rw [render, List.map_append, String.join_append, ← render, ← render]

theorem render_cons (r : Registry) (year : Int) (b : Block) (blocks : List Block) :
    render r year (b :: blocks) = fragment r year b ++ render r year blocks := by
  rw [render, List.map_cons, String.join_cons, ← render]

/-- **Isolation.** A page is the concatenation of its blocks' fragments. Of two lists of blocks the
pages follow each other, so a block that is put between two lists, or taken out, or exchanged for
another, makes no difference to the rest of the page. A fragment is the text of its block or, if
there is none, one of two comments, and nothing of a text that was left unfinished. -/
theorem render_isolates_blocks (r : Registry) (year : Int) :
    (∀ xs ys, render r year (xs ++ ys) = render r year xs ++ render r year ys) ∧
    (∀ blocks, ∃ fragments, List.Forall₂ (FragmentOf r year) blocks fragments ∧
      render r year blocks = String.join fragments) ∧
    (∀ xs b ys, ∀ s, FragmentOf r year b s →
      render r year (xs ++ b :: ys) = render r year xs ++ s ++ render r year ys) ∧
    ∀ name, Html.IsComment (unknownMarker name) ∧ Html.IsComment (errorMarker name) := by
  refine ⟨render_append r year, fun blocks ↦ ?_, fun xs b ys s hs ↦ ?_, fun name ↦ ?_⟩
  · refine ⟨blocks.map (fragment r year), ?_, rfl⟩
    rw [List.forall₂_map_right_iff, List.forall₂_same]
    intro b _
    exact fragmentOf_fragment r year b
  · rw [render_append, render_cons, hs.eq_fragment, String.append_assoc]
  · exact ⟨isComment_unknownMarker name, isComment_errorMarker name⟩

end Page

/-! ## The fields a template names

The first word of a path names a field of a value. A template is blind to every other field of the
object it is filled in against: two objects that agree on the named fields give the same text, or
fail for the same cause. For a block this means that its configuration may change in all other
fields, and, unless the template asks for the year, that any year is as good as another.

### What the template could still see

A name leads out of the objects that differ and into values that are the same, so whatever is found
behind a first word is equal. What is left are the paths without words, which lead to an outermost
object as a whole, at the top by `this` and from within an iteration by `../this`. They give nothing
away, because all objects answer alike: each counts as true, none has a text, and none can be
iterated over. -/

/-- The fields that a template names. A path without words leads to the value of a scope, and names
none. -/
def Template.namedFields (t : Template) : List String :=
  (Node.pathsAll t.nodes).filterMap fun path ↦ path.segments.head?

/-- Whether under each of `names` there is the same content on both sides, or none on either. -/
def AgreeOn (names : List String) (fields fields' : List (String × Json)) : Prop :=
  ∀ name ∈ names, fields.lookup name = fields'.lookup name

instance (names : List String) (fields fields' : List (String × Json)) :
    Decidable (AgreeOn names fields fields') :=
  List.decidableBAll _ names

/-! ### Values that cannot be told apart -/

namespace Json

/-- Values that are the same but for fields of the outermost object that have none of `names`. -/
inductive Alike (names : List String) : Json → Json → Prop
  | same (v : Json) : Alike names v v
  | objects {fields fields' : List (String × Json)} (h : AgreeOn names fields fields') :
    Alike names (.object fields) (.object fields')

namespace Alike

variable {names : List String} {v w : Json}

theorem rel_refl (x : Option Json) : Option.Rel (Alike names) x x := by
  cases x with
  | none => exact .none
  | some v => exact .some (.same v)

/-- **One step** by one of the names leads to the same place. -/
theorem step?_eq (h : Alike names v w) {name : String} (hname : name ∈ names) :
    v.step? name = w.step? name := by
  cases h with
  | same v => rfl
  | objects hagree => exact hagree name hname

/-- **Whole paths.** If there is a first word, what it leads to is the same. If there is none, the
values themselves are compared. -/
theorem walk (h : Alike names v w) {segments : List String}
    (hnamed : ∀ name ∈ segments.head?, name ∈ names) :
    Option.Rel (Alike names) (v.walk? segments) (w.walk? segments) := by
  cases segments with
  | nil => exact .some h
  | cons name segments =>
    have hstep : v.step? name = w.step? name := h.step?_eq (hnamed name rfl)
    have hwalk : v.walk? (name :: segments) = w.walk? (name :: segments) := by
      rw [walk?, walk?, List.foldlM_cons, List.foldlM_cons, hstep]
    rw [hwalk]
    exact rel_refl _

end Alike

end Json

/-! ### Scopes that cannot be told apart -/

namespace Scope

/-- Scopes whose values, and the values around them, cannot be told apart by `names`. -/
structure Alike (names : List String) (s t : Scope) : Prop where
  this : Json.Alike names s.this t.this
  parent : Option.Rel (Json.Alike names) s.parent t.parent

namespace Alike

variable {names : List String} {s t : Scope} {path : FieldPath}

theorem root {fields fields' : List (String × Json)} (h : AgreeOn names fields fields') :
    Alike names (.root (.object fields)) (.root (.object fields')) :=
  ⟨.objects h, .none⟩

/-- An item is the same on both sides. Only the scope around it may differ. -/
theorem child (h : Alike names s t) (item : Json) : Alike names (s.child item) (t.child item) :=
  ⟨.same item, .some h.this⟩

theorem lookup (h : Alike names s t) (hnamed : ∀ name ∈ path.segments.head?, name ∈ names) :
    Option.Rel (Json.Alike names) (s.lookup path) (t.lookup path) := by
  obtain ⟨root, segments⟩ := path
  cases root with
  | current => exact h.this.walk hnamed
  | parent =>
    obtain ⟨this, parent⟩ := s
    obtain ⟨this', parent'⟩ := t
    obtain ⟨-, hparent⟩ := h
    cases hparent with
    | none => exact .none
    | some hparent => exact hparent.walk hnamed

/-- What may be found on one side and on the other counts as true on both or on neither. -/
theorem isTruthy_lookup (h : Alike names s t)
    (hnamed : ∀ name ∈ path.segments.head?, name ∈ names) :
    isTruthy (s.lookup path) = isTruthy (t.lookup path) := by
  have hpath := h.lookup hnamed
  generalize s.lookup path = found, t.lookup path = found' at hpath ⊢
  cases hpath with
  | none => rfl
  | some hfound => cases hfound <;> rfl

theorem itemsAt_eq (h : Alike names s t) (hnamed : ∀ name ∈ path.segments.head?, name ∈ names) :
    s.itemsAt path = t.itemsAt path := by
  have hpath := h.lookup hnamed
  rw [Scope.itemsAt, Scope.itemsAt]
  generalize s.lookup path = found, t.lookup path = found' at hpath ⊢
  cases hpath with
  | none => rfl
  | some hfound => cases hfound <;> rfl

theorem textAt_eq (h : Alike names s t) (hnamed : ∀ name ∈ path.segments.head?, name ∈ names) :
    s.textAt path = t.textAt path := by
  have hpath := h.lookup hnamed
  rw [Scope.textAt, Scope.textAt]
  generalize s.lookup path = found, t.lookup path = found' at hpath ⊢
  cases hpath with
  | none => rfl
  | some hfound => cases hfound <;> rfl

theorem itemsAgree (h : Alike names s t) (hnamed : ∀ name ∈ path.segments.head?, name ∈ names) :
    View.ItemsAgree (Alike names) (Scope.view.itemsAt s path) (Scope.view.itemsAt t path) := by
  show View.ItemsAgree _ ((s.itemsAt path).map fun items ↦ items.map s.child)
    ((t.itemsAt path).map fun items ↦ items.map t.child)
  rw [h.itemsAt_eq hnamed]
  cases t.itemsAt path with
  | error cause => exact .error cause
  | ok items =>
    refine .ok ?_
    rw [List.forall₂_map_left_iff, List.forall₂_map_right_iff, List.forall₂_same]
    exact fun item _ ↦ h.child item

/-- About a path whose first word is one of the names, if it has words, both scopes answer alike. -/
theorem agreesAt (hnamed : ∀ name ∈ path.segments.head?, name ∈ names) :
    Scope.view.AgreesAt Scope.view (Alike names) path where
  isTrue h := h.isTruthy_lookup hnamed
  itemsAt h := h.itemsAgree hnamed
  textAt h := h.textAt_eq hnamed

end Alike

end Scope

/-! ### Templates -/

namespace Template

variable {t : Template}

theorem head_mem_namedFields {path : FieldPath} (hpath : path ∈ Node.pathsAll t.nodes) :
    ∀ name ∈ path.segments.head?, name ∈ t.namedFields :=
  fun _ hname ↦ List.mem_filterMap.mpr ⟨path, hpath, hname⟩

/-- Objects that agree on the named fields are filled in alike. -/
theorem render_eq_of_agreeOn {fields fields' : List (String × Json)}
    (h : AgreeOn t.namedFields fields fields') :
    t.render (.object fields) = t.render (.object fields') := by
  have hagree : ∀ path ∈ Node.pathsAll t.nodes,
      Scope.view.AgreesAt Scope.view (Scope.Alike t.namedFields) path := fun path hpath ↦
    Scope.Alike.agreesAt (head_mem_namedFields hpath)
  rw [render_eq_result_run, render_eq_result_run,
    Node.runAll_eq_of_agreesAt t.nodes hagree (Scope.Alike.root h)]

end Template

/-! ### Blocks -/

/-- The fields that `blockScope` has for an object with these fields. -/
def blockFields (fields : List (String × Json)) (year : Int) : List (String × Json) :=
  insertField jsonConfigField (.string (Json.object fields).text)
    (insertField yearField (.int year) (Json.sanitizeFields fields))

theorem blockScope_object (fields : List (String × Json)) (year : Int) :
    blockScope (.object fields) year = .object (blockFields fields year) := rfl

/-- A field is escaped on its own. So configurations that agree on some names still do when they
have been escaped, unless one of the names is that of the unescaped configuration. -/
theorem AgreeOn.blockFields {names : List String} {fields fields' : List (String × Json)}
    {year year' : Int} (h : AgreeOn names fields fields') (hjson : jsonConfigField ∉ names)
    (hyear : yearField ∈ names → year = year') :
    AgreeOn names (blockFields fields year) (blockFields fields' year') := by
  intro name hname
  have hne : name ≠ jsonConfigField := fun heq ↦ hjson (heq ▸ hname)
  rw [Pagesmith.blockFields, Pagesmith.blockFields, lookup_insertField_of_ne hne,
    lookup_insertField_of_ne hne]
  by_cases hname' : name = yearField
  · have heq : year = year' := hyear (hname' ▸ hname)
    rw [hname', lookup_insertField_self, lookup_insertField_self, heq]
  · rw [lookup_insertField_of_ne hname', lookup_insertField_of_ne hname',
      Json.lookup_sanitizeFields, Json.lookup_sanitizeFields, h name hname]

namespace Page

theorem renderBlock_eq_of_agreeOn {r : Registry} {name : String} {t : CompiledType}
    (hfind : r.find? name = some t) (hjson : jsonConfigField ∉ t.template.namedFields)
    {fields fields' : List (String × Json)} (h : AgreeOn t.template.namedFields fields fields')
    {year year' : Int} (hyear : yearField ∈ t.template.namedFields → year = year') :
    renderBlock r year ⟨name, .object fields⟩ = renderBlock r year' ⟨name, .object fields'⟩ := by
  have hrender : t.template.render (blockScope (.object fields) year) =
      t.template.render (blockScope (.object fields') year') := by
    rw [blockScope_object, blockScope_object]
    exact Template.render_eq_of_agreeOn (h.blockFields hjson hyear)
  rw [renderBlock_of_find?_eq_some (b := ⟨name, .object fields⟩) year hfind,
    renderBlock_of_find?_eq_some (b := ⟨name, .object fields'⟩) year' hfind, hrender]

/-- **Only what is named.** Objects that agree on the fields a template names are filled in alike.
So are blocks of a type, in any two years, if the template does not name the unescaped configuration
and does not name the year, or the years are the same. -/
theorem sees_only_namedFields (t : Template) :
    (∀ fields fields', AgreeOn t.namedFields fields fields' →
      t.render (.object fields) = t.render (.object fields')) ∧
    ∀ (r : Registry) (name : String) (definition : BlockType),
      r.find? name = some ⟨definition, t⟩ → jsonConfigField ∉ t.namedFields →
      ∀ fields fields', AgreeOn t.namedFields fields fields' →
      ∀ year year', (yearField ∈ t.namedFields → year = year') →
      renderBlock r year ⟨name, .object fields⟩ = renderBlock r year' ⟨name, .object fields'⟩ := by
  refine ⟨fun fields fields' h ↦ Template.render_eq_of_agreeOn h, ?_⟩
  intro r name definition hfind hjson fields fields' h year year' hyear
  exact renderBlock_eq_of_agreeOn hfind hjson h hyear

/-- A template that names `tags`, and from within the iteration asks for the whole of what it is
filled in against. -/
def tagsTemplate : Template :=
  ⟨[.iteration ⟨.current, ["tags"]⟩
    [.conditional ⟨.parent, []⟩ [.text "#", .field ⟨.current, []⟩] []]]⟩

def tagsRegistry : Registry where
  types := [("tags",
    { definition :=
        { name := "tags"
          category := ""
          template := "\x7b\x7b#each tags\x7d\x7d\x7b\x7b#if ../this\x7d\x7d#" ++
            "\x7b\x7bthis\x7d\x7d\x7b\x7b/if\x7d\x7d\x7b\x7b/each\x7d\x7d"
          defaultConfig := emptyConfig
          schema := .null
          enabled := true }
      template := tagsTemplate })]

/-- A note beside the tags, and the year, are not seen. -/
theorem tags_do_not_see_notes :
    let tags := ("tags", Json.array [.string "a", .string "b"])
    let notes := ("notes", Json.string "draft")
    AgreeOn tagsTemplate.namedFields [tags] [notes, tags] ∧
      jsonConfigField ∉ tagsTemplate.namedFields ∧ yearField ∉ tagsTemplate.namedFields ∧
      tagsTemplate.render (.object [tags]) = tagsTemplate.render (.object [notes, tags]) ∧
      renderBlock tagsRegistry 2024 ⟨"tags", .object [tags]⟩ =
        renderBlock tagsRegistry 2025 ⟨"tags", .object [notes, tags]⟩ := by
  have hnames : tagsTemplate.namedFields = ["tags"] := by decide
  have hjson : jsonConfigField ∉ tagsTemplate.namedFields := by rw [hnames]; decide
  have hyear : yearField ∉ tagsTemplate.namedFields := by rw [hnames]; decide
  have hagree : AgreeOn tagsTemplate.namedFields [("tags", .array [.string "a", .string "b"])]
      [("notes", .string "draft"), ("tags", .array [.string "a", .string "b"])] := by decide
  obtain ⟨hrender, hblock⟩ := sees_only_namedFields tagsTemplate
  exact ⟨hagree, hjson, hyear, hrender _ _ hagree,
    hblock tagsRegistry "tags" _ rfl hjson _ _ hagree 2024 2025 fun h ↦ absurd h hyear⟩

end Page

end Pagesmith
