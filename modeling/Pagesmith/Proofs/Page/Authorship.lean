import Pagesmith.Page.Render
import Pagesmith.Proofs.Decimal.Characters
import Pagesmith.Proofs.Page.EscapeAtOutput

/-!
# Who writes the markup of a page

Blocks come from tenants and templates from administrators. If no template puts out a field whose
strings are trusted, every page is made of *pieces* (`Piece`), and a piece is a text of some
template, or it is inserted data, or it is a comment in place of a block, with the block's type
inserted. Whatever is inserted is inert. So all markup of a page was written by the author of a
template or belongs to such a comment, for every list of blocks and whatever their types and
configurations are.

The condition `PutsOutNoTrusted` is on the fields that templates put out, and on their names alone:
it may be asked how long a trusted list is or whether a trusted text is empty, since that puts
nothing out.
-/

namespace Pagesmith

/-! ## Pieces -/

/-- What pages are made of. -/
inductive Piece
  | authored (s : String)
  | escaped (raw : String)
  | comma
  | number (n : Number)
  | boolean (b : Bool)
  | unknownMarker (blockType : String)
  | errorMarker (blockType : String)

namespace Piece

/-- What a piece inserts: everything in it that is neither from a template nor the frame of a
comment. -/
def inserted : Piece → String
  | authored _ => ""
  | escaped raw => Html.escape raw
  | comma => ","
  | number n => String.ofList n.templateText
  | boolean b => if b then "true" else "false"
  | unknownMarker blockType => Html.escape blockType
  | errorMarker blockType => Html.escape blockType

/-- What stands in front of what is `inserted`. -/
def before : Piece → String
  | authored s => s
  | unknownMarker _ => "<!-- Unknown block type: "
  | errorMarker _ => "<!-- Error rendering "
  | _ => ""

/-- What stands behind what is `inserted`. -/
def behind : Piece → String
  | unknownMarker _ => " -->"
  | errorMarker _ => " block -->"
  | _ => ""

def text (p : Piece) : String := p.before ++ p.inserted ++ p.behind

theorem not_mem_markup_of_isNumeric {c : Char} (h : IsNumeric c) : c ∉ Html.markup := by
  rcases h with hdigit | hsign
  · intro hmem
    have hall : ∀ d ∈ Html.markup, d.isDigit = false := by simp [Html.markup]
    rw [hall c hmem] at hdigit
    contradiction
  · have hall : ∀ d ∈ ['-', '+', '.', 'e'], d ∉ Html.markup := by simp [Html.markup]
    exact hall c hsign

theorem inert_inserted (p : Piece) : Html.Inert p.inserted.toList := by
  have hescape : ∀ s, Html.Inert (Html.escape s).toList := by
    intro s
    rw [Html.escape, String.toList_ofList]
    exact Html.inert_escapeChars s.toList
  cases p with
  | authored s => exact Html.inert_nil
  | escaped raw => exact hescape raw
  | comma => exact Html.inert_of_not_mem (by simp [inserted, Html.markup])
  | number n =>
    rw [inserted, String.toList_ofList]
    exact Html.inert_of_not_mem fun c hc ↦
      not_mem_markup_of_isNumeric (n.allNumeric_templateText c hc)
  | boolean b => cases b <;> exact Html.inert_of_not_mem (by simp [inserted, Html.markup])
  | unknownMarker blockType => exact hescape blockType
  | errorMarker blockType => exact hescape blockType

end Piece

/-! ## Texts made of pieces -/

/-- Whether `s` is made of pieces that are `allowed`. -/
def MadeOf (allowed : Piece → Prop) (s : String) : Prop :=
  ∃ pieces : List Piece, s = String.join (pieces.map Piece.text) ∧ ∀ p ∈ pieces, allowed p

namespace MadeOf

variable {allowed : Piece → Prop}

theorem closedUnderAppend : ClosedUnderAppend (MadeOf allowed) where
  nil := ⟨[], rfl, fun _ h ↦ absurd h List.not_mem_nil⟩
  append := by
    rintro s t ⟨ps, rfl, hps⟩ ⟨qs, rfl, hqs⟩
    refine ⟨ps ++ qs, ?_, ?_⟩
    · rw [List.map_append, String.join_append]
    · intro p hp
      rcases List.mem_append.mp hp with h | h
      · exact hps p h
      · exact hqs p h

theorem single {p : Piece} (hp : allowed p) : MadeOf allowed p.text := by
  refine ⟨[p], ?_, ?_⟩
  · rw [List.map_singleton, String.join_cons, String.join_nil, String.append_empty]
  · rintro q hq
    rw [List.mem_singleton.mp hq]
    exact hp

theorem data {p : Piece} (hp : allowed p) (hbefore : p.before = "") (hbehind : p.behind = "") :
    MadeOf allowed p.inserted := by
  have htext : p.text = p.inserted := by
    rw [Piece.text, hbefore, hbehind, String.empty_append, String.append_empty]
  rw [← htext]
  exact single hp

theorem join {texts : List String} (h : ∀ s ∈ texts, MadeOf allowed s) :
    MadeOf allowed (String.join texts) := by
  induction texts with
  | nil => exact closedUnderAppend.nil
  | cons s texts ih =>
    rw [String.join_cons]
    refine closedUnderAppend.append (h s List.mem_cons_self) (ih ?_)
    exact fun t ht ↦ h t (List.mem_cons_of_mem s ht)

theorem intercalate (hcomma : allowed .comma) {texts : List String}
    (h : ∀ s ∈ texts, MadeOf allowed s) : MadeOf allowed (",".intercalate texts) := by
  induction texts with
  | nil => exact closedUnderAppend.nil
  | cons s texts ih =>
    have hs := h s List.mem_cons_self
    have htexts := ih fun t ht ↦ h t (List.mem_cons_of_mem s ht)
    cases texts with
    | nil =>
      rw [String.intercalate_singleton]
      exact hs
    | cons t texts =>
      rw [String.intercalate_cons_cons]
      exact closedUnderAppend.append
        (closedUnderAppend.append hs (data hcomma rfl rfl)) htexts

end MadeOf

/-! ## What fields put out -/

/-- Whether `path` leads into a field whose strings are trusted. -/
def FieldPath.EndsTrusted (path : FieldPath) : Prop :=
  path.segments.getLast? = some Html.trustedField ∨ path.segments.getLast? = some jsonConfigField

namespace FoundValue

variable {allowed : Piece → Prop}

theorem madeOf_itemText? (hdata : ∀ p : Piece, (∀ s, p ≠ .authored s) → allowed p) {x : Json}
    {s : String} (h : itemText? x = some s) : MadeOf allowed s := by
  cases x with
  | null =>
    cases h
    exact MadeOf.closedUnderAppend.nil
  | bool b =>
    have hpiece : MadeOf allowed (Piece.boolean b).inserted := .data (hdata _ nofun) rfl rfl
    cases b <;> cases h <;> exact hpiece
  | number n =>
    cases h
    exact .data (hdata (.number n) nofun) rfl rfl
  | string raw =>
    cases h
    exact .data (hdata (.escaped raw) nofun) rfl rfl
  | array items => contradiction
  | object fields => contradiction

theorem exists_of_mem_mapM {items : List Json} {texts : List String}
    (h : items.mapM itemText? = some texts) {s : String} (hs : s ∈ texts) :
    ∃ x ∈ items, itemText? x = some s := by
  induction items generalizing texts with
  | nil =>
    cases h
    contradiction
  | cons x items ih =>
    rw [List.mapM_cons] at h
    obtain ⟨t, ht, h⟩ := Option.bind_eq_some_iff.mp h
    obtain ⟨rest, hrest, h⟩ := Option.bind_eq_some_iff.mp h
    cases h
    rcases List.mem_cons.mp hs with rfl | hmem
    · exact ⟨x, List.mem_cons_self, ht⟩
    · obtain ⟨y, hy, hys⟩ := ih hrest hmem
      exact ⟨y, List.mem_cons_of_mem x hy, hys⟩

/-- A value that was not reached with trust is put out as data. -/
theorem madeOf_text (hdata : ∀ p : Piece, (∀ s, p ≠ .authored s) → allowed p) {f : FoundValue}
    (hf : f.reached ≠ .trusted) {s : String} (h : f.text = .ok s) : MadeOf allowed s := by
  obtain ⟨v, r⟩ := f
  cases v with
  | string raw =>
    have htext : (⟨.string raw, r⟩ : FoundValue).text = .ok (Html.escape raw) :=
      congrArg Except.ok (if_neg hf)
    rw [htext] at h
    cases h
    exact .data (hdata (.escaped raw) nofun) rfl rfl
  | array items =>
    simp only [text] at h
    split at h
    · next parts hparts =>
      cases h
      refine .intercalate (hdata .comma nofun) fun t ht ↦ ?_
      obtain ⟨x, -, hx⟩ := exists_of_mem_mapM hparts ht
      exact madeOf_itemText? hdata hx
    · contradiction
  | null =>
    cases h
    exact MadeOf.closedUnderAppend.nil
  | bool b =>
    have hb : itemText? (.bool b) = some s := by
      cases b <;> cases h <;> rfl
    exact madeOf_itemText? hdata hb
  | number n =>
    cases h
    exact .data (hdata (.number n) nofun) rfl rfl
  | object fields => contradiction

/-! ### Paths -/

theorem below_ne_trusted (f : FoundValue) {segment : String}
    (hcontent : segment ≠ Html.trustedField) (hjson : segment ≠ jsonConfigField) :
    f.below segment ≠ .trusted := by
  rw [below]
  split
  · split
    · next h =>
      rcases h with h | h
      · exact absurd h hcontent
      · exact absurd h.2 hjson
    · decide
  · decide

/-- Trust is gained by the last step of a path or not at all. -/
theorem reached_ne_trusted_of_walk {segments : List String} {f g : FoundValue}
    (hf : f.reached ≠ .trusted) (hcontent : segments.getLast? ≠ some Html.trustedField)
    (hjson : segments.getLast? ≠ some jsonConfigField) (h : f.walk? segments = some g) :
    g.reached ≠ .trusted := by
  -- only the last step can bring trust, so the path is taken apart from its end
  rcases List.eq_nil_or_concat segments with rfl | ⟨init, last, rfl⟩
  · cases h
    exact hf
  · rw [List.concat_eq_append, List.getLast?_concat] at hcontent hjson
    rw [walk?, List.concat_eq_append, List.foldlM_append] at h
    obtain ⟨k, -, h⟩ := Option.bind_eq_some_iff.mp h
    rw [List.foldlM_cons] at h
    obtain ⟨k', hstep, h⟩ := Option.bind_eq_some_iff.mp h
    cases h
    obtain ⟨x, -, rfl⟩ := Option.map_eq_some_iff.mp hstep
    exact k.below_ne_trusted (fun h ↦ hcontent (congrArg some h)) fun h ↦ hjson (congrArg some h)

end FoundValue

/-- Scopes whose values were not reached with trust. All scopes of a run are of this kind, because
the whole configuration is one value and items are reached without trust. -/
structure FoundScope.Untrusted (s : FoundScope) : Prop where
  this : s.this.reached ≠ .trusted
  parent : ∀ f, s.parent = some f → f.reached ≠ .trusted

namespace FoundScope

theorem untrusted_root (value : Json) : (root value).Untrusted :=
  ⟨fun h ↦ Reached.noConfusion h, nofun⟩

theorem Untrusted.child {s : FoundScope} (hs : s.Untrusted) (item : Json) :
    (s.child item).Untrusted := by
  refine ⟨fun h ↦ Reached.noConfusion h, ?_⟩
  rintro f hf
  cases hf
  exact hs.this

theorem Untrusted.itemsAt {s : FoundScope} (hs : s.Untrusted) (path : FieldPath)
    (items : List FoundScope) (h : s.itemsAt path = .ok items) :
    ∀ item ∈ items, item.Untrusted := by
  rw [FoundScope.itemsAt] at h
  split at h
  · cases h
    exact fun _ h ↦ absurd h List.not_mem_nil
  · cases h
    exact fun _ h ↦ absurd h List.not_mem_nil
  · cases h
    intro item hitem
    obtain ⟨x, -, rfl⟩ := List.mem_map.mp hitem
    exact hs.child x
  · contradiction

theorem Untrusted.lookup {s : FoundScope} (hs : s.Untrusted) {path : FieldPath}
    (hpath : ¬path.EndsTrusted) {f : FoundValue} (h : s.lookup path = some f) :
    f.reached ≠ .trusted := by
  have hcontent : path.segments.getLast? ≠ some Html.trustedField := fun h ↦ hpath (.inl h)
  have hjson : path.segments.getLast? ≠ some jsonConfigField := fun h ↦ hpath (.inr h)
  rw [FoundScope.lookup] at h
  split at h
  · exact FoundValue.reached_ne_trusted_of_walk hs.this hcontent hjson h
  · obtain ⟨g, hg, h⟩ := Option.bind_eq_some_iff.mp h
    exact FoundValue.reached_ne_trusted_of_walk (hs.parent g hg) hcontent hjson h

/-- A field whose path does not end with trust puts out data. -/
theorem Untrusted.madeOf_textAt {allowed : Piece → Prop}
    (hdata : ∀ p : Piece, (∀ s, p ≠ .authored s) → allowed p) {s : FoundScope} (hs : s.Untrusted)
    {path : FieldPath} (hpath : ¬path.EndsTrusted) {text : String}
    (h : s.textAt path = .ok text) : MadeOf allowed text := by
  rw [textAt] at h
  split at h
  · cases h
    exact MadeOf.closedUnderAppend.nil
  · next f hf =>
    cases htext : f.text with
    | error fault =>
      rw [htext] at h
      contradiction
    | ok s =>
      rw [htext] at h
      cases h
      exact FoundValue.madeOf_text hdata (hs.lookup hpath hf) htext

end FoundScope

/-! ## Pages -/

namespace Registry

/-- Whether `s` stands in the template of a type of `r`. -/
def HasText (r : Registry) (s : String) : Prop :=
  ∃ entry ∈ r.types, .text s ∈ Node.leavesAll entry.2.template.nodes

/-- Whether no template of `r` puts out a field whose path `EndsTrusted`. -/
def PutsOutNoTrusted (r : Registry) : Prop :=
  ∀ entry ∈ r.types, ∀ path, .field path ∈ Node.leavesAll entry.2.template.nodes →
    ¬path.EndsTrusted

theorem mem_types_of_find? {r : Registry} {name : String} {t : CompiledType}
    (h : r.find? name = some t) : (name, t) ∈ r.types := by
  obtain ⟨front, back, heq, -⟩ := List.lookup_eq_some_iff.mp h
  rw [heq]
  exact List.mem_append_right front List.mem_cons_self

end Registry

/-- A piece of a page may be authored only if it stands in a template. -/
def Piece.AllowedIn (r : Registry) (p : Piece) : Prop := ∀ s, p = .authored s → r.HasText s

namespace Piece

variable {r : Registry}

theorem allowedIn_of_data {p : Piece} (hp : ∀ s, p ≠ .authored s) : p.AllowedIn r :=
  fun s h ↦ absurd h (hp s)

theorem madeOf_authored {s : String} (hs : r.HasText s) : MadeOf (AllowedIn r) s := by
  have hallowed : (authored s).AllowedIn r := by
    rintro t ht
    cases ht
    exact hs
  have hself : (authored s).text = s := by
    show s ++ "" ++ "" = s
    rw [String.append_empty, String.append_empty]
  rw [← hself]
  exact .single hallowed

end Piece

namespace Page

variable {r : Registry}

/-- A block has a text if its type is known and the type's template comes to one. -/
theorem renderBlock_eq_ok_iff {year : Int} {b : Block} {text : String} :
    renderBlock r year b = .ok text ↔ ∃ t, r.find? b.type = some t ∧
      t.template.render (blockScope b.config year) = .ok text := by
  rw [renderBlock, Registry.get]
  cases r.find? b.type with
  | none =>
    constructor
    · intro h
      contradiction
    · rintro ⟨t, ht, -⟩
      contradiction
  | some t =>
    show Except.mapError _ (t.template.render (blockScope b.config year)) = .ok text ↔ _
    constructor
    · intro h
      cases hrender : t.template.render (blockScope b.config year) with
      | error cause =>
        rw [hrender] at h
        contradiction
      | ok s =>
        rw [hrender] at h
        cases h
        exact ⟨t, rfl, hrender⟩
    · rintro ⟨t', ht', hrender⟩
      cases ht'
      rw [hrender]
      rfl

/-- The text of a block is made of what its template says and of data. -/
theorem madeOf_render (hr : r.PutsOutNoTrusted) {name : String} {t : CompiledType}
    (ht : r.find? name = some t) (config : Json) (year : Int) {text : String}
    (h : t.template.render (blockScope config year) = .ok text) :
    MadeOf (Piece.AllowedIn r) text := by
  have hmem := r.mem_types_of_find? ht
  have hleaves : Node.LeavesComeTo FoundScope.view FoundScope.Untrusted
      (MadeOf (Piece.AllowedIn r)) (Node.leavesAll t.template.nodes) := by
    refine ⟨fun s hs ↦ Piece.madeOf_authored ⟨(name, t), hmem, hs⟩, ?_⟩
    intro path hpath s hs text htext
    have hends : ¬path.EndsTrusted := hr (name, t) hmem path hpath
    exact hs.madeOf_textAt (fun p hp ↦ p.allowedIn_of_data hp) hends htext
  -- escaping at the output, a text is judged where it is put out, whatever the scope holds
  rw [t.template.render_eq_result_run, t.template.runAll_view_blockScope] at h
  exact Node.comesTo_runAll MadeOf.closedUnderAppend (fun s hs ↦ hs.itemsAt) t.template.nodes
    hleaves _ (FoundScope.untrusted_root _) text h

theorem madeOf_fragment (hr : r.PutsOutNoTrusted) (year : Int) (b : Block) :
    MadeOf (Piece.AllowedIn r) (fragment r year b) := by
  rw [fragment]
  split
  · next text h =>
    obtain ⟨t, ht, hrender⟩ := renderBlock_eq_ok_iff.mp h
    exact madeOf_render hr ht b.config year hrender
  · next name h => exact .single (p := .unknownMarker name) (Piece.allowedIn_of_data nofun)
  · exact .single (p := .errorMarker b.type) (Piece.allowedIn_of_data nofun)

/-- **No markup from blocks.** If no template puts out a field whose strings are trusted, every page
is made of pieces. What is authored in them stands in a template, and what they insert is inert. -/
theorem render_eq_join_pieces (hr : r.PutsOutNoTrusted) (year : Int) (blocks : List Block) :
    ∃ pieces : List Piece, render r year blocks = String.join (pieces.map Piece.text) ∧
      ∀ p ∈ pieces, p.AllowedIn r ∧ Html.Inert p.inserted.toList := by
  have hfragments : ∀ s ∈ blocks.map (fragment r year), MadeOf (Piece.AllowedIn r) s := by
    rintro s hs
    obtain ⟨b, -, rfl⟩ := List.mem_map.mp hs
    exact madeOf_fragment hr year b
  obtain ⟨pieces, htext, hpieces⟩ := MadeOf.join hfragments
  exact ⟨pieces, htext, fun p hp ↦ ⟨hpieces p hp, p.inert_inserted⟩⟩

/-- One type, which puts out the items under a name that is trusted. -/
def listRegistry : Registry where
  types := [("list",
    { definition :=
        { name := "list"
          category := ""
          template := "\x7b\x7b#each content\x7d\x7d<li>\x7b\x7bthis\x7d\x7d\x7b\x7b/each\x7d\x7d"
          defaultConfig := emptyConfig
          schema := .null
          enabled := true }
      template := ⟨[.iteration ⟨.current, ["content"]⟩ [.text "<li>", .field ⟨.current, []⟩]]⟩ })]

theorem listRegistry_putsOutNoTrusted : listRegistry.PutsOutNoTrusted := by
  rintro entry hentry path hpath hends
  rw [List.mem_singleton.mp hentry] at hpath
  have hthis : path = ⟨.current, []⟩ := by
    simpa [Node.leavesAll, Node.leaves] using hpath
  rw [hthis] at hends
  rcases hends with h | h <;> contradiction

/-- A hostile item is no exception. -/
theorem render_listRegistry_eq_join_pieces :
    listRegistry.PutsOutNoTrusted ∧
      ∃ pieces : List Piece,
        render listRegistry 2024 [⟨"list", .object [("content", .array [.string "<b>"])]⟩] =
          String.join (pieces.map Piece.text) ∧
        ∀ p ∈ pieces, p.AllowedIn listRegistry ∧ Html.Inert p.inserted.toList :=
  ⟨listRegistry_putsOutNoTrusted, render_eq_join_pieces listRegistry_putsOutNoTrusted 2024 _⟩

end Page

end Pagesmith
