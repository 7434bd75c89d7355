import Mathlib.Data.List.Nodup
import Pagesmith.Page.Render
import Pagesmith.Proofs.Page.ThemeLeaves

/-!
# The names of a theme's properties

The name of a property is made of the keys on the way to its leaf, joined with hyphens, and a key
may have hyphens itself. So a name does not tell where one key ends and the next begins: it tells
the *words* of the way, which are its keys cut at every hyphen, and two leaves declare one name
exactly if their words are the same.

## Where two ways part

Two ways with the same words go together up to some object and leave it by different keys. The words
go on alike there, so one of the two keys begins with the whole of the other and goes on with a
hyphen. An object that has both `a` and `a-b` is therefore behind every name that is declared twice,
and settings without such an object declare no name twice.
-/

namespace Pagesmith

/-! ## Ways through a value -/

namespace Json

theorem leads_append_iff {v x : Json} {above keys : List String} :
    v.Leads (above ++ keys) x ↔ ∃ w, v.Leads above w ∧ w.Leads keys x := by
  induction above generalizing v with
  | nil =>
    constructor
    · exact fun h ↦ ⟨v, .here v, h⟩
    · rintro ⟨w, ⟨⟩, h⟩
      exact h
  | cons key above ih =>
    constructor
    · intro h
      cases h with
      | into hfield h =>
        obtain ⟨w, habove, hkeys⟩ := ih.mp h
        exact ⟨w, .into hfield habove, hkeys⟩
    · rintro ⟨w, h, hkeys⟩
      cases h with
      | into hfield habove => exact .into hfield (ih.mpr ⟨w, habove, hkeys⟩)

/-- In a sorted value a way leads to one place only. -/
theorem Sorted.leads_unique {v x y : Json} (hv : v.Sorted) {keys : List String}
    (hx : v.Leads keys x) (hy : v.Leads keys y) : x = y := by
  induction hx with
  | here v =>
    cases hy
    rfl
  | into hfield _ ih =>
    cases hv with
    | object hfields hcontents =>
      cases hy with
      | into hfield' hy =>
        have hsame := (hfields.mem_iff.mp hfield).symm.trans (hfields.mem_iff.mp hfield')
        cases hsame
        exact ih (hcontents _ hfield) hy

def fieldNames (v : Json) : List String := v.fields.map Prod.fst

/-- Where two ways through a sorted value part there is an object with the next key of either. -/
theorem Sorted.exists_of_parting {v x y : Json} (hv : v.Sorted) {above p q : List String}
    {key key' : String} (hx : v.Leads (above ++ key :: p) x) (hy : v.Leads (above ++ key' :: q) y) :
    ∃ w, v.Leads above w ∧ key ∈ w.fieldNames ∧ key' ∈ w.fieldNames := by
  obtain ⟨w, hw, hx⟩ := leads_append_iff.mp hx
  obtain ⟨w', hw', hy⟩ := leads_append_iff.mp hy
  obtain rfl := hv.leads_unique hw hw'
  cases hx with
  | into hfield _ =>
    cases hy with
    | into hfield' _ =>
      exact ⟨_, hw, List.mem_map_of_mem hfield, List.mem_map_of_mem hfield'⟩

end Json

namespace Theme

/-! ## Words -/

/-- The words of a leaf: the keys on the way to it, cut at every hyphen. -/
def Leaf.words (l : Leaf) : List (List Char) :=
  l.keys.flatMap fun key ↦ Text.splitWhere (· == '-') key.toList

/-- The name of the property that a leaf declares. -/
def Leaf.name (l : Leaf) : String := "-".intercalate l.keys

theorem splitWhere_joined {keys : List String} (hne : keys ≠ []) :
    Text.splitWhere (· == '-') ("-".intercalate keys).toList =
      keys.flatMap fun key ↦ Text.splitWhere (· == '-') key.toList := by
  induction keys with
  | nil => exact absurd rfl hne
  | cons key keys ih =>
    rw [List.flatMap_cons]
    by_cases hlast : keys = []
    · rw [hlast, String.intercalate_singleton, List.flatMap_nil, List.append_nil]
    · have hhyphen : ('-' == '-') = true := rfl
      rw [← ih hlast, String.intercalate_cons_of_ne_nil hlast, String.toList_append,
        String.toList_append, List.append_assoc, Text.splitWhere_eq_splitOnP,
        Text.splitWhere_eq_splitOnP, Text.splitWhere_eq_splitOnP]
      exact List.splitOnP_append_cons _ _ hhyphen

/-- **A name tells the words of its leaf** and nothing else. -/
theorem name_eq_name_iff {l m : Leaf} (hl : l.keys ≠ []) (hm : m.keys ≠ []) :
    l.name = m.name ↔ l.words = m.words := by
  rw [Leaf.words, Leaf.words, ← splitWhere_joined hl, ← splitWhere_joined hm, ← Leaf.name,
    ← Leaf.name]
  constructor
  · intro h
    rw [h]
  · intro h
    rw [Text.splitWhere_eq_splitOnP, Text.splitWhere_eq_splitOnP, ← List.splitOn_eq_splitOnP,
      ← List.splitOn_eq_splitOnP] at h
    have hname : ['-'].intercalate (l.name.toList.splitOn '-') = l.name.toList :=
      List.intercalate_splitOn '-'
    rw [h, List.intercalate_splitOn] at hname
    exact (String.toList_inj.mp hname).symm

/-! ## Where two ways part -/

/-- Whether `key'` begins with the whole of `key` and goes on with a hyphen. -/
def Continues (key key' : String) : Prop := ∃ more, key' = key ++ "-" ++ more

theorem continues_iff {key key' : String} :
    Continues key key' ↔ (key ++ "-").toList <+: key'.toList := by
  constructor
  · rintro ⟨more, rfl⟩
    exact ⟨more.toList, String.toList_append.symm⟩
  · rintro ⟨more, hmore⟩
    refine ⟨String.ofList more, String.toList_inj.mp ?_⟩
    rw [String.toList_append, String.toList_ofList, hmore]

instance (key key' : String) : Decidable (Continues key key') :=
  decidable_of_iff _ continues_iff.symm

/-- What stands behind a key in a name whose way goes on with `keys`. -/
def behind (keys : List String) : List Char :=
  if keys = [] then [] else '-' :: ("-".intercalate keys).toList

theorem behind_cons (key : String) (keys : List String) :
    behind (key :: keys) = '-' :: (key.toList ++ behind keys) := by
  rw [behind, if_neg (List.cons_ne_nil key keys), behind]
  split
  · next h => rw [h, String.intercalate_singleton, List.append_nil]
  · next h =>
    rw [String.intercalate_cons_of_ne_nil h, String.toList_append, String.toList_append,
      List.append_assoc]
    rfl

theorem eq_hyphen_of_mem_head? {keys : List String} {c : Char} (h : c ∈ (behind keys).head?) :
    c = '-' := by
  cases keys with
  | nil => exact absurd h (Option.not_mem_none c)
  | cons key keys =>
    rw [behind_cons] at h
    exact (Option.some.inj h).symm

/-- A key that another begins with is continued by it, if what is behind the key in a name begins
with the rest of the other. -/
theorem continues_of_append {key key' : String} {keys : List String} {more rest : List Char}
    (hne : key ≠ key') (hkey : key'.toList = key.toList ++ more)
    (hrest : behind keys = more ++ rest) : Continues key key' := by
  cases more with
  | nil =>
    rw [List.append_nil] at hkey
    exact absurd (String.toList_inj.mp hkey).symm hne
  | cons c more =>
    have hhead : c ∈ (behind keys).head? := by
      rw [hrest]
      rfl
    obtain rfl : c = '-' := eq_hyphen_of_mem_head? hhead
    exact continues_iff.mpr ⟨more, by simp [hkey]⟩

/-- Two different ways with one name go together for a while and part at two keys of which one
continues the other. -/
theorem exists_parting {p q : List String} (hne : p ≠ q) (h : behind p = behind q) :
    ∃ above key key' p' q', p = above ++ key :: p' ∧ q = above ++ key' :: q' ∧
      (Continues key key' ∨ Continues key' key) := by
  induction p generalizing q with
  | nil =>
    cases q with
    | nil => exact absurd rfl hne
    | cons key' q =>
      rw [behind_cons] at h
      contradiction
  | cons key p ih =>
    cases q with
    | nil =>
      rw [behind_cons] at h
      contradiction
    | cons key' q =>
      rw [behind_cons, behind_cons, List.cons_inj_right] at h
      by_cases hkey : key = key'
      · subst hkey
        obtain ⟨above, k, k', p, q, rfl, rfl, hcontinues⟩ :=
          ih (fun heq ↦ hne (congrArg (key :: ·) heq)) (List.append_cancel_left h)
        exact ⟨key :: above, k, k', p, q, rfl, rfl, hcontinues⟩
      · -- one of the two keys begins with the other, and what is behind the shorter one goes on
        refine ⟨[], key, key', p, q, rfl, rfl, ?_⟩
        rcases List.append_eq_append_iff.mp h with ⟨more, hmore, hrest⟩ | ⟨more, hmore, hrest⟩
        · exact .inl (continues_of_append hkey hmore hrest)
        · exact .inr (continues_of_append (Ne.symm hkey) hmore hrest)

/-! ## The names that are declared -/

/-- The names of the properties that a style sheet declares, in order. -/
def declaredNames? (css : String) : Option (List String) :=
  (read? css).map fun ds ↦ ds.map Declaration.name

/-- Whether the object at the end of the way `above` has the two keys, of which one continues the
other. -/
def ContinuedAt (settings : Json) (above : List String) (key key' : String) : Prop :=
  ∃ x, settings.Leads above x ∧ key ∈ x.fieldNames ∧ key' ∈ x.fieldNames ∧
    (Continues key key' ∨ Continues key' key)

/-- Whether `settings` have a key that is `ContinuedAt` some place. -/
def HasContinuedKey (settings : Json) : Prop :=
  ∃ above key key', ContinuedAt settings above key key'

theorem hasContinuedKey_iff {settings : Json} :
    HasContinuedKey settings ↔ ∃ e ∈ settings.entries, ∃ key ∈ e.content.fieldNames,
      ∃ key' ∈ e.content.fieldNames, Continues key key' := by
  simp only [Json.mem_entries_iff]
  constructor
  · rintro ⟨above, key, key', x, hx, hkey, hkey', h | h⟩
    · exact ⟨⟨above, x⟩, hx, key, hkey, key', hkey', h⟩
    · exact ⟨⟨above, x⟩, hx, key', hkey', key, hkey, h⟩
  · rintro ⟨⟨above, x⟩, hx, key, hkey, key', hkey', h⟩
    exact ⟨above, key, key', x, hx, hkey, hkey', .inl h⟩

instance (settings : Json) : Decidable (HasContinuedKey settings) :=
  decidable_of_iff _ hasContinuedKey_iff.symm

theorem declaredNames?_css (settings : Json) :
    declaredNames? (css settings) = some ((leaves settings).map Leaf.name) := by
  rw [declaredNames?, read?_css, Option.map_some, List.map_map]
  rfl

variable {settings : Json}

theorem nodup_map_keys (h : settings.Sorted) : ((leaves settings).map Leaf.keys).Nodup := by
  rw [List.Nodup, List.pairwise_map]
  exact (pairwise_leaves h).imp fun hlt ↦ ne_of_lt hlt

theorem nodup_names_iff (h : settings.Sorted) :
    ((leaves settings).map Leaf.name).Nodup ↔ ∀ l m : Leaf, l.AdmissibleIn settings →
      m.AdmissibleIn settings → l.words = m.words → l = m := by
  rw [List.nodup_map_iff_inj_on (nodup_map_keys h).of_map]
  simp only [mem_leaves_iff]
  constructor
  · intro hinj l m hl hm hwords
    exact hinj l hl m hm ((name_eq_name_iff hl.keys_ne_nil hm.keys_ne_nil).mpr hwords)
  · intro hinj l hl m hm hname
    exact hinj l m hl hm ((name_eq_name_iff hl.keys_ne_nil hm.keys_ne_nil).mp hname)

/-- The ways to two leaves with the same words part at a key and one that continues it. -/
theorem exists_continuedAt (h : settings.Sorted) {l m : Leaf} (hl : l.AdmissibleIn settings)
    (hm : m.AdmissibleIn settings) (hne : l ≠ m) (hwords : l.words = m.words) :
    ∃ above key key', above ++ [key] <+: l.keys ∧ above ++ [key'] <+: m.keys ∧
      ContinuedAt settings above key key' := by
  have hkeys : l.keys ≠ m.keys := fun heq ↦ hne <|
    List.inj_on_of_nodup_map (nodup_map_keys h) (mem_leaves_iff.mpr hl) (mem_leaves_iff.mpr hm) heq
  have hname : "-".intercalate l.keys = "-".intercalate m.keys :=
    (name_eq_name_iff hl.keys_ne_nil hm.keys_ne_nil).mpr hwords
  have hbehind : behind l.keys = behind m.keys := by
    rw [behind, if_neg hl.keys_ne_nil, behind, if_neg hm.keys_ne_nil, hname]
  obtain ⟨above, key, key', p, q, hp, hq, hcontinues⟩ := exists_parting hkeys hbehind
  obtain ⟨x, hx, -⟩ := hl.leads
  obtain ⟨y, hy, -⟩ := hm.leads
  rw [hp] at hx
  rw [hq] at hy
  obtain ⟨w, hw, hkey, hkey'⟩ := h.exists_of_parting hx hy
  refine ⟨above, key, key', ⟨p, ?_⟩, ⟨q, ?_⟩, w, hw, hkey, hkey', hcontinues⟩
  · rw [hp, List.append_assoc, List.singleton_append]
  · rw [hq, List.append_assoc, List.singleton_append]

/-- **When a name is declared twice.** The properties that a theme declares are named after its
admissible leaves. Their names are all different exactly if no two leaves have the same words. Two
leaves that do have the same words are found behind one object, on ways that leave it by two keys of
which one is the other continued by a hyphen; so where no object has two such keys, no setting
overrides another. -/
theorem names_distinct_unless_continued (h : settings.Sorted) :
    declaredNames? (css settings) = some ((leaves settings).map Leaf.name) ∧
      (((leaves settings).map Leaf.name).Nodup ↔ ∀ l m : Leaf, l.AdmissibleIn settings →
        m.AdmissibleIn settings → l.words = m.words → l = m) ∧
      (∀ l m : Leaf, l.AdmissibleIn settings → m.AdmissibleIn settings → l ≠ m →
        l.words = m.words → ∃ above key key', above ++ [key] <+: l.keys ∧
          above ++ [key'] <+: m.keys ∧ ContinuedAt settings above key key') ∧
      (¬HasContinuedKey settings → ((leaves settings).map Leaf.name).Nodup) := by
  refine ⟨declaredNames?_css settings, nodup_names_iff h, ?_, ?_⟩
  · exact fun l m hl hm hne hwords ↦ exists_continuedAt h hl hm hne hwords
  · intro hnone
    rw [nodup_names_iff h]
    intro l m hl hm hwords
    by_contra hne
    obtain ⟨above, key, key', -, -, hcontinued⟩ := exists_continuedAt h hl hm hne hwords
    exact hnone ⟨above, key, key', hcontinued⟩

/-- Hyphens within keys do no harm as long as no key continues another of its object. -/
theorem names_of_hyphenated_keys :
    let settings := Json.object [("accent", .string "#f60"),
      ("dark-mode", .object [("text", .string "#eee"), ("text_alt", .int 3)]),
      ("light", .object [("mode-text", .string "#111")])]
    settings.Sorted ∧ ¬HasContinuedKey settings ∧ ((leaves settings).map Leaf.name).Nodup := by
  intro settings
  have hread : Json.ofText? settings.text = some settings := by decide +kernel
  have hsorted : settings.Sorted := Json.sorted_of_ofText? hread
  have hnone : ¬HasContinuedKey settings := by decide
  exact ⟨hsorted, hnone, (names_distinct_unless_continued hsorted).2.2.2 hnone⟩

/-- Not every theme declares different names: below `a` there may be a `b`, and beside it an
`a-b`. -/
theorem not_forall_names_distinct :
    ¬∀ settings : Json, settings.Sorted →
      ∀ names, declaredNames? (css settings) = some names → names.Nodup := by
  intro h
  have hread : Json.ofText? "\x7b\"a\":\x7b\"b\":1\x7d,\"a-b\":2\x7d" =
      some (.object [("a", .object [("b", .int 1)]), ("a-b", .int 2)]) := by decide +kernel
  have hsorted := Json.sorted_of_ofText? hread
  have hnames : ["a-b", "a-b"].Nodup := h _ hsorted _ (by decide)
  exact absurd hnames (by decide)

end Theme

end Pagesmith
