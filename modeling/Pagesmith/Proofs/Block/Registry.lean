import Mathlib.Data.List.Nodup
import Pagesmith.Block.Registry
import Pagesmith.Proofs.Json.Fields
import Pagesmith.Proofs.Text.Cutting

/-!
# What is loaded

A list of definitions makes up a registry if the enabled ones have names that are not blank and all
different, and templates that compile. The registry then holds each of them under its name, with the
tree of its own template. Otherwise the first enabled one that cannot stand behind those in front of
it is the reason why there is none. None of this mentions a memory of trees: what loading remembers
is what it would compile again.

From this one description follows how loads are related to each other. Disabled definitions may come
and go, the order of the others decides only which reason is given, and two lists can be loaded
together if each can be loaded and no name is in both.

## What is known during a load

Loading goes through the definitions once. What it has found so far is described by the enabled ones
it has already seen (`Loading.Holds`): they are acceptable, the types are those of their registry,
and the trees are those of the texts they are remembered for.
-/

namespace Pagesmith

/-- The definitions that are enabled. -/
def enabledTypes (definitions : List BlockType) : List BlockType := definitions.filter (·.enabled)

namespace BlockType

/-- Whether the name of `t` has nothing in it but white space. -/
def HasBlankName (t : BlockType) : Prop := ∀ c ∈ t.name.toList, Text.isBlank c = true

instance (t : BlockType) : Decidable t.HasBlankName := List.decidableBAll _ _

/-- Why `t` cannot stand behind definitions of the names `taken`, if it cannot. -/
def refusal? (taken : List String) (t : BlockType) : Option BlockError :=
  if t.HasBlankName then some (.invalidType t.name "name must not be empty")
  else if t.name ∈ taken then some (.invalidType t.name "defined more than once")
  else
    match Template.compile t.template with
    | .ok _ => none
    | .error e => some (.templateSyntax t.name e.pos.line e.pos.column e.cause.message)

end BlockType

/-- Whether definitions can make up a registry. -/
structure Acceptable (types : List BlockType) : Prop where
  named : ∀ t ∈ types, ¬t.HasBlankName
  distinct : (types.map (·.name)).Nodup
  compiles : ∀ t ∈ types, ∃ template, Template.compile t.template = .ok template

/-- Whether `r` holds the definitions `types` and nothing else: each one is found under its name,
with the tree of its own template. -/
structure Registry.Holds (r : Registry) (types : List BlockType) : Prop where
  sorted : SortedFields r.types
  names : r.names.Perm (types.map (·.name))
  find?_iff : ∀ name t, r.find? name = some t ↔
    t.definition ∈ types ∧ t.definition.name = name ∧
      Template.compile t.definition.template = .ok t.template

/-- How a load comes out, as told by `definitions` alone. -/
inductive LoadsTo (definitions : List BlockType) : Except BlockError Registry → Prop
  | ok {r : Registry} (hacceptable : Acceptable (enabledTypes definitions))
    (hholds : r.Holds (enabledTypes definitions)) : LoadsTo definitions (.ok r)
  /-- The first definition that cannot stand where it does. -/
  | error {front back : List BlockType} {t : BlockType} {e : BlockError}
    (hsplit : enabledTypes definitions = front ++ t :: back) (hfront : Acceptable front)
    (hrefusal : t.refusal? (front.map (·.name)) = some e) : LoadsTo definitions (.error e)

/-! ## Acceptable definitions -/

section

variable {types types' front back : List BlockType} {t : BlockType} {taken : List String}

theorem BlockType.refusal?_eq_none_iff : t.refusal? taken = none ↔
    ¬t.HasBlankName ∧ t.name ∉ taken ∧ ∃ template, Template.compile t.template = .ok template := by
  rw [BlockType.refusal?]
  split
  · next hblank => exact ⟨nofun, fun h ↦ absurd hblank h.1⟩
  · next hblank =>
    split
    · next htaken => exact ⟨nofun, fun h ↦ absurd htaken h.2.1⟩
    · next htaken =>
      split
      · next template hcompile => exact ⟨fun _ ↦ ⟨hblank, htaken, template, hcompile⟩, fun _ ↦ rfl⟩
      · next e hcompile =>
        refine ⟨nofun, ?_⟩
        rintro ⟨-, -, template, htemplate⟩
        exact nomatch hcompile.symm.trans htemplate

theorem acceptable_nil : Acceptable [] := ⟨nofun, List.nodup_nil, nofun⟩

/-- Two lists are acceptable together if each is and no name is in both. -/
theorem acceptable_append_iff : Acceptable (types ++ types') ↔ Acceptable types ∧
    Acceptable types' ∧ ∀ s ∈ types, ∀ t ∈ types', s.name ≠ t.name := by
  constructor
  · rintro ⟨hnamed, hdistinct, hcompiles⟩
    rw [List.map_append, List.nodup_append] at hdistinct
    obtain ⟨hdistinct, hdistinct', hapart⟩ := hdistinct
    rw [List.forall_mem_append] at hnamed hcompiles
    refine ⟨⟨hnamed.1, hdistinct, hcompiles.1⟩, ⟨hnamed.2, hdistinct', hcompiles.2⟩, ?_⟩
    intro s hs t ht
    exact hapart _ (List.mem_map_of_mem hs) _ (List.mem_map_of_mem ht)
  · rintro ⟨h, h', hapart⟩
    refine ⟨?_, ?_, ?_⟩
    · exact List.forall_mem_append.mpr ⟨h.named, h'.named⟩
    · rw [List.map_append, List.nodup_append]
      refine ⟨h.distinct, h'.distinct, ?_⟩
      intro a ha b hb
      obtain ⟨s, hs, rfl⟩ := List.mem_map.mp ha
      obtain ⟨t, ht, rfl⟩ := List.mem_map.mp hb
      exact hapart s hs t ht
    · exact List.forall_mem_append.mpr ⟨h.compiles, h'.compiles⟩

theorem acceptable_concat_iff : Acceptable (front ++ [t]) ↔
    Acceptable front ∧ t.refusal? (front.map (·.name)) = none := by
  have hone : Acceptable [t] ↔ ¬t.HasBlankName ∧
      ∃ template, Template.compile t.template = .ok template := by
    constructor
    · intro h
      exact ⟨h.named t List.mem_cons_self, h.compiles t List.mem_cons_self⟩
    · rintro ⟨hnamed, hcompiles⟩
      exact ⟨List.forall_mem_singleton.mpr hnamed, List.nodup_singleton _,
        List.forall_mem_singleton.mpr hcompiles⟩
  have hapart : (∀ s ∈ front, ∀ u ∈ [t], s.name ≠ u.name) ↔ t.name ∉ front.map (·.name) := by
    rw [List.mem_map]
    constructor
    · rintro h ⟨s, hs, hname⟩
      exact h s hs t List.mem_cons_self hname
    · intro h s hs u hu hname
      rw [List.mem_singleton.mp hu] at hname
      exact h ⟨s, hs, hname⟩
  rw [acceptable_append_iff, hone, hapart, BlockType.refusal?_eq_none_iff, and_assoc,
    and_comm (a := ∃ template, Template.compile t.template = .ok template)]

theorem Acceptable.refusal?_eq_none (h : Acceptable (front ++ t :: back)) :
    t.refusal? (front.map (·.name)) = none := by
  rw [List.append_cons] at h
  exact (acceptable_concat_iff.mp (acceptable_append_iff.mp h).1).2

theorem Acceptable.perm (h : Acceptable types) (hperm : types.Perm types') : Acceptable types' where
  named t ht := h.named t (hperm.mem_iff.mpr ht)
  distinct := (hperm.map _).nodup_iff.mp h.distinct
  compiles t ht := h.compiles t (hperm.mem_iff.mpr ht)

theorem refusal_unique {front' back' : List BlockType} {t' : BlockType} {e e' : BlockError}
    (hsplit : front ++ t :: back = front' ++ t' :: back') (hfront : Acceptable front)
    (hrefusal : t.refusal? (front.map (·.name)) = some e) (hfront' : Acceptable front')
    (hrefusal' : t'.refusal? (front'.map (·.name)) = some e') : e = e' := by
  -- a definition in front of the other one could not be refused
  have hno {a b c : List BlockType} {u v : BlockType} {e : BlockError}
      (h : u :: b = c ++ v :: a) {front : List BlockType} (hacceptable : Acceptable (front ++ c))
      (hrefusal : u.refusal? (front.map (·.name)) = some e) : c = [] := by
    cases c with
    | nil => rfl
    | cons w c =>
      obtain rfl : u = w := List.head_eq_of_cons_eq h
      rw [hacceptable.refusal?_eq_none] at hrefusal
      exact nomatch hrefusal
  obtain ⟨c, hleft, hright⟩ | ⟨c, hleft, hright⟩ := List.append_eq_append_iff.mp hsplit
  · have hnil : c = [] := hno hright (hleft ▸ hfront') hrefusal
    subst hnil
    rw [List.append_nil] at hleft
    obtain rfl : t = t' := List.head_eq_of_cons_eq hright
    subst hleft
    exact Option.some.inj (hrefusal.symm.trans hrefusal')
  · have hnil : c = [] := hno hright (hleft ▸ hfront) hrefusal'
    subst hnil
    rw [List.append_nil] at hleft
    obtain rfl : t' = t := List.head_eq_of_cons_eq hright
    subst hleft
    exact Option.some.inj (hrefusal.symm.trans hrefusal')

end

/-! ## What a registry holds -/

namespace Registry

variable {r r' : Registry} {types types' : List BlockType} {t : BlockType} {name : String}

theorem holds_empty : empty.Holds [] where
  sorted := List.Pairwise.nil
  names := .refl _
  find?_iff _ _ := ⟨nofun, fun h ↦ absurd h.1 List.not_mem_nil⟩

theorem Holds.perm (h : r.Holds types) (hperm : types.Perm types') : r.Holds types' where
  sorted := h.sorted
  names := h.names.trans (hperm.map _)
  find?_iff name t := by rw [h.find?_iff, hperm.mem_iff]

theorem Holds.unique (h : r.Holds types) (h' : r'.Holds types) : r = r' := by
  have hfind (name : String) : r.find? name = r'.find? name := by
    refine Option.ext fun t ↦ ?_
    rw [h.find?_iff, h'.find?_iff]
  exact congrArg Registry.mk (h.sorted.eq_of_lookup h'.sorted hfind)

theorem contains_iff_mem_names : r.contains name = true ↔ name ∈ r.names := by
  rw [contains, find?, List.lookup_isSome_iff, names, List.mem_map]
  constructor
  · rintro ⟨f, hf, hname⟩
    exact ⟨f, hf, (beq_iff_eq.mp hname).symm⟩
  · rintro ⟨f, hf, rfl⟩
    exact ⟨f, hf, beq_self_eq_true _⟩

theorem Holds.contains_iff (h : r.Holds types) :
    r.contains name = true ↔ name ∈ types.map (·.name) := by
  rw [contains_iff_mem_names, h.names.mem_iff]

theorem Holds.size_eq (h : r.Holds types) : r.size = types.length :=
  calc r.size = r.names.length := (List.length_map _).symm
    _ = (types.map (·.name)).length := h.names.length_eq
    _ = types.length := List.length_map _

theorem Holds.concat (h : r.Holds types) (hname : t.name ∉ types.map (·.name))
    {template : Template} (htemplate : Template.compile t.template = .ok template) :
    (Registry.mk (insertField t.name ⟨t, template⟩ r.types)).Holds (types ++ [t]) where
  sorted := h.sorted.insertField _ _
  names := by
    have hnew : r.types.lookup t.name = none := by
      rw [← Option.not_isSome_iff_eq_none]
      exact fun hsome ↦ hname (h.contains_iff.mp hsome)
    have hadded : (insertField t.name ⟨t, template⟩ r.types).map (·.1) |>.Perm
        (t.name :: r.names) := (perm_insertField hnew).map _
    rw [List.map_append]
    exact hadded.trans ((h.names.cons _).trans (List.perm_append_singleton _ _).symm)
  find?_iff name u := by
    rw [find?]
    by_cases heq : name = t.name
    · subst heq
      rw [lookup_insertField_self, Option.some.injEq]
      constructor
      · rintro rfl
        exact ⟨List.mem_concat_self, rfl, htemplate⟩
      · rintro ⟨hmem, hu, hcompile⟩
        rcases List.mem_append.mp hmem with hmem | hmem
        · exact absurd (hu ▸ List.mem_map_of_mem hmem) hname
        · obtain ⟨definition, tree⟩ := u
          obtain rfl : definition = t := List.mem_singleton.mp hmem
          rw [Except.ok.inj (htemplate.symm.trans hcompile)]
    · rw [lookup_insertField_of_ne heq, ← find?, h.find?_iff, List.mem_append, List.mem_singleton]
      constructor
      · rintro ⟨hmem, h⟩
        exact ⟨.inl hmem, h⟩
      · rintro ⟨hmem, hu, hcompile⟩
        refine ⟨hmem.resolve_right ?_, hu, hcompile⟩
        intro htype
        exact heq (hu.symm.trans (congrArg BlockType.name htype))

end Registry

theorem LoadsTo.unique {definitions : List BlockType} {x y : Except BlockError Registry}
    (hx : LoadsTo definitions x) (hy : LoadsTo definitions y) : x = y := by
  -- what is acceptable as a whole has nothing in it that is refused
  have happart {front back : List BlockType} {t : BlockType} {e : BlockError}
      (hsplit : enabledTypes definitions = front ++ t :: back)
      (hrefusal : t.refusal? (front.map (·.name)) = some e) :
      ¬Acceptable (enabledTypes definitions) := by
    intro h
    rw [hsplit] at h
    exact nomatch hrefusal.symm.trans h.refusal?_eq_none
  cases hx with
  | ok hacceptable hholds =>
    cases hy with
    | ok _ hholds' => exact congrArg Except.ok (hholds.unique hholds')
    | error hsplit _ hrefusal => exact absurd hacceptable (happart hsplit hrefusal)
  | error hsplit hfront hrefusal =>
    cases hy with
    | ok hacceptable _ => exact absurd hacceptable (happart hsplit hrefusal)
    | error hsplit' hfront' hrefusal' =>
      exact congrArg Except.error
        (refusal_unique (hsplit.symm.trans hsplit') hfront hrefusal hfront' hrefusal')

/-! ## One load -/

namespace Registry

variable {types : List BlockType} {t : BlockType}

/-- What is known of `l` when the enabled definitions `types` have been taken in. -/
structure Loading.Holds (l : Loading) (types : List BlockType) : Prop where
  acceptable : Acceptable types
  types : (Registry.mk l.types).Holds types
  compiled : ∀ text template, l.compiled.lookup text = some template →
    Template.compile text = .ok template

namespace Loading

variable {l : Loading}

theorem holds_nil : Loading.Holds ⟨[], []⟩ [] := ⟨acceptable_nil, holds_empty, nofun⟩

/-- Remembered or not, the tree that `Loading.templateOf` gives is the one the text compiles to. -/
theorem Holds.templateOf_eq (h : l.Holds types) (t : BlockType) :
    (∀ e, Template.compile t.template = .error e →
      l.templateOf t = .error (.templateSyntax t.name e.pos.line e.pos.column e.cause.message)) ∧
    ∀ template, Template.compile t.template = .ok template →
      ∃ compiled, l.templateOf t = .ok (template, compiled) ∧
        ∀ text template, compiled.lookup text = some template →
          Template.compile text = .ok template := by
  rw [templateOf]
  -- what is remembered of other texts stays sound either way
  cases hlookup : l.compiled.lookup t.template with
  | some known =>
    have hknown := h.compiled _ _ hlookup
    refine ⟨fun e he ↦ (nomatch hknown.symm.trans he), fun template htemplate ↦ ?_⟩
    rw [Except.ok.inj (htemplate.symm.trans hknown)]
    exact ⟨l.compiled, rfl, h.compiled⟩
  | none =>
    refine ⟨fun e he ↦ ?_, fun template htemplate ↦ ?_⟩
    · rw [he]
      rfl
    · rw [htemplate]
      refine ⟨(t.template, template) :: l.compiled, rfl, fun text other hother ↦ ?_⟩
      rw [List.lookup_cons] at hother
      split at hother
      · next htext =>
        rw [← Option.some.inj hother, beq_iff_eq.mp htext, htemplate]
      · exact h.compiled text other hother

theorem add_of_disabled (hdisabled : t.enabled = false) : l.add t = .ok l := by
  rw [add, hdisabled]
  rfl

/-- A definition that has a `refusal?` ends the load. Any other one is taken in. -/
theorem Holds.add_eq (h : l.Holds types) (henabled : t.enabled = true) :
    (∀ e, t.refusal? (types.map (·.name)) = some e → l.add t = .error e) ∧
    (t.refusal? (types.map (·.name)) = none →
      ∃ l', l.add t = .ok l' ∧ l'.Holds (types ++ [t])) := by
  have hblank : (Text.trim t.name.toList).isEmpty = true ↔ t.HasBlankName := by
    rw [List.isEmpty_iff, Text.trim_eq_nil_iff, BlockType.HasBlankName]
  have htaken : (l.types.lookup t.name).isSome = true ↔ t.name ∈ types.map (·.name) :=
    h.types.contains_iff
  -- the conditions that are tested are those of a refusal, in the same order
  rw [add, henabled, Bool.not_true, if_neg Bool.false_ne_true, if_congr hblank rfl rfl,
    if_congr htaken rfl rfl]
  constructor
  · intro e he
    rw [BlockType.refusal?] at he
    split at he
    · next hname => rw [if_pos hname, Option.some.inj he]
    · next hname =>
      rw [if_neg hname]
      split at he
      · next hmem => rw [if_pos hmem, Option.some.inj he]
      · next hmem =>
        rw [if_neg hmem]
        split at he
        · contradiction
        · next e' he' =>
          rw [(h.templateOf_eq t).1 e' he', Option.some.inj he]
          rfl
  · intro hnone
    obtain ⟨hname, hmem, template, htemplate⟩ := BlockType.refusal?_eq_none_iff.mp hnone
    obtain ⟨compiled, htemplateOf, hcompiled⟩ := (h.templateOf_eq t).2 template htemplate
    rw [if_neg hname, if_neg hmem, htemplateOf]
    exact ⟨_, rfl, acceptable_concat_iff.mpr ⟨h.acceptable, hnone⟩,
      h.types.concat hmem htemplate, hcompiled⟩

/-- The rest of a load, which either takes all of it in or ends at the first definition that cannot
stand where it does. -/
theorem Holds.foldlM (definitions : List BlockType) (h : l.Holds types) :
    (∃ l', definitions.foldlM add l = .ok l' ∧ l'.Holds (types ++ enabledTypes definitions)) ∨
    ∃ front t back e, enabledTypes definitions = front ++ t :: back ∧ Acceptable (types ++ front) ∧
      t.refusal? ((types ++ front).map (·.name)) = some e ∧
      definitions.foldlM add l = .error e := by
  -- what has been taken in grows by each enabled definition that goes through
  induction definitions generalizing l types with
  | nil => exact .inl ⟨l, rfl, (List.append_nil types).symm ▸ h⟩
  | cons t definitions ih =>
    rw [List.foldlM_cons]
    cases henabled : t.enabled with
    | false =>
      have hskip : enabledTypes (t :: definitions) = enabledTypes definitions :=
        List.filter_cons_of_neg (Bool.not_eq_true _ ▸ henabled)
      rw [hskip, add_of_disabled henabled]
      exact ih h
    | true =>
      have htake : enabledTypes (t :: definitions) = t :: enabledTypes definitions :=
        List.filter_cons_of_pos henabled
      rw [htake]
      cases hrefusal : t.refusal? (types.map (·.name)) with
      | some e =>
        rw [(h.add_eq henabled).1 e hrefusal]
        refine .inr ⟨[], t, enabledTypes definitions, e, rfl, ?_, ?_, rfl⟩
        · exact (List.append_nil types).symm ▸ h.acceptable
        · exact (List.append_nil types).symm ▸ hrefusal
      | none =>
        obtain ⟨l', hadd, hl'⟩ := (h.add_eq henabled).2 hrefusal
        rw [hadd, List.append_cons]
        rcases ih hl' with hok | ⟨front, u, back, e, hsplit, hfront, hu, herror⟩
        · exact .inl hok
        · rw [List.append_assoc] at hfront hu
          exact .inr ⟨t :: front, u, back, e, congrArg (t :: ·) hsplit, hfront, hu, herror⟩

end Loading

variable {definitions definitions' : List BlockType} {x : Except BlockError Registry}

theorem loadsTo_load (definitions : List BlockType) : LoadsTo definitions (load definitions) := by
  rcases Loading.holds_nil.foldlM definitions with
    ⟨l, hl, hholds⟩ | ⟨front, t, back, e, hsplit, hfront, hrefusal, herror⟩
  · rw [load, hl]
    exact .ok hholds.acceptable hholds.types
  · rw [load, herror]
    exact .error hsplit hfront hrefusal

theorem load_eq_iff : load definitions = x ↔ LoadsTo definitions x := by
  constructor
  · rintro rfl
    exact loadsTo_load definitions
  · exact (loadsTo_load definitions).unique

theorem holds_of_load {r : Registry} (h : load definitions = .ok r) :
    r.Holds (enabledTypes definitions) := by
  cases load_eq_iff.mp h with
  | ok _ hholds => exact hholds

theorem acceptable_of_load {r : Registry} (h : load definitions = .ok r) :
    Acceptable (enabledTypes definitions) := by
  cases load_eq_iff.mp h with
  | ok hacceptable _ => exact hacceptable

/-! ## Loads and each other -/

theorem exists_load_eq_ok_iff :
    (∃ r, load definitions = .ok r) ↔ Acceptable (enabledTypes definitions) := by
  constructor
  · rintro ⟨r, h⟩
    exact acceptable_of_load h
  · intro h
    cases hload : load definitions with
    | ok r => exact ⟨r, rfl⟩
    | error e =>
      cases load_eq_iff.mp hload with
      | error hsplit _ hrefusal =>
        rw [hsplit] at h
        exact nomatch hrefusal.symm.trans h.refusal?_eq_none

theorem load_eq_of_enabledTypes_eq (h : enabledTypes definitions = enabledTypes definitions') :
    load definitions = load definitions' := by
  have hload := loadsTo_load definitions'
  generalize load definitions' = x at hload ⊢
  rw [load_eq_iff]
  cases hload with
  | ok hacceptable hholds => exact .ok (h ▸ hacceptable) (h ▸ hholds)
  | error hsplit hfront hrefusal => exact .error (h.trans hsplit) hfront hrefusal

theorem load_eq_ok_of_perm (hperm : definitions.Perm definitions') {r : Registry}
    (h : load definitions = .ok r) : load definitions' = .ok r := by
  have henabled : (enabledTypes definitions).Perm (enabledTypes definitions') := hperm.filter _
  rw [load_eq_iff]
  exact .ok ((acceptable_of_load h).perm henabled) ((holds_of_load h).perm henabled)

theorem exists_load_append_iff : (∃ r, load (definitions ++ definitions') = .ok r) ↔
    (∃ r, load definitions = .ok r) ∧ (∃ r, load definitions' = .ok r) ∧
      ∀ s ∈ enabledTypes definitions, ∀ t ∈ enabledTypes definitions', s.name ≠ t.name := by
  have happend : enabledTypes (definitions ++ definitions') =
      enabledTypes definitions ++ enabledTypes definitions' := List.filter_append _ _
  rw [exists_load_eq_ok_iff, exists_load_eq_ok_iff, exists_load_eq_ok_iff, happend,
    acceptable_append_iff]

/-- **What is loaded.** A load, which remembers trees, comes out as the definitions tell one by one:
with the registry that holds the enabled ones if these are acceptable, and with the reason against
the first that cannot stand where it does if they are not. Disabled definitions make no difference
wherever they are, the order makes none to the registry, and two lists load together if each loads
and no name is enabled in both. -/
theorem load_loadsTo_and_relations :
    (∀ definitions x, load definitions = x ↔ LoadsTo definitions x) ∧
    (∀ definitions, (∃ r, load definitions = .ok r) ↔ Acceptable (enabledTypes definitions)) ∧
    (∀ definitions definitions', enabledTypes definitions = enabledTypes definitions' →
      load definitions = load definitions') ∧
    (∀ definitions definitions', definitions.Perm definitions' →
      ∀ r, load definitions = .ok r ↔ load definitions' = .ok r) ∧
    (∀ definitions definitions', (∃ r, load (definitions ++ definitions') = .ok r) ↔
      (∃ r, load definitions = .ok r) ∧ (∃ r, load definitions' = .ok r) ∧
        ∀ s ∈ enabledTypes definitions, ∀ t ∈ enabledTypes definitions', s.name ≠ t.name) := by
  refine ⟨fun _ _ ↦ load_eq_iff, fun _ ↦ exists_load_eq_ok_iff, ?_, ?_, ?_⟩
  · intro definitions definitions' h
    exact load_eq_of_enabledTypes_eq h
  · intro definitions definitions' hperm r
    exact ⟨load_eq_ok_of_perm hperm, load_eq_ok_of_perm hperm.symm⟩
  · intro definitions definitions'
    exact exists_load_append_iff

-- two types of one text, and between them a disabled one with the name of the first
example :
    let heading (name : String) : BlockType :=
      { name, category := "", template := "<h1>\x7b\x7btitle\x7d\x7d</h1>"
        defaultConfig := emptyConfig, schema := .null, enabled := true }
    let broken (enabled : Bool) : BlockType :=
      { heading "hero" with template := "\x7b\x7b#if", enabled }
    (load [heading "hero", broken false, heading "banner"]).map names = .ok ["banner", "hero"] ∧
      load [heading "banner", broken true, heading "banner"] =
        .error (.templateSyntax "hero" 1 1 "unclosed '\x7b\x7b': expected '\x7d\x7d'") := by
  decide +kernel

end Registry

/-! ## Loads of several lists

Definitions that come in several lists may each make up a registry and still not make up one
together. There is only one thing that can be in the way: a name that is `EnabledTwice`, in two of
the lists. Two lists may be the same list twice, so the two are told apart by where they stand. -/

/-- Whether `name` is enabled in two of `lists`. -/
def EnabledTwice (name : String) (lists : List (List BlockType)) : Prop :=
  ∃ types types', [types, types'].Sublist lists ∧
    (∃ s ∈ enabledTypes types, s.name = name) ∧ ∃ t ∈ enabledTypes types', t.name = name

theorem enabledTypes_flatten (lists : List (List BlockType)) :
    enabledTypes lists.flatten = (lists.map enabledTypes).flatten := List.filter_flatten

/-- If two definitions that are enabled are never related within a list, and neither across two of
them, they are not related at all. -/
theorem pairwise_enabledTypes_flatten_iff {R : BlockType → BlockType → Prop}
    {lists : List (List BlockType)} : (enabledTypes lists.flatten).Pairwise R ↔
      (∀ types ∈ lists, (enabledTypes types).Pairwise R) ∧
        ∀ types types', [types, types'].Sublist lists →
          ∀ s ∈ enabledTypes types, ∀ t ∈ enabledTypes types', R s t := by
  rw [enabledTypes_flatten, List.pairwise_flatten, List.forall_mem_map, List.pairwise_map,
    List.pairwise_iff_forall_sublist]

namespace Registry

variable {lists : List (List BlockType)} {e : BlockError}

/-- Lists that load on their own fail to load together only for a name that two of them enable. -/
theorem enabledTwice_of_load_flatten (hloads : ∀ types ∈ lists, ∃ r, load types = .ok r)
    (h : load lists.flatten = .error e) :
    ∃ name, e = .invalidType name "defined more than once" ∧ EnabledTwice name lists := by
  cases load_eq_iff.mp h with
  | @error front back t _ hsplit hfront hrefusal =>
    have ht : t ∈ enabledTypes lists.flatten := hsplit ▸ List.mem_append_right _ List.mem_cons_self
    rw [enabledTypes_flatten, List.mem_flatten] at ht
    obtain ⟨_, hmem, ht⟩ := ht
    obtain ⟨types, htypes, rfl⟩ := List.mem_map.mp hmem
    have hacceptable := exists_load_eq_ok_iff.mp (hloads types htypes)
    have hblank := hacceptable.named t ht
    -- by itself the definition is fine, so it is refused for a name that was there before
    have htaken : t.name ∈ front.map (·.name) := by
      by_contra hfree
      have hnone : t.refusal? (front.map (·.name)) = none :=
        BlockType.refusal?_eq_none_iff.mpr ⟨hblank, hfree, hacceptable.compiles t ht⟩
      exact nomatch hnone.symm.trans hrefusal
    rw [BlockType.refusal?, if_neg hblank, if_pos htaken] at hrefusal
    refine ⟨t.name, (Option.some.inj hrefusal).symm, ?_⟩
    obtain ⟨s, hs, hname⟩ := List.mem_map.mp htaken
    by_contra htwice
    have hapart : (enabledTypes lists.flatten).Pairwise fun s u ↦
        ¬(s.name = t.name ∧ u.name = t.name) := by
      refine pairwise_enabledTypes_flatten_iff.mpr ⟨fun types htypes ↦ ?_, ?_⟩
      · have hdistinct := (exists_load_eq_ok_iff.mp (hloads types htypes)).distinct
        refine (List.pairwise_map.mp hdistinct).imp fun hne hboth ↦ ?_
        exact hne (hboth.1.trans hboth.2.symm)
      · intro types types' hlists s hs u hu hboth
        exact htwice ⟨types, types', hlists, ⟨s, hs, hboth.1⟩, u, hu, hboth.2⟩
    rw [hsplit, List.pairwise_append] at hapart
    exact hapart.2.2 s hs t List.mem_cons_self ⟨hname, rfl⟩

/-- **Loads of several lists.** Lists that load on their own load together if no name is enabled in
two of them. -/
theorem exists_load_flatten_iff (hloads : ∀ types ∈ lists, ∃ r, load types = .ok r) :
    (∃ r, load lists.flatten = .ok r) ↔ ∀ name, ¬EnabledTwice name lists := by
  constructor
  · rintro ⟨r, h⟩ name ⟨types, types', hlists, ⟨s, hs, hsname⟩, t, ht, htname⟩
    have hdistinct := List.pairwise_map.mp (acceptable_of_load h).distinct
    have happart := (pairwise_enabledTypes_flatten_iff.mp hdistinct).2
    exact happart types types' hlists s hs t ht (hsname.trans htname.symm)
  · intro hnone
    cases hload : load lists.flatten with
    | ok r => exact ⟨r, rfl⟩
    | error e =>
      obtain ⟨name, -, htwice⟩ := enabledTwice_of_load_flatten hloads hload
      exact absurd htwice (hnone name)

end Registry

end Pagesmith
