import Mathlib.Data.List.Nodup
import Pagesmith.Proofs.Store.Database

/-!
# The themes of all tenants

The table of themes, where no identifier is there twice. What is asked of the statements is what
they say. An insertion adds a row with the given values, which is not active; locking returns the
identifiers of a tenant's themes; the two updates set one column of the rows that they name. The
order of the rows means nothing, neither in the table nor in an answer.

## Why the first update comes first

The last update names a theme and no tenant, and it makes that theme active whatever else is active.
So it leaves one active theme only if the other ones of the tenant were inactive before, and it
leaves other tenants alone only if the theme was one of the tenant's. The first is what the update
before it brings about (`OnlyActive`), the second is what the locked identifiers tell (`Owns`), and
both are kept from there on.
-/

namespace Pagesmith.Store

/-- The themes of all tenants. No identifier is there twice. -/
structure ThemeTable where
  themes : List Theme := []
  nodup : (themes.map (·.id)).Nodup := by simp

namespace Theme

/-- The theme `x` after all active themes of `tenant` but `keep` have been made inactive. -/
def deactivatedUnless (tenant keep : Uuid) (x : Theme) : Theme :=
  if x.tenant = tenant ∧ x.active = true ∧ x.id ≠ keep then { x with active := false } else x

/-- The theme `x` after the theme `id` has been made active. -/
def activatedIf (id : Uuid) (x : Theme) : Theme :=
  if x.id = id then { x with active := true } else x

variable {tenant keep id : Uuid} {x : Theme}

@[simp] theorem id_deactivatedUnless : (x.deactivatedUnless tenant keep).id = x.id := by
  rw [deactivatedUnless]
  split <;> rfl

@[simp] theorem tenant_deactivatedUnless : (x.deactivatedUnless tenant keep).tenant = x.tenant := by
  rw [deactivatedUnless]
  split <;> rfl

@[simp] theorem id_activatedIf : (x.activatedIf id).id = x.id := by
  rw [activatedIf]
  split <;> rfl

@[simp] theorem tenant_activatedIf : (x.activatedIf id).tenant = x.tenant := by
  rw [activatedIf]
  split <;> rfl

theorem deactivatedUnless_of_ne (h : x.tenant ≠ tenant) : x.deactivatedUnless tenant keep = x :=
  if_neg fun hx ↦ h hx.1

theorem activatedIf_of_ne (h : x.id ≠ id) : x.activatedIf id = x := if_neg h

/-- What stays active was to be kept, or belongs to another tenant. -/
theorem id_eq_of_active_deactivatedUnless (htenant : x.tenant = tenant)
    (h : (x.deactivatedUnless tenant keep).active = true) : x.id = keep := by
  by_contra hne
  by_cases hactive : x.active = true
  · rw [deactivatedUnless, if_pos ⟨htenant, hactive, hne⟩] at h
    exact Bool.false_ne_true h
  · rw [deactivatedUnless, if_neg fun hx ↦ hactive hx.2.1] at h
    exact hactive h

theorem active_activatedIf (h : x.id = id) : (x.activatedIf id).active = true := by
  rw [activatedIf, if_pos h]

end Theme

/-- Rows that can all be read are all there is. -/
theorem allRows_of_rows {s : Statement} {a : Answer s} {rows : List s.Row}
    (h : a.rows = rows.map .ok) : allRows (.ok a) = .ok rows := by
  have hmapM : ∀ rows : List s.Row,
      (rows.map Except.ok).mapM (id : Except DbError s.Row → _) = .ok rows := by
    intro rows
    induction rows with
    | nil => rfl
    | cons r rows ih =>
      rw [List.map_cons, List.mapM_cons, ih]
      rfl
  rw [← hmapM rows, ← h]
  rfl

namespace ThemeTable

/-- What the statements that concern themes do, and how they are answered. -/
def does : Effects ThemeTable
  | .insertTheme tenant name settings, t, a, t' =>
    ∃ x : Theme, x.tenant = tenant ∧ x.name = name ∧ x.settings = settings ∧ x.active = false ∧
      a.rows = [.ok x] ∧ t'.themes.Perm (x :: t.themes)
  | .lockThemes tenant, t, a, t' =>
    (∃ ids : List Uuid, a.rows = ids.map .ok ∧
      ids.Perm ((t.themes.filter (·.tenant = tenant)).map (·.id))) ∧ t' = t
  | .deactivateOthers tenant keep, t, _, t' =>
    t'.themes.Perm (t.themes.map (Theme.deactivatedUnless tenant keep))
  | .activateTheme id, t, a, t' =>
    t'.themes.Perm (t.themes.map (Theme.activatedIf id)) ∧
      a.rows = (t'.themes.filter (·.id = id)).map .ok
  | _, _, _, _ => True

/-! ## What is said of tables -/

def activeOf (t : ThemeTable) (tenant : Uuid) : List Theme :=
  t.themes.filter fun x ↦ x.tenant = tenant ∧ x.active = true

/-- Whether each tenant has at most one active theme. -/
def AtMostOneActive (t : ThemeTable) : Prop := ∀ tenant, (t.activeOf tenant).length ≤ 1

/-- Whether `theme` is one of `tenant`. -/
def Owns (t : ThemeTable) (tenant theme : Uuid) : Prop :=
  ∃ x ∈ t.themes, x.tenant = tenant ∧ x.id = theme

/-- Whether no theme of `tenant` but `theme` is active. -/
def OnlyActive (t : ThemeTable) (tenant theme : Uuid) : Prop :=
  ∀ x ∈ t.themes, x.tenant = tenant → x.active = true → x.id = theme

/-- Whether the two tables have the same themes of all tenants but `tenant`. -/
def SameElsewhere (t : ThemeTable) (tenant : Uuid) (t' : ThemeTable) : Prop :=
  ∀ x : Theme, x.tenant ≠ tenant → (x ∈ t'.themes ↔ x ∈ t.themes)

variable {t t' t'' : ThemeTable} {tenant theme : Uuid} {x y : Theme}

theorem eq_of_id_eq (hx : x ∈ t.themes) (hy : y ∈ t.themes) (h : x.id = y.id) : x = y :=
  List.inj_on_of_nodup_map t.nodup hx hy h

theorem SameElsewhere.refl (t : ThemeTable) (tenant : Uuid) : t.SameElsewhere tenant t :=
  fun _ _ ↦ Iff.rfl

theorem SameElsewhere.trans (h : t.SameElsewhere tenant t') (h' : t'.SameElsewhere tenant t'') :
    t.SameElsewhere tenant t'' :=
  fun x hx ↦ (h' x hx).trans (h x hx)

theorem mem_activeOf :
    x ∈ t.activeOf tenant ↔ x ∈ t.themes ∧ x.tenant = tenant ∧ x.active = true := by
  rw [activeOf, List.mem_filter, decide_eq_true_iff]

/-- Since identifiers are unique, themes may be told apart by them instead of being counted. -/
theorem atMostOneActive_iff : t.AtMostOneActive ↔ ∀ x ∈ t.themes, ∀ y ∈ t.themes,
    x.tenant = y.tenant → x.active = true → y.active = true → x.id = y.id := by
  constructor
  · intro h x hx y hy htenant hxactive hyactive
    have hmem : x ∈ t.activeOf y.tenant := mem_activeOf.mpr ⟨hx, htenant, hxactive⟩
    have hmem' : y ∈ t.activeOf y.tenant := mem_activeOf.mpr ⟨hy, rfl, hyactive⟩
    have hlength := h y.tenant
    match hactive : t.activeOf y.tenant with
    | [] =>
      rw [hactive] at hmem
      exact absurd hmem List.not_mem_nil
    | [z] =>
      rw [hactive] at hmem hmem'
      rw [List.mem_singleton.mp hmem, List.mem_singleton.mp hmem']
    | z :: z' :: rest =>
      rw [hactive, List.length_cons, List.length_cons] at hlength
      omega
  · intro h tenant
    have hnodup : (t.activeOf tenant).Nodup := t.nodup.of_map.filter _
    match hactive : t.activeOf tenant with
    | [] => exact Nat.zero_le 1
    | [z] => exact Nat.le_refl 1
    | z :: z' :: rest =>
      -- two active themes of one tenant would be one theme twice
      have hz : z ∈ t.activeOf tenant := by simp [hactive]
      have hz' : z' ∈ t.activeOf tenant := by simp [hactive]
      obtain ⟨hmem, htenant, hactive'⟩ := mem_activeOf.mp hz
      obtain ⟨hmem', htenant', hactive''⟩ := mem_activeOf.mp hz'
      have heq : z = z' := eq_of_id_eq hmem hmem' <|
        h z hmem z' hmem' (htenant.trans htenant'.symm) hactive' hactive''
      rw [hactive, heq] at hnodup
      exact absurd List.mem_cons_self (List.nodup_cons.mp hnodup).1

/-- If other tenants' themes are what they were, it is enough to look at one tenant. -/
theorem AtMostOneActive.of_onlyActive (h : t.AtMostOneActive) (hsame : t.SameElsewhere tenant t')
    (honly : t'.OnlyActive tenant theme) : t'.AtMostOneActive := by
  rw [atMostOneActive_iff] at h ⊢
  intro x hx y hy htenant hxactive hyactive
  by_cases hx' : x.tenant = tenant
  · rw [honly x hx hx' hxactive, honly y hy (htenant.symm.trans hx') hyactive]
  · have hy' : y.tenant ≠ tenant := fun hy' ↦ hx' (htenant.trans hy')
    exact h x ((hsame x hx').mp hx) y ((hsame y hy').mp hy) htenant hxactive hyactive

/-! ## What statements do -/

section

variable {name : String} {settings : Json} {created : Answer (.insertTheme tenant name settings)}
  {locked : Answer (.lockThemes tenant)} {others : Answer (.deactivateOthers tenant theme)}
  {activated : Answer (.activateTheme theme)}

theorem sameElsewhere_insert (h : does (.insertTheme tenant name settings) t created t') :
    t.SameElsewhere tenant t' := by
  obtain ⟨x, htenant, -, -, -, -, hthemes⟩ := h
  intro y hy
  have hne : y ≠ x := fun heq ↦ hy (heq ▸ htenant)
  rw [hthemes.mem_iff, List.mem_cons]
  exact ⟨fun hmem ↦ hmem.resolve_left hne, .inr⟩

theorem atMostOneActive_insert (h : does (.insertTheme tenant name settings) t created t')
    (ht : t.AtMostOneActive) : t'.AtMostOneActive := by
  obtain ⟨x, -, -, -, hinactive, -, hthemes⟩ := h
  have hold : ∀ y ∈ t'.themes, y.active = true → y ∈ t.themes := by
    intro y hy hactive
    rcases List.mem_cons.mp (hthemes.mem_iff.mp hy) with rfl | hmem
    · rw [hinactive] at hactive
      exact absurd hactive Bool.false_ne_true
    · exact hmem
  rw [atMostOneActive_iff] at ht ⊢
  intro y hy z hz htenant hyactive hzactive
  exact ht y (hold y hy hyactive) z (hold z hz hzactive) htenant hyactive hzactive

/-- The locked identifiers are those of the tenant's themes. -/
theorem contains_iff_owns {ids : List Uuid} (h : does (.lockThemes tenant) t locked t')
    (hids : allRows (.ok locked) = .ok ids) : ids.contains theme = true ↔ t.Owns tenant theme := by
  obtain ⟨⟨ids', hrows, hperm⟩, -⟩ := h
  obtain rfl := Except.ok.inj ((allRows_of_rows hrows).symm.trans hids)
  rw [List.contains_iff_mem, hperm.mem_iff, List.mem_map]
  constructor
  · rintro ⟨x, hx, rfl⟩
    obtain ⟨hmem, htenant⟩ := List.mem_filter.mp hx
    exact ⟨x, hmem, of_decide_eq_true htenant, rfl⟩
  · rintro ⟨x, hmem, htenant, rfl⟩
    exact ⟨x, List.mem_filter.mpr ⟨hmem, decide_eq_true htenant⟩, rfl⟩

theorem mem_deactivated (h : does (.deactivateOthers tenant theme) t others t') :
    x ∈ t'.themes ↔ ∃ y ∈ t.themes, y.deactivatedUnless tenant theme = x :=
  (List.Perm.mem_iff h).trans List.mem_map

theorem sameElsewhere_deactivate (h : does (.deactivateOthers tenant theme) t others t') :
    t.SameElsewhere tenant t' := by
  intro x hx
  rw [mem_deactivated h]
  constructor
  · rintro ⟨y, hy, rfl⟩
    rw [Theme.tenant_deactivatedUnless] at hx
    rwa [Theme.deactivatedUnless_of_ne hx]
  · intro hmem
    exact ⟨x, hmem, Theme.deactivatedUnless_of_ne hx⟩

theorem onlyActive_deactivate (h : does (.deactivateOthers tenant theme) t others t') :
    t'.OnlyActive tenant theme := by
  intro x hx htenant hactive
  obtain ⟨y, -, rfl⟩ := (mem_deactivated h).mp hx
  rw [Theme.tenant_deactivatedUnless] at htenant
  rw [Theme.id_deactivatedUnless]
  exact Theme.id_eq_of_active_deactivatedUnless htenant hactive

theorem owns_deactivate (h : does (.deactivateOthers tenant theme) t others t')
    (howns : t.Owns tenant theme) : t'.Owns tenant theme := by
  obtain ⟨x, hx, htenant, hid⟩ := howns
  exact ⟨_, (mem_deactivated h).mpr ⟨x, hx, rfl⟩, by simpa using htenant, by simpa using hid⟩

theorem mem_activated (h : does (.activateTheme theme) t activated t') :
    x ∈ t'.themes ↔ ∃ y ∈ t.themes, y.activatedIf theme = x :=
  h.1.mem_iff.trans List.mem_map

theorem owns_activate (h : does (.activateTheme theme) t activated t')
    (howns : t.Owns tenant theme) : t'.Owns tenant theme := by
  obtain ⟨x, hx, htenant, hid⟩ := howns
  exact ⟨_, (mem_activated h).mpr ⟨x, hx, rfl⟩, by simpa using htenant, by simpa using hid⟩

/-- A theme of the tenant is not one of another tenant. -/
theorem id_ne_of_owns (howns : t.Owns tenant theme) (hx : x ∈ t.themes)
    (htenant : x.tenant ≠ tenant) : x.id ≠ theme := by
  obtain ⟨y, hy, hytenant, rfl⟩ := howns
  intro hid
  rw [eq_of_id_eq hx hy hid] at htenant
  exact htenant hytenant

theorem sameElsewhere_activate (h : does (.activateTheme theme) t activated t')
    (howns : t.Owns tenant theme) : t.SameElsewhere tenant t' := by
  intro x hx
  rw [mem_activated h]
  constructor
  · rintro ⟨y, hy, rfl⟩
    rw [Theme.tenant_activatedIf] at hx
    rwa [Theme.activatedIf_of_ne (id_ne_of_owns howns hy hx)]
  · intro hmem
    exact ⟨x, hmem, Theme.activatedIf_of_ne (id_ne_of_owns howns hmem hx)⟩

theorem onlyActive_activate (h : does (.activateTheme theme) t activated t')
    (honly : t.OnlyActive tenant theme) : t'.OnlyActive tenant theme := by
  intro x hx htenant hactive
  obtain ⟨y, hy, rfl⟩ := (mem_activated h).mp hx
  rw [Theme.tenant_activatedIf] at htenant
  rw [Theme.id_activatedIf]
  by_contra hne
  rw [Theme.activatedIf_of_ne hne] at hactive
  exact hne (honly y hy htenant hactive)

/-- The row that comes back is the theme, which is active now. -/
theorem active_of_activate (h : does (.activateTheme theme) t activated t')
    (hrow : oneRow (.ok activated) = .ok x) :
    x ∈ t'.themes ∧ x.id = theme ∧ x.active = true := by
  have hfilter : x ∈ t'.themes.filter (·.id = theme) := by
    have hfirst := oneRow_eq_ok_iff.mp hrow
    obtain ⟨-, hrows⟩ := h
    obtain ⟨rows, affected⟩ := activated
    obtain rfl : rows = _ := hrows
    cases hthemes : t'.themes.filter (·.id = theme) with
    | nil =>
      rw [hthemes] at hfirst
      cases hfirst
    | cons y ys =>
      rw [hthemes] at hfirst
      cases hfirst
      exact List.mem_cons_self
  obtain ⟨hmem, hid⟩ := List.mem_filter.mp hfilter
  obtain ⟨y, -, rfl⟩ := (mem_activated h).mp hmem
  have hid : (y.activatedIf theme).id = theme := of_decide_eq_true hid
  refine ⟨hmem, hid, Theme.active_activatedIf ?_⟩
  rwa [Theme.id_activatedIf] at hid

theorem exists_row_of_activate (h : does (.activateTheme theme) t activated t')
    (howns : t.Owns tenant theme) : ∃ x, oneRow (.ok activated) = .ok x := by
  obtain ⟨y, hy, -, hid⟩ := howns
  have hmem : y.activatedIf theme ∈ t'.themes.filter (·.id = theme) := by
    refine List.mem_filter.mpr ⟨(mem_activated h).mpr ⟨y, hy, rfl⟩, decide_eq_true ?_⟩
    rw [Theme.id_activatedIf, hid]
  obtain ⟨-, hrows⟩ := h
  obtain ⟨rows, affected⟩ := activated
  obtain rfl : rows = _ := hrows
  cases hthemes : t'.themes.filter (·.id = theme) with
  | nil =>
    rw [hthemes] at hmem
    exact absurd hmem List.not_mem_nil
  | cons z zs => exact ⟨z, oneRow_eq_ok_iff.mpr rfl⟩

end

/-! ## Tables that do what is asked of them

New themes are numbered by `nextId`. As there are only so many identifiers, a number may be taken,
and then the insertion has to be refused. -/

/-- The identifier of the next theme. -/
def nextId (t : ThemeTable) : Uuid := ⟨BitVec.ofNat 128 (t.themes.length + 1)⟩

/-- Whether a statement would have to take an identifier twice. -/
def clashes (t : ThemeTable) : Statement → Bool
  | .insertTheme .. => (t.themes.map (·.id)).contains t.nextId
  | _ => false

def update (t : ThemeTable) (f : Theme → Theme) (hf : ∀ x, (f x).id = x.id) : ThemeTable where
  themes := t.themes.map f
  nodup := by
    have hids : (t.themes.map f).map (·.id) = t.themes.map (·.id) := by
      rw [List.map_map]
      exact List.map_congr_left fun x _ ↦ hf x
    rw [hids]
    exact t.nodup

/-- Tables for the themes of all tenants. -/
def tables : Database.Tables ThemeTable
  | .insertTheme tenant name settings, t =>
    let x : Theme := ⟨t.nextId, tenant, name, settings, false, .epoch⟩
    if h : x.id ∈ t.themes.map (·.id) then ({}, t)
    else ({ rows := [.ok x] }, ⟨x :: t.themes, List.nodup_cons.mpr ⟨h, t.nodup⟩⟩)
  | .lockThemes tenant, t =>
    ({ rows := ((t.themes.filter (·.tenant = tenant)).map (·.id)).map .ok }, t)
  | .deactivateOthers tenant keep, t =>
    ({}, t.update (Theme.deactivatedUnless tenant keep) fun _ ↦ Theme.id_deactivatedUnless)
  | .activateTheme id, t =>
    let t := t.update (Theme.activatedIf id) fun _ ↦ Theme.id_activatedIf
    ({ rows := (t.themes.filter (·.id = id)).map .ok }, t)
  | _, t => ({}, t)

theorem does_tables {s : Statement} (h : t.clashes s = false) :
    does s t (tables s t).1 (tables s t).2 := by
  cases s with
  | insertTheme tenant name settings =>
    have hfree : t.nextId ∉ t.themes.map (·.id) := by
      intro hmem
      rw [clashes, List.contains_iff_mem.mpr hmem] at h
      exact nomatch h
    simp only [tables, dif_neg hfree]
    exact ⟨_, rfl, rfl, rfl, rfl, rfl, .refl _⟩
  | lockThemes tenant => exact ⟨⟨_, rfl, .refl _⟩, rfl⟩
  | deactivateOthers tenant keep => exact List.Perm.refl _
  | activateTheme id => exact ⟨.refl _, rfl⟩
  | _ => trivial

/-- A database of themes. Which of the coming statements it refuses, and why, is given in advance;
an insertion is refused also if the identifier is taken. -/
def serve : Program.Peer (Database ThemeTable × List (Option DbError)) := fun (d, refusals) s ↦
  let refusal : Option DbError :=
    if (d.working.getD d.committed).clashes s then
      some (.database "" (some DbError.uniqueViolation) none)
    else refusals.head?.join
  Database.serve tables (d, refusal :: refusals.tail) s

theorem takes_serve (st : Database ThemeTable × List (Option DbError)) (s : Statement) :
    st.1.Takes does ⟨s, (serve st s).1⟩ (serve st s).2.1 := by
  obtain ⟨d, refusals⟩ := st
  refine Database.takes_serve ?_
  rintro hnone _ rfl
  cases hclash : (d.working.getD d.committed).clashes s with
  | false => exact does_tables hclash
  | true =>
    rw [hclash] at hnone
    exact nomatch hnone

end ThemeTable

end Pagesmith.Store
