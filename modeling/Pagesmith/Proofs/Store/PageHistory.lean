import Pagesmith.Proofs.Store.Database
import Pagesmith.Proofs.Store.Retrying
import Pagesmith.Proofs.Store.Writes

/-!
# The history of a page

No list of blocks that a page has ever had is lost. The versions of a page, the oldest first, and
then the page itself hold all lists that were ever committed, each once and in order, and the
versions are numbered without gaps. Any calls may be made, one after the other, and any statements
may be refused: a call that fails has changed nothing, and one that succeeds has added one list to
the history.

What was ever committed is told by the `log` of the database, which is written by commits alone. So
a commit of a page without its version, or of a version without its page, would show.
-/

/-! ## One page and its versions

A `PageTable` is the tables as far as one page is concerned: the page, once there is one, and its
versions in the order in which they were inserted. What is asked of the statements is what they say.
A select returns the row that is asked for, the greatest number is the greatest there is, an
insertion appends a row with the given values, and an update replaces the given columns.

The page is created by the tables' own choice of an identifier, and what they fill in on their own,
identifiers of versions and points in time, is left open. -/

namespace Pagesmith.Store

/-- Whether `a` consists of `row`, or is empty. -/
def Answer.Holds {s : Statement} (a : Answer s) (row : Option s.Row) : Prop :=
  a.rows = row.toList.map .ok

theorem Answer.Holds.eq {s : Statement} {a : Answer s} {row row' : Option s.Row} (h : a.Holds row)
    (hrow : firstRow (.ok a) = .ok row') : row = row' := by
  obtain ⟨rows, affected⟩ := a
  obtain rfl : rows = row.toList.map .ok := h
  cases row <;> exact Except.ok.inj hrow

/-- A page, if there is one, and its versions. -/
structure PageTable where
  page : Option Page := none
  versions : List PageVersion := []

namespace PageTable

def pageOf (t : PageTable) (id : Uuid) : Option Page := t.page.filter (·.id = id)

def pageAt (t : PageTable) (tenant : Uuid) (slug : String) : Option Page :=
  t.page.filter fun p ↦ p.tenant = tenant ∧ p.slug = slug

def greatest (t : PageTable) (id : Uuid) : Option Int :=
  ((t.versions.filter (·.page = id)).map (·.version)).max?

/-- What an update of the page `id` by `replace` does, and returns. -/
def Replaces (t : PageTable) (id : Uuid) (replace : Page → Page) (row : Option Page)
    (t' : PageTable) : Prop :=
  match t.pageOf id with
  | none => row = none ∧ t' = t
  | some p => ∃ time, row = some { replace p with updated := time } ∧ t' = { t with page := row }

/-- What the statements that concern the page and its versions do, and how they are answered. -/
def does : Effects PageTable
  | .lockPage id, t, a, t' => a.Holds (t.pageOf id) ∧ t' = t
  | .lockPageBySlug tenant slug, t, a, t' => a.Holds (t.pageAt tenant slug) ∧ t' = t
  | .pageExists id, t, a, t' => a.Holds (some (t.pageOf id).isSome) ∧ t' = t
  | .selectVersion id n, t, a, t' =>
    a.Holds (t.versions.find? fun v ↦ v.page = id ∧ v.version = n) ∧ t' = t
  | .selectGreatestVersion id, t, a, t' => a.Holds (some (t.greatest id)) ∧ t' = t
  | .insertPageIfAbsent tenant slug title blocks, t, a, t' =>
    match t.page with
    | none =>
      ∃ p : Page, p.tenant = tenant ∧ p.slug = slug ∧ p.title = title ∧ p.blocks = blocks ∧
        a.Holds (some p) ∧ t' = { t with page := some p }
    | some p => p.tenant = tenant → p.slug = slug → a.Holds none ∧ t' = t
  | .insertVersion id n blocks editor, t, a, t' =>
    ∃ v : PageVersion, v.page = id ∧ v.version = n ∧ v.snapshot = blocks ∧ v.editor = editor ∧
      a.Holds (some v) ∧ t' = { t with versions := t.versions ++ [v] }
  | .updateBlocks id blocks, t, a, t' =>
    ∃ row, a.Holds row ∧ t.Replaces id ({ · with blocks := blocks }) row t'
  | .updateBlocksAndTitle id blocks title, t, a, t' =>
    ∃ row, a.Holds row ∧ t.Replaces id ({ · with blocks := blocks, title := title }) row t'
  | _, _, _, _ => True

theorem pageOf_eq_some_iff {t : PageTable} {id : Uuid} {p : Page} :
    t.pageOf id = some p ↔ t.page = some p ∧ p.id = id := by
  rw [pageOf, Option.filter_eq_some_iff, decide_eq_true_iff]

theorem pageAt_eq_some_iff {t : PageTable} {tenant : Uuid} {slug : String} {p : Page} :
    t.pageAt tenant slug = some p ↔ t.page = some p ∧ p.tenant = tenant ∧ p.slug = slug := by
  rw [pageAt, Option.filter_eq_some_iff, decide_eq_true_iff]

theorem Replaces.eq {t t' : PageTable} {p : Page} {replace : Page → Page} {row : Option Page}
    (h : t.Replaces p.id replace row t') (hp : t.page = some p) :
    ∃ time, row = some { replace p with updated := time } ∧ t' = { t with page := row } := by
  rwa [Replaces, pageOf_eq_some_iff.mpr ⟨hp, rfl⟩] at h

/-! ### What a write makes of the tables -/

/-- How a successful write of `new` to the page of `tenant` at `slug` changes the tables, and what
it returns. -/
inductive Grows (tenant : Uuid) (slug : String) (new : List Block) :
    PageTable → PageUpdate → PageTable → Prop
  | created {p : Page} {versions : List PageVersion} (htenant : p.tenant = tenant)
    (hslug : p.slug = slug) (hblocks : p.blocks = new) :
    Grows tenant slug new ⟨none, versions⟩ ⟨p, none⟩ ⟨some p, versions⟩
  | overwritten {p q : Page} {v : PageVersion} {versions : List PageVersion} (hid : q.id = p.id)
    (htenant : q.tenant = p.tenant) (hslug : q.slug = p.slug) (hblocks : q.blocks = new)
    (hpage : v.page = p.id) (hsnapshot : v.snapshot = p.blocks)
    (hnumber : nextVersion (greatest ⟨some p, versions⟩ p.id) = some v.version) :
    Grows tenant slug new ⟨some p, versions⟩ ⟨q, some v⟩ ⟨some q, versions ++ [v]⟩

section

variable {c t : PageTable} {log : List PageTable} {d' : Database PageTable}
  {talk rest : List Exchange} {page : Uuid} {blocks : List Block} {editor tenant : Uuid}
  {slug title : String}

open Database

/-- A version is appended, with the number after the greatest one. -/
theorem through_snapshot {v : PageVersion}
    (h : Versions.SnapshotYields page blocks editor talk (.ok v))
    (hthrough : Through does ⟨c, some t, log⟩ (talk ++ rest) d') :
    v.page = page ∧ nextVersion (t.greatest page) = some v.version ∧ v.snapshot = blocks ∧
      Through does ⟨c, some { t with versions := t.versions ++ [v] }, log⟩ rest d' := by
  cases h with
  | kept h hnext hinsert =>
    obtain ⟨asked, _, hasked, ⟨hgreatest, rfl⟩, hafter⟩ :=
      through_cons rfl (oneRow_eq_ok_iff.mp h) hthrough
    obtain ⟨answer, _, hanswer, ⟨v', hpage, hversion, hsnapshot, -, hholds, rfl⟩, hrest⟩ :=
      through_cons rfl (oneRow_eq_ok_iff.mp hinsert) hafter
    obtain rfl := Option.some.inj (hgreatest.eq hasked)
    obtain rfl := Option.some.inj (hholds.eq hanswer)
    exact ⟨hpage, hversion ▸ hnext, hsnapshot, hrest⟩

/-- Where the page is there, a version is recorded. -/
theorem through_recordIfPresent {p : Page} {v : Option PageVersion} (hp : t.page = some p)
    (h : Versions.RecordYields p.id blocks editor talk (.ok v))
    (hthrough : Through does ⟨c, some t, log⟩ (talk ++ rest) d') :
    ∃ kept, v = some kept ∧ kept.page = p.id ∧
      nextVersion (t.greatest p.id) = some kept.version ∧ kept.snapshot = blocks ∧
      Through does ⟨c, some { t with versions := t.versions ++ [kept] }, log⟩ rest d' := by
  have hthere : t.pageOf p.id = some p := pageOf_eq_some_iff.mpr ⟨hp, rfl⟩
  cases h with
  | absent h =>
    obtain ⟨present, _, hpresent, ⟨hholds, rfl⟩, hafter⟩ :=
      through_cons rfl (oneRow_eq_ok_iff.mp h) hthrough
    have hfalse := hholds.eq hpresent
    rw [hthere] at hfalse
    cases hfalse
  | kept h hsnapshot =>
    obtain ⟨present, _, hpresent, ⟨-, rfl⟩, hafter⟩ :=
      through_cons rfl (oneRow_eq_ok_iff.mp h) hthrough
    exact ⟨_, rfl, through_snapshot hsnapshot hafter⟩

theorem page_eq_none (ht : ∀ p ∈ t.page, p.tenant = tenant ∧ p.slug = slug)
    (h : t.pageAt tenant slug = none) : t.page = none := by
  cases hpage : t.page with
  | none => rfl
  | some p => exact nomatch h.symm.trans (pageAt_eq_some_iff.mpr ⟨hpage, ht p hpage⟩)

/-- What is found is the page, and what is created is the only one. -/
theorem through_lockOrCreate {slot : Pages.Slot}
    (ht : ∀ p ∈ t.page, p.tenant = tenant ∧ p.slug = slug)
    (h : Pages.FindYields tenant slug title blocks talk (.ok slot))
    (hthrough : Through does ⟨c, some t, log⟩ (talk ++ rest) d') :
    (∃ p, slot = .existing p ∧ t.page = some p ∧ Through does ⟨c, some t, log⟩ rest d') ∨
      ∃ p, slot = .created p ∧ t.page = none ∧ p.tenant = tenant ∧ p.slug = slug ∧
        p.blocks = blocks ∧ Through does ⟨c, some ⟨some p, t.versions⟩, log⟩ rest d' := by
  cases h with
  | found h =>
    obtain ⟨locked, _, hlocked, ⟨hholds, rfl⟩, hafter⟩ := through_cons rfl h hthrough
    exact .inl ⟨_, rfl, (pageAt_eq_some_iff.mp (hholds.eq hlocked)).1, hafter⟩
  | created h hinsert =>
    obtain ⟨locked, _, hlocked, ⟨hholds, rfl⟩, hafter⟩ := through_cons rfl h hthrough
    obtain ⟨inserted, t', hinserted, hdoes, hrest⟩ := through_cons rfl hinsert hafter
    have hnone := page_eq_none ht (hholds.eq hlocked)
    simp only [does, hnone] at hdoes
    obtain ⟨p, htenant, hslug, -, hblocks, hrow, rfl⟩ := hdoes
    obtain rfl := Option.some.inj (hrow.eq hinserted)
    exact .inr ⟨p, rfl, hnone, htenant, hslug, hblocks, hrest⟩
  | overtaken h hinsert hagain =>
    -- where there is no page, an insertion never comes too late
    obtain ⟨locked, _, hlocked, ⟨hholds, rfl⟩, hafter⟩ := through_cons rfl h hthrough
    obtain ⟨inserted, t', hinserted, hdoes, -⟩ := through_cons rfl hinsert hafter
    simp only [does, page_eq_none ht (hholds.eq hlocked)] at hdoes
    obtain ⟨p, -, -, -, -, hrow, -⟩ := hdoes
    exact nomatch hrow.eq hinserted

/-- A page is overwritten last, after its version has been kept. -/
theorem grows_of_replaces {p q : Page} {v : PageVersion} {t' : PageTable} {replace : Page → Page}
    (hp : t.page = some p) (hpage : v.page = p.id) (hsnapshot : v.snapshot = p.blocks)
    (hnumber : nextVersion (t.greatest p.id) = some v.version)
    (h : Replaces ⟨t.page, t.versions ++ [v]⟩ p.id replace (some q) t')
    (hkeeps : ∀ p, (replace p).id = p.id ∧ (replace p).tenant = p.tenant ∧
      (replace p).slug = p.slug ∧ (replace p).blocks = blocks) :
    t.Grows tenant slug blocks ⟨q, some v⟩ t' := by
  obtain ⟨time, hq, rfl⟩ := h.eq hp
  obtain ⟨page, versions⟩ := t
  obtain rfl : page = some p := hp
  obtain rfl := Option.some.inj hq
  obtain ⟨hid, htenant, hslug, hblocks⟩ := hkeeps p
  exact .overwritten hid htenant hslug hblocks hpage hsnapshot hnumber

theorem grows_update {u : Page × PageVersion} {t' : PageTable}
    (h : Pages.UpdateYields page blocks editor talk (.ok (.complete u)))
    (hthrough : Through does ⟨c, some t, log⟩ talk ⟨c, some t', log⟩) :
    t.Grows tenant slug blocks (Write.withVersion u) t' := by
  cases h with
  | written h hsnapshot hwrite =>
    obtain ⟨locked, _, hlocked, ⟨hholds, rfl⟩, hafter⟩ := through_cons rfl h hthrough
    obtain ⟨hp, rfl⟩ := pageOf_eq_some_iff.mp (hholds.eq hlocked)
    obtain ⟨hpage, hnumber, hblocks, hlast⟩ := through_snapshot hsnapshot hafter
    obtain ⟨answer, _, hanswer, ⟨row, hrow, hreplaces⟩, ⟨⟩⟩ :=
      through_cons rfl (oneRow_eq_ok_iff.mp hwrite) hlast
    obtain rfl := hrow.eq hanswer
    exact grows_of_replaces hp hpage hblocks hnumber hreplaces fun _ ↦ ⟨rfl, rfl, rfl, rfl⟩

theorem grows_save {u : PageUpdate} {t' : PageTable}
    (ht : ∀ p ∈ t.page, p.tenant = tenant ∧ p.slug = slug)
    (h : Pages.SaveYields tenant slug title blocks editor talk (.ok (.complete u)))
    (hthrough : Through does ⟨c, some t, log⟩ talk ⟨c, some t', log⟩) :
    t.Grows tenant slug blocks u t' := by
  cases h with
  | created hfind =>
    rw [← List.append_nil talk] at hthrough
    obtain ⟨p, hslot, -, -⟩ | ⟨p, hslot, hnone, htenant, hslug, hblocks, ⟨⟩⟩ :=
      through_lockOrCreate ht hfind hthrough
    · cases hslot
    · cases hslot
      obtain ⟨page, versions⟩ := t
      obtain rfl : page = none := hnone
      exact .created htenant hslug hblocks
  | written hfind hrecord hwrite =>
    obtain ⟨p, hslot, hp, hafter⟩ | ⟨p, hslot, -⟩ := through_lockOrCreate ht hfind hthrough
    · cases hslot
      obtain ⟨v, rfl, hpage, hnumber, hblocks, hlast⟩ := through_recordIfPresent hp hrecord hafter
      obtain ⟨answer, _, hanswer, ⟨row, hrow, hreplaces⟩, ⟨⟩⟩ :=
        through_cons rfl (oneRow_eq_ok_iff.mp hwrite) hlast
      obtain rfl := hrow.eq hanswer
      exact grows_of_replaces hp hpage hblocks hnumber hreplaces fun _ ↦ ⟨rfl, rfl, rfl, rfl⟩
    · cases hslot

end

/-! ### Tables that do what is asked of them -/

/-- An answer of `row` alone, or of none. -/
def holding {s : Statement} (row : Option s.Row) : Answer s := { rows := row.toList.map .ok }

/-- Replace columns of a page, at the epoch. -/
def replacing (t : PageTable) (id : Uuid) (replace : Page → Page) : Option Page × PageTable :=
  match t.pageOf id with
  | none => (none, t)
  | some p =>
    let q := { replace p with updated := .epoch }
    (some q, { t with page := some q })

theorem replaces_replacing (t : PageTable) (id : Uuid) (replace : Page → Page) :
    t.Replaces id replace (t.replacing id replace).1 (t.replacing id replace).2 := by
  rw [Replaces, replacing]
  cases t.pageOf id with
  | none => exact ⟨rfl, rfl⟩
  | some p => exact ⟨.epoch, rfl, rfl⟩

/-- Tables for one page, with the identifiers that are given. -/
def tables (pageId versionId : Uuid) : Database.Tables PageTable
  | .lockPage id, t => (holding (t.pageOf id), t)
  | .lockPageBySlug tenant slug, t => (holding (t.pageAt tenant slug), t)
  | .pageExists id, t => (holding (some (t.pageOf id).isSome), t)
  | .selectVersion id n, t =>
    (holding (t.versions.find? fun v ↦ v.page = id ∧ v.version = n), t)
  | .selectGreatestVersion id, t => (holding (some (t.greatest id)), t)
  | .insertPageIfAbsent tenant slug title blocks, t =>
    match t.page with
    | none =>
      let p : Page := ⟨pageId, tenant, slug, title, blocks, false, .null, .epoch, .epoch⟩
      (holding (some p), { t with page := some p })
    | some _ => (holding none, t)
  | .insertVersion id n blocks editor, t =>
    let v : PageVersion := ⟨versionId, id, n, blocks, editor, .epoch⟩
    (holding (some v), { t with versions := t.versions ++ [v] })
  | .updateBlocks id blocks, t =>
    let (row, t) := t.replacing id ({ · with blocks := blocks })
    (holding row, t)
  | .updateBlocksAndTitle id blocks title, t =>
    let (row, t) := t.replacing id ({ · with blocks := blocks, title := title })
    (holding row, t)
  | _, t => ({}, t)

theorem does_tables {pageId versionId : Uuid} (s : Statement) (t : PageTable) :
    does s t (tables pageId versionId s t).1 (tables pageId versionId s t).2 := by
  cases s with
  | lockPage id => exact ⟨rfl, rfl⟩
  | lockPageBySlug tenant slug => exact ⟨rfl, rfl⟩
  | pageExists id => exact ⟨rfl, rfl⟩
  | selectVersion id n => exact ⟨rfl, rfl⟩
  | selectGreatestVersion id => exact ⟨rfl, rfl⟩
  | insertPageIfAbsent tenant slug title blocks =>
    obtain ⟨page, versions⟩ := t
    cases page with
    | none => exact ⟨_, rfl, rfl, rfl, rfl, rfl, rfl⟩
    | some p => exact fun _ _ ↦ ⟨rfl, rfl⟩
  | insertVersion id n blocks editor => exact ⟨_, rfl, rfl, rfl, rfl, rfl, rfl⟩
  | updateBlocks id blocks => exact ⟨_, rfl, replaces_replacing t id _⟩
  | updateBlocksAndTitle id blocks title => exact ⟨_, rfl, replaces_replacing t id _⟩
  | _ => trivial

end PageTable

/-! ## Histories -/

open Database

/-! ### Histories without loss -/

namespace PageTable

/-- The block lists of the versions, and then that of the page. -/
def lists (t : PageTable) : List (List Block) :=
  t.versions.map (·.snapshot) ++ (t.page.map (·.blocks)).toList

/-- The lists that the page has had after commits. -/
def committedLists (log : List PageTable) : List (List Block) :=
  log.filterMap fun t ↦ t.page.map (·.blocks)

end PageTable

/-- Whether `d` keeps the whole history of the page of `tenant` at `slug`. -/
structure Lossless (tenant : Uuid) (slug : String) (d : Database PageTable) : Prop where
  /-- No transaction is open. -/
  idle : d.working = none
  found : ∀ p ∈ d.committed.page, p.tenant = tenant ∧ p.slug = slug
  /-- There are only versions of the page. -/
  own : ∀ v ∈ d.committed.versions, ∃ p ∈ d.committed.page, v.page = p.id
  /-- The numbers have no gaps, as long as they fit. -/
  numbers : d.committed.versions.length < 2 ^ 31 →
    d.committed.versions.map (·.version) = firstNumbers d.committed.versions.length
  lists : d.committed.lists = PageTable.committedLists d.log

section

variable {tenant : Uuid} {slug : String} {c w : PageTable} {log : List PageTable}
  {d d' : Database PageTable} {u : PageUpdate} {r : Except StoreError PageUpdate}
  {talk inner : List Exchange} {new : List Block}

/-- The number of the next version continues the others. -/
theorem numbers_append {p : Page} {versions : List PageVersion} {v : PageVersion}
    (hown : ∀ v ∈ versions, v.page = p.id)
    (hnumbers : versions.length < 2 ^ 31 →
      versions.map (·.version) = firstNumbers versions.length)
    (hnumber : nextVersion (PageTable.greatest ⟨some p, versions⟩ p.id) = some v.version)
    (hlength : (versions ++ [v]).length < 2 ^ 31) :
    (versions ++ [v]).map (·.version) = firstNumbers (versions ++ [v]).length := by
  rw [List.length_append, List.length_singleton] at hlength ⊢
  have hfit := hnumbers (by omega)
  have hall : versions.filter (·.page = p.id) = versions :=
    List.filter_eq_self.mpr fun v hv ↦ decide_eq_true (hown v hv)
  have hnext : nextVersion (firstNumbers versions.length).max? = some (versions.length + 1 : Int) :=
    nextVersion_greatest (fun _ ↦ Iff.rfl) (by omega)
  rw [PageTable.greatest, hall, hfit, hnext] at hnumber
  rw [List.map_append, hfit, List.map_singleton, ← Option.some.inj hnumber, firstNumbers_succ]

/-- A commit of what a successful write has made of the tables loses nothing. -/
theorem Lossless.commit (h : Lossless tenant slug ⟨c, none, log⟩)
    (hgrows : c.Grows tenant slug new u w) :
    Lossless tenant slug ⟨w, none, log ++ [w]⟩ := by
  have hlists : PageTable.committedLists (log ++ [w]) =
      c.lists ++ PageTable.committedLists [w] := by
    rw [PageTable.committedLists, List.filterMap_append, h.lists]
    rfl
  cases hgrows with
  | @created p versions htenant hslug hblocks =>
    refine ⟨rfl, ?_, ?_, h.numbers, ?_⟩
    · rintro _ ⟨⟩
      exact ⟨htenant, hslug⟩
    · intro v hv
      obtain ⟨_, ⟨⟩, -⟩ := h.own v hv
    · rw [hlists]
      simp [PageTable.lists, PageTable.committedLists]
  | @overwritten p q v versions hid htenant hslug hblocks hpage hsnapshot hnumber =>
    have hown : ∀ v ∈ versions, v.page = p.id := by
      intro v hv
      obtain ⟨_, ⟨⟩, hv⟩ := h.own v hv
      exact hv
    refine ⟨rfl, ?_, ?_, numbers_append hown h.numbers hnumber, ?_⟩
    · rintro _ ⟨⟩
      rw [htenant, hslug]
      exact h.found p rfl
    · intro v' hv'
      refine ⟨q, rfl, ?_⟩
      rw [hid]
      rcases List.mem_append.mp hv' with hv' | hv'
      · exact hown v' hv'
      · rw [List.mem_singleton.mp hv', hpage]
    · -- what was the page's list is now that of the new version, and stays where it was
      rw [hlists]
      simp [PageTable.lists, PageTable.committedLists, hsnapshot]

/-! ### Calls -/

def Write.SavesTo (tenant : Uuid) (slug : String) : Write → Prop
  | save tenant' slug' _ _ _ => tenant' = tenant ∧ slug' = slug
  | _ => True

/-- Whether `new` is the list that a call is to write: its own, or that of the version it names. -/
def Write.Means (c : PageTable) (new : List Block) : Write → Prop
  | update _ blocks _ | save _ _ _ blocks _ => new = blocks
  | restore page version _ =>
    ∃ v ∈ c.versions, v.page = page ∧ v.version = version ∧ v.snapshot = new

/-- What may have come of the call `w`: nothing, or what a successful write makes of the tables. -/
inductive Written (tenant : Uuid) (slug : String) (w : Write) :
    Database PageTable → Except StoreError PageUpdate → Database PageTable → Prop
  | nothing (e : StoreError) (d : Database PageTable) : Written tenant slug w d (.error e) d
  | happened {c c' : PageTable} {log : List PageTable} {new : List Block} {u : PageUpdate}
    (hmeans : w.Means c new) (hgrows : c.Grows tenant slug new u c') :
    Written tenant slug w ⟨c, none, log⟩ (.ok u) ⟨c', none, log ++ [c']⟩

/-- Reading the version to be restored changes nothing, and what is read is a version. -/
theorem through_selectVersion {page : Uuid} {version : Int}
    {found : Except DbError (Answer (.selectVersion page version))}
    (h : Through PageTable.does ⟨c, none, log⟩ [⟨.selectVersion page version, found⟩] d') :
    d' = ⟨c, none, log⟩ ∧ ∀ v, firstRow found = .ok (some v) →
      v ∈ c.versions ∧ v.page = page ∧ v.version = version := by
  obtain _ | ⟨hanswers, ⟨⟩⟩ := h
  cases found with
  | error e => exact ⟨hanswers, nofun⟩
  | ok a =>
    obtain ⟨_, ⟨hholds, rfl⟩, rfl⟩ := hanswers
    refine ⟨rfl, fun v hv ↦ ?_⟩
    have hfind := hholds.eq hv
    have hasked := List.find?_some hfind
    exact ⟨List.mem_of_find?_eq_some hfind, of_decide_eq_true hasked⟩

theorem through_brings {w : Write} {front : List Exchange} (h : w.Brings front new)
    (hthrough : Through PageTable.does ⟨c, none, log⟩ front d') :
    d' = ⟨c, none, log⟩ ∧ w.Means c new := by
  cases h with
  | update | save =>
    cases hthrough
    exact ⟨rfl, rfl⟩
  | @restore page version editor found past h =>
    obtain ⟨hsame, hversion⟩ := through_selectVersion hthrough
    obtain ⟨hmem, hpage, hnumber⟩ := hversion past h
    exact ⟨hsame, past, hmem, hpage, hnumber, rfl⟩

theorem grows_body {w : Write} {t : PageTable} (hw : w.SavesTo tenant slug)
    (hfound : ∀ p ∈ c.page, p.tenant = tenant ∧ p.slug = slug)
    (h : (w.body new).run.Yields inner (.ok (.complete u)))
    (hthrough : Through PageTable.does ⟨c, some c, log⟩ inner ⟨c, some t, log⟩) :
    c.Grows tenant slug new u t := by
  have hupdate {page : Uuid} {editor : Uuid}
      (h : (Ending.map Write.withVersion <$> Pages.updateBody page new editor).run.Yields inner
        (.ok (.complete u))) : c.Grows tenant slug new u t := by
    obtain ⟨u', hbody, rfl⟩ := Write.yields_updateBody_complete h
    exact PageTable.grows_update hbody hthrough
  cases w with
  | update page blocks editor => exact hupdate h
  | save tenant' slug' title blocks editor =>
    obtain ⟨rfl, rfl⟩ := hw
    exact PageTable.grows_save hfound (Pages.yields_saveBody h) hthrough
  | restore page version editor => exact hupdate h

/-- A call fails and has changed nothing, or it succeeds and has written. -/
theorem written_of_yields {w : Write} (hw : w.SavesTo tenant slug) (hd : Lossless tenant slug d)
    (h : w.Yields talk r) (hthrough : Through PageTable.does d talk d') :
    Written tenant slug w d r d' := by
  obtain ⟨c, working, log⟩ := d
  obtain rfl : working = none := hd.idle
  cases h with
  | unread editor h =>
    rw [(through_selectVersion hthrough).1]
    exact .nothing _ _
  | missing editor h =>
    rw [(through_selectVersion hthrough).1]
    exact .nothing _ _
  | tried hlead h =>
    rw [← lead_append_flatten_attempts talk] at hthrough
    obtain ⟨mid, hfront, hattempts⟩ := through_append hthrough
    obtain ⟨rfl, hmeans⟩ := through_brings hlead hfront
    cases outcome_rounds (w.careful_body _) h hattempts with
    | nothing e => exact .nothing e _
    | happened hbody hinner => exact .happened hmeans (grows_body hw hd.found hbody hinner)

theorem Lossless.written {w : Write} (h : Lossless tenant slug d)
    (hwritten : Written tenant slug w d r d') : Lossless tenant slug d' := by
  cases hwritten with
  | nothing e => exact h
  | happened hmeans hgrows => exact h.commit hgrows

end

/-! ### Any calls -/

section

variable {σ : Type} {peer : Program.Peer σ} {db : σ → Database PageTable} {tenant : Uuid}
  {slug : String}

theorem written_of_call
    (hpeer : ∀ st s, (db st).Allows PageTable.does s (peer st s).1 (db (peer st s).2))
    (maxAttempts : Nat) {w : Write} (hw : w.SavesTo tenant slug) {st : σ}
    (hst : Lossless tenant slug (db st)) :
    Written tenant slug w (db st) ((w.action maxAttempts).run.run peer st).1
      (db ((w.action maxAttempts).run.run peer st).2.2) :=
  written_of_yields hw hst (Write.yields_action (Program.yields_conversation peer _ st))
    (through_conversation hpeer _ st)

def afterCalls (peer : Program.Peer σ) (maxAttempts : Nat) (calls : List Write) (st : σ) : σ :=
  calls.foldl (fun st w ↦ ((w.action maxAttempts).run.run peer st).2.2) st

theorem lossless_afterCalls
    (hpeer : ∀ st s, (db st).Allows PageTable.does s (peer st s).1 (db (peer st s).2))
    (maxAttempts : Nat) {calls : List Write} (hcalls : ∀ w ∈ calls, w.SavesTo tenant slug) {st : σ}
    (hst : Lossless tenant slug (db st)) :
    Lossless tenant slug (db (afterCalls peer maxAttempts calls st)) := by
  induction calls generalizing st with
  | nil => exact hst
  | cons w calls ih =>
    obtain ⟨hw, hrest⟩ := List.forall_mem_cons.mp hcalls
    exact ih hrest (hst.written (written_of_call hpeer maxAttempts hw hst))

/-- **The history of a page.** Whatever is refused, after any calls the history of the page is there
without loss. The next call either fails and changes nothing, or it writes its block list: it
creates the page and no version, or it keeps what was there before as the next version. -/
theorem history_afterCalls
    (hpeer : ∀ st s, (db st).Allows PageTable.does s (peer st s).1 (db (peer st s).2))
    (maxAttempts : Nat) {calls : List Write} (hcalls : ∀ w ∈ calls, w.SavesTo tenant slug) {st : σ}
    (hst : Lossless tenant slug (db st)) :
    let st' := afterCalls peer maxAttempts calls st
    Lossless tenant slug (db st') ∧
      ∀ w : Write, w.SavesTo tenant slug →
        let next := (w.action maxAttempts).run.run peer st'
        (∀ e, next.1 = .error e → db next.2.2 = db st') ∧
          ∀ u, next.1 = .ok u → ∃ new, w.Means (db st').committed new ∧
            (db st').committed.Grows tenant slug new u (db next.2.2).committed := by
  intro st'
  have hst' : Lossless tenant slug (db st') := lossless_afterCalls hpeer maxAttempts hcalls hst
  refine ⟨hst', fun w hw ↦ ?_⟩
  intro next
  have hnext : Written tenant slug w (db st') next.1 (db next.2.2) :=
    written_of_call hpeer maxAttempts hw hst'
  generalize next.1 = r, db next.2.2 = d', db st' = d at hnext ⊢
  cases hnext with
  | nothing e => exact ⟨fun _ _ ↦ rfl, nofun⟩
  | happened hmeans hgrows =>
    refine ⟨nofun, ?_⟩
    rintro _ ⟨⟩
    exact ⟨_, hmeans, hgrows⟩

/-- The page is created, overwritten after a conflict, left alone by an update whose commit is
refused, and restored. -/
theorem history_after_conflict :
    let calls : List Write := [
      .save ⟨7⟩ "home" "Home" [] ⟨3⟩, .save ⟨7⟩ "home" "Home" [⟨"text", .null⟩] ⟨3⟩,
      .update ⟨1⟩ [⟨"image", .null⟩] ⟨3⟩, .restore ⟨1⟩ 1 ⟨3⟩]
    let conflict : DbError :=
      .database "" (some DbError.uniqueViolation) (some DbError.versionConstraint)
    let refusals := List.replicate 8 none ++ [some conflict] ++ List.replicate 13 none ++
      [some .poolClosed]
    let d := (afterCalls (serve (PageTable.tables ⟨1⟩ ⟨2⟩)) 5 calls (⟨{}, none, []⟩, refusals)).1
    Lossless ⟨7⟩ "home" d ∧ d.committed.versions.map (·.version) = [1, 2] := by
  intro calls conflict refusals d
  have hcalls : ∀ w ∈ calls, w.SavesTo ⟨7⟩ "home" := by simp [calls, Write.SavesTo]
  have hempty : Lossless ⟨7⟩ "home" (⟨{}, none, []⟩ : Database PageTable) :=
    ⟨rfl, nofun, nofun, fun _ ↦ rfl, rfl⟩
  exact ⟨(history_afterCalls (allows_serve PageTable.does_tables) 5 hcalls hempty).1, rfl⟩

end

end Pagesmith.Store
