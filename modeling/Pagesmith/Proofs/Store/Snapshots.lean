import Pagesmith.Proofs.Store.Retrying
import Pagesmith.Proofs.Store.Writes

/-!
# What attempts keep

An attempt keeps, as the new version, what it has locked itself, under a number it has asked for
itself. Nothing is carried over from an attempt before, where the page may have been another one. In
`KeepsItsLock` this is read off the conversation of each attempt: the rows that its own selects were
answered with stand next to the parameters that its own writes were sent with.

An update names its version after the page it was called for, a save after the page it has found.
The two could only differ if a select by an identifier were answered with the row of another one.
-/

namespace Pagesmith.Store

/-! ## Rows of a conversation -/

/-- The row that answers a statement, if there is one that can be read. -/
def rowOf {s : Statement} (answer : Except DbError (Answer s)) : Option s.Row :=
  match firstRow answer with
  | .ok row => row
  | .error _ => none

theorem rowOf_eq {s : Statement} {answer : Except DbError (Answer s)} {row : Option s.Row}
    (h : firstRow answer = .ok row) : rowOf answer = row := by
  rw [rowOf, h]

/-- The new block list of a page, if a statement updates one. -/
def Statement.overwrite : Statement → Option (List Block)
  | updateBlocks _ blocks | updateBlocksAndTitle _ blocks _ => some blocks
  | _ => none

namespace Exchange

/-- The page that a `SELECT … FOR UPDATE` was answered with. -/
def lock : Exchange → Option (Option Page)
  | ⟨.lockPage _, answer⟩ => some (rowOf answer)
  | ⟨.lockPageBySlug .., answer⟩ => some (rowOf answer)
  | _ => none

/-- The greatest version number that was told. -/
def greatest : Exchange → Option (Option Int)
  | ⟨.selectGreatestVersion _, answer⟩ => rowOf answer
  | _ => none

def writtenPage : Exchange → Option Page
  | ⟨.updateBlocks .., answer⟩ => rowOf answer
  | ⟨.updateBlocksAndTitle .., answer⟩ => rowOf answer
  | ⟨.insertPageIfAbsent .., answer⟩ => rowOf answer
  | _ => none

def keptVersion : Exchange → Option PageVersion
  | ⟨.insertVersion .., answer⟩ => rowOf answer
  | _ => none

end Exchange

/-! ## What is asked of attempts -/

namespace Write

/-- The select that locks the page. -/
def lock : Write → Statement
  | update page _ _ | restore page _ _ => .lockPage page
  | save tenant slug _ _ _ => .lockPageBySlug tenant slug

/-- The page that a version is kept for, where `row` was locked. -/
def versioned (row : Page) : Write → Uuid
  | update page _ _ | restore page _ _ => page
  | save .. => row.id

/-- Who makes the call. -/
def editor : Write → Uuid
  | update _ _ editor | restore _ _ editor | save _ _ _ _ editor => editor

end Write

/-- What an attempt of `w` binds: in a version what it has itself locked and counted, and in the
page the blocks `new` that the call writes. -/
structure KeepsItsLock (w : Write) (new : List Block) (t : List Exchange) : Prop where
  locks : ∀ x ∈ t, x.lock.isSome → x.statement = w.lock
  kept : ∀ x ∈ t, ∀ page n list editor, x.statement = .insertVersion page n list editor →
    (∃ row, (t.filterMap Exchange.lock).getLast? = some (some row) ∧ page = w.versioned row ∧
      list = row.blocks) ∧
    editor = w.editor ∧
    ∃ greatest, t.filterMap Exchange.greatest = [greatest] ∧
      ((∀ m ∈ greatest, -2 ^ 31 ≤ m ∧ m < 2 ^ 31 - 1) → n = greatest.getD 0 + 1)
  overwritten : ∀ x ∈ t, ∀ list, x.statement.overwrite = some list → list = new
  /-- The version to be restored is not read again. -/
  unread : ∀ x ∈ t, ∀ page version, x.statement ≠ .selectVersion page version

/-! ## Parts of attempts -/

section

variable {w : Write} {new : List Block} {front snap rest inner closing : List Exchange}

/-- A part of an attempt that finds the page, or creates it. -/
structure Finds (w : Write) (front : List Exchange) : Prop where
  locks : ∀ x ∈ front, x.lock.isSome → x.statement = w.lock
  untold : ∀ x ∈ front, x.greatest = none
  unkept : ∀ x ∈ front, ∀ page n list editor, x.statement ≠ .insertVersion page n list editor
  unwritten : ∀ x ∈ front, x.statement.overwrite = none
  unread : ∀ x ∈ front, ∀ page version, x.statement ≠ .selectVersion page version

/-- A part of an attempt that keeps `blocks` as a version of `page`, or nothing. -/
structure Keeps (page : Uuid) (blocks : List Block) (editor : Uuid) (snap : List Exchange) :
    Prop where
  unlocked : ∀ x ∈ snap, x.lock = none
  kept : ∀ x ∈ snap, ∀ page' n list editor', x.statement = .insertVersion page' n list editor' →
    page' = page ∧ list = blocks ∧ editor' = editor ∧
    ∃ greatest, snap.filterMap Exchange.greatest = [greatest] ∧
      ((∀ m ∈ greatest, -2 ^ 31 ≤ m ∧ m < 2 ^ 31 - 1) → n = greatest.getD 0 + 1)
  unwritten : ∀ x ∈ snap, x.statement.overwrite = none
  unread : ∀ x ∈ snap, ∀ page version, x.statement ≠ .selectVersion page version

/-- A part of an attempt that overwrites the page with `new`, or nothing. -/
structure Overwrites (new : List Block) (rest : List Exchange) : Prop where
  unlocked : ∀ x ∈ rest, x.lock = none
  untold : ∀ x ∈ rest, x.greatest = none
  unkept : ∀ x ∈ rest, ∀ page n list editor, x.statement ≠ .insertVersion page n list editor
  overwritten : ∀ x ∈ rest, ∀ list, x.statement.overwrite = some list → list = new
  unread : ∀ x ∈ rest, ∀ page version, x.statement ≠ .selectVersion page version

theorem filterMap_eq_nil {β : Type} {f : Exchange → Option β} {part : List Exchange}
    (h : ∀ x ∈ part, f x = none) : part.filterMap f = [] := by
  rwa [List.filterMap_eq_nil_iff]

theorem filterMap_between {β : Type} {f : Exchange → Option β} (hfront : ∀ x ∈ front, f x = none)
    (hrest : ∀ x ∈ rest, f x = none) :
    (front ++ (inner ++ rest)).filterMap f = inner.filterMap f := by
  rw [List.filterMap_append, List.filterMap_append, filterMap_eq_nil hfront,
    filterMap_eq_nil hrest, List.append_nil, List.nil_append]

/-- An attempt that does not get beyond finding its page keeps nothing. -/
theorem keepsItsLock_of_finds (hfront : Finds w front) : KeepsItsLock w new front where
  locks := hfront.locks
  kept x hx page n list editor hs := absurd hs (hfront.unkept x hx page n list editor)
  overwritten x hx _ hs := nomatch (hfront.unwritten x hx).symm.trans hs
  unread := hfront.unread

/-- An attempt finds its page, keeps a version of what it has found, and overwrites it. -/
theorem keepsItsLock_of_keeps {row : Page} (hfront : Finds w front)
    (hrow : (front.filterMap Exchange.lock).getLast? = some (some row))
    (hsnap : Keeps (w.versioned row) row.blocks w.editor snap) (hrest : Overwrites new rest) :
    KeepsItsLock w new (front ++ (snap ++ rest)) where
  locks := by
    refine List.forall_mem_append.mpr ⟨hfront.locks, List.forall_mem_append.mpr ⟨?_, ?_⟩⟩
    · intro x hx hlock
      rw [hsnap.unlocked x hx] at hlock
      cases hlock
    · intro x hx hlock
      rw [hrest.unlocked x hx] at hlock
      cases hlock
  kept := by
    have hlock : (front ++ (snap ++ rest)).filterMap Exchange.lock =
        front.filterMap Exchange.lock := by
      rw [List.filterMap_append, List.filterMap_append, filterMap_eq_nil hsnap.unlocked,
        filterMap_eq_nil hrest.unlocked, List.append_nil, List.append_nil]
    rw [hlock, filterMap_between hfront.untold hrest.untold]
    refine List.forall_mem_append.mpr ⟨?_, List.forall_mem_append.mpr ⟨?_, ?_⟩⟩
    · exact fun x hx page n list editor hs ↦ absurd hs (hfront.unkept x hx page n list editor)
    · intro x hx page n list editor hs
      obtain ⟨hpage, hlist, heditor, hnumber⟩ := hsnap.kept x hx page n list editor hs
      exact ⟨⟨row, hrow, hpage, hlist⟩, heditor, hnumber⟩
    · exact fun x hx page n list editor hs ↦ absurd hs (hrest.unkept x hx page n list editor)
  overwritten := by
    refine List.forall_mem_append.mpr ⟨?_, List.forall_mem_append.mpr ⟨?_, hrest.overwritten⟩⟩
    · exact fun x hx _ hs ↦ nomatch (hfront.unwritten x hx).symm.trans hs
    · exact fun x hx _ hs ↦ nomatch (hsnap.unwritten x hx).symm.trans hs
  unread := List.forall_mem_append.mpr
    ⟨hfront.unread, List.forall_mem_append.mpr ⟨hsnap.unread, hrest.unread⟩⟩

/-- What comes before and after may overwrite the page, but keeps nothing and locks nothing. -/
theorem KeepsItsLock.between (h : KeepsItsLock w new inner) (hfront : Overwrites new front)
    (hrest : Overwrites new rest) : KeepsItsLock w new (front ++ (inner ++ rest)) where
  locks := by
    refine List.forall_mem_append.mpr ⟨?_, List.forall_mem_append.mpr ⟨h.locks, ?_⟩⟩
    · intro x hx hlock
      rw [hfront.unlocked x hx] at hlock
      cases hlock
    · intro x hx hlock
      rw [hrest.unlocked x hx] at hlock
      cases hlock
  kept := by
    rw [filterMap_between hfront.unlocked hrest.unlocked,
      filterMap_between hfront.untold hrest.untold]
    refine List.forall_mem_append.mpr ⟨?_, List.forall_mem_append.mpr ⟨h.kept, ?_⟩⟩
    · exact fun x hx page n list editor hs ↦ absurd hs (hfront.unkept x hx page n list editor)
    · exact fun x hx page n list editor hs ↦ absurd hs (hrest.unkept x hx page n list editor)
  overwritten := List.forall_mem_append.mpr
    ⟨hfront.overwritten, List.forall_mem_append.mpr ⟨h.overwritten, hrest.overwritten⟩⟩
  unread := List.forall_mem_append.mpr
    ⟨hfront.unread, List.forall_mem_append.mpr ⟨h.unread, hrest.unread⟩⟩

/-! ## Keeping -/

section

variable {page : Uuid} {blocks : List Block} {editor : Uuid}

theorem keeps_nil : Keeps page blocks editor [] := by
  refine ⟨?_, ?_, ?_, ?_⟩ <;> exact fun _ hx ↦ absurd hx List.not_mem_nil

/-- Where a version is sent, its number follows the one that was told just before. -/
theorem keeps_sent {asked : Except DbError (Answer (.selectGreatestVersion page))}
    {greatest : Option Int} {version : Int} (h : oneRow asked = .ok greatest)
    (hnext : nextVersion greatest = some version)
    (answer : Except DbError (Answer (.insertVersion page version blocks editor))) :
    Keeps page blocks editor
      [⟨.selectGreatestVersion page, asked⟩,
        ⟨.insertVersion page version blocks editor, answer⟩] where
  unlocked := by simp [Exchange.lock]
  kept := by
    intro x hx page' n list editor' hs
    have htold : rowOf asked = some greatest := rowOf_eq (oneRow_eq_ok_iff.mp h)
    rcases List.mem_cons.mp hx with rfl | hx
    · cases hs
    · cases List.mem_singleton.mp hx
      cases hs
      refine ⟨rfl, rfl, rfl, greatest, ?_, fun _ ↦ (nextVersion_eq_some_iff.mp hnext).1⟩
      simp [Exchange.greatest, htold]
  unwritten := by simp [Statement.overwrite]
  unread := by simp

theorem keeps_snapshot {r : Except StoreError PageVersion}
    (h : Versions.SnapshotYields page blocks editor snap r) : Keeps page blocks editor snap := by
  cases h with
  | unread h | exhausted h =>
    exact ⟨by simp [Exchange.lock], by simp, by simp [Statement.overwrite], by simp⟩
  | unkept h hnext hinsert | kept h hnext hinsert => exact keeps_sent h hnext _

theorem Keeps.cons (h : Keeps page blocks editor snap) {asked : Uuid}
    (present : Except DbError (Answer (.pageExists asked))) :
    Keeps page blocks editor (⟨.pageExists asked, present⟩ :: snap) where
  unlocked := List.forall_mem_cons.mpr ⟨rfl, h.unlocked⟩
  kept := List.forall_mem_cons.mpr ⟨nofun, h.kept⟩
  unwritten := List.forall_mem_cons.mpr ⟨rfl, h.unwritten⟩
  unread := List.forall_mem_cons.mpr ⟨nofun, h.unread⟩

theorem keeps_recordIfPresent {r : Except StoreError (Option PageVersion)}
    (h : Versions.RecordYields page blocks editor snap r) : Keeps page blocks editor snap := by
  cases h with
  | unasked h => exact keeps_nil.cons _
  | absent h => exact keeps_nil.cons _
  | refused h hsnapshot => exact (keeps_snapshot hsnapshot).cons _
  | kept h hsnapshot => exact (keeps_snapshot hsnapshot).cons _

end

/-! ## Overwriting and finding -/

theorem overwrites_of_isDelimiter (h : ∀ x ∈ rest, x.statement.isDelimiter = true) :
    Overwrites new rest := by
  refine ⟨?_, ?_, ?_, ?_, ?_⟩ <;> rintro ⟨s, answer⟩ hx <;>
    rcases eq_of_isDelimiter (h _ hx) with rfl | rfl | rfl <;> first | rfl | exact nofun

theorem overwrites_nil : Overwrites new [] :=
  overwrites_of_isDelimiter fun _ hx ↦ absurd hx List.not_mem_nil

theorem overwrites_updateBlocks {page : Uuid}
    (answer : Except DbError (Answer (.updateBlocks page new))) :
    Overwrites new [⟨.updateBlocks page new, answer⟩] := by
  refine ⟨?_, ?_, ?_, ?_, ?_⟩ <;> simp [Exchange.lock, Exchange.greatest, Statement.overwrite]

theorem overwrites_updateBlocksAndTitle {page : Uuid} {title : String}
    (answer : Except DbError (Answer (.updateBlocksAndTitle page new title))) :
    Overwrites new [⟨.updateBlocksAndTitle page new title, answer⟩] := by
  refine ⟨?_, ?_, ?_, ?_, ?_⟩ <;> simp [Exchange.lock, Exchange.greatest, Statement.overwrite]

theorem finds_lockPage {page : Uuid} (hw : w.lock = .lockPage page)
    (answer : Except DbError (Answer (.lockPage page))) :
    Finds w [⟨.lockPage page, answer⟩] := by
  refine ⟨?_, ?_, ?_, ?_, ?_⟩ <;> simp [hw, Exchange.greatest, Statement.overwrite]

theorem finds_lockOrCreate {tenant : Uuid} {slug title : String} {blocks : List Block}
    {r : Except StoreError Pages.Slot} (hw : w.lock = .lockPageBySlug tenant slug)
    (h : Pages.FindYields tenant slug title blocks front r) : Finds w front := by
  cases h <;> refine ⟨?_, ?_, ?_, ?_, ?_⟩ <;>
    simp [hw, Exchange.lock, Exchange.greatest, Statement.overwrite]

theorem lock_of_existing {tenant : Uuid} {slug title : String} {blocks : List Block} {row : Page}
    (h : Pages.FindYields tenant slug title blocks front (.ok (.existing row))) :
    (front.filterMap Exchange.lock).getLast? = some (some row) := by
  cases h with
  | found h => simp [Exchange.lock, rowOf_eq h]
  | overtaken h hinsert hagain => simp [List.filterMap, Exchange.lock, rowOf_eq hagain]

/-! ## Attempts -/

theorem keepsItsLock_updateBody {page : Uuid} {editor : Uuid}
    {ending : Except StoreError (Ending (Page × PageVersion))}
    (hlock : w.lock = .lockPage page) (hversioned : ∀ row, w.versioned row = page)
    (heditor : w.editor = editor) (h : Pages.UpdateYields page new editor inner ending) :
    KeepsItsLock w new inner := by
  have hkeeps {locked : Except DbError (Answer (.lockPage page))} {row : Page}
      (h : firstRow locked = .ok (some row)) {snap rest : List Exchange}
      {r : Except StoreError PageVersion}
      (hsnap : Versions.SnapshotYields page row.blocks editor snap r)
      (hrest : Overwrites new rest) :
      KeepsItsLock w new (⟨.lockPage page, locked⟩ :: (snap ++ rest)) := by
    have hrow : ([⟨.lockPage page, locked⟩].filterMap Exchange.lock).getLast? =
        some (some row) := by simp [Exchange.lock, rowOf_eq h]
    have hkept : Keeps (w.versioned row) row.blocks w.editor snap := by
      rw [hversioned, heditor]
      exact keeps_snapshot hsnap
    exact keepsItsLock_of_keeps (finds_lockPage hlock locked) hrow hkept hrest
  cases h with
  | unlocked h => exact keepsItsLock_of_finds (finds_lockPage hlock _)
  | missing h => exact keepsItsLock_of_finds (finds_lockPage hlock _)
  | unkept h hsnapshot =>
    have hkept := hkeeps h hsnapshot overwrites_nil
    rwa [List.append_nil] at hkept
  | unwritten h hsnapshot hwrite => exact hkeeps h hsnapshot (overwrites_updateBlocks _)
  | written h hsnapshot hwrite => exact hkeeps h hsnapshot (overwrites_updateBlocks _)

theorem keepsItsLock_saveBody {tenant : Uuid} {slug title : String} {old : List Block}
    {editor : Uuid} {ending : Except StoreError (Ending PageUpdate)}
    (h : Pages.SaveYields tenant slug title new editor inner ending) :
    KeepsItsLock (.save tenant slug title old editor) new inner := by
  have hkeeps {row : Page} {front snap rest : List Exchange}
      {r : Except StoreError (Option PageVersion)}
      (hfind : Pages.FindYields tenant slug title new front (.ok (.existing row)))
      (hsnap : Versions.RecordYields row.id row.blocks editor snap r)
      (hrest : Overwrites new rest) :
      KeepsItsLock (.save tenant slug title old editor) new (front ++ (snap ++ rest)) :=
    keepsItsLock_of_keeps (finds_lockOrCreate rfl hfind) (lock_of_existing hfind)
      (keeps_recordIfPresent hsnap) hrest
  cases h with
  | unfound hfind => exact keepsItsLock_of_finds (finds_lockOrCreate rfl hfind)
  | created hfind => exact keepsItsLock_of_finds (finds_lockOrCreate rfl hfind)
  | unkept hfind hrecord =>
    have hkept := hkeeps hfind hrecord overwrites_nil
    rwa [List.append_nil] at hkept
  | unwritten hfind hrecord hwrite =>
    exact hkeeps hfind hrecord (overwrites_updateBlocksAndTitle _)
  | written hfind hrecord hwrite => exact hkeeps hfind hrecord (overwrites_updateBlocksAndTitle _)

theorem keepsItsLock_body {ending : Except StoreError (Ending PageUpdate)}
    (h : (w.body new).run.Yields inner ending) : KeepsItsLock w new inner := by
  cases w with
  | update page blocks editor =>
    obtain ⟨q, hbody, -⟩ := Write.yields_updateBody h
    exact keepsItsLock_updateBody rfl (fun _ ↦ rfl) rfl hbody
  | save tenant slug title blocks editor => exact keepsItsLock_saveBody (Pages.yields_saveBody h)
  | restore page version editor =>
    obtain ⟨q, hbody, -⟩ := Write.yields_updateBody h
    exact keepsItsLock_updateBody rfl (fun _ ↦ rfl) rfl hbody

/-- Beginning and closing a transaction binds nothing. -/
theorem keepsItsLock_transaction {t : List Exchange} {r : Except StoreError PageUpdate}
    (h : (transaction (w.body new)).run.Yields t r) : KeepsItsLock w new t := by
  have hnil : KeepsItsLock w new [] := by
    refine keepsItsLock_of_finds ⟨?_, ?_, ?_, ?_, ?_⟩ <;>
      exact fun _ hx ↦ absurd hx List.not_mem_nil
  have hbegin (b : Except DbError (Answer .begin)) : Overwrites new [⟨.begin, b⟩] :=
    overwrites_of_isDelimiter (List.forall_mem_singleton.mpr rfl)
  cases yields_transaction h with
  | refused d => exact hnil.between (hbegin _) overwrites_nil
  | begun b hinner hclosing =>
    refine (keepsItsLock_body hinner).between (hbegin _) (overwrites_of_isDelimiter ?_)
    intro x hx
    rcases hclosing.isDelimiter x hx with h | h <;> rw [h] <;> rfl

/-! ## Results -/

/-- Whether `u` is made of rows of `t`: what was written last, and the version that was kept, if
any. -/
structure MadeOf (t : List Exchange) (u : PageUpdate) : Prop where
  page : t.filterMap Exchange.writtenPage = [u.page]
  version : t.filterMap Exchange.keptVersion = u.version.toList

theorem Versions.SnapshotYields.rows {page : Uuid} {blocks : List Block} {editor : Uuid}
    {v : PageVersion} (h : SnapshotYields page blocks editor snap (.ok v)) :
    snap.filterMap Exchange.writtenPage = [] ∧ snap.filterMap Exchange.keptVersion = [v] := by
  cases h with
  | kept h hnext hinsert =>
    have hrow := rowOf_eq (oneRow_eq_ok_iff.mp hinsert)
    exact ⟨rfl, by simp [List.filterMap_cons, Exchange.keptVersion, hrow]⟩

theorem Versions.RecordYields.rows {page : Uuid} {blocks : List Block} {editor : Uuid}
    {v : Option PageVersion} (h : RecordYields page blocks editor snap (.ok v)) :
    snap.filterMap Exchange.writtenPage = [] ∧ snap.filterMap Exchange.keptVersion = v.toList := by
  cases h with
  | absent h => exact ⟨rfl, rfl⟩
  | kept h hsnapshot => exact hsnapshot.rows

theorem Pages.FindYields.rows {tenant : Uuid} {slug title : String} {row : Page}
    (h : FindYields tenant slug title new front (.ok (.existing row))) :
    front.filterMap Exchange.writtenPage = [] ∧ front.filterMap Exchange.keptVersion = [] := by
  cases h with
  | found h => exact ⟨rfl, rfl⟩
  | overtaken h hinsert hagain =>
    exact ⟨by simp [List.filterMap_cons, Exchange.writtenPage, rowOf_eq hinsert], rfl⟩

theorem madeOf_updateBody {page : Uuid} {editor : Uuid} {u : Page × PageVersion}
    (h : Pages.UpdateYields page new editor inner (.ok (.complete u))) :
    MadeOf inner (Write.withVersion u) := by
  cases h with
  | written h hsnapshot hwrite =>
    have hrow := rowOf_eq (oneRow_eq_ok_iff.mp hwrite)
    obtain ⟨hpage, hversion⟩ := hsnapshot.rows
    refine ⟨?_, ?_⟩
    · simp [List.filterMap_cons, Exchange.writtenPage, hpage, hrow, Write.withVersion]
    · simp [List.filterMap_cons, Exchange.keptVersion, hversion, Write.withVersion]

theorem madeOf_saveBody {tenant : Uuid} {slug title : String} {editor : Uuid} {u : PageUpdate}
    (h : Pages.SaveYields tenant slug title new editor inner (.ok (.complete u))) :
    MadeOf inner u := by
  cases h with
  | created hfind =>
    cases hfind with
    | created h hinsert =>
      exact ⟨by simp [List.filterMap_cons, Exchange.writtenPage, rowOf_eq hinsert], rfl⟩
  | written hfind hrecord hwrite =>
    have hrow := rowOf_eq (oneRow_eq_ok_iff.mp hwrite)
    obtain ⟨hnopage, hnoversion⟩ := hfind.rows
    obtain ⟨hpage, hversion⟩ := hrecord.rows
    refine ⟨?_, ?_⟩
    · simp [Exchange.writtenPage, hnopage, hpage, hrow]
    · simp [List.filterMap_cons, Exchange.keptVersion, hnoversion, hversion]

theorem madeOf_body {u : PageUpdate}
    (h : (w.body new).run.Yields inner (.ok (.complete u))) : MadeOf inner u := by
  have hupdate {page : Uuid} {editor : Uuid}
      (h : (Ending.map Write.withVersion <$> Pages.updateBody page new editor).run.Yields inner
        (.ok (.complete u))) : MadeOf inner u := by
    obtain ⟨u', hbody, rfl⟩ := Write.yields_updateBody_complete h
    exact madeOf_updateBody hbody
  cases w with
  | update page blocks editor => exact hupdate h
  | save tenant slug title blocks editor => exact madeOf_saveBody (Pages.yields_saveBody h)
  | restore page version editor => exact hupdate h

theorem madeOf_transaction {t : List Exchange} {u : PageUpdate}
    (h : (transaction (w.body new)).run.Yields t (.ok u)) : MadeOf t u := by
  cases yields_transaction h with
  | begun b hinner hclosing =>
    cases hclosing with
    | committed u c =>
      obtain ⟨hpage, hversion⟩ := madeOf_body hinner
      refine ⟨?_, ?_⟩
      · simp [List.filterMap_cons, Exchange.writtenPage, hpage]
      · simp [List.filterMap_cons, Exchange.keptVersion, hversion]

end

/-! ## Calls -/

/-- What the call `w` does in its attempts, and what it returns. -/
structure TakesNothingAlong (w : Write) (talk : List Exchange) (r : Except StoreError PageUpdate) :
    Prop where
  /-- The blocks to write are known before the first attempt. -/
  bound : ∀ t ∈ attempts talk, ∃ new, w.Brings (lead talk) new ∧ KeepsItsLock w new t
  /-- The result consists of rows of the last attempt. -/
  returned : ∀ u, r = .ok u → ∃ t, (attempts talk).getLast? = some t ∧ MadeOf t u

/-- **What attempts keep.** Every attempt of a call keeps what it has locked itself, overwrites it
with the blocks that the call has brought, and only the rows of the last attempt are returned. -/
theorem Write.takesNothingAlong (w : Write) (maxAttempts : Nat) {σ : Type}
    (peer : Program.Peer σ) (st : σ) :
    TakesNothingAlong w ((w.action maxAttempts).run.conversation peer st)
      ((w.action maxAttempts).run.run peer st).1 := by
  have hyields := Program.yields_conversation peer (w.action maxAttempts).run st
  generalize (w.action maxAttempts).run.conversation peer st = talk,
    ((w.action maxAttempts).run.run peer st).1 = r at hyields ⊢
  cases Write.yields_action hyields with
  | unread editor h => exact ⟨fun t ht ↦ absurd ht List.not_mem_nil, nofun⟩
  | missing editor h => exact ⟨fun t ht ↦ absurd ht List.not_mem_nil, nofun⟩
  | @tried _ new _ _ hlead h =>
    refine ⟨?_, ?_⟩
    · intro t ht
      obtain ⟨q, hq⟩ := h.mem ht
      exact ⟨new, hlead, keepsItsLock_transaction hq⟩
    · rintro u rfl
      obtain ⟨before, t, hattempts, hlast, -⟩ := h.exists_last
      exact ⟨t, by rw [hattempts, List.getLast?_concat], madeOf_transaction hlast⟩

/-- A database that answers a select by an identifier with the page of another one. -/
def misdirecting : Program.Peer Unit := fun _ s ↦
  match s with
  | .lockPage _ =>
    (.ok { rows := [.ok ⟨⟨2⟩, ⟨4⟩, "other", "Other", [], false, .null, .epoch, .epoch⟩] }, ())
  | .selectGreatestVersion _ => (.ok { rows := [.ok none] }, ())
  | _ => (.ok {}, ())

/-- An update trusts the identifier it was called with, not that of the row it has locked. -/
theorem update_versions_unlike_locked :
    ¬∀ t ∈ attempts (((Write.update ⟨1⟩ [] ⟨3⟩).action 1).run.conversation misdirecting ()),
      ∀ x ∈ t, ∀ page n list editor, x.statement = .insertVersion page n list editor →
        ∃ row, (t.filterMap Exchange.lock).getLast? = some (some row) ∧ page = row.id := by
  intro h
  obtain ⟨row, hrow, hpage⟩ := h _ (.head _) ⟨.insertVersion ⟨1⟩ 1 [] ⟨3⟩, .ok {}⟩
    (.tail _ (.tail _ (.tail _ (.head _)))) ⟨1⟩ 1 [] ⟨3⟩ rfl
  cases hrow
  exact absurd hpage (by decide)

end Pagesmith.Store
