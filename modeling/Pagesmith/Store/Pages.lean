import Pagesmith.Store.Program
import Pagesmith.Store.Versioning

/-!
# Pages and their versions

Writing a page's blocks keeps the list they replace as a version, in one transaction: the page is
locked, its list is kept, and the new list is written. If another writer has taken the number of the
version, the whole transaction is run again (`retrying`), so that what is kept is what was locked in
the same attempt.
-/

/-! ## Versions

Reading a page's history, and adding to it. A version is added by `snapshot`, in the transaction of
the write that it goes before, so the two come about together or not at all. -/

namespace Pagesmith.Store.Versions

def list (page : Uuid) : Query (List PageVersion) := fetchAll (.selectVersions page)

def get (page : Uuid) (version : Int) : Query (Option PageVersion) :=
  fetchOptional (.selectVersion page version)

def latest (page : Uuid) : Query (Option Int) := fetchOne (.selectGreatestVersion page)

/-- Keep a block list under a number. Without one the addition has overflowed, and nothing is sent.
-/
def insert (page : Uuid) (blocks : List Block) (editor : Uuid) : Option Int → Action PageVersion
  | none => throw .overflow
  | some version =>
    (fetchOne (.insertVersion page version blocks editor)).adapt
      (StoreError.ofVersionInsert page version)

/-- Keep a block list as the next version of `page`, which `nextVersion` numbers. -/
def snapshot (page : Uuid) (blocks : List Block) (editor : Uuid) : Action PageVersion := do
  insert page blocks editor (nextVersion (← (latest page).action))

/-- Keep a block list as the next version of `page`, if there is such a page. -/
def recordIfPresent (page : Uuid) (blocks : List Block) (editor : Uuid) :
    Action (Option PageVersion) := do
  if ← (fetchOne (.pageExists page) : Query Bool).action then
    return some (← snapshot page blocks editor)
  else return none

end Pagesmith.Store.Versions

/-! ## Pages -/

namespace Pagesmith.Store.Pages

def create (tenant : Uuid) (slug title : String) (blocks : List Block) (seo : Json) : Query Page :=
  fetchOne (.insertPage tenant slug title blocks seo)

def get (page : Uuid) : Query (Option Page) := fetchOptional (.selectPage page)

/-- The page of `tenant` that has this slug. -/
def getBySlug (tenant : Uuid) (slug : String) : Query (Option Page) :=
  fetchOptional (.selectPageBySlug tenant slug)

/-- Show a page, or hide it. -/
def setPublished (page : Uuid) (published : Bool) : Action Page := do
  match ← (fetchOptional (.updatePublished page published) : Query (Option Page)).action with
  | some p => return p
  | none => throw (.pageNotFound page)

/-- Delete a page with its versions. Says whether there was one. -/
def delete (page : Uuid) : Query Bool := do return 0 < (← execute (.deletePage page))

/-- Run attempts of a write until one does not lose a race, at most `maxAttempts` of them. -/
def retrying {α : Type} (maxAttempts : Nat) (attempt : Action α) : Action α :=
  ExceptT.mk (retryOnConflict maxAttempts (fun _ ↦ pure ()) fun _ ↦ attempt.run)

/-! ### Updating -/

/-- What `update` does in its transaction: lock the page, keep its blocks, write the new ones. -/
def updateBody (page : Uuid) (blocks : List Block) (editor : Uuid) :
    Action (Ending (Page × PageVersion)) := do
  match ← (fetchOptional (.lockPage page) : Query (Option Page)).action with
  | none => return .abandon (.pageNotFound page)
  | some current =>
    let version ← Versions.snapshot page current.blocks editor
    let written ← (fetchOne (.updateBlocks page blocks) : Query Page).action
    return .complete (written, version)

def tryUpdate (page : Uuid) (blocks : List Block) (editor : Uuid) : Action (Page × PageVersion) :=
  transaction (updateBody page blocks editor)

/-- Replace a page's blocks, keeping the ones there were. -/
def update (maxAttempts : Nat) (page : Uuid) (blocks : List Block) (editor : Uuid) :
    Action (Page × PageVersion) :=
  retrying maxAttempts (tryUpdate page blocks editor)

/-- Put the blocks of a version back by an `update`, so those there are become a version themselves.
-/
def restore (maxAttempts : Nat) (page : Uuid) (version : Int) (editor : Uuid) :
    Action (Page × PageVersion) := do
  match ← (Versions.get page version).action with
  | none => throw (.versionNotFound page version)
  | some past => update maxAttempts page past.snapshot editor

/-! ### Saving by slug -/

/-- What a save finds: the page, locked, or the page it has just created. -/
inductive Slot
  | existing (p : Page)
  | created (p : Page)

/-- Lock the page of `tenant` that has this slug, or create it. If another save is faster, its page
is locked. -/
def lockOrCreate (tenant : Uuid) (slug title : String) (blocks : List Block) : Action Slot := do
  let lock : Action (Option Page) :=
    (fetchOptional (.lockPageBySlug tenant slug) : Query (Option Page)).action
  match ← lock with
  | some p => return .existing p
  | none =>
    match ← (fetchOptional (.insertPageIfAbsent tenant slug title blocks) :
        Query (Option Page)).action with
    | some p => return .created p
    | none =>
      match ← lock with
      | some p => return .existing p
      | none => throw (.db .rowNotFound)

/-- What `save` does in its transaction: a page that was there is kept as a version and overwritten,
and one that was created is left as it is. -/
def saveBody (tenant : Uuid) (slug title : String) (blocks : List Block) (editor : Uuid) :
    Action (Ending PageUpdate) := do
  match ← lockOrCreate tenant slug title blocks with
  | .created p => return .complete ⟨p, none⟩
  | .existing p =>
    let version ← Versions.recordIfPresent p.id p.blocks editor
    let written ← (fetchOne (.updateBlocksAndTitle p.id blocks title) : Query Page).action
    return .complete ⟨written, version⟩

def trySave (tenant : Uuid) (slug title : String) (blocks : List Block) (editor : Uuid) :
    Action PageUpdate :=
  transaction (saveBody tenant slug title blocks editor)

/-- Save a tenant's page by its slug, creating it if there is none. -/
def save (maxAttempts : Nat) (tenant : Uuid) (slug title : String) (blocks : List Block)
    (editor : Uuid) : Action PageUpdate :=
  retrying maxAttempts (trySave tenant slug title blocks editor)

end Pagesmith.Store.Pages
