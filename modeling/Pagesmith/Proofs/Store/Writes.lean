import Pagesmith.Proofs.Store.Transaction
import Pagesmith.Store.Setup

/-!
# What writes of pages say

For each function that runs in a transaction there is one relation here, such as `UpdateYields`,
with a constructor for each of its exits: what it has said when it ends there, and its result. The
rows that a function goes on with stand in its constructors, so it can be seen from where each
parameter of a later statement comes. Nothing else is needed of these functions later, and none is
opened again.

Beside that, the bodies are shown to be put together from careful parts.
-/

namespace Pagesmith.Store

section

variable {page : Uuid} {blocks : List Block} {editor : Uuid} {talk : List Exchange}

/-! ## Keeping a version -/

namespace Versions

/-- What `Versions.snapshot` says, and its result. -/
inductive SnapshotYields (page : Uuid) (blocks : List Block) (editor : Uuid) :
    List Exchange → Except StoreError PageVersion → Prop
  | unread {asked : Except DbError (Answer (.selectGreatestVersion page))} {d : DbError}
    (h : oneRow asked = .error d) :
    SnapshotYields page blocks editor [⟨.selectGreatestVersion page, asked⟩] (.error (.db d))
  /-- There is no number for the version. -/
  | exhausted {asked : Except DbError (Answer (.selectGreatestVersion page))}
    {greatest : Option Int} (h : oneRow asked = .ok greatest)
    (hnext : nextVersion greatest = none) :
    SnapshotYields page blocks editor [⟨.selectGreatestVersion page, asked⟩] (.error .overflow)
  | unkept {asked : Except DbError (Answer (.selectGreatestVersion page))} {greatest : Option Int}
    {version : Int} {answer : Except DbError (Answer (.insertVersion page version blocks editor))}
    {d : DbError} (h : oneRow asked = .ok greatest) (hnext : nextVersion greatest = some version)
    (hinsert : oneRow answer = .error d) :
    SnapshotYields page blocks editor
      [⟨.selectGreatestVersion page, asked⟩, ⟨.insertVersion page version blocks editor, answer⟩]
      (.error (.ofVersionInsert page version d))
  | kept {asked : Except DbError (Answer (.selectGreatestVersion page))} {greatest : Option Int}
    {version : Int} {answer : Except DbError (Answer (.insertVersion page version blocks editor))}
    {v : PageVersion} (h : oneRow asked = .ok greatest)
    (hnext : nextVersion greatest = some version) (hinsert : oneRow answer = .ok v) :
    SnapshotYields page blocks editor
      [⟨.selectGreatestVersion page, asked⟩, ⟨.insertVersion page version blocks editor, answer⟩]
      (.ok v)

theorem yields_snapshot {r : Except StoreError PageVersion}
    (h : (snapshot page blocks editor).run.Yields talk r) :
    SnapshotYields page blocks editor talk r := by
  obtain ⟨asked, after, rfl, ⟨d, hasked, rfl, rfl⟩ | ⟨greatest, hasked, hinsert⟩⟩ :=
    asks_fetchOne.yields_action_bind h
  · exact .unread hasked
  cases hnext : nextVersion greatest with
  | none =>
    rw [hnext] at hinsert
    obtain ⟨rfl, rfl⟩ := yields_run_throw hinsert
    exact .exhausted hasked hnext
  | some version =>
    rw [hnext] at hinsert
    obtain ⟨answer, rfl, rfl⟩ := asks_fetchOne.adapt _ _ _ hinsert
    change SnapshotYields page blocks editor _ ((oneRow answer).mapError _)
    cases hanswer : oneRow answer with
    | error d => exact .unkept hasked hnext hanswer
    | ok v => exact .kept hasked hnext hanswer

/-- What `Versions.recordIfPresent` says, and its result. -/
inductive RecordYields (page : Uuid) (blocks : List Block) (editor : Uuid) :
    List Exchange → Except StoreError (Option PageVersion) → Prop
  | unasked {present : Except DbError (Answer (.pageExists page))} {d : DbError}
    (h : oneRow present = .error d) :
    RecordYields page blocks editor [⟨.pageExists page, present⟩] (.error (.db d))
  | absent {present : Except DbError (Answer (.pageExists page))}
    (h : oneRow present = .ok false) :
    RecordYields page blocks editor [⟨.pageExists page, present⟩] (.ok none)
  | refused {present : Except DbError (Answer (.pageExists page))}
    {talk : List Exchange} {e : StoreError} (h : oneRow present = .ok true)
    (hsnapshot : SnapshotYields page blocks editor talk (.error e)) :
    RecordYields page blocks editor (⟨.pageExists page, present⟩ :: talk) (.error e)
  | kept {present : Except DbError (Answer (.pageExists page))}
    {talk : List Exchange} {v : PageVersion} (h : oneRow present = .ok true)
    (hsnapshot : SnapshotYields page blocks editor talk (.ok v)) :
    RecordYields page blocks editor (⟨.pageExists page, present⟩ :: talk) (.ok (some v))

theorem yields_recordIfPresent {r : Except StoreError (Option PageVersion)}
    (h : (recordIfPresent page blocks editor).run.Yields talk r) :
    RecordYields page blocks editor talk r := by
  obtain ⟨present, after, rfl, ⟨d, hpresent, rfl, rfl⟩ | ⟨there, hpresent, hthen⟩⟩ :=
    asks_fetchOne.yields_action_bind h
  · exact .unasked hpresent
  cases there with
  | false =>
    obtain ⟨rfl, rfl⟩ := yields_run_pure hthen
    exact .absent hpresent
  | true =>
    obtain ⟨e, rfl, hkeep⟩ | ⟨before, v, rest, rfl, hkeep, hpure⟩ := yields_run_bind hthen
    · exact .refused hpresent (yields_snapshot hkeep)
    · obtain ⟨rfl, rfl⟩ := yields_run_pure hpure
      rw [List.append_nil]
      exact .kept hpresent (yields_snapshot hkeep)

end Versions

namespace Pages

open Versions

/-! ## Updating -/

/-- What `Pages.updateBody` says, and how it ends. -/
inductive UpdateYields (page : Uuid) (blocks : List Block) (editor : Uuid) :
    List Exchange → Except StoreError (Ending (Page × PageVersion)) → Prop
  | unlocked {locked : Except DbError (Answer (.lockPage page))} {d : DbError}
    (h : firstRow locked = .error d) :
    UpdateYields page blocks editor [⟨.lockPage page, locked⟩] (.error (.db d))
  | missing {locked : Except DbError (Answer (.lockPage page))}
    (h : firstRow locked = .ok none) :
    UpdateYields page blocks editor [⟨.lockPage page, locked⟩]
      (.ok (.abandon (.pageNotFound page)))
  | unkept {locked : Except DbError (Answer (.lockPage page))} {current : Page}
    {talk : List Exchange} {e : StoreError} (h : firstRow locked = .ok (some current))
    (hsnapshot : SnapshotYields page current.blocks editor talk (.error e)) :
    UpdateYields page blocks editor (⟨.lockPage page, locked⟩ :: talk) (.error e)
  | unwritten {locked : Except DbError (Answer (.lockPage page))} {current : Page}
    {talk : List Exchange} {v : PageVersion}
    {answer : Except DbError (Answer (.updateBlocks page blocks))} {d : DbError}
    (h : firstRow locked = .ok (some current))
    (hsnapshot : SnapshotYields page current.blocks editor talk (.ok v))
    (hwrite : oneRow answer = .error d) :
    UpdateYields page blocks editor
      (⟨.lockPage page, locked⟩ :: (talk ++ [⟨.updateBlocks page blocks, answer⟩]))
      (.error (.db d))
  | written {locked : Except DbError (Answer (.lockPage page))} {current : Page}
    {talk : List Exchange} {v : PageVersion}
    {answer : Except DbError (Answer (.updateBlocks page blocks))} {p : Page}
    (h : firstRow locked = .ok (some current))
    (hsnapshot : SnapshotYields page current.blocks editor talk (.ok v))
    (hwrite : oneRow answer = .ok p) :
    UpdateYields page blocks editor
      (⟨.lockPage page, locked⟩ :: (talk ++ [⟨.updateBlocks page blocks, answer⟩]))
      (.ok (.complete (p, v)))

theorem yields_updateBody {r : Except StoreError (Ending (Page × PageVersion))}
    (h : (updateBody page blocks editor).run.Yields talk r) :
    UpdateYields page blocks editor talk r := by
  obtain ⟨locked, after, rfl, ⟨d, hlock, rfl, rfl⟩ | ⟨row, hlock, hthen⟩⟩ :=
    asks_fetchOptional.yields_action_bind h
  · exact .unlocked hlock
  cases row with
  | none =>
    obtain ⟨rfl, rfl⟩ := yields_run_pure hthen
    exact .missing hlock
  | some current =>
    obtain ⟨e, rfl, hkeep⟩ | ⟨kept, v, rest, rfl, hkeep, hwrite⟩ := yields_run_bind hthen
    · exact .unkept hlock (yields_snapshot hkeep)
    obtain ⟨answer, rest, rfl, ⟨d, hanswer, rfl, rfl⟩ | ⟨p, hanswer, hpure⟩⟩ :=
      asks_fetchOne.yields_action_bind hwrite
    · exact .unwritten hlock (yields_snapshot hkeep) hanswer
    · obtain ⟨rfl, rfl⟩ := yields_run_pure hpure
      exact .written hlock (yields_snapshot hkeep) hanswer

/-! ## Restoring -/

/-- What `Pages.restore` says before it goes on as an update, and what it says if it does not. -/
inductive RestoreYields (maxAttempts : Nat) (page : Uuid) (version : Int) (editor : Uuid) :
    List Exchange → Except StoreError (Page × PageVersion) → Prop
  | unread {found : Except DbError (Answer (.selectVersion page version))} {d : DbError}
    (h : firstRow found = .error d) :
    RestoreYields maxAttempts page version editor [⟨.selectVersion page version, found⟩]
      (.error (.db d))
  | missing {found : Except DbError (Answer (.selectVersion page version))}
    (h : firstRow found = .ok none) :
    RestoreYields maxAttempts page version editor [⟨.selectVersion page version, found⟩]
      (.error (.versionNotFound page version))
  | updated {found : Except DbError (Answer (.selectVersion page version))} {past : PageVersion}
    {talk : List Exchange} {r : Except StoreError (Page × PageVersion)}
    (h : firstRow found = .ok (some past))
    (hupdate : (update maxAttempts page past.snapshot editor).run.Yields talk r) :
    RestoreYields maxAttempts page version editor
      (⟨.selectVersion page version, found⟩ :: talk) r

theorem yields_restore {maxAttempts : Nat} {version : Int}
    {r : Except StoreError (Page × PageVersion)}
    (h : (restore maxAttempts page version editor).run.Yields talk r) :
    RestoreYields maxAttempts page version editor talk r := by
  obtain ⟨found, after, rfl, ⟨d, hget, rfl, rfl⟩ | ⟨row, hget, hthen⟩⟩ :=
    asks_fetchOptional.yields_action_bind h
  · exact .unread hget
  cases row with
  | none =>
    obtain ⟨rfl, rfl⟩ := yields_run_throw hthen
    exact .missing hget
  | some past => exact .updated hget hthen

/-! ## Saving by slug -/

variable {tenant : Uuid} {slug title : String}

/-- What `Pages.lockOrCreate` says, and what it finds. -/
inductive FindYields (tenant : Uuid) (slug title : String) (blocks : List Block) :
    List Exchange → Except StoreError Slot → Prop
  | unlocked {locked : Except DbError (Answer (.lockPageBySlug tenant slug))} {d : DbError}
    (h : firstRow locked = .error d) :
    FindYields tenant slug title blocks [⟨.lockPageBySlug tenant slug, locked⟩] (.error (.db d))
  | found {locked : Except DbError (Answer (.lockPageBySlug tenant slug))} {p : Page}
    (h : firstRow locked = .ok (some p)) :
    FindYields tenant slug title blocks [⟨.lockPageBySlug tenant slug, locked⟩]
      (.ok (.existing p))
  | uncreated {locked : Except DbError (Answer (.lockPageBySlug tenant slug))}
    {inserted : Except DbError (Answer (.insertPageIfAbsent tenant slug title blocks))}
    {d : DbError} (h : firstRow locked = .ok none) (hinsert : firstRow inserted = .error d) :
    FindYields tenant slug title blocks
      [⟨.lockPageBySlug tenant slug, locked⟩,
        ⟨.insertPageIfAbsent tenant slug title blocks, inserted⟩] (.error (.db d))
  | created {locked : Except DbError (Answer (.lockPageBySlug tenant slug))}
    {inserted : Except DbError (Answer (.insertPageIfAbsent tenant slug title blocks))} {p : Page}
    (h : firstRow locked = .ok none)
    (hinsert : firstRow inserted = .ok (some p)) :
    FindYields tenant slug title blocks
      [⟨.lockPageBySlug tenant slug, locked⟩,
        ⟨.insertPageIfAbsent tenant slug title blocks, inserted⟩] (.ok (.created p))
  | lost {locked : Except DbError (Answer (.lockPageBySlug tenant slug))}
    {inserted : Except DbError (Answer (.insertPageIfAbsent tenant slug title blocks))}
    {again : Except DbError (Answer (.lockPageBySlug tenant slug))} (d : DbError)
    (h : firstRow locked = .ok none)
    (hinsert : firstRow inserted = .ok none) :
    FindYields tenant slug title blocks
      [⟨.lockPageBySlug tenant slug, locked⟩,
        ⟨.insertPageIfAbsent tenant slug title blocks, inserted⟩,
        ⟨.lockPageBySlug tenant slug, again⟩] (.error (.db d))
  | overtaken {locked : Except DbError (Answer (.lockPageBySlug tenant slug))}
    {inserted : Except DbError (Answer (.insertPageIfAbsent tenant slug title blocks))}
    {again : Except DbError (Answer (.lockPageBySlug tenant slug))} {p : Page}
    (h : firstRow locked = .ok none)
    (hinsert : firstRow inserted = .ok none) (hagain : firstRow again = .ok (some p)) :
    FindYields tenant slug title blocks
      [⟨.lockPageBySlug tenant slug, locked⟩,
        ⟨.insertPageIfAbsent tenant slug title blocks, inserted⟩,
        ⟨.lockPageBySlug tenant slug, again⟩] (.ok (.existing p))

theorem yields_lockOrCreate {r : Except StoreError Slot}
    (h : (lockOrCreate tenant slug title blocks).run.Yields talk r) :
    FindYields tenant slug title blocks talk r := by
  obtain ⟨locked, after, rfl, ⟨d, hlock, rfl, rfl⟩ | ⟨row, hlock, hcreate⟩⟩ :=
    asks_fetchOptional.yields_action_bind h
  · exact .unlocked hlock
  cases row with
  | some p =>
    obtain ⟨rfl, rfl⟩ := yields_run_pure hcreate
    exact .found hlock
  | none =>
    obtain ⟨inserted, after, rfl, ⟨d, hinsert, rfl, rfl⟩ | ⟨row, hinsert, hagain⟩⟩ :=
      asks_fetchOptional.yields_action_bind hcreate
    · exact .uncreated hlock hinsert
    cases row with
    | some p =>
      obtain ⟨rfl, rfl⟩ := yields_run_pure hagain
      exact .created hlock hinsert
    | none =>
      obtain ⟨again, after, rfl, ⟨d, hrow, rfl, rfl⟩ | ⟨row, hrow, hpure⟩⟩ :=
        asks_fetchOptional.yields_action_bind hagain
      · exact .lost d hlock hinsert
      cases row with
      | some p =>
        obtain ⟨rfl, rfl⟩ := yields_run_pure hpure
        exact .overtaken hlock hinsert hrow
      | none =>
        obtain ⟨rfl, rfl⟩ := yields_run_throw hpure
        exact .lost .rowNotFound hlock hinsert

/-- What `Pages.saveBody` says, and how it ends. -/
inductive SaveYields (tenant : Uuid) (slug title : String) (blocks : List Block) (editor : Uuid) :
    List Exchange → Except StoreError (Ending PageUpdate) → Prop
  | unfound {talk : List Exchange} {e : StoreError}
    (h : FindYields tenant slug title blocks talk (.error e)) :
    SaveYields tenant slug title blocks editor talk (.error e)
  | created {talk : List Exchange} {p : Page}
    (h : FindYields tenant slug title blocks talk (.ok (.created p))) :
    SaveYields tenant slug title blocks editor talk (.ok (.complete ⟨p, none⟩))
  | unkept {before talk : List Exchange} {p : Page} {e : StoreError}
    (h : FindYields tenant slug title blocks before (.ok (.existing p)))
    (hrecord : RecordYields p.id p.blocks editor talk (.error e)) :
    SaveYields tenant slug title blocks editor (before ++ talk) (.error e)
  | unwritten {before talk : List Exchange} {p : Page} {v : Option PageVersion}
    {answer : Except DbError (Answer (.updateBlocksAndTitle p.id blocks title))} {d : DbError}
    (h : FindYields tenant slug title blocks before (.ok (.existing p)))
    (hrecord : RecordYields p.id p.blocks editor talk (.ok v)) (hwrite : oneRow answer = .error d) :
    SaveYields tenant slug title blocks editor
      (before ++ (talk ++ [⟨.updateBlocksAndTitle p.id blocks title, answer⟩])) (.error (.db d))
  | written {before talk : List Exchange} {p : Page} {v : Option PageVersion}
    {answer : Except DbError (Answer (.updateBlocksAndTitle p.id blocks title))} {q : Page}
    (h : FindYields tenant slug title blocks before (.ok (.existing p)))
    (hrecord : RecordYields p.id p.blocks editor talk (.ok v)) (hwrite : oneRow answer = .ok q) :
    SaveYields tenant slug title blocks editor
      (before ++ (talk ++ [⟨.updateBlocksAndTitle p.id blocks title, answer⟩]))
      (.ok (.complete ⟨q, v⟩))

theorem yields_saveBody {r : Except StoreError (Ending PageUpdate)}
    (h : (saveBody tenant slug title blocks editor).run.Yields talk r) :
    SaveYields tenant slug title blocks editor talk r := by
  obtain ⟨e, rfl, hfind⟩ | ⟨before, slot, after, rfl, hfind, hthen⟩ := yields_run_bind h
  · exact .unfound (yields_lockOrCreate hfind)
  have hfind := yields_lockOrCreate hfind
  cases slot with
  | created p =>
    obtain ⟨rfl, rfl⟩ := yields_run_pure hthen
    rw [List.append_nil]
    exact .created hfind
  | existing p =>
    obtain ⟨e, rfl, hkeep⟩ | ⟨kept, v, rest, rfl, hkeep, hwrite⟩ := yields_run_bind hthen
    · exact .unkept hfind (yields_recordIfPresent hkeep)
    obtain ⟨answer, rest, rfl, ⟨d, hanswer, rfl, rfl⟩ | ⟨q, hanswer, hpure⟩⟩ :=
      asks_fetchOne.yields_action_bind hwrite
    · exact .unwritten hfind (yields_recordIfPresent hkeep) hanswer
    · obtain ⟨rfl, rfl⟩ := yields_run_pure hpure
      exact .written hfind (yields_recordIfPresent hkeep) hanswer

end Pages

/-! ## Activating -/

namespace Themes

variable {tenant theme : Uuid}

/-- What `Themes.activateBody` says, and how it ends. -/
inductive ActivateYields (tenant theme : Uuid) :
    List Exchange → Except StoreError (Ending Theme) → Prop
  | unlocked {locked : Except DbError (Answer (.lockThemes tenant))} {d : DbError}
    (h : allRows locked = .error d) :
    ActivateYields tenant theme [⟨.lockThemes tenant, locked⟩] (.error (.db d))
  | absent {locked : Except DbError (Answer (.lockThemes tenant))} {themes : List Uuid}
    (h : allRows locked = .ok themes) (habsent : themes.contains theme = false) :
    ActivateYields tenant theme [⟨.lockThemes tenant, locked⟩]
      (.ok (.abandon (.themeNotFound theme)))
  | undeactivated {locked : Except DbError (Answer (.lockThemes tenant))} {themes : List Uuid}
    (d : DbError) (h : allRows locked = .ok themes) (hthere : themes.contains theme = true) :
    ActivateYields tenant theme
      [⟨.lockThemes tenant, locked⟩, ⟨.deactivateOthers tenant theme, .error d⟩] (.error (.db d))
  | unactivated {locked : Except DbError (Answer (.lockThemes tenant))} {themes : List Uuid}
    {others : Answer (.deactivateOthers tenant theme)}
    {activated : Except DbError (Answer (.activateTheme theme))} {d : DbError}
    (h : allRows locked = .ok themes) (hthere : themes.contains theme = true)
    (hactivate : oneRow activated = .error d) :
    ActivateYields tenant theme
      [⟨.lockThemes tenant, locked⟩, ⟨.deactivateOthers tenant theme, .ok others⟩,
        ⟨.activateTheme theme, activated⟩] (.error (.db d))
  | activated {locked : Except DbError (Answer (.lockThemes tenant))} {themes : List Uuid}
    {others : Answer (.deactivateOthers tenant theme)}
    {activated : Except DbError (Answer (.activateTheme theme))} {t : Theme}
    (h : allRows locked = .ok themes) (hthere : themes.contains theme = true)
    (hactivate : oneRow activated = .ok t) :
    ActivateYields tenant theme
      [⟨.lockThemes tenant, locked⟩, ⟨.deactivateOthers tenant theme, .ok others⟩,
        ⟨.activateTheme theme, activated⟩] (.ok (.complete t))

theorem yields_activateBody {r : Except StoreError (Ending Theme)}
    (h : (activateBody tenant theme).run.Yields talk r) : ActivateYields tenant theme talk r := by
  obtain ⟨locked, after, rfl, ⟨d, hlock, rfl, rfl⟩ | ⟨themes, hlock, hthen⟩⟩ :=
    asks_fetchAll.yields_action_bind h
  · exact .unlocked hlock
  cases hthere : themes.contains theme with
  | false =>
    rw [if_neg (ne_true_of_eq_false hthere)] at hthen
    obtain ⟨rfl, rfl⟩ := yields_run_pure hthen
    exact .absent hlock hthere
  | true =>
    rw [if_pos hthere] at hthen
    obtain ⟨others, after, rfl, ⟨d, hothers, rfl, rfl⟩ | ⟨n, hothers, hrest⟩⟩ :=
      asks_execute.yields_action_bind hthen
    · cases others with
      | error e =>
        cases hothers
        exact .undeactivated d hlock hthere
      | ok a => cases hothers
    cases others with
    | error e => cases hothers
    | ok a =>
      obtain ⟨activated, after, rfl, ⟨d, hactivate, rfl, rfl⟩ | ⟨t, hactivate, hpure⟩⟩ :=
        asks_fetchOne.yields_action_bind hrest
      · exact .unactivated hlock hthere hactivate
      · obtain ⟨rfl, rfl⟩ := yields_run_pure hpure
        exact .activated hlock hthere hactivate

end Themes

/-! ## Careful bodies -/

theorem Versions.careful_insert (version : Option Int) :
    Careful (insert page blocks editor version) := by
  cases version with
  | none => exact .throw id
  | some version =>
    refine .of_asks (asks_fetchOne.adapt _) rfl ?_ ?_
    · intro answer v h
      have hrow := oneRow_eq_ok_iff.mp (mapError_eq_ok_iff.mp h)
      exact ⟨acknowledged_of_firstRow hrow, fun _ ↦ ⟨v, hrow⟩⟩
    · intro answer e h
      obtain ⟨d, -, rfl⟩ := mapError_eq_error_iff.mp h
      rw [StoreError.ofVersionInsert]
      split <;> exact id

theorem Versions.careful_snapshot : Careful (snapshot page blocks editor) :=
  .bind (.fetchOne rfl) fun _ ↦ careful_insert _

theorem Versions.careful_recordIfPresent : Careful (recordIfPresent page blocks editor) := by
  refine .bind (.fetchOne rfl) fun there ↦ ?_
  cases there with
  | false => exact .pure none
  | true => exact .bind careful_snapshot fun v ↦ .pure (some v)

namespace Pages

theorem careful_updateBody : Careful (updateBody page blocks editor) := by
  refine .bind (.fetchOptional rfl rfl) fun row ↦ ?_
  cases row with
  | none => exact .pure _
  | some current =>
    refine .bind Versions.careful_snapshot fun v ↦ ?_
    exact .bind (.fetchOne rfl) fun p ↦ .pure _

variable {tenant : Uuid} {slug title : String}

theorem careful_lockOrCreate : Careful (lockOrCreate tenant slug title blocks) := by
  have hlock : Careful (fetchOptional (.lockPageBySlug tenant slug)).action :=
    .fetchOptional rfl rfl
  refine .bind hlock fun row ↦ ?_
  cases row with
  | some p => exact .pure _
  | none =>
    refine .bind (.fetchOptional rfl rfl) fun row ↦ ?_
    cases row with
    | some p => exact .pure _
    | none =>
      refine .bind hlock fun row ↦ ?_
      cases row with
      | some p => exact .pure _
      | none => exact .throw id

theorem careful_saveBody : Careful (saveBody tenant slug title blocks editor) := by
  refine .bind careful_lockOrCreate fun slot ↦ ?_
  cases slot with
  | created p => exact .pure _
  | existing p =>
    refine .bind Versions.careful_recordIfPresent fun v ↦ ?_
    exact .bind (.fetchOne rfl) fun q ↦ .pure _

end Pages

theorem Themes.careful_activateBody {tenant theme : Uuid} :
    Careful (activateBody tenant theme) := by
  refine .bind (.fetchAll rfl rfl) fun themes ↦ ?_
  split
  · refine .bind (.execute rfl rfl) fun _ ↦ ?_
    exact .bind (.fetchOne rfl) fun activated ↦ .pure _
  · exact .pure _

end

/-! ## Calls that write pages

Updates, saves and restorations are three of a kind. Each knows, if need be after some reading,
which blocks it is going to write, and then tries a transaction that writes them until there is no
conflict. As a `Write` the three are brought to this form, so that what they have in common is
proved once. -/

/-! ### Results -/

section

variable {α β : Type}

def Ending.map (f : α → β) : Ending α → Ending β
  | complete a => complete (f a)
  | abandon e => abandon e

/-- To change the result of a transaction is to change that of its body. -/
theorem map_transaction (f : α → β) (body : Action (Ending α)) :
    f <$> transaction body = transaction (Ending.map f <$> body) := by
  refine ExceptT.ext ?_
  rw [ExceptT.run_map, transaction, transaction, ExceptT.run_mk, ExceptT.run_mk, map_bind]
  refine bind_congr fun b ↦ ?_
  cases b with
  | error d => rfl
  | ok b =>
    rw [map_bind, ExceptT.run_map, bind_map_left]
    refine bind_congr fun ending ↦ ?_
    rcases ending with e | a | e
    · rfl
    all_goals
      change Except.map f <$> (Program.send _ >>= _) = _
      rw [map_bind]
      refine bind_congr fun c ↦ ?_
      cases c <;> rfl

/-- To change the result of attempts is to change that of each. -/
theorem map_retrying (f : α → β) (maxAttempts : Nat) (attempt : Action α) :
    f <$> Pages.retrying maxAttempts attempt = Pages.retrying maxAttempts (f <$> attempt) := by
  -- the loop does not look at the result, only at the error
  have hfrom (left n : Nat) :
      Except.map f <$> retryFrom (m := Program) (fun _ ↦ pure ()) (fun _ ↦ attempt.run) left n =
        retryFrom (fun _ ↦ pure ()) (fun _ ↦ (f <$> attempt).run) left n := by
    induction left generalizing n with
    | zero => exact (ExceptT.run_map f attempt).symm
    | succ left ih =>
      rw [retryFrom, retryFrom, map_bind, ExceptT.run_map, bind_map_left]
      refine bind_congr fun r ↦ ?_
      cases r with
      | ok a => rfl
      | error e =>
        change Except.map f <$> (if _ then _ else _) = if _ then _ else _
        rw [apply_ite (Except.map f <$> ·), map_bind]
        simp only [ih, ExceptT.run_map]
        rfl
  refine ExceptT.ext ?_
  rw [ExceptT.run_map]
  exact hfrom _ _

end

/-! ### The three kinds -/

/-- A call that writes a page. -/
inductive Write
  | update (page : Uuid) (blocks : List Block) (editor : Uuid)
  | save (tenant : Uuid) (slug title : String) (blocks : List Block) (editor : Uuid)
  | restore (page : Uuid) (version : Int) (editor : Uuid)
deriving DecidableEq, Repr

namespace Write

/-- The result of an update in the form of that of a save. -/
def withVersion (u : Page × PageVersion) : PageUpdate := ⟨u.1, some u.2⟩

def action (maxAttempts : Nat) : Write → Action PageUpdate
  | update page blocks editor => withVersion <$> Pages.update maxAttempts page blocks editor
  | save tenant slug title blocks editor => Pages.save maxAttempts tenant slug title blocks editor
  | restore page version editor => withVersion <$> Pages.restore maxAttempts page version editor

/-- What a call does in its transaction once it is known that it writes `new`. -/
def body (new : List Block) : Write → Action (Ending PageUpdate)
  | update page _ editor | restore page _ editor =>
    Ending.map withVersion <$> Pages.updateBody page new editor
  | save tenant slug title _ editor => Pages.saveBody tenant slug title new editor

/-- What a call says before its first attempt, and the blocks it knows to write after that. -/
inductive Brings : Write → List Exchange → List Block → Prop
  | update (page : Uuid) (blocks : List Block) (editor : Uuid) :
    Brings (.update page blocks editor) [] blocks
  | save (tenant : Uuid) (slug title : String) (blocks : List Block) (editor : Uuid) :
    Brings (.save tenant slug title blocks editor) [] blocks
  | restore {page : Uuid} {version : Int} (editor : Uuid)
    {found : Except DbError (Answer (.selectVersion page version))} {past : PageVersion}
    (h : firstRow found = .ok (some past)) :
    Brings (.restore page version editor) [⟨.selectVersion page version, found⟩] past.snapshot

/-- What a call says, and its result. -/
inductive Yields : Write → List Exchange → Except StoreError PageUpdate → Prop
  | unread {page : Uuid} {version : Int} (editor : Uuid)
    {found : Except DbError (Answer (.selectVersion page version))} {d : DbError}
    (h : firstRow found = .error d) :
    Yields (.restore page version editor) [⟨.selectVersion page version, found⟩] (.error (.db d))
  | missing {page : Uuid} {version : Int} (editor : Uuid)
    {found : Except DbError (Answer (.selectVersion page version))}
    (h : firstRow found = .ok none) :
    Yields (.restore page version editor) [⟨.selectVersion page version, found⟩]
      (.error (.versionNotFound page version))
  | tried {w : Write} {new : List Block} {talk : List Exchange} {r : Except StoreError PageUpdate}
    (hlead : w.Brings (lead talk) new)
    (h : Rounds (transaction (w.body new)) (attempts talk) r) : Yields w talk r

theorem careful_body (w : Write) (new : List Block) : Careful (w.body new) := by
  cases w with
  | update page blocks editor => exact Pages.careful_updateBody.map _
  | save tenant slug title blocks editor => exact Pages.careful_saveBody
  | restore page version editor => exact Pages.careful_updateBody.map _

variable {w : Write} {new : List Block} {talk front : List Exchange} {maxAttempts : Nat}
  {r : Except StoreError PageUpdate}

theorem Brings.ne_begin (h : w.Brings front new) : ∀ x ∈ front, x.statement ≠ .begin := by
  cases h <;> simp

/-- After it knows what to write, a call tries its transaction. -/
theorem Brings.yields (h : w.Brings front new)
    (htry : (Pages.retrying maxAttempts (transaction (w.body new))).run.Yields talk r) :
    w.Yields (front ++ talk) r := by
  obtain ⟨hlead, hrounds⟩ := rounds_of_retrying (w.careful_body new) h.ne_begin htry
  exact .tried (by rwa [hlead]) hrounds

/-- What is said by the body that updates and restorations share. -/
theorem yields_updateBody {page : Uuid} {editor : Uuid}
    {ending : Except StoreError (Ending PageUpdate)}
    (h : (Ending.map withVersion <$> Pages.updateBody page new editor).run.Yields talk ending) :
    ∃ q, Pages.UpdateYields page new editor talk q ∧ ending = q.map (Ending.map withVersion) := by
  rw [ExceptT.run_map] at h
  obtain ⟨q, hq, rfl⟩ := Program.yields_map h
  exact ⟨q, Pages.yields_updateBody hq, rfl⟩

theorem yields_updateBody_complete {page : Uuid} {editor : Uuid} {u : PageUpdate}
    (h : (Ending.map withVersion <$> Pages.updateBody page new editor).run.Yields talk
      (.ok (.complete u))) :
    ∃ u', Pages.UpdateYields page new editor talk (.ok (.complete u')) ∧ withVersion u' = u := by
  obtain ⟨q, hq, hending⟩ := yields_updateBody h
  rcases q with e | u' | e
  · cases hending
  · cases hending
    exact ⟨u', hq, rfl⟩
  · cases hending

theorem map_update (page : Uuid) (blocks : List Block) (editor : Uuid) :
    withVersion <$> Pages.update maxAttempts page blocks editor =
      Pages.retrying maxAttempts
        (transaction (Ending.map withVersion <$> Pages.updateBody page blocks editor)) := by
  rw [Pages.update, Pages.tryUpdate, map_retrying, map_transaction]

theorem yields_action (h : (w.action maxAttempts).run.Yields talk r) : w.Yields talk r := by
  cases w with
  | update page blocks editor =>
    rw [action, map_update] at h
    exact (Brings.update page blocks editor).yields h
  | save tenant slug title blocks editor =>
    exact (Brings.save tenant slug title blocks editor).yields h
  | restore page version editor =>
    rw [action, ExceptT.run_map] at h
    obtain ⟨q, hq, rfl⟩ := Program.yields_map h
    cases Pages.yields_restore hq with
    | unread hfound => exact .unread editor hfound
    | missing hfound => exact .missing editor hfound
    | updated hfound hupdate =>
      have htry := hupdate.map (Except.map withVersion)
      rw [← ExceptT.run_map, map_update] at htry
      exact (Brings.restore editor hfound).yields htry

end Write

end Pagesmith.Store
