import Pagesmith.Proofs.Store.Snapshots

/-!
# Created or overwritten

A save that succeeds has created its page or has overwritten one, and its result says which of the
two: without a version, the page is new. Nothing is overwritten without being kept before.

Between the select that locks a page and the one that asks whether it is there, the page might have
gone as far as the program knows, and then it would be overwritten without a version. That it is
still there (`PresentWhileLocked`) is what the lock is for, and it is the only thing that is asked
of the database here.
-/

namespace Pagesmith.Store

/-! ## What is said of pages and versions -/

/-- Whether a statement keeps a version or updates a page. -/
def Statement.replaces : Statement → Bool
  | insertVersion .. | updateBlocks .. | updateBlocksAndTitle .. | updatePublished .. => true
  | _ => false

/-- The page that an insertion has created. -/
def Exchange.created : Exchange → Option Page
  | ⟨.insertPageIfAbsent .., answer⟩ => rowOf answer
  | _ => none

/-- What is said to keep versions and to update pages. -/
def replacing (t : List Exchange) : List Exchange := t.filter fun x ↦ x.statement.replaces

theorem replacing_append (s t : List Exchange) :
    replacing (s ++ t) = replacing s ++ replacing t := List.filter_append s t

/-- Whether a page that was locked is never said to be gone in `t`. -/
def PresentWhileLocked (t : List Exchange) : Prop :=
  ∀ before page answer after row, t = before ++ ⟨.pageExists page, answer⟩ :: after →
    some row ∈ before.filterMap Exchange.lock → row.id = page → firstRow answer ≠ .ok (some false)

theorem PresentWhileLocked.ne_false {before after : List Exchange} {page : Uuid}
    {answer : Except DbError (Answer (.pageExists page))} {row : Page}
    (h : PresentWhileLocked (before ++ ⟨.pageExists page, answer⟩ :: after))
    (hrow : (before.filterMap Exchange.lock).getLast? = some (some row)) (hid : row.id = page) :
    oneRow answer ≠ .ok false :=
  fun hfalse ↦ h before page answer after row rfl (List.mem_of_getLast? hrow) hid
    (oneRow_eq_ok_iff.mp hfalse)

/-- What is said around a part does not matter to it. -/
theorem PresentWhileLocked.inner {b inner closing}
    (h : PresentWhileLocked (⟨.begin, b⟩ :: (inner ++ closing))) : PresentWhileLocked inner := by
  rintro before page answer after row rfl hrow hid
  refine h (⟨.begin, b⟩ :: before) page answer (after ++ closing) row ?_ hrow hid
  rw [List.append_assoc, List.cons_append, List.cons_append]

/-- What is asked of the last attempt `t` of a save that succeeds with `u`. -/
structure ReportsCreation (title : String) (blocks : List Block) (editor : Uuid)
    (t : List Exchange) (u : PageUpdate) : Prop where
  created_iff : u.version = none ↔ ∃ p, t.filterMap Exchange.created = [p]
  unreplaced : u.version = none → replacing t = []
  /-- The version is kept for the page that was locked last, and this page is updated after it. -/
  replaced : ∀ v, u.version = some v → ∃ row n kept written,
    (t.filterMap Exchange.lock).getLast? = some (some row) ∧
    replacing t = [⟨.insertVersion row.id n row.blocks editor, kept⟩,
      ⟨.updateBlocksAndTitle row.id blocks title, written⟩] ∧
    oneRow kept = .ok v ∧ oneRow written = .ok u.page

/-- Whether no page is found in `t`, and none created. -/
structure FindsNothing (t : List Exchange) : Prop where
  unlocked : ∀ row, some row ∉ t.filterMap Exchange.lock
  uncreated : t.filterMap Exchange.created = []

/-- What is asked of an attempt that `FindsNothing`, and of its result. -/
structure ChangesNothing (t : List Exchange) (r : Except StoreError PageUpdate) : Prop where
  unreplaced : replacing t = []
  uncommitted : ∀ x ∈ t, x.statement ≠ .commit
  failed : ∃ d, r = .error (.db d)

/-! ## Attempts -/

section

variable {tenant : Uuid} {slug title : String} {blocks : List Block} {editor : Uuid}
  {t front inner : List Exchange} {row : Page}

/-- Where a page has been locked, none was `created`. -/
theorem untouched_of_existing
    (h : Pages.FindYields tenant slug title blocks front (.ok (.existing row))) :
    replacing front = [] ∧ front.filterMap Exchange.created = [] := by
  cases h with
  | found h => exact ⟨rfl, rfl⟩
  | overtaken h hinsert hagain =>
    exact ⟨rfl, by simp [List.filterMap_cons, Exchange.created, rowOf_eq hinsert]⟩

/-- What is kept and updated where a page has been found that is there. -/
theorem replacing_of_kept {v : PageVersion}
    (h : Versions.RecordYields row.id row.blocks editor t (.ok (some v))) :
    (∃ n kept, replacing t = [⟨.insertVersion row.id n row.blocks editor, kept⟩] ∧
      oneRow kept = .ok v) ∧
    t.filterMap Exchange.created = [] ∧ t.filterMap Exchange.lock = [] := by
  cases h with
  | kept hasked hsnapshot =>
    cases hsnapshot with
    | kept hgreatest hnext hkept => exact ⟨⟨_, _, rfl, hkept⟩, rfl, rfl⟩

/-- A body that comes to its end has created its page, or it has kept and updated one. -/
theorem reportsCreation_saveBody {u : PageUpdate}
    (hpresent : PresentWhileLocked inner)
    (h : Pages.SaveYields tenant slug title blocks editor inner (.ok (.complete u))) :
    ReportsCreation title blocks editor inner u := by
  cases h with
  | created hfind =>
    cases hfind with
    | created hlocked hinsert =>
      refine ⟨?_, fun _ ↦ rfl, nofun⟩
      simp [List.filterMap_cons, Exchange.created, rowOf_eq hinsert]
  | @written before talk p v answer q hfind hrecord hwrite =>
    have hlock := lock_of_existing hfind
    obtain ⟨hunreplaced, huncreated⟩ := untouched_of_existing hfind
    cases v with
    | none =>
      -- the page would have gone while it was locked
      cases hrecord with
      | absent hasked => exact absurd hasked (hpresent.ne_false hlock rfl)
    | some v =>
      obtain ⟨⟨n, kept, hreplaces, hkept⟩, hkeptcreated, hkeptlock⟩ := replacing_of_kept hrecord
      refine ⟨?_, nofun, ?_⟩
      · simp [List.filterMap_cons, Exchange.created, huncreated, hkeptcreated]
      · rintro _ ⟨⟩
        refine ⟨p, n, kept, answer, ?_, ?_, hkept, hwrite⟩
        · simp [List.filterMap_cons, Exchange.lock, hlock, hkeptlock]
        · rw [replacing_append, replacing_append, hunreplaced, hreplaces]
          rfl

/-- Beginning and committing a transaction is not about pages. -/
theorem ReportsCreation.between {u : PageUpdate} (h : ReportsCreation title blocks editor inner u)
    (b c) : ReportsCreation title blocks editor
      (⟨.begin, b⟩ :: (inner ++ [⟨.commit, c⟩])) u := by
  have hreplacing : replacing (⟨.begin, b⟩ :: (inner ++ [⟨.commit, c⟩])) = replacing inner :=
    (replacing_append inner _).trans (List.append_nil _)
  have hcreated : (⟨.begin, b⟩ :: (inner ++ [⟨.commit, c⟩])).filterMap Exchange.created =
      inner.filterMap Exchange.created :=
    @filterMap_between [_] [_] inner _ _ (List.forall_mem_singleton.mpr rfl)
      (List.forall_mem_singleton.mpr rfl)
  have hlock : (⟨.begin, b⟩ :: (inner ++ [⟨.commit, c⟩])).filterMap Exchange.lock =
      inner.filterMap Exchange.lock :=
    @filterMap_between [_] [_] inner _ _ (List.forall_mem_singleton.mpr rfl)
      (List.forall_mem_singleton.mpr rfl)
  refine ⟨?_, ?_, ?_⟩
  · rw [hcreated]
    exact h.created_iff
  · rw [hreplacing]
    exact h.unreplaced
  · rw [hlock, hreplacing]
    exact h.replaced

theorem reportsCreation_trySave {u : PageUpdate} (hpresent : PresentWhileLocked t)
    (h : (Pages.trySave tenant slug title blocks editor).run.Yields t (.ok u)) :
    (∃ c, t.getLast? = some ⟨.commit, .ok c⟩) ∧ ReportsCreation title blocks editor t u := by
  cases yields_transaction h with
  | @begun b inner _ _ _ hinner hclosing =>
    cases hclosing with
    | committed u c =>
      refine ⟨⟨c, List.getLast?_concat (l := _ :: inner)⟩, ?_⟩
      exact (reportsCreation_saveBody hpresent.inner (Pages.yields_saveBody hinner)).between _ _

/-- A body that finds nothing has failed while looking. -/
theorem changesNothing_saveBody {ending : Except StoreError (Ending PageUpdate)}
    (hnothing : FindsNothing inner)
    (h : Pages.SaveYields tenant slug title blocks editor inner ending) :
    ∃ d, ending = .error (.db d) ∧ replacing inner = [] := by
  have hexisting {before after : List Exchange} {row : Page} (h : inner = before ++ after)
      (hfind : Pages.FindYields tenant slug title blocks before (.ok (.existing row))) : False := by
    refine hnothing.unlocked row ?_
    rw [h, List.filterMap_append]
    exact List.mem_append_left _ (List.mem_of_getLast? (lock_of_existing hfind))
  cases h with
  | unfound hfind => cases hfind <;> exact ⟨_, rfl, rfl⟩
  | created hfind =>
    cases hfind with
    | created hlocked hinsert =>
      have hcreated := hnothing.uncreated
      simp [List.filterMap_cons, Exchange.created, rowOf_eq hinsert] at hcreated
  | unkept hfind hrecord => exact (hexisting rfl hfind).elim
  | unwritten hfind hrecord hwrite => exact (hexisting rfl hfind).elim
  | written hfind hrecord hwrite => exact (hexisting rfl hfind).elim

theorem changesNothing_trySave {r : Except StoreError PageUpdate} (hnothing : FindsNothing t)
    (h : (Pages.trySave tenant slug title blocks editor).run.Yields t r) : ChangesNothing t r := by
  cases yields_transaction h with
  | refused d => exact ⟨rfl, by simp, d, rfl⟩
  | @begun b inner closing ending _ hinner hclosing =>
    have hinside := Pages.careful_saveBody.inside hinner
    have hinner' : FindsNothing inner := by
      refine ⟨fun row hrow ↦ hnothing.unlocked row ?_, ?_⟩
      · simp only [List.filterMap_cons, List.filterMap_append]
        exact List.mem_append_left _ hrow
      · have huncreated := hnothing.uncreated
        simp only [List.filterMap_cons, List.filterMap_append] at huncreated
        exact (List.append_eq_nil_iff.mp huncreated).1
    obtain ⟨d, rfl, hreplacing⟩ := changesNothing_saveBody hinner' (Pages.yields_saveBody hinner)
    cases hclosing with
    | left e answer =>
      refine ⟨(replacing_append inner _).trans (by rw [hreplacing]; rfl), ?_, d, rfl⟩
      refine List.forall_mem_cons.mpr ⟨nofun, List.forall_mem_append.mpr ⟨fun x hx hcommit ↦ ?_,
        List.forall_mem_singleton.mpr nofun⟩⟩
      have hdelimiter := hinside x hx
      rw [hcommit] at hdelimiter
      cases hdelimiter

end

/-! ## Calls -/

/-- What is asked of a save. -/
structure SavesAsTold (title : String) (blocks : List Block) (editor : Uuid) (talk : List Exchange)
    (r : Except StoreError PageUpdate) : Prop where
  succeeded : ∀ u, r = .ok u → ∃ t, (attempts talk).getLast? = some t ∧
    (∃ c, t.getLast? = some ⟨.commit, .ok c⟩) ∧ ReportsCreation title blocks editor t u
  nothing : ∀ t ∈ attempts talk, FindsNothing t →
    (attempts talk).getLast? = some t ∧ ChangesNothing t r

/-- **Created or overwritten.** As long as a page that is locked does not go away, a save that
succeeds returns no version if and only if it has created the page. Otherwise it has kept what it
has locked, and has overwritten it only then. A save that finds no page and can create none ends at
once, and has changed nothing. -/
theorem save_reports_creation (maxAttempts : Nat) (tenant : Uuid) (slug title : String)
    (blocks : List Block) (editor : Uuid) {σ : Type} (peer : Program.Peer σ) (st : σ)
    (hpresent : ∀ t ∈ attempts
      ((Pages.save maxAttempts tenant slug title blocks editor).run.conversation peer st),
      PresentWhileLocked t) :
    SavesAsTold title blocks editor
      ((Pages.save maxAttempts tenant slug title blocks editor).run.conversation peer st)
      ((Pages.save maxAttempts tenant slug title blocks editor).run.run peer st).1 := by
  have hyields := Program.yields_conversation peer
    (Pages.save maxAttempts tenant slug title blocks editor).run st
  generalize
    (Pages.save maxAttempts tenant slug title blocks editor).run.conversation peer st = talk,
    ((Pages.save maxAttempts tenant slug title blocks editor).run.run peer st).1 = r
    at hyields hpresent ⊢
  obtain ⟨-, hrounds⟩ := @rounds_of_retrying _ _ _ _ [] maxAttempts Pages.careful_saveBody
    (List.forall_mem_nil _) hyields
  rw [List.nil_append] at hrounds
  obtain ⟨front, last, hattempts, hlast, hfront⟩ := hrounds.exists_last
  have hgetLast : (attempts talk).getLast? = some last := by
    rw [hattempts, List.getLast?_concat]
  constructor
  · rintro u rfl
    have hmem : last ∈ attempts talk := List.mem_of_getLast? hgetLast
    exact ⟨last, hgetLast, reportsCreation_trySave (hpresent last hmem) hlast⟩
  · intro t ht hnothing
    rw [hattempts] at ht
    rcases List.mem_append.mp ht with ht | ht
    · -- an attempt that is followed by another has met a conflict
      obtain ⟨e, hyields, he⟩ := hfront t ht
      obtain ⟨d, ⟨⟩⟩ := (changesNothing_trySave hnothing hyields).failed
      cases he
    · cases List.mem_singleton.mp ht
      exact ⟨hgetLast, changesNothing_trySave hnothing hlast⟩

theorem presentWhileLocked_of_peer {α σ : Type} {peer : Program.Peer σ}
    (h : ∀ st page, firstRow (peer st (.pageExists page)).1 ≠ .ok (some false)) (p : Program α)
    (st : σ) : ∀ t ∈ attempts (p.conversation peer st), PresentWhileLocked t := by
  rintro t ht before page answer after row rfl - -
  have hmem : ⟨.pageExists page, answer⟩ ∈ p.conversation peer st := by
    rw [← lead_append_flatten_attempts (p.conversation peer st)]
    exact List.mem_append_right _ (List.mem_flatten_of_mem ht (by simp))
  obtain ⟨st', rfl⟩ := Program.answer_of_mem_conversation hmem
  exact h st' page

/-- A database in which, once, another save is faster to create the page. -/
def beating : Program.Peer Bool := fun there s ↦
  match s with
  | .lockPageBySlug tenant slug =>
    let theirs : Page :=
      ⟨⟨1⟩, tenant, slug, "Theirs", [⟨"text", .null⟩], false, .null, .epoch, .epoch⟩
    (.ok { rows := if there then [.ok theirs] else [] }, there)
  | .insertPageIfAbsent .. => (.ok {}, true)
  | .pageExists _ => (.ok { rows := [.ok true] }, there)
  | .selectGreatestVersion _ => (.ok { rows := [.ok none] }, there)
  | .insertVersion page n list editor =>
    (.ok { rows := [.ok ⟨⟨2⟩, page, n, list, editor, .epoch⟩] }, there)
  | .updateBlocksAndTitle page list title =>
    (.ok { rows := [.ok ⟨page, ⟨4⟩, "home", title, list, false, .null, .epoch, .epoch⟩] }, there)
  | _ => (.ok {}, there)

/-- A save that was about to create its page keeps the blocks of the other save. -/
theorem save_reports_creation_of_beating :
    let talk := (Pages.save 3 ⟨4⟩ "home" "Ours" [] ⟨3⟩).run.conversation beating false
    (∀ t ∈ attempts talk, PresentWhileLocked t) ∧
    ∃ t v row n kept written, (attempts talk).getLast? = some t ∧
      (t.filterMap Exchange.lock).getLast? = some (some row) ∧ row.blocks = [⟨"text", .null⟩] ∧
      replacing t = [⟨.insertVersion row.id n row.blocks ⟨3⟩, kept⟩,
        ⟨.updateBlocksAndTitle row.id [] "Ours", written⟩] ∧
      oneRow kept = .ok v := by
  intro talk
  have hpresent : ∀ t ∈ attempts talk, PresentWhileLocked t :=
    presentWhileLocked_of_peer (fun _ _ h ↦ by cases h) _ _
  have hsave := save_reports_creation 3 ⟨4⟩ "home" "Ours" [] ⟨3⟩ beating false hpresent
  obtain ⟨t, ht, -, hreports⟩ := hsave.succeeded _ rfl
  obtain ⟨row, n, kept, written, hrow, hreplacing, hkept, -⟩ := hreports.replaced _ rfl
  have hblocks : row.blocks = [⟨"text", .null⟩] := by
    cases ht
    cases hrow
    rfl
  exact ⟨hpresent, t, _, row, n, kept, written, ht, hrow, hblocks, hreplacing, hkept⟩

end Pagesmith.Store
