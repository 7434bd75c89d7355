import Pagesmith.Proofs.Store.Discipline
import Pagesmith.Proofs.Store.Jobs
import Pagesmith.Proofs.Store.Snapshots

/-!
# What an operator is told

The tool prints while it does its task, and what is printed stays printed. So a run that fails must
not have printed before, and where something is changed, a success must not be told before the
change is there, nor a change be there untold. In `NeverHalfSucceeds` what is printed is therefore
compared with the conversation, whatever the database answers at each of its turns, and whether or
not there is a connection at all.

## Which transaction is told of

A restoration may take several attempts, each with a version of its own. Only the last one can have
been committed, and the number in the line is that of the row which was inserted there.
-/

namespace Pagesmith.Store

open CommandLine

/-! ## Commits -/

def Committed (talk : List Exchange) : Prop := ∃ x ∈ talk, x.statement = .commit ∧ x.Acknowledged

theorem not_committed_nil : ¬Committed [] := fun ⟨_, hx, _⟩ ↦ List.not_mem_nil hx

namespace Write

variable {w : Write} {new : List Block} {talk front : List Exchange}

theorem Brings.ne_commit (h : w.Brings front new) : ∀ x ∈ front, x.statement ≠ .commit := by
  cases h <;> simp

theorem Yields.commitOf {r : Except StoreError PageUpdate} (h : w.Yields talk r) :
    CommitOf talk r := by
  cases h with
  | unread editor h => exact .unsent (by simp) ⟨_, rfl⟩
  | missing editor h => exact .unsent (by simp) ⟨_, rfl⟩
  | tried hlead h =>
    rw [← lead_append_flatten_attempts talk]
    exact (commitOf_rounds (w.careful_body _) h).append hlead.ne_commit

/-- A call that succeeds was committed in its last attempt, and returns the rows of that one. -/
theorem Yields.committed_last {u : PageUpdate} (h : w.Yields talk (.ok u)) :
    ∃ t, (attempts talk).getLast? = some t ∧ Committed t ∧ MadeOf t u := by
  cases h with
  | @tried _ new _ _ hlead h =>
    obtain ⟨before, t, hattempts, hlast, -⟩ := h.exists_last
    have hcommit := commitOf_transaction (w.careful_body new) hlast
    exact ⟨t, by rw [hattempts, List.getLast?_concat], hcommit.ok_iff.mp ⟨u, rfl⟩,
      madeOf_transaction hlast⟩

end Write

namespace Operator

/-! ## What may be told -/

section

variable {α : Type} {line : α → String} {done : Prop}

/-- Whether `r` tells of a success exactly if `done`: by its exit code, and by one of the lines that
`line` makes. -/
structure TellsIff (line : α → String) (done : Prop) (r : Report) : Prop where
  exit : r.exit = 0 ↔ done
  line : (∃ a, r.stdout = line a) ↔ done

theorem exit_ne_zero (f : Failure) : f.exit ≠ 0 := by
  cases f <;> exact nofun

theorem tellsIff_of_not (hline : ∀ a, line a ≠ "") (h : ¬done) (f : Failure) :
    TellsIff line done (reportOf (.error f, "")) where
  exit := iff_of_false (exit_ne_zero f) h
  line := iff_of_false (fun ⟨a, ha⟩ ↦ hline a ha.symm) h

theorem tellsIff_of_printed (h : done) (a : α) :
    TellsIff line done (reportOf (.ok (), "" ++ line a)) where
  exit := iff_of_true rfl h
  line := iff_of_true ⟨a, String.empty_append⟩ h

end

theorem append_ne_empty {s t : String} (h : s ≠ "") : s ++ t ≠ "" :=
  fun heq ↦ h (String.append_eq_empty_iff.mp heq).1

theorem restoredLine_ne_empty (page : Uuid) (version kept : Int) :
    restoredLine page version kept ≠ "" := by
  iterate 6 refine append_ne_empty ?_
  decide

theorem activatedLine_ne_empty (name : String) : activatedLine name ≠ "" := by
  iterate 3 refine append_ne_empty ?_
  decide

/-- All migrations, as they are sent. -/
def migrations : List Statement := Migrations.all.map .migrate

/-- What is said of migrations. -/
structure TellsOfMigrations (talk : List Exchange) (r : Report) : Prop where
  inOrder : talk.map Exchange.statement <+: migrations
  /-- Nothing is sent behind a migration that has failed. -/
  stops : talk.Pairwise fun x _ ↦ x.Acknowledged
  told : TellsIff (fun _ : Unit ↦ migratedLine)
    (talk.map Exchange.statement = migrations ∧ ∀ x ∈ talk, x.Acknowledged) r

/-- What is said of a restoration. -/
structure TellsOfRestoration (page : Uuid) (version : Int) (talk : List Exchange) (r : Report) :
    Prop where
  told : TellsIff (restoredLine page version) (Committed talk) r
  /-- The number is that of the one version which was inserted in the committed transaction. -/
  kept : Committed talk → ∃ t v, (attempts talk).getLast? = some t ∧ Committed t ∧
    t.filterMap Exchange.keptVersion = [v] ∧ r.stdout = restoredLine page version v.version

/-- What is said of an activation. -/
structure TellsOfActivation (theme : Uuid) (talk : List Exchange) (r : Report) : Prop where
  told : TellsIff activatedLine (Committed talk) r
  /-- The name is that of the theme as it was written. -/
  name : Committed talk → ∃ (answer : Except DbError (Answer (.activateTheme theme))) (t : Theme),
    ⟨.activateTheme theme, answer⟩ ∈ talk ∧ oneRow answer = .ok t ∧
      r.stdout = activatedLine t.name

/-- What is said of a task by the report `r`. Of a page and its versions it is what was asked for,
and all there is to say is that nothing else was done. -/
def Tells (talk : List Exchange) (r : Report) : Task → Prop
  | .migrate => TellsOfMigrations talk r
  | .render .. | .versions .. => OnlySelects talk
  | .restore page version _ => TellsOfRestoration page version talk r
  | .activateTheme _ theme => TellsOfActivation theme talk r

/-- Whether a run for `task` has told the whole of what it has done. -/
structure NeverHalfSucceeds (task : Task) (talk : List Exchange) (r : Report) : Prop where
  /-- A panic has an exit code of its own, and a page that has the last version number. -/
  exit : r.exit = 0 ∨ r.exit = 1 ∨ r.exit = 101 ∧ ∃ x ∈ talk, x.TellsLast
  silent : r.exit ≠ 0 → r.stdout = ""
  told : Tells talk r task

/-! ## Migrations -/

/-- What is said where migrations are applied one after the other. -/
inductive Applies : List Migration → List Exchange → Except DbError Unit → Prop
  | nil : Applies [] [] (.ok ())
  | refused (m : Migration) (ms : List Migration) (d : DbError) :
    Applies (m :: ms) [⟨.migrate m, .error d⟩] (.error d)
  | cons {m : Migration} {ms : List Migration} {talk : List Exchange} {r : Except DbError Unit}
    (a : Answer (.migrate m)) (h : Applies ms talk r) :
    Applies (m :: ms) (⟨.migrate m, .ok a⟩ :: talk) r

section

variable {ms : List Migration} {talk : List Exchange} {r : Except DbError Unit}

theorem applies_of_yields
    (h : (ms.forM fun m ↦ (do let _ ← execute (.migrate m) : Query Unit)).run.Yields talk r) :
    Applies ms talk r := by
  induction ms generalizing talk with
  | nil =>
    obtain ⟨rfl, rfl⟩ := yields_run_pure h
    exact .nil
  | cons m ms ih =>
    have hask : Asks (do let _ ← execute (.migrate m) : Query Unit) (.migrate m) fun answer ↦
        (answer.bind fun a ↦ .ok a.affected).bind fun _ ↦ .ok () :=
      asks_execute.bind_of_reads fun _ ↦ rfl
    obtain ⟨answer, after, rfl, ⟨d, hd, rfl, rfl⟩ | ⟨u, hu, hrest⟩⟩ := hask.yields_bind h
    · cases answer with
      | error e =>
        cases hd
        exact .refused m ms d
      | ok a => cases hd
    · cases answer with
      | error e => cases hu
      | ok a => exact .cons a (ih hrest)

theorem Applies.inOrder (h : Applies ms talk r) :
    talk.map Exchange.statement <+: ms.map .migrate := by
  induction h with
  | nil => exact List.prefix_rfl
  | refused m ms d => exact ⟨ms.map .migrate, rfl⟩
  | cons a h ih => exact (List.prefix_cons_inj _).mpr ih

theorem Applies.stops (h : Applies ms talk r) : talk.Pairwise fun x _ ↦ x.Acknowledged := by
  induction h with
  | nil => exact .nil
  | refused m ms d => exact List.pairwise_singleton ..
  | cons a h ih => exact .cons (fun _ _ ↦ ⟨a, rfl⟩) ih

theorem Applies.ok_iff (h : Applies ms talk r) :
    (∃ u, r = .ok u) ↔
      talk.map Exchange.statement = ms.map .migrate ∧ ∀ x ∈ talk, x.Acknowledged := by
  induction h with
  | nil => exact iff_of_true ⟨(), rfl⟩ ⟨rfl, fun _ hx ↦ absurd hx List.not_mem_nil⟩
  | refused m ms d =>
    refine iff_of_false nofun fun ⟨_, hall⟩ ↦ ?_
    obtain ⟨_, ⟨⟩⟩ := hall _ List.mem_cons_self
  | cons a h ih =>
    rw [ih, List.map_cons, List.map_cons, List.cons.injEq, List.forall_mem_cons]
    exact ⟨fun ⟨hmap, hall⟩ ↦ ⟨⟨rfl, hmap⟩, ⟨a, rfl⟩, hall⟩,
      fun ⟨⟨_, hmap⟩, _, hall⟩ ↦ ⟨hmap, hall⟩⟩

end

/-! ## Jobs -/

section

variable {config : Config} {year : Int} {page theme tenant editor : Uuid} {version : Int}
  {talk : List Exchange} {r : Except Failure Unit} {printed : String}

theorem tellsOfMigrations_job (h : Does (job config year .migrate) "" talk r printed) :
    TellsOfMigrations talk (reportOf (r, printed)) := by
  have hjob : job config year .migrate =
      ofQuery Migrations.apply >>= fun _ ↦ print migratedLine := rfl
  rw [hjob] at h
  obtain ⟨q, hq, hends⟩ := does_ofProgram_print h
  have happlies : Applies Migrations.all talk q := applies_of_yields hq
  refine ⟨happlies.inOrder, happlies.stops, ?_⟩
  rw [migrations, ← happlies.ok_iff]
  obtain ⟨e, rfl, rfl, rfl⟩ | ⟨u, rfl, rfl, rfl⟩ := hends
  · exact tellsIff_of_not (fun _ ↦ by decide) nofun _
  · exact tellsIff_of_printed ⟨u, rfl⟩ ()

theorem tellsOfRestoration_job
    (h : Does (job config year (.restore page version editor)) "" talk r printed) :
    TellsOfRestoration page version talk (reportOf (r, printed)) := by
  have hjob : job config year (.restore page version editor) =
      ofAction (Pages.restore config.versionRetries page version editor) >>= fun u ↦
        print (restoredLine page version u.2.version) := rfl
  rw [hjob] at h
  obtain ⟨q, hq, hends⟩ := does_ofProgram_print h
  have hmap := hq.map (Except.map Write.withVersion)
  rw [← ExceptT.run_map] at hmap
  have hwrite : (Write.restore page version editor).Yields talk (q.map Write.withVersion) :=
    Write.yields_action hmap
  obtain ⟨e, rfl, rfl, rfl⟩ | ⟨⟨p, v⟩, rfl, rfl, rfl⟩ := hends
  · have hnot : ¬Committed talk := fun hcommitted ↦ nomatch hwrite.commitOf.ok_iff.mpr hcommitted
    exact ⟨tellsIff_of_not (restoredLine_ne_empty page version) hnot _, fun h ↦ absurd h hnot⟩
  · have hcommitted : Committed talk := hwrite.commitOf.ok_iff.mp ⟨_, rfl⟩
    obtain ⟨t, hlast, ht, hmade⟩ := hwrite.committed_last
    exact ⟨tellsIff_of_printed hcommitted v.version,
      fun _ ↦ ⟨t, v, hlast, ht, hmade.version, String.empty_append⟩⟩

theorem tellsOfActivation_job
    (h : Does (job config year (.activateTheme tenant theme)) "" talk r printed) :
    TellsOfActivation theme talk (reportOf (r, printed)) := by
  have hjob : job config year (.activateTheme tenant theme) =
      ofAction (Themes.activate tenant theme) >>= fun t ↦ print (activatedLine t.name) := rfl
  rw [hjob] at h
  obtain ⟨q, hq, hends⟩ := does_ofProgram_print h
  have hcommit := commitOf_transaction Themes.careful_activateBody hq
  obtain ⟨e, rfl, rfl, rfl⟩ | ⟨t, rfl, rfl, rfl⟩ := hends
  · have hnot : ¬Committed talk := fun hcommitted ↦ nomatch hcommit.ok_iff.mpr hcommitted
    exact ⟨tellsIff_of_not activatedLine_ne_empty hnot _, fun h ↦ absurd h hnot⟩
  · refine ⟨tellsIff_of_printed (hcommit.ok_iff.mp ⟨t, rfl⟩) t.name, fun _ ↦ ?_⟩
    cases yields_transaction hq with
    | begun b hinner hclosing =>
      cases hclosing with
      | committed t c =>
        cases Themes.yields_activateBody hinner with
        | activated hlock hthere hactivate =>
          exact ⟨_, t, by simp, hactivate, String.empty_append⟩

theorem onlyLooks_renderJob {fragment : Bool} : OnlyLooks (renderJob year page fragment) := by
  have hpage : (Statement.selectPage page).IsSelect := ⟨_, String.append_assoc ..⟩
  have htypes : Statement.selectEnabledTypes.IsSelect := ⟨_, String.append_assoc ..⟩
  have htheme (tenant : Uuid) : (Statement.selectActiveTheme tenant).IsSelect :=
    ⟨_, String.append_assoc ..⟩
  refine (onlyLooks_ofProgram hpage asks_fetchOptional).bind fun row ↦ ?_
  cases row with
  | none => exact onlyLooks_throw _
  | some p =>
    refine (onlyLooks_ofProgram htypes Types.asks_loadRegistry).bind fun registry ↦ ?_
    cases fragment with
    | true => exact onlyLooks_print _
    | false =>
      exact (onlyLooks_ofProgram (htheme p.tenant) asks_fetchOptional).bind fun _ ↦
        onlyLooks_print _

theorem onlyLooks_versionsJob {json : Bool} : OnlyLooks (versionsJob page json) := by
  have hversions : (Statement.selectVersions page).IsSelect := ⟨_, String.append_assoc ..⟩
  refine (onlyLooks_ofProgram hversions asks_fetchAll).bind fun versions ↦ ?_
  have hlines : OnlyLooks (versions.forM fun v ↦ printLine (versionLine v)) :=
    onlyLooks_forM (fun _ ↦ onlyLooks_print _) versions
  split
  · exact onlyLooks_print _
  · split
    · exact (onlyLooks_print _).bind fun _ ↦ hlines
    · exact (onlyLooks_pure ()).bind fun _ ↦ hlines

theorem failsClean_renderJob {fragment : Bool} : FailsClean (renderJob year page fragment) := by
  refine (failsClean_ofQuery _).bind (quiet_ofProgram _ _) fun row ↦ ?_
  cases row with
  | none => exact failsClean_throw _ _
  | some p =>
    refine (failsClean_ofAction countsOn_loadRegistry).bind (quiet_ofProgram _ _) fun registry ↦ ?_
    cases fragment with
    | true => exact (neverFails_print _).failsClean
    | false =>
      exact (failsClean_ofQuery _).bind (quiet_ofProgram _ _) fun _ ↦
        (neverFails_print _).failsClean

theorem failsClean_versionsJob {json : Bool} : FailsClean (versionsJob page json) := by
  refine (failsClean_ofQuery _).bind (quiet_ofProgram _ _) fun versions ↦ NeverFails.failsClean ?_
  have hlines : NeverFails (versions.forM fun v ↦ printLine (versionLine v)) :=
    neverFails_forM (fun _ ↦ neverFails_print _) versions
  split
  · exact neverFails_print _
  · split
    · exact (neverFails_print _).bind fun _ ↦ hlines
    · exact hlines

theorem failsClean_job (task : Task) : FailsClean (job config year task) := by
  cases task with
  | migrate =>
    exact (failsClean_ofQuery _).bind (quiet_ofProgram _ _) fun _ ↦ (neverFails_print _).failsClean
  | render page fragment => exact failsClean_renderJob
  | versions page json => exact failsClean_versionsJob
  | restore page version editor =>
    exact (failsClean_ofAction (.restore _)).bind (quiet_ofProgram _ _) fun _ ↦
      (neverFails_print _).failsClean
  | activateTheme tenant theme =>
    exact (failsClean_ofAction countsOn_activate).bind (quiet_ofProgram _ _) fun _ ↦
      (neverFails_print _).failsClean

theorem tells_job {task : Task} (h : Does (job config year task) "" talk r printed) :
    Tells talk (reportOf (r, printed)) task := by
  cases task with
  | migrate => exact tellsOfMigrations_job h
  | render page fragment => exact onlyLooks_renderJob _ _ _ _ h
  | versions page json => exact onlyLooks_versionsJob _ _ _ _ h
  | restore page version editor => exact tellsOfRestoration_job h
  | activateTheme tenant theme => exact tellsOfActivation_job h

/-- A run that has not come to its job has failed. -/
theorem tells_nil (task : Task) (f : Failure) : Tells [] (reportOf (.error f, "")) task := by
  cases task with
  | migrate =>
    refine ⟨List.nil_prefix, .nil, tellsIff_of_not (fun _ ↦ by decide) (fun h ↦ ?_) f⟩
    exact absurd h.1 (by decide)
  | render page fragment => exact onlySelects_nil
  | versions page json => exact onlySelects_nil
  | restore page version editor =>
    exact ⟨tellsIff_of_not (restoredLine_ne_empty page version) not_committed_nil f,
      fun h ↦ absurd h not_committed_nil⟩
  | activateTheme tenant theme =>
    exact ⟨tellsIff_of_not activatedLine_ne_empty not_committed_nil f,
      fun h ↦ absurd h not_committed_nil⟩

end

/-! ## Runs -/

section

variable {connect : Config → Except DbError Unit} {vars : Config.Variables} {year : Int}
  {request : Request} {talk : List Exchange} {r : Except Failure Unit} {printed : String}

/-- Without settings or a connection nothing is said, and a run fails. -/
theorem failsClean_answer : FailsClean (answer connect vars year request) := by
  refine (failsClean_ofExcept fun e he ↦ ?_).bind (quiet_ofExcept _) fun config ↦ ?_
  · rw [settings] at he
    obtain hfault | ⟨config, -, hpure⟩ := bind_eq_error_iff.mp he
    · obtain ⟨fault, -, rfl⟩ := mapError_eq_error_iff.mp hfault
      rfl
    · cases hpure
  refine (failsClean_ofExcept fun e he ↦ ?_).bind (quiet_ofExcept _) fun _ ↦ failsClean_job _
  obtain ⟨d, -, rfl⟩ := mapError_eq_error_iff.mp he
  rfl

theorem tells_answer (h : Does (answer connect vars year request) "" talk r printed) :
    Tells talk (reportOf (r, printed)) request.task := by
  obtain ⟨e, rfl, hsettings⟩ | ⟨front, config, middle, rest, rfl, hsettings, h⟩ := does_bind h
  · obtain ⟨rfl, -, rfl⟩ := does_ofExcept hsettings
    exact tells_nil _ _
  obtain ⟨rfl, -, rfl⟩ := does_ofExcept hsettings
  obtain ⟨e, rfl, hconnect⟩ | ⟨front, _, middle, rest, rfl, hconnect, h⟩ := does_bind h
  · obtain ⟨rfl, -, rfl⟩ := does_ofExcept hconnect
    exact tells_nil _ _
  obtain ⟨rfl, -, rfl⟩ := does_ofExcept hconnect
  exact tells_job h

end

/-- **What an operator is told.** Whatever the database answers, and whether or not there is a
connection, a run of the tool with a task fails without an output or succeeds, tells of a change
exactly if it was made, and changes nothing where it was only asked to show something. -/
theorem never_half_succeeds {args : List String} {request : Request}
    (hargs : Request.ofArguments args = .ok request) (connect : Config → Except DbError Unit)
    (vars : Config.Variables) (year : Int) {σ : Type} (peer : Program.Peer σ) (st : σ) :
    NeverHalfSucceeds request.task ((run connect args vars year).conversation peer st)
      ((run connect args vars year).run peer st).1 := by
  have hyields := Program.yields_conversation peer (run connect args vars year) st
  generalize (run connect args vars year).conversation peer st = talk,
    ((run connect args vars year).run peer st).1 = report at hyields ⊢
  rw [run, hargs] at hyields
  obtain ⟨said, ⟨r, printed⟩, rest, rfl, hdoes, hpure⟩ := Program.yields_bind hyields
  obtain ⟨rfl, rfl⟩ := Program.yields_pure hpure
  rw [List.append_nil]
  have htells := tells_answer hdoes
  cases r with
  | error f =>
    obtain ⟨rfl, hexplains⟩ := failsClean_answer _ _ _ _ hdoes
    exact ⟨.inr hexplains, fun _ ↦ rfl, htells⟩
  | ok u => exact ⟨.inl rfl, fun h ↦ absurd rfl h, htells⟩

/-- Arguments for the restoration of a version. -/
def restoring : List String :=
  ["restore", "--page", "00000000-0000-0000-0000-000000000001", "--version", "2",
    "--editor", "00000000-0000-0000-0000-000000000003"]

/-- A database that has every page and every version, each page with two versions. -/
def obliging : Program.Peer Unit := fun _ s ↦
  match s with
  | .selectVersion page version => (.ok { rows := [.ok ⟨⟨9⟩, page, version, [], ⟨3⟩, .epoch⟩] }, ())
  | .lockPage page | .updateBlocks page _ =>
    (.ok { rows := [.ok ⟨page, ⟨4⟩, "home", "Home", [], false, .null, .epoch, .epoch⟩] }, ())
  | .selectGreatestVersion _ => (.ok { rows := [.ok (some 2)] }, ())
  | .insertVersion page version blocks editor =>
    (.ok { rows := [.ok ⟨⟨10⟩, page, version, blocks, editor, .epoch⟩] }, ())
  | _ => (.ok {}, ())

/-- The cases of a restoration that is committed, of one of a version that is not there, of one for
which there is no connection, and of migrations that are all acknowledged. -/
theorem never_half_succeeds_obliged :
    let vars : Config.Variables := fun _ ↦ none
    let restoration := run (fun _ ↦ .ok ()) restoring vars 2026
    let refused := run (fun _ ↦ .error (.io "Connection refused")) restoring vars 2026
    let migration := run (fun _ ↦ .ok ()) ["migrate"] vars 2026
    Request.ofArguments restoring = .ok ⟨.restore ⟨1⟩ 2 ⟨3⟩, none⟩ ∧
    NeverHalfSucceeds (.restore ⟨1⟩ 2 ⟨3⟩) (restoration.conversation obliging ())
      (restoration.run obliging ()).1 ∧
    (restoration.run obliging ()).1.stdout = restoredLine ⟨1⟩ 2 3 ∧
    NeverHalfSucceeds (.restore ⟨1⟩ 2 ⟨3⟩) (restoration.conversation misdirecting ())
      (restoration.run misdirecting ()).1 ∧
    (restoration.run misdirecting ()).1.exit = 1 ∧
    NeverHalfSucceeds (.restore ⟨1⟩ 2 ⟨3⟩) (refused.conversation obliging ())
      (refused.run obliging ()).1 ∧
    (refused.run obliging ()).1.exit = 1 ∧
    Request.ofArguments ["migrate"] = .ok ⟨.migrate, none⟩ ∧
    NeverHalfSucceeds .migrate (migration.conversation obliging ())
      (migration.run obliging ()).1 ∧
    (migration.run obliging ()).1.stdout = migratedLine := by
  intro vars restoration refused migration
  have hrestore : Request.ofArguments restoring = .ok ⟨.restore ⟨1⟩ 2 ⟨3⟩, none⟩ := by
    decide +kernel
  have hmigrate : Request.ofArguments ["migrate"] = .ok ⟨.migrate, none⟩ := by decide +kernel
  refine ⟨hrestore, never_half_succeeds hrestore _ _ _ obliging (), ?_,
    never_half_succeeds hrestore _ _ _ misdirecting (), ?_,
    never_half_succeeds hrestore _ _ _ obliging (), ?_,
    hmigrate, never_half_succeeds hmigrate _ _ _ obliging (), ?_⟩
  · decide +kernel
  · decide +kernel
  · decide +kernel
  · decide +kernel

end Operator

end Pagesmith.Store
