import Pagesmith.Proofs.Store.Retrying
import Pagesmith.Proofs.Store.Transaction
import Pagesmith.Proofs.Store.Writes

/-!
# Conflicts

An attempt ends at its first failure. If this is the insertion of a version, refused because the
page has the version already, then the attempt has lost a race (`LosesRace`), and it ends in a
conflict about this page and this number. After any other failure it ends in the error as it came.
Only the first kind is tried again.

That a result is `Accounted` for by the first failure is shown for the parts of attempts, and kept
by putting them together. What a transaction adds is its rollback, and nobody looks at the errors of
that unless the transaction is abandoned.
-/

namespace Pagesmith.Store

/-! ## Failures -/

theorem DbError.isVersionConflict_iff {d : DbError} : d.isVersionConflict = true ↔
    ∃ message, d = .database message (some "23505") (some "page_versions_page_version_key") := by
  cases d <;> simp [isVersionConflict, uniqueViolation, versionConstraint]

/-- Whether a statement is answered with a row, so that without one it has failed. -/
def Statement.needsRow : Statement → Bool
  | pageExists _ | selectGreatestVersion _ => true
  | s => s.returnsRow

/-- Whether a statement inserts a version. -/
def Statement.insertsVersion : Statement → Bool
  | insertVersion .. => true
  | _ => false

theorem Statement.insertsVersion_of_isDelimiter {s : Statement} (h : s.isDelimiter = true) :
    s.insertsVersion = false := by
  cases s <;> first | rfl | cases h

def errorOf {α : Type} : Except DbError α → Option DbError
  | .ok _ => none
  | .error d => some d

namespace Exchange

/-- The error of a statement that has failed: it was refused, or not answered with a row that can be
read. -/
def error? (x : Exchange) : Option DbError :=
  if x.statement.isDelimiter then errorOf x.answer
  else if x.statement.needsRow then errorOf (oneRow x.answer)
  else errorOf (firstRow x.answer)

/-- Whether `x` inserts this version of `page` and is refused because the page has it. -/
def LosesRace (x : Exchange) (page : Uuid) (version : Int) : Prop :=
  (∃ blocks editor, x.statement = .insertVersion page version blocks editor) ∧
    ∃ message, x.error? =
      some (.database message (some "23505") (some "page_versions_page_version_key"))

theorem LosesRace.unique {x : Exchange} {page page' : Uuid} {version version' : Int}
    (h : x.LosesRace page version) (h' : x.LosesRace page' version') :
    page' = page ∧ version' = version := by
  obtain ⟨⟨blocks, editor, hs⟩, -⟩ := h
  obtain ⟨⟨blocks', editor', hs'⟩, -⟩ := h'
  cases hs.symm.trans hs'
  exact ⟨rfl, rfl⟩

end Exchange

/-- What is said from the first `error?` on. -/
def failing (talk : List Exchange) : List Exchange := talk.dropWhile fun x ↦ x.error?.isNone

theorem failing_append {front rest : List Exchange} (h : ∀ y ∈ front, y.error? = none) :
    failing (front ++ rest) = failing rest :=
  List.dropWhile_append_of_pos fun y hy ↦ by rw [h y hy]; rfl

theorem failing_cons {x : Exchange} {d : DbError} (h : x.error? = some d) (rest : List Exchange) :
    failing (x :: rest) = x :: rest :=
  List.dropWhile_cons_of_neg (by simp [h])

/-- What is asked of an attempt that says `t` and ends in `r`. -/
structure FailsAsTold {α : Type} (t : List Exchange) (r : Except StoreError α) : Prop where
  conflict : ∀ page version,
    r = .error (.versionConflict page version) ↔ ∃ x ∈ t, x.LosesRace page version
  /-- After a failure there is nothing but a rollback. -/
  stops : ∀ x after, failing t = x :: after → ∀ y ∈ after, y.statement = .rollback
  /-- Another error is returned as it came, but for that of the last rollback. -/
  other : ∀ x after d, failing t = x :: after → x.error? = some d →
    (∀ page version, ¬x.LosesRace page version) → (x.statement = .rollback → after ≠ []) →
    r = .error (.db d)

/-! ## Results that are accounted for -/

/-- Whether an error is that of the failed statement `x`. -/
inductive Blames (x : Exchange) : StoreError → Prop
  | race {page : Uuid} {version : Int} (h : x.LosesRace page version) :
    Blames x (.versionConflict page version)
  | other {d : DbError} (h : x.error? = some d)
    (hrace : ∀ page version, ¬x.LosesRace page version) : Blames x (.db d)

namespace Blames

variable {x : Exchange} {e : StoreError}

theorem exists_error (h : Blames x e) : ∃ d, x.error? = some d := by
  cases h with
  | race h => exact ⟨_, h.2.choose_spec⟩
  | other h _ => exact ⟨_, h⟩

theorem eq_versionConflict_iff (h : Blames x e) {page : Uuid} {version : Int} :
    e = .versionConflict page version ↔ x.LosesRace page version := by
  cases h with
  | race h =>
    constructor
    · rintro ⟨⟩
      exact h
    · intro h'
      obtain ⟨rfl, rfl⟩ := h.unique h'
      rfl
  | other h hrace => exact ⟨nofun, fun h' ↦ absurd h' (hrace page version)⟩

theorem eq_db (h : Blames x e) {d : DbError} (hd : x.error? = some d)
    (hrace : ∀ page version, ¬x.LosesRace page version) : e = .db d := by
  cases h with
  | race h => exact absurd h (hrace _ _)
  | other h _ => rw [Option.some.inj (h.symm.trans hd)]

end Blames

/-- Whether a result is accounted for: nothing has failed and there is no conflict, or the last
statement is the first that has failed, and it is to blame. -/
inductive Accounted {α : Type} : List Exchange → Except StoreError α → Prop
  | fine {talk : List Exchange} {r : Except StoreError α} (h : ∀ y ∈ talk, y.error? = none)
    (hr : ¬IsConflict r) : Accounted talk r
  | failed {front : List Exchange} {x : Exchange} {e : StoreError}
    (h : ∀ y ∈ front, y.error? = none) (hx : Blames x e) : Accounted (front ++ [x]) (.error e)

section

variable {α β : Type} {talk front after : List Exchange} {x : Exchange} {r : Except StoreError α}

theorem Accounted.append_left (h : Accounted talk r) (hfront : ∀ y ∈ front, y.error? = none) :
    Accounted (front ++ talk) r := by
  cases h with
  | fine h hr => exact .fine (List.forall_mem_append.mpr ⟨hfront, h⟩) hr
  | failed h hx =>
    rw [← List.append_assoc]
    exact .failed (List.forall_mem_append.mpr ⟨hfront, h⟩) hx

theorem Accounted.of_blames {e : StoreError} (h : Blames x e) :
    Accounted [x] (.error e : Except StoreError α) :=
  @Accounted.failed α [] x e (List.forall_mem_nil _) h

theorem Accounted.forall_of_ok {a : α} (h : Accounted talk (.ok a)) :
    ∀ y ∈ talk, y.error? = none := by
  cases h with
  | fine h _ => exact h

/-- Only the error counts, not the result there would have been. -/
theorem Accounted.error {e : StoreError} (h : Accounted talk (.error e : Except StoreError α)) :
    Accounted talk (.error e : Except StoreError β) := by
  cases h with
  | fine h hr =>
    rw [isConflict_error_iff] at hr
    exact .fine h (by rwa [isConflict_error_iff])
  | failed h hx => exact .failed h hx

theorem not_losesRace_of_insertsVersion (h : x.statement.insertsVersion = false) (page : Uuid)
    (version : Int) : ¬x.LosesRace page version := by
  rintro ⟨⟨blocks, editor, hs⟩, -⟩
  rw [hs] at h
  cases h

theorem not_losesRace_of_fine (h : x.error? = none) (page : Uuid) (version : Int) :
    ¬x.LosesRace page version :=
  fun ⟨_, _, herror⟩ ↦ nomatch h.symm.trans herror

/-- A result that is accounted for stays so after a rollback. -/
theorem Accounted.failsAsTold (h : Accounted talk r) (hafter : ∀ y ∈ after, y.statement = .rollback)
    (hone : after.length ≤ 1) : FailsAsTold (talk ++ after) r := by
  have hlater (page : Uuid) (version : Int) : ¬∃ y ∈ after, y.LosesRace page version :=
    fun ⟨y, hy, hrace⟩ ↦
      not_losesRace_of_insertsVersion (by rw [hafter y hy]; rfl) page version hrace
  cases h with
  | fine h hr =>
    have hfailing : failing (talk ++ after) <:+ after := by
      rw [failing_append h]
      exact List.dropWhile_suffix _
    refine ⟨fun page version ↦ ⟨?_, ?_⟩, fun y rest heq z hz ↦ ?_, fun y rest d heq _ _ hy ↦ ?_⟩
    · exact fun hr' ↦ absurd ⟨page, version, hr'⟩ hr
    · rintro ⟨y, hy, hrace⟩
      rcases List.mem_append.mp hy with hy | hy
      · exact absurd hrace (not_losesRace_of_fine (h y hy) page version)
      · exact absurd ⟨y, hy, hrace⟩ (hlater page version)
    · exact hafter z (hfailing.subset (heq ▸ List.mem_cons_of_mem y hz))
    · -- the failure could only be that of the last rollback
      rw [heq] at hfailing
      have hlength := hfailing.length_le
      rw [List.length_cons] at hlength
      have hrest : rest = [] := List.eq_nil_of_length_eq_zero (by omega)
      exact absurd hrest (hy (hafter y (hfailing.subset List.mem_cons_self)))
  | @failed front x e h hx =>
    obtain ⟨d, hd⟩ := hx.exists_error
    have hfailing : failing (front ++ [x] ++ after) = x :: after := by
      rw [List.append_assoc, failing_append h]
      exact failing_cons hd after
    refine ⟨fun page version ↦ ?_, fun y rest heq ↦ ?_, fun y rest d' heq hd' hrace _ ↦ ?_⟩
    · rw [Except.error.injEq, hx.eq_versionConflict_iff]
      refine ⟨fun hrace ↦ ⟨x, by simp, hrace⟩, ?_⟩
      rintro ⟨y, hy, hrace⟩
      rcases List.mem_append.mp hy with hy | hy
      · rcases List.mem_append.mp hy with hy | hy
        · exact absurd hrace (not_losesRace_of_fine (h y hy) page version)
        · rwa [← List.mem_singleton.mp hy]
      · exact absurd ⟨y, hy, hrace⟩ (hlater page version)
    · obtain ⟨rfl, rfl⟩ := List.cons.inj (hfailing.symm.trans heq)
      exact hafter
    · obtain ⟨rfl, rfl⟩ := List.cons.inj (hfailing.symm.trans heq)
      rw [hx.eq_db hd' hrace]

theorem Accounted.failsAsTold_self (h : Accounted talk r) : FailsAsTold talk r := by
  have htold := h.failsAsTold (List.forall_mem_nil _) (Nat.zero_le 1)
  rwa [List.append_nil] at htold

/-! ## Parts of attempts -/

/-- Whether all that `y` can come to is `Accounted` for. -/
def Accountable (y : Action α) : Prop := ∀ talk r, y.run.Yields talk r → Accounted talk r

namespace Accountable

variable {s : Statement}

theorem pure (a : α) : Accountable (pure a : Action α) := by
  intro talk r h
  obtain ⟨rfl, rfl⟩ := yields_run_pure h
  exact .fine (fun _ hy ↦ absurd hy List.not_mem_nil) (not_isConflict_ok a)

theorem throw {e : StoreError} (he : ¬e.isRetryable = true) :
    Accountable (throw e : Action α) := by
  intro talk r h
  obtain ⟨rfl, rfl⟩ := yields_run_throw h
  exact .fine (fun _ hy ↦ absurd hy List.not_mem_nil) (by rwa [isConflict_error_iff])

theorem bind {y : Action α} {f : α → Action β} (hy : Accountable y)
    (hf : ∀ a, Accountable (f a)) : Accountable (y >>= f) := by
  intro talk r h
  obtain ⟨e, rfl, h'⟩ | ⟨before, a, after, rfl, h', hafter⟩ := yields_run_bind h
  · exact (hy _ _ h').error
  · exact (hf a _ _ hafter).append_left (hy _ _ h').forall_of_ok

/-- A query that fails as its statement does is accounted for, unless it inserts a version. -/
theorem of_query {q : Query α} {read : Except DbError (Answer s) → Except DbError α}
    (hq : Asks q s read)
    (hs : s.insertsVersion = false)
    (hread : ∀ answer, Exchange.error? ⟨s, answer⟩ = errorOf (read answer)) :
    Accountable q.action := by
  intro talk r h
  obtain ⟨answer, rfl, rfl⟩ := hq.action _ _ h
  change Accounted _ ((read answer).mapError .db)
  have herror := hread answer
  cases hanswer : read answer with
  | ok a =>
    rw [hanswer] at herror
    exact .fine (List.forall_mem_singleton.mpr herror) (not_isConflict_ok a)
  | error d =>
    rw [hanswer] at herror
    exact .of_blames (.other herror (not_losesRace_of_insertsVersion hs))

theorem fetchOne (hs : s.isDelimiter = false) (hrow : s.needsRow = true)
    (hinsert : s.insertsVersion = false) :
    Accountable (fetchOne s).action :=
  of_query asks_fetchOne hinsert fun answer ↦ by simp [Exchange.error?, hs, hrow]

theorem fetchOptional (hs : s.isDelimiter = false) (hrow : s.needsRow = false)
    (hinsert : s.insertsVersion = false) :
    Accountable (fetchOptional s).action :=
  of_query asks_fetchOptional hinsert fun answer ↦ by simp [Exchange.error?, hs, hrow]

theorem insertVersion (page : Uuid) (version : Int) (blocks : List Block) (editor : Uuid) :
    Accountable ((Store.fetchOne (.insertVersion page version blocks editor)).adapt
      (StoreError.ofVersionInsert page version)) := by
  intro talk r h
  obtain ⟨answer, rfl, rfl⟩ := asks_fetchOne.adapt _ _ _ h
  change Accounted _ ((oneRow answer).mapError _)
  have herror : Exchange.error? ⟨.insertVersion page version blocks editor, answer⟩ =
      errorOf (oneRow answer) := rfl
  cases hanswer : oneRow answer with
  | ok v =>
    rw [hanswer] at herror
    exact .fine (List.forall_mem_singleton.mpr herror) (not_isConflict_ok v)
  | error d =>
    rw [hanswer] at herror
    refine .of_blames ?_
    rw [StoreError.ofVersionInsert]
    by_cases hconflict : d.isVersionConflict = true
    · obtain ⟨message, rfl⟩ := DbError.isVersionConflict_iff.mp hconflict
      exact .race ⟨⟨blocks, editor, rfl⟩, message, herror⟩
    · rw [if_neg hconflict]
      refine .other herror fun page' version' hrace ↦ hconflict ?_
      obtain ⟨-, message, hmessage⟩ := hrace
      have hd := Option.some.inj (herror.symm.trans hmessage)
      exact DbError.isVersionConflict_iff.mpr ⟨message, hd⟩

variable {page : Uuid} {blocks : List Block} {editor : Uuid}

theorem insert (version : Option Int) :
    Accountable (Versions.insert page blocks editor version) := by
  cases version with
  | none => exact .throw Bool.false_ne_true
  | some version => exact .insertVersion page version blocks editor

theorem snapshot : Accountable (Versions.snapshot page blocks editor) :=
  .bind (.fetchOne rfl rfl rfl) fun _ ↦ .insert _

theorem recordIfPresent : Accountable (Versions.recordIfPresent page blocks editor) := by
  refine .bind (.fetchOne rfl rfl rfl) fun there ↦ ?_
  cases there with
  | false => exact .pure none
  | true => exact .bind snapshot fun v ↦ .pure (some v)

theorem updateBody : Accountable (Pages.updateBody page blocks editor) := by
  refine .bind (.fetchOptional rfl rfl rfl) fun row ↦ ?_
  cases row with
  | none => exact .pure _
  | some current =>
    exact .bind snapshot fun v ↦ .bind (.fetchOne rfl rfl rfl) fun p ↦ .pure _

variable {tenant : Uuid} {slug title : String}

theorem lockOrCreate : Accountable (Pages.lockOrCreate tenant slug title blocks) := by
  have hlock : Accountable (Store.fetchOptional (.lockPageBySlug tenant slug)).action :=
    .fetchOptional rfl rfl rfl
  refine .bind hlock fun row ↦ ?_
  cases row with
  | some p => exact .pure _
  | none =>
    refine .bind (.fetchOptional rfl rfl rfl) fun row ↦ ?_
    cases row with
    | some p => exact .pure _
    | none =>
      refine .bind hlock fun row ↦ ?_
      cases row with
      | some p => exact .pure _
      | none => exact .throw Bool.false_ne_true

theorem saveBody : Accountable (Pages.saveBody tenant slug title blocks editor) := by
  refine .bind lockOrCreate fun slot ↦ ?_
  cases slot with
  | created p => exact .pure _
  | existing p =>
    exact .bind recordIfPresent fun v ↦ .bind (.fetchOne rfl rfl rfl) fun q ↦ .pure _

end Accountable

/-! ## Attempts -/

/-- What is asked of the body of an attempt: every failure in it is told apart, and it is abandoned
for no conflict. -/
structure Classifies (body : Action (Ending α)) : Prop where
  careful : Careful body
  accountable : Accountable body
  abandons : ∀ talk e, body.run.Yields talk (.ok (.abandon e)) → ¬e.isRetryable = true

theorem classifies_updateBody {page : Uuid} {blocks : List Block} {editor : Uuid} :
    Classifies (Pages.updateBody page blocks editor) where
  careful := Pages.careful_updateBody
  accountable := .updateBody
  abandons _ _ h := by
    cases Pages.yields_updateBody h
    exact Bool.false_ne_true

theorem classifies_saveBody {tenant : Uuid} {slug title : String} {blocks : List Block}
    {editor : Uuid} : Classifies (Pages.saveBody tenant slug title blocks editor) where
  careful := Pages.careful_saveBody
  accountable := .saveBody
  abandons _ _ h := nomatch Pages.yields_saveBody h

/-- What fails in a transaction is part of its body, or one of the statements around it. -/
theorem failsAsTold_transaction {body : Action (Ending α)} (hbody : Classifies body)
    (h : (transaction body).run.Yields talk r) : FailsAsTold talk r := by
  have hrollback (answer) : ∀ y ∈ [(⟨.rollback, answer⟩ : Exchange)], y.statement = .rollback :=
    List.forall_mem_singleton.mpr rfl
  have hrefused {front : List Exchange} (hfront : ∀ y ∈ front, y.error? = none) {s : Statement}
      {d : DbError} (hs : s.isDelimiter = true) :
      Accounted (front ++ [⟨s, .error d⟩]) (.error (.db d) : Except StoreError α) := by
    refine .failed hfront (.other (by simp [Exchange.error?, hs, errorOf]) ?_)
    exact not_losesRace_of_insertsVersion (Statement.insertsVersion_of_isDelimiter hs)
  cases yields_transaction h with
  | refused d =>
    exact (@hrefused [] (List.forall_mem_nil _) .begin d rfl).failsAsTold_self
  | @begun b inner closing ending _ hinner hclosing =>
    have hbegin : ∀ y ∈ [(⟨.begin, .ok b⟩ : Exchange)], y.error? = none :=
      List.forall_mem_singleton.mpr rfl
    have hsaid := (hbody.accountable _ _ hinner).append_left hbegin
    change FailsAsTold ([⟨.begin, .ok b⟩] ++ inner ++ closing) r
    cases hclosing with
    | left e answer => exact hsaid.error.failsAsTold (hrollback answer) le_rfl
    | abandoned e a =>
      refine Accounted.failsAsTold (.fine hsaid.forall_of_ok ?_) (hrollback _) le_rfl
      rw [isConflict_error_iff]
      exact hbody.abandons _ e hinner
    | stuck e d answer =>
      rw [List.append_cons]
      exact (hrefused hsaid.forall_of_ok rfl).failsAsTold (hrollback answer) le_rfl
    | committed a c =>
      have hcommit : ∀ y ∈ [(⟨.commit, .ok c⟩ : Exchange)], y.error? = none :=
        List.forall_mem_singleton.mpr rfl
      have hall := List.forall_mem_append.mpr ⟨hsaid.forall_of_ok, hcommit⟩
      exact (Accounted.fine hall (not_isConflict_ok a)).failsAsTold_self
    | lost a d answer =>
      rw [List.append_cons]
      exact (hrefused hsaid.forall_of_ok rfl).failsAsTold (hrollback answer) le_rfl

/-! ## Calls -/

/-- What is asked of a call that is tried again: all it says is said in attempts, at most `limit` of
them. Those before the last have lost a race, and the last has lost one only if no other was
allowed. Its result is returned. -/
structure RetriesLostRaces (limit : Nat) (talk : List Exchange) (r : Except StoreError α) :
    Prop where
  unled : lead talk = []
  tried : ∃ front t, attempts talk = front ++ [t] ∧ front.length + 1 ≤ limit ∧
    (∀ s ∈ front, ∃ page version,
      FailsAsTold s (.error (.versionConflict page version) : Except StoreError α)) ∧
    FailsAsTold t r ∧ (IsConflict r → front.length + 1 = limit)

theorem retriesLostRaces_retrying {body : Action (Ending α)} (hbody : Classifies body)
    {maxAttempts : Nat} (h : (Pages.retrying maxAttempts (transaction body)).run.Yields talk r) :
    RetriesLostRaces (max maxAttempts 1) talk r := by
  obtain ⟨talks, hcut, hrounds, hle, hfewer⟩ :=
    @cutAtBegin_of_retrying _ _ _ _ [] maxAttempts hbody.careful (List.forall_mem_nil _) h
  rw [List.nil_append] at hcut
  obtain ⟨front, t, rfl, hlast, hfront⟩ := hrounds.exists_last
  rw [List.length_append, List.length_singleton] at hle hfewer
  refine ⟨by rw [lead, hcut], front, t, by rw [attempts, hcut], hle, fun s hs ↦ ?_,
    failsAsTold_transaction hbody hlast, ?_⟩
  · obtain ⟨e, hyields, he⟩ := hfront s hs
    rw [← isConflict_error_iff (α := α)] at he
    obtain ⟨page, version, ⟨⟩⟩ := he
    exact ⟨page, version, failsAsTold_transaction hbody hyields⟩
  · rintro ⟨page, version, rfl⟩
    refine Nat.le_antisymm hle (Nat.le_of_not_lt fun hlt ↦ ?_)
    exact hfewer hlt _ rfl rfl

end

/-- Whether `P` holds of what `y` says and of its result, whatever the database answers. -/
def OnEveryRun {α : Type} (y : Action α) (P : List Exchange → Except StoreError α → Prop) : Prop :=
  ∀ (σ : Type) (peer : Program.Peer σ) (st : σ),
    P (y.run.conversation peer st) (y.run.run peer st).1

/-- **Only lost races are retried.** Whatever the outcomes of its attempts, an operation is tried up
to the first one that is no conflict, or as often as allowed, with numbers that the machine can
hold. In updates and saves, an attempt ends in a conflict if and only if the insertion of a version
has lost a race, and any other failure is returned at once. -/
theorem retries_lost_races_only (maxAttempts : Nat) :
    (∀ (α : Type) (outcome : Nat → Except StoreError α),
      ∃ k, Retry.StopsAt (max maxAttempts 1) outcome k ∧
        (∀ log, (retryOnConflict maxAttempts Retry.recordedPause (Retry.recorded outcome)).run log =
          (outcome k, log ++ Retry.events 1 (k - 1))) ∧
        (maxAttempts < 2 ^ 32 → ∀ e ∈ Retry.events 1 (k - 1), e.Fits)) ∧
    (∀ page blocks editor,
      OnEveryRun (Pages.tryUpdate page blocks editor) FailsAsTold ∧
      OnEveryRun (Pages.update maxAttempts page blocks editor)
        (RetriesLostRaces (max maxAttempts 1))) ∧
    ∀ tenant slug title blocks editor,
      OnEveryRun (Pages.trySave tenant slug title blocks editor) FailsAsTold ∧
      OnEveryRun (Pages.save maxAttempts tenant slug title blocks editor)
        (RetriesLostRaces (max maxAttempts 1)) := by
  refine ⟨fun α outcome ↦ ?_, fun page blocks editor ↦ ⟨?_, ?_⟩,
    fun tenant slug title blocks editor ↦ ⟨?_, ?_⟩⟩
  · obtain ⟨k, hstops, hrun⟩ := Retry.run_retryOnConflict maxAttempts outcome
    exact ⟨k, hstops, hrun, fun hmax _ ↦ hstops.fits hmax⟩
  all_goals intro σ peer st
  · exact failsAsTold_transaction classifies_updateBody (Program.yields_conversation peer _ st)
  · exact retriesLostRaces_retrying classifies_updateBody (Program.yields_conversation peer _ st)
  · exact failsAsTold_transaction classifies_saveBody (Program.yields_conversation peer _ st)
  · exact retriesLostRaces_retrying classifies_saveBody (Program.yields_conversation peer _ st)

/-- A database in which another writer is always faster. -/
def overtaking : Program.Peer Unit := fun _ s ↦
  match s with
  | .lockPage page =>
    (.ok { rows := [.ok ⟨page, ⟨4⟩, "home", "Home", [], false, .null, .epoch, .epoch⟩] }, ())
  | .selectGreatestVersion _ => (.ok { rows := [.ok none] }, ())
  | .insertVersion .. =>
    (.error (.database "duplicate key" (some "23505") (some "page_versions_page_version_key")), ())
  | _ => (.ok {}, ())

/-- Two conflicts before a success, and conflicts until no attempt is left. -/
theorem retries_lost_races_only_of_overtaking :
    let outcome (n : Nat) : Except StoreError Nat :=
      if n < 3 then .error (.versionConflict ⟨1⟩ n) else .ok n
    5 < 2 ^ 32 ∧
    (∃ k, Retry.StopsAt 5 outcome k ∧ k = 3 ∧
      (retryOnConflict 5 Retry.recordedPause (Retry.recorded outcome)).run [] =
        (.ok 3, [.attempt 1, .pause 5, .attempt 2, .pause 10, .attempt 3]) ∧
      ∀ e ∈ Retry.events 1 (k - 1), e.Fits) ∧
    (attempts ((Pages.update 2 ⟨1⟩ [] ⟨3⟩).run.conversation overtaking ())).length = 2 := by
  intro outcome
  obtain ⟨hloop, -⟩ := retries_lost_races_only 5
  obtain ⟨-, hupdate, -⟩ := retries_lost_races_only 2
  refine ⟨by decide, ?_, ?_⟩
  · obtain ⟨k, hstops, hrun, hfits⟩ := hloop Nat outcome
    have hk : k = 3 := by
      obtain ⟨hpos, hle, hbefore, hstop⟩ := hstops
      have hafter : ¬3 < k := fun hlt ↦ nomatch hbefore 3 (by decide) hlt
      have hconflict : k < 3 → IsConflict (outcome k) := fun hlt ↦ ⟨⟨1⟩, k, if_pos hlt⟩
      by_contra hne
      rcases hstop with rfl | hstop
      · exact hafter (by decide)
      · exact hstop (hconflict (by omega))
    subst hk
    exact ⟨3, hstops, rfl, hrun [], hfits (by decide)⟩
  · have hretries := (hupdate ⟨1⟩ [] ⟨3⟩).2 Unit overtaking ()
    obtain ⟨front, t, hattempts, -, -, -, hlimit⟩ := hretries.tried
    rw [hattempts, List.length_append]
    exact hlimit ⟨⟨1⟩, 1, rfl⟩

end Pagesmith.Store
