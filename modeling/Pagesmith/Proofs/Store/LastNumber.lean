import Pagesmith.Proofs.Store.Writes
import Pagesmith.Store.Versioning

/-!
# Where the numbers end

A version is inserted under the number after the greatest one there is, and the table takes positive
numbers of 32 bits. For every greatest number but the last of these, the next one is positive and
greater. After `lastNumber` there is none: the addition overflows. No version is sent then, but the
call does not return an error either. It is over, and all that is still sent is the rollback of its
transaction.

What is said about numbers is therefore looked at together with what comes of it (`Numbered`), in
any call that writes a page: each time a greatest number is told, a version is sent right after it,
and at no other time, unless the number is the last one.
-/

namespace Pagesmith.Store

/-- Whether a table can hold `greatest` as its greatest version number: none, or any that a version
can have. -/
def IsTableMaximum (greatest : Option Int) : Prop := ∀ m ∈ greatest, 1 ≤ m ∧ m ≤ lastNumber

/-- Whether `n` is a number for the next version. -/
def Succeeds (greatest : Option Int) (n : Int) : Prop := 1 ≤ n ∧ ∀ m ∈ greatest, m < n

theorem succeeds_of_nextVersion {greatest : Option Int} {n : Int} (h : IsTableMaximum greatest)
    (hnext : nextVersion greatest = some n) : Succeeds greatest n := by
  obtain ⟨rfl, -⟩ := nextVersion_eq_some_iff.mp hnext
  cases greatest with
  | none => exact ⟨by decide, nofun⟩
  | some m =>
    have hm := (h m rfl).1
    refine ⟨by rw [Option.getD_some]; omega, ?_⟩
    rintro _ ⟨⟩
    rw [Option.getD_some]
    omega

/-- An insertion that fails is not the end of the numbers. -/
theorem StoreError.ofVersionInsert_ne_overflow {page : Uuid} {version : Int} {d : DbError} :
    StoreError.ofVersionInsert page version d ≠ .overflow := by
  rw [ofVersionInsert]
  split <;> simp

/-! ## What is said about numbers -/

/-- Whether a statement is about version numbers: it asks for the greatest one, or inserts a
version. -/
def Statement.isNumbering : Statement → Bool
  | selectGreatestVersion _ | insertVersion .. => true
  | _ => false

/-- What may be said about numbers, and what may come of it. -/
inductive Numbered {α : Type} : List Exchange → Except StoreError α → Prop
  | nil {r : Except StoreError α} (hr : r ≠ .error .overflow) : Numbered [] r
  | other {x : Exchange} {talk : List Exchange} {r : Except StoreError α}
    (hx : x.statement.isNumbering = false) (h : Numbered talk r) : Numbered (x :: talk) r
  | untold {page : Uuid} {asked : Except DbError (Answer (.selectGreatestVersion page))}
    {d : DbError} {talk : List Exchange} {r : Except StoreError α}
    (hasked : oneRow asked = .error d) (h : Numbered talk r) :
    Numbered (⟨.selectGreatestVersion page, asked⟩ :: talk) r
  /-- Right behind a greatest number a version is sent, under the next one. -/
  | told {page editor : Uuid} {n : Int} {blocks : List Block}
    {asked : Except DbError (Answer (.selectGreatestVersion page))} {greatest : Option Int}
    {answer : Except DbError (Answer (.insertVersion page n blocks editor))}
    {talk : List Exchange} {r : Except StoreError α} (hasked : oneRow asked = .ok greatest)
    (hnext : n = greatest.getD 0 + 1 ∧ n ≤ lastNumber)
    (hsucceeds : IsTableMaximum greatest → Succeeds greatest n) (h : Numbered talk r) :
    Numbered (⟨.selectGreatestVersion page, asked⟩ ::
      ⟨.insertVersion page n blocks editor, answer⟩ :: talk) r
  /-- Behind the last number there is nothing but rollbacks. -/
  | last {page : Uuid} {asked : Except DbError (Answer (.selectGreatestVersion page))}
    {greatest : Option Int} {talk : List Exchange} (hasked : oneRow asked = .ok greatest)
    (hlast : lastNumber ≤ greatest.getD 0) (hrest : ∀ y ∈ talk, y.statement = .rollback) :
    Numbered (⟨.selectGreatestVersion page, asked⟩ :: talk) (.error .overflow)

/-- Whether a greatest number is told that has no next one. -/
def Exchange.TellsLast (x : Exchange) : Prop :=
  ∃ page asked greatest, x = ⟨.selectGreatestVersion page, asked⟩ ∧ oneRow asked = .ok greatest ∧
    lastNumber ≤ greatest.getD 0

section

variable {α β : Type} {talk rest : List Exchange} {r : Except StoreError α}

/-- Where the addition has overflowed, some exchange `TellsLast`. -/
theorem Numbered.exists_tellsLast (h : Numbered talk r) (hr : r = .error .overflow) :
    ∃ x ∈ talk, x.TellsLast := by
  induction h with
  | nil hne => exact absurd hr hne
  | other hx h ih | untold hasked h ih =>
    obtain ⟨y, hy, hlast⟩ := ih hr
    exact ⟨y, .tail _ hy, hlast⟩
  | told hasked hnext hsucceeds h ih =>
    obtain ⟨y, hy, hlast⟩ := ih hr
    exact ⟨y, .tail _ (.tail _ hy), hlast⟩
  | last hasked hlast hall => exact ⟨_, .head _, _, _, _, rfl, hasked, hlast⟩

theorem numbered_of_forall (h : ∀ x ∈ talk, x.statement.isNumbering = false)
    (hr : r ≠ .error .overflow) : Numbered talk r := by
  induction talk with
  | nil => exact .nil hr
  | cons x talk ih =>
    obtain ⟨hx, htalk⟩ := List.forall_mem_cons.mp h
    exact .other hx (ih htalk)

theorem numbered_singleton {x : Exchange} (hx : x.statement.isNumbering = false)
    (hr : r ≠ .error .overflow) : Numbered [x] r :=
  .other hx (.nil hr)

/-- Where the numbers have not ended, more may be said. -/
theorem Numbered.append {q : Except StoreError β} (h : Numbered talk r)
    (hr : r ≠ .error .overflow) (hrest : Numbered rest q) : Numbered (talk ++ rest) q := by
  induction h with
  | nil _ => exact hrest
  | other hx h ih => exact .other hx (ih hr)
  | untold hasked h ih => exact .untold hasked (ih hr)
  | told hasked hnext hsucceeds h ih => exact .told hasked hnext hsucceeds (ih hr)
  | last hasked hlast hall => exact absurd rfl hr

/-- An error ends whatever comes after, and may be followed by its rollback. -/
theorem Numbered.append_rollbacks {e : StoreError} (h : Numbered talk (.error e : Except _ α))
    (hrest : ∀ y ∈ rest, y.statement = .rollback) :
    Numbered (talk ++ rest) (.error e : Except _ β) := by
  generalize hr : (.error e : Except StoreError α) = r at h
  induction h with
  | nil hne =>
    refine numbered_of_forall (fun y hy ↦ by rw [hrest y hy]; rfl) ?_
    rintro ⟨⟩
    exact hne hr.symm
  | other hx h ih => exact .other hx (ih hr)
  | untold hasked h ih => exact .untold hasked (ih hr)
  | told hasked hnext hsucceeds h ih => exact .told hasked hnext hsucceeds (ih hr)
  | last hasked hlast hall =>
    cases hr
    exact .last hasked hlast (List.forall_mem_append.mpr ⟨hall, hrest⟩)

theorem Numbered.error {e : StoreError} (h : Numbered talk (.error e : Except _ α)) :
    Numbered talk (.error e : Except _ β) := by
  rw [← List.append_nil talk]
  exact h.append_rollbacks (List.forall_mem_nil _)

theorem Numbered.map (h : Numbered talk r) (f : α → β) : Numbered talk (r.map f) := by
  cases r with
  | error e => exact h.error
  | ok a =>
    rw [← List.append_nil talk]
    exact h.append nofun (.nil nofun)

end

/-! ## Parts of calls -/

/-- Whether all that `x` can say about numbers is `Numbered`. -/
def CountsOn {α : Type} (x : Action α) : Prop := ∀ talk r, x.run.Yields talk r → Numbered talk r

namespace CountsOn

variable {α β : Type} {s : Statement}

theorem pure (a : α) : CountsOn (pure a : Action α) := by
  intro talk r h
  obtain ⟨rfl, rfl⟩ := yields_run_pure h
  exact .nil nofun

theorem throw {e : StoreError} (he : e ≠ .overflow) : CountsOn (throw e : Action α) := by
  intro talk r h
  obtain ⟨rfl, rfl⟩ := yields_run_throw h
  exact .nil fun heq ↦ he (Except.error.inj heq)

theorem bind {x : Action α} {f : α → Action β} (hx : CountsOn x) (hf : ∀ a, CountsOn (f a)) :
    CountsOn (x >>= f) := by
  intro talk r h
  obtain ⟨e, rfl, hyields⟩ | ⟨before, a, after, rfl, hbefore, hafter⟩ := yields_run_bind h
  · exact (hx _ _ hyields).error
  · exact (hx _ _ hbefore).append nofun (hf a _ _ hafter)

theorem map {x : Action α} (hx : CountsOn x) (f : α → β) : CountsOn (f <$> x) := by
  rw [← bind_pure_comp]
  exact hx.bind fun a ↦ pure (f a)

theorem of_query {q : Query α} {read : Except DbError (Answer s) → Except DbError α}
    (hq : Asks q s read) (hs : s.isNumbering = false) : CountsOn q.action := by
  intro talk r h
  obtain ⟨answer, rfl, rfl⟩ := hq.action _ _ h
  refine numbered_singleton hs fun heq ↦ ?_
  obtain ⟨d, -, hd⟩ := mapError_eq_error_iff.mp heq
  cases hd

theorem fetchOptional (hs : s.isNumbering = false) : CountsOn (fetchOptional s).action :=
  of_query asks_fetchOptional hs

theorem fetchOne (hs : s.isNumbering = false) : CountsOn (fetchOne s).action :=
  of_query asks_fetchOne hs

theorem transaction {body : Action (Ending α)} (h : CountsOn body)
    (habandon : ∀ talk e, body.run.Yields talk (.ok (.abandon e)) → e ≠ .overflow) :
    CountsOn (transaction body) := by
  intro talk r hyields
  cases yields_transaction hyields with
  | refused d => exact numbered_singleton rfl nofun
  | begun b hinner hclosing =>
    refine .other rfl ?_
    have hnumbered := h _ _ hinner
    cases hclosing with
    | left e answer => exact hnumbered.append_rollbacks (by simp)
    | abandoned e a =>
      refine hnumbered.append nofun (numbered_singleton rfl fun heq ↦ ?_)
      exact habandon _ _ hinner (Except.error.inj heq)
    | stuck e d answer => exact hnumbered.append nofun (.other rfl (numbered_singleton rfl nofun))
    | committed a c => exact hnumbered.append nofun (numbered_singleton rfl nofun)
    | lost a d answer => exact hnumbered.append nofun (.other rfl (numbered_singleton rfl nofun))

/-- What is tried again has met a conflict, so its numbers have not ended. -/
theorem of_rounds {attempt : Action α} (h : CountsOn attempt) {talks : List (List Exchange)}
    {r : Except StoreError α} (hrounds : Rounds attempt talks r) : Numbered talks.flatten r := by
  induction hrounds with
  | last hyields =>
    rw [List.flatten_singleton]
    exact h _ _ hyields
  | again hyields he hrest ih =>
    refine (h _ _ hyields).append ?_ ih
    rintro ⟨⟩
    cases he

theorem retrying {attempt : Action α} (h : CountsOn attempt) (maxAttempts : Nat) :
    CountsOn (Pages.retrying maxAttempts attempt) := by
  intro talk r hyields
  obtain ⟨talks, rfl, hrounds, -⟩ := rounds_of_retryFrom hyields
  exact h.of_rounds hrounds

/-! ## Calls -/

variable {page editor : Uuid} {blocks : List Block}

theorem snapshot : CountsOn (Versions.snapshot page blocks editor) := by
  intro talk r h
  cases Versions.yields_snapshot h with
  | unread hasked => exact .untold hasked (.nil nofun)
  | exhausted hasked hnext => exact .last hasked (nextVersion_eq_none_iff.mp hnext) (by simp)
  | unkept hasked hnext hinsert =>
    exact .told hasked (nextVersion_eq_some_iff.mp hnext)
      (fun hmaximum ↦ succeeds_of_nextVersion hmaximum hnext)
      (.nil fun h ↦ StoreError.ofVersionInsert_ne_overflow (Except.error.inj h))
  | kept hasked hnext hinsert =>
    exact .told hasked (nextVersion_eq_some_iff.mp hnext)
      (fun hmaximum ↦ succeeds_of_nextVersion hmaximum hnext) (.nil nofun)

theorem recordIfPresent : CountsOn (Versions.recordIfPresent page blocks editor) := by
  refine .bind (fetchOne rfl) fun there ↦ ?_
  cases there with
  | false => exact pure _
  | true => exact .bind snapshot fun v ↦ pure _

theorem updateBody : CountsOn (Pages.updateBody page blocks editor) := by
  refine .bind (fetchOptional rfl) fun row ↦ ?_
  cases row with
  | none => exact pure _
  | some current => exact .bind snapshot fun v ↦ .bind (fetchOne rfl) fun p ↦ pure _

theorem update (maxAttempts : Nat) : CountsOn (Pages.update maxAttempts page blocks editor) := by
  refine retrying (transaction updateBody ?_) maxAttempts
  intro talk e h
  cases Pages.yields_updateBody h with
  | missing hlock => exact nofun

theorem restore {version : Int} (maxAttempts : Nat) :
    CountsOn (Pages.restore maxAttempts page version editor) := by
  refine .bind (fetchOptional rfl) fun row ↦ ?_
  cases row with
  | none => exact throw nofun
  | some past => exact update maxAttempts

variable {tenant : Uuid} {slug title : String}

theorem lockOrCreate : CountsOn (Pages.lockOrCreate tenant slug title blocks) := by
  intro talk r h
  cases Pages.yields_lockOrCreate h <;>
    exact numbered_of_forall (by simp [Statement.isNumbering]) nofun

theorem saveBody : CountsOn (Pages.saveBody tenant slug title blocks editor) := by
  refine .bind lockOrCreate fun slot ↦ ?_
  cases slot with
  | created p => exact pure _
  | existing p => exact .bind recordIfPresent fun v ↦ .bind (fetchOne rfl) fun q ↦ pure _

theorem save (maxAttempts : Nat) :
    CountsOn (Pages.save maxAttempts tenant slug title blocks editor) := by
  refine retrying (transaction saveBody ?_) maxAttempts
  intro talk e h
  cases Pages.yields_saveBody h

theorem action (w : Write) (maxAttempts : Nat) : CountsOn (w.action maxAttempts) := by
  cases w with
  | update page blocks editor => exact (update maxAttempts).map _
  | save tenant slug title blocks editor => exact save maxAttempts
  | restore page version editor => exact (restore maxAttempts).map _

end CountsOn

/-- **The numbers of versions.** In a call that writes a page, a version is sent right behind each
greatest number that is told, under the next number, which is positive and greater for every number
that the table can hold but the last one. Where the last one is told, the call is over without an
error that it returns: no version is sent, and nothing else but the rollback. -/
theorem Write.numbers_succeed_unless_last (w : Write) (maxAttempts : Nat) {σ : Type}
    (peer : Program.Peer σ) (st : σ) :
    Numbered ((w.action maxAttempts).run.conversation peer st)
      ((w.action maxAttempts).run.run peer st).1 :=
  CountsOn.action w maxAttempts _ _ (Program.yields_conversation peer _ st)

/-- A database with a page whose greatest version number is `greatest`. -/
def counting (greatest : Option Int) : Program.Peer Unit := fun _ s ↦
  match s with
  | .lockPage page =>
    (.ok { rows := [.ok ⟨page, ⟨4⟩, "home", "Home", [], false, .null, .epoch, .epoch⟩] }, ())
  | .selectGreatestVersion _ => (.ok { rows := [.ok greatest] }, ())
  | _ => (.ok {}, ())

/-- Not every number that a table can hold has a next one, and where it has none, a call does not
end in an error that it returns. -/
theorem not_forall_number_succeeds :
    ¬∀ (w : Write) (greatest : Option Int), IsTableMaximum greatest →
      ∀ e, ((w.action 1).run.run (counting greatest) ()).1 = .error e → e.isPanic = false := by
  intro h
  have hlast : IsTableMaximum (some lastNumber) := by
    rintro _ ⟨⟩
    decide
  have hpanic := h (.update ⟨1⟩ [] ⟨3⟩) (some lastNumber) hlast .overflow rfl
  cases hpanic

end Pagesmith.Store
