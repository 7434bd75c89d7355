import Pagesmith.Proofs.Store.Conversation
import Pagesmith.Store.Pages

/-!
# Transactions and attempts

A transaction begins, says what its body says, and closes. How it closes depends on how the body
ends, and `Closing` lists the five ways. What the body may be is left open but for one thing: its
parts must be *careful*. They send no delimiter, they succeed only if all they have sent was
answered, and they never fail because something is not there. A body that is put together from
careful parts is careful, so nothing more is asked of any body than to name its parts.
-/

namespace Pagesmith.Store

/-! ## Kinds of statements -/

namespace Statement

/-- Whether a statement inserts or updates rows. -/
def isWrite : Statement → Bool
  | insertPage .. | insertPageIfAbsent .. | insertVersion .. | insertTheme .. | upsertType _
  | updateBlocks .. | updateBlocksAndTitle .. | updatePublished .. | updateEnabled ..
  | deactivateOthers .. | activateTheme _ => true
  | _ => false

/-- Whether a statement inserts or updates one row that must come back. -/
def returnsRow : Statement → Bool
  | insertPage .. | insertVersion .. | insertTheme .. | upsertType _ | updateBlocks ..
  | updateBlocksAndTitle .. | activateTheme _ => true
  | _ => false

end Statement

theorem eq_of_isDelimiter {s : Statement} (h : s.isDelimiter = true) :
    s = .begin ∨ s = .commit ∨ s = .rollback := by
  cases s with
  | begin => exact .inl rfl
  | commit => exact .inr (.inl rfl)
  | rollback => exact .inr (.inr rfl)
  | _ => cases h

/-- Whether a statement was answered as it must be: without an error, and with a row if one must
come back. -/
def Exchange.Answered (x : Exchange) : Prop :=
  x.Acknowledged ∧ (x.statement.returnsRow = true → ∃ row, firstRow x.answer = .ok (some row))

/-- Whether the reason of a failure is that something is not there. -/
def StoreError.IsNotFound : StoreError → Prop
  | pageNotFound _ | versionNotFound .. | themeNotFound _ => True
  | _ => False

/-! ## Parts of transactions -/

/-- What is asked of the parts of a transaction. -/
structure Careful {α : Type} (x : Action α) : Prop where
  /-- Transactions are not delimited in parts of transactions. -/
  inside : ∀ {talk r}, x.run.Yields talk r → ∀ y ∈ talk, y.statement.isDelimiter = false
  answered : ∀ {talk a}, x.run.Yields talk (.ok a) → ∀ y ∈ talk, y.Answered
  found : ∀ {talk e}, x.run.Yields talk (.error e) → ¬e.IsNotFound

namespace Careful

variable {α β : Type} {s : Statement}

theorem pure (a : α) : Careful (pure a : Action α) where
  inside h := by
    rw [(yields_run_pure h).1]
    exact fun _ hy ↦ absurd hy List.not_mem_nil
  answered h := by
    rw [(yields_run_pure h).1]
    exact fun _ hy ↦ absurd hy List.not_mem_nil
  found h := nomatch (yields_run_pure h).2

theorem throw {e : StoreError} (he : ¬e.IsNotFound) : Careful (throw e : Action α) where
  inside h := by
    rw [(yields_run_throw h).1]
    exact fun _ hy ↦ absurd hy List.not_mem_nil
  answered h := nomatch (yields_run_throw h).2
  found h := by
    cases (yields_run_throw h).2
    exact he

theorem bind {x : Action α} {f : α → Action β} (hx : Careful x) (hf : ∀ a, Careful (f a)) :
    Careful (x >>= f) where
  inside h := by
    obtain ⟨e, rfl, h'⟩ | ⟨before, a, after, rfl, h', hafter⟩ := yields_run_bind h
    · exact hx.inside h'
    · intro y hy
      rcases List.mem_append.mp hy with hy | hy
      · exact hx.inside h' y hy
      · exact (hf a).inside hafter y hy
  answered h := by
    obtain ⟨e, he, -⟩ | ⟨before, a, after, rfl, h', hafter⟩ := yields_run_bind h
    · cases he
    · intro y hy
      rcases List.mem_append.mp hy with hy | hy
      · exact hx.answered h' y hy
      · exact (hf a).answered hafter y hy
  found h := by
    obtain ⟨e, he, h'⟩ | ⟨before, a, after, rfl, h', hafter⟩ := yields_run_bind h
    · cases he
      exact hx.found h'
    · exact (hf a).found hafter

theorem map {x : Action α} (hx : Careful x) (f : α → β) : Careful (f <$> x) := by
  rw [← bind_pure_comp]
  exact hx.bind fun a ↦ pure (f a)

/-- A program of one statement is `Careful` if its result tells whether the statement was answered
as it must be. -/
theorem of_asks {x : Action α} {read : Except DbError (Answer s) → Except StoreError α}
    (hx : Asks x s read) (hs : s.isDelimiter = false)
    (hok : ∀ answer a, read answer = .ok a → Exchange.Answered ⟨s, answer⟩)
    (herror : ∀ answer e, read answer = .error e → ¬e.IsNotFound) : Careful x where
  inside h := by
    obtain ⟨answer, rfl, -⟩ := hx _ _ h
    intro y hy
    rw [List.mem_singleton.mp hy]
    exact hs
  answered h := by
    obtain ⟨answer, rfl, hread⟩ := hx _ _ h
    intro y hy
    rw [List.mem_singleton.mp hy]
    exact hok answer _ hread.symm
  found h := by
    obtain ⟨answer, rfl, hread⟩ := hx _ _ h
    exact herror answer _ hread.symm

/-- A query is careful under the same condition, since its errors are those of the database. -/
theorem of_query {q : Query α} {read : Except DbError (Answer s) → Except DbError α}
    (hq : Asks q s read) (hs : s.isDelimiter = false)
    (hok : ∀ answer a, read answer = .ok a → Exchange.Answered ⟨s, answer⟩) : Careful q.action := by
  refine of_asks hq.action hs ?_ ?_
  · intro answer a h
    exact hok answer a (mapError_eq_ok_iff.mp h)
  · intro answer e h
    obtain ⟨d, -, rfl⟩ := mapError_eq_error_iff.mp h
    exact id

theorem fetchOne (hs : s.isDelimiter = false) : Careful (fetchOne s).action := by
  refine of_query asks_fetchOne hs ?_
  intro answer row h
  have hrow := oneRow_eq_ok_iff.mp h
  exact ⟨acknowledged_of_firstRow hrow, fun _ ↦ ⟨row, hrow⟩⟩

theorem fetchOptional (hs : s.isDelimiter = false) (hr : s.returnsRow = false) :
    Careful (fetchOptional s).action := by
  refine of_query asks_fetchOptional hs ?_
  intro answer row h
  exact ⟨acknowledged_of_firstRow h, fun hr' ↦ absurd (hr.symm.trans hr') Bool.false_ne_true⟩

theorem fetchAll (hs : s.isDelimiter = false) (hr : s.returnsRow = false) :
    Careful (fetchAll s).action := by
  refine of_query asks_fetchAll hs ?_
  rintro (e | a) rows h
  · cases h
  · exact ⟨⟨a, rfl⟩, fun hr' ↦ absurd (hr.symm.trans hr') Bool.false_ne_true⟩

theorem execute (hs : s.isDelimiter = false) (hr : s.returnsRow = false) :
    Careful (execute s).action := by
  refine of_query asks_execute hs ?_
  rintro (e | a) n h
  · cases h
  · exact ⟨⟨a, rfl⟩, fun hr' ↦ absurd (hr.symm.trans hr') Bool.false_ne_true⟩

end Careful

/-! ## How transactions close -/

section

variable {α : Type}

/-- What a transaction says after its body has ended like this, and its result. -/
inductive Closing : Except StoreError (Ending α) → List Exchange → Except StoreError α → Prop
  /-- The body has failed. -/
  | left (e : StoreError) (answer) : Closing (.error e) [⟨.rollback, answer⟩] (.error e)
  | abandoned (e : StoreError) (a) : Closing (.ok (.abandon e)) [⟨.rollback, .ok a⟩] (.error e)
  | stuck (e : StoreError) (d : DbError) (answer) :
    Closing (.ok (.abandon e)) [⟨.rollback, .error d⟩, ⟨.rollback, answer⟩] (.error (.db d))
  | committed (a : α) (c) : Closing (.ok (.complete a)) [⟨.commit, .ok c⟩] (.ok a)
  | lost (a : α) (d : DbError) (answer) :
    Closing (.ok (.complete a)) [⟨.commit, .error d⟩, ⟨.rollback, answer⟩] (.error (.db d))

/-- Where nothing is refused at its end, a completed transaction has succeeded. -/
theorem Closing.eq_ok_of_acknowledged {a : α} {closing : List Exchange} {r : Except StoreError α}
    (h : Closing (.ok (.complete a)) closing r) (hall : ∀ y ∈ closing, y.Acknowledged) :
    r = .ok a := by
  cases h with
  | committed a c => rfl
  | lost a d answer =>
    obtain ⟨_, ⟨⟩⟩ := hall _ List.mem_cons_self

/-- Where nothing is refused at its end, a transaction is abandoned for the reason it gives. -/
theorem Closing.eq_error_of_acknowledged {e : StoreError} {closing : List Exchange}
    {r : Except StoreError α} (h : Closing (.ok (.abandon e)) closing r)
    (hall : ∀ y ∈ closing, y.Acknowledged) : r = .error e := by
  cases h with
  | abandoned e a => rfl
  | stuck e d answer =>
    obtain ⟨_, ⟨⟩⟩ := hall _ List.mem_cons_self

/-- What is said in a transaction with this `body`, and its result. -/
inductive TransactionYields (body : Action (Ending α)) :
    List Exchange → Except StoreError α → Prop
  | refused (d : DbError) : TransactionYields body [⟨.begin, .error d⟩] (.error (.db d))
  | begun (b) {inner closing : List Exchange} {ending : Except StoreError (Ending α)}
    {r : Except StoreError α} (hbody : body.run.Yields inner ending)
    (hclosing : Closing ending closing r) :
    TransactionYields body (⟨.begin, .ok b⟩ :: (inner ++ closing)) r

theorem yields_leave {e : StoreError} {talk : List Exchange} {r : Except StoreError α}
    (h : (leave e : Program (Except StoreError α)).Yields talk r) :
    ∃ answer, talk = [⟨.rollback, answer⟩] ∧ r = .error e := by
  obtain ⟨before, answer, after, rfl, hsend, hafter⟩ := Program.yields_bind h
  obtain ⟨rfl, rfl⟩ := Program.yields_pure hafter
  exact ⟨answer, by rw [Program.yields_send hsend]; rfl, rfl⟩

theorem yields_transaction {body : Action (Ending α)} {talk : List Exchange}
    {r : Except StoreError α} (h : (transaction body).run.Yields talk r) :
    TransactionYields body talk r := by
  obtain ⟨before, b, after, rfl, hbegin, h⟩ := Program.yields_bind h
  rw [Program.yields_send hbegin]
  cases b with
  | error d =>
    obtain ⟨rfl, rfl⟩ := Program.yields_pure h
    exact .refused d
  | ok b =>
    obtain ⟨inner, ending, closing, rfl, hbody, h⟩ := Program.yields_bind h
    change TransactionYields body (⟨.begin, .ok b⟩ :: (inner ++ closing)) r
    refine .begun b hbody ?_
    -- a body may fail, come to its end, or abandon the transaction
    rcases ending with e | a | e
    · obtain ⟨answer, rfl, rfl⟩ := yields_leave h
      exact .left e answer
    · obtain ⟨sent, c, after, rfl, hsend, h⟩ := Program.yields_bind h
      rw [Program.yields_send hsend]
      rcases c with d | c
      · obtain ⟨answer, rfl, rfl⟩ := yields_leave h
        exact .lost a d answer
      · obtain ⟨rfl, rfl⟩ := Program.yields_pure h
        exact .committed a c
    · obtain ⟨sent, c, after, rfl, hsend, h⟩ := Program.yields_bind h
      rw [Program.yields_send hsend]
      rcases c with d | c
      · obtain ⟨answer, rfl, rfl⟩ := yields_leave h
        exact .stuck e d answer
      · obtain ⟨rfl, rfl⟩ := Program.yields_pure h
        exact .abandoned e c

end

/-! ## Attempts

A write that is tried again consists of attempts, and each attempt is a transaction of its own. So
the attempts can be read off a conversation without knowing the program: a new one begins with every
`BEGIN`, and what is said before the first one belongs to none. The main statement is that the
attempts found this way are the rounds of the retry loop, each with the result that made the loop go
on or end. -/

/-! ### Reading attempts off a conversation -/

/-- A conversation before its first attempt, and its attempts. -/
def cutAtBegin : List Exchange → List Exchange × List (List Exchange)
  | [] => ([], [])
  | x :: talk =>
    let (lead, attempts) := cutAtBegin talk
    if x.statement = .begin then ([], (x :: lead) :: attempts) else (x :: lead, attempts)

def lead (talk : List Exchange) : List Exchange := (cutAtBegin talk).1

/-- What is said from each `BEGIN` up to the next one. -/
def attempts (talk : List Exchange) : List (List Exchange) := (cutAtBegin talk).2

/-- Whether a conversation is that of one attempt. -/
def IsAttempt (talk : List Exchange) : Prop :=
  ∃ x rest, talk = x :: rest ∧ x.statement = .begin ∧ ∀ y ∈ rest, y.statement ≠ .begin

theorem cutAtBegin_append {front : List Exchange} (h : ∀ x ∈ front, x.statement ≠ .begin)
    (talk : List Exchange) : cutAtBegin (front ++ talk) = (front ++ lead talk, attempts talk) := by
  induction front with
  | nil => rfl
  | cons x front ih =>
    obtain ⟨hx, hfront⟩ := List.forall_mem_cons.mp h
    rw [List.cons_append, cutAtBegin, ih hfront]
    exact if_neg hx

theorem cutAtBegin_flatten {talks : List (List Exchange)} (h : ∀ t ∈ talks, IsAttempt t) :
    cutAtBegin talks.flatten = ([], talks) := by
  induction talks with
  | nil => rfl
  | cons t talks ih =>
    obtain ⟨⟨x, rest, rfl, hx, hrest⟩, htalks⟩ := List.forall_mem_cons.mp h
    rw [List.flatten_cons, List.cons_append, cutAtBegin, cutAtBegin_append hrest, lead, attempts,
      ih htalks, List.append_nil]
    exact if_pos hx

/-- The attempts of a conversation are those it is put together from. -/
theorem cutAtBegin_append_flatten {front : List Exchange} {talks : List (List Exchange)}
    (hfront : ∀ x ∈ front, x.statement ≠ .begin) (h : ∀ t ∈ talks, IsAttempt t) :
    cutAtBegin (front ++ talks.flatten) = (front, talks) := by
  rw [cutAtBegin_append hfront, lead, attempts, cutAtBegin_flatten h, List.append_nil]

/-- Without a `BEGIN` there is no attempt. -/
theorem cutAtBegin_of_forall {talk : List Exchange} (h : ∀ x ∈ talk, x.statement ≠ .begin) :
    cutAtBegin talk = (talk, []) := by
  have hcut := cutAtBegin_append h []
  rwa [lead, cutAtBegin, List.append_nil] at hcut

theorem cutAtBegin_cons (x : Exchange) (talk : List Exchange) :
    cutAtBegin (x :: talk) =
      if x.statement = .begin then ([], (x :: lead talk) :: attempts talk)
      else (x :: lead talk, attempts talk) := rfl

/-- Nothing is lost by cutting. -/
theorem lead_append_flatten_attempts (talk : List Exchange) :
    lead talk ++ (attempts talk).flatten = talk := by
  induction talk with
  | nil => rfl
  | cons x talk ih =>
    rw [lead, attempts, cutAtBegin_cons]
    by_cases hx : x.statement = .begin
    · rw [if_pos hx, List.flatten_cons, List.nil_append, List.cons_append, ih]
    · rw [if_neg hx, List.cons_append, ih]

/-! ### The rounds of a retry loop -/

/-- What is said in each round of `op` when it is tried again after conflicts, and the result of the
last round. -/
inductive Rounds {α : Type} (op : Action α) : List (List Exchange) → Except StoreError α → Prop
  | last {talk : List Exchange} {r : Except StoreError α} (h : op.run.Yields talk r) :
    Rounds op [talk] r
  | again {talk : List Exchange} {talks : List (List Exchange)} {e : StoreError}
    {r : Except StoreError α} (h : op.run.Yields talk (.error e)) (he : e.isRetryable = true)
    (hrest : Rounds op talks r) : Rounds op (talk :: talks) r

section

variable {α : Type} {op : Action α} {talk : List Exchange} {talks : List (List Exchange)}
  {r : Except StoreError α}

/-- There are no more rounds than allowed, and fewer only if the last one has met no conflict. -/
theorem rounds_of_retryFrom {left attempt : Nat}
    (h : (retryFrom (fun _ ↦ pure ()) (fun _ ↦ op.run) left attempt).Yields talk r) :
    ∃ talks, talk = talks.flatten ∧ Rounds op talks r ∧ talks.length ≤ left + 1 ∧
      (talks.length ≤ left → ∀ e, r = .error e → ¬e.isRetryable = true) := by
  induction left generalizing attempt talk with
  | zero => exact ⟨[talk], List.flatten_singleton.symm, .last h, Nat.le_refl 1, nofun⟩
  | succ left ih =>
    obtain ⟨first, q, rest, rfl, hfirst, h⟩ := Program.yields_bind h
    have hdone (hq : ∀ e, q = .error e → ¬e.isRetryable = true) : rest = [] → q = r →
        ∃ talks, first ++ rest = talks.flatten ∧ Rounds op talks r ∧
          talks.length ≤ left + 1 + 1 ∧
          (talks.length ≤ left + 1 → ∀ e, r = .error e → ¬e.isRetryable = true) := by
      rintro rfl rfl
      exact ⟨[first], by rw [List.flatten_singleton, List.append_nil], .last hfirst,
        Nat.le_add_left 1 _, fun _ ↦ hq⟩
    cases q with
    | ok a =>
      obtain ⟨hrest, hr⟩ := Program.yields_pure h
      exact hdone nofun hrest hr.symm
    | error e =>
      by_cases he : e.isRetryable = true
      · simp only [if_pos he] at h
        obtain ⟨waited, _, again, rfl, hwait, h⟩ := Program.yields_bind h
        obtain ⟨rfl, -⟩ := Program.yields_pure hwait
        obtain ⟨talks, rfl, hrounds, hle, hfewer⟩ := ih h
        exact ⟨first :: talks, rfl, .again hfirst he hrounds, Nat.succ_le_succ hle,
          fun hlt ↦ hfewer (Nat.le_of_succ_le_succ hlt)⟩
      · simp only [if_neg he] at h
        obtain ⟨hrest, hr⟩ := Program.yields_pure h
        refine hdone ?_ hrest hr.symm
        rintro _ ⟨⟩
        exact he

theorem Rounds.mem (h : Rounds op talks r) (ht : talk ∈ talks) : ∃ q, op.run.Yields talk q := by
  induction h with
  | last h =>
    rw [List.mem_singleton.mp ht]
    exact ⟨_, h⟩
  | again h he hrest ih =>
    rcases List.mem_cons.mp ht with rfl | ht
    · exact ⟨_, h⟩
    · exact ih ht

/-- The result is that of the last round, and all rounds before it have met a conflict. -/
theorem Rounds.exists_last (h : Rounds op talks r) :
    ∃ front talk, talks = front ++ [talk] ∧ op.run.Yields talk r ∧
      ∀ t ∈ front, ∃ e, op.run.Yields t (.error e) ∧ e.isRetryable = true := by
  induction h with
  | last h => exact ⟨[], _, rfl, h, fun _ ht ↦ absurd ht List.not_mem_nil⟩
  | again h he hrest ih =>
    obtain ⟨front, talk, rfl, hlast, hfront⟩ := ih
    exact ⟨_ :: front, talk, rfl, hlast, List.forall_mem_cons.mpr ⟨⟨_, h, he⟩, hfront⟩⟩

end

/-! ### Retried transactions -/

section

variable {α : Type} {body : Action (Ending α)} {talk : List Exchange} {r : Except StoreError α}

theorem Closing.isDelimiter {ending : Except StoreError (Ending α)} (h : Closing ending talk r) :
    ∀ x ∈ talk, x.statement = .commit ∨ x.statement = .rollback := by
  cases h <;> simp

theorem isAttempt_of_transaction (hbody : Careful body)
    (h : (transaction body).run.Yields talk r) : IsAttempt talk := by
  cases yields_transaction h with
  | refused d => exact ⟨_, [], rfl, rfl, fun _ hy ↦ absurd hy List.not_mem_nil⟩
  | begun b hinner hclosing =>
    refine ⟨_, _, rfl, rfl, ?_⟩
    intro y hy hbegin
    rcases List.mem_append.mp hy with hy | hy
    · have hinside := hbody.inside hinner y hy
      rw [hbegin] at hinside
      cases hinside
    · rcases hclosing.isDelimiter y hy with h | h <;> rw [hbegin] at h <;> cases h

/-- What is said in attempts is cut into the rounds of the loop. -/
theorem cutAtBegin_of_retrying {front : List Exchange} {maxAttempts : Nat} (hbody : Careful body)
    (hfront : ∀ x ∈ front, x.statement ≠ .begin)
    (h : (Pages.retrying maxAttempts (transaction body)).run.Yields talk r) :
    ∃ talks, cutAtBegin (front ++ talk) = (front, talks) ∧ Rounds (transaction body) talks r ∧
      talks.length ≤ max maxAttempts 1 ∧
      (talks.length < max maxAttempts 1 → ∀ e, r = .error e → ¬e.isRetryable = true) := by
  obtain ⟨talks, rfl, hrounds, hle, hfewer⟩ := rounds_of_retryFrom h
  have htalks : ∀ t ∈ talks, IsAttempt t := fun t ht ↦
    isAttempt_of_transaction hbody (hrounds.mem ht).choose_spec
  exact ⟨talks, cutAtBegin_append_flatten hfront htalks, hrounds, by omega,
    fun hlt ↦ hfewer (by omega)⟩

/-- **Attempts are rounds.** The attempts of a transaction that is tried again, found by their
`BEGIN`, are the rounds of the loop. -/
theorem rounds_of_retrying {front : List Exchange} {maxAttempts : Nat} (hbody : Careful body)
    (hfront : ∀ x ∈ front, x.statement ≠ .begin)
    (h : (Pages.retrying maxAttempts (transaction body)).run.Yields talk r) :
    lead (front ++ talk) = front ∧ Rounds (transaction body) (attempts (front ++ talk)) r := by
  obtain ⟨talks, hcut, hrounds, -⟩ := cutAtBegin_of_retrying hbody hfront h
  rw [lead, attempts, hcut]
  exact ⟨rfl, hrounds⟩

end

end Pagesmith.Store
