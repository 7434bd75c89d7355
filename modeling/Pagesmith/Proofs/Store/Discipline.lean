import Pagesmith.Proofs.Store.Transaction
import Pagesmith.Proofs.Store.Writes

/-!
# Transaction discipline

Whatever the database answers, the functions that write keep some rules. Rows are written only in an
open transaction of the same attempt. A transaction is committed only if nothing in it has failed
and no row that must come back is missing. Nothing but a rollback follows a commit. And the result
tells what has happened: success means that the commit was acknowledged, and that something was not
found means that nothing was written.

## How the rules come about

Most rules hold of every transaction whose body is `Careful`: they are seen where the transaction
begins and closes, and the body matters only in that it sends no delimiter and does not hide
failures. One rule more is asked of the body, that it has written nothing where it abandons the
transaction (`AbandonsUnwritten`).

From attempts to runs the step is short. Another attempt is made only after a version conflict, and
an attempt that has sent a commit never ends in one. So the commits of a run are those of its last
attempt.
-/

namespace Pagesmith.Store

/-! ## The rules -/

/-- Whether what has been said `before` in an attempt leaves a transaction open. -/
def Open (before : List Exchange) : Prop :=
  ∃ b inner, before = b :: inner ∧ b.statement = .begin ∧ b.Acknowledged ∧
    ∀ y ∈ inner, y.statement.isDelimiter = false

/-- Whether every statement of an attempt may be sent after what was said before it. -/
def InOrder (talk : List Exchange) : Prop :=
  ∀ before x after, talk = before ++ x :: after →
    (x.statement.isWrite = true → Open before) ∧
      (x.statement = .commit → Open before ∧ ∀ y ∈ before, y.Answered)

/-- Whether nothing but rollbacks comes after a commit. -/
def NothingAfterCommit (talk : List Exchange) : Prop :=
  talk.Pairwise fun x y ↦ x.statement = .commit → y.statement = .rollback

/-- The rules that `talk` and its result `r` keep. -/
structure Disciplined {α : Type} (talk : List Exchange) (r : Except StoreError α) : Prop where
  /-- Outside of attempts nothing is written and no transaction is delimited. -/
  reads : ∀ x ∈ lead talk, x.statement.isWrite = false ∧ x.statement.isDelimiter = false
  inOrder : ∀ t ∈ attempts talk, InOrder t
  nothingAfterCommit : NothingAfterCommit talk
  commitsOnce : talk.countP (·.statement = .commit) ≤ 1
  ok_iff : (∃ a, r = .ok a) ↔ ∃ x ∈ talk, x.statement = .commit ∧ x.Acknowledged
  uncommitted : ∀ e, r = .error e → e.IsNotFound → ∀ x ∈ talk, x.statement ≠ .commit
  unwritten : ∀ e, r = .error e → e.IsNotFound →
    ∀ t ∈ (attempts talk).getLast?, ∀ x ∈ t, x.statement.isWrite = false

/-- Whether `x` is `Disciplined` against any peer. -/
def KeepsDiscipline {α : Type} (x : Action α) : Prop :=
  ∀ {σ : Type} (peer : Program.Peer σ) (st : σ),
    Disciplined (x.run.conversation peer st) (x.run.run peer st).1

theorem countP_commit_le_one {talk : List Exchange} (h : NothingAfterCommit talk) :
    talk.countP (·.statement = .commit) ≤ 1 := by
  induction talk with
  | nil => exact Nat.zero_le 1
  | cons x talk ih =>
    obtain ⟨hx, htalk⟩ := List.pairwise_cons.mp h
    by_cases hcommit : x.statement = .commit
    · have hrest : talk.countP (·.statement = .commit) = 0 := by
        refine List.countP_eq_zero.mpr fun y hy ↦ ?_
        rw [hx y hy hcommit]
        decide
      simp [hcommit, hrest]
    · simpa [hcommit] using ih htalk

/-! ## One attempt -/

section

variable {α : Type} {body : Action (Ending α)} {talk inner closing : List Exchange}
  {ending : Except StoreError (Ending α)} {r : Except StoreError α}

/-- Whether `body` has written nothing where it abandons its transaction. -/
def AbandonsUnwritten (body : Action (Ending α)) : Prop :=
  ∀ {talk e}, body.run.Yields talk (.ok (.abandon e)) → ∀ x ∈ talk, x.statement.isWrite = false

/-- A place in two conversations is in the one or in the other. -/
theorem append_cons_eq_append {before after left right : List Exchange} {x : Exchange}
    (h : left ++ right = before ++ x :: after) :
    (∃ rest, left = before ++ x :: rest) ∨
      ∃ pre, before = left ++ pre ∧ right = pre ++ x :: after := by
  obtain ⟨pre, hbefore, hright⟩ | ⟨rest, hleft, hrest⟩ := List.append_eq_append_iff.mp h
  · exact .inr ⟨pre, hbefore, hright⟩
  · cases rest with
    | nil =>
      rw [List.append_nil] at hleft
      exact .inr ⟨[], by rw [hleft, List.append_nil], hrest.symm⟩
    | cons y rest =>
      obtain ⟨rfl, -⟩ := List.cons.inj hrest
      exact .inl ⟨rest, hleft⟩

/-- What closes a transaction begins with a commit if the body has come to its end, and otherwise
there is none. -/
theorem Closing.commit_or_rollbacks (h : Closing ending closing r) :
    (∃ a c after, ending = .ok (.complete a) ∧ closing = ⟨.commit, c⟩ :: after ∧
      (∀ y ∈ after, y.statement = .rollback) ∧
      (Exchange.Acknowledged ⟨.commit, c⟩ ∧ r = .ok a ∨
        ∃ d, c = .error d ∧ r = .error (.db d))) ∨
    (∀ y ∈ closing, y.statement = .rollback) ∧ ∃ e, r = .error e := by
  cases h with
  | left e answer => exact .inr ⟨by simp, e, rfl⟩
  | abandoned e a => exact .inr ⟨by simp, e, rfl⟩
  | stuck e d answer => exact .inr ⟨by simp, _, rfl⟩
  | committed a c => exact .inl ⟨a, _, [], rfl, rfl, by simp, .inl ⟨⟨c, rfl⟩, rfl⟩⟩
  | lost a d answer => exact .inl ⟨a, _, _, rfl, rfl, by simp, .inr ⟨d, rfl, rfl⟩⟩

theorem open_begun {b : Answer .begin} (h : ∀ y ∈ inner, y.statement.isDelimiter = false) :
    Open (⟨.begin, .ok b⟩ :: inner) := ⟨_, inner, rfl, rfl, ⟨b, rfl⟩, h⟩

theorem inOrder_of_transaction (hbody : Careful body)
    (h : (transaction body).run.Yields talk r) : InOrder talk := by
  intro before x after htalk
  cases yields_transaction h with
  | refused d =>
    obtain ⟨rfl, hx⟩ : before = [] ∧ x.statement = .begin := by
      cases before with
      | nil => exact ⟨rfl, by rw [← (List.cons.inj htalk).1]⟩
      | cons y before => simp at htalk
    rw [hx]
    exact ⟨nofun, nofun⟩
  | begun b hinner hclosing =>
    have hinside := hbody.inside hinner
    cases before with
    | nil =>
      rw [← (List.cons.inj htalk).1]
      exact ⟨nofun, nofun⟩
    | cons y before =>
      obtain ⟨rfl, hplace⟩ := List.cons.inj htalk
      -- a statement of the body comes after the beginning, one that closes comes after the body
      obtain ⟨rest, rfl⟩ | ⟨pre, rfl, hpre⟩ := append_cons_eq_append hplace
      · have hbefore : Open (⟨.begin, .ok b⟩ :: before) :=
          open_begun fun y hy ↦ hinside y (List.mem_append_left _ hy)
        refine ⟨fun _ ↦ hbefore, fun hcommit ↦ ?_⟩
        have hx := hinside x (by simp)
        rw [hcommit] at hx
        cases hx
      · obtain ⟨a, c, sent, rfl, rfl, hsent, -⟩ | ⟨hrollbacks, -⟩ := hclosing.commit_or_rollbacks
        · cases pre with
          | nil =>
            rw [← (List.cons.inj hpre).1, List.append_nil]
            refine ⟨nofun, fun _ ↦ ⟨open_begun hinside, ?_⟩⟩
            refine List.forall_mem_cons.mpr ⟨⟨⟨b, rfl⟩, nofun⟩, hbody.answered hinner⟩
          | cons z pre =>
            have hx : x ∈ sent := by rw [(List.cons.inj hpre).2]; simp
            rw [hsent x hx]
            exact ⟨nofun, nofun⟩
        · rw [hrollbacks x (by rw [hpre]; simp)]
          exact ⟨nofun, nofun⟩

/-- An attempt in which something was not found has written nothing. -/
theorem unwritten_of_transaction (hbody : Careful body) (habandon : AbandonsUnwritten body)
    {e : StoreError} (he : e.IsNotFound) (h : (transaction body).run.Yields talk (.error e)) :
    ∀ x ∈ talk, x.statement.isWrite = false := by
  cases yields_transaction h with
  | refused d => exact he.elim
  | begun b hinner hclosing =>
    cases hclosing with
    | left e answer => exact absurd he (hbody.found hinner)
    | stuck e d answer => exact he.elim
    | lost a d answer => exact he.elim
    | abandoned e a =>
      refine List.forall_mem_cons.mpr ⟨rfl, List.forall_mem_append.mpr ⟨habandon hinner, ?_⟩⟩
      exact List.forall_mem_singleton.mpr rfl

/-! ## Commits -/

/-- What `talk` and its result tell about the commit: it was sent once, with nothing but rollbacks
after it, and the result says what came of it, or it was not sent and there is no success. -/
inductive CommitOf (talk : List Exchange) (r : Except StoreError α) : Prop
  | sent {before after : List Exchange} {c : Except DbError (Answer .commit)}
    (htalk : talk = before ++ ⟨.commit, c⟩ :: after)
    (hbefore : ∀ y ∈ before, y.statement ≠ .commit)
    (hafter : ∀ y ∈ after, y.statement = .rollback)
    (h : Exchange.Acknowledged ⟨.commit, c⟩ ∧ (∃ a, r = .ok a) ∨
      ∃ d, c = .error d ∧ r = .error (.db d))
  | unsent (htalk : ∀ y ∈ talk, y.statement ≠ .commit) (h : ∃ e, r = .error e)

theorem commitOf_transaction (hbody : Careful body) (h : (transaction body).run.Yields talk r) :
    CommitOf talk r := by
  cases yields_transaction h with
  | refused d => exact .unsent (by simp) ⟨_, rfl⟩
  | @begun b inner closing _ _ hinner hclosing =>
    have hbefore : ∀ y ∈ (⟨.begin, .ok b⟩ :: inner : List Exchange), y.statement ≠ .commit := by
      refine List.forall_mem_cons.mpr ⟨nofun, fun y hy hcommit ↦ ?_⟩
      have hinside := hbody.inside hinner y hy
      rw [hcommit] at hinside
      cases hinside
    rw [← List.cons_append]
    obtain ⟨a, c, after, -, rfl, hafter, hr⟩ | ⟨hrollbacks, hr⟩ := hclosing.commit_or_rollbacks
    · exact .sent rfl hbefore hafter (hr.imp_left fun h ↦ ⟨h.1, a, h.2⟩)
    · refine .unsent (List.forall_mem_append.mpr ⟨hbefore, fun y hy ↦ ?_⟩) hr
      rw [hrollbacks y hy]
      exact nofun

/-- What was said before without a commit changes nothing. -/
theorem CommitOf.append {front : List Exchange} (hfront : ∀ y ∈ front, y.statement ≠ .commit)
    (h : CommitOf talk r) : CommitOf (front ++ talk) r := by
  cases h with
  | sent htalk hbefore hafter h =>
    rw [htalk, ← List.append_assoc]
    exact .sent rfl (List.forall_mem_append.mpr ⟨hfront, hbefore⟩) hafter h
  | unsent htalk h => exact .unsent (List.forall_mem_append.mpr ⟨hfront, htalk⟩) h

/-- A run has the commits of its last attempt, since no other attempt has sent one. -/
theorem commitOf_rounds {talks : List (List Exchange)} (hbody : Careful body)
    (h : Rounds (transaction body) talks r) : CommitOf talks.flatten r := by
  induction h with
  | last h =>
    rw [List.flatten_singleton]
    exact commitOf_transaction hbody h
  | again h he hrest ih =>
    -- after a commit was sent, a failure is one of the commit itself, and is not tried again
    refine ih.append ?_
    cases commitOf_transaction hbody h with
    | sent htalk hbefore hafter hr =>
      obtain ⟨-, a, ha⟩ | ⟨d, -, hd⟩ := hr
      · cases ha
      · cases hd
        cases he
    | unsent htalk _ => exact htalk

theorem CommitOf.nothingAfterCommit (h : CommitOf talk r) : NothingAfterCommit talk := by
  have hother {t : List Exchange} (ht : ∀ y ∈ t, y.statement ≠ .commit) : NothingAfterCommit t :=
    List.pairwise_of_forall_mem_list fun _ hx _ _ hcommit ↦ absurd hcommit (ht _ hx)
  cases h with
  | sent htalk hbefore hafter h =>
    rw [htalk]
    refine List.pairwise_append.mpr ⟨hother hbefore, List.pairwise_cons.mpr ⟨?_, hother ?_⟩, ?_⟩
    · exact fun y hy _ ↦ hafter y hy
    · intro y hy
      rw [hafter y hy]
      exact nofun
    · exact fun x hx _ _ hcommit ↦ absurd hcommit (hbefore x hx)
  | unsent htalk h => exact hother htalk

theorem CommitOf.ok_iff (h : CommitOf talk r) :
    (∃ a, r = .ok a) ↔ ∃ x ∈ talk, x.statement = .commit ∧ x.Acknowledged := by
  cases h with
  | @sent before after c htalk hbefore hafter h =>
    constructor
    · rintro ⟨a, rfl⟩
      obtain ⟨hc, -⟩ | ⟨d, -, hd⟩ := h
      · exact ⟨_, htalk ▸ List.mem_append_right _ List.mem_cons_self, rfl, hc⟩
      · cases hd
    · rintro ⟨x, hx, hcommit, k, hk⟩
      rw [htalk] at hx
      rcases List.mem_append.mp hx with hx | hx
      · exact absurd hcommit (hbefore x hx)
      rcases List.mem_cons.mp hx with rfl | hx
      · obtain ⟨-, hr⟩ | ⟨d, hd, -⟩ := h
        · exact hr
        · exact nomatch hd.symm.trans hk
      · exact nomatch (hafter x hx).symm.trans hcommit
  | unsent htalk h =>
    obtain ⟨e, rfl⟩ := h
    exact ⟨nofun, fun ⟨x, hx, hcommit, _⟩ ↦ absurd hcommit (htalk x hx)⟩

theorem CommitOf.uncommitted {e : StoreError} (he : e.IsNotFound)
    (h : CommitOf talk (.error e : Except StoreError α)) : ∀ x ∈ talk, x.statement ≠ .commit := by
  cases h with
  | sent htalk hbefore hafter h =>
    obtain ⟨-, a, ha⟩ | ⟨d, -, hd⟩ := h
    · cases ha
    · cases hd
      exact he.elim
  | unsent htalk h => exact htalk

/-! ## Runs -/

theorem ne_of_isDelimiter {s : Statement}
    (h : ∀ x ∈ talk, x.statement.isWrite = false ∧ x.statement.isDelimiter = false)
    (hs : s.isDelimiter = true) : ∀ x ∈ talk, x.statement ≠ s := by
  rintro x hx rfl
  exact Bool.false_ne_true ((h x hx).2.symm.trans hs)

/-- A transaction that is tried again keeps the rules if its body is careful and abandons it only
where nothing has been written. -/
theorem disciplined_of_rounds (hbody : Careful body) (habandon : AbandonsUnwritten body)
    (hlead : ∀ x ∈ lead talk, x.statement.isWrite = false ∧ x.statement.isDelimiter = false)
    (h : Rounds (transaction body) (attempts talk) r) : Disciplined talk r := by
  have hcommit : CommitOf talk r := by
    rw [← lead_append_flatten_attempts talk]
    exact (commitOf_rounds hbody h).append (ne_of_isDelimiter hlead rfl)
  refine ⟨hlead, ?_, hcommit.nothingAfterCommit, countP_commit_le_one hcommit.nothingAfterCommit,
    hcommit.ok_iff, ?_, ?_⟩
  · intro t ht
    obtain ⟨q, hq⟩ := h.mem ht
    exact inOrder_of_transaction hbody hq
  · rintro e rfl he
    exact hcommit.uncommitted he
  · rintro e rfl he t ht
    obtain ⟨front, last, hattempts, hlast, -⟩ := h.exists_last
    rw [hattempts, List.getLast?_concat] at ht
    cases ht
    exact unwritten_of_transaction hbody habandon he hlast

theorem disciplined_of_reads {e : StoreError}
    (h : ∀ x ∈ talk, x.statement.isWrite = false ∧ x.statement.isDelimiter = false) :
    Disciplined talk (.error e : Except StoreError α) := by
  have hcut : cutAtBegin talk = (talk, []) := cutAtBegin_of_forall (ne_of_isDelimiter h rfl)
  have hcommit : CommitOf talk (.error e : Except StoreError α) :=
    .unsent (ne_of_isDelimiter h rfl) ⟨e, rfl⟩
  refine ⟨?_, ?_, hcommit.nothingAfterCommit, countP_commit_le_one hcommit.nothingAfterCommit,
    hcommit.ok_iff, ?_, ?_⟩
  · rwa [lead, hcut]
  · rw [attempts, hcut]
    exact fun _ ht ↦ absurd ht List.not_mem_nil
  · rintro _ ⟨rfl⟩ he
    exact hcommit.uncommitted he
  · rw [attempts, hcut]
    rintro _ _ _ t ⟨⟩

theorem disciplined_of_retrying (hbody : Careful body) (habandon : AbandonsUnwritten body)
    {front : List Exchange} {maxAttempts : Nat}
    (hfront : ∀ x ∈ front, x.statement.isWrite = false ∧ x.statement.isDelimiter = false)
    (h : (Pages.retrying maxAttempts (transaction body)).run.Yields talk r) :
    Disciplined (front ++ talk) r := by
  obtain ⟨hlead, hrounds⟩ := rounds_of_retrying hbody (ne_of_isDelimiter hfront rfl) h
  exact disciplined_of_rounds hbody habandon (by rwa [hlead]) hrounds

end

/-! ## The functions that write -/

theorem Pages.abandonsUnwritten_updateBody {page : Uuid} {blocks : List Block} {editor : Uuid} :
    AbandonsUnwritten (updateBody page blocks editor) := by
  intro talk e h
  cases yields_updateBody h with
  | missing hlock => exact List.forall_mem_singleton.mpr rfl

theorem Pages.abandonsUnwritten_saveBody {tenant : Uuid} {slug title : String}
    {blocks : List Block} {editor : Uuid} :
    AbandonsUnwritten (saveBody tenant slug title blocks editor) := by
  intro talk e h
  cases yields_saveBody h

theorem Themes.abandonsUnwritten_activateBody {tenant theme : Uuid} :
    AbandonsUnwritten (activateBody tenant theme) := by
  intro talk e h
  cases yields_activateBody h with
  | absent hlock habsent => exact List.forall_mem_singleton.mpr rfl

/-- **Transaction discipline.** Updates, saves, restorations and activations of themes keep the
rules against any peer. -/
theorem writes_keepDiscipline (maxAttempts : Nat) :
    (∀ page blocks editor, KeepsDiscipline (Pages.update maxAttempts page blocks editor)) ∧
    (∀ tenant slug title blocks editor,
      KeepsDiscipline (Pages.save maxAttempts tenant slug title blocks editor)) ∧
    (∀ page version editor, KeepsDiscipline (Pages.restore maxAttempts page version editor)) ∧
    ∀ tenant theme, KeepsDiscipline (Themes.activate tenant theme) := by
  have hnone : ∀ x ∈ ([] : List Exchange),
      x.statement.isWrite = false ∧ x.statement.isDelimiter = false :=
    fun _ hx ↦ absurd hx List.not_mem_nil
  refine ⟨?_, ?_, ?_, ?_⟩
  · intro page blocks editor σ peer st
    exact disciplined_of_retrying Pages.careful_updateBody Pages.abandonsUnwritten_updateBody
      hnone (Program.yields_conversation peer _ st)
  · intro tenant slug title blocks editor σ peer st
    exact disciplined_of_retrying Pages.careful_saveBody Pages.abandonsUnwritten_saveBody
      hnone (Program.yields_conversation peer _ st)
  · intro page version editor σ peer st
    have hyields :=
      Program.yields_conversation peer (Pages.restore maxAttempts page version editor).run st
    generalize (Pages.restore maxAttempts page version editor).run.conversation peer st = talk,
      ((Pages.restore maxAttempts page version editor).run.run peer st).1 = r at hyields ⊢
    cases Pages.yields_restore hyields with
    | unread h => exact disciplined_of_reads (List.forall_mem_singleton.mpr ⟨rfl, rfl⟩)
    | missing h => exact disciplined_of_reads (List.forall_mem_singleton.mpr ⟨rfl, rfl⟩)
    | updated h hupdate =>
      exact disciplined_of_retrying Pages.careful_updateBody Pages.abandonsUnwritten_updateBody
        (List.forall_mem_singleton.mpr ⟨rfl, rfl⟩) hupdate
  · intro tenant theme σ peer st
    have hyields := Program.yields_conversation peer (Themes.activate tenant theme).run st
    -- one attempt is what a loop of one attempt makes
    change (Pages.retrying 1 (transaction (Themes.activateBody tenant theme))).run.Yields _ _
      at hyields
    exact disciplined_of_retrying Themes.careful_activateBody Themes.abandonsUnwritten_activateBody
      hnone hyields

end Pagesmith.Store
