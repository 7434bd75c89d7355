import Pagesmith.Proofs.Results
import Pagesmith.Store.Program

/-!
# Conversations

A program sends statements and goes on with the answers. What both sides say is its *conversation*,
and a program is known from its conversations: which one takes place depends on the answers alone,
so what holds of all conversations of a program holds for every database, whatever it answers.

## Reading a conversation backwards

From the parts of a program and its conversation, one wants to know what was said in each part and
what came of it. `Program.Yields` relates a program, a conversation and a result, without the peer,
and each way of building programs has one lemma that takes its conversations apart. Later modules
use these lemmas and never open a program.
-/

namespace Pagesmith.Store

/-- A statement and the answer to it. -/
structure Exchange where
  statement : Statement
  answer : Except DbError (Answer statement)

namespace Exchange

def Acknowledged (x : Exchange) : Prop := ∃ a, x.answer = .ok a

end Exchange

/-! ## Rows -/

section

variable {s : Statement}

/-- The first row of an answer, if it can be read. -/
def firstRow (answer : Except DbError (Answer s)) : Except DbError (Option s.Row) :=
  answer.bind fun a ↦
    match a.rows with
    | [] => .ok none
    | r :: _ => r.map some

/-- The first row of an answer, or the error `rowNotFound`. -/
def oneRow (answer : Except DbError (Answer s)) : Except DbError s.Row :=
  (firstRow answer).bind fun
    | none => .error .rowNotFound
    | some r => .ok r

def allRows (answer : Except DbError (Answer s)) : Except DbError (List s.Row) :=
  answer.bind fun a ↦ a.rows.mapM id

theorem acknowledged_of_firstRow {answer : Except DbError (Answer s)} {r : Option s.Row}
    (h : firstRow answer = .ok r) : Exchange.Acknowledged ⟨s, answer⟩ := by
  cases answer with
  | error e => cases h
  | ok a => exact ⟨a, rfl⟩

theorem oneRow_eq_ok_iff {answer : Except DbError (Answer s)} {r : s.Row} :
    oneRow answer = .ok r ↔ firstRow answer = .ok (some r) := by
  rw [oneRow]
  rcases firstRow answer with e | _ | q <;> simp [Except.bind]

end

namespace Program

variable {α β σ : Type}

/-! ## What is said -/

/-- What a program and `peer` say until the program is done. -/
def conversation (peer : Peer σ) : Program α → σ → List Exchange
  | done _, _ => []
  | ask s next, st =>
    let (answer, st) := peer st s
    ⟨s, answer⟩ :: (next answer).conversation peer st

theorem answer_of_mem_conversation {peer : Peer σ} {p : Program α} {st : σ} {s : Statement}
    {answer : Except DbError (Answer s)} (h : ⟨s, answer⟩ ∈ p.conversation peer st) :
    ∃ st', answer = (peer st' s).1 := by
  induction p generalizing st with
  | done a => cases h
  | ask s' next ih =>
    rcases List.mem_cons.mp h with heq | h
    · cases heq
      exact ⟨st, rfl⟩
    · exact ih _ h

/-- A program, answered as a conversation says, ends in a result. -/
inductive Yields : Program α → List Exchange → α → Prop
  | done (a : α) : Yields (.done a) [] a
  | ask {s : Statement} {next : Except DbError (Answer s) → Program α}
      {answer : Except DbError (Answer s)} {talk : List Exchange} {a : α}
      (h : Yields (next answer) talk a) : Yields (.ask s next) (⟨s, answer⟩ :: talk) a

/-- What `conversation` gives is a conversation of the program. -/
theorem yields_conversation (peer : Peer σ) (p : Program α) (st : σ) :
    p.Yields (p.conversation peer st) (p.run peer st).1 := by
  induction p generalizing st with
  | done a => exact .done a
  | ask s next ih => exact .ask (ih _ _)

/-! ## Taking conversations apart -/

theorem yields_pure {a b : α} {talk : List Exchange} (h : (pure a : Program α).Yields talk b) :
    talk = [] ∧ b = a := by
  cases h
  exact ⟨rfl, rfl⟩

theorem run_of_conversation_eq_nil {peer : Peer σ} {p : Program α} {st : σ}
    (h : p.conversation peer st = []) : (p.run peer st).2 = ([], st) := by
  cases p with
  | done a => rfl
  | ask s next => exact nomatch h

/-- A program that sends one statement leaves the peer as this statement leaves it. -/
theorem run_of_conversation_eq_singleton {peer : Peer σ} {p : Program α} {st : σ} {s : Statement}
    {answer : Except DbError (Answer s)} (h : p.conversation peer st = [⟨s, answer⟩]) :
    answer = (peer st s).1 ∧ (p.run peer st).2 = ([s], (peer st s).2) := by
  cases p with
  | done a => exact nomatch h
  | ask s' next =>
    obtain ⟨hfirst, hrest⟩ := List.cons.inj h
    cases hfirst
    refine ⟨rfl, ?_⟩
    have hafter := run_of_conversation_eq_nil hrest
    show (s :: ((next (peer st s).1).run peer _).2.1, ((next (peer st s).1).run peer _).2.2) = _
    rw [hafter]

theorem yields_send {s : Statement} {answer : Except DbError (Answer s)} {talk : List Exchange}
    (h : (send s).Yields talk answer) : talk = [⟨s, answer⟩] := by
  cases h with
  | ask h =>
    cases h
    rfl

theorem yields_bind {p : Program α} {f : α → Program β} {talk : List Exchange} {b : β}
    (h : (p >>= f).Yields talk b) :
    ∃ before a after, talk = before ++ after ∧ p.Yields before a ∧ (f a).Yields after b := by
  induction p generalizing talk with
  | done a => exact ⟨[], a, talk, rfl, .done a, h⟩
  | ask s next ih =>
    cases h with
    | ask h =>
      obtain ⟨before, a, after, rfl, hp, hf⟩ := ih _ h
      exact ⟨_ :: before, a, after, rfl, .ask hp, hf⟩

theorem yields_map {p : Program α} {f : α → β} {talk : List Exchange} {b : β}
    (h : (f <$> p).Yields talk b) : ∃ a, p.Yields talk a ∧ b = f a := by
  rw [← bind_pure_comp] at h
  obtain ⟨before, a, after, rfl, hp, hf⟩ := yields_bind h
  obtain ⟨rfl, rfl⟩ := yields_pure hf
  exact ⟨a, by rwa [List.append_nil], rfl⟩

/-- What is made of a result afterwards changes nothing in the conversation. -/
theorem Yields.map {p : Program α} {talk : List Exchange} {a : α} (h : p.Yields talk a)
    (f : α → β) : (f <$> p).Yields talk (f a) := by
  induction h with
  | done a => exact .done (f a)
  | ask h ih => exact .ask ih

end Program

/-! ## Programs that may fail -/

section

variable {ε ε' α β : Type} {talk : List Exchange}

theorem yields_run_pure {a : α} {r : Except ε α}
    (h : (pure a : ExceptT ε Program α).run.Yields talk r) : talk = [] ∧ r = .ok a :=
  Program.yields_pure h

theorem yields_run_throw {e : ε} {r : Except ε α}
    (h : (throw e : ExceptT ε Program α).run.Yields talk r) : talk = [] ∧ r = .error e :=
  Program.yields_pure h

/-- What comes after a part is said only if the part ends without an error. -/
theorem yields_run_bind {x : ExceptT ε Program α} {f : α → ExceptT ε Program β} {r : Except ε β}
    (h : (x >>= f).run.Yields talk r) :
    (∃ e, r = .error e ∧ x.run.Yields talk (.error e)) ∨
      ∃ before a after, talk = before ++ after ∧ x.run.Yields before (.ok a) ∧
        (f a).run.Yields after r := by
  rw [ExceptT.run_bind] at h
  obtain ⟨before, q, after, rfl, hx, hf⟩ := Program.yields_bind h
  cases q with
  | error e =>
    obtain ⟨rfl, rfl⟩ := Program.yields_pure hf
    exact .inl ⟨e, rfl, by rwa [List.append_nil]⟩
  | ok a => exact .inr ⟨before, a, after, rfl, hx, hf⟩

/-! ## Programs that send one statement

Whatever is sent for its rows is sent by a program that `Asks` one statement and reads the answer,
so a sequence of such programs is taken apart statement by statement. -/

/-- Whether `x` sends the statement `s` alone and makes its result of the answer by `read`. -/
def Asks (x : ExceptT ε Program α) (s : Statement)
    (read : Except DbError (Answer s) → Except ε α) : Prop :=
  ∀ talk r, x.run.Yields talk r → ∃ answer, talk = [⟨s, answer⟩] ∧ r = read answer

variable {s : Statement}

theorem asks_send : Asks (ExceptT.mk (Program.send s)) s id := by
  intro talk r h
  exact ⟨r, Program.yields_send h, rfl⟩

theorem Asks.run_eq {σ : Type} {x : ExceptT ε Program α}
    {read : Except DbError (Answer s) → Except ε α} (hx : Asks x s read) (peer : Program.Peer σ)
    (st : σ) : x.run.run peer st = (read (peer st s).1, [s], (peer st s).2) := by
  obtain ⟨answer, htalk, hresult⟩ := hx _ _ (Program.yields_conversation peer x.run st)
  obtain ⟨rfl, hrest⟩ := Program.run_of_conversation_eq_singleton htalk
  exact Prod.ext hresult hrest

/-- Reading an answer asks nothing more. -/
theorem Asks.bind_of_reads {x : ExceptT ε Program α} {f : α → ExceptT ε Program β}
    {read : Except DbError (Answer s) → Except ε α} {next : α → Except ε β}
    (hx : Asks x s read) (hf : ∀ a, (f a).run = pure (next a)) :
    Asks (x >>= f) s fun answer ↦ (read answer).bind next := by
  intro talk r h
  obtain ⟨e, rfl, hx'⟩ | ⟨before, a, after, rfl, hx', hafter⟩ := yields_run_bind h
  · obtain ⟨answer, rfl, hread⟩ := hx _ _ hx'
    exact ⟨answer, rfl, congrArg (Except.bind · next) hread⟩
  · obtain ⟨answer, rfl, hread⟩ := hx _ _ hx'
    rw [hf] at hafter
    obtain ⟨rfl, rfl⟩ := Program.yields_pure hafter
    exact ⟨answer, rfl, congrArg (Except.bind · next) hread⟩

theorem Asks.adapt {x : ExceptT ε Program α} {read : Except DbError (Answer s) → Except ε α}
    (hx : Asks x s read) (f : ε → ε') :
    Asks (x.adapt f) s fun answer ↦ (read answer).mapError f := by
  intro talk r h
  obtain ⟨q, hq, rfl⟩ := Program.yields_map h
  obtain ⟨answer, rfl, rfl⟩ := hx _ _ hq
  exact ⟨answer, rfl, rfl⟩

theorem Asks.action {q : Query α} {read : Except DbError (Answer s) → Except DbError α}
    (hq : Asks q s read) : Asks q.action s fun answer ↦ (read answer).mapError .db :=
  hq.adapt StoreError.db

/-- What comes after a statement is said only if the answer is what was asked for. -/
theorem Asks.yields_bind {x : ExceptT ε Program α} {f : α → ExceptT ε Program β}
    {read : Except DbError (Answer s) → Except ε α} {r : Except ε β} (hx : Asks x s read)
    (h : (x >>= f).run.Yields talk r) :
    ∃ answer after, talk = ⟨s, answer⟩ :: after ∧
      ((∃ e, read answer = .error e ∧ after = [] ∧ r = .error e) ∨
        ∃ a, read answer = .ok a ∧ (f a).run.Yields after r) := by
  obtain ⟨e, rfl, hx'⟩ | ⟨before, a, after, rfl, hx', hafter⟩ := yields_run_bind h
  · obtain ⟨answer, rfl, hread⟩ := hx _ _ hx'
    exact ⟨answer, [], rfl, .inl ⟨e, hread.symm, rfl, rfl⟩⟩
  · obtain ⟨answer, rfl, hread⟩ := hx _ _ hx'
    exact ⟨answer, after, rfl, .inr ⟨a, hread.symm, hafter⟩⟩

theorem Asks.yields_action_bind {q : Query α} {f : α → Action β}
    {read : Except DbError (Answer s) → Except DbError α} {r : Except StoreError β}
    (hq : Asks q s read) (h : (q.action >>= f).run.Yields talk r) :
    ∃ answer after, talk = ⟨s, answer⟩ :: after ∧
      ((∃ d, read answer = .error d ∧ after = [] ∧ r = .error (.db d)) ∨
        ∃ a, read answer = .ok a ∧ (f a).run.Yields after r) := by
  obtain ⟨answer, after, rfl, ⟨e, hread, hafter, hr⟩ | ⟨a, hread, hafter⟩⟩ :=
    hq.action.yields_bind h
  · obtain ⟨d, hd, rfl⟩ := mapError_eq_error_iff.mp hread
    exact ⟨answer, after, rfl, .inl ⟨d, hd, hafter, hr⟩⟩
  · exact ⟨answer, after, rfl, .inr ⟨a, mapError_eq_ok_iff.mp hread, hafter⟩⟩

theorem asks_fetchOptional : Asks (fetchOptional s) s firstRow := by
  refine asks_send.bind_of_reads ?_
  rintro ⟨rows, affected⟩
  match rows with
  | [] | .ok _ :: _ | .error _ :: _ => rfl

theorem asks_fetchOne : Asks (fetchOne s) s oneRow := by
  refine asks_fetchOptional.bind_of_reads ?_
  rintro (_ | r) <;> rfl

theorem asks_execute : Asks (execute s) s fun answer ↦ answer.bind fun a ↦ .ok a.affected :=
  asks_send.bind_of_reads fun _ ↦ rfl

private theorem run_mapM_mk_pure (rows : List (Except DbError s.Row)) :
    (rows.mapM fun r ↦ (ExceptT.mk (pure r) : Query s.Row)).run =
      pure (rows.mapM (id : _ → Except DbError s.Row)) := by
  induction rows with
  | nil => rfl
  | cons r rows ih =>
    rw [List.mapM_cons, List.mapM_cons]
    cases r with
    | error e => rfl
    | ok row =>
      change ExceptT.run (_ >>= fun rows ↦ pure (row :: rows)) = _
      rw [ExceptT.run_bind, ih]
      cases rows.mapM id <;> rfl

theorem asks_fetchAll : Asks (fetchAll s) s allRows :=
  asks_send.bind_of_reads fun a ↦ run_mapM_mk_pure a.rows

end

end Pagesmith.Store
