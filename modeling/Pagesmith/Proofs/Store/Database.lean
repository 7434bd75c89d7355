import Pagesmith.Proofs.Store.Transaction

/-!
# Databases with transactions

What is asked of a database here is only that it keeps its word about transactions: what a
transaction has done takes effect with the acknowledgement of its commit, and otherwise it has never
been. Which statement may do what to the tables, and how it is then answered, is left to whoever
talks about particular tables. A statement may be refused at any time.

Against such a database a transaction whose body is `Careful` happens as a whole or not at all, and
its result tells which of the two it was. The same holds if it is tried again after conflicts, for
then only the last attempt can have happened.
-/

namespace Pagesmith.Store

/-- A database with one client. -/
structure Database (S : Type) where
  /-- The tables as they are outside of transactions. -/
  committed : S
  /-- The tables as the open transaction sees them. -/
  working : Option S := none
  /-- What the tables were after each commit, the first one first. -/
  log : List S := []

/-- What answered statements may do to tables. -/
abbrev Effects (S : Type) := (s : Statement) → S → Answer s → S → Prop

namespace Database

variable {S : Type} (does : Effects S)

/-- What may come of a statement that reads or writes tables. Outside of a transaction it is
committed at once; there a refusal has no effect, and in a transaction any. -/
def Answers (d : Database S) (s : Statement) (answer : Except DbError (Answer s))
    (d' : Database S) : Prop :=
  match d.working, answer with
  | none, .ok a => ∃ c, does s d.committed a c ∧ d' = { d with committed := c }
  | none, .error _ => d' = d
  | some w, .ok a => ∃ w', does s w a w' ∧ d' = { d with working := some w' }
  | some _, .error _ => ∃ w', d' = { d with working := some w' }

/-- What may come of a statement, delimiters included, at the database `d`. -/
def Allows (d : Database S) : (s : Statement) → Except DbError (Answer s) → Database S → Prop
  | .begin, .ok _, d' => d.working = none → d' = { d with working := some d.committed }
  | .begin, .error _, d' => d.working = none → d' = d
  | .commit, .ok _, d' => ∀ w, d.working = some w → d' = ⟨w, none, d.log ++ [w]⟩
  | .commit, .error _, d' | .rollback, _, d' => d' = { d with working := none }
  | s, answer, d' => d.Answers does s answer d'

/-- Whether a conversation may lead from one state of the database to another. -/
inductive Through : Database S → List Exchange → Database S → Prop
  | nil (d : Database S) : Through d [] d
  | cons {d d' d'' : Database S} {x : Exchange} {talk : List Exchange}
    (h : d.Allows does x.statement x.answer d') (hrest : Through d' talk d'') :
    Through d (x :: talk) d''

variable {does}

theorem allows_iff {d d' : Database S} {s : Statement} {answer : Except DbError (Answer s)}
    (hs : s.isDelimiter = false) : d.Allows does s answer d' ↔ d.Answers does s answer d' := by
  cases s <;> first | exact Iff.rfl | cases hs

theorem through_conversation {σ α : Type} {peer : Program.Peer σ} {db : σ → Database S}
    (hpeer : ∀ st s, (db st).Allows does s (peer st s).1 (db (peer st s).2)) (p : Program α)
    (st : σ) : Through does (db st) (p.conversation peer st) (db (p.run peer st).2.2) := by
  induction p generalizing st with
  | done a => exact .nil _
  | ask s next ih => exact .cons (hpeer st s) (ih _ _)

variable {c w : S} {log : List S} {d d' : Database S} {talk inner closing : List Exchange}

theorem through_append {before after : List Exchange}
    (h : Through does d (before ++ after) d') :
    ∃ mid, Through does d before mid ∧ Through does mid after d' := by
  induction before generalizing d with
  | nil => exact ⟨d, .nil d, h⟩
  | cons x before ih =>
    cases h with
    | cons hx hrest =>
      obtain ⟨mid, hbefore, hafter⟩ := ih hrest
      exact ⟨mid, .cons hx hbefore, hafter⟩

/-- In a transaction, a statement whose first row could be read has done to the tables what it says.
-/
theorem through_cons {s : Statement} {answer : Except DbError (Answer s)} {row : Option s.Row}
    (hs : s.isDelimiter = false) (hrow : firstRow answer = .ok row)
    (h : Through does ⟨c, some w, log⟩ (⟨s, answer⟩ :: talk) d') :
    ∃ a w', firstRow (.ok a) = .ok row ∧ does s w a w' ∧
      Through does ⟨c, some w', log⟩ talk d' := by
  cases answer with
  | error e => cases hrow
  | ok a =>
    cases h with
    | cons hx hrest =>
      obtain ⟨w', hdoes, rfl⟩ := (allows_iff hs).mp hx
      exact ⟨a, w', hrow, hdoes, hrest⟩

/-- Without a delimiter, an open transaction stays open. -/
theorem through_inside (hinner : ∀ x ∈ inner, x.statement.isDelimiter = false)
    (h : Through does ⟨c, some w, log⟩ inner d') : ∃ w', d' = ⟨c, some w', log⟩ := by
  induction inner generalizing w with
  | nil =>
    cases h
    exact ⟨w, rfl⟩
  | cons x inner ih =>
    obtain ⟨hx, hrestInside⟩ := List.forall_mem_cons.mp hinner
    obtain ⟨s, answer⟩ := x
    cases h with
    | cons hallows hrest =>
      have hanswers := (allows_iff hx).mp hallows
      cases answer with
      | error e =>
        obtain ⟨w', rfl⟩ := hanswers
        exact ih hrestInside hrest
      | ok a =>
        obtain ⟨w', -, rfl⟩ := hanswers
        exact ih hrestInside hrest

/-! ## Whole or not at all -/

section

variable {α : Type} {body : Action (Ending α)} {ending : Except StoreError (Ending α)}
  {r : Except StoreError α}

/-- What closes a transaction ends it, and the tables are what the result says. -/
theorem through_closing (h : Closing ending closing r)
    (hthrough : Through does ⟨c, some w, log⟩ closing d') :
    (∃ e, r = .error e ∧ d' = ⟨c, none, log⟩) ∨
      ∃ a, r = .ok a ∧ ending = .ok (.complete a) ∧ d' = ⟨w, none, log ++ [w]⟩ := by
  cases h with
  | left e answer =>
    obtain _ | ⟨hx, ⟨⟩⟩ := hthrough
    exact .inl ⟨e, rfl, hx⟩
  | abandoned e a =>
    obtain _ | ⟨hx, ⟨⟩⟩ := hthrough
    exact .inl ⟨e, rfl, hx⟩
  | stuck e d answer =>
    obtain _ | ⟨rfl, hrest⟩ := hthrough
    obtain _ | ⟨hx, ⟨⟩⟩ := hrest
    exact .inl ⟨_, rfl, hx⟩
  | committed a k =>
    obtain _ | ⟨hx, ⟨⟩⟩ := hthrough
    exact .inr ⟨a, rfl, rfl, hx w rfl⟩
  | lost a d answer =>
    obtain _ | ⟨rfl, hrest⟩ := hthrough
    obtain _ | ⟨hx, ⟨⟩⟩ := hrest
    exact .inl ⟨_, rfl, hx⟩

/-- What may have come of a transaction with this `body`: it has failed, and nothing has happened,
or it has succeeded and has happened as a whole. -/
inductive Outcome (does : Effects S) (body : Action (Ending α)) (c : S) (log : List S) :
    Except StoreError α → Database S → Prop
  | nothing (e : StoreError) : Outcome does body c log (.error e) ⟨c, none, log⟩
  | happened {inner : List Exchange} {a : α} {w : S}
    (hbody : body.run.Yields inner (.ok (.complete a)))
    (hinner : Through does ⟨c, some c, log⟩ inner ⟨c, some w, log⟩) :
    Outcome does body c log (.ok a) ⟨w, none, log ++ [w]⟩

/-- **A transaction happens as a whole or not at all.** -/
theorem outcome_transaction (hbody : Careful body) (h : (transaction body).run.Yields talk r)
    (hthrough : Through does ⟨c, none, log⟩ talk d') : Outcome does body c log r d' := by
  cases yields_transaction h with
  | refused d =>
    obtain _ | ⟨hbegin, ⟨⟩⟩ := hthrough
    rw [hbegin rfl]
    exact .nothing _
  | begun b hinner hclosing =>
    obtain _ | ⟨hbegin, hrest⟩ := hthrough
    rw [hbegin rfl] at hrest
    obtain ⟨mid, hthere, hclose⟩ := through_append hrest
    obtain ⟨w, rfl⟩ := through_inside (hbody.inside hinner) hthere
    obtain ⟨e, rfl, rfl⟩ | ⟨a, rfl, rfl, rfl⟩ := through_closing hclosing hclose
    · exact .nothing e
    · exact .happened hinner hthere

/-- Of several attempts only the last one can have happened. -/
theorem outcome_rounds {talks : List (List Exchange)} (hbody : Careful body)
    (h : Rounds (transaction body) talks r)
    (hthrough : Through does ⟨c, none, log⟩ talks.flatten d') :
    Outcome does body c log r d' := by
  induction h with
  | last h =>
    rw [List.flatten_singleton] at hthrough
    exact outcome_transaction hbody h hthrough
  | again h he hrest ih =>
    -- an attempt that is followed by another one has failed, so the next one finds what it found
    obtain ⟨mid, hfirst, hothers⟩ := through_append hthrough
    cases outcome_transaction hbody h hfirst with
    | nothing e => exact ih hothers

end

/-! ## A database that refuses statements -/

/-- How tables answer a statement, and what it makes of them. -/
abbrev Tables (S : Type) := (s : Statement) → S → Answer s × S

variable {tables : Tables S}

/-- Answer a statement that reads or writes tables, or refuse it with `refusal`. -/
def reply (tables : Tables S) (d : Database S) (s : Statement) :
    Option DbError → Except DbError (Answer s) × Database S
  | some e => (.error e, d)
  | none =>
    match d.working with
    | none => (.ok (tables s d.committed).1, { d with committed := (tables s d.committed).2 })
    | some w => (.ok (tables s w).1, { d with working := some (tables s w).2 })

theorem answers_reply {d : Database S} {s : Statement} {refusal : Option DbError}
    (h : refusal = none → ∀ t, t = d.working.getD d.committed →
      does s t (tables s t).1 (tables s t).2) :
    d.Answers does s (reply tables d s refusal).1 (reply tables d s refusal).2 := by
  obtain ⟨c, working, log⟩ := d
  cases refusal with
  | some e =>
    cases working with
    | none => rfl
    | some w => exact ⟨w, rfl⟩
  | none =>
    cases working with
    | none => exact ⟨_, h rfl c rfl, rfl⟩
    | some w => exact ⟨_, h rfl w rfl, rfl⟩

/-- A database made of tables. Which of the coming statements it refuses, and why, is given in
advance. -/
def serve (tables : Tables S) : Program.Peer (Database S × List (Option DbError)) :=
  fun (d, refusals) s ↦
    let rest := refusals.tail
    match s, refusals.head?.join with
    | .begin, none => (.ok {}, { d with working := some d.committed }, rest)
    | .begin, some e => (.error e, d, rest)
    | .commit, none =>
      (.ok {}, ⟨d.working.getD d.committed, none, d.log ++ d.working.toList⟩, rest)
    | .commit, some e | .rollback, some e => (.error e, { d with working := none }, rest)
    | .rollback, none => (.ok {}, { d with working := none }, rest)
    | s, refusal => let (answer, d) := reply tables d s refusal; (answer, d, rest)

/-- Such a database keeps its word if its tables do what they are asked to, unless they refuse. -/
theorem allows_serve_of {st : Database S × List (Option DbError)} {s : Statement}
    (h : st.2.head?.join = none → ∀ t, t = st.1.working.getD st.1.committed →
      does s t (tables s t).1 (tables s t).2) :
    st.1.Allows does s (serve tables st s).1 (serve tables st s).2.1 := by
  obtain ⟨d, refusals⟩ := st
  have hreply := answers_reply h
  dsimp only [serve]
  generalize refusals.head?.join = refusal at hreply ⊢
  cases s with
  | begin =>
    cases refusal with
    | none => exact fun _ ↦ rfl
    | some e => exact fun _ ↦ rfl
  | commit =>
    cases refusal with
    | none =>
      rintro w hw
      obtain ⟨c, working, log⟩ := d
      obtain rfl : working = some w := hw
      rfl
    | some e => rfl
  | rollback => cases refusal <;> rfl
  | _ => exact hreply

theorem allows_serve (h : ∀ s t, does s t (tables s t).1 (tables s t).2)
    (st : Database S × List (Option DbError)) (s : Statement) :
    st.1.Allows does s (serve tables st s).1 (serve tables st s).2.1 :=
  allows_serve_of fun _ t _ ↦ h s t

end Database

/-! ## Along the way

What a transaction has done is seen by others only at its end. A constraint on the tables is checked
earlier: it must hold after every statement, also for what only the transaction itself sees. Here a
run is followed statement by statement, and a property of the tables is carried along.

For this a database must also keep its word about refusals. A refused statement of a transaction has
done nothing, or it has done what it says and only the answer is lost.

### Two layers

A conversation may lead a database through many states, and `Always` speaks of all of them. Between
the beginning and the end of a transaction only the open tables change, so there it is enough to
look at these (`Throughout`). The main lemma says that a transaction keeps a property of tables
everywhere if its body keeps it throughout. -/

namespace Program

variable {σ α : Type}

/-- The states of `peer` while a program runs: the one before it, and one after each statement. -/
def trail (peer : Peer σ) : Program α → σ → List σ
  | done _, st => [st]
  | ask s next, st => st :: (next (peer st s).1).trail peer (peer st s).2

theorem run_mem_trail (peer : Peer σ) (p : Program α) (st : σ) :
    (p.run peer st).2.2 ∈ p.trail peer st := by
  induction p generalizing st with
  | done a => exact List.mem_singleton_self st
  | ask s next ih => exact List.mem_cons_of_mem st (ih _ _)

end Program

namespace Database

variable {S : Type} (does : Effects S)

/-- What may come of `x` at `d`, if a refused statement has been carried out as a whole or not at
all. -/
def Takes (d : Database S) (x : Exchange) (d' : Database S) : Prop :=
  d.Allows does x.statement x.answer d' ∧
    ∀ e w w', x.answer = .error e → d.working = some w → d'.working = some w' →
      w' = w ∨ ∃ a, does x.statement w a w'

/-- What may become of the tables `w` that a transaction sees. -/
def Turns (w : S) (x : Exchange) (w' : S) : Prop :=
  match x.answer with
  | .ok a => does x.statement w a w'
  | .error _ => w' = w ∨ ∃ a, does x.statement w a w'

/-- Whether `P` holds now and after each exchange of a conversation, whatever states these lead to.
-/
def Always (P : Database S → Prop) : Database S → List Exchange → Prop
  | d, [] => P d
  | d, x :: talk => P d ∧ ∀ d', d.Takes does x d' → Always P d' talk

/-- Whether the tables that a transaction sees satisfy `P` now and after each exchange. -/
def Throughout (P : S → Prop) : S → List Exchange → Prop
  | w, [] => P w
  | w, x :: talk => P w ∧ ∀ w', Turns does w x w' → Throughout P w' talk

/-- Whether the tables of `d` satisfy `P` outside of transactions and in the open one. -/
def Everywhere (P : S → Prop) (d : Database S) : Prop :=
  P d.committed ∧ ∀ w, d.working = some w → P w

variable {does} {P : S → Prop} {c w w' : S} {log : List S} {d d' : Database S}
  {talk inner rest closing : List Exchange}

theorem everywhere_idle (hc : P c) : Everywhere P ⟨c, none, log⟩ := ⟨hc, nofun⟩

theorem everywhere_open (hc : P c) (hw : P w) : Everywhere P ⟨c, some w, log⟩ := by
  refine ⟨hc, ?_⟩
  rintro _ ⟨⟩
  exact hw

theorem Everywhere.mono {Q : S → Prop} (h : Everywhere P d) (hPQ : ∀ t, P t → Q t) :
    Everywhere Q d :=
  ⟨hPQ _ h.1, fun w hw ↦ hPQ w (h.2 w hw)⟩

/-- In a transaction, only the open tables change. -/
theorem Takes.inside {x : Exchange} (hx : x.statement.isDelimiter = false)
    (h : Takes does ⟨c, some w, log⟩ x d') : ∃ w', d' = ⟨c, some w', log⟩ ∧ Turns does w x w' := by
  obtain ⟨hallows, hrefused⟩ := h
  have hanswers := (allows_iff hx).mp hallows
  obtain ⟨s, answer⟩ := x
  cases answer with
  | ok a =>
    obtain ⟨w', hdoes, rfl⟩ := hanswers
    exact ⟨w', rfl, hdoes⟩
  | error e =>
    obtain ⟨w', rfl⟩ := hanswers
    exact ⟨w', rfl, hrefused e w w' rfl rfl rfl⟩

/-- Whatever the answer, a statement has done nothing or what it says. -/
theorem Turns.eq_or_does {x : Exchange} (h : Turns does w x w') :
    w' = w ∨ ∃ a, does x.statement w a w' := by
  rw [Turns] at h
  split at h
  · exact .inr ⟨_, h⟩
  · exact h

/-! ### Runs -/

/-- What holds along a conversation holds along the run that has it. -/
theorem forall_mem_trail {σ α : Type} {Q : Database S → Prop} {peer : Program.Peer σ}
    {db : σ → Database S} (hpeer : ∀ st s, (db st).Takes does ⟨s, (peer st s).1⟩ (db (peer st s).2))
    {p : Program α} {st : σ} (h : Always does Q (db st) (p.conversation peer st)) :
    ∀ mid ∈ p.trail peer st, Q (db mid) := by
  induction p generalizing st with
  | done a =>
    intro mid hmid
    rwa [List.mem_singleton.mp hmid]
  | ask s next ih =>
    intro mid hmid
    rcases List.mem_cons.mp hmid with rfl | hmid
    · exact h.1
    · exact ih _ (h.2 _ (hpeer st s)) mid hmid

/-! ### Transactions -/

/-- What is kept in the body of a transaction is kept everywhere, if it is kept by what follows. -/
theorem always_append (hinner : ∀ x ∈ inner, x.statement.isDelimiter = false) (hc : P c)
    (h : Throughout does P w inner)
    (hrest : ∀ w', P w' → Always does (Everywhere P) ⟨c, some w', log⟩ rest) :
    Always does (Everywhere P) ⟨c, some w, log⟩ (inner ++ rest) := by
  induction inner generalizing w with
  | nil => exact hrest w h
  | cons x inner ih =>
    obtain ⟨hx, hinner⟩ := List.forall_mem_cons.mp hinner
    refine ⟨everywhere_open hc h.1, fun d' htakes ↦ ?_⟩
    obtain ⟨w', rfl, hturns⟩ := htakes.inside hx
    exact ih hinner (h.2 w' hturns)

variable {α : Type} {body : Action (Ending α)} {ending : Except StoreError (Ending α)}
  {r : Except StoreError α}

/-- However a transaction closes, what is left are the tables before it or those it has seen. -/
theorem always_closing (hclosing : Closing ending closing r) (hc : P c) (hw : P w) :
    Always does (Everywhere P) ⟨c, some w, log⟩ closing := by
  have hopen : Everywhere P ⟨c, some w, log⟩ := everywhere_open hc hw
  have hidle : Everywhere P ⟨c, none, log⟩ := everywhere_idle hc
  cases hclosing with
  | left e answer =>
    refine ⟨hopen, ?_⟩
    rintro _ ⟨rfl, -⟩
    exact hidle
  | abandoned e a =>
    refine ⟨hopen, ?_⟩
    rintro _ ⟨rfl, -⟩
    exact hidle
  | stuck e d answer =>
    refine ⟨hopen, ?_⟩
    rintro _ ⟨rfl, -⟩
    refine ⟨hidle, ?_⟩
    rintro _ ⟨rfl, -⟩
    exact hidle
  | committed a k =>
    refine ⟨hopen, ?_⟩
    rintro d' ⟨hcommit, -⟩
    rw [hcommit w rfl]
    exact everywhere_idle hw
  | lost a d answer =>
    refine ⟨hopen, ?_⟩
    rintro _ ⟨rfl, -⟩
    refine ⟨hidle, ?_⟩
    rintro _ ⟨rfl, -⟩
    exact hidle

/-- **A transaction keeps what its body keeps**, after every statement, whatever is refused. -/
theorem always_transaction (hbody : Careful body) (hc : P c)
    (hinside : ∀ {inner ending}, body.run.Yields inner ending → Throughout does P c inner)
    (h : (transaction body).run.Yields talk r) :
    Always does (Everywhere P) ⟨c, none, log⟩ talk := by
  have hidle : Everywhere P ⟨c, none, log⟩ := everywhere_idle hc
  cases yields_transaction h with
  | refused d =>
    refine ⟨hidle, ?_⟩
    rintro d' ⟨hbegin, -⟩
    rw [hbegin rfl]
    exact hidle
  | begun b hinner hclosing =>
    refine ⟨hidle, ?_⟩
    rintro d' ⟨hbegin, -⟩
    rw [hbegin rfl]
    exact always_append (hbody.inside hinner) hc (hinside hinner) fun w hw ↦
      always_closing hclosing hc hw

/-! ### A database that refuses statements -/

variable {tables : Tables S}

theorem reply_error {s : Statement} {refusal : Option DbError} {e : DbError}
    (h : (reply tables d s refusal).1 = .error e) : (reply tables d s refusal).2 = d := by
  cases refusal with
  | some e' => rfl
  | none =>
    rw [reply] at h
    split at h <;> exact nomatch h

/-- A database made of tables refuses a statement before it has done anything. -/
theorem takes_serve {st : Database S × List (Option DbError)} {s : Statement}
    (h : st.2.head?.join = none → ∀ t, t = st.1.working.getD st.1.committed →
      does s t (tables s t).1 (tables s t).2) :
    st.1.Takes does ⟨s, (serve tables st s).1⟩ (serve tables st s).2.1 := by
  refine ⟨allows_serve_of h, ?_⟩
  obtain ⟨d, refusals⟩ := st
  intro e w w' he hw hw'
  have hsame : ∀ d' : Database S, d' = d → d'.working = some w' → w' = w := by
    rintro _ rfl hw'
    exact Option.some.inj (hw'.symm.trans hw)
  refine .inl ?_
  dsimp only [serve] at he hw'
  generalize refusals.head?.join = refusal at he hw'
  cases s with
  | begin =>
    cases refusal with
    | none => exact nomatch he
    | some e' => exact hsame d rfl hw'
  | commit =>
    cases refusal with
    | none => exact nomatch he
    | some e' => exact nomatch hw'
  | rollback =>
    cases refusal with
    | none => exact nomatch he
    | some e' => exact nomatch hw'
  | _ => exact hsame _ (reply_error he) hw'

end Database

end Pagesmith.Store
