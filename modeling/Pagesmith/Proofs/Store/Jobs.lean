import Pagesmith.Proofs.Block.Session
import Pagesmith.Proofs.Store.LastNumber
import Pagesmith.Store.Operator

/-!
# Jobs

A job prints while it asks, and what it has printed stays printed if it fails. So of a job one wants
to know what is said in it, how it ends, and what has been printed by then. `Does` relates these,
and each way of building jobs has one lemma that takes it apart.

Two rules are then carried over from the parts of a job to the whole: a job that prints nothing
before it may fail has printed nothing when it fails, and a job whose parts send nothing but selects
sends nothing else. A panic among the failures needs a page that has the last version number.
-/

namespace Pagesmith.Store

/-- Whether the text of `s` is a select. -/
def Statement.IsSelect (s : Statement) : Prop := ∃ rest, s.sql = "SELECT " ++ rest

/-- Whether nothing was sent but selects. -/
def OnlySelects (talk : List Exchange) : Prop := ∀ x ∈ talk, x.statement.IsSelect

theorem onlySelects_nil : OnlySelects [] := fun _ hx ↦ absurd hx List.not_mem_nil

namespace Operator

/-! ## What a job says and prints -/

section

variable {ε α β : Type} {x : Job α} {f : α → Job β} {talk : List Exchange} {r : Except Failure α}
  {before after : String}

/-- Whether `x` may say `talk` and end in `r`, with `before` printed in front and `after` behind it.
-/
def Does (x : Job α) (before : String) (talk : List Exchange) (r : Except Failure α)
    (after : String) : Prop := (x.run.run before).Yields talk (r, after)

theorem does_pure {a : α} (h : Does (pure a) before talk r after) :
    talk = [] ∧ r = .ok a ∧ after = before := by
  obtain ⟨rfl, heq⟩ := Program.yields_pure h
  cases heq
  exact ⟨rfl, rfl, rfl⟩

theorem does_throw {e : Failure} (h : Does (throw e) before talk r after) :
    talk = [] ∧ r = .error e ∧ after = before := by
  obtain ⟨rfl, heq⟩ := Program.yields_pure h
  cases heq
  exact ⟨rfl, rfl, rfl⟩

theorem does_ofExcept {q : Except Failure α}
    (h : Does (MonadExcept.ofExcept q) before talk r after) :
    talk = [] ∧ r = q ∧ after = before := by
  cases q with
  | error e => exact does_throw h
  | ok a => exact does_pure h

theorem does_print {s : String} {r : Except Failure Unit} (h : Does (print s) before talk r after) :
    talk = [] ∧ r = .ok () ∧ after = before ++ s := by
  obtain ⟨rfl, heq⟩ := Program.yields_pure h
  cases heq
  exact ⟨rfl, rfl, rfl⟩

/-- A program prints nothing. -/
theorem does_ofProgram {fail : ε → Failure} {p : ExceptT ε Program α}
    (h : Does (ofProgram fail p) before talk r after) :
    after = before ∧ ∃ q, p.run.Yields talk q ∧ r = q.mapError fail := by
  obtain ⟨said, q', rest, rfl, hp, hpure⟩ := Program.yields_bind h
  obtain ⟨rfl, heq⟩ := Program.yields_pure hpure
  cases heq
  obtain ⟨q, hq, rfl⟩ := Program.yields_map hp
  exact ⟨rfl, q, by rwa [List.append_nil], rfl⟩

/-- What comes after a part is done only if the part ends without a failure. -/
theorem does_bind {r : Except Failure β} (h : Does (x >>= f) before talk r after) :
    (∃ e, r = .error e ∧ Does x before talk (.error e) after) ∨
      ∃ front a middle rest, talk = front ++ rest ∧ Does x before front (.ok a) middle ∧
        Does (f a) middle rest r after := by
  rw [Does, ExceptT.run_bind, StateT.run_bind] at h
  obtain ⟨front, ⟨q, middle⟩, rest, rfl, hx, hf⟩ := Program.yields_bind h
  cases q with
  | error e =>
    obtain ⟨rfl, heq⟩ := Program.yields_pure hf
    cases heq
    exact .inl ⟨e, rfl, by rwa [List.append_nil]⟩
  | ok a => exact .inr ⟨front, a, middle, rest, rfl, hx, hf⟩

/-- A program whose result is printed fails without having printed, or ends with its line. -/
theorem does_ofProgram_print {fail : ε → Failure} {p : ExceptT ε Program α} {line : α → String}
    {r : Except Failure Unit}
    (h : Does (ofProgram fail p >>= fun a ↦ print (line a)) before talk r after) :
    ∃ q, p.run.Yields talk q ∧
      ((∃ e, q = .error e ∧ r = .error (fail e) ∧ after = before) ∨
        ∃ a, q = .ok a ∧ r = .ok () ∧ after = before ++ line a) := by
  obtain ⟨e, rfl, hx⟩ | ⟨front, a, middle, rest, rfl, hx, hprint⟩ := does_bind h
  · obtain ⟨rfl, q, hq, hr⟩ := does_ofProgram hx
    obtain ⟨e, rfl, rfl⟩ := mapError_eq_error_iff.mp hr.symm
    exact ⟨_, hq, .inl ⟨e, rfl, rfl, rfl⟩⟩
  · obtain ⟨rfl, q, hq, hr⟩ := does_ofProgram hx
    obtain rfl := mapError_eq_ok_iff.mp hr.symm
    obtain ⟨rfl, rfl, rfl⟩ := does_print hprint
    exact ⟨_, by rwa [List.append_nil], .inr ⟨a, rfl, rfl, rfl⟩⟩

end

/-! ## How jobs fail -/

/-- Whether `f` is an error, or a panic that `talk` accounts for. -/
def Explains (talk : List Exchange) (f : Failure) : Prop :=
  f.exit = 1 ∨ f.exit = 101 ∧ ∃ x ∈ talk, x.TellsLast

/-- Whether `x` has printed nothing where it fails, and panics only where the numbers have ended. -/
def FailsClean {α : Type} (x : Job α) : Prop :=
  ∀ before talk f after, Does x before talk (.error f) after → after = before ∧ Explains talk f

/-- Whether a job prints nothing where it does not fail. -/
def Quiet {α : Type} (x : Job α) : Prop :=
  ∀ before talk a after, Does x before talk (.ok a) after → after = before

/-- Whether a job cannot fail. -/
def NeverFails {α : Type} (x : Job α) : Prop :=
  ∀ before talk e after, ¬Does x before talk (.error e) after

section

variable {ε α β : Type} {x : Job α} {f : α → Job β}

theorem explains_ofDb (talk : List Exchange) (d : DbError) : Explains talk (.ofDb d) := .inl rfl

theorem explains_ofStore {talk : List Exchange} {e : StoreError}
    (h : e = .overflow → ∃ x ∈ talk, x.TellsLast) : Explains talk (.ofStore e) := by
  cases e with
  | overflow => exact .inr ⟨rfl, h rfl⟩
  | _ => exact .inl rfl

theorem countsOn_loadRegistry : CountsOn Types.loadRegistry := by
  intro talk r h
  obtain ⟨answer, rfl, rfl⟩ := Types.asks_loadRegistry _ _ h
  refine numbered_singleton rfl fun heq ↦ ?_
  obtain hrows | ⟨types, -, hload⟩ := bind_eq_error_iff.mp heq
  · obtain ⟨d, -, hd⟩ := mapError_eq_error_iff.mp hrows
    cases hd
  · obtain ⟨e, -, he⟩ := mapError_eq_error_iff.mp hload
    cases he

theorem countsOn_activate {tenant theme : Uuid} : CountsOn (Themes.activate tenant theme) := by
  refine .transaction ?_ fun talk e h ↦ ?_
  · refine .bind (.of_query asks_fetchAll rfl) fun themes ↦ ?_
    split
    · exact .bind (.of_query asks_execute rfl) fun _ ↦ .bind (.fetchOne rfl) fun t ↦ .pure _
    · exact .pure _
  · cases Themes.yields_activateBody h with
    | absent hlock hthere => exact nofun

theorem failsClean_ofExcept {q : Except Failure α} (h : ∀ e, q = .error e → e.exit = 1) :
    FailsClean (MonadExcept.ofExcept q) := by
  intro before talk e after hdoes
  obtain ⟨rfl, heq, rfl⟩ := does_ofExcept hdoes
  exact ⟨rfl, .inl (h e heq.symm)⟩

theorem failsClean_throw (text : String) (causes : List String) :
    FailsClean (throw (.error text causes) : Job α) :=
  failsClean_ofExcept (q := .error (.error text causes)) fun e he ↦ by cases he; rfl

theorem failsClean_ofProgram {fail : ε → Failure} {p : ExceptT ε Program α}
    (h : ∀ talk e, p.run.Yields talk (.error e) → Explains talk (fail e)) :
    FailsClean (ofProgram fail p) := by
  intro before talk e after hdoes
  obtain ⟨rfl, q, hq, hr⟩ := does_ofProgram hdoes
  obtain ⟨e, rfl, rfl⟩ := mapError_eq_error_iff.mp hr.symm
  exact ⟨rfl, h talk e hq⟩

theorem failsClean_ofQuery (q : Query α) : FailsClean (ofQuery q) :=
  failsClean_ofProgram fun talk d _ ↦ explains_ofDb talk d

theorem failsClean_ofAction {a : Action α} (h : CountsOn a) : FailsClean (ofAction a) := by
  refine failsClean_ofProgram fun talk e hyields ↦ explains_ofStore fun he ↦ ?_
  exact (h _ _ hyields).exists_tellsLast (congrArg Except.error he)

theorem quiet_ofExcept (q : Except Failure α) : Quiet (MonadExcept.ofExcept q) :=
  fun _ _ _ _ h ↦ (does_ofExcept h).2.2

theorem quiet_ofProgram (fail : ε → Failure) (p : ExceptT ε Program α) :
    Quiet (ofProgram fail p) :=
  fun _ _ _ _ h ↦ (does_ofProgram h).1

/-- A job `FailsClean` if what may fail in it comes before what prints. -/
theorem FailsClean.bind (hx : FailsClean x) (hquiet : Quiet x) (hf : ∀ a, FailsClean (f a)) :
    FailsClean (x >>= f) := by
  intro before talk e after h
  obtain ⟨e', heq, hdoes⟩ | ⟨front, a, middle, rest, rfl, hfront, hrest⟩ := does_bind h
  · cases heq
    exact hx _ _ _ _ hdoes
  · obtain ⟨rfl, hexplains⟩ := hf a _ _ _ _ hrest
    refine ⟨hquiet _ _ _ _ hfront, hexplains.imp_right fun ⟨hexit, y, hy, hlast⟩ ↦ ?_⟩
    exact ⟨hexit, y, List.mem_append_right front hy, hlast⟩

theorem neverFails_print (s : String) : NeverFails (print s) :=
  fun _ _ _ _ h ↦ nomatch (does_print h).2.1

theorem NeverFails.bind (hx : NeverFails x) (hf : ∀ a, NeverFails (f a)) :
    NeverFails (x >>= f) := by
  intro before talk e after h
  obtain ⟨e', -, hdoes⟩ | ⟨front, a, middle, rest, -, -, hrest⟩ := does_bind h
  · exact hx _ _ _ _ hdoes
  · exact hf a _ _ _ _ hrest

theorem neverFails_forM {γ : Type} {f : γ → Job Unit} (hf : ∀ c, NeverFails (f c))
    (items : List γ) : NeverFails (items.forM f) := by
  induction items with
  | nil => exact fun _ _ _ _ h ↦ nomatch (does_pure h).2.1
  | cons c items ih => exact (hf c).bind fun _ ↦ ih

theorem NeverFails.failsClean (h : NeverFails x) : FailsClean x :=
  fun _ _ _ _ hdoes ↦ absurd hdoes (h _ _ _ _)

end

/-! ## Jobs that only look -/

/-- Whether `x` sends nothing but selects. -/
def OnlyLooks {α : Type} (x : Job α) : Prop :=
  ∀ before talk r after, Does x before talk r after → OnlySelects talk

section

variable {ε α β : Type} {x : Job α} {f : α → Job β}

theorem onlyLooks_throw (e : Failure) : OnlyLooks (throw e : Job α) := by
  intro before talk r after h
  rw [(does_throw h).1]
  exact onlySelects_nil

theorem onlyLooks_pure (a : α) : OnlyLooks (pure a : Job α) := by
  intro before talk r after h
  rw [(does_pure h).1]
  exact onlySelects_nil

theorem onlyLooks_print (s : String) : OnlyLooks (print s) := by
  intro before talk r after h
  rw [(does_print h).1]
  exact onlySelects_nil

theorem onlyLooks_ofProgram {s : Statement} (hs : s.IsSelect) {fail : ε → Failure}
    {p : ExceptT ε Program α} {read : Except DbError (Answer s) → Except ε α} (hp : Asks p s read) :
    OnlyLooks (ofProgram fail p) := by
  intro before talk r after h
  obtain ⟨-, q, hq, -⟩ := does_ofProgram h
  obtain ⟨answer, rfl, -⟩ := hp _ _ hq
  exact List.forall_mem_singleton.mpr hs

theorem OnlyLooks.bind (hx : OnlyLooks x) (hf : ∀ a, OnlyLooks (f a)) : OnlyLooks (x >>= f) := by
  intro before talk r after h
  obtain ⟨e, -, hdoes⟩ | ⟨front, a, middle, rest, rfl, hfront, hrest⟩ := does_bind h
  · exact hx _ _ _ _ hdoes
  · exact List.forall_mem_append.mpr ⟨hx _ _ _ _ hfront, hf a _ _ _ _ hrest⟩

theorem onlyLooks_forM {γ : Type} {f : γ → Job Unit} (hf : ∀ c, OnlyLooks (f c)) (items : List γ) :
    OnlyLooks (items.forM f) := by
  induction items with
  | nil => exact onlyLooks_pure ()
  | cons c items ih => exact (hf c).bind fun _ ↦ ih

end

end Operator

end Pagesmith.Store
