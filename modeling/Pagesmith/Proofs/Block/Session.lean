import Pagesmith.Proofs.Block.Registry
import Pagesmith.Proofs.Page.Isolation
import Pagesmith.Proofs.Store.Conversation
import Pagesmith.Store.Setup

/-!
# What is live

Whatever is done with a session, and whatever the database answers, the live registry is what the
rows of the last call that has loaded any make up as a whole. So no one renders with a registry that
is not the complete result of a load, and from such a registry a block comes out in one of three
ways.

## Calls

A session is followed through *calls*. One that has rows either makes the registry of all of them
live or fails and leaves the session alone; there is nothing between the two
(`Session.Call.ComesTo`). The rest of this module only reads that off. To say what the live registry
goes back to, the rows of the last load are kept beside the session (`Session.Followed`); no call
looks at them.
-/

namespace Pagesmith

open Store

/-! ## Registries that have been loaded -/

/-- Whether `r` is what some definitions load to. -/
def Registry.Loaded (r : Registry) : Prop := ∃ definitions, load definitions = .ok r

/-- A loaded registry has each type under the name of its definition, which is not blank. -/
theorem Registry.Loaded.name_of_find? {r : Registry} {name : String} {t : CompiledType}
    (h : r.Loaded) (hfind : r.find? name = some t) :
    t.definition.name = name ∧ ¬t.definition.HasBlankName := by
  obtain ⟨definitions, hload⟩ := h
  obtain ⟨hmem, hname, -⟩ := ((holds_of_load hload).find?_iff name t).mp hfind
  exact ⟨hname, (acceptable_of_load hload).named _ hmem⟩

namespace Page

/-- How `b` may come out of `r`: as a text, with its type unknown, or failed in its template. -/
inductive ComesOut (r : Registry) (b : Block) : Except BlockError String → Prop
  | text (hcontains : r.contains b.type = true) (text : String) : ComesOut r b (.ok text)
  | unknown (hcontains : r.contains b.type = false) :
    ComesOut r b (.error (.unknownType b.type))
  /-- The error is about the type of the block, which has a name. -/
  | failed (hcontains : r.contains b.type = true)
    (hname : ∃ c ∈ b.type.toList, Text.isBlank c = false) (detail : String) :
    ComesOut r b (.error (.render b.type detail))

theorem comesOut_renderBlock {r : Registry} (h : r.Loaded) (year : Int) (b : Block) :
    ComesOut r b (renderBlock r year b) := by
  have hcontains {t : CompiledType} (hfind : r.find? b.type = some t) :
      r.contains b.type = true := by
    rw [Registry.contains, hfind, Option.isSome_some]
  generalize hfragment : fragment r year b = s
  cases hfragment ▸ fragmentOf_fragment r year b with
  | text hfind _ hrender =>
    rw [hrender]
    exact .text (hcontains hfind) _
  | unknown hno hrender =>
    rw [hrender]
    exact .unknown hno
  | @failed t _ cause hfind _ hrender =>
    obtain ⟨hname, hblank⟩ := h.name_of_find? hfind
    rw [BlockType.HasBlankName, hname] at hblank
    push Not at hblank
    obtain ⟨c, hc, hvisible⟩ := hblank
    rw [hrender, hname]
    exact .failed (hcontains hfind) ⟨c, hc, Bool.eq_false_iff.mpr hvisible⟩ _

end Page

/-! ## Rows of the database -/

namespace Store.Types

/-- The block types in an answer of the database, if all rows can be read. -/
def rowsOf (answer : Except DbError (Answer .selectEnabledTypes)) :
    Except DbError (List BlockType) :=
  (allRows answer).map (List.map TypeRecord.blockType)

theorem asks_listEnabled : Asks listEnabled .selectEnabledTypes rowsOf :=
  asks_fetchAll.bind_of_reads fun _ ↦ rfl

theorem asks_loadRegistry : Asks loadRegistry .selectEnabledTypes fun answer ↦
    ((rowsOf answer).mapError .db).bind fun types ↦ (Registry.load types).mapError .registry :=
  asks_listEnabled.action.bind_of_reads fun _ ↦ rfl

/-- A reload sends one statement, and is a reload with the rows of the answer. -/
theorem run_reload {σ : Type} (peer : Program.Peer σ) (s : Session) (st : σ) :
    (reload s).run peer st =
      (match rowsOf (peer st .selectEnabledTypes).1 with
        | .error d => (.error (.db d), s)
        | .ok rows => ((s.reload rows).1.mapError .registry, (s.reload rows).2),
      [.selectEnabledTypes], (peer st .selectEnabledTypes).2) := by
  have hrows := asks_listEnabled.action.run_eq peer st
  rw [reload]
  show (Program.bind listEnabled.action.run _).run peer st = _
  rw [Program.run_bind, hrows]
  cases rowsOf (peer st .selectEnabledTypes).1 with
  | error d => rfl
  | ok rows => rfl

end Store.Types

/-! ## Calls -/

namespace Session

/-- What may be done with a session. -/
inductive Call
  | reload (definitions : List BlockType)
  /-- Make a registry live that has been loaded. -/
  | replace {r : Registry} {definitions : List BlockType}
    (hload : Registry.load definitions = .ok r)
  /-- Load what the database holds. -/
  | reloadStored
  | hold (name : String)

namespace Call

def Counts : Call → Prop
  | reload _ | reloadStored => True
  | replace _ | hold _ => False

instance : DecidablePred Counts
  | reload _ | reloadStored => isTrue trivial
  | replace _ | hold _ => isFalse id

variable {σ : Type} (peer : Program.Peer σ)

/-- Make a call: what it says, or why it fails; then the session and the database. -/
def perform (s : Session) (st : σ) : Call → Except StoreError (Option Nat) × Session × σ
  | reload definitions =>
    let (result, s) := s.reload definitions
    ((result.mapError .registry).map some, s, st)
  | @replace r _ _ => (.ok none, s.replace r, st)
  | reloadStored =>
    let ((result, s), _, st) := (Types.reload s).run peer st
    (result.map some, s, st)
  | hold name => (.ok none, s.hold name, st)

/-- The rows that a call has to load, if it gets any. -/
def rows? (st : σ) : Call → Option (List BlockType)
  | reload definitions => some definitions
  | @replace _ definitions _ => some definitions
  | reloadStored => (Types.rowsOf (peer st .selectEnabledTypes).1).toOption
  | hold _ => none

end Call

theorem reload_of_load_eq_error {definitions : List BlockType} {e : BlockError}
    (h : Registry.load definitions = .error e) (s : Session) :
    s.reload definitions = (.error e, s) := by
  rw [reload, h]

theorem reload_of_load_eq_ok {definitions : List BlockType} {r : Registry}
    (h : Registry.load definitions = .ok r) (s : Session) :
    s.reload definitions = (.ok r.size, s.replace r) := by
  rw [reload, h]

/-! ## Following a session -/

/-- A session and its database, with the rows of the last call that has loaded any. -/
structure Followed (σ : Type) where
  session : Session
  database : σ
  rows : List BlockType

namespace Followed

variable {σ : Type}

/-- A new session. -/
def start (st : σ) : Followed σ := ⟨{}, st, []⟩

section

variable (peer : Program.Peer σ) (f : Followed σ)

def answer (call : Call) : Except StoreError (Option Nat) :=
  (call.perform peer f.session f.database).1

def next (call : Call) : Followed σ where
  session := (call.perform peer f.session f.database).2.1
  database := (call.perform peer f.session f.database).2.2
  rows :=
    match f.answer peer call with
    | .ok _ => (call.rows? peer f.database).getD f.rows
    | .error _ => f.rows

def after (calls : List Call) : Followed σ := calls.foldl (next peer) f

/-- What may come of `call`: what it says, the session, and the rows that have been loaded last. -/
inductive Turns (call : Call) : Except StoreError (Option Nat) → Session → List BlockType → Prop
  | held {name : String} (hcall : call = .hold name) :
    Turns call (.ok none) (f.session.hold name) f.rows
  /-- The database has given no rows. -/
  | unread {d : DbError} (hcall : ∀ name, call ≠ .hold name)
    (hrows : call.rows? peer f.database = none) : Turns call (.error (.db d)) f.session f.rows
  | refused {rows : List BlockType} {e : BlockError}
    (hrows : call.rows? peer f.database = some rows) (hload : Registry.load rows = .error e) :
    Turns call (.error (.registry e)) f.session f.rows
  | loaded {rows : List BlockType} {r : Registry} (hrows : call.rows? peer f.database = some rows)
    (hload : Registry.load rows = .ok r) :
    Turns call (.ok (if call.Counts then some r.size else none)) (f.session.replace r) rows

/-- Whether the registries of a session have all been loaded, the live one from the rows that are
kept. -/
structure Sound : Prop where
  live : Registry.load f.rows = .ok f.session.live
  held : ∀ name r, (name, r) ∈ f.session.held → r.Loaded

end

variable {peer : Program.Peer σ} {f : Followed σ}

theorem turns_next (peer : Program.Peer σ) (f : Followed σ) (call : Call) :
    f.Turns peer call (f.answer peer call) (f.next peer call).session (f.next peer call).rows := by
  cases call with
  | hold name => exact .held rfl
  | replace hload => exact .loaded rfl hload
  | reload definitions =>
    rw [next, answer, Call.perform]
    cases hload : Registry.load definitions with
    | error e =>
      rw [reload_of_load_eq_error hload]
      exact .refused rfl hload
    | ok r =>
      rw [reload_of_load_eq_ok hload]
      exact .loaded rfl hload
  | reloadStored =>
    rw [next, answer, Call.perform, Types.run_reload]
    cases hanswer : Types.rowsOf (peer f.database .selectEnabledTypes).1 with
    | error d =>
      have hrows : Call.reloadStored.rows? peer f.database = none := by
        rw [Call.rows?, hanswer]
        rfl
      exact .unread nofun hrows
    | ok rows =>
      -- from here on it is a reload with the rows of the answer
      have hrows : Call.reloadStored.rows? peer f.database = some rows := by
        rw [Call.rows?, hanswer]
        rfl
      rw [hrows]
      cases hload : Registry.load rows with
      | error e =>
        simp only [reload_of_load_eq_error hload]
        exact .refused hrows hload
      | ok r =>
        simp only [reload_of_load_eq_ok hload]
        exact .loaded hrows hload

theorem sound_start (st : σ) : (start st).Sound := ⟨rfl, nofun⟩

theorem Sound.next (h : f.Sound) (call : Call) : (f.next peer call).Sound := by
  -- all that is known of the call is how it may turn out
  have hturns := turns_next peer f call
  generalize f.next peer call = g at hturns ⊢
  generalize f.answer peer call = result at hturns
  obtain ⟨s, st, rows⟩ := g
  cases hturns with
  | held _ =>
    refine ⟨h.live, fun name r hr ↦ ?_⟩
    rcases List.mem_cons.mp hr with heq | hr
    · cases heq
      exact ⟨f.rows, h.live⟩
    · exact h.held name r hr
  | unread _ _ => exact ⟨h.live, h.held⟩
  | refused _ _ => exact ⟨h.live, h.held⟩
  | loaded _ hload => exact ⟨hload, h.held⟩

theorem Sound.after (h : f.Sound) (calls : List Call) : (f.after peer calls).Sound := by
  induction calls generalizing f with
  | nil => exact h
  | cons call calls ih => exact ih (h.next call)

/-- What is kept under a name stays until something else is kept under it. -/
theorem lookup_held_next {name : String} {call : Call} (hcall : call ≠ .hold name) :
    (f.next peer call).session.held.lookup name = f.session.held.lookup name := by
  have hturns := turns_next peer f call
  generalize (f.next peer call).session = s, (f.next peer call).rows = rows at hturns ⊢
  generalize f.answer peer call = result at hturns
  cases hturns with
  | @held other hother =>
    -- a registry in front, but under another name
    have hne : (name == other) = false := beq_eq_false_iff_ne.mpr fun heq ↦ hcall (heq ▸ hother)
    show List.lookup name ((other, f.session.live) :: f.session.held) = _
    rw [List.lookup_cons, hne]
  | unread _ _ => rfl
  | refused _ _ => rfl
  | loaded _ _ => rfl

theorem lookup_held_after {name : String} {calls : List Call}
    (hcalls : ∀ call ∈ calls, call ≠ .hold name) :
    (f.after peer calls).session.held.lookup name = f.session.held.lookup name := by
  induction calls generalizing f with
  | nil => rfl
  | cons call calls ih =>
    rw [List.forall_mem_cons] at hcalls
    exact (ih hcalls.2).trans (lookup_held_next hcalls.1)

theorem session_next_of_error {call : Call} {e : StoreError} (h : f.answer peer call = .error e) :
    (f.next peer call).session = f.session := by
  have hturns := turns_next peer f call
  rw [h] at hturns
  generalize (f.next peer call).session = s, (f.next peer call).rows = rows at hturns ⊢
  cases hturns with
  | unread _ _ => rfl
  | refused _ _ => rfl

theorem answer_eq_of_counts {call : Call} (hcounts : call.Counts) {n : Option Nat}
    (h : f.answer peer call = .ok n) :
    n = some (enabledTypes (f.next peer call).rows).length := by
  have hturns := turns_next peer f call
  rw [h] at hturns
  generalize (f.next peer call).session = s, (f.next peer call).rows = rows at hturns ⊢
  cases hturns with
  | held hcall =>
    subst hcall
    exact hcounts.elim
  | loaded _ hload => rw [if_pos hcounts, (Registry.holds_of_load hload).size_eq]

/-- A call that is to make something live does so if it gets rows and these can be loaded. -/
theorem exists_answer_eq_ok_iff {call : Call} (hcall : ∀ name, call ≠ .hold name) :
    (∃ n, f.answer peer call = .ok n) ↔ ∃ rows r,
      call.rows? peer f.database = some rows ∧ Registry.load rows = .ok r := by
  have hturns := turns_next peer f call
  generalize f.answer peer call = result at hturns ⊢
  generalize (f.next peer call).session = s, (f.next peer call).rows = rows at hturns
  cases hturns with
  | held hcall' => exact absurd hcall' (hcall _)
  | unread _ hrows =>
    refine ⟨nofun, ?_⟩
    rintro ⟨rows, r, hrows', -⟩
    exact nomatch hrows.symm.trans hrows'
  | refused hrows hload =>
    refine ⟨nofun, ?_⟩
    rintro ⟨rows, r, hrows', hload'⟩
    cases hrows.symm.trans hrows'
    exact nomatch hload.symm.trans hload'
  | loaded hrows hload => exact ⟨fun _ ↦ ⟨_, _, hrows, hload⟩, fun _ ↦ ⟨_, rfl⟩⟩

/-- **What is live.** After any calls the live registry is all that the rows of the last load make
up. The next call leaves the session alone if it fails; it fails only if it gets no rows or these
cannot be loaded; and if it counts, it counts the rows that are enabled. A registry that is held is
the same whatever is called later, unless its name is used again, so it renders what it rendered.
And from each registry that is live or held, every block comes out in one of three ways. -/
theorem live_loaded_as_a_whole (peer : Program.Peer σ) (st : σ) (calls : List Call) :
    let f := (start st).after peer calls
    Registry.load f.rows = .ok f.session.live ∧
    (∀ call e, f.answer peer call = .error e → (f.next peer call).session = f.session) ∧
    (∀ call, (∀ name, call ≠ .hold name) →
      ((∃ n, f.answer peer call = .ok n) ↔
        ∃ rows r, call.rows? peer f.database = some rows ∧ Registry.load rows = .ok r)) ∧
    (∀ call n, call.Counts → f.answer peer call = .ok n →
      n = some (enabledTypes (f.next peer call).rows).length) ∧
    (∀ name later, (∀ call ∈ later, call ≠ .hold name) →
      ((f.next peer (.hold name)).after peer later).session.registryFor (some name) =
        f.session.live) ∧
    ∀ r, r = f.session.live ∨ (∃ name, (name, r) ∈ f.session.held) →
      ∀ year b, Page.ComesOut r b (Page.renderBlock r year b) := by
  intro f
  have hsound : f.Sound := (sound_start st).after calls
  refine ⟨hsound.live, ?_, ?_, ?_, ?_, ?_⟩
  · intro call e h
    exact session_next_of_error h
  · intro call hcall
    exact exists_answer_eq_ok_iff hcall
  · intro call n hcounts h
    exact answer_eq_of_counts hcounts h
  · intro name later hlater
    have hheld : (f.next peer (.hold name)).session.held.lookup name = some f.session.live :=
      List.lookup_cons_self
    rw [registryFor, Option.bind_some, lookup_held_after hlater, hheld, Option.getD_some]
  · rintro r hr year b
    have hloaded : r.Loaded := by
      rcases hr with rfl | ⟨name, hr⟩
      · exact ⟨f.rows, hsound.live⟩
      · exact hsound.held name r hr
    exact Page.comesOut_renderBlock hloaded year b

end Followed

end Session

end Pagesmith
