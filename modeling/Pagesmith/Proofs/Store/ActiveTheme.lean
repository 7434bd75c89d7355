import Pagesmith.Proofs.Store.ThemeTable
import Pagesmith.Proofs.Store.Writes

/-!
# The active theme of a tenant

A tenant never has two active themes, not even for a moment: any calls may be made one after the
other, any statements may be refused, and after every single statement each tenant has at most one
active theme (`AtMostOneActive`), also in what only the open transaction sees. So a unique index on
the active themes has nothing to refuse.

A call that fails has changed nothing. An activation that succeeds has made the theme the active one
of its tenant, and it succeeds if the theme is the tenant's and no statement is refused. Whatever
becomes of it, the themes of other tenants are what they were.
-/

namespace Pagesmith.Store

open Database

/-! ## Statements of an activation -/

namespace ThemeTable

variable {c w w' : ThemeTable} {log : List ThemeTable} {d' : Database ThemeTable}
  {tenant theme : Uuid} {talk inner : List Exchange} {x : Theme}

/-- What holds of the tables `w` at any time while `tenant` makes a call over `c`: there is at most
one active theme of each tenant, and other tenants' themes are untouched. -/
def KeptSince (c : ThemeTable) (tenant : Uuid) (w : ThemeTable) : Prop :=
  w.AtMostOneActive ∧ c.SameElsewhere tenant w

theorem eq_of_turns_lock {locked : Except DbError (Answer (.lockThemes tenant))}
    (h : Turns does w ⟨.lockThemes tenant, locked⟩ w') : w' = w := by
  rcases h.eq_or_does with heq | ⟨a, -, heq⟩
  · exact heq
  · exact heq

theorem KeptSince.deactivate {others : Except DbError (Answer (.deactivateOthers tenant theme))}
    (hw : c.KeptSince tenant w) (h : Turns does w ⟨.deactivateOthers tenant theme, others⟩ w') :
    c.KeptSince tenant w' := by
  rcases h.eq_or_does with rfl | ⟨a, hdoes⟩
  · exact hw
  · have hsame : w.SameElsewhere tenant w' := sameElsewhere_deactivate hdoes
    exact ⟨hw.1.of_onlyActive hsame (onlyActive_deactivate hdoes), hw.2.trans hsame⟩

/-- The theme may be made active once it is known to be the tenant's, and no other one is active. -/
theorem KeptSince.activate {activated : Except DbError (Answer (.activateTheme theme))}
    (hw : c.KeptSince tenant w) (howns : w.Owns tenant theme) (honly : w.OnlyActive tenant theme)
    (h : Turns does w ⟨.activateTheme theme, activated⟩ w') : c.KeptSince tenant w' := by
  rcases h.eq_or_does with rfl | ⟨a, hdoes⟩
  · exact hw
  · have hsame : w.SameElsewhere tenant w' := sameElsewhere_activate hdoes howns
    exact ⟨hw.1.of_onlyActive hsame (onlyActive_activate hdoes honly), hw.2.trans hsame⟩

/-- Locked identifiers that could be read tell whose theme it is. -/
theorem owns_of_turns_lock {locked : Except DbError (Answer (.lockThemes tenant))}
    {ids : List Uuid} (h : Turns does w ⟨.lockThemes tenant, locked⟩ w')
    (hids : allRows locked = .ok ids) : ids.contains theme = true ↔ w.Owns tenant theme := by
  cases locked with
  | error e => cases hids
  | ok a => exact contains_iff_owns h hids

theorem throughout_activateBody {ending : Except StoreError (Ending Theme)}
    (hc : c.AtMostOneActive) (h : (Themes.activateBody tenant theme).run.Yields inner ending) :
    Throughout does (c.KeptSince tenant) c inner := by
  have hkept : c.KeptSince tenant c := ⟨hc, .refl c tenant⟩
  -- the same two updates are sent whether or not the last one is answered as it must be
  have hboth {locked : Except DbError (Answer (.lockThemes tenant))} {ids : List Uuid}
      {others : Answer (.deactivateOthers tenant theme)}
      {activated : Except DbError (Answer (.activateTheme theme))}
      (hids : allRows locked = .ok ids) (hthere : ids.contains theme = true) :
      Throughout does (c.KeptSince tenant) c [⟨.lockThemes tenant, locked⟩,
        ⟨.deactivateOthers tenant theme, .ok others⟩, ⟨.activateTheme theme, activated⟩] := by
    refine ⟨hkept, fun w hlock ↦ ?_⟩
    have howns : c.Owns tenant theme := (owns_of_turns_lock hlock hids).mp hthere
    rw [eq_of_turns_lock hlock]
    refine ⟨hkept, fun w hturns ↦ ?_⟩
    have hw : c.KeptSince tenant w := hkept.deactivate hturns
    have hothers : does (.deactivateOthers tenant theme) c others w := hturns
    refine ⟨hw, fun w' hactivated ↦ ?_⟩
    exact hw.activate (owns_deactivate hothers howns) (onlyActive_deactivate hothers) hactivated
  cases Themes.yields_activateBody h with
  | unlocked hids =>
    refine ⟨hkept, fun w hlock ↦ ?_⟩
    rwa [eq_of_turns_lock hlock]
  | absent hids habsent =>
    refine ⟨hkept, fun w hlock ↦ ?_⟩
    rwa [eq_of_turns_lock hlock]
  | undeactivated d hids hthere =>
    refine ⟨hkept, fun w hlock ↦ ?_⟩
    rw [eq_of_turns_lock hlock]
    exact ⟨hkept, fun w hothers ↦ hkept.deactivate hothers⟩
  | unactivated hids hthere hactivate => exact hboth hids hthere
  | activated hids hthere hactivate => exact hboth hids hthere

/-! ## Whole activations -/

/-- Whether `theme` is the active one of `tenant`. -/
def IsTheActive (t : ThemeTable) (tenant theme : Uuid) : Prop :=
  (∃ x ∈ t.themes, x.tenant = tenant ∧ x.id = theme ∧ x.active = true) ∧
    ∀ x ∈ t.themes, x.tenant = tenant → x.id ≠ theme → x.active = false

/-- An answered statement of a transaction has done to the tables what it says. -/
theorem through_answered {s : Statement} {a : Answer s} (hs : s.isDelimiter = false)
    (h : Through does ⟨c, some w, log⟩ (⟨s, .ok a⟩ :: talk) d') :
    ∃ w', does s w a w' ∧ Through does ⟨c, some w', log⟩ talk d' := by
  cases h with
  | cons hx hrest =>
    obtain ⟨w', hdoes, rfl⟩ := (allows_iff hs).mp hx
    exact ⟨w', hdoes, hrest⟩

/-- An activation that comes to its end has made its theme the active one. -/
theorem isTheActive_of_activateBody
    (h : (Themes.activateBody tenant theme).run.Yields inner (.ok (.complete x)))
    (hthrough : Through does ⟨c, some c, log⟩ inner ⟨c, some w, log⟩) :
    x ∈ w.themes ∧ x.id = theme ∧ w.IsTheActive tenant theme := by
  cases Themes.yields_activateBody h with
  | @activated locked ids others activated x hids hthere hactivate =>
    cases locked with
    | error e => cases hids
    | ok a =>
      obtain ⟨_, hlock, hthrough⟩ := through_answered rfl hthrough
      obtain ⟨-, rfl⟩ := id hlock
      have howns : Owns _ tenant theme := (contains_iff_owns hlock hids).mp hthere
      obtain ⟨w', hothers, hthrough⟩ := through_answered rfl hthrough
      cases activated with
      | error e => cases hactivate
      | ok b =>
        obtain ⟨w'', hactivated, ⟨⟩⟩ := through_answered rfl hthrough
        obtain ⟨hmem, hid, hactive⟩ := active_of_activate hactivated hactivate
        have hsame := sameElsewhere_activate hactivated (owns_deactivate hothers howns)
        have honly := onlyActive_activate hactivated (onlyActive_deactivate hothers)
        have htenant : x.tenant = tenant := by
          by_contra hne
          have howns' := owns_activate hactivated (owns_deactivate hothers howns)
          exact id_ne_of_owns howns' hmem hne hid
        refine ⟨hmem, hid, ⟨x, hmem, htenant, hid, hactive⟩, ?_⟩
        · intro y hy htenant hne
          exact Bool.eq_false_iff.mpr fun hyactive ↦ hne (honly y hy htenant hyactive)

theorem exists_allRows_of_lock {a : Answer (.lockThemes tenant)}
    (h : does (.lockThemes tenant) c a w) : ∃ ids, allRows (.ok a) = .ok ids :=
  ⟨_, allRows_of_rows h.1.choose_spec.1⟩

/-- Where no statement of its body is refused, it is decided by whose theme it is how an activation
ends. -/
theorem ending_of_acknowledged {ending : Except StoreError (Ending Theme)} {rest : List Exchange}
    (h : (Themes.activateBody tenant theme).run.Yields inner ending)
    (hthrough : Through does ⟨c, some c, log⟩ (inner ++ rest) d')
    (hall : ∀ y ∈ inner, y.Acknowledged) :
    (c.Owns tenant theme ∧ ∃ x, ending = .ok (.complete x)) ∨
      (¬c.Owns tenant theme ∧ ending = .ok (.abandon (.themeNotFound theme))) := by
  have hyields := Themes.yields_activateBody h
  -- the tenant's themes are locked first, whatever comes after that
  obtain ⟨locked, after, rfl⟩ : ∃ locked after, inner = ⟨.lockThemes tenant, locked⟩ :: after := by
    cases hyields <;> exact ⟨_, _, rfl⟩
  obtain ⟨a, rfl⟩ : ∃ a, locked = .ok a := hall _ List.mem_cons_self
  obtain ⟨_, hlock, hthrough⟩ := through_answered rfl hthrough
  obtain ⟨-, rfl⟩ := id hlock
  cases hyields with
  | unlocked hids =>
    obtain ⟨ids, hids'⟩ := exists_allRows_of_lock hlock
    exact nomatch hids.symm.trans hids'
  | absent hids habsent =>
    refine .inr ⟨fun howns ↦ ?_, rfl⟩
    rw [(contains_iff_owns hlock hids).mpr howns] at habsent
    exact nomatch habsent
  | undeactivated d hids hthere =>
    obtain ⟨_, ⟨⟩⟩ := hall _ (List.mem_cons_of_mem _ List.mem_cons_self)
  | @unactivated _ ids others activated d hids hthere hactivate =>
    have howns := (contains_iff_owns hlock hids).mp hthere
    obtain ⟨w, hothers, hthrough⟩ := through_answered rfl hthrough
    have hlast : Exchange.Acknowledged ⟨.activateTheme theme, activated⟩ := hall _ (by simp)
    obtain ⟨b, rfl⟩ : ∃ b, activated = .ok b := hlast
    obtain ⟨w', hactivated, -⟩ := through_answered rfl hthrough
    obtain ⟨x, hx⟩ := exists_row_of_activate hactivated (owns_deactivate hothers howns)
    exact nomatch hactivate.symm.trans hx
  | @activated _ ids others activated x hids hthere hactivate =>
    exact .inl ⟨(contains_iff_owns hlock hids).mp hthere, x, rfl⟩

/-- Where no statement is refused, an activation ends as its body does. -/
theorem result_of_acknowledged {r : Except StoreError Theme}
    (h : (Themes.activate tenant theme).run.Yields talk r)
    (hthrough : Through does ⟨c, none, log⟩ talk d') (hall : ∀ y ∈ talk, y.Acknowledged) :
    (c.Owns tenant theme ∧ ∃ x, r = .ok x) ∨
      (¬c.Owns tenant theme ∧ r = .error (.themeNotFound theme)) := by
  cases yields_transaction h with
  | refused d =>
    obtain ⟨_, ⟨⟩⟩ := hall _ List.mem_cons_self
  | @begun b inner closing ending r hinner hclosing =>
    obtain _ | ⟨hbegin, hrest⟩ := hthrough
    rw [hbegin rfl] at hrest
    have hinside : ∀ y ∈ inner, y.Acknowledged := fun y hy ↦
      hall y (List.mem_cons_of_mem _ (List.mem_append_left _ hy))
    have hend : ∀ y ∈ closing, y.Acknowledged := fun y hy ↦
      hall y (List.mem_cons_of_mem _ (List.mem_append_right _ hy))
    obtain ⟨howns, x, rfl⟩ | ⟨howns, rfl⟩ := ending_of_acknowledged hinner hrest hinside
    · exact .inl ⟨howns, x, hclosing.eq_ok_of_acknowledged hend⟩
    · exact .inr ⟨howns, hclosing.eq_error_of_acknowledged hend⟩

end ThemeTable

/-! ## Calls -/

/-- A call that writes themes. -/
inductive ThemeCall
  | create (tenant : Uuid) (name : String) (settings : Json)
  | activate (tenant theme : Uuid)
deriving DecidableEq, Repr

namespace ThemeCall

/-- The tenant that makes a call. -/
def tenant : ThemeCall → Uuid
  | create tenant _ _ => tenant
  | activate tenant _ => tenant

/-- What a call does. -/
def action : ThemeCall → Action Theme
  | create tenant name settings => (Themes.create tenant name settings).action
  | activate tenant theme => Themes.activate tenant theme

variable {σ : Type}

/-- The peer after calls that are made one after the other. -/
def after (peer : Program.Peer σ) : List ThemeCall → σ → σ
  | [], st => st
  | call :: calls, st => after peer calls (call.action.run.run peer st).2.2

/-- The states of the peer on the way. -/
def trail (peer : Program.Peer σ) : List ThemeCall → σ → List σ
  | [], st => [st]
  | call :: calls, st =>
    call.action.run.trail peer st ++ trail peer calls (call.action.run.run peer st).2.2

end ThemeCall

/-- What is asked of a database before a call, and holds after it. -/
structure OneActive (d : Database ThemeTable) : Prop where
  /-- No transaction is open. -/
  idle : d.working = none
  atMostOne : d.committed.AtMostOneActive

section

variable {d d' : Database ThemeTable} {call : ThemeCall} {talk : List Exchange}
  {r : Except StoreError Theme}

open ThemeTable

/-- A call `Always` keeps what is to be kept after every statement. -/
theorem always_of_call (hd : OneActive d) (h : call.action.run.Yields talk r) :
    Always does (Everywhere (d.committed.KeptSince call.tenant)) d talk := by
  obtain ⟨c, working, log⟩ := d
  obtain rfl : working = none := hd.idle
  have hkept : c.KeptSince call.tenant c := ⟨hd.atMostOne, .refl c _⟩
  cases call with
  | create tenant name settings =>
    obtain ⟨answer, rfl, -⟩ := asks_fetchOne.action _ _ h
    refine ⟨everywhere_idle hkept, ?_⟩
    rintro d' ⟨hallows, -⟩
    cases answer with
    | error e =>
      obtain rfl : d' = _ := hallows
      exact everywhere_idle hkept
    | ok a =>
      obtain ⟨c', hdoes, rfl⟩ := hallows
      exact everywhere_idle
        ⟨atMostOneActive_insert hdoes hd.atMostOne, sameElsewhere_insert hdoes⟩
  | activate tenant theme =>
    exact always_transaction Themes.careful_activateBody hkept
      (fun hinner ↦ throughout_activateBody hd.atMostOne hinner) h

/-- A call that fails has changed nothing, and after any call no transaction is open. -/
theorem unchanged_or_idle (hd : d.working = none) (h : call.action.run.Yields talk r)
    (hthrough : Through does d talk d') :
    d'.working = none ∧ ∀ e, r = .error e → d' = d := by
  obtain ⟨c, working, log⟩ := d
  obtain rfl : working = none := hd
  cases call with
  | create tenant name settings =>
    obtain ⟨answer, rfl, rfl⟩ := asks_fetchOne.action _ _ h
    obtain _ | ⟨hanswers, ⟨⟩⟩ := hthrough
    cases answer with
    | error e =>
      obtain rfl : d' = _ := hanswers
      exact ⟨rfl, fun _ _ ↦ rfl⟩
    | ok a =>
      obtain ⟨c', ⟨x, -, -, -, -, hrows, -⟩, rfl⟩ := hanswers
      refine ⟨rfl, ?_⟩
      -- the new row comes back, so this call has not failed
      obtain ⟨rows, affected⟩ := a
      obtain rfl : rows = [.ok x] := hrows
      exact nofun
  | activate tenant theme =>
    cases outcome_transaction Themes.careful_activateBody h hthrough with
    | nothing e => exact ⟨rfl, fun _ _ ↦ rfl⟩
    | happened hbody hinner => exact ⟨rfl, nofun⟩

theorem isTheActive_of_activate {tenant theme : Uuid} {x : Theme} (hd : d.working = none)
    (h : (Themes.activate tenant theme).run.Yields talk (.ok x))
    (hthrough : Through does d talk d') :
    x ∈ d'.committed.themes ∧ x.id = theme ∧ d'.committed.IsTheActive tenant theme := by
  obtain ⟨c, working, log⟩ := d
  obtain rfl : working = none := hd
  cases outcome_transaction Themes.careful_activateBody h hthrough with
  | happened hbody hinner => exact isTheActive_of_activateBody hbody hinner

end

/-! ## Any calls -/

section

variable {σ : Type} {peer : Program.Peer σ} {db : σ → Database ThemeTable}

open ThemeTable

theorem oneActive_of_call
    (hpeer : ∀ st s, (db st).Takes does ⟨s, (peer st s).1⟩ (db (peer st s).2)) {st : σ}
    (hst : OneActive (db st)) (call : ThemeCall) :
    OneActive (db (call.action.run.run peer st).2.2) := by
  have hyields := Program.yields_conversation peer call.action.run st
  have hend := Program.run_mem_trail peer call.action.run st
  have hkept := forall_mem_trail hpeer (always_of_call hst hyields) _ hend
  have hthrough := through_conversation (fun st s ↦ (hpeer st s).1) call.action.run st
  exact ⟨(unchanged_or_idle hst.idle hyields hthrough).1, hkept.1.1⟩

theorem oneActive_after
    (hpeer : ∀ st s, (db st).Takes does ⟨s, (peer st s).1⟩ (db (peer st s).2)) {st : σ}
    (hst : OneActive (db st)) (calls : List ThemeCall) :
    OneActive (db (ThemeCall.after peer calls st)) := by
  induction calls generalizing st with
  | nil => exact hst
  | cons call calls ih => exact ih (oneActive_of_call hpeer hst call)

theorem atMostOneActive_trail
    (hpeer : ∀ st s, (db st).Takes does ⟨s, (peer st s).1⟩ (db (peer st s).2)) {st : σ}
    (hst : OneActive (db st)) (calls : List ThemeCall) :
    ∀ mid ∈ ThemeCall.trail peer calls st, Everywhere AtMostOneActive (db mid) := by
  induction calls generalizing st with
  | nil =>
    intro mid hmid
    rw [List.mem_singleton.mp hmid]
    refine ⟨hst.atMostOne, fun w hw ↦ ?_⟩
    rw [hst.idle] at hw
    exact nomatch hw
  | cons call calls ih =>
    intro mid hmid
    rcases List.mem_append.mp hmid with hmid | hmid
    · have halways := always_of_call hst (Program.yields_conversation peer call.action.run st)
      exact (forall_mem_trail hpeer halways mid hmid).mono fun _ h ↦ h.1
    · exact ih (oneActive_of_call hpeer hst call) mid hmid

/-- **The active theme.** Whatever is refused, after every statement of any calls each tenant has at
most one active theme. The next call changes nothing if it fails, and at no time does it touch
themes of other tenants. If it is an activation and succeeds, its theme is the active one of the
tenant; and where no statement is refused, it succeeds if the theme is one of the tenant's, and
otherwise says that it is not. -/
theorem oneActive_everywhere
    (hpeer : ∀ st s, (db st).Takes does ⟨s, (peer st s).1⟩ (db (peer st s).2)) {st : σ}
    (hst : OneActive (db st)) (calls : List ThemeCall) :
    (∀ mid ∈ ThemeCall.trail peer calls st, Everywhere AtMostOneActive (db mid)) ∧
      ∀ call : ThemeCall,
        let st' := ThemeCall.after peer calls st
        let next := call.action.run.run peer st'
        (∀ e, next.1 = .error e → db next.2.2 = db st') ∧
          (∀ mid ∈ call.action.run.trail peer st',
            Everywhere ((db st').committed.KeptSince call.tenant) (db mid)) ∧
          ∀ tenant theme, call = .activate tenant theme →
            (∀ x, next.1 = .ok x → x ∈ (db next.2.2).committed.themes ∧ x.id = theme ∧
              (db next.2.2).committed.IsTheActive tenant theme) ∧
            ((∀ y ∈ call.action.run.conversation peer st', y.Acknowledged) →
              ((db st').committed.Owns tenant theme ∧ ∃ x, next.1 = .ok x) ∨
                (¬(db st').committed.Owns tenant theme ∧
                  next.1 = .error (.themeNotFound theme))) := by
  refine ⟨atMostOneActive_trail hpeer hst calls, fun call ↦ ?_⟩
  intro st' next
  have hst' : OneActive (db st') := oneActive_after hpeer hst calls
  have hyields : call.action.run.Yields (call.action.run.conversation peer st') next.1 :=
    Program.yields_conversation peer _ st'
  have hthrough := through_conversation (fun st s ↦ (hpeer st s).1) call.action.run st'
  refine ⟨?_, ?_, ?_⟩
  · exact (unchanged_or_idle hst'.idle hyields hthrough).2
  · exact forall_mem_trail hpeer (always_of_call hst' hyields)
  · rintro tenant theme rfl
    constructor
    · intro x hx
      rw [hx] at hyields
      exact isTheActive_of_activate hst'.idle hyields hthrough
    · intro hall
      have hidle : db st' = ⟨(db st').committed, none, (db st').log⟩ := by
        rw [← hst'.idle]
      rw [hidle] at hthrough
      exact result_of_acknowledged hyields hthrough hall

/-- Of two themes the first is made active, and the commit of the second activation is refused. What
is another tenant's is not found. -/
theorem oneActive_after_refused_commit :
    let calls : List ThemeCall := [
      .create ⟨7⟩ "light" .null, .create ⟨7⟩ "dark" .null, .create ⟨8⟩ "plain" .null,
      .activate ⟨7⟩ ⟨1⟩, .activate ⟨7⟩ ⟨2⟩]
    let st := ((⟨{}, none, []⟩ : Database ThemeTable), List.replicate 12 none ++ [some .poolClosed])
    let st' := ThemeCall.after ThemeTable.serve calls st
    let next := (Themes.activate ⟨7⟩ ⟨3⟩).run.run ThemeTable.serve st'
    OneActive st.1 ∧
      (∀ mid ∈ ThemeCall.trail ThemeTable.serve calls st, Everywhere AtMostOneActive mid.1) ∧
      st'.1.committed.themes.map (·.active) = [false, false, true] ∧
      next.1 = .error (.themeNotFound ⟨3⟩) ∧ next.2.2.1 = st'.1 := by
  intro calls st st' next
  have hst : OneActive st.1 := ⟨rfl, fun _ ↦ Nat.zero_le 1⟩
  obtain ⟨hall, hnext⟩ := oneActive_everywhere ThemeTable.takes_serve hst calls
  have hmissing : next.1 = .error (.themeNotFound ⟨3⟩) := rfl
  exact ⟨hst, hall, rfl, hmissing, (hnext (.activate ⟨7⟩ ⟨3⟩)).1 _ hmissing⟩

end

end Pagesmith.Store
