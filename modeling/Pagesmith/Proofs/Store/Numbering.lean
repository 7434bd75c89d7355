import Mathlib.Data.Finset.Card
import Mathlib.Data.Fintype.Card
import Mathlib.Data.List.Sort
import Pagesmith.Proofs.Store.Conversation
import Pagesmith.Proofs.Store.Retrying
import Pagesmith.Store.Pages
import Pagesmith.Store.Versioning

/-!
# Racing for version numbers

Any number of writers take version numbers of one page, each reading the greatest number and then
inserting the next one, and starting again when it has come too late. Their statements may come in
any order. Still the numbers are taken one after the other, each by one writer, and a writer that
may try as often as there are writers gets one.

## Why nobody starves

A writer that comes too late has been overtaken since it has read, so every conflict of one writer
is a success of another one in between. Each writer succeeds once. So a writer meets at most as many
conflicts as there are other writers.

The invariant keeps, for each writer, the number of its conflicts `c`: when it reads, at least `c`
numbers have been taken in the race, and the number it then holds is beyond these.
-/

namespace Pagesmith.Store

/-! ## Programs that share a peer -/

/-- Programs that take turns with one peer. -/
structure Race (σ α : Type) (N : Nat) where
  programs : Fin N → Program α
  shared : σ

def Program.result? {α : Type} : Program α → Option α
  | done a => some a
  | ask .. => none

namespace Race

variable {σ α : Type} {N : Nat} (peer : Program.Peer σ)

/-- The turn of program `i`: one statement and its answer, unless it is done. -/
def turn (race : Race σ α N) (i : Fin N) : Race σ α N :=
  match race.programs i with
  | .done _ => race
  | .ask s next =>
    let (answer, shared) := peer race.shared s
    ⟨Function.update race.programs i (next answer), shared⟩

theorem turn_done {race : Race σ α N} {i : Fin N} {a : α} (h : race.programs i = .done a) :
    race.turn peer i = race := by
  rw [turn, h]

theorem turn_ask {race : Race σ α N} {i : Fin N} {s : Statement}
    {next : Except DbError (Answer s) → Program α} (h : race.programs i = .ask s next) :
    race.turn peer i = ⟨Function.update race.programs i (next (peer race.shared s).1),
      (peer race.shared s).2⟩ := by
  rw [turn, h]

/-- The turns of `schedule`, one after the other. -/
def run (race : Race σ α N) (schedule : List (Fin N)) : Race σ α N :=
  schedule.foldl (turn peer) race

/-- The result of program `i`, once it has ended. -/
def result? (race : Race σ α N) (i : Fin N) : Option α := (race.programs i).result?

end Race

/-! ## The table -/

namespace VersionTable

/-- The table as a database of versions. -/
def peer : Program.Peer VersionTable := fun t s ↦
  match s with
  | .selectGreatestVersion page => (.ok { rows := [.ok (t.greatest page)] }, t)
  | .insertVersion page version blocks editor =>
    match t.insert page version with
    | (.ok version, t) =>
      (.ok { rows := [.ok ⟨.nil, page, version, blocks, editor, .epoch⟩] }, t)
    | (.error _, t) =>
      (.error (.database "" (some DbError.uniqueViolation) (some DbError.versionConstraint)), t)
  | _ => (.ok {}, t)

end VersionTable

/-- A writer of a page. -/
structure Writer where
  attempts : Nat
  blocks : List Block
  editor : Uuid

/-- Keep a block list as the next version, trying again after conflicts. -/
def Writer.program (page : Uuid) (w : Writer) : Program (Except StoreError PageVersion) :=
  (Pages.retrying w.attempts (Versions.snapshot page w.blocks w.editor)).run

/-! ## What a writer is about to do -/

namespace Writer

variable (page : Uuid) (w : Writer)

/-- A writer that is going to read the greatest number, with `left` attempts left after this one. -/
def reading (left attempt : Nat) : Program (Except StoreError PageVersion) :=
  retryFrom (fun _ ↦ pure ()) (fun _ ↦ (Versions.snapshot page w.blocks w.editor).run) left attempt

/-- A writer whose attempt has ended in `r`. -/
def ended (r : Except StoreError PageVersion) :
    (left attempt : Nat) → Program (Except StoreError PageVersion)
  | 0, _ => .done r
  | left + 1, attempt =>
    match r with
    | .ok v => .done (.ok v)
    | .error e => if e.isRetryable then reading page w left (attempt + 1) else .done (.error e)

/-- A writer that is going to insert `version`. -/
def holding (version : Int) (left attempt : Nat) : Program (Except StoreError PageVersion) :=
  .ask (.insertVersion page version w.blocks w.editor) fun answer ↦
    ended page w ((oneRow answer).mapError (.ofVersionInsert page version)) left attempt

theorem run_snapshot (blocks : List Block) (editor : Uuid) :
    (Versions.snapshot page blocks editor).run = .ask (.selectGreatestVersion page) fun asked ↦
      match oneRow asked with
      | .error d => .done (.error (.db d))
      | .ok greatest => (Versions.insert page blocks editor (nextVersion greatest)).run := by
  refine congrArg (Program.ask _) (funext fun asked ↦ ?_)
  rcases asked with d | ⟨_ | ⟨d | greatest, rows⟩, affected⟩ <;> rfl

theorem run_insert_some (blocks : List Block) (editor : Uuid) (version : Int) :
    (Versions.insert page blocks editor (some version)).run =
      .ask (.insertVersion page version blocks editor) fun answer ↦
        .done ((oneRow answer).mapError (.ofVersionInsert page version)) := by
  refine congrArg (Program.ask _) (funext fun answer ↦ ?_)
  rcases answer with d | ⟨_ | ⟨d | v, rows⟩, affected⟩ <;> rfl

theorem reading_eq_bind (left attempt : Nat) :
    reading page w left attempt =
      (Versions.snapshot page w.blocks w.editor).run.bind (ended page w · left attempt) := by
  cases left with
  | zero => exact (Program.bind_done _).symm
  | succ left =>
    refine congrArg (Program.bind _) (funext fun r ↦ ?_)
    cases r <;> rfl

/-- A writer that reads goes on with what it has read. -/
theorem reading_eq (left attempt : Nat) :
    reading page w left attempt = .ask (.selectGreatestVersion page) fun asked ↦
      match oneRow asked with
      | .error d => ended page w (.error (.db d)) left attempt
      | .ok greatest => (Versions.insert page w.blocks w.editor (nextVersion greatest)).run.bind
          (ended page w · left attempt) := by
  rw [reading_eq_bind, run_snapshot]
  refine congrArg (Program.ask _) (funext fun asked ↦ ?_)
  dsimp only
  cases oneRow asked <;> rfl

theorem run_insert_bind (version : Int) (left attempt : Nat) :
    (Versions.insert page w.blocks w.editor (some version)).run.bind (ended page w · left attempt) =
      holding page w version left attempt := by
  rw [run_insert_some]
  rfl

theorem reading_ne_done {left attempt : Nat} {r : Except StoreError PageVersion} :
    reading page w left attempt ≠ .done r := by
  rw [reading_eq]
  exact nofun

theorem ended_ok (v : PageVersion) (left attempt : Nat) :
    ended page w (.ok v) left attempt = .done (.ok v) := by
  cases left <;> rfl

theorem ended_error_ne (e : StoreError) (left attempt : Nat) (v : PageVersion) :
    ended page w (.error e) left attempt ≠ .done (.ok v) := by
  cases left with
  | zero => exact nofun
  | succ left =>
    rw [ended]
    split
    · exact reading_ne_done page w
    · exact nofun

end Writer

/-! ## What is known of a writer -/

/-- What is known of a writer after `turns` turns, in a race that has come from `m` to the greatest
number `k`. -/
inductive Phase (page : Uuid) (w : Writer) (m k turns : Nat) :
    Program (Except StoreError PageVersion) → Prop
  /-- It has met `c` conflicts and is going to read. -/
  | reading {c left : Nat} (attempt : Nat) (hleft : left + c + 1 = max w.attempts 1)
    (hturns : turns = 2 * c) (hc : m + c ≤ k) : Phase page w m k turns (w.reading page left attempt)
  /-- It has met `c` conflicts, and has read when the greatest number was `j`. -/
  | holding {c j left : Nat} (attempt : Nat) (hleft : left + c + 1 = max w.attempts 1)
    (hturns : turns = 2 * c + 1) (hc : m + c ≤ j) (hj : j ≤ k) :
    Phase page w m k turns (w.holding page ((j : Int) + 1) left attempt)
  | succeeded {v : PageVersion} (hfirst : m < v.version) (hlast : v.version ≤ k) :
    Phase page w m k turns (.done (.ok v))
  /-- It has met a conflict in every attempt. -/
  | failed (version : Int) (hk : m + max w.attempts 1 ≤ k) :
    Phase page w m k turns (.done (.error (.versionConflict page version)))

section

variable {page : Uuid} {w : Writer} {t : VersionTable} {m k turns : Nat}
  {p : Program (Except StoreError PageVersion)}

theorem Phase.mono {k' : Nat} (h : Phase page w m k turns p) (hk : k ≤ k') :
    Phase page w m k' turns p := by
  cases h with
  | reading attempt hleft hturns hc => exact .reading attempt hleft hturns (by omega)
  | holding attempt hleft hturns hc hj => exact .holding attempt hleft hturns hc (by omega)
  | succeeded hfirst hlast => exact .succeeded hfirst (by omega)
  | failed version hall => exact .failed version (by omega)

/-- A writer that has ended does not count turns. -/
theorem Phase.of_done {turns' : Nat} {r : Except StoreError PageVersion}
    (h : Phase page w m k turns p) (hp : p = .done r) : Phase page w m k turns' p := by
  cases h with
  | reading => exact absurd hp (w.reading_ne_done page)
  | holding => cases hp
  | succeeded hfirst hlast => exact .succeeded hfirst hlast
  | failed version hall => exact .failed version hall

theorem Phase.of_ok {v : PageVersion} (h : Phase page w m k turns p) (hp : p = .done (.ok v)) :
    m < v.version ∧ v.version ≤ k := by
  cases h with
  | reading => exact absurd hp (w.reading_ne_done page)
  | holding => cases hp
  | succeeded hfirst hlast =>
    cases hp
    exact ⟨hfirst, hlast⟩
  | failed version hall => cases hp

/-- A writer that has failed has met as many conflicts as it may. -/
theorem Phase.ok_or_exhausted {r : Except StoreError PageVersion} (h : Phase page w m k turns p)
    (hp : p = .done r) : (∃ v, r = .ok v) ∨ m + max w.attempts 1 ≤ k := by
  cases h with
  | reading => exact absurd hp (w.reading_ne_done page)
  | holding => cases hp
  | succeeded hfirst hlast =>
    cases hp
    exact .inl ⟨_, rfl⟩
  | failed version hall => exact .inr hall

/-- A writer that goes on has had two turns for each conflict, and at most one more. -/
theorem Phase.done_or_turns_le (h : Phase page w m k turns p) :
    (∃ r, p = .done r) ∨ turns ≤ 2 * (k - m) + 1 := by
  cases h with
  | reading attempt hleft hturns hc => exact .inr (by omega)
  | holding attempt hleft hturns hc hj => exact .inr (by omega)
  | succeeded hfirst hlast => exact .inl ⟨_, rfl⟩
  | failed version hall => exact .inl ⟨_, rfl⟩

theorem phase_program (page : Uuid) (w : Writer) (m : Nat) :
    Phase page w m m 0 (w.program page) := by
  have hprogram : w.program page = w.reading page (w.attempts - 1) 1 := rfl
  rw [hprogram]
  exact .reading (c := 0) 1 (by omega) rfl (by omega)

/-- After a conflict a writer reads again, if it may. -/
theorem phase_ended {c left : Nat} (attempt : Nat) (version : Int)
    (hleft : left + c + 1 = max w.attempts 1) (hturns : turns = 2 * c + 1) (hc : m + (c + 1) ≤ k) :
    Phase page w m k (turns + 1)
      (w.ended page (.error (.versionConflict page version)) left attempt) := by
  cases left with
  | zero => exact .failed version (by omega)
  | succ left => exact .reading (c := c + 1) (attempt + 1) (by omega) (by omega) hc

/-! ## The table in a race -/

theorem mem_numbers {version : Int} : version ∈ t.numbers page ↔ (page, version) ∈ t.rows := by
  simp [VersionTable.numbers]

/-- A number that is not there is inserted. -/
theorem peer_insertVersion {version : Int} {blocks : List Block} {editor : Uuid}
    (h : version ∉ t.numbers page) :
    ∃ t', VersionTable.peer t (.insertVersion page version blocks editor) =
        (.ok { rows := [.ok ⟨.nil, page, version, blocks, editor, .epoch⟩] }, t') ∧
      t'.numbers page = t.numbers page ++ [version] := by
  rw [mem_numbers] at h
  refine ⟨⟨t.rows ++ [(page, version)]⟩, ?_, ?_⟩
  · simp [VersionTable.peer, VersionTable.insert, h]
  · simp [VersionTable.numbers]

/-- A number that is there is refused, and nothing changes. -/
theorem peer_insertVersion_of_mem {version : Int} {blocks : List Block} {editor : Uuid}
    (h : version ∈ t.numbers page) :
    VersionTable.peer t (.insertVersion page version blocks editor) =
      (.error (.database "" (some DbError.uniqueViolation) (some DbError.versionConstraint)),
        t) := by
  rw [mem_numbers] at h
  simp [VersionTable.peer, VersionTable.insert, h]

theorem pairwise_firstNumbers (n : Nat) : (firstNumbers n).Pairwise (· ≤ ·) := by
  rw [firstNumbers, List.pairwise_map]
  exact List.pairwise_le_range.imp fun h ↦ by omega

theorem versions_eq_iff {n : Nat} :
    t.versions page = firstNumbers n ↔ (t.numbers page).Perm (firstNumbers n) := by
  have hsorted : (t.versions page).SortedLE := List.sortedLE_mergeSort
  constructor
  · intro h
    rw [← h]
    exact (List.mergeSort_perm _ _).symm
  · intro h
    have hperm : (t.versions page).Perm (firstNumbers n) := (List.mergeSort_perm _ _).trans h
    exact hperm.eq_of_sortedLE hsorted (pairwise_firstNumbers n).sortedLE

end

/-! ## The race -/

section

variable {N : Nat}

/-- Writers of one page, and their table. -/
def VersionTable.race (t : VersionTable) (page : Uuid) (writers : Fin N → Writer) :
    Race VersionTable (Except StoreError PageVersion) N :=
  ⟨fun i ↦ (writers i).program page, t⟩

/-- What is known of a race after so many `turns` of each writer. -/
structure InRace (page : Uuid) (writers : Fin N → Writer) (m : Nat) (turns : Fin N → Nat)
    (programs : Fin N → Program (Except StoreError PageVersion)) (t : VersionTable)
    (winners : Finset (Fin N)) : Prop where
  stored : (t.numbers page).Perm (firstNumbers (m + winners.card))
  won : ∀ i, i ∈ winners ↔ ∃ v, programs i = .done (.ok v)
  phases : ∀ i, Phase page (writers i) m (m + winners.card) (turns i) (programs i)
  distinct : ∀ i j v v', programs i = .done (.ok v) → programs j = .done (.ok v') →
    v.version = v'.version → i = j

variable {page : Uuid} {writers : Fin N → Writer} {m : Nat} {turns : Fin N → Nat}
  {programs : Fin N → Program (Except StoreError PageVersion)} {t : VersionTable}
  {winners : Finset (Fin N)} {i : Fin N}

theorem inRace_program (h : t.versions page = firstNumbers m) :
    InRace page writers m (fun _ ↦ 0) (fun i ↦ (writers i).program page) t ∅ where
  stored := versions_eq_iff.mp h
  won i := by
    refine ⟨fun hi ↦ absurd hi (Finset.notMem_empty i), ?_⟩
    rintro ⟨v, hv⟩
    exact absurd hv ((writers i).reading_ne_done page)
  phases i := phase_program page (writers i) m
  distinct i _ _ _ hi _ _ := absurd hi ((writers i).reading_ne_done page)

/-- As long as a writer has not won, there is a number left for it. -/
theorem card_winners_lt (h : i ∉ winners) : winners.card < N := by
  have hcard := Finset.card_lt_univ_of_notMem h
  rwa [Fintype.card_fin] at hcard

/-- The turn of a writer that has ended changes nothing. -/
theorem InRace.idle (h : InRace page writers m turns programs t winners)
    {r : Except StoreError PageVersion} (hi : programs i = .done r) :
    InRace page writers m (Function.update turns i (turns i + 1)) programs t winners where
  stored := h.stored
  won := h.won
  phases j := by
    by_cases hj : j = i
    · rw [hj]
      exact (h.phases i).of_done hi
    · rw [Function.update_of_ne hj]
      exact h.phases j
  distinct := h.distinct

/-- A turn that takes no number only concerns the writer itself. -/
theorem InRace.update (h : InRace page writers m turns programs t winners)
    {p : Program (Except StoreError PageVersion)} (hi : i ∉ winners)
    (hp : ∀ v, p ≠ .done (.ok v))
    (hphase : Phase page (writers i) m (m + winners.card) (turns i + 1) p) :
    InRace page writers m (Function.update turns i (turns i + 1))
      (Function.update programs i p) t winners where
  stored := h.stored
  won j := by
    by_cases hj : j = i
    · subst hj
      rw [Function.update_self]
      exact ⟨fun hj ↦ absurd hj hi, fun ⟨v, hv⟩ ↦ absurd hv (hp v)⟩
    · rw [Function.update_of_ne hj]
      exact h.won j
  phases j := by
    by_cases hj : j = i
    · subst hj
      rwa [Function.update_self, Function.update_self]
    · rw [Function.update_of_ne hj, Function.update_of_ne hj]
      exact h.phases j
  distinct j j' v v' hj hj' := by
    have hne {j : Fin N} {v : PageVersion}
        (hj : Function.update programs i p j = .done (.ok v)) : j ≠ i := by
      rintro rfl
      rw [Function.update_self] at hj
      exact hp v hj
    rw [Function.update_of_ne (hne hj)] at hj
    rw [Function.update_of_ne (hne hj')] at hj'
    exact h.distinct j j' v v' hj hj'

/-- A turn that takes a number makes its writer a winner. -/
theorem InRace.win (h : InRace page writers m turns programs t winners) (hi : i ∉ winners)
    {v : PageVersion} (hv : v.version = m + winners.card + 1) {t' : VersionTable}
    (ht : t'.numbers page = t.numbers page ++ [v.version]) :
    InRace page writers m (Function.update turns i (turns i + 1))
      (Function.update programs i (.done (.ok v))) t' (insert i winners) := by
  have hcard : (insert i winners).card = winners.card + 1 := Finset.card_insert_of_notMem hi
  -- the number of the new winner is beyond those of all others
  have hbelow {j : Fin N} {v' : PageVersion} (hj : programs j = .done (.ok v')) :
      v'.version < v.version := by
    have hlast := ((h.phases j).of_ok hj).2
    push_cast at hlast
    omega
  refine ⟨?_, ?_, ?_, ?_⟩
  · rw [hcard, ← Nat.add_assoc, firstNumbers_succ, ht, hv]
    push_cast
    exact h.stored.append_right _
  · intro j
    by_cases hj : j = i
    · subst hj
      rw [Function.update_self]
      exact ⟨fun _ ↦ ⟨v, rfl⟩, fun _ ↦ Finset.mem_insert_self j winners⟩
    · rw [Function.update_of_ne hj, Finset.mem_insert, or_iff_right hj]
      exact h.won j
  · intro j
    by_cases hj : j = i
    · subst hj
      rw [Function.update_self, Function.update_self, hcard]
      have hfirst : (m : Int) < v.version := by omega
      have hlast : v.version ≤ (m + (winners.card + 1) : Nat) := by push_cast; omega
      exact .succeeded hfirst hlast
    · rw [Function.update_of_ne hj, Function.update_of_ne hj]
      exact (h.phases j).mono (by omega)
  · intro j j' v₁ v₂ hj hj' heq
    by_cases hji : j = i <;> by_cases hji' : j' = i
    · rw [hji, hji']
    · subst hji
      rw [Function.update_self] at hj
      rw [Function.update_of_ne hji'] at hj'
      cases hj
      exact absurd heq (hbelow hj').ne'
    · subst hji'
      rw [Function.update_of_ne hji] at hj
      rw [Function.update_self] at hj'
      cases hj'
      exact absurd heq (hbelow hj).ne
    · rw [Function.update_of_ne hji] at hj
      rw [Function.update_of_ne hji'] at hj'
      exact h.distinct j j' v₁ v₂ hj hj' heq

theorem InRace.turn {race : Race VersionTable (Except StoreError PageVersion) N}
    (h : InRace page writers m turns race.programs race.shared winners) (hfit : m + N < 2 ^ 31)
    (i : Fin N) :
    ∃ winners', InRace page writers m (Function.update turns i (turns i + 1))
      (race.turn VersionTable.peer i).programs (race.turn VersionTable.peer i).shared winners' := by
  have hphase := h.phases i
  generalize hp : race.programs i = p at hphase
  cases hphase with
  | @reading c left attempt hleft hturns hc =>
    have hi : i ∉ winners := by
      rw [h.won]
      rintro ⟨v, hv⟩
      exact (writers i).reading_ne_done page (hp.symm.trans hv)
    have hnext : nextVersion (race.shared.greatest page) =
        some (((m + winners.card : Nat) : Int) + 1) :=
      nextVersion_greatest (fun k ↦ h.stored.mem_iff) (by have := card_winners_lt hi; omega)
    have hasked : oneRow (race.shared.peer (.selectGreatestVersion page)).1 =
        .ok (race.shared.greatest page) := rfl
    rw [Writer.reading_eq] at hp
    rw [Race.turn_ask _ hp, hasked]
    dsimp only
    rw [hnext, Writer.run_insert_bind]
    exact ⟨winners, h.update hi (fun _ ↦ nofun) (.holding attempt hleft (by omega) hc le_rfl)⟩
  | @holding c j left attempt hleft hturns hc hj =>
    have hi : i ∉ winners := by
      rw [h.won]
      rintro ⟨v, hv⟩
      exact nomatch hp.symm.trans hv
    rw [Writer.holding] at hp
    rw [Race.turn_ask _ hp]
    -- either someone has won since it has read, or its number is still the next one
    by_cases hlate : j < m + winners.card
    · have hmem : (j : Int) + 1 ∈ race.shared.numbers page :=
        h.stored.mem_iff.mpr (mem_firstNumbers.mpr (by omega))
      rw [peer_insertVersion_of_mem hmem]
      exact ⟨winners, h.update hi (fun v ↦ (writers i).ended_error_ne page _ _ _ v)
        (phase_ended attempt _ hleft hturns (by omega))⟩
    · obtain rfl : j = m + winners.card := by omega
      have hnew : ((m + winners.card : Nat) : Int) + 1 ∉ race.shared.numbers page := by
        rw [h.stored.mem_iff, mem_firstNumbers]
        omega
      obtain ⟨t', hpeer, hnumbers⟩ := peer_insertVersion hnew
      rw [hpeer]
      let v : PageVersion := ⟨.nil, page, ((m + winners.card : Nat) : Int) + 1,
        (writers i).blocks, (writers i).editor, .epoch⟩
      have hwin := h.win hi (v := v) rfl hnumbers
      rw [← (writers i).ended_ok page v left attempt] at hwin
      exact ⟨_, hwin⟩
  | succeeded =>
    rw [Race.turn_done _ hp]
    exact ⟨winners, h.idle hp⟩
  | failed =>
    rw [Race.turn_done _ hp]
    exact ⟨winners, h.idle hp⟩

theorem InRace.run {race : Race VersionTable (Except StoreError PageVersion) N}
    (h : InRace page writers m turns race.programs race.shared winners) (hfit : m + N < 2 ^ 31)
    (schedule : List (Fin N)) :
    ∃ winners', InRace page writers m (fun i ↦ turns i + schedule.count i)
      (race.run VersionTable.peer schedule).programs (race.run VersionTable.peer schedule).shared
      winners' := by
  induction schedule generalizing race turns winners with
  | nil => exact ⟨winners, h⟩
  | cons i schedule ih =>
    obtain ⟨winners', hturn⟩ := h.turn hfit i
    obtain ⟨winners'', hrun⟩ := ih hturn
    refine ⟨winners'', ?_⟩
    have hturns : (fun j ↦ Function.update turns i (turns i + 1) j + schedule.count j) =
        fun j ↦ turns j + (i :: schedule).count j := by
      funext j
      by_cases hj : j = i
      · subst hj
        rw [Function.update_self, List.count_cons_self]
        omega
      · rw [Function.update_of_ne hj, List.count_cons_of_ne (Ne.symm hj)]
    rwa [hturns] at hrun

/-! ## What holds at every moment -/

theorem result?_eq_some_iff {p : Program (Except StoreError PageVersion)}
    {r : Except StoreError PageVersion} : p.result? = some r ↔ p = .done r := by
  cases p <;> simp [Program.result?]

/-- A writer that may try often enough does not fail. -/
theorem InRace.ok_of_done (h : InRace page writers m turns programs t winners)
    (hattempts : N ≤ (writers i).attempts) {r : Except StoreError PageVersion}
    (hi : programs i = .done r) : ∃ v, r = .ok v := by
  by_cases hwon : i ∈ winners
  · obtain ⟨v, hv⟩ := (h.won i).mp hwon
    cases hi.symm.trans hv
    exact ⟨v, rfl⟩
  · rcases (h.phases i).ok_or_exhausted hi with hok | hexhausted
    · exact hok
    · have hcard := card_winners_lt hwon
      omega

/-- A writer that has had turns enough has ended. -/
theorem InRace.exists_done (h : InRace page writers m turns programs t winners)
    (hturns : 2 * N ≤ turns i) : ∃ r, programs i = .done r := by
  by_cases hwon : i ∈ winners
  · obtain ⟨v, hv⟩ := (h.won i).mp hwon
    exact ⟨.ok v, hv⟩
  · rcases (h.phases i).done_or_turns_le with hdone | hle
    · exact hdone
    · have hcard := card_winners_lt hwon
      omega

/-- **Racing for version numbers.** At every moment of every race the numbers have no gap and no two
writers have the same one. If every writer may try as often as there are writers, none fails, each
has ended after two turns for every writer, and when all have, there is a number for each. -/
theorem numbers_of_race {page : Uuid} {m : Nat} {t : VersionTable} (writers : Fin N → Writer)
    (ht : t.versions page = firstNumbers m) (hfit : m + N < 2 ^ 31) (schedule : List (Fin N)) :
    let race := (t.race page writers).run VersionTable.peer schedule
    (∃ k, m ≤ k ∧ k ≤ m + N ∧ race.shared.versions page = firstNumbers k) ∧
    (∀ i j v w, race.result? i = some (.ok v) → race.result? j = some (.ok w) →
      v.version = w.version → i = j) ∧
    ((∀ i, N ≤ (writers i).attempts) →
      (∀ i r, race.result? i = some r → ∃ v, r = .ok v) ∧
      (∀ i, 2 * N ≤ schedule.count i → (race.result? i).isSome) ∧
      ((∀ i, (race.result? i).isSome) → race.shared.versions page = firstNumbers (m + N))) := by
  intro race
  have hstart : InRace page writers m (fun _ ↦ 0) (t.race page writers).programs t ∅ :=
    inRace_program ht
  obtain ⟨winners, h⟩ := hstart.run hfit schedule
  have hstored : race.shared.versions page = firstNumbers (m + winners.card) :=
    versions_eq_iff.mpr h.stored
  refine ⟨⟨m + winners.card, Nat.le_add_right _ _, ?_, hstored⟩, ?_, ?_⟩
  · have hcard := Finset.card_le_univ winners
    rw [Fintype.card_fin] at hcard
    omega
  · intro i j v w hi hj heq
    exact h.distinct i j v w (result?_eq_some_iff.mp hi) (result?_eq_some_iff.mp hj) heq
  · intro hattempts
    have hok {i : Fin N} {r : Except StoreError PageVersion} (hi : race.result? i = some r) :
        ∃ v, r = .ok v := h.ok_of_done (hattempts i) (result?_eq_some_iff.mp hi)
    refine ⟨fun i r ↦ hok, ?_, ?_⟩
    · intro i hturns
      obtain ⟨r, hr⟩ := h.exists_done (i := i) (by omega)
      exact Option.isSome_iff_exists.mpr ⟨r, result?_eq_some_iff.mpr hr⟩
    · intro hended
      have hall : winners = Finset.univ := by
        refine Finset.eq_univ_of_forall fun i ↦ (h.won i).mpr ?_
        obtain ⟨r, hr⟩ := Option.isSome_iff_exists.mp (hended i)
        obtain ⟨v, rfl⟩ := hok hr
        exact ⟨v, result?_eq_some_iff.mp hr⟩
      rw [hstored, hall, Finset.card_univ, Fintype.card_fin]

/-- Two writers read the same number, and the slower one tries again. -/
theorem numbers_of_two_writers :
    let t : VersionTable := ⟨[(⟨1⟩, 1)]⟩
    let race := (t.race ⟨1⟩ fun _ : Fin 2 ↦ ⟨2, [], ⟨3⟩⟩).run VersionTable.peer [0, 1, 0, 1, 1, 1]
    race.shared.versions ⟨1⟩ = firstNumbers 3 := by
  intro t race
  have ht : t.versions ⟨1⟩ = firstNumbers 1 := versions_eq_iff.mpr (.refl _)
  have hended : ∀ i, (race.result? i).isSome := by decide
  exact ((numbers_of_race (fun _ ↦ ⟨2, [], ⟨3⟩⟩) ht (by decide) [0, 1, 0, 1, 1, 1]).2.2
    fun _ ↦ le_rfl).2.2 hended

end

end Pagesmith.Store
