import Mathlib.Algebra.Group.Int.Defs
import Mathlib.Algebra.Group.Nat.Defs
import Mathlib.Order.Nat
import Pagesmith.Store.Versioning

/-!
# The retry loop

An operation is tried again after a conflict and after nothing else, until it ends otherwise or no
attempt is left. To see how often this is, and with which numbers, the operation here is one whose
outcomes are given, and it keeps a record, of `Event`s: its attempts and the pauses between them.

Attempts are counted in 32 bits, and pauses in nanoseconds in 64 bits. Neither number grows too
large.
-/

/-! ## The first version numbers

A history without gaps has the `firstNumbers`, from one on and each once. The next number of such a
history is the one that continues it, as long as it fits. -/

namespace Pagesmith.Store

/-- The numbers from 1 to `n`. -/
def firstNumbers (n : Nat) : List Int := (List.range n).map fun i : Nat ↦ (i : Int) + 1

theorem firstNumbers_succ (n : Nat) : firstNumbers (n + 1) = firstNumbers n ++ [(n : Int) + 1] := by
  rw [firstNumbers, List.range_succ, List.map_append]
  rfl

theorem mem_firstNumbers {n : Nat} {k : Int} : k ∈ firstNumbers n ↔ 1 ≤ k ∧ k ≤ n := by
  rw [firstNumbers, List.mem_map]
  constructor
  · rintro ⟨i, hi, rfl⟩
    have := List.mem_range.mp hi
    omega
  · rintro ⟨h, h'⟩
    refine ⟨(k - 1).toNat, List.mem_range.mpr ?_, ?_⟩ <;> omega

/-- After the first numbers comes the next one. -/
theorem nextVersion_greatest {l : List Int} {n : Nat} (h : ∀ k, k ∈ l ↔ k ∈ firstNumbers n)
    (hn : n + 1 < 2 ^ 31) : nextVersion l.max? = some ((n : Int) + 1) := by
  have hgetD : l.max?.getD 0 = n := by
    cases hmax : l.max? with
    | none =>
      obtain rfl := List.max?_eq_none_iff.mp hmax
      cases n with
      | zero => rfl
      | succ n =>
        have : (1 : Int) ∈ firstNumbers (n + 1) := mem_firstNumbers.mpr (by omega)
        exact absurd ((h 1).mpr this) List.not_mem_nil
    | some m =>
      obtain ⟨hm, hle⟩ := List.max?_eq_some_iff.mp hmax
      have hbounds := mem_firstNumbers.mp ((h m).mp hm)
      have hlast : (n : Int) ≤ m := hle n ((h n).mpr (mem_firstNumbers.mpr (by omega)))
      rw [Option.getD_some]
      omega
  rw [nextVersion_eq_some_iff, hgetD, lastNumber]
  omega

/-! ## Retrying -/

/-- Whether an operation has ended in a conflict about a version. -/
def IsConflict {α : Type} (r : Except StoreError α) : Prop :=
  ∃ page version, r = .error (.versionConflict page version)

theorem isConflict_error_iff {α : Type} {e : StoreError} :
    IsConflict (.error e : Except StoreError α) ↔ e.isRetryable = true := by
  cases e <;> simp [IsConflict, StoreError.isRetryable]

theorem not_isConflict_ok {α : Type} (a : α) : ¬IsConflict (.ok a : Except StoreError α) := nofun

namespace Retry

/-- What a retry loop does. -/
inductive Event
  | attempt (n : Nat)
  | pause (milliseconds : Nat)
deriving DecidableEq, Repr

/-- All that is done when the attempts from `first` on are followed by `more` of them. -/
def events (first more : Nat) : List Event :=
  (List.range' first more).flatMap (fun n ↦ [.attempt n, .pause (5 * n)]) ++
    [.attempt (first + more)]

theorem events_succ (first more : Nat) :
    events first (more + 1) = .attempt first :: .pause (5 * first) :: events (first + 1) more := by
  rw [events, events, List.range'_succ, List.flatMap_cons, Nat.add_right_comm first 1 more]
  rfl

/-- Whether the machine's numbers are enough for an event: 32 bits for an attempt, and 64 bits for
the nanoseconds of a pause. -/
def Event.Fits : Event → Prop
  | attempt n => n < 2 ^ 32
  | pause milliseconds => milliseconds * 10 ^ 6 < 2 ^ 64

theorem fits_of_mem_events {first more : Nat} (h : first + more < 2 ^ 32) {e : Event}
    (he : e ∈ events first more) : e.Fits := by
  rcases List.mem_append.mp he with he | he
  · obtain ⟨n, hn, he⟩ := List.mem_flatMap.mp he
    have hlt := (List.mem_range'_1.mp hn).2
    simp only [List.mem_cons, List.not_mem_nil, or_false] at he
    rcases he with rfl | rfl <;> simp only [Event.Fits] <;> omega
  · cases List.mem_singleton.mp he
    exact h

section

variable {α : Type}

/-- An operation with the outcomes `outcome`, which keeps a record of its attempts. -/
def recorded (outcome : Nat → Except StoreError α) (n : Nat) :
    StateM (List Event) (Except StoreError α) := do
  modify (· ++ [.attempt n])
  return outcome n

def recordedPause (milliseconds : Nat) : StateM (List Event) Unit :=
  modify (· ++ [.pause milliseconds])

/-- Whether `k` is the attempt at which a retry loop has to stop. -/
structure StopsAt (limit : Nat) (outcome : Nat → Except StoreError α) (k : Nat) : Prop where
  pos : 1 ≤ k
  le : k ≤ limit
  before : ∀ n, 1 ≤ n → n < k → IsConflict (outcome n)
  stop : k = limit ∨ ¬IsConflict (outcome k)

variable {outcome : Nat → Except StoreError α} {first : Nat}

theorem run_retryFrom_of_conflict (h : IsConflict (outcome first)) (left : Nat)
    (log : List Event) :
    (retryFrom recordedPause (recorded outcome) (left + 1) first).run log =
      (retryFrom recordedPause (recorded outcome) left (first + 1)).run
        (log ++ [.attempt first, .pause (5 * first)]) := by
  obtain ⟨page, version, h⟩ := h
  simp [retryFrom, recorded, recordedPause, h, StoreError.isRetryable, pauseAfter]

theorem run_retryFrom_of_not_conflict (h : ¬IsConflict (outcome first)) (left : Nat)
    (log : List Event) :
    (retryFrom recordedPause (recorded outcome) left first).run log =
      (outcome first, log ++ [.attempt first]) := by
  cases left with
  | zero => rfl
  | succ left =>
    cases houtcome : outcome first with
    | ok a =>
      simp only [retryFrom, recorded, houtcome, bind_assoc, pure_bind, StateT.run_bind]
      rfl
    | error e =>
      rw [houtcome, isConflict_error_iff] at h
      simp only [retryFrom, recorded, houtcome, bind_assoc, pure_bind, StateT.run_bind, if_neg h]
      rfl

/-- From an attempt on, the loop goes through conflicts to the attempt that it stops at. -/
theorem run_retryFrom (outcome : Nat → Except StoreError α) (left first : Nat) :
    ∃ more ≤ left, (∀ n, first ≤ n → n < first + more → IsConflict (outcome n)) ∧
      (more = left ∨ ¬IsConflict (outcome (first + more))) ∧
      ∀ log, (retryFrom recordedPause (recorded outcome) left first).run log =
        (outcome (first + more), log ++ events first more) := by
  induction left generalizing first with
  | zero => exact ⟨0, le_rfl, fun n hn hlt ↦ absurd hlt hn.not_gt, .inl rfl, fun log ↦ rfl⟩
  | succ left ih =>
    by_cases hconflict : IsConflict (outcome first)
    · obtain ⟨more, hle, hbefore, hstop, hrun⟩ := ih (first + 1)
      rw [Nat.add_right_comm first 1 more] at hbefore hstop hrun
      refine ⟨more + 1, Nat.succ_le_succ hle, fun n hn hlt ↦ ?_, ?_, fun log ↦ ?_⟩
      · rcases hn.eq_or_lt with rfl | hn
        · exact hconflict
        · exact hbefore n hn hlt
      · exact hstop.imp_left (congrArg Nat.succ)
      · rw [run_retryFrom_of_conflict hconflict, hrun, events_succ, List.append_assoc]
        rfl
    · exact ⟨0, Nat.zero_le _, fun n hn hlt ↦ absurd hlt hn.not_gt, .inr hconflict,
        run_retryFrom_of_not_conflict hconflict _⟩

/-- **How often an operation is tried.** It is tried up to the first attempt that does not meet a
conflict, or up to the last one allowed, and the outcome of this attempt is what is returned. -/
theorem run_retryOnConflict (maxAttempts : Nat) (outcome : Nat → Except StoreError α) :
    ∃ k, StopsAt (max maxAttempts 1) outcome k ∧
      ∀ log, (retryOnConflict maxAttempts recordedPause (recorded outcome)).run log =
        (outcome k, log ++ events 1 (k - 1)) := by
  obtain ⟨more, hle, hbefore, hstop, hrun⟩ := run_retryFrom outcome (maxAttempts - 1) 1
  refine ⟨1 + more, ⟨Nat.le_add_right 1 more, by omega, hbefore, ?_⟩, ?_⟩
  · exact hstop.imp_left fun h ↦ by omega
  · rwa [Nat.add_sub_cancel_left]

theorem StopsAt.fits {maxAttempts k : Nat} {outcome : Nat → Except StoreError α}
    (h : StopsAt (max maxAttempts 1) outcome k) (hmax : maxAttempts < 2 ^ 32) {e : Event}
    (he : e ∈ events 1 (k - 1)) : e.Fits := by
  have hpos := h.pos
  have hle := h.le
  exact fits_of_mem_events (by omega) he

end

end Retry

end Pagesmith.Store
