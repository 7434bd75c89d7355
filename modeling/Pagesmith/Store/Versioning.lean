import Pagesmith.Store.Error

/-!
# Version numbers

The versions of a page are numbered from one. A writer reads the greatest number and takes the next
one (`nextVersion`); of two writers that read the same number, the slower one is refused and starts
again, reading included. So a write is an operation that `retryOnConflict` may try several times,
and only a conflict makes it tried again.

Numbers have 32 bits and a sign, so there is a last one, and none after it.
-/

namespace Pagesmith.Store

/-- The greatest number of 32 bits with a sign, `2 ^ 31 - 1`. -/
def lastNumber : Int := 2147483647

/-- The number after `greatest`, or the first. There is none after `lastNumber`. -/
def nextVersion (greatest : Option Int) : Option Int :=
  let next := greatest.getD 0 + 1
  if next ≤ lastNumber then some next else none

theorem nextVersion_eq_some_iff {greatest : Option Int} {n : Int} :
    nextVersion greatest = some n ↔ n = greatest.getD 0 + 1 ∧ n ≤ lastNumber := by
  rw [nextVersion]
  split <;> grind

theorem nextVersion_eq_none_iff {greatest : Option Int} :
    nextVersion greatest = none ↔ lastNumber ≤ greatest.getD 0 := by
  rw [nextVersion]
  split <;> grind

def pauseAfter (attempt : Nat) : Nat := 5 * attempt

section

variable {m : Type → Type} {α : Type} [Monad m]

/-- Try `op` until it ends without a conflict, from attempt `attempt` on, with `left` attempts left
after it. -/
def retryFrom (pause : Nat → m Unit) (op : Nat → m (Except StoreError α)) :
    (left attempt : Nat) → m (Except StoreError α)
  | 0, attempt => op attempt
  | left + 1, attempt => do
    match ← op attempt with
    | .error e =>
      if e.isRetryable then do
        pause (pauseAfter attempt)
        retryFrom pause op left (attempt + 1)
      else return .error e
    | .ok a => return .ok a

/-- Try `op` until it ends without a conflict, at most `maxAttempts` times and at least once.
Attempts are counted from one. -/
def retryOnConflict (maxAttempts : Nat) (pause : Nat → m Unit)
    (op : Nat → m (Except StoreError α)) : m (Except StoreError α) :=
  retryFrom pause op (maxAttempts - 1) 1

end

/-! ## A table of versions

A `VersionTable` holds which page has which versions, each at most once. A writer that takes the
next number may be overtaken by another between its reading and its writing. -/

/-- The versions of all pages. -/
structure VersionTable where
  rows : List (Uuid × Int) := []
deriving DecidableEq, Repr

namespace VersionTable

/-- The version numbers of `page`, in the order in which they were inserted. -/
def numbers (t : VersionTable) (page : Uuid) : List Int :=
  (t.rows.filter fun r ↦ r.1 == page).map (·.2)

def versions (t : VersionTable) (page : Uuid) : List Int := (t.numbers page).mergeSort (· ≤ ·)

def greatest (t : VersionTable) (page : Uuid) : Option Int := (t.numbers page).max?

/-- Insert a version of `page`, unless the page has it. -/
def insert (t : VersionTable) (page : Uuid) (version : Int) :
    Except StoreError Int × VersionTable :=
  if t.rows.contains (page, version) then (.error (.versionConflict page version), t)
  else (.ok version, { t with rows := t.rows ++ [(page, version)] })

def delete (t : VersionTable) (page : Uuid) : VersionTable :=
  { t with rows := t.rows.filter fun r ↦ r.1 != page }

/-- The `n`-th attempt to take the next number of `page`. In the first `races` attempts another
writer is faster. -/
def attempt (page : Uuid) (races n : Nat) : StateM VersionTable (Except StoreError Int) := do
  match nextVersion ((← get).greatest page) with
  | none => return .error .overflow
  | some version =>
    if n ≤ races then modify fun t ↦ (t.insert page version).2
    modifyGet fun t ↦ t.insert page version

/-- Take the next number of `page`, trying again after conflicts. -/
def update (t : VersionTable) (page : Uuid) (maxAttempts races : Nat) :
    Except StoreError Int × VersionTable :=
  (retryOnConflict maxAttempts (fun _ ↦ pure ()) (attempt page races)).run t

end VersionTable

end Pagesmith.Store
