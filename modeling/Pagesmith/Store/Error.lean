import Pagesmith.Block.Registry
import Pagesmith.Store.Config
import Pagesmith.Store.Record

/-!
# Errors of the store

A database error is reported as it came, with one exception: an insertion of a version that the
database refuses because the page has that version already means that another writer was faster.
That is a `versionConflict`, and the only error after which it makes sense to try again.

Where the version numbers of a page have come to their end, adding to the last one is an `overflow`.
This is a panic. It leaves a transaction as an error does, and ends the attempts at a write as any
error does that is no conflict, but nobody is given it: it ends the program.
-/

namespace Pagesmith.Store

/-- What can go wrong between the store and the database. -/
inductive DbError
  /-- The database has refused a statement. -/
  | database (message : String) (code constraint : Option String)
  | protocol (message : String)
  | columnNotFound (name : String)
  /-- A column's content is not what was expected there. -/
  | columnDecode (column reason : String)
  | io (reason : String)
  | poolTimedOut
  | poolClosed
  | rowNotFound
  | configuration (reason : String)
deriving DecidableEq, Repr

namespace DbError

/-- Wording of an error, and those of what is behind it. -/
def chain : DbError → String × List String
  | database message _ _ => (s!"error returned from database: {message}", [message])
  | protocol message => (s!"encountered unexpected or invalid data: {message}", [])
  | columnNotFound name => (s!"no column found for name: {name}", [])
  | columnDecode column reason =>
    (s!"error occurred while decoding column {column}: {reason}", [reason])
  | io reason => (s!"error communicating with database: {reason}", [reason])
  | poolTimedOut => ("pool timed out while waiting for an open connection", [])
  | poolClosed => ("attempted to acquire a connection on a closed pool", [])
  | rowNotFound =>
    ("no rows returned by a query that expected to return at least one row", [])
  | configuration reason => (s!"error with configuration: {reason}", [reason])

def message (e : DbError) : String := e.chain.1

/-- The code of a refusal because something would be there twice. -/
def uniqueViolation : String := "23505"

/-- The constraint that a page has each version number once. -/
def versionConstraint : String := "page_versions_page_version_key"

/-- Whether an insertion of a version has failed because the version is there already:
`uniqueViolation` of `versionConstraint`. -/
def isVersionConflict : DbError → Bool
  | database _ code constraint =>
    code == some uniqueViolation && constraint == some versionConstraint
  | _ => false

end DbError

/-- What can go wrong in the store. -/
inductive StoreError
  | db (e : DbError)
  | versionConflict (page : Uuid) (version : Int)
  | pageNotFound (page : Uuid)
  | versionNotFound (page : Uuid) (version : Int)
  | themeNotFound (theme : Uuid)
  | registry (e : BlockError)
  | config (message : String)
  /-- There is no number after the last one. -/
  | overflow
deriving DecidableEq, Repr

namespace StoreError

/-- Wording of an error, and those of what is behind it. -/
def chain : StoreError → String × List String
  | db e => (s!"Database error: {e.message}", e.message :: e.chain.2)
  | versionConflict page version =>
    (s!"Version {version} of page {page.text} was written concurrently", [])
  | pageNotFound page => (s!"Page {page.text} not found", [])
  | versionNotFound page version => (s!"Page {page.text} has no version {version}", [])
  | themeNotFound theme => (s!"Theme {theme.text} not found", [])
  | registry e => (e.message, [])
  | config message => (s!"Configuration error: {message}", [])
  | overflow => ("attempt to add with overflow", [])

def message (e : StoreError) : String := e.chain.1

/-- The error of an insertion of a version: `versionConflict` if the version is there already. -/
def ofVersionInsert (page : Uuid) (version : Int) (e : DbError) : StoreError :=
  if e.isVersionConflict then versionConflict page version else db e

/-- Whether it makes sense to try again. -/
def isRetryable : StoreError → Bool
  | versionConflict .. => true
  | _ => false

/-- Whether this ends the program, instead of being returned to whoever has called. Only `overflow`
does. -/
def isPanic : StoreError → Bool
  | overflow => true
  | _ => false

end StoreError

end Pagesmith.Store
