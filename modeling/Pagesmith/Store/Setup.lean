import Pagesmith.Block.Registry
import Pagesmith.Store.Program

/-!
# What pages are rendered with

Once the tables are there, pages are rendered with the registry of the enabled block types, which
`loadRegistry` reads from the database, and in the active theme of their tenant.
-/

/-! ## Migrations

The tables of the store are defined by the statements `migrate`, that do nothing where their table
exists, so they can be run at any time, one after the other. -/

namespace Pagesmith.Store.Migrations

def all : List Migration := [.blockTypes, .pages, .pageVersions, .themes]

def apply : Query Unit := all.forM fun m ↦ do
  let _ ← execute (.migrate m)

end Pagesmith.Store.Migrations

/-! ## Block types in the database -/

namespace Pagesmith.Store.Types

def listEnabled : Query (List BlockType) := do
  return (← (fetchAll .selectEnabledTypes : Query (List TypeRecord))).map TypeRecord.blockType

def get (name : String) : Query (Option TypeRecord) := fetchOptional (.selectType name)

/-- Insert `t`, or replace all fields of the block type of its name. -/
def upsert (t : BlockType) : Query TypeRecord := fetchOne (.upsertType t)

/-- Enable a block type, or disable it. Says whether there is one of that name. -/
def setEnabled (name : String) (enabled : Bool) : Query Bool := do
  return 0 < (← execute (.updateEnabled name enabled))

/-- The registry of the enabled block types. -/
def loadRegistry : Action Registry := do
  let types ← listEnabled.action
  ExceptT.mk (pure ((Registry.load types).mapError .registry))

/-- Make the registry of the enabled block types the live one. After an error it is the one it was.
-/
def reload (s : Session) : Program (Except StoreError Nat × Session) := do
  match ← listEnabled.action.run with
  | .error e => return (.error e, s)
  | .ok types =>
    let (result, s) := s.reload types
    return (result.mapError .registry, s)

end Pagesmith.Store.Types

/-! ## Themes

A tenant has any number of themes, and at most one of them is active. To `activate` one locks all of
the tenant's themes first, so that two activations come one after the other. -/

namespace Pagesmith.Store.Themes

/-- Create a theme, which is not active. -/
def create (tenant : Uuid) (name : String) (settings : Json) : Query Theme :=
  fetchOne (.insertTheme tenant name settings)

def list (tenant : Uuid) : Query (List Theme) := fetchAll (.selectThemes tenant)

def active (tenant : Uuid) : Query (Option Theme) := fetchOptional (.selectActiveTheme tenant)

/-- What `activate` does in its transaction: lock the themes of `tenant`, see that `theme` is among
them, deactivate the others, and activate it. -/
def activateBody (tenant theme : Uuid) : Action (Ending Theme) := do
  let themes ← (fetchAll (.lockThemes tenant) : Query (List Uuid)).action
  if themes.contains theme then
    let _ ← (execute (.deactivateOthers tenant theme)).action
    let activated ← (fetchOne (.activateTheme theme) : Query Theme).action
    return .complete activated
  else return .abandon (.themeNotFound theme)

/-- Make `theme` the only active one of `tenant`. -/
def activate (tenant theme : Uuid) : Action Theme := transaction (activateBody tenant theme)

end Pagesmith.Store.Themes
