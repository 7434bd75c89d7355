import Pagesmith.Store.Error
import Pagesmith.Store.Record

/-!
# Statements and programs

What the store does is a `Program`: a tree that is done, or asks the database something and goes on
with the answer. A program knows nothing of the database, so it can be run against anything that
answers statements, and what is said about a program holds for all answers.

## Transactions

A transaction that comes to its end is committed. One that is left by an error is rolled back, also
if the error is that of the commit. A transaction may also be abandoned: it is rolled back, and only
then is the reason an error.
-/

/-! ## Statements

Everything the store asks of the database is a `Statement`. It has its text, its parameters, and the
kind of row that answers it. Three statements delimit transactions, four define the tables, and the
others read and write pages, versions, themes and block types. -/

namespace Pagesmith.Store

/-- The definitions of the tables, in the order in which they have to be made. -/
inductive Migration
  | blockTypes
  | pages
  | pageVersions
  | themes
deriving DecidableEq, Repr

/-- A statement with what it is about. -/
inductive Statement
  | begin
  | commit
  | rollback
  | migrate (m : Migration)
  | insertPage (tenant : Uuid) (slug title : String) (blocks : List Block) (seo : Json)
  /-- Insert a page, unless the tenant has one of that slug. -/
  | insertPageIfAbsent (tenant : Uuid) (slug title : String) (blocks : List Block)
  | selectPage (page : Uuid)
  | selectPageBySlug (tenant : Uuid) (slug : String)
  /-- Select a page and keep others from writing it. -/
  | lockPage (page : Uuid)
  | lockPageBySlug (tenant : Uuid) (slug : String)
  | pageExists (page : Uuid)
  | updateBlocks (page : Uuid) (blocks : List Block)
  | updateBlocksAndTitle (page : Uuid) (blocks : List Block) (title : String)
  | updatePublished (page : Uuid) (published : Bool)
  | deletePage (page : Uuid)
  | selectVersions (page : Uuid)
  | selectVersion (page : Uuid) (version : Int)
  | selectGreatestVersion (page : Uuid)
  | insertVersion (page : Uuid) (version : Int) (blocks : List Block) (editor : Uuid)
  | insertTheme (tenant : Uuid) (name : String) (settings : Json)
  | selectThemes (tenant : Uuid)
  | selectActiveTheme (tenant : Uuid)
  /-- Select the identifiers of a tenant's themes and keep others from writing them. -/
  | lockThemes (tenant : Uuid)
  /-- Make all of a tenant's themes inactive but one. -/
  | deactivateOthers (tenant theme : Uuid)
  | activateTheme (theme : Uuid)
  | selectEnabledTypes
  | selectType (name : String)
  /-- Insert a block type, or replace all fields of the one of that name. -/
  | upsertType (t : BlockType)
  | updateEnabled (name : String) (enabled : Bool)
deriving DecidableEq, Repr

inductive Param
  | null
  | text (s : String)
  | integer (n : Int)
  | boolean (b : Bool)
  | json (v : Json)
deriving DecidableEq, Repr

namespace Statement

/-- The kind of row that a statement is answered with. -/
abbrev Row : Statement → Type
  | begin | commit | rollback | migrate _ => Unit
  | insertPage .. | insertPageIfAbsent .. | selectPage _ | selectPageBySlug .. | lockPage _
  | lockPageBySlug .. | updateBlocks .. | updateBlocksAndTitle .. | updatePublished .. => Page
  | pageExists _ => Bool
  | deletePage _ | deactivateOthers .. | updateEnabled .. => Unit
  | selectVersions _ | selectVersion .. | insertVersion .. => PageVersion
  | selectGreatestVersion _ => Option Int
  | insertTheme .. | selectThemes _ | selectActiveTheme _ | activateTheme _ => Theme
  | lockThemes _ => Uuid
  | selectEnabledTypes | selectType _ | upsertType _ => TypeRecord

/-- Whether a statement is `BEGIN`, `COMMIT` or `ROLLBACK`. -/
def isDelimiter : Statement → Bool
  | begin | commit | rollback => true
  | _ => false

/-- Whether a statement is sent as plain text, without parameters. -/
def isPlain : Statement → Bool
  | begin | commit | rollback | migrate _ => true
  | _ => false

/-! ### Texts -/

private def pageColumns : String :=
  "id, tenant_id, slug, title, blocks, is_published, seo_settings, created_at, updated_at"

private def versionColumns : String :=
  "id, page_id, version_number, blocks_snapshot, created_by, created_at"

private def themeColumns : String := "id, tenant_id, name, settings, is_active, created_at"

private def typeColumns : String :=
  "name, category, template, default_config, config_schema, enabled, created_at, updated_at"

def migrationText : Migration → String
  | .blockTypes =>
    "CREATE TABLE IF NOT EXISTS block_types ( name TEXT PRIMARY KEY, " ++
    "category TEXT NOT NULL DEFAULT '', template TEXT NOT NULL, " ++
    "default_config JSONB NOT NULL DEFAULT '\x7b\x7d'::jsonb, config_schema JSONB, " ++
    "enabled BOOLEAN NOT NULL DEFAULT TRUE, created_at TIMESTAMPTZ NOT NULL DEFAULT now(), " ++
    "updated_at TIMESTAMPTZ NOT NULL DEFAULT now() ); " ++
    "CREATE INDEX IF NOT EXISTS idx_block_types_enabled ON block_types (enabled);"
  | .pages =>
    "CREATE TABLE IF NOT EXISTS pages ( id UUID PRIMARY KEY DEFAULT gen_random_uuid(), " ++
    "tenant_id UUID NOT NULL, slug TEXT NOT NULL, title TEXT NOT NULL, " ++
    "blocks JSONB NOT NULL DEFAULT '[]'::jsonb, is_published BOOLEAN NOT NULL DEFAULT FALSE, " ++
    "seo_settings JSONB NOT NULL DEFAULT '\x7b\x7d'::jsonb, " ++
    "created_at TIMESTAMPTZ NOT NULL DEFAULT now(), " ++
    "updated_at TIMESTAMPTZ NOT NULL DEFAULT now(), " ++
    "CONSTRAINT pages_tenant_slug_key UNIQUE (tenant_id, slug) ); " ++
    "CREATE INDEX IF NOT EXISTS idx_pages_tenant ON pages (tenant_id);"
  | .pageVersions =>
    "-- Append-only history of block lists. Each row holds the list as it was " ++
    "-- before the update that created it. " ++
    "CREATE TABLE IF NOT EXISTS page_versions ( " ++
    "id UUID PRIMARY KEY DEFAULT gen_random_uuid(), " ++
    "page_id UUID NOT NULL REFERENCES pages(id) ON DELETE CASCADE, " ++
    "version_number INTEGER NOT NULL CHECK (version_number > 0), " ++
    "blocks_snapshot JSONB NOT NULL, created_by UUID NOT NULL, " ++
    "created_at TIMESTAMPTZ NOT NULL DEFAULT now(), " ++
    "CONSTRAINT page_versions_page_version_key UNIQUE (page_id, version_number) );"
  | .themes =>
    "CREATE TABLE IF NOT EXISTS themes ( id UUID PRIMARY KEY DEFAULT gen_random_uuid(), " ++
    "tenant_id UUID NOT NULL, name TEXT NOT NULL, " ++
    "settings JSONB NOT NULL DEFAULT '\x7b\x7d'::jsonb, " ++
    "is_active BOOLEAN NOT NULL DEFAULT FALSE, " ++
    "created_at TIMESTAMPTZ NOT NULL DEFAULT now(), " ++
    "CONSTRAINT themes_tenant_name_key UNIQUE (tenant_id, name) ); " ++
    "-- At most one active theme per tenant. " ++
    "CREATE UNIQUE INDEX IF NOT EXISTS themes_one_active_per_tenant " ++
    "ON themes (tenant_id) WHERE is_active;"

def sql : Statement → String
  | begin => "BEGIN"
  | commit => "COMMIT"
  | rollback => "ROLLBACK"
  | migrate m => migrationText m
  | insertPage .. =>
    "INSERT INTO pages (id, tenant_id, slug, title, blocks, seo_settings) " ++
    s!"VALUES (gen_random_uuid(), $1, $2, $3, $4, $5) RETURNING {pageColumns}"
  | insertPageIfAbsent .. =>
    "INSERT INTO pages (id, tenant_id, slug, title, blocks) " ++
    "VALUES (gen_random_uuid(), $1, $2, $3, $4) ON CONFLICT (tenant_id, slug) DO NOTHING " ++
    s!"RETURNING {pageColumns}"
  | selectPage _ => s!"SELECT {pageColumns} FROM pages WHERE id = $1"
  | selectPageBySlug .. => s!"SELECT {pageColumns} FROM pages WHERE tenant_id = $1 AND slug = $2"
  | lockPage _ => s!"SELECT {pageColumns} FROM pages WHERE id = $1 FOR UPDATE"
  | lockPageBySlug .. =>
    s!"SELECT {pageColumns} FROM pages WHERE tenant_id = $1 AND slug = $2 FOR UPDATE"
  | pageExists _ => "SELECT EXISTS (SELECT 1 FROM pages WHERE id = $1)"
  | updateBlocks .. =>
    s!"UPDATE pages SET blocks = $2, updated_at = now() WHERE id = $1 RETURNING {pageColumns}"
  | updateBlocksAndTitle .. =>
    "UPDATE pages SET blocks = $2, title = $3, updated_at = now() WHERE id = $1 " ++
    s!"RETURNING {pageColumns}"
  | updatePublished .. =>
    "UPDATE pages SET is_published = $2, updated_at = now() WHERE id = $1 " ++
    s!"RETURNING {pageColumns}"
  | deletePage _ => "DELETE FROM pages WHERE id = $1"
  | selectVersions _ =>
    s!"SELECT {versionColumns} FROM page_versions WHERE page_id = $1 ORDER BY version_number ASC"
  | selectVersion .. =>
    s!"SELECT {versionColumns} FROM page_versions WHERE page_id = $1 AND version_number = $2"
  | selectGreatestVersion _ => "SELECT MAX(version_number) FROM page_versions WHERE page_id = $1"
  | insertVersion .. =>
    "INSERT INTO page_versions (id, page_id, version_number, blocks_snapshot, created_by) " ++
    s!"VALUES (gen_random_uuid(), $1, $2, $3, $4) RETURNING {versionColumns}"
  | insertTheme .. =>
    "INSERT INTO themes (id, tenant_id, name, settings) " ++
    s!"VALUES (gen_random_uuid(), $1, $2, $3) RETURNING {themeColumns}"
  | selectThemes _ => s!"SELECT {themeColumns} FROM themes WHERE tenant_id = $1 ORDER BY name"
  | selectActiveTheme _ => s!"SELECT {themeColumns} FROM themes WHERE tenant_id = $1 AND is_active"
  | lockThemes _ => "SELECT id FROM themes WHERE tenant_id = $1 FOR UPDATE"
  | deactivateOthers .. =>
    "UPDATE themes SET is_active = FALSE WHERE tenant_id = $1 AND is_active AND id <> $2"
  | activateTheme _ =>
    s!"UPDATE themes SET is_active = TRUE WHERE id = $1 RETURNING {themeColumns}"
  | selectEnabledTypes =>
    s!"SELECT {typeColumns} FROM block_types WHERE enabled = TRUE ORDER BY name"
  | selectType _ => s!"SELECT {typeColumns} FROM block_types WHERE name = $1"
  | upsertType _ =>
    "INSERT INTO block_types (name, category, template, default_config, config_schema, enabled) " ++
    "VALUES ($1, $2, $3, $4, $5, $6) ON CONFLICT (name) DO UPDATE SET " ++
    "category = EXCLUDED.category, template = EXCLUDED.template, " ++
    "default_config = EXCLUDED.default_config, config_schema = EXCLUDED.config_schema, " ++
    s!"enabled = EXCLUDED.enabled, updated_at = now() RETURNING {typeColumns}"
  | updateEnabled .. => "UPDATE block_types SET enabled = $2, updated_at = now() WHERE name = $1"

/-! ### Parameters -/

def idParam (u : Uuid) : Param := .text u.text

def blocksParam (blocks : List Block) : Param := .json (Block.listToJson blocks)

/-- A schema as a parameter: the null schema is kept as no schema. -/
def schemaParam (schema : Json) : Param := if schema.isNull then .null else .json schema

def params : Statement → List Param
  | begin | commit | rollback | migrate _ | selectEnabledTypes => []
  | insertPage tenant slug title blocks seo =>
    [idParam tenant, .text slug, .text title, blocksParam blocks, .json seo]
  | insertPageIfAbsent tenant slug title blocks =>
    [idParam tenant, .text slug, .text title, blocksParam blocks]
  | selectPage page | lockPage page | pageExists page | deletePage page | selectVersions page
  | selectGreatestVersion page => [idParam page]
  | selectPageBySlug tenant slug | lockPageBySlug tenant slug => [idParam tenant, .text slug]
  | updateBlocks page blocks => [idParam page, blocksParam blocks]
  | updateBlocksAndTitle page blocks title => [idParam page, blocksParam blocks, .text title]
  | updatePublished page published => [idParam page, .boolean published]
  | selectVersion page version => [idParam page, .integer version]
  | insertVersion page version blocks editor =>
    [idParam page, .integer version, blocksParam blocks, idParam editor]
  | insertTheme tenant name settings => [idParam tenant, .text name, .json settings]
  | selectThemes tenant | selectActiveTheme tenant | lockThemes tenant => [idParam tenant]
  | deactivateOthers tenant theme => [idParam tenant, idParam theme]
  | activateTheme theme => [idParam theme]
  | selectType name => [.text name]
  | upsertType t =>
    [.text t.name, .text t.category, .text t.template, .json t.defaultConfig,
      schemaParam t.schema, .boolean t.enabled]
  | updateEnabled name enabled => [.text name, .boolean enabled]

end Statement

/-! ## Programs -/

/-- The rows that answer a statement, each of which may turn out not to be readable, and the number
of rows that the statement has changed. -/
structure Answer (s : Statement) where
  rows : List (Except DbError s.Row) := []
  affected : Nat := 0

/-- A program that asks the database. -/
inductive Program (α : Type) : Type
  | done (a : α)
  | ask (s : Statement) (next : Except DbError (Answer s) → Program α)

namespace Program

variable {α β : Type}

def bind : Program α → (α → Program β) → Program β
  | done a, f => f a
  | ask s next, f => ask s fun answer ↦ (next answer).bind f

instance : Monad Program where
  pure := done
  bind := bind

theorem bind_done (p : Program α) : p.bind done = p := by
  induction p with
  | done a => rfl
  | ask s next ih => exact congrArg (ask s) (funext ih)

theorem bind_assoc {γ : Type} (p : Program α) (f : α → Program β) (g : β → Program γ) :
    (p.bind f).bind g = p.bind fun a ↦ (f a).bind g := by
  induction p with
  | done a => rfl
  | ask s next ih => exact congrArg (ask s) (funext ih)

instance : LawfulMonad Program :=
  LawfulMonad.mk' Program bind_done (fun _ _ ↦ rfl) bind_assoc

def send (s : Statement) : Program (Except DbError (Answer s)) := ask s done

/-! ### Running -/

/-- Something that answers statements, and changes while it does. -/
abbrev Peer (σ : Type) := σ → (s : Statement) → Except DbError (Answer s) × σ

/-- What comes of a program, the statements it has sent, and the state that `peer` is left in. -/
def run {σ : Type} (peer : Peer σ) : Program α → σ → α × List Statement × σ
  | done a, st => (a, [], st)
  | ask s next, st =>
    let (answer, st) := peer st s
    let (a, log, st) := (next answer).run peer st
    (a, s :: log, st)

/-- Of two programs, the second runs against the peer that the first leaves, and its statements
come after the first one's. -/
theorem run_bind {σ : Type} (peer : Peer σ) (p : Program α) (f : α → Program β) (st : σ) :
    (p.bind f).run peer st =
      let (a, before, st) := p.run peer st
      let (b, after, st) := (f a).run peer st
      (b, before ++ after, st) := by
  induction p generalizing st with
  | done a => rfl
  | ask s next ih => simp only [bind, run, ih, List.cons_append]

end Program

/-! ### Programs that may fail -/

/-- A program that ends in a result or in an error of the database. -/
abbrev Query (α : Type) := ExceptT DbError Program α

/-- A program that ends in a result or in an error of the store. -/
abbrev Action (α : Type) := ExceptT StoreError Program α

/-- All rows that answer `s`. -/
def fetchAll (s : Statement) : Query (List s.Row) := do
  let answer ← ExceptT.mk (Program.send s)
  answer.rows.mapM fun r ↦ ExceptT.mk (pure r)

/-- The first row that answers `s`, if there is one. -/
def fetchOptional (s : Statement) : Query (Option s.Row) := do
  let answer ← ExceptT.mk (Program.send s)
  match answer.rows with
  | [] => return none
  | r :: _ => return some (← ExceptT.mk (pure r))

/-- The first row that answers `s`; without one it is the error `rowNotFound`. -/
def fetchOne (s : Statement) : Query s.Row := do
  match ← fetchOptional s with
  | some r => return r
  | none => throw .rowNotFound

/-- The number of rows that `s` has changed. -/
def execute (s : Statement) : Query Nat := do
  let answer ← ExceptT.mk (Program.send s)
  return answer.affected

def Query.action {α : Type} (q : Query α) : Action α := q.adapt .db

/-! ### Transactions -/

/-- How the body of a transaction ends. -/
inductive Ending (α : Type)
  | complete (a : α)
  | abandon (e : StoreError)

/-- Roll back, and return the error `e` whatever comes of that. -/
def leave {α : Type} (e : StoreError) : Program (Except StoreError α) := do
  let _ ← Program.send .rollback
  return .error e

/-- Run `body` in a transaction, which is committed only if it ends in `complete`. -/
def transaction {α : Type} (body : Action (Ending α)) : Action α := ExceptT.mk do
  match ← Program.send .begin with
  | .error e => return .error (.db e)
  | .ok _ =>
    match ← body.run with
    | .error e => leave e
    | .ok (.abandon e) =>
      match ← Program.send .rollback with
      | .ok _ => return .error e
      | .error d => leave (.db d)
    | .ok (.complete a) =>
      match ← Program.send .commit with
      | .ok _ => return .ok a
      | .error d => leave (.db d)

end Pagesmith.Store
