import Pagesmith.Json.Reader
import Pagesmith.Json.Text
import Pagesmith.Page.Render
import Pagesmith.Store.Program

/-!
# Scripts

A script stands in for the database: it answers statements with replies that have been written down
before, one after the other. Beginning and commit of a transaction have replies of their own, and a
rollback always succeeds. Past the end of a script every reply is empty.

A script is written in JSON, as an object of `replies`, `begin` and `commit`. A reply is an object
of `rows` and `affected`, or, where the database refuses a statement, of `code`, `message` and
`constraint`. What is left out is empty.
-/

/-! ## Rows

A row comes from the database as named `Cells`, and is read into a record column by column; the
first cell that does not hold what its column should is reported. A cell may be empty only in a
column that allows it. In a column of JSON the empty cell is the JSON null, and what a cell holds is
read from its text, as any JSON.

Points in time are kept to the microsecond in the database. -/

namespace Pagesmith.Store

/-- The cells of a row by the names of their columns. -/
abbrev Cells := List (String × Json)

namespace Cells

/-- The cells of a row in writing. -/
def ofJson : Json → Cells
  | .object fields => fields
  | _ => []

/-- Reading that may find the wrong thing in a column. -/
abbrev Reading := Except DbError

/-- The content of the cell in `column`, null if it is empty. -/
def cell (r : Cells) (column : String) : Json := (r.lookup column).getD .null

/-- The content of a cell that must not be empty, as `read` reads it. -/
def required {α : Type} (read : Json → Option α) (r : Cells) (column : String) : Reading α :=
  match read (r.cell column) with
  | some a => .ok a
  | none => .error (.columnDecode (Text.quoted column)
      "unexpected null; try decoding as an `Option`")

def text (r : Cells) (column : String) : Reading String := r.required Json.string? column

def boolean (r : Cells) (column : String) : Reading Bool := r.required Json.bool? column

def integer (r : Cells) (column : String) : Reading Int := r.required Json.int? column

def uuid (r : Cells) (column : String) : Reading Uuid :=
  r.required (fun v ↦ v.string?.map fun s ↦ (Uuid.ofText? s).getD .nil) column

def toMicroseconds (t : Instant) : Instant :=
  ⟨t.second + t.nano / Instant.nanosPerSecond, t.nano % Instant.nanosPerSecond / 1000 * 1000⟩

def instant (r : Cells) (column : String) : Reading Instant :=
  r.required (fun v ↦ v.string?.map fun s ↦ toMicroseconds ((Instant.ofText? s).getD .epoch)) column

/-- A block list, kept as JSON. -/
def blocks (r : Cells) (column : String) : Reading (List Block) :=
  (Block.readText (r.cell column).text).mapError (.columnDecode (Text.quoted column))

/-- JSON, null if the cell is empty. -/
def json (r : Cells) (column : String) : Json :=
  (Json.ofText? (r.cell column).text).getD .null

def optionalJson (r : Cells) (column : String) : Option Json :=
  let v := r.json column
  if v.isNull then none else some v

/-! ### Records -/

def page (r : Cells) : Reading Page := do
  return {
    id := ← r.uuid "id"
    tenant := ← r.uuid "tenant_id"
    slug := ← r.text "slug"
    title := ← r.text "title"
    blocks := ← r.blocks "blocks"
    published := ← r.boolean "is_published"
    seo := r.json "seo_settings"
    created := ← r.instant "created_at"
    updated := ← r.instant "updated_at" }

def version (r : Cells) : Reading PageVersion := do
  return {
    id := ← r.uuid "id"
    page := ← r.uuid "page_id"
    version := ← r.integer "version_number"
    snapshot := ← r.blocks "blocks_snapshot"
    editor := ← r.uuid "created_by"
    created := ← r.instant "created_at" }

def theme (r : Cells) : Reading Theme := do
  return {
    id := ← r.uuid "id"
    tenant := ← r.uuid "tenant_id"
    name := ← r.text "name"
    settings := r.json "settings"
    active := ← r.boolean "is_active"
    created := ← r.instant "created_at" }

def type (r : Cells) : Reading TypeRecord := do
  return {
    name := ← r.text "name"
    category := ← r.text "category"
    template := ← r.text "template"
    defaultConfig := r.json "default_config"
    schema := r.optionalJson "config_schema"
    enabled := ← r.boolean "enabled"
    created := ← r.instant "created_at"
    updated := ← r.instant "updated_at" }

/-- A row of one column, whose name does not count when something is wrong with it. -/
def single {α : Type} (read : Cells → String → Reading α) (column : String) (r : Cells) :
    Reading α :=
  (read r column).mapError fun
    | .columnDecode _ reason => .columnDecode "0" reason
    | e => e

/-- The greatest number in the column `max`, which is empty if there is none. -/
def greatest (r : Cells) : Reading (Option Int) := .ok (r.cell "max").int?

end Cells

/-- Read a row that answers `s`, column by column. -/
def Statement.readRow : (s : Statement) → Cells → Except DbError s.Row
  | begin, _ | commit, _ | rollback, _ | migrate _, _ => .ok ()
  | deletePage _, _ | deactivateOthers .., _ | updateEnabled .., _ => .ok ()
  | insertPage .., r | insertPageIfAbsent .., r | selectPage _, r | selectPageBySlug .., r
  | lockPage _, r | lockPageBySlug .., r | updateBlocks .., r | updateBlocksAndTitle .., r
  | updatePublished .., r => r.page
  | pageExists _, r => r.single Cells.boolean "exists"
  | selectVersions _, r | selectVersion .., r | insertVersion .., r => r.version
  | selectGreatestVersion _, r => r.greatest
  | insertTheme .., r | selectThemes _, r | selectActiveTheme _, r | activateTheme _, r => r.theme
  | lockThemes _, r => r.single Cells.uuid "id"
  | selectEnabledTypes, r | selectType _, r | upsertType _, r => r.type

/-! ## Scripts -/

/-- A reply of a script. -/
inductive Reply
  /-- Rows, and how many rows have been changed if it is not their number. -/
  | rows (rows : List Cells) (affected : Option Nat)
  | error (e : DbError)

def Reply.none : Reply := rows [] Option.none

/-- Replies to the statements that do not delimit transactions, and to those that do. -/
structure Script where
  replies : List Reply := []
  onBegin : Reply := .none
  onCommit : Reply := .none

namespace Script

/-! ### Connecting -/

/-- An address without what does not count in it: control characters and blanks around it, tabs and
line ends anywhere. -/
def bareAddress (url : String) : List Char :=
  let isEdge (c : Char) : Bool := c.toNat ≤ 0x20
  let s := ((url.toList.dropWhile isEdge).reverse.dropWhile isEdge).reverse
  s.filter fun c ↦ c != '\t' && c != '\n' && c != '\r'

def hasScheme (url : String) : Bool :=
  match bareAddress url with
  | [] => false
  | c :: s =>
    c.isAlpha &&
      (s.dropWhile fun c ↦ c.isAlphanum || c == '+' || c == '-' || c == '.').head? == some ':'

/-- Any address that `hasScheme` leads to the script. -/
def connect (config : Config) : Except DbError Unit :=
  if hasScheme config.databaseUrl then .ok ()
  else .error (.configuration "relative URL without a base")

/-! ### Answering -/

/-- A reply as the answer to `s`, its rows read by `Statement.readRow`. -/
def answer (s : Statement) : Reply → Except DbError (Answer s)
  | .rows rows affected =>
    .ok { rows := rows.map s.readRow, affected := affected.getD rows.length }
  | .error e => .error e

/-- Answer statements from a script. -/
def peer : Program.Peer Script := fun script s ↦
  match s with
  | .begin => (answer _ script.onBegin, script)
  | .commit => (answer _ script.onCommit, script)
  | .rollback => (.ok {}, script)
  | s =>
    match script.replies with
    | [] => (answer s .none, script)
    | r :: rest => (answer s r, { script with replies := rest })

end Script

/-! ### Reading -/

def Reply.ofJson (v : Json) : Reply :=
  let text? (name : String) : Option String := (v.field? name).bind Json.string?
  if (v.field? "code").isSome then
    error (.database ((text? "message").getD "") (text? "code") (text? "constraint"))
  else
    let rowsInWriting := ((v.field? "rows").bind Json.array?).getD []
    rows (rowsInWriting.map Cells.ofJson)
      (((v.field? "affected").bind Json.int?).map Int.toNat)

def Script.ofJson (v : Json) : Script where
  replies := (((v.field? "replies").bind Json.array?).getD []).map Reply.ofJson
  onBegin := ((v.field? "begin").map Reply.ofJson).getD .none
  onCommit := ((v.field? "commit").map Reply.ofJson).getD .none

/-- What comes of a program that a script answers, and the statements it has sent. -/
def Program.runScript {α : Type} (p : Program α) (script : Script) : α × List Statement :=
  let (a, log, _) := p.run Script.peer script
  (a, log)

end Pagesmith.Store
