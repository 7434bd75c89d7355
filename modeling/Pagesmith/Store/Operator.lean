import Pagesmith.CommandLine
import Pagesmith.Json.Text
import Pagesmith.Page.Document
import Pagesmith.Page.Render
import Pagesmith.Store.Pages
import Pagesmith.Store.Setup

/-!
# The operator tool

A command line for those who run a store: it makes the tables, shows a stored page, lists and
restores versions, and activates a theme. The arguments are read first, then the configuration, and
only then is the database asked; what the tool does with it is a `Job`, a program like any other but
for what it prints.

A task prints on the first output while it goes on, and what it has printed stays printed if it
fails after that. A failure is reported on the second output, with everything that is behind it.

Whether there is a connection to the database is not decided here: the outcome `connect` of
connecting, for any configuration, is given to the tool.
-/

namespace Pagesmith.Store.Operator

open CommandLine

/-! ## Commands -/

/-- The option `--database-url`, which every command takes. -/
def databaseUrlFlag : Flag where
  name := "database-url"
  placeholder := some "DATABASE_URL"
  help := "Overrides DATABASE_URL"

def tool : Command where
  name := "blockpage"
  about := "Operator tool for the block page store"
  flags := [databaseUrlFlag]
  hasVersion := true

/-- A version number as it is written in an argument, within 32 bits. -/
def versionOfText? (s : String) : Option Int := (Text.integer (Nat.pow 2 31 - 1) s.toList).toOption

/-- The required option `name`, whose value is an identifier. -/
def uuidFlag (name placeholder : String) : Flag where
  name := name
  placeholder := some placeholder
  required := true
  accepts s := (Uuid.ofText? s).isSome

def versionFlag : Flag where
  name := "version"
  placeholder := some "VERSION"
  required := true
  accepts s := (versionOfText? s).isSome

def command (name about : String) (flags : List Flag) : Command where
  name := name
  about := about
  flags := databaseUrlFlag :: flags

def commands : List Command := [
  command "migrate" "Create or update the database schema" [],
  command "render" "Render a stored page to stdout" [
    uuidFlag "page" "PAGE",
    { name := "fragment", help := "Print only the block HTML, without the surrounding document" }],
  command "versions" "List a page's version history" [
    uuidFlag "page" "PAGE",
    { name := "json", help := "Print the full history, snapshots included, as JSON" }],
  command "restore" "Put a past version's blocks back on a page" [
    uuidFlag "page" "PAGE", versionFlag, uuidFlag "editor" "EDITOR"],
  command "activate-theme" "Make a theme the tenant's active theme" [
    uuidFlag "tenant" "TENANT", uuidFlag "theme" "THEME"]]

/-- The command `help`, which shows the help of another one. It takes no options. -/
def helpCommand : Command where
  name := "help"
  about := "Print this message or the help of the given subcommand(s)"
  operands := some {
    name := "COMMAND"
    required := false
    help := "Print help for the subcommand(s)" }
  flags := []
  hasHelp := false

def command? (name : String) : Option Command := commands.find? fun c ↦ c.name == name

/-- What the tool is asked to do. -/
inductive Task
  | migrate
  | render (page : Uuid) (fragment : Bool)
  | versions (page : Uuid) (json : Bool)
  | restore (page : Uuid) (version : Int) (editor : Uuid)
  | activateTheme (tenant theme : Uuid)
deriving DecidableEq, Repr

/-- A task, and the address given for the database. -/
structure Request where
  task : Task
  databaseUrl : Option String
deriving DecidableEq, Repr

/-- The value of the option `name`, as `read` reads it. -/
def readOption {α : Type} (a : Arguments) (name : String) (read : String → Option α) :
    Except Halt α :=
  match (a.value? name).bind read with
  | some v => .ok v
  | none => .error .usage

def uuidOption (a : Arguments) (name : String) : Except Halt Uuid := readOption a name Uuid.ofText?

/-- The task that the arguments of the command `name` make. -/
def Task.ofArguments (name : String) (a : Arguments) : Except Halt Task :=
  match name with
  | "migrate" => .ok .migrate
  | "render" => do return .render (← uuidOption a "page") (a.has "fragment")
  | "versions" => do return .versions (← uuidOption a "page") (a.has "json")
  | "restore" => do
    return .restore (← uuidOption a "page") (← readOption a "version" versionOfText?)
      (← uuidOption a "editor")
  | "activate-theme" => do return .activateTheme (← uuidOption a "tenant") (← uuidOption a "theme")
  | _ => .error .usage

/-- What is said instead of doing something: the help of the command `c` or of the tool, the
version, or that the arguments are wrong. -/
def haltReport (c : Option Command) : Halt → Report
  | .help => { stdout := match c with
      | some c => c.helpText s!"{tool.name} {c.name}" []
      | none =>
        tool.helpText tool.name ((commands ++ [helpCommand]).map fun c ↦ (c.name, c.about)) }
  | .version => { stdout := s!"{tool.name} 0.1.0\n" }
  | .usage => { stderr := (c.getD tool).usageText tool.name c.isNone, exit := 2 }

/-- The request that `args` make, or what is said instead. -/
def Request.ofArguments (args : List String) : Except Report Request := do
  let (before, rest) ← (tool.readFrom true {} none args).mapError (haltReport none)
  match rest with
  | [] => .error (haltReport none .usage)
  | ["help"] => .error (haltReport none .help)
  | ["help", name] =>
    match (commands ++ [helpCommand]).find? fun c ↦ c.name == name with
    | some c => .error (haltReport (some c) .help)
    | none => .error (haltReport none .usage)
  | name :: rest =>
    match command? name with
    | none => .error (haltReport none .usage)
    | some c => do
      let a ← (c.read rest).mapError (haltReport (some c))
      let task ← (Task.ofArguments name a).mapError (haltReport (some c))
      return ⟨task, (a.value? "database-url").or (before.value? "database-url")⟩

/-! ## Failures -/

/-- How a run ends that does not succeed. -/
inductive Failure
  /-- An error, with the texts of what is behind it. -/
  | error (text : String) (causes : List String)
  /-- A panic. -/
  | panic (text : String)
deriving DecidableEq, Repr

def Failure.ofDb (e : DbError) : Failure := error e.chain.1 e.chain.2

/-- A failure of the store, or the end of the program where the error `isPanic`. -/
def Failure.ofStore (e : StoreError) : Failure :=
  if e.isPanic then panic e.message else error e.chain.1 e.chain.2

/-- A failure to connect to the database. -/
def Failure.ofConnecting (e : DbError) : Failure :=
  error "failed to connect to the database" (e.chain.1 :: e.chain.2)

def indentLines (spaces : Nat) (s : String) : String :=
  String.ofList (s.toList.flatMap fun c ↦
    if c = '\n' then '\n' :: List.replicate spaces ' ' else [c])

/-- The causes of a failure, numbered if there are several. -/
def causeLines (causes : List String) : List String :=
  match causes with
  | [c] => ["\n    " ++ indentLines 4 c]
  | cs => cs.mapIdx fun i c ↦
    "\n" ++ String.ofList (Text.padStart 5 ' ' (Text.decimalDigits i)) ++ ": " ++ indentLines 7 c

def Failure.report : Failure → String
  | error text causes =>
    let behind := if causes.isEmpty then "" else
      "\n\nCaused by:" ++ String.join (causeLines causes)
    s!"Error: {text}" ++ behind ++ "\n"
  | panic text => text ++ "\n"

/-- The exit code of a run that fails: 1, or 101 after a panic. -/
def Failure.exit : Failure → Nat
  | error .. => 1
  | panic _ => 101

/-! ## Tasks -/

/-- A program that prints on the first output, and that may fail. The state is what it has printed,
which a failure does not take back. -/
abbrev Job (α : Type) := ExceptT Failure (StateT String Program) α

def print (s : String) : Job Unit := modify (· ++ s)

def printLine (s : String) : Job Unit := print (s ++ "\n")

/-- A program that prints nothing, as part of a job. Its error becomes the failure `fail` makes of
it. -/
def ofProgram {ε α : Type} (fail : ε → Failure) (p : ExceptT ε Program α) : Job α :=
  ExceptT.mk (monadLift (p.adapt fail).run)

def ofQuery {α : Type} (q : Query α) : Job α := ofProgram .ofDb q

def ofAction {α : Type} (a : Action α) : Job α := ofProgram .ofStore a

/-- Show a page in the theme of its tenant, or only its `fragment`. -/
def renderJob (year : Int) (page : Uuid) (fragment : Bool) : Job Unit := do
  match ← ofQuery (Pages.get page) with
  | none => throw (.error s!"page {page.text} not found" [])
  | some p =>
    let registry ← ofAction Types.loadRegistry
    let body := Pagesmith.Page.render registry year p.blocks
    if fragment then print body
    else
      let theme ← ofQuery (Themes.active p.tenant)
      print (Document.render ⟨p.title, p.seo⟩ body (theme.map (·.settings)))

def versionLine (v : PageVersion) : String :=
  let number := String.ofList (Text.padStart 4 ' ' (Number.integerText v.version))
  s!"{number}  {v.created.listText}  {v.snapshot.length} blocks  by {v.editor.text}"

/-- List the versions of a page, as JSON or line by line. -/
def versionsJob (page : Uuid) (json : Bool) : Job Unit := do
  let versions ← ofQuery (Versions.list page)
  if json then printLine (PageVersion.listToJson versions).prettyText
  else
    if versions.isEmpty then printLine s!"page {page.text} has no versions"
    versions.forM fun v ↦ printLine (versionLine v)

/-- The line that tells of migrations. -/
def migratedLine : String := "✓ migrations applied\n"

/-- The line that tells of a restoration, with the number of the version that was kept. -/
def restoredLine (page : Uuid) (version kept : Int) : String :=
  s!"✓ restored version {version} of page {page.text} " ++
    s!"(previous blocks saved as version {kept})" ++ "\n"

/-- The line that tells of an activation, with the name of the theme. -/
def activatedLine (name : String) : String := s!"✓ theme '{name}' is now active" ++ "\n"

/-- Do a task in `year`. -/
def job (config : Config) (year : Int) : Task → Job Unit
  | .migrate => do
    ofQuery Migrations.apply
    print migratedLine
  | .render page fragment => renderJob year page fragment
  | .versions page json => versionsJob page json
  | .restore page version editor => do
    let (_, kept) ← ofAction (Pages.restore config.versionRetries page version editor)
    print (restoredLine page version kept.version)
  | .activateTheme tenant theme => do
    let activated ← ofAction (Themes.activate tenant theme)
    print (activatedLine activated.name)

/-! ## The tool -/

/-- The settings that `vars` make, with the address that is asked for in `q`. -/
def settings (vars : Config.Variables) (q : Request) : Except Failure Config := do
  let config ← (Config.ofVariables vars).mapError fun f ↦ .ofStore (.config f.message)
  return (q.databaseUrl.map config.withDatabaseUrl).getD config

/-- Do what is asked for, with the settings that `vars` make, if `connect` comes to a connection
with them. -/
def answer (connect : Config → Except DbError Unit) (vars : Config.Variables) (year : Int)
    (q : Request) : Job Unit := do
  let config ← MonadExcept.ofExcept (settings vars q)
  MonadExcept.ofExcept ((connect config).mapError .ofConnecting)
  job config year q.task

/-- The report of a job that has ended, with what it has printed. -/
def reportOf : Except Failure Unit × String → Report
  | (.ok (), printed) => { stdout := printed }
  | (.error f, printed) => { stdout := printed, stderr := f.report, exit := f.exit }

/-- Run the tool with `args` and the variables `vars`, in `year`. -/
def run (connect : Config → Except DbError Unit) (args : List String) (vars : Config.Variables)
    (year : Int) : Program Report :=
  match Request.ofArguments args with
  | .error r => return r
  | .ok q => do return reportOf (← (answer connect vars year q).run.run "")

end Pagesmith.Store.Operator
