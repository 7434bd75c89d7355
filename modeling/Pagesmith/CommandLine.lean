/-!
# Commands and their options

A command has options with long names, some of which take a value, and may have operands. Its
arguments are read from left to right. A value follows its option as an argument of its own or
behind `=`; one that begins with `-` has to be attached like that. Behind `--` all arguments are
operands. An option may be given once, and values and operands have to be of the right form.

Everything that does not follow these rules is a usage error, found where it stands; what is missing
is found at the end. The requests for help and for the version end the reading where they stand.
-/

namespace Pagesmith.CommandLine

/-- An option of a command. -/
structure Flag where
  name : String
  /-- The name of its value in help texts, if it takes one. -/
  placeholder : Option String := none
  required : Bool := false
  help : String := ""
  /-- The values it takes. -/
  accepts : String → Bool := fun _ ↦ true

/-- The operands of a command. -/
structure Operands where
  /-- Their name in help texts. -/
  name : String
  /-- Whether there has to be one. -/
  required : Bool := true
  help : String := ""
  /-- The operands it takes. -/
  accepts : String → Bool := fun _ ↦ true

/-- A command of a program, or a program that is one command. -/
structure Command where
  name : String
  about : String
  operands : Option Operands := none
  flags : List Flag
  /-- Help can be asked for. -/
  hasHelp : Bool := true
  /-- The version can be asked for. -/
  hasVersion : Bool := false

/-- What the arguments of a command amount to. -/
structure Arguments where
  operands : List String := []
  /-- The options given with their values, empty for one that takes none. -/
  options : List (String × String) := []

/-- Why a command is not run with some arguments. -/
inductive Halt
  | usage
  | help
  | version
deriving DecidableEq, Repr

namespace Arguments

/-- The value given for the option `name`. -/
def value? (a : Arguments) (name : String) : Option String := a.options.lookup name

def has (a : Arguments) (name : String) : Bool := (a.value? name).isSome

/-- The option `f`, which must not have been given before, with its value. -/
def addOption (a : Arguments) (f : Flag) (value : String) : Except Halt Arguments :=
  if a.has f.name || !f.accepts value then .error .usage
  else .ok { a with options := (f.name, value) :: a.options }

end Arguments

/-- An argument by its looks. -/
inductive Word
  | operand
  | endOfOptions
  /-- A name behind two dashes. -/
  | long (name : List Char) (attached : Option (List Char))
  /-- Letters behind one dash. -/
  | short (first : Char)

/-- How an argument looks. A dash by itself is an operand. -/
def Word.ofText : List Char → Word
  | ['-', '-'] => endOfOptions
  | '-' :: '-' :: s =>
    let name := s.takeWhile (· != '=')
    long name (if name.length < s.length then some (s.drop (name.length + 1)) else none)
  | '-' :: c :: _ => short c
  | _ => operand

namespace Command

def flag? (c : Command) (name : String) : Option Flag := c.flags.find? fun f ↦ f.name == name

def addOperand (c : Command) (a : Arguments) (s : String) : Except Halt Arguments :=
  match c.operands with
  | some o => if o.accepts s then .ok { a with operands := a.operands ++ [s] } else .error .usage
  | none => .error .usage

/-- What a command makes of a word that begins with dashes: the option given, and whether its value
is still to come. -/
def readOption (c : Command) (a : Arguments) : Word → Except Halt (Arguments × Option Flag)
  | .short 'h' => .error (if c.hasHelp then .help else .usage)
  | .short 'V' => .error (if c.hasVersion then .version else .usage)
  | .long name attached =>
    let name := String.ofList name
    match c.flag? name, attached with
    | some f, none =>
      if f.placeholder.isSome then .ok (a, some f) else (a.addOption f "").map (·, none)
    | some f, some value =>
      if f.placeholder.isSome then (a.addOption f (String.ofList value)).map (·, none)
      else .error .usage
    | none, none =>
      if name == "help" && c.hasHelp then .error .help
      else if name == "version" && c.hasVersion then .error .version
      else .error .usage
    | none, some _ => .error .usage
  | _ => .error .usage

/-- The rest of a command's arguments, where `a` was read before and the value of `pending` comes
next. With `first`, the first operand ends the reading; it and what follows it are given back. -/
def readFrom (c : Command) (first : Bool) : (a : Arguments) → (pending : Option Flag) →
    List String → Except Halt (Arguments × List String)
  | a, none, [] => .ok (a, [])
  | _, some _, [] => .error .usage
  | a, pending, s :: rest =>
    match Word.ofText s.toList, pending with
    | .operand, some f => do c.readFrom first (← a.addOption f s) none rest
    | _, some _ => .error .usage
    | .operand, none =>
      if first then .ok (a, s :: rest)
      else do c.readFrom first (← c.addOperand a s) none rest
    | .endOfOptions, none =>
      if first && !rest.isEmpty then .error .usage
      else return (← rest.foldlM c.addOperand a, [])
    | word, none => do
      let (a, pending) ← c.readOption a word
      c.readFrom first a pending rest

/-- The arguments of a command, which have to be complete. -/
def read (c : Command) (args : List String) : Except Halt Arguments := do
  let (a, _) ← c.readFrom false {} none args
  if c.operands.any (·.required) && a.operands.isEmpty then .error .usage
  else if c.flags.any fun f ↦ f.required && !a.has f.name then .error .usage
  else return a

end Command

/-! ## Help texts

A help text says what a command is for and how it is called, and lists its operands, commands and
options by `helpList`, their explanations in one column. -/

/-- A list under `heading`: names, each with an explanation, in two columns. -/
def helpList (heading : String) (entries : List (String × String)) : String :=
  let width := entries.foldl (fun n e ↦ max n e.1.length) 0
  let line (e : String × String) : String :=
    "  " ++ e.1.pushn ' ' (width - e.1.length) ++ "  " ++ e.2 ++ "\n"
  if entries.isEmpty then "" else s!"\n{heading}:\n" ++ String.join (entries.map line)

def Operands.call (o : Operands) : String :=
  if o.required then s!"<{o.name}>..." else s!"[{o.name}]..."

namespace Flag

/-- How an option is called, as in `--year <YEAR>`. -/
def call (f : Flag) : String :=
  match f.placeholder with
  | some p => s!"--{f.name} <{p}>"
  | none => s!"--{f.name}"

end Flag

namespace Command

/-- How a command is called, behind its name: optional things in brackets, the required ones after
them. -/
def callText (c : Command) (hasCommands : Bool) : String :=
  let options := if c.flags.any (!·.required) then [" [OPTIONS]"] else []
  let required := (c.flags.filter (·.required)).map fun f ↦ " " ++ f.call
  let operands := (c.operands.map fun o ↦ " " ++ o.call).toList
  let commands := if hasCommands then [" <COMMAND>"] else []
  String.join (options ++ required ++ operands ++ commands)

/-- The help text of a command. `path` is how it is called, and `commands` are its own commands. -/
def helpText (c : Command) (path : String) (commands : List (String × String)) : String :=
  let operands := (c.operands.map fun o ↦ (o.call, o.help)).toList
  let flags := c.flags.map fun f ↦ ("    " ++ f.call, f.help)
  let help := if c.hasHelp then [("-h, --help", "Print help")] else []
  let version := if c.hasVersion then [("-V, --version", "Print version")] else []
  c.about ++ "\n\nUsage: " ++ path ++ c.callText (!commands.isEmpty) ++ "\n" ++
    helpList "Commands" commands ++ helpList "Arguments" operands ++
    helpList "Options" (flags ++ help ++ version)

/-- What is said about arguments that a command does not take. -/
def usageText (c : Command) (path : String) (hasCommands : Bool) : String :=
  "error: invalid arguments\n\nUsage: " ++ path ++ c.callText hasCommands ++
    "\n\nFor more information, try '--help'.\n"

end Command

/-! ## Reports

A program that has run leaves a `Report`: what it wrote to its two outputs and its exit code. -/

/-- What a program leaves behind. -/
structure Report where
  stdout : String := ""
  stderr : String := ""
  exit : Nat := 0
deriving DecidableEq, Repr

namespace Report

def print (r : Report) (s : String) : Report := { r with stdout := r.stdout ++ s }

def warn (r : Report) (s : String) : Report := { r with stderr := r.stderr ++ s }

def fail (r : Report) : Report := { r with exit := 1 }

end Report

end Pagesmith.CommandLine
