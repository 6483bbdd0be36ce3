/-!
# The command line

A run is asked for by options, a command, and the options of the command. An option is written long
(`--root lib`, `--root=lib`) or short (`-r lib`, `-rlib`, `-r=lib`), and short ones can share a hyphen
(`-vr lib`). No option is given twice, and no value starts with a hyphen unless it is one.
-/

namespace ClassAtlas

/-- How a graph is written. -/
inductive Format where
  | dot
  | json
deriving DecidableEq, Repr, Inhabited

namespace Format

/-- The ending of the files, which is also the word for the format. -/
def ending : Format → String
  | .dot => "dot"
  | .json => "json"

/-- The format with a name. -/
def ofName? (name : String) : Option Format :=
  [Format.dot, Format.json].find? (fun format => format.ending == name)

end Format

/-- What is to be done. -/
inductive Command where
  /-- Draws the graph into a directory, under a name that overrides the one in the settings. -/
  | graph (name : Option String) (output : String) (format : Format)
  /-- Writes a settings file to start from. -/
  | init (force : Bool)
  | version
deriving DecidableEq, Repr, Inhabited

/-- A command line. -/
structure CommandLine where
  /-- More is reported. -/
  verbose : Bool := false
  /-- The location of the code base. -/
  root : String := "."
  /-- The location of the settings file. -/
  settings : Option String := none
  command : Command
deriving DecidableEq, Repr, Inhabited

namespace CommandLine

/-- An option that a command line can give. -/
structure Flag where
  short : Char
  long : String
  takesValue : Bool
deriving DecidableEq, Repr

/-- The options before the command. -/
def generalFlags : List Flag :=
  [⟨'v', "verbose", false⟩, ⟨'r', "root", true⟩, ⟨'c', "config", true⟩]

/-- The options of the command that draws. -/
def graphFlags : List Flag :=
  [⟨'n', "name", true⟩, ⟨'o', "output", true⟩, ⟨'f', "format", true⟩]

/-- The options of the command that writes settings. -/
def initFlags : List Flag :=
  [⟨'f', "force", false⟩]

/-- Options that were given, with their values; one without a value has an empty one. -/
abbrev Given := List (String × String)

/-- One argument: options that are complete, or options and one that needs the next argument. -/
inductive Argument where
  | complete (given : Given)
  | waiting (given : Given) (long : String)
deriving Repr

/-- Short options that share a hyphen. -/
def readShort (flags : List Flag) (given : Given) : List Char → Option Argument
  | [] => some (.complete given)
  | c :: rest =>
    match flags.find? (fun flag => flag.short == c) with
    | none => none
    | some flag =>
      if !flag.takesValue then readShort flags (given ++ [(flag.long, "")]) rest
      else
        match rest with
        | [] => some (.waiting given flag.long)
        | '=' :: value => some (.complete (given ++ [(flag.long, String.ofList value)]))
        | value => some (.complete (given ++ [(flag.long, String.ofList value)]))

/-- A long option, from behind its hyphens. -/
def readLong (flags : List Flag) (text : List Char) : Option Argument :=
  let name := String.ofList (text.takeWhile (· != '='))
  match flags.find? (fun flag => flag.long == name), text.dropWhile (· != '=') with
  | none, _ => none
  | some flag, '=' :: value =>
    if flag.takesValue then some (.complete [(flag.long, String.ofList value)]) else none
  | some flag, _ =>
    if flag.takesValue then some (.waiting [] flag.long) else some (.complete [(flag.long, "")])

/-- An argument that can be the value of an option. -/
def isValue (arg : String) : Bool :=
  match arg.toList with
  | '-' :: _ :: _ => false
  | _ => true

/-- Reads options up to the first argument that is none, which is left with what follows. -/
def readOptions (flags : List Flag) : List String → Option (Given × List String)
  | [] => some ([], [])
  | arg :: rest =>
    let argument :=
      match arg.toList with
      | ['-', '-'] => some none
      | '-' :: '-' :: text => (readLong flags text).map some
      | '-' :: c :: text => (readShort flags [] (c :: text)).map some
      | _ => some none
    match argument with
    | none => none
    | some none => some ([], arg :: rest)
    | some (some (.complete given)) =>
      match readOptions flags rest with
      | some (others, left) => some (given ++ others, left)
      | none => none
    | some (some (.waiting given long)) =>
      match rest with
      | [] => none
      | value :: more =>
        if !isValue value then none
        else
          match readOptions flags more with
          | some (others, left) => some (given ++ (long, value) :: others, left)
          | none => none

/-- No option is given twice. -/
def isFresh (given : Given) : Bool :=
  let names := given.map Prod.fst
  names.eraseDups.length == names.length

/-- The value of an option that is a location, or a default. A location is not empty. -/
def location? (given : Given) (long default : String) : Option String :=
  match given.lookup long with
  | none => some default
  | some value => if value.isEmpty then none else some value

/-- The options of a command; nothing may follow them but a double hyphen. -/
def commandOptions? (flags : List Flag) (args : List String) : Option Given :=
  match readOptions flags args with
  | some (given, left) => if isFresh given && (left.isEmpty || left == ["--"]) then some given else none
  | none => none

/-- The command with a name and arguments. -/
def command? (name : String) (args : List String) : Option Command :=
  if name = "graph" then do
    let given ← commandOptions? graphFlags args
    let output ← location? given "output" "."
    let format ← Format.ofName? ((given.lookup "format").getD "dot")
    return .graph (given.lookup "name") output format
  else if name = "init" then do
    let given ← commandOptions? initFlags args
    return .init (given.lookup "force").isSome
  else if name = "version" then do
    let _ ← commandOptions? [] args
    return .version
  else none

/-- The command line that arguments write. -/
def parse? (args : List String) : Option CommandLine :=
  match readOptions generalFlags args with
  | some (given, name :: rest) => do
    if !isFresh given then none
    else
      let root ← location? given "root" "."
      let settings ← location? given "config" "."
      let command ← command? name rest
      return { verbose := (given.lookup "verbose").isSome, root := root,
               settings := (given.lookup "config").map (fun _ => settings), command := command }
  | _ => none

end CommandLine

end ClassAtlas
