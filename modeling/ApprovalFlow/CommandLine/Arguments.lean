/-!
# Arguments

What the program is called with.

- `Arguments`: the diagram, and what may be said beside it.
- `UsageError`: why a call has no arguments to run with.
- `Draft.take`: one word of the call.
- `Arguments.parse`: the arguments of a call.
- `fileStem?`, `Arguments.processName`: the name of the process if none is given.
-/

namespace ApprovalFlow

/-- How much is logged. -/
inductive LogLevel where
  | error
  | warn
  | info
  | debug
  | trace
  deriving DecidableEq, Repr

namespace LogLevel

/-- All levels. -/
def all : List LogLevel := [.error, .warn, .info, .debug, .trace]

/-- The written name of a level. -/
def name : LogLevel → String
  | .error => "error"
  | .warn => "warn"
  | .info => "info"
  | .debug => "debug"
  | .trace => "trace"

/-- The level with a written name. -/
def ofName? (s : String) : Option LogLevel := all.find? fun l => l.name == s

end LogLevel

/-- What the program is called with. -/
structure Arguments where
  /-- The settings file, if one is named. -/
  config : Option String
  /-- The file of the diagram. -/
  diagram : String
  /-- The name of the process, if it is given. -/
  name : Option String
  logLevel : Option LogLevel
  /-- Is the definition printed instead of deployed? -/
  dryRun : Bool
  deriving DecidableEq, Repr

/-- Why a call has no arguments to run with. -/
inductive UsageError where
  /-- no diagram -/
  | missingDiagram
  /-- an option without a value, or with one that it does not take -/
  | badValue
  /-- a word that is neither an option nor the value of one -/
  | unknownWord
  /-- an option given twice -/
  | repeated
  /-- a value for an option that takes none -/
  | unneededValue
  /-- the call asks for help -/
  | helpWanted
  /-- the call asks for the version -/
  | versionWanted
  deriving DecidableEq, Repr

/-- An option with a value. -/
inductive OptionKey where
  | config
  | diagram
  | name
  | logLevel
  deriving DecidableEq, Repr

namespace OptionKey

/-- All options with a value. -/
def all : List OptionKey := [.config, .diagram, .name, .logLevel]

/-- The word of an option, after two dashes. -/
def word : OptionKey → String
  | .config => "config"
  | .diagram => "diagram"
  | .name => "name"
  | .logLevel => "log-level"

/-- Does the option take the value? No file has an empty name. -/
def takes (key : OptionKey) (value : String) : Bool :=
  match key with
  | .config | .diagram => !value.isEmpty
  | .name => true
  | .logLevel => (LogLevel.ofName? value).isSome

end OptionKey

/-- A call partly read. -/
structure Draft where
  /-- The values of options, once they are checked. -/
  given : List (OptionKey × String) := []
  dryRun : Bool := false
  /-- An option that is not checked yet, with its value if that is there. -/
  pending : Option (OptionKey × Option String) := none
  /-- Was there the word after which no options come? -/
  closed : Bool := false
  deriving DecidableEq, Repr

namespace Draft

/-- Check the option that is not checked yet. -/
def settle (d : Draft) : Except UsageError Draft :=
  match d.pending with
  | none => .ok d
  | some (_, none) => .error .badValue
  | some (key, some value) =>
    if d.given.any fun g => g.1 == key then .error .repeated
    else if key.takes value then
      .ok { d with given := (key, value) :: d.given, pending := none }
    else .error .badValue

/-- A word with two dashes at its start, which are left out here, and the value that is attached to
it. -/
def takeLong (d : Draft) (word : String) (attached : Option String) : Except UsageError Draft :=
  match OptionKey.all.find? fun k => k.word == word, attached with
  | some key, none => do
    let d ← d.settle
    .ok { d with pending := some (key, none) }
  | some key, some value => do
    let d ← d.settle
    { d with pending := some (key, some value) }.settle
  | none, attached =>
    if word = "dry-run" ∨ word = "help" ∨ word = "version" then
      if attached.isSome then .error .unneededValue
      else do
        let d ← d.settle
        if word = "help" then .error .helpWanted
        else if word = "version" then .error .versionWanted
        else if d.dryRun then .error .repeated
        else .ok { d with dryRun := true }
    else .error .unknownWord

/-- One word of a call. -/
def take (d : Draft) (word : String) : Except UsageError Draft :=
  if d.closed then .error .unknownWord
  else
    match word.toList with
    | ['-', '-'] => .ok { d with closed := true }
    | '-' :: '-' :: rest =>
      let attached := (rest.dropWhile (· != '=')).tail?.map String.ofList
      d.takeLong (String.ofList (rest.takeWhile (· != '='))) attached
    | '-' :: c :: _ =>
      if c = 'h' then d.settle.bind fun _ => .error .helpWanted
      else if c = 'V' then d.settle.bind fun _ => .error .versionWanted
      else .error .unknownWord
    | _ =>
      match d.pending with
      | some (key, none) => .ok { d with pending := some (key, some word) }
      | _ => .error .unknownWord

/-- The value of an option. -/
def value? (d : Draft) (key : OptionKey) : Option String :=
  (d.given.find? fun g => g.1 == key).map (·.2)

/-- The arguments of a call that is read to its end. -/
def finish (d : Draft) : Except UsageError Arguments := do
  let d ← d.settle
  match d.value? .diagram with
  | none => .error .missingDiagram
  | some diagram =>
    .ok
      { config := d.value? .config
        diagram := diagram
        name := d.value? .name
        logLevel := (d.value? .logLevel).bind LogLevel.ofName?
        dryRun := d.dryRun }

end Draft

/-! ## Names of files -/

/-- The parts of a path between slashes, without empty ones and those that stand for the same
place. -/
def pathParts (path : String) : List String :=
  (path.splitOn "/").filter fun p => p != "" && p != "."

/-- The name of a file without the last dot and what follows it. A dot at its start does not
count. -/
def stemOf (file : String) : String :=
  let back := file.toList.reverse
  let stem := (back.dropWhile (· != '.')).tail
  if stem.isEmpty then file else String.ofList stem.reverse

/-- The stem of the file that a path leads to; nothing for the root and for paths that end by going
up. -/
def fileStem? (path : String) : Option String :=
  match (pathParts path).getLast? with
  | some ".." => none
  | some file => some (stemOf file)
  | none => none

namespace Arguments

/-- The arguments of a call, from its words after the program's name. -/
def parse (words : List String) : Except UsageError Arguments := do
  (← words.foldlM Draft.take {}).finish

/-- The name of the process: the given one, or the stem of the diagram's file. -/
def processName (a : Arguments) : String :=
  a.name.getD ((fileStem? a.diagram).getD "process")

end Arguments

end ApprovalFlow
