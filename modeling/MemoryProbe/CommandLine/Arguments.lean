import MemoryProbe.CommandLine.Options

namespace MemoryProbe
namespace CommandLine

/-!
Reading the arguments of one level.  The value of an option may stand behind an
equals sign, right behind its letter, or in the next argument.  In the last case
it is read only when the next option comes or the arguments end, so a fault in a
later argument can be found before a fault in the value.
-/

/-- How far the arguments of a level are read. -/
structure LevelState where
  given : GivenOptions := {}
  /-- The option whose value is still to be read, and that value if it was
  there. -/
  pending : Option (OptionName × Option String) := none
deriving DecidableEq, Repr

namespace LevelState

/-- Read the value that is still to be read. -/
def resolve (state : LevelState) : Except ArgumentStop GivenOptions :=
  match state.pending with
  | none => .ok state.given
  | some (name, value) => state.given.accept name value

/-- Whether the next argument may be the value of the option before it. -/
def awaitsValue (state : LevelState) : Bool :=
  match state.pending with
  | some (_, none) => true
  | _ => false

/-- Take an argument as the value of the option before it. -/
def supply (state : LevelState) (value : String) : LevelState :=
  { state with pending := state.pending.map fun entry => (entry.1, some value) }

def take (state : LevelState) (name : OptionName) (value : Option String) :
    Except ArgumentStop LevelState := do
  let given <- state.resolve
  return { given := <- given.accept name value }

/-- Take an option whose value comes next. -/
def await (state : LevelState) (name : OptionName) :
    Except ArgumentStop LevelState := do
  return { given := <- state.resolve, pending := some (name, none) }

/-- Read a word behind two dashes. -/
def takeLong (level : Option CommandName) (state : LevelState) (word : List Char) :
    Except ArgumentStop LevelState :=
  let (spelling, value) :=
    match Text.splitOnce? (· == '=') word with
    | some (spelling, value) => (spelling, some (String.ofList value))
    | none => (word, none)
  match OptionName.ofLong? level (String.ofList spelling) with
  | none => .error .unknownArgument
  | some name =>
    if name.takesValue then
      match value with
      | some value => state.take name (some value)
      | none => state.await name
    else
      match value with
      | some _ => .error .unwantedValue
      | none => state.take name none

/-- Drop the equals sign between a letter and its value. -/
def dropEquals : List Char -> List Char
  | '=' :: value => value
  | value => value

/-- Read letters behind one dash.  The first one that takes a value takes the
rest. -/
def takeShort (level : Option CommandName) (state : LevelState) :
    List Char -> Except ArgumentStop LevelState
  | [] => .ok state
  | letter :: rest =>
    match OptionName.ofShort? level letter with
    | none => .error .unknownArgument
    | some name =>
      if name.takesValue then
        if rest.isEmpty then
          state.await name
        else
          state.take name (some (String.ofList (dropEquals rest)))
      else
        match state.take name none with
        | .ok later => takeShort level later rest
        | .error stop => .error stop

end LevelState

/-- The word that asks for help in the place of a command. -/
def helpWord : String := "help"

def isCommandWord (word : String) : Bool :=
  word == helpWord || (CommandName.ofText? word).isSome

/-- Why an argument that is no option is out of place.  Behind two lone dashes
even a command is. -/
def strayArgument (level : Option CommandName) (trailing : Bool)
    (argument : String) : ArgumentStop :=
  match level with
  | some _ => .unknownArgument
  | none =>
    if trailing && isCommandWord argument then .unknownArgument else .unknownCommand

/-- What asking for help about some words comes to.  Only commands of the program
have help. -/
def helpStop : List String -> ArgumentStop
  | [] => .help
  | [word] => if isCommandWord word then .help else .unknownCommand
  | _ :: _ :: _ => .unknownCommand

/-- The arguments of a level, and the command they lead to with the arguments
behind it. -/
structure LevelArguments where
  state : LevelState
  command : Option (CommandName × List String) := none

def readLevel (level : Option CommandName) (state : LevelState) :
    List String -> Except ArgumentStop LevelArguments
  | [] => .ok { state := state }
  | argument :: rest =>
    let command :=
      if level.isNone && !state.awaitsValue then
        CommandName.ofText? argument
      else
        none
    match command with
    | some command => .ok { state := state, command := some (command, rest) }
    | none =>
      if level.isNone && !state.awaitsValue && argument == helpWord then
        .error (helpStop rest)
      else
        match argument.toList with
        | ['-', '-'] =>
          match rest with
          | [] => .ok { state := state }
          | stray :: _ => .error (strayArgument level true stray)
        | '-' :: '-' :: word =>
          match state.takeLong level word with
          | .ok later => readLevel level later rest
          | .error stop => .error stop
        | '-' :: letter :: letters =>
          match state.takeShort level (letter :: letters) with
          | .ok later => readLevel level later rest
          | .error stop => .error stop
        | _ =>
          if state.awaitsValue then
            readLevel level (state.supply argument) rest
          else
            .error (strayArgument level false argument)

end CommandLine
end MemoryProbe
