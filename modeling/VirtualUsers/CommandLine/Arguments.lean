import VirtualUsers.CommandLine.Grammar
/-!
# Arguments

The options that all commands share, and the commands with their own arguments.
-/

namespace VirtualUsers.CommandLine

/-- What the program is told to do as a user. The arguments are what was read for them. -/
inductive Command where
  | whoami
  | join (room : Value) (ignoreCache : Bool)
  | send (room text : Value) (notice : Bool)
  | invite (room target : Value)
  | setPowerLevel (room target level : Value)
  | typing (room : Value) (stop : Bool)
  | members (room : Value)

structure Arguments where
  config : Option String := none
  registry : Option String := none
  homeserverUrl : Option String := none
  domain : Option String := none
  user : Option String := none
  customPuppet : Bool := false
  stats : Bool := false
  logLevel : Option String := none
  logFile : Option String := none
  command : Command

def Positional.text (name : String) : Positional := ⟨name, false⟩

def helpOption : OptionSpec := ⟨["-h", "--help"], false⟩

def mainGrammar : Grammar where
  options := helpOption ::
    [("--config", true), ("--registry", true), ("--homeserver-url", true), ("--domain", true),
      ("--user", true), ("--custom-puppet", false), ("--stats", false), ("--log-level", true),
      ("--log-file", true)].map fun (name, takesValue) => ⟨[name], takesValue⟩
  positionals := [.text "command"]

/-- The commands, with a flag if they have one, and their positional arguments. -/
def commands : List (String × Option String × List Positional) :=
  let room := Positional.text "room"
  let target := Positional.text "target"
  [("whoami", none, []),
    ("join", some "--ignore-cache", [room]),
    ("send", some "--notice", [room, .text "text"]),
    ("invite", none, [room, target]),
    ("set-power-level", none, [room, target, ⟨"level", true⟩]),
    ("typing", some "--stop", [room]),
    ("members", none, [room])]

def commandGrammar (flag : Option String) (positionals : List Positional) : Grammar where
  options := helpOption :: flag.toList.map fun name => ⟨[name], false⟩
  positionals := positionals

def commandOf (name : String) (r : Reading) : Command :=
  let flag := !r.options.isEmpty
  let arg (key : String) : Value := (r.positionals.lookup key).getD .null
  match name with
  | "join" => .join (arg "room") flag
  | "send" => .send (arg "room") (arg "text") flag
  | "invite" => .invite (arg "room") (arg "target")
  | "set-power-level" => .setPowerLevel (arg "room") (arg "target") (arg "level")
  | "typing" => .typing (arg "room") flag
  | "members" => .members (arg "room")
  | _ => .whoami

/-- Reads a command. The result has the arguments that there was no use for. -/
def readCommand (name : String) (args : List String) :
    Except UsageError (Command × List String) := do
  match commands.lookup name with
  | none => throw (.invalidChoice "command" name (commands.map (·.1)))
  | some (flag, positionals) =>
    let r ← (commandGrammar flag positionals).read args
    return (commandOf name r, r.extras)

/-- Reads the arguments of a run. Of an option that is given more than once, the last one counts. -/
def Arguments.read (args : List String) : Except UsageError Arguments := do
  let tokens ← mainGrammar.tokens args
  let (r, command?) ← Grammar.readCommand {} (tokens.length + 1) tokens args
  match command? with
  | none => throw (.required (mainGrammar.positionals.map Positional.name))
  | some (name, rest) =>
    let (command, extras) ← readCommand name rest
    let extras := r.extras ++ extras
    unless extras.isEmpty do throw (.unrecognized extras)
    let value (name : String) : Option String := r.options.reverse.lookup name
    return {
      config := value "--config"
      registry := value "--registry"
      homeserverUrl := value "--homeserver-url"
      domain := value "--domain"
      user := value "--user"
      customPuppet := (value "--custom-puppet").isSome
      stats := (value "--stats").isSome
      logLevel := value "--log-level"
      logFile := value "--log-file"
      command
    }

end VirtualUsers.CommandLine
