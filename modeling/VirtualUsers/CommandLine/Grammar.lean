import VirtualUsers.Number.Decimal
import VirtualUsers.Text
import VirtualUsers.Value
/-!
# Reading command lines

A grammar says which options and which positional arguments there are. Long options may be cut
short as long as only one matches, and may have their value after an equals sign. After two dashes
all arguments are positional.
-/

namespace VirtualUsers.CommandLine

/-- An option with the names that it goes by. Only flags have names of one letter. -/
structure OptionSpec where
  names : List String
  takesValue : Bool
deriving DecidableEq

/-- A positional argument, which may have to be a whole number. -/
structure Positional where
  name : String
  isNumber : Bool := false
deriving DecidableEq

/-- The options and the positional arguments. In place of the latter there may be a command, which
takes everything that follows. -/
structure Grammar where
  options : List OptionSpec
  positionals : List Positional

inductive UsageError where
  | ambiguous (given : String) (matching : List String)
  | expectedOne (names : List String)
  | ignored (names : List String) (value : String)
  | invalidChoice (name given : String) (choices : List String)
  | invalidInt (name given : String)
  | required (names : List String)
  | unrecognized (given : List String)
  /-- Not an error: the usage is asked for. -/
  | help

def UsageError.message : UsageError → String
  | ambiguous given matching =>
    "ambiguous option: " ++ given ++ " could match " ++ ", ".intercalate matching
  | expectedOne names => "argument " ++ "/".intercalate names ++ ": expected one argument"
  | ignored names value =>
    "argument " ++ "/".intercalate names ++ ": ignored explicit argument " ++ Text.quoted value
  | invalidChoice name given choices =>
    "argument " ++ name ++ ": invalid choice: " ++ Text.quoted given ++ " (choose from "
      ++ ", ".intercalate (choices.map Text.quoted) ++ ")"
  | invalidInt name given => "argument " ++ name ++ ": invalid int value: " ++ Text.quoted given
  | required names => "the following arguments are required: " ++ ", ".intercalate names
  | unrecognized given => "unrecognized arguments: " ++ " ".intercalate given
  | help => ""

/-- What an argument is taken for. -/
inductive Token where
  | positional (text : String)
  /-- The two dashes. -/
  | dashes
  /-- An option, under one of its names, with the value in the same argument if there is one. -/
  | option (spec : OptionSpec) (name : String) (value : Option String)
  /-- What looks like an option that there is none of. -/
  | unknown (text : String)

namespace Token

/-- The argument has to be handled as an option. -/
def isOption : Token → Bool
  | option .. => true
  | unknown _ => true
  | _ => false

end Token

def splitEquals (s : String) : Option (String × String) :=
  let cs := s.toList
  let before := cs.takeWhile (· != '=')
  if before.length < cs.length then
    some (String.ofList before, String.ofList (cs.drop (before.length + 1)))
  else none

def Grammar.named (g : Grammar) : List (String × OptionSpec) :=
  g.options.flatMap fun o => o.names.map (·, o)

def Grammar.candidates (g : Grammar) (s : String) : List (OptionSpec × String × Option String) :=
  match s.toList with
  | '-' :: '-' :: _ =>
    let (start, value) := match splitEquals s with
      | some (start, value) => (start, some value)
      | none => (s, none)
    g.named.filterMap fun (name, o) => if name.startsWith start then some (o, name, value) else none
  | '-' :: c :: rest =>
    g.named.filterMap fun (name, o) =>
      if name == String.ofList ['-', c] then some (o, name, some (String.ofList rest))
      else if name.startsWith s then some (o, name, none)
      else none
  | _ => []

/-- The text is a minus sign and digits, with at most one point that has digits after it. -/
def looksNegative (cs : List Char) : Bool :=
  let isDigit (c : Char) : Bool := (Text.digitValue? c).isSome
  match cs with
  | '-' :: rest =>
    match rest.dropWhile isDigit with
    | [] => !rest.isEmpty
    | '.' :: fraction => !fraction.isEmpty && fraction.all isDigit
    | _ => false
  | _ => false

def Grammar.classify (g : Grammar) (s : String) : Except UsageError Token :=
  if !s.startsWith "-" then .ok (.positional s)
  else match g.named.lookup s with
    | some o => .ok (.option o s none)
    | none =>
      if s.length == 1 then .ok (.positional s)
      else match (splitEquals s).bind fun (name, value) =>
          if name.startsWith "--" then
            (g.named.lookup name).map fun o => Token.option o name (some value)
          else none with
        | some token => .ok token
        | none =>
          match g.candidates s with
          | [(o, name, value)] => .ok (.option o name value)
          | [] =>
            if looksNegative s.toList || s.contains ' ' then .ok (.positional s)
            else .ok (.unknown s)
          | several => .error (.ambiguous s (several.map (·.2.1)))

def Grammar.tokens (g : Grammar) : List String → Except UsageError (List Token)
  | [] => .ok []
  | "--" :: rest => .ok (.dashes :: rest.map .positional)
  | s :: rest => do return (← g.classify s) :: (← g.tokens rest)

/-- What was read of a command line: the options with their values, the positional arguments by
name, and what there was no use for. -/
structure Reading where
  options : List (String × String) := []
  positionals : List (String × Value) := []
  extras : List String := []

/-- The positional arguments at the front, each with the two dashes next to it. Two more dashes
alone are an argument that holds nothing. -/
def takePositionals : List Positional → List Token →
    List (Positional × Value) × List Positional × List Token
  | p :: ps, .positional "--" :: rest => next p ps (.list []) rest
  | p :: ps, .positional text :: rest => next p ps (.text text) rest
  | p :: ps, .dashes :: .positional text :: rest => next p ps (.text text) rest
  | ps, tokens => ([], ps, tokens)
where
  next (p : Positional) (ps : List Positional) (value : Value) (rest : List Token) :
      List (Positional × Value) × List Positional × List Token :=
    let (values, left, rest) := match rest with
      | .dashes :: rest => takePositionals ps rest
      | rest => takePositionals ps rest
    ((p, value) :: values, left, rest)

def Positional.read (p : Positional) (value : Value) : Except UsageError Value :=
  match p.isNumber, value with
  | true, .text text =>
    match Number.parseInt? text.toList with
    | some n => .ok (.int n)
    | none => .error (.invalidInt p.name text)
  | _, value => .ok value

def tokenText : Token → String
  | .positional text => text
  | .dashes => "--"
  | .option _ name none => name
  | .option _ name (some value) => name ++ "=" ++ value
  | .unknown text => text

/-- What a flag does that asks for the usage by its letter, with what follows the letter in the same
argument. The letter may be repeated; a value is refused; anything else is left alone. -/
def askedByLetter (names : List String) : List Char → UsageError
  | 'h' :: rest => askedByLetter names rest
  | '=' :: rest => .ignored names (String.ofList rest)
  | '-' :: rest => .ignored names (String.ofList ('-' :: rest))
  | _ => .help

def takeOption (o : OptionSpec) (name : String) (value : Option String) (rest : List Token) :
    Except UsageError (String × List Token) :=
  match o.takesValue, value, rest with
  | true, some value, rest => .ok (value, rest)
  | true, none, .positional value :: rest => .ok (value, rest)
  | true, none, _ => .error (.expectedOne o.names)
  | false, none, rest => if o.names.contains "--help" then .error .help else .ok ("", rest)
  | false, some value, _ =>
    .error (if name == "-h" then askedByLetter o.names value.toList else .ignored o.names value)

/-- Reads arguments one after another. The result has the positional arguments that are missing. -/
def Grammar.readTokens (missing : List Positional) (r : Reading) : Nat → List Token →
    Except UsageError (List Positional × Reading)
  | 0, _ => .ok (missing, r)
  | _, [] => .ok (missing, r)
  | fuel + 1, .unknown text :: rest =>
    readTokens missing { r with extras := r.extras ++ [text] } fuel rest
  | fuel + 1, .option o name value :: rest => do
    let (value, rest) ← takeOption o name value rest
    readTokens missing
      { r with options := r.options ++ [(o.names.getLast?.getD name, value)] } fuel rest
  | fuel + 1, tokens => do
    let (values, missing, rest) := takePositionals missing tokens
    if values.isEmpty then
      let skipped := tokens.takeWhile (!·.isOption)
      readTokens missing { r with extras := r.extras ++ skipped.map tokenText } fuel
        (tokens.dropWhile (!·.isOption))
    else
      let values ← values.mapM fun (p, value) => return (p.name, ← p.read value)
      readTokens missing { r with positionals := r.positionals ++ values } fuel rest

def Grammar.read (g : Grammar) (args : List String) : Except UsageError Reading := do
  let tokens ← g.tokens args
  let (missing, r) ← readTokens g.positionals {} (2 * tokens.length + 1) tokens
  if missing.isEmpty then return r else throw (.required (missing.map Positional.name))

/-- Reads options up to a command. The result has the command and the arguments after it. -/
def Grammar.readCommand (r : Reading) : Nat → List Token → List String →
    Except UsageError (Reading × Option (String × List String))
  | fuel + 1, .unknown text :: rest, _ :: args =>
    readCommand { r with extras := r.extras ++ [text] } fuel rest args
  | fuel + 1, .option o name value :: rest, _ :: args => do
    let (value, after) ← takeOption o name value rest
    readCommand { r with options := r.options ++ [(o.names.getLast?.getD name, value)] } fuel after
      (args.drop (rest.length - after.length))
  | _, .positional _ :: _, command :: args => .ok (r, some (command, args))
  | _, .dashes :: .positional _ :: _, _ :: args => .ok (r, some ("--", args))
  | _, .dashes :: _, _ => .ok ({ r with extras := r.extras ++ ["--"] }, none)
  | _, _, _ => .ok (r, none)

end VirtualUsers.CommandLine
