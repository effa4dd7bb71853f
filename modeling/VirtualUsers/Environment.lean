import VirtualUsers.Failure
import VirtualUsers.Files
import VirtualUsers.Text
/-!
# Environment

The named texts that the program was started with, their use within paths, and the places for its
files that follow from them.
-/

namespace VirtualUsers

/-- Named texts, and the home directory of the account that runs the program, if it has one. -/
structure Environment where
  entries : List (String × String) := []
  accountHome : Option String := none
deriving Inhabited

namespace Environment

def get? (env : Environment) (name : String) : Option String :=
  env.entries.lookup name

/-- A character of a name that is written without braces. -/
def isNameChar (c : Char) : Bool :=
  c.isAlphanum || c == '_'

/-- The text in place of a reference: the value of the name, or else the reference itself. -/
def substitute (env : Environment) (name reference : List Char) : List Char :=
  match env.get? (String.ofList name) with
  | some value => value.toList
  | none => reference

/-- Puts values in place of references. A reference is a dollar sign before a name, which may
be any text in braces. What was put in is not looked at again. -/
def expandVariables (env : Environment) : List Char → List Char
  | [] => []
  | '$' :: '\x7b' :: rest =>
    let name := rest.takeWhile (· != '\x7d')
    if name.length < rest.length then
      env.substitute name ('$' :: '\x7b' :: name ++ ['\x7d'])
        ++ expandVariables env (rest.drop (name.length + 1))
    else '$' :: expandVariables env ('\x7b' :: rest)
  | '$' :: rest =>
    let name := rest.takeWhile isNameChar
    if name.isEmpty then '$' :: expandVariables env rest
    else env.substitute name ('$' :: name) ++ expandVariables env (rest.drop name.length)
  | c :: rest => c :: expandVariables env rest
termination_by cs => cs.length
decreasing_by all_goals simp only [List.length_cons, List.length_drop]; omega

/-- Puts the home directory in place of a tilde that is the first name of a path. Where no home
directory is known the tilde stays. -/
def expandHome (env : Environment) (path : List Char) : List Char :=
  match path, env.get? "HOME" <|> env.accountHome with
  | '~' :: rest, some home =>
    if rest.isEmpty || rest.head? == some '/' then
      let whole := Text.dropRight (· == '/') home.toList ++ rest
      if whole.isEmpty then ['/'] else whole
    else path
  | _, _ => path

def expand (env : Environment) (path : String) : String :=
  String.ofList (env.expandHome (env.expandVariables path.toList))

/-- A home directory that begins with a tilde itself is taken for one that is not known. -/
def homeDirectory (env : Environment) : Except Failure String :=
  let home := env.expandHome ['~']
  if home.head? == some '~' then .error .noHome else .ok (String.ofList home)

def programDirectory (env : Environment) : Except Failure String :=
  let override := (env.get? "MXINTENT_HOME").getD ""
  if override != "" then .ok (Path.normalize override)
  else env.homeDirectory.map (Path.child · ".mxintent")

def settingsPath (env : Environment) : Except Failure String :=
  env.programDirectory.map (Path.child · "mxintent.toml")

def registryPath (env : Environment) : Except Failure String :=
  env.programDirectory.map (Path.child · "registered.toml")

end Environment

end VirtualUsers
