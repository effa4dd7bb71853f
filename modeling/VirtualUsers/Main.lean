import Std.Time.DateTime.Timestamp
import VirtualUsers.CommandLine.Run
/-!
# The program

Reads the files that a run looks at, does the run, and writes what it changed. There is no network
here: every request meets a homeserver that is out of reach.
-/

namespace VirtualUsers

/-! ## What a run starts with -/

def variableOf? (bytes : List UInt8) : Option (String × String) := do
  let cs := (← Text.ofUtf8? bytes).toList
  let name := cs.takeWhile (· != '=')
  if name.length < cs.length then
    return (String.ofList name, String.ofList (cs.drop (name.length + 1)))
  else none

/-- The home directory that the table of accounts has for the user of this process. -/
def readAccountHome : IO (Option String) := do
  let status ← IO.FS.readFile "/proc/self/status"
  let accounts ← IO.FS.readFile "/etc/passwd"
  let user? := (status.splitOn "\n").findSome? fun line =>
    match line.splitOn "\t" with
    | "Uid:" :: user :: _ => some user
    | _ => none
  return user?.bind fun user => (accounts.splitOn "\n").findSome? fun line =>
    match line.splitOn ":" with
    | [_, _, id, _, _, home, _] => if id == user then some home else none
    | _ => none

def readEnvironment : IO Environment := do
  let bytes ← IO.FS.readBinFile "/proc/self/environ"
  return {
    entries := (bytes.toList.splitOn 0).filterMap variableOf?
    accountHome := ← readAccountHome }

def explain : Failure → String
  | .file problem path => problem.message path
  | .settingsSyntax => "the settings are not TOML"
  | .registrySyntax => "the registry is not TOML"
  | .wrongType => "a value is of the wrong type"
  | e => e.message

def readClock : IO Int := do
  let now ← Std.Time.Timestamp.now
  match Event.milliseconds (.ofQuotient now.toNanosecondsSinceUnixEpoch.val 1000000000) with
  | .ok n => return n
  | .error e => throw (IO.userError (explain e))

/-! ## Files -/

def enclosing (path : String) : List String :=
  let names := (Path.names path).dropLast
  (List.range names.length).map fun n =>
    Path.root path ++ "/".intercalate (names.take (n + 1))

def addNode (files : FileTree) (path : String) : IO FileTree := do
  match ← (IO.FS.readFile path).toBaseIO with
  | .ok text => return (files.write path text).toOption.getD files
  | .error (.inappropriateType ..) => return (files.makeDirectory path).toOption.getD files
  | .error (.noFileOrDirectory ..) => return files
  | .error e => throw e

def otherFiles (env : Environment) (a : CommandLine.Arguments) (s : Settings) : List String :=
  let registry := (Bridge.registryPathOf env s.registryPath).toOption.join
  let log := (Journal.textOf? s.logFile).map (Journal.resolve env)
  registry.toList ++ if a.logFile == some "" then [] else log.toList

/-- The paths that a run works with, each after the directories around it, and what is there. -/
def readFiles (env : Environment) (arguments : List String) : IO (List String × FileTree) := do
  match CommandLine.Arguments.read arguments, env.settingsPath with
  | .ok a, .ok settingsPath =>
    let path := a.config.getD settingsPath
    let paths := enclosing path ++ [path]
    let files ← paths.foldlM addNode {}
    match Settings.load files path {} with
    | .error _ => return (paths, files)
    | .ok s =>
      let others := (otherFiles env a (a.overlay s)).flatMap fun p => enclosing p ++ [p]
      return (paths ++ others, ← others.foldlM addNode files)
  | _, _ => return ([], {})

def changeMode (path : String) (old mode : Nat) : IO Unit := do
  let right (n : Nat) : IO.AccessRight :=
    { read := n.testBit 2, write := n.testBit 1, execution := n.testBit 0 }
  unless mode == old do
    IO.setAccessRights path
      { user := right (mode / 64), group := right (mode / 8), other := right mode }

/-- Brings what is at a path from one tree to another. A mode is set only where the run has set it,
so that what was there keeps its own. -/
def writeBack (before after : FileTree) (path : String) : IO Unit := do
  match (before.find? path).toOption.join, (after.find? path).toOption.join with
  | none, some (.directory mode) =>
    IO.FS.createDir path
    changeMode path FileTree.directoryMode mode
  | some (.directory old), some (.directory mode) => changeMode path old mode
  | none, some (.file text mode) =>
    IO.FS.writeFile path text
    changeMode path FileTree.fileMode mode
  | some (.file oldText old), some (.file text mode) =>
    unless text == oldText do IO.FS.writeFile path text
    changeMode path old mode
  | _, _ => return

end VirtualUsers

open VirtualUsers in
def main (arguments : List String) : IO UInt32 := do
  let environment ← readEnvironment
  let (paths, files) ← readFiles environment arguments
  let answers := List.replicate 16 (Answer.unreachable "there is no network")
  let now ← readClock
  let (result, after) :=
    (CommandLine.run arguments).outcome { environment, files, answers, now }
  paths.eraseDups.forM (writeBack files after.files)
  (← IO.getStderr).putStr after.journal.console
  match result with
  | .ok ending =>
    ending.lines.forM IO.println
    return UInt32.ofNat ending.status
  | .error e =>
    IO.eprintln ("error: " ++ explain e)
    return 1
