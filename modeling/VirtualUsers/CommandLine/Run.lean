import VirtualUsers.Bridge.Service
import VirtualUsers.CommandLine.Arguments
import VirtualUsers.Settings
/-!
# Runs

A run reads its arguments and its settings, does one command as a user, and reports how that went.
Where there are no settings yet it writes the first ones and does nothing else.
-/

namespace VirtualUsers.CommandLine

open Attempt (ofResult)

/-- How a run ended: the status that it gives, and the lines that it printed. -/
structure Ending where
  status : Nat
  lines : List String := []
deriving DecidableEq, Inhabited

def Arguments.overlay (a : Arguments) (s : Settings) : Settings :=
  let change (value : Option String) (name : String) (s : Settings) : Settings :=
    match value with
    | some v => s.set name (.text v)
    | none => s
  let orNull (value : Option String) (name : String) (s : Settings) : Settings :=
    if value == some "" then s.set name .null else change value name s
  orNull a.registry "registry_path" s
    |> change (a.homeserverUrl.map Text.stripSlashes) "homeserver_url"
    |> change a.domain "homeserver_domain"
    |> change a.logLevel "log_level"
    |> orNull a.logFile "log_file"

/-- The values in ascending order. Texts and numbers cannot be told apart by size. -/
def ascending (values : List Value) : Except Failure (List Value) :=
  if values.all Value.isText then
    .ok (values.mergeSort fun v w => v.display ≤ w.display)
  else if values.all fun v => v.wholeNumber?.isSome then
    .ok (values.mergeSort fun v w => v.wholeNumber?.getD 0 ≤ w.wholeNumber?.getD 0)
  else if values.length ≤ 1 then .ok values
  else .error .wrongType

/-- Does a command as a user. The result is what there is to print. -/
def Command.run (i : Intent) : Command → Act (List String)
  | .whoami => do
    let answer ← Bridge.whoami i
    return [((← ofResult (answer.field "user_id")).orElse (.text i.userId)).display]
  | .join room ignoreCache => do
    Bridge.ensureJoined i room ignoreCache none
    return [i.userId ++ " joined " ++ room.display]
  | .send room text notice => do
    let type := if notice then MessageType.notice else MessageType.text
    return [(← Bridge.sendTyped i room type [("body", text)]).display]
  | .invite room target => do
    Bridge.ensureInvited i room target
    return [target.display ++ " invited to " ++ room.display]
  | .setPowerLevel room target level => do
    match ← Bridge.setPowerLevel i room target (.int (← ofResult level.toInt)) with
    | some id => return [id.display]
    | none => return [target.display ++ " already at level " ++ level.display]
  | .typing room stop => do
    let timeout := (← get).settings.typingTimeout
    let sent ← Bridge.userTyping i room (.bool !stop) timeout
    return [if sent then "sent" else "unchanged"]
  | .members room => do
    let joined ← Bridge.joinedMembers i room
    return (← ofResult (ascending (joined.map (·.1)))).map Value.display

def tell (text : String) : Act Unit :=
  modify fun (b : Bridge) => { b with journal := b.journal.say text }

def perform (a : Arguments) : Act (List String) := do
  let bot := (← get).settings.botLocalpart
  let localpart := ((a.user.map Value.text).getD .null).orElse bot
  a.command.run (← Bridge.intent localpart a.customPuppet)

/-- The status of a run whose command failed, where the failure is one to report. -/
def statusOf? (e : Failure) : Option Nat :=
  if Bridge.isRequest e || Bridge.isPrecondition e then some 1
  else if e.isBadValue then some 2
  else none

/-- The lines of the report. The time is not taken. -/
def report : Act (List String) := do
  let b ← get
  return [b.tally.report 0 (some b.store.counts)]

def writeInitial (registryPath path : String) : Attempt FileTree Unit := do
  let directory := Path.directoryPart path
  if directory != "" then
    set (← ofResult ((← get).makePrivateDirectory directory))
  let files ← ofResult ((← get).write path (Settings.initialText registryPath))
  set (files.setMode path FileTree.privateFileMode)

def configure (a : Arguments) (path : String) : Act Unit := do
  let b ← get
  let settings := a.overlay (← ofResult (Settings.load b.files path {}))
  let value (text : Option String) : Value := text.elim .null .text
  Attempt.within (fun (b : Bridge) => (b.journal, b.files))
    (fun (journal, files) b => { b with journal, files, settings })
    (Journal.configure b.environment settings (value a.logLevel) (value a.logFile))

def runConfigured (a : Arguments) (path : String) : Act Ending := do
  configure a path
  if !(← get).settings.asToken.truthy then
    tell ("as_token is not set in " ++ path)
    return { status := 2 }
  Bridge.load
  match ← Attempt.result (perform a) with
  | .ok lines =>
    let reported ← if a.stats then report else pure []
    return { status := 0, lines := lines ++ reported }
  | .error e =>
    let some status := statusOf? e | throw e
    tell ("error: " ++ e.message)
    return { status }

/-- Does a run with arguments that were read. The settings are at the given path unless the
arguments have another one. -/
def runArguments (a : Arguments) (settingsPath : String) : Act Ending := do
  let b ← get
  let path := a.config.getD settingsPath
  if b.files.exists? path then runConfigured a path
  else
    let registryPath ← ofResult b.environment.registryPath
    Attempt.within Bridge.files (fun files b => { b with files }) (writeInitial registryPath path)
    tell "Created default mxintent config. Edit it before running again:"
    tell ("- Config: " ++ path)
    return { status := 0 }

/-- Does a run. Where the settings are by default is found out first, whatever the arguments. -/
def run (arguments : List String) : Act Ending := do
  let settingsPath ← ofResult (← get).environment.settingsPath
  match Arguments.read arguments with
  | .ok a => runArguments a settingsPath
  | .error .help => return { status := 0 }
  | .error e =>
    tell ("error: " ++ e.message)
    return { status := 2 }

end VirtualUsers.CommandLine
