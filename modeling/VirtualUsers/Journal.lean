import VirtualUsers.Failure
import VirtualUsers.Environment
import VirtualUsers.Files
import VirtualUsers.Journal.LineFormat
import VirtualUsers.Settings
/-!
# The journal

Notes on what the program does go to the console, to a file, or to both. The libraries that make
requests have levels of their own; all others share one.
-/

namespace VirtualUsers

namespace Journal

inductive Destination where
  | console
  | file (path : String)
  /-- A destination of the program around this one. -/
  | foreign (name : String)
deriving DecidableEq

/-- A destination and the form of the notes for it. -/
structure Handler where
  destination : Destination
  format : String
  dateFormat : Option String
deriving DecidableEq

end Journal

/-- Where notes go, which of them count, and what the console shows. -/
structure Journal where
  handlers : List Journal.Handler := []
  level : Value := .int 30
  /-- The level of `urllib3`. -/
  httpLevel : Value := .int 0
  /-- The level of `requests`. -/
  requestsLevel : Value := .int 0
  console : String := ""
deriving Inhabited

namespace Journal

def defaultFormat := "%(asctime)s %(levelname)s %(name)s: %(message)s"

/-- The name is that of a library, or of a part of it. -/
def isWithin (library name : String) : Bool :=
  name == library || name.startsWith (library ++ ".")

def libraryLevels (j : Journal) : List (String × Value) :=
  [("urllib3", j.httpLevel), ("requests", j.requestsLevel)]

def isHttp (name : String) : Bool :=
  ["urllib3", "requests"].any (isWithin · name)

def threshold (j : Journal) (name : String) : Int :=
  let own := (j.libraryLevels.find? fun l => isWithin l.1 name).elim 0 fun l => levelNumber l.2
  if own == 0 then levelNumber j.level else own

/-- A note: who makes it, how much it matters, and what it says. -/
structure Note where
  name : String
  level : Int
  text : String

def Note.part? (n : Note) (dateFormat : Option String) (field : String) : Option Part :=
  match field with
  | "name" => some (.text n.name)
  | "levelname" => some (.text (levelName n.level))
  | "levelno" => some (.number n.level)
  | "message" => some (.text n.text)
  | "asctime" => some (.text (dateFormat.getD ""))
  | "threadName" => some (.text "MainThread")
  | "processName" => some (.text "MainProcess")
  | _ => none

def Handler.line? (h : Handler) (n : Note) : Option String :=
  (renderLine (n.part? h.dateFormat) (h.format.length + 1) h.format.toList).map fun cs =>
    String.ofList cs ++ "\n"

def say (text : String) (j : Journal) : Journal :=
  { j with console := j.console ++ text ++ "\n" }

/-- Gives a note to a destination. A note that has no line is lost, and a file that cannot be
written is left alone. What becomes of a note elsewhere is not known. -/
def Handler.write (n : Note) (state : Journal × FileTree) (h : Handler) : Journal × FileTree :=
  let (journal, files) := state
  match h.line? n, h.destination with
  | some line, .console => ({ journal with console := journal.console ++ line }, files)
  | some line, .file path => (journal, (files.append path line).toOption.getD files)
  | _, _ => state

/-- The note matters enough to be written. Those of level zero never do. -/
def counts (j : Journal) (n : Note) : Bool :=
  0 < n.level && j.threshold n.name ≤ n.level

/-- Takes a note. Without any destination, warnings still reach the console. -/
def write (journal : Journal) (files : FileTree) (n : Note) : Journal × FileTree :=
  if !journal.counts n then (journal, files)
  else if journal.handlers.isEmpty then
    (if 30 ≤ n.level && !isHttp n.name then journal.say n.text else journal, files)
  else journal.handlers.foldl (Handler.write n) (journal, files)

def readText (v : Value) : Except Failure String :=
  if v.hasText then .ok v.display else .error .badValue

/-- The text of a setting unless it is missing or blank. -/
def textOf? : Value → Option String
  | .null => none
  | v => if Text.blank v.display then none else some v.display

def readText? (v : Value) : Except Failure (Option String) :=
  if v.hasText then .ok (textOf? v) else .error .badValue

/-- The text for the path of the file, if there is to be one. The given one comes first. -/
def readPath? (s : Settings) (file : Value) : Except Failure (Option String) := do
  match ← readText? file with
  | some path => return some path
  | none => readText? s.logFile

def resolve (env : Environment) (path : String) : String :=
  Path.normalize (String.ofList (env.expandHome path.toList))

def openFile (env : Environment) (path : String) : Attempt FileTree Destination := do
  let path := resolve env path
  set (← Attempt.ofResult ((← get).makeDirectory (Path.parent path)))
  set (← Attempt.ofResult ((← get).append path ""))
  modify fun files => files.setMode path FileTree.privateFileMode
  return .file path

def formatOf (s : Settings) : String :=
  let given := Text.strip s.logFormat.display
  if given == "" then defaultFormat else given

/-- The form of lines, and of dates in them. A form without any field is refused. -/
def readForm (s : Settings) : Except Failure (String × Option String) := do
  let _ ← readText s.logFormat
  let dateFormat ← readText? s.logDateFormat
  if hasField (formatOf s).toList then return (formatOf s, dateFormat)
  else throw (.lineFormat (formatOf s))

/-- Where notes are to go: to the console, to a file, which is opened, or to both. -/
def openAll (env : Environment) (s : Settings) (file : Value) :
    Attempt FileTree (List Destination) := do
  let console := if s.logConsole.truthy then [Destination.console] else []
  match ← Attempt.ofResult (readPath? s file) with
  | some path => return console ++ [← openFile env path]
  | none => return console

def prepare (env : Environment) (s : Settings) (file : Value) :
    Attempt FileTree (List Handler) := do
  let destinations ← openAll env s file
  let (format, dateFormat) ← Attempt.ofResult (readForm s)
  return destinations.map fun destination => { destination, format, dateFormat }

/-- Sets the journal up from settings. The level and the file may be overridden. -/
def configure (env : Environment) (s : Settings) (level file : Value) :
    Attempt (Journal × FileTree) Unit := do
  let handlers ← Attempt.within Prod.snd (fun files (j, _) => (j, files)) (prepare env s file)
  modify fun (j, files) => ({ j with handlers }, files)
  let level ← Attempt.ofResult (readLevel (level.orElse s.logLevel) 20)
  modify fun (j, files) => ({ j with level }, files)
  let http ← Attempt.ofResult (readLevel s.logHttpLevel 30)
  modify fun (j, files) => ({ j with httpLevel := http, requestsLevel := http }, files)

end Journal

end VirtualUsers
