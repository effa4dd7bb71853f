import VirtualUsers.Text
import VirtualUsers.Value
/-!
# Failures

Why an operation did not give a result. Requests that the homeserver refused carry a kind, which
tells the refusals that are tolerated from those that are not.
-/

namespace VirtualUsers

/-- What a refused or failed request comes down to. -/
inductive ErrorKind where
  | forbidden
  | userInUse
  | alreadyInRoom
  | notFound
  | rateLimited
  | unknownToken
  | badRequest
  | network
  | unknown
deriving DecidableEq, Inhabited

namespace ErrorKind

def all : List ErrorKind :=
  [forbidden, userInUse, alreadyInRoom, notFound, rateLimited, unknownToken, badRequest, network,
    unknown]

def name : ErrorKind → String
  | forbidden => "forbidden"
  | userInUse => "user_in_use"
  | alreadyInRoom => "already_in_room"
  | notFound => "not_found"
  | rateLimited => "rate_limited"
  | unknownToken => "unknown_token"
  | badRequest => "bad_request"
  | network => "network"
  | unknown => "unknown"

def ofName? (s : String) : Option ErrorKind :=
  all.find? (·.name == s)

theorem ofName?_name (k : ErrorKind) : ofName? k.name = some k := by
  cases k <;> rfl

end ErrorKind

structure RequestError where
  kind : ErrorKind
  text : String
  /-- The code that the homeserver gave; it may have put anything there. -/
  errcode : Value := .null
  status : Value := .null
deriving Inhabited

def RequestError.message (e : RequestError) : String :=
  if e.errcode.truthy then e.errcode.display ++ ": " ++ e.text else e.text

inductive FileProblem where
  | missing
  | isDirectory
  | notDirectory
  | present
deriving DecidableEq, Inhabited

def FileProblem.message (p : FileProblem) (path : String) : String :=
  let (number, text) := match p with
    | missing => ("2", "No such file or directory")
    | present => ("17", "File exists")
    | notDirectory => ("20", "Not a directory")
    | isDirectory => ("21", "Is a directory")
  "[Errno " ++ number ++ "] " ++ text ++ ": " ++ Text.quoted path

inductive Failure where
  /-- The homeserver refused, or could not be reached. -/
  | request (error : RequestError)
  /-- A user could not be registered or joined first. -/
  | precondition (stage : String) (cause : Failure)
  /-- Any other cause, of which only the text is known. -/
  | plain (text : String)
  /-- A value that no payload can hold is in the given one. -/
  | unencodable (value : Value)
  | undecodable
  | contentNotMap
  | wrongType
  | badValue
  | noAttribute
  | overflow
  | eventNotMap
  | eventRoom
  | eventType
  | eventContent
  | eventStateKey
  | localpart (given : Value)
  | puppetDiffers (user : String) (puppet : Bool)
  | lineFormat (format : String)
  /-- A settings file that is not TOML. -/
  | settingsSyntax
  /-- A registry file that is not TOML. -/
  | registrySyntax
  | notUtf8
  /-- No home directory is known in which files could be kept. -/
  | noHome
  | file (problem : FileProblem) (path : String)
deriving Inhabited

namespace Failure

def kind : Failure → ErrorKind
  | request e => e.kind
  | precondition _ cause => cause.kind
  | _ => .unknown

/-- Some value is of the right type but not one that can be used. -/
def isBadValue : Failure → Bool
  | unencodable _ | undecodable | contentNotMap | badValue | eventRoom | eventType | localpart _
  | puppetDiffers .. | lineFormat _ | settingsSyntax | registrySyntax | notUtf8 => true
  | _ => false

def message : Failure → String
  | request e => e.message
  | precondition stage cause => stage ++ ": " ++ cause.message
  | plain text => text
  | contentNotMap => "event content must be a map"
  | eventNotMap => "event must be a JSON object"
  | eventRoom => "event room_id must be a non-empty string"
  | eventType => "event type must be a non-empty string"
  | eventContent => "event content must be a map"
  | eventStateKey => "state key must be a string"
  | localpart given => "invalid localpart " ++ given.shown
  | puppetDiffers user puppet =>
    "intent for " ++ user ++ " already exists with is_custom_puppet=" ++ (Value.bool puppet).shown
  | lineFormat format => "Invalid format '" ++ format ++ "' for '%' style"
  | undecodable => "cannot decode payload"
  | noHome => "Could not determine home directory."
  | _ => ""

end Failure

/-! ## Attempts

An attempt works on a state and gives a result or a failure. What it changed before a failure stays
changed. -/

/-- A computation on a state that may fail; a failure does not undo what was changed before. -/
abbrev Attempt (σ : Type) := ExceptT Failure (StateM σ)

namespace Attempt

def outcome (x : Attempt σ α) (s : σ) : Except Failure α × σ :=
  x.run.run s

def ofResult : Except Failure α → Attempt σ α
  | .ok a => pure a
  | .error e => throw e

/-- Makes an attempt on a part of the state. -/
def within (get : σ → τ) (set : τ → σ → σ) (x : Attempt τ α) : Attempt σ α := do
  let (result, part) := x.outcome (get (← MonadState.get))
  modify (set part)
  ofResult result

/-- The result of an attempt, a failure included. -/
def result (x : Attempt σ α) : Attempt σ (Except Failure α) :=
  tryCatch (.ok <$> x) fun e => pure (.error e)

end Attempt

end VirtualUsers
