import VirtualUsers.Protocol
import VirtualUsers.Value.Coerce
/-!
# Power levels

`PowerLevels` is the power level record of a room as it is kept, with whole numbers throughout.
`PowerLevels.Draft` is a record that is being put together or edited; its fields may hold anything.
-/

namespace VirtualUsers

structure PowerLevels where
  users : List (String × Int) := []
  usersDefault : Int := DefaultLevel.users
  events : List (String × Int) := []
  eventsDefault : Int := DefaultLevel.events
  stateDefault : Int := DefaultLevel.state
  ban : Int := DefaultLevel.ban
  kick : Int := DefaultLevel.kick
  redact : Int := DefaultLevel.redact
  invite : Int := DefaultLevel.invite
deriving DecidableEq, Inhabited

/-- Power levels whose fields are not checked. -/
structure PowerLevels.Draft where
  users : Value := .map []
  usersDefault : Value := .int DefaultLevel.users
  events : Value := .map []
  eventsDefault : Value := .int DefaultLevel.events
  stateDefault : Value := .int DefaultLevel.state
  ban : Value := .int DefaultLevel.ban
  kick : Value := .int DefaultLevel.kick
  redact : Value := .int DefaultLevel.redact
  invite : Value := .int DefaultLevel.invite
deriving Inhabited

namespace PowerLevels

/-- The levels in a map from text keys. Entries under other keys are left out, and what is no
number counts as the default. -/
def levelsOf (default : Int) : List (Value × Value) → Except Failure (List (String × Int))
  | [] => .ok []
  | (.text k, v) :: rest => do
    let n ← v.toIntOr default
    return (k, n) :: (← levelsOf default rest)
  | _ :: rest => levelsOf default rest

def levelsOfValue (default : Int) : Value → Except Failure (List (String × Int))
  | .map entries => levelsOf default entries
  | _ => .ok []

def ofContent (content : Value) : Except Failure PowerLevels := do
  let level (key : String) (default : Int) : Except Failure Int :=
    content.field key >>= Value.toIntOr default
  let users ← content.field "users" >>= levelsOfValue DefaultLevel.users
  let events ← content.field "events" >>= levelsOfValue DefaultLevel.events
  return {
    users, events
    usersDefault := ← level "users_default" DefaultLevel.users
    eventsDefault := ← level "events_default" DefaultLevel.events
    stateDefault := ← level "state_default" DefaultLevel.state
    ban := ← level "ban" DefaultLevel.ban
    kick := ← level "kick" DefaultLevel.kick
    redact := ← level "redact" DefaultLevel.redact
    invite := ← level "invite" DefaultLevel.invite
  }

def levelMap (levels : List (String × Int)) : Value :=
  .record (levels.map fun (k, n) => (k, .int n))

def draft (l : PowerLevels) : Draft where
  users := levelMap l.users
  usersDefault := .int l.usersDefault
  events := levelMap l.events
  eventsDefault := .int l.eventsDefault
  stateDefault := .int l.stateDefault
  ban := .int l.ban
  kick := .int l.kick
  redact := .int l.redact
  invite := .int l.invite

def userLevel (l : PowerLevels) (user : String) : Int :=
  (l.users.lookup user).getD l.usersDefault

namespace Draft

def lookup (key : Value) (entries : List (Value × Value)) : Option Value :=
  (entries.find? fun (k, _) => k.same key).map (·.2)

def userLevel (d : Draft) (user : Value) : Except Failure Value :=
  match d.users with
  | .map entries => user.toKey.map fun _ => (lookup user entries).getD d.usersDefault
  | _ => .error .noAttribute

def dropUser (user : Value) : Value → Except Failure Value
  | .map [] => .ok (.map [])
  | .map entries => user.toKey.map fun _ => .map (entries.filter fun (k, _) => !k.same user)
  | .list _ => .error .wrongType
  | _ => .error .noAttribute

def enterUser (user : Value) (level : Int) : Value → Except Failure Value
  | .map entries => user.toKey.map fun _ => .map (Value.put user (.int level) entries)
  | _ => .error .wrongType

/-- Gives a user a level. A user at the default of the room needs no entry. -/
def setUserLevel (d : Draft) (user level : Value) : Except Failure Draft := do
  if level.same d.usersDefault then
    return { d with users := ← dropUser user d.users }
  else
    let n ← level.toInt
    return { d with users := ← enterUser user n d.users }

def pairOf : Value → Except Failure (Value × Value)
  | .list [k, v] => .ok (k, v)
  | .text s =>
    match s.toList with
    | [k, v] => .ok (.text k.toString, .text v.toString)
    | _ => .error .badValue
  | .bytes [k, v] => .ok (.int k.toNat, .int v.toNat)
  | .map [(k, _), (v, _)] => .ok (k, v)
  | .list _ | .bytes _ | .map _ => .error .badValue
  | _ => .error .wrongType

def ofPairs (entries : List (Value × Value)) : List Value → Except Failure (List (Value × Value))
  | [] => .ok entries
  | item :: rest => do
    let (k, v) ← pairOf item
    let _ ← k.toKey
    ofPairs (Value.put k v entries) rest

/-- A copy of a map. A list of pairs counts as a map too. -/
def copyMap : Value → Except Failure Value
  | .map entries => .ok (.map entries)
  | .list items => (ofPairs [] items).map .map
  | .text s =>
    (ofPairs [] (s.toList.map fun c => .text c.toString)).map .map
  | .bytes bs => if bs.isEmpty then .ok (.map []) else .error .wrongType
  | _ => .error .wrongType

def toContent (d : Draft) : Except Failure Value := do
  return .record [
    ("users", ← copyMap d.users),
    ("users_default", d.usersDefault),
    ("events", ← copyMap d.events),
    ("events_default", d.eventsDefault),
    ("state_default", d.stateDefault),
    ("ban", d.ban),
    ("kick", d.kick),
    ("redact", d.redact),
    ("invite", d.invite)]

def finish (d : Draft) : Except Failure PowerLevels :=
  d.toContent >>= PowerLevels.ofContent

def toValue (d : Draft) : Value :=
  .levels d.users d.usersDefault d.events d.eventsDefault d.stateDefault d.ban d.kick d.redact
    d.invite

end Draft

end PowerLevels

end VirtualUsers
