import VirtualUsers.Cbor
import VirtualUsers.Protocol
import VirtualUsers.Room.PowerLevels
import VirtualUsers.Value.Coerce
/-!
# Events

What is sent to a room and read from it: member records, the content of events and the events
themselves.
-/

namespace VirtualUsers

/-! ## Member records

What is known of a user in a room. A record read from the content of an event holds a recognised
membership and texts; one that was put together by hand holds what it was given. -/

/-- What is known of a user in a room. -/
structure Member where
  membership : Value := .text Membership.none
  displayname : Value := .null
  avatarUrl : Value := .null
deriving Inhabited

namespace Member

def isRecognised : Value → Bool
  | .text s => Membership.recognised.contains s
  | _ => false

def textOrNull (v : Value) : Value :=
  if v.isText then v else .null

def ofContent (content : Value) : Except Failure Member := do
  let membership ← content.field "membership"
  let displayname ← content.field "displayname"
  let avatarUrl ← content.field "avatar_url"
  return {
    membership := if isRecognised membership then membership else .text Membership.none
    displayname := textOrNull displayname
    avatarUrl := textOrNull avatarUrl
  }

def toContent (m : Member) : Value :=
  .record <|
    [("membership", m.membership)]
      ++ (if m.displayname.isNull then [] else [("displayname", m.displayname)])
      ++ (if m.avatarUrl.isNull then [] else [("avatar_url", m.avatarUrl)])

def toValue (m : Member) : Value :=
  .member m.membership m.displayname m.avatarUrl

def isJoined (m : Member) : Bool :=
  m.membership.same (.text Membership.join)

end Member

end VirtualUsers

namespace VirtualUsers.Content

/-! ## Content

Content comes as a map or as a record that gives a map. Before it is kept, it is written as a
payload and read back, which leaves out what no payload can hold. -/

def ofRecord : Value → Except Failure Value
  | .member membership displayname avatarUrl =>
    .ok (Member.toContent ⟨membership, displayname, avatarUrl⟩)
  | .levels users usersDefault events eventsDefault stateDefault ban kick redact invite =>
    PowerLevels.Draft.toContent
      ⟨users, usersDefault, events, eventsDefault, stateDefault, ban, kick, redact, invite⟩
  | v => .ok v

def clone (content : Value) : Except Failure Value := do
  let copy ← Cbor.decode (← Cbor.encode (← ofRecord content))
  if copy.isMap then return copy else throw .contentNotMap

end VirtualUsers.Content

namespace VirtualUsers

/-! ## Events

An event as the homeserver gives it or as it was sent. One that was read has a room, a type and a
map for its content, and it is a state event if it has a state key. -/

structure Event where
  room : Value
  type : Value
  sender : Value := .text ""
  id : Value := .text ""
  stateKey : Value := .null
  content : Value := .map []
  timestamp : Value := .int 0
deriving Inhabited

namespace Event

def milliseconds (seconds : Double) : Except Failure Int :=
  (Value.real (seconds.times 1000)).toInt

def isState (e : Event) : Bool :=
  !e.stateKey.isNull

def isNonEmptyText : Value → Bool
  | .text s => s != ""
  | _ => false

/-- Checks the room, the type, the content and the state key, in this order. -/
def validate (e : Event) : Except Failure Unit := do
  unless isNonEmptyText e.room do throw .eventRoom
  unless isNonEmptyText e.type do throw .eventType
  unless e.content.isMap do throw .eventContent
  unless e.stateKey.isNull || e.stateKey.isText do throw .eventStateKey

/-- The event that a map describes. A map without a room belongs to the given one. -/
def read (raw : Value) (room : Value := .null) : Except Failure Event :=
  match raw with
  | .map entries => do
    let field (key : String) : Value := (Value.lookup? key entries).getD .null
    let event : Event := {
      room := (field "room_id").orElse (room.orElse (.text ""))
      type := (field "type").orElse (.text "")
      sender := (field "sender").orElse (.text "")
      id := (field "event_id").orElse (.text "")
      stateKey := field "state_key"
      content := if (field "content").isNull then .map [] else field "content"
      timestamp := if (field "origin_server_ts").wholeNumber?.isSome then field "origin_server_ts"
        else .int 0
    }
    event.validate
    return event
  | _ => .error .eventNotMap

def render (e : Event) : Value :=
  .record [("room_id", e.room), ("type", e.type), ("sender", e.sender), ("event_id", e.id),
    ("state_key", e.stateKey), ("content", e.content), ("origin_server_ts", e.timestamp)]

def toValue (e : Event) : Value :=
  .event e.room e.type e.sender e.id e.stateKey e.content e.timestamp

end Event

end VirtualUsers
