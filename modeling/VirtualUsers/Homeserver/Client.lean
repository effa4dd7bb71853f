import VirtualUsers.Bridge
import VirtualUsers.Room.Event
/-!
# Clients

The requests that a client makes and what it reads from their answers. Arguments are checked in the
order in which they enter a request, before it is sent.
-/

namespace VirtualUsers

/-- The state events of a room, by type and state key. -/
abbrev RoomState := Table String (Table String Event)

def RoomState.events (state : RoomState) : List Event :=
  state.flatMap fun (_, byKey) => byKey.map (·.2)

def RoomState.toValue (state : RoomState) : Value :=
  .record (state.map fun (type, byKey) => (type, .record (byKey.map fun (k, e) => (k, e.toValue))))

namespace Client

/-- A client with an address without slashes at its end and a time limit in seconds. -/
def make (homeserver token user timeout : Value) : Except Failure Client := do
  let homeserver ← match homeserver with
    | .text s => pure (Text.stripSlashes s)
    | .bytes _ => throw .wrongType
    | _ => throw .noAttribute
  return { homeserver, token, user, timeout := ← timeout.toDouble }

def withUser (c : Client) (user : Value) : Client :=
  { c with user, issued := 0 }

/-- The request to an endpoint. Unless it is made in its own right, the user is among its
parameters. -/
def request (c : Client) (endpoint : Endpoint) (body : Value)
    (params : List (String × Value)) (asUser : Bool) : Request where
  endpoint := endpoint
  url := c.homeserver ++ apiRoot ++ endpoint.path
  body := body
  params := params ++ if asUser then [("user_id", c.user)] else []
  authorization := "Bearer " ++ c.token.display
  timeout := c.timeout

end Client

namespace Bridge

open Attempt (ofResult)

def send (c : ClientId) (endpoint : Endpoint) (body : Value)
    (params : List (String × Value)) (asUser : Bool) : Act Value := do
  let client ← client c
  debug "mxintent.transport"
    (endpoint.method ++ " " ++ endpoint.path ++ " as=" ++ client.user.display)
  let answer ← exchange client (client.request endpoint body params asUser)
  ofResult (answer.content endpoint)

def nextTransaction (c : ClientId) : Act String := do
  let client ← client c
  let issued := client.issued + 1
  modify fun (b : Bridge) => { b with clients := b.clients.set c { client with issued } }
  return "mxi" ++ toString (← get).now ++ "." ++ toString issued

def sendRegister (c : ClientId) (localpart inhibitLogin : Value) : Act Value :=
  send c .register
    (.record [("username", localpart), ("type", .text registrationType),
      ("inhibit_login", .bool inhibitLogin.truthy)]) [] false

/-- The room that the answer to a join names, or else the given one. -/
def joinedRoom (room data : Value) : Except Failure Value :=
  (data.field "room_id").map (·.orElse room)

/-- Joins a room. The result is the room that was joined. -/
def sendJoin (c : ClientId) (room : Value) : Act Value := do
  let segment ← ofResult room.segment
  ofResult (joinedRoom room (← send c (.join segment) (.map []) [] true))

def reasonFields (reason : Value) : List (String × Value) :=
  if reason.truthy then [("reason", reason)] else []

def sendMembership (c : ClientId) (action : MembershipAction) (room user reason : Value) :
    Act Unit := do
  let room ← ofResult room.segment
  let _ ← send c (.membership action room) (.record (("user_id", user) :: reasonFields reason))
    [] true

def timeParams (timestamp : Value) : Except Failure (List (String × Value)) :=
  if timestamp.isNull then .ok []
  else timestamp.toInt.map fun n => [("ts", .int n)]

def eventId (data : Value) : Except Failure Value :=
  (data.field? "event_id").map (·.getD (.text ""))

/-- Sends a message. The result is the id of its event. -/
def sendMessage (c : ClientId) (room type content timestamp : Value) : Act Value := do
  let params ← ofResult (timeParams timestamp)
  let room ← ofResult room.segment
  let type ← ofResult type.segment
  let transaction ← nextTransaction c
  let body ← ofResult (Content.ofRecord content)
  ofResult (eventId (← send c (.sendMessage room type transaction) body params true))

/-- Sets a state. The result is the id of its event. -/
def writeState (c : ClientId) (room type key content timestamp : Value) : Act Value := do
  let params ← ofResult (timeParams timestamp)
  let room ← ofResult room.segment
  let type ← ofResult type.segment
  let key ← ofResult key.segment
  let body ← ofResult (Content.ofRecord content)
  ofResult (eventId (← send c (.writeState room type key) body params true))

def readState (c : ClientId) (room type key : Value) : Act Value := do
  let room ← ofResult room.segment
  let type ← ofResult type.segment
  let key ← ofResult key.segment
  send c (.readState room type key) .null [] true

def fileEvent (state : RoomState) (e : Event) : RoomState :=
  match e.type, e.stateKey with
  | .text type, .text key =>
    Table.put type (Table.put key e ((Table.get? type state).getD [])) state
  | _, _ => state

/-- The state events in a list, of which the last one for a type and a state key counts. -/
def readEvents (room : Value) (raws : List Value) : Except Failure (List Event) :=
  raws.mapM fun raw => Event.read raw room

/-- The items of a list. Any other value has none. -/
def listed : Value → List Value
  | .list items => items
  | _ => []

def stateOf (room data : Value) : Except Failure RoomState :=
  (readEvents room (listed data)).map (·.foldl fileEvent [])

def readRoomState (c : ClientId) (room : Value) : Act RoomState := do
  let segment ← ofResult room.segment
  ofResult (stateOf room (← send c (.roomState segment) .null [] true))

/-- The entries of a map. Any other value has none. -/
def entered : Value → List (Value × Value)
  | .map entries => entries
  | _ => []

def joinedOf (data : Value) : Except Failure (List (Value × Value)) :=
  (data.field "joined").map entered

def readJoinedMembers (c : ClientId) (room : Value) : Act (List (Value × Value)) := do
  let segment ← ofResult room.segment
  ofResult (joinedOf (← send c (.joinedMembers segment) .null [] true))

/-- The values that one gets from a value one by one. -/
def elements : Value → Except Failure (List Value)
  | .list items => .ok items
  | .map entries => .ok (entries.map (·.1))
  | .text s => .ok (s.toList.map fun c => .text c.toString)
  | .bytes bs => .ok (bs.map fun b => .int b.toNat)
  | _ => .error .wrongType

def membersOf (room data : Value) : Except Failure (List Event) := do
  let chunk ← data.field "chunk"
  elements (chunk.orElse (.list [])) >>= readEvents room

/-- The membership events of a room, all of them or those with or without a membership. -/
def readMembers (c : ClientId) (room membership notMembership : Value) : Act (List Event) := do
  let params := (if membership.truthy then [("membership", membership)] else [])
    ++ (if notMembership.truthy then [("not_membership", notMembership)] else [])
  let segment ← ofResult room.segment
  ofResult (membersOf room (← send c (.members segment) .null params true))

/-- Takes the content of an event away. The result is the id of the event that does. -/
def sendRedaction (c : ClientId) (room event reason : Value) : Act Value := do
  let room ← ofResult room.segment
  let event ← ofResult event.segment
  let transaction ← nextTransaction c
  ofResult (eventId (← send c (.redact room event transaction) (.record (reasonFields reason))
    [] true))

def sendTyping (c : ClientId) (room typing timeout : Value) : Act Unit := do
  let length ← if typing.truthy then
      pure [("timeout", Value.int (← ofResult timeout.toInt))]
    else pure []
  let room ← ofResult room.segment
  let user ← ofResult (← client c).user.segment
  let _ ← send c (.typing room user) (.record (("typing", .bool typing.truthy) :: length)) [] true

def sendDisplayName (c : ClientId) (name : Value) : Act Unit := do
  let user ← ofResult (← client c).user.segment
  let _ ← send c (.displayName user) (.record [("displayname", name)]) [] true

def sendAvatarUrl (c : ClientId) (url : Value) : Act Unit := do
  let user ← ofResult (← client c).user.segment
  let _ ← send c (.avatarUrl user) (.record [("avatar_url", url)]) [] true

def readWhoami (c : ClientId) : Act Value :=
  send c .whoami .null [] true

end Bridge

end VirtualUsers
