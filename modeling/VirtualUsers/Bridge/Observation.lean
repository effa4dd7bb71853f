import VirtualUsers.Bridge
import VirtualUsers.Homeserver.Client
/-!
# Observation

How the store follows the rooms: events that are seen overwrite what it holds, and a state that was
sent counts as seen as soon as the homeserver took it.
-/

namespace VirtualUsers.Bridge

open Attempt (ofResult)

def observe (e : Event) : Act Unit := do
  match ← onStore (Store.observe e) with
  | some membership =>
    debug "mxintent.state" ("Ignoring unrecognized membership " ++ membership.shown ++ " room="
      ++ e.room.display ++ " user=" ++ e.stateKey.display)
  | none => return

def eventOf : Value → Except Failure Event
  | .event room type sender id stateKey content timestamp =>
    .ok ⟨room, type, sender, id, stateKey, content, timestamp⟩
  | _ => .error .noAttribute

/-- Takes in events one by one, up to the first that is none. The result is their number. -/
def absorb (events : List (Except Failure Event)) : Act Int := do
  events.forM fun e => do observe (← ofResult e)
  return events.length

def absorbEvents (events : List Event) : Act Int :=
  absorb (events.map .ok)

def absorbState (state : RoomState) : Act Int :=
  absorbEvents state.events

/-- The events of a map of maps, in order, and a failure where one is out of place. -/
def eventsOfState : Value → List (Except Failure Event)
  | .map types => types.flatMap fun (_, byKey) =>
    match byKey with
    | .map events => events.map fun (_, e) => eventOf e
    | _ => [.error .noAttribute]
  | _ => [.error .noAttribute]

def joinedRecord (info : Value) : Member :=
  let field (name : String) : Value :=
    match info with
    | .map entries => Member.textOrNull ((Value.lookup? name entries).getD .null)
    | _ => .null
  { membership := .text Membership.join
    displayname := field "display_name"
    avatarUrl := field "avatar_url" }

/-- Takes in the joined members of a room. The result is their number. -/
def absorbJoined (room : Value) (joined : List (Value × Value)) : Act Int := do
  joined.forM fun (user, info) => onStore (Store.setMember room user (joinedRecord info))
  return joined.length

def sentEvent (now : Int) (room type key sender content id : Value) : Event where
  room := room
  type := type
  sender := sender
  id := id
  stateKey := key
  content := content
  timestamp := .int now

def isCopyFailure : Failure → Bool
  | .unencodable _ | .undecodable | .contentNotMap => true
  | _ => false

/-- Takes in a state event that the homeserver has taken. What cannot be kept is left out. -/
def observeSent (room type key content sender id : Value) : Act Unit := do
  match Content.clone content with
  | .error e =>
    if isCopyFailure e then
      debug "mxintent.reconcile" ("Failed to serialize " ++ type.display
        ++ " content for state store room=" ++ room.display ++ ": " ++ e.message)
    else throw e
  | .ok copy =>
    let event := sentEvent (← get).now room type key sender copy id
    match event.validate with
    | .error e =>
      debug "mxintent.reconcile" ("Failed to build " ++ type.display
        ++ " event for state store: " ++ e.message)
    | .ok _ => observe event

end VirtualUsers.Bridge
