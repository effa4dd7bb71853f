import VirtualUsers.Bridge.Acting
import VirtualUsers.Text
import VirtualUsers.Value
/-!
# Clients and intents of a bridge

One client for each user id and one intent for each localpart. The bot of the bridge helps all
others into rooms.
-/

namespace VirtualUsers.Localpart

open Text

/-! ## Localparts and user ids

The localpart is the name of a user on its homeserver. Its normal form is in lower case, without
white space around, and free of the characters that no homeserver accepts. -/

def isForbidden (c : Char) : Bool :=
  c == ':' || c == '@' || c == ' ' || c == '\n' || c == '\r' || c == '\x00'

def normalize? (s : String) : Option String :=
  let name := lower (strip s)
  if name == "" || name.toList.any isForbidden then none else some name

def ofValue? : Value → Option String
  | .text s => normalize? s
  | _ => none

def userId (localpart domain : Value) : String :=
  "@" ++ localpart.display ++ ":" ++ domain.display

end VirtualUsers.Localpart

namespace VirtualUsers.Bridge

open Attempt (ofResult)

/-! ## Clients and intents -/

def userId (s : Settings) (localpart : Value) : String :=
  Localpart.userId localpart s.homeserverDomain

def botUserId (s : Settings) : String :=
  userId s s.botLocalpart

/-- A new client. The first one is made from the settings, all others from the first. -/
def newClient (user : Value) : Act Client := do
  let b ← get
  match b.clients.head? with
  | some base => return base.withUser user
  | none =>
    let s := b.settings
    ofResult (Client.make s.homeserverUrl s.asToken user s.requestTimeout)

def clientFor (user : Value) : Act ClientId := do
  let key ← ofResult user.toKey
  match Table.get? key (← get).clientOf with
  | some c => return c
  | none =>
    let client ← newClient user
    let c := (← get).clients.length
    modify fun (b : Bridge) =>
      { b with clients := b.clients ++ [client], clientOf := Table.put key c b.clientOf }
    return c

/-- The intent that is kept under the localpart of a new one, and the new one if there is none.
Asking for an intent in the other capacity is refused. -/
def keepIntent (made : Intent) : Act Intent := do
  match Table.get? made.localpart (← get).intents with
  | some i =>
    if i.puppet == made.puppet then return i else throw (.puppetDiffers i.userId i.puppet)
  | none =>
    modify fun (b : Bridge) => { b with intents := Table.put made.localpart made b.intents }
    return made

def inviterFor (user : String) : Act (Option ClientId) := do
  let bot := botUserId (← get).settings
  if user == bot then return none else some <$> clientFor (.text bot)

/-- The intent for a localpart. It is made when it is first asked for. -/
def intent (localpart : Value) (puppet : Bool) : Act Intent := do
  let some name := Localpart.ofValue? localpart | throw (.localpart localpart)
  let user := userId (← get).settings (.text name)
  let client ← clientFor (.text user)
  let inviter ← inviterFor user
  keepIntent { client, localpart := name, userId := user, inviter, puppet }

def botIntent : Act Intent := do
  intent (← get).settings.botLocalpart false

end VirtualUsers.Bridge
