import VirtualUsers.Bridge.Acting
import VirtualUsers.Bridge.Observation
import VirtualUsers.Bridge.Registration
import VirtualUsers.Homeserver.Client
import VirtualUsers.Value.Coerce
/-!
# Calls

A call names an operation and gives its arguments, by position or by name. Arguments that are
missing, unknown or given twice are refused.
-/

namespace VirtualUsers.Call

/-! ## Arguments -/

/-- What an operation can be given. A parameter without a default has to be given. -/
structure Signature where
  positional : List (String × Option Value)
  byName : List (String × Option Value) := []

structure Arguments where
  positional : List Value := []
  byName : List (String × Value) := []

/-- The arguments by position, then those that are given by name or left to their defaults. -/
def fill (byName : List (String × Value)) :
    List (String × Option Value) → List Value → Except Failure (List Value)
  | [], [] => .ok []
  | [], _ :: _ => .error .wrongType
  | (name, _) :: rest, v :: vs =>
    if (byName.lookup name).isSome then .error .wrongType
    else (fill byName rest vs).map (v :: ·)
  | (name, default) :: rest, [] =>
    match byName.lookup name <|> default with
    | some v => (fill byName rest []).map (v :: ·)
    | none => .error .wrongType

def Signature.bind (s : Signature) (a : Arguments) : Except Failure (List Value) := do
  unless a.byName.all fun (name, _) =>
      (s.positional.lookup name).isSome || (s.byName.lookup name).isSome do
    throw .wrongType
  return (← fill a.byName s.positional a.positional) ++ (← fill a.byName s.byName [])

def required (names : List String) : Signature where
  positional := names.map (·, none)

/-- The signature with a further parameter that is given by name or left to a default. -/
def Signature.andNamed (s : Signature) (name : String) (default : Option Value) : Signature :=
  { s with byName := s.byName ++ [(name, default)] }

/-! ## Requests of clients -/

def clientSignature : String → Option Signature
  | "register" => some ((required ["localpart"]).andNamed "inhibit_login" (some (.bool true)))
  | "join_room" | "state" | "joined_members" => some (required ["room_id"])
  | "invite_user" | "kick_user" | "ban_user" | "unban_user" =>
    some ((required ["room_id", "user_id"]).andNamed "reason" (some .null))
  | "send_message_event" =>
    some ((required ["room_id", "event_type", "content"]).andNamed "timestamp" (some .null))
  | "send_state_event" =>
    some ((required ["room_id", "event_type", "state_key", "content"]).andNamed "timestamp"
      (some .null))
  | "state_event" => some (required ["room_id", "event_type", "state_key"])
  | "members" =>
    some (((required ["room_id"]).andNamed "membership" (some .null)).andNamed "not_membership"
      (some .null))
  | "redact_event" =>
    some ((required ["room_id", "event_id"]).andNamed "reason" (some .null))
  | "set_typing" => some (required ["room_id", "typing", "timeout_ms"])
  | "set_display_name" => some (required ["displayname"])
  | "set_avatar_url" => some (required ["avatar_url"])
  | "whoami" => some (required [])
  | _ => none

def single (name : String) (x : Act Value) : Act Value := do
  return .record [(name, ← x)]

def request (c : ClientId) (name : String) (a : Arguments) : Act Value := do
  let some signature := clientSignature name | throw .noAttribute
  match name, ← Attempt.ofResult (signature.bind a) with
  | "register", [localpart, inhibit] => Bridge.sendRegister c localpart inhibit
  | "join_room", [room] => single "room_id" (Bridge.sendJoin c room)
  | "invite_user", [room, user, reason] => change .invite room user reason
  | "kick_user", [room, user, reason] => change .kick room user reason
  | "ban_user", [room, user, reason] => change .ban room user reason
  | "unban_user", [room, user, reason] => change .unban room user reason
  | "send_message_event", [room, type, content, ts] =>
    single "event_id" (Bridge.sendMessage c room type content ts)
  | "send_state_event", [room, type, key, content, ts] =>
    single "event_id" (Bridge.writeState c room type key content ts)
  | "state_event", [room, type, key] => Bridge.readState c room type key
  | "state", [room] => RoomState.toValue <$> Bridge.readRoomState c room
  | "joined_members", [room] => Value.map <$> Bridge.readJoinedMembers c room
  | "members", [room, membership, notMembership] => do
    return .list ((← Bridge.readMembers c room membership notMembership).map Event.toValue)
  | "redact_event", [room, event, reason] =>
    single "event_id" (Bridge.sendRedaction c room event reason)
  | "set_typing", [room, typing, timeout] => do
    Bridge.sendTyping c room typing timeout; return .null
  | "set_display_name", [name] => do Bridge.sendDisplayName c name; return .null
  | "set_avatar_url", [url] => do Bridge.sendAvatarUrl c url; return .null
  | "whoami", [] => Bridge.readWhoami c
  | _, _ => throw .wrongType
where
  change (action : MembershipAction) (room user reason : Value) : Act Value := do
    Bridge.sendMembership c action room user reason
    return .null

/-! ## Operations of intents -/

def operation (name : String) (a : Arguments) : Except Failure Operation := do
  let bind (names : List String) : Except Failure (List Value) := (required names).bind a
  match name with
  | "register" =>
    let _ ← bind []
    return .register
  | "ensure_registered" =>
    let _ ← bind []
    return .ensureRegistered
  | "send_message_event" =>
    match ← bind ["room_id", "event_type", "content"] with
    | [room, type, content] => return .sendMessageEvent room type content
    | _ => throw .wrongType
  | "send_massaged_message_event" =>
    match ← bind ["room_id", "event_type", "content", "ts"] with
    | [room, type, content, ts] => return .sendMassagedMessageEvent room type content ts
    | _ => throw .wrongType
  | "send_text" => two .sendText (← bind ["room_id", "text"])
  | "send_notice" => two .sendNotice (← bind ["room_id", "text"])
  | "send_image" => three .sendImage (← bind ["room_id", "body", "url"])
  | "send_video" => three .sendVideo (← bind ["room_id", "body", "url"])
  | "redact_event" => three .redactEvent (← withReason ["room_id", "event_id"])
  | "send_state_event" =>
    match ← bind ["room_id", "event_type", "state_key", "content"] with
    | [room, type, key, content] => return .sendStateEvent room type key content
    | _ => throw .wrongType
  | "send_massaged_state_event" =>
    match ← bind ["room_id", "event_type", "state_key", "content", "ts"] with
    | [room, type, key, content, ts] => return .sendMassagedStateEvent room type key content ts
    | _ => throw .wrongType
  | "state_event" => three .stateEvent (← bind ["room_id", "event_type", "state_key"])
  | "state" => one .state (← bind ["room_id"])
  | "set_room_name" => two .setRoomName (← bind ["room_id", "name"])
  | "set_room_topic" => two .setRoomTopic (← bind ["room_id", "topic"])
  | "set_room_avatar" => two .setRoomAvatar (← bind ["room_id", "avatar_url"])
  | "invite_user" => three (.changeMembership .invite) (← withReason ["room_id", "user_id"])
  | "kick_user" => three (.changeMembership .kick) (← withReason ["room_id", "user_id"])
  | "ban_user" => three (.changeMembership .ban) (← withReason ["room_id", "user_id"])
  | "unban_user" => three (.changeMembership .unban) (← withReason ["room_id", "user_id"])
  | "ensure_invited" => two .ensureInvited (← bind ["room_id", "user_id"])
  | "joined_members" => one .joinedMembers (← bind ["room_id"])
  | "members" =>
    three .members (← (((required ["room_id"]).andNamed "membership" (some .null)).andNamed
      "not_membership" (some .null)).bind a)
  | "member" => two .member (← bind ["room_id", "user_id"])
  | "power_levels" => one .powerLevels (← bind ["room_id"])
  | "set_power_levels" => two .setPowerLevels (← bind ["room_id", "levels"])
  | "set_power_level" => three .setPowerLevel (← bind ["room_id", "user_id", "level"])
  | "user_typing" => three .userTyping (← bind ["room_id", "typing", "timeout_ms"])
  | "set_display_name" => one .setDisplayName (← bind ["displayname"])
  | "set_avatar_url" => one .setAvatarUrl (← bind ["avatar_url"])
  | "whoami" =>
    let _ ← bind []
    return .whoami
  | _ => throw .noAttribute
where
  one (f : Value → Operation) : List Value → Except Failure Operation
    | [a] => .ok (f a)
    | _ => .error .wrongType
  two (f : Value → Value → Operation) : List Value → Except Failure Operation
    | [a, b] => .ok (f a b)
    | _ => .error .wrongType
  three (f : Value → Value → Value → Operation) : List Value → Except Failure Operation
    | [a, b, c] => .ok (f a b c)
    | _ => .error .wrongType
  withReason (names : List String) : Except Failure (List Value) :=
    ((required names).andNamed "reason" (some .null)).bind a

end VirtualUsers.Call

namespace VirtualUsers

/-! ## The store

Questions to the store and changes of it, by name. -/

/-- What can be asked of the store and done to it. -/
inductive StoreOperation where
  | isRegistered (user : Value)
  | markRegistered (user : Value)
  | membership (room user : Value)
  | hasMembership (room user : Value) (allowed : List Value)
  | isJoined (room user : Value)
  | isInvited (room user : Value)
  | setMembership (room user membership : Value)
  | findMember (room user : Value)
  | member (room user : Value)
  | setMember (room user record : Value)
  | powerLevels (room : Value)
  | setPowerLevels (room levels : Value)
  | isTyping (room user : Value)
  | setTyping (room user timeout : Value)
  | observe (event : Value)
  | counts
  | observeSent (room type key content sender id : Value)
  | absorbEvents (events : Value)
  | absorbState (state : Value)
  | absorbJoined (room joined : Value)

namespace Bridge

open Attempt (ofResult)

def memberOf : Value → Except Failure Member
  | .member membership displayname avatarUrl => .ok ⟨membership, displayname, avatarUrl⟩
  | _ => .error .noAttribute

def countsValue (c : StoreCounts) : Value :=
  .record [("registered", .int c.registered), ("rooms", .int c.rooms),
    ("memberships", .int c.memberships), ("joined", .int c.joined),
    ("power_levels", .int c.powerLevels)]

def performOnStore : StoreOperation → Act Value
  | .isRegistered user => Value.bool <$> ask (Store.isRegistered user)
  | .markRegistered user => do markRegistered user; return .null
  | .membership room user => ask (Store.membership room user)
  | .hasMembership room user allowed => Value.bool <$> ask (Store.hasMembership room user allowed)
  | .isJoined room user => Value.bool <$> ask (Store.isJoined room user)
  | .isInvited room user => Value.bool <$> ask (Store.isInvited room user)
  | .setMembership room user membership => do
    onStore (Store.setMembership room user membership); return .null
  | .findMember room user => do
    match ← ask (Store.member? room user) with
    | some m => return .list [m.toValue, .bool true]
    | none => return .list [.null, .bool false]
  | .member room user => Member.toValue <$> ask (Store.member room user)
  | .setMember room user record => do
    onStore (Store.setMember room user (← ofResult (memberOf record))); return .null
  | .powerLevels room => do
    return (← ask (Store.powerRecord? room)).elim .null PowerRecord.toValue
  | .setPowerLevels room levels => do onStore (Store.setPowerLevels room levels); return .null
  | .isTyping room user => do
    return .bool (← ask (Store.isTyping (← get).now room user))
  | .setTyping room user timeout => do
    onStore (Store.setTyping (← get).now room user timeout); return .null
  | .observe event => do observe (← ofResult (eventOf event)); return .null
  | .counts => do return countsValue (← get).store.counts
  | .observeSent room type key content sender id => do
    observeSent room type key content sender id; return .null
  | .absorbEvents events => do
    return .int (← absorb ((← ofResult (elements events)).map eventOf))
  | .absorbState state => do return .int (← absorb (eventsOfState state))
  | .absorbJoined room joined => do
    match joined with
    | .map entries => return .int (← absorbJoined room entries)
    | _ => throw .noAttribute

end Bridge

namespace Call

def storeOperation (name : String) (a : Arguments) : Except Failure StoreOperation := do
  let bind (names : List String) : Except Failure (List Value) := (required names).bind a
  let roomAndUser := ["room_id", "user_id"]
  match name with
  | "is_registered" => one .isRegistered (← bind ["user_id"])
  | "mark_registered" => one .markRegistered (← bind ["user_id"])
  | "get_membership" => two .membership (← bind roomAndUser)
  | "is_membership" =>
    let allowed := a.positional.drop 2
    two (.hasMembership · · allowed)
      (← (required roomAndUser).bind { a with positional := a.positional.take 2 })
  | "is_in_room" => two .isJoined (← bind roomAndUser)
  | "is_invited" => two .isInvited (← bind roomAndUser)
  | "set_membership" => three .setMembership (← bind (roomAndUser ++ ["membership"]))
  | "try_get_member" => two .findMember (← bind roomAndUser)
  | "get_member" => two .member (← bind roomAndUser)
  | "set_member" => three .setMember (← bind (roomAndUser ++ ["member"]))
  | "get_power_levels" => one .powerLevels (← bind ["room_id"])
  | "set_power_levels" => two .setPowerLevels (← bind ["room_id", "levels"])
  | "is_typing" => two .isTyping (← bind roomAndUser)
  | "set_typing" => three .setTyping (← bind (roomAndUser ++ ["timeout_ms"]))
  | "update_state" => one .observe (← bind ["event"])
  | "get_stats" =>
    let _ ← bind []
    return .counts
  | "update_with_outgoing_event" =>
    match ← (((required ["room_id", "event_type", "state_key", "content"]).andNamed "sender"
      none).andNamed "event_id" (some (.text ""))).bind a with
    | [room, type, key, content, sender, id] =>
      return .observeSent room type key content sender id
    | _ => throw .wrongType
  | "absorb_events" => one .absorbEvents (← bind ["events"])
  | "absorb_state" => one .absorbState (← bind ["state"])
  | "absorb_joined_members" => two .absorbJoined (← bind ["room_id", "joined"])
  | _ => throw .noAttribute
where
  one (f : Value → StoreOperation) : List Value → Except Failure StoreOperation
    | [a] => .ok (f a)
    | _ => .error .wrongType
  two (f : Value → Value → StoreOperation) : List Value → Except Failure StoreOperation
    | [a, b] => .ok (f a b)
    | _ => .error .wrongType
  three (f : Value → Value → Value → StoreOperation) :
      List Value → Except Failure StoreOperation
    | [a, b, c] => .ok (f a b c)
    | _ => .error .wrongType

def sentEvent (now : Int) (a : Arguments) : Except Failure Event := do
  let byName : List (String × Option Value) :=
    [("state_key", none), ("sender", none), ("content", none), ("event_id", some (.text ""))]
  match ← Signature.bind { required ["room_id", "event_type"] with byName } a with
  | [room, type, key, sender, content, id] =>
    return Bridge.sentEvent now room type key sender content id
  | _ => throw .wrongType

end Call

/-! ## The tally -/

inductive TallyOperation where
  | increase (name delta : Value)
  | read (name : Value)
  | snapshot
  | report (uptime : Int) (store? : Option StoreCounts)

def Tally.perform (t : Tally) : TallyOperation → Except Failure (Value × Tally)
  | .increase name delta => do return (.null, ← t.increase name delta)
  | .read name => do return (.int (← t.read name), t)
  | .snapshot => .ok (.ofEntries (t.counts.map fun c => (c.1.toValue, .int c.2)), t)
  | .report uptime store? => .ok (.text (t.report uptime store?), t)

/-- The operation that a call of a tally stands for. A report takes the time and the store from
around the call. -/
def Call.tallyOperation (uptime : Int) (store? : Option StoreCounts) (name : String)
    (a : Arguments) : Except Failure TallyOperation := do
  match name with
  | "inc" =>
    match ← Signature.bind { positional := [("key", none), ("delta", some (.int 1))] } a with
    | [key, delta] => return .increase key delta
    | _ => throw .wrongType
  | "get" =>
    match ← (required ["key"]).bind a with
    | [key] => return .read key
    | _ => throw .wrongType
  | "snapshot" =>
    let _ ← (required []).bind a
    return .snapshot
  | "format_stats" => return .report uptime store?
  | _ => throw .noAttribute

end VirtualUsers
