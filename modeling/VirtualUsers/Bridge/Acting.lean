import VirtualUsers.Bridge.Observation
import VirtualUsers.Bridge.Registration
/-!
# Acting as a user

What an intent can do. Before an operation that needs it, the user is registered and joined to the
room, unless the store shows that this is not necessary. A forbidden join is tried once more after
an invitation.
-/

namespace VirtualUsers

inductive Operation where
  | register
  | ensureRegistered
  | ensureJoined (room : Value) (ignoreCache : Bool) (inviter : Option ClientId)
  | sendMessageEvent (room type content : Value)
  | sendMassagedMessageEvent (room type content timestamp : Value)
  | sendText (room text : Value)
  | sendNotice (room text : Value)
  | sendImage (room body url : Value)
  | sendVideo (room body url : Value)
  | redactEvent (room event reason : Value)
  | sendStateEvent (room type key content : Value)
  | sendMassagedStateEvent (room type key content timestamp : Value)
  | stateEvent (room type key : Value)
  | state (room : Value)
  | setRoomName (room name : Value)
  | setRoomTopic (room topic : Value)
  | setRoomAvatar (room url : Value)
  | changeMembership (action : MembershipAction) (room user reason : Value)
  | ensureInvited (room user : Value)
  | joinedMembers (room : Value)
  | members (room membership notMembership : Value)
  | member (room user : Value)
  | powerLevels (room : Value)
  | setPowerLevels (room levels : Value)
  | setPowerLevel (room user level : Value)
  | userTyping (room typing timeout : Value)
  | setDisplayName (name : Value)
  | setAvatarUrl (url : Value)
  | whoami

namespace Bridge

open Attempt (ofResult)

def registeringStage := "failed to ensure registered"
def joiningStage := "failed to ensure joined"
def invitingStage := "failed to invite in ensure joined"
def rejoiningStage := "failed to ensure joined after invite"

def inStage (stage : String) (isCause : Failure → Bool) (x : Act α) : Act α := do
  match ← Attempt.result x with
  | .ok a => return a
  | .error e => if isCause e then throw (.precondition stage e) else throw e

def isRequest : Failure → Bool
  | .request _ => true
  | _ => false

def isPrecondition : Failure → Bool
  | .precondition .. => true
  | _ => false

def registerUser (i : Intent) : Act Unit := do
  let _ ← sendRegister i.client (.text i.localpart) (.bool true)

/-- Counts what came of registering the user. One that is in use counts as registered. -/
def recordClaim (i : Intent) : Except Failure Unit → Act Unit
  | .ok _ => do
    count .registrations 1
    info "mxintent.intent" ("Registered user=" ++ i.userId)
  | .error (.request e) =>
    if e.kind == .userInUse then do
      count .registrationsInUse 1
      debug "mxintent.intent" ("User already registered user=" ++ i.userId)
    else throw (.precondition registeringStage (.request e))
  | .error e => throw e

def claimUser (i : Intent) : Act Unit := do
  recordClaim i (← Attempt.result (registerUser i))

/-- Registers the user unless it is known to be registered or not for the bridge to register. -/
def ensureRegistered (i : Intent) : Act Unit := do
  unless i.puppet || (← ask (Store.isRegistered (.text i.userId))) do
    claimUser i
    markRegistered (.text i.userId)

def getInvited (i : Intent) (room : Value) (inviter : ClientId) : Act Unit := do
  count .joinInviteFallbacks 1
  info "mxintent.intent" ("Join forbidden, inviting via " ++ (← client inviter).user.display
    ++ " room=" ++ room.display ++ " user=" ++ i.userId)
  inStage invitingStage isRequest
    (sendMembership inviter .invite room (.text i.userId) .null)

def joinAfterInvite (i : Intent) (room : Value) (inviter : ClientId) : Act Value := do
  getInvited i room inviter
  inStage rejoiningStage isRequest (sendJoin i.client room)

/-- What comes of joining a room. If it is forbidden, an inviter helps. -/
def settleJoin (i : Intent) (room : Value) (inviter : Option ClientId) :
    Except Failure Value → Act Value
  | .ok joined => return joined
  | .error (.request e) =>
    match e.kind, inviter <|> i.inviter with
    | .forbidden, some inviter => joinAfterInvite i room inviter
    | _, _ => throw (.precondition joiningStage (.request e))
  | .error e => throw e

/-- Joins the room. The result is the room that was joined. -/
def joinRoom (i : Intent) (room : Value) (inviter : Option ClientId) : Act Value := do
  settleJoin i room inviter (← Attempt.result (sendJoin i.client room))

def recordJoin (i : Intent) (joined : Value) : Act Unit := do
  onStore (Store.setMembership joined (.text i.userId) (.text Membership.join))
  count .joins 1
  debug "mxintent.intent" ("Joined room=" ++ joined.display ++ " user=" ++ i.userId)

def enterRoom (i : Intent) (room : Value) (inviter : Option ClientId) : Act Unit := do
  inStage joiningStage isPrecondition (ensureRegistered i)
  recordJoin i (← joinRoom i room inviter)

def ensureJoined (i : Intent) (room : Value) (ignoreCache : Bool)
    (inviter : Option ClientId) : Act Unit := do
  let known ← if ignoreCache then pure false else ask (Store.isJoined room (.text i.userId))
  if known then count .joinCacheHits 1 else enterRoom i room inviter

def sendMessageEvent (i : Intent) (room type content timestamp : Value) : Act Value := do
  ensureJoined i room false none
  let id ← sendMessage i.client room type content timestamp
  count .eventsSent 1
  return id

def sendTyped (i : Intent) (room : Value) (type : String) (fields : List (String × Value)) :
    Act Value :=
  sendMessageEvent i room (.text EventType.message)
    (.record (("msgtype", .text type) :: fields)) .null

def recordState (i : Intent) (room type key content id : Value) : Act Unit := do
  count .stateEventsSent 1
  observeSent room type key content (.text i.userId) id

def sendStateEvent (i : Intent) (room type key content timestamp : Value) : Act Value := do
  ensureJoined i room false none
  let id ← writeState i.client room type key content timestamp
  recordState i room type key content id
  return id

def setRoomField (i : Intent) (room : Value) (type field : String) (v : Value) : Act Value :=
  sendStateEvent i room (.text type) (.text "") (.record [(field, v)]) .null

def redactEvent (i : Intent) (room event reason : Value) : Act Value := do
  ensureJoined i room false none
  sendRedaction i.client room event reason

def stateEvent (i : Intent) (room type key : Value) : Act Value := do
  ensureJoined i room false none
  let content ← readState i.client room type key
  let _ ← absorbEvents [{ room, type, stateKey := key, content }]
  return content

def roomState (i : Intent) (room : Value) : Act RoomState := do
  ensureJoined i room false none
  let state ← readRoomState i.client room
  count .stateAbsorbed (← absorbState state)
  return state

def membershipAfter : MembershipAction → String
  | .invite => Membership.invite
  | .kick | .unban => Membership.leave
  | .ban => Membership.ban

def membershipCounter : MembershipAction → Counter
  | .invite => .invites
  | .kick => .kicks
  | .ban => .bans
  | .unban => .unbans

def recordChange (action : MembershipAction) (room user : Value) : Act Unit := do
  onStore (Store.setMembership room user (.text (membershipAfter action)))
  count (membershipCounter action) 1

def changeMembership (i : Intent) (action : MembershipAction) (room user reason : Value) :
    Act Unit := do
  sendMembership i.client action room user reason
  recordChange action room user

/-- What comes of inviting a user. One who is in the room already counts as invited. -/
def acceptMember (room user : Value) : Except Failure Unit → Act Unit
  | .ok _ => return
  | .error (.request e) => do
    if e.kind != .alreadyInRoom then throw (.request e)
    count .invitesAlreadyMember 1
    debug "mxintent.intent" ("User already in room room=" ++ room.display ++ " user="
      ++ user.display)
  | .error e => throw e

def ensureInvited (i : Intent) (room user : Value) : Act Unit := do
  unless ← ask (Store.isInvited room user) do
    acceptMember room user (← Attempt.result (changeMembership i .invite room user .null))

def joinedMembers (i : Intent) (room : Value) : Act (List (Value × Value)) := do
  let joined ← readJoinedMembers i.client room
  count .stateAbsorbed (← absorbJoined room joined)
  return joined

def memberEvents (i : Intent) (room membership notMembership : Value) : Act (List Event) := do
  let events ← readMembers i.client room membership notMembership
  count .stateAbsorbed (← absorbEvents events)
  return events

/-- Keeps the record that was read of a user in a room. There is none if the homeserver does not
find one. -/
def recordMember (room user : Value) : Except Failure Value → Act (Option Member)
  | .error (.request e) =>
    if e.kind == .notFound then return none else throw (.request e)
  | .error e => throw e
  | .ok content => do
    let m ← ofResult (Member.ofContent content)
    onStore (Store.setMember room user m)
    return m

/-- The record of a user in a room, from the store or else from the homeserver. -/
def member (i : Intent) (room user : Value) : Act (Option Member) := do
  match ← ask (Store.member? room user) with
  | some m => return m
  | none =>
    recordMember room user
      (← Attempt.result (readState i.client room (.text EventType.member) user))

def recordLevels (room content : Value) : Act PowerRecord := do
  let levels ← ofResult (PowerLevels.ofContent content)
  onStore (Store.setPowerLevels room levels.draft.toValue)
  return .levels levels

def powerLevels (i : Intent) (room : Value) : Act PowerRecord := do
  match ← ask (Store.powerRecord? room) with
  | some record => return record
  | none =>
    recordLevels room (← readState i.client room (.text EventType.powerLevels) (.text ""))

def setPowerLevels (i : Intent) (room levels : Value) : Act Value := do
  let id ← sendStateEvent i room (.text EventType.powerLevels) (.text "") levels .null
  onStore (Store.setPowerLevels room levels)
  return id

def setPowerLevel (i : Intent) (room user level : Value) : Act (Option Value) := do
  let current ← ofResult (← powerLevels i room).draft
  if (← ofResult (current.userLevel user)).same level then
    count .powerLevelNoops 1
    return none
  else
    let edited ← ofResult (current.setUserLevel user level)
    return ← setPowerLevels i room edited.toValue

def recordTyping (i : Intent) (now : Int) (room typing timeout : Value) : Act Unit := do
  count .typingSent 1
  onStore (Store.setTyping now room (.text i.userId)
    (if typing.truthy then timeout else .int typingStopped))

def userTyping (i : Intent) (room typing timeout : Value) : Act Bool := do
  let now := (← get).now
  let known ← ask (Store.isTyping now room (.text i.userId))
  if (Value.bool known).same typing then
    count .typingSkipped 1
    return false
  else
    sendTyping i.client room typing timeout
    recordTyping i now room typing timeout
    return true

def setDisplayName (i : Intent) (name : Value) : Act Unit := do
  ensureRegistered i
  sendDisplayName i.client name

def setAvatarUrl (i : Intent) (url : Value) : Act Unit := do
  ensureRegistered i
  sendAvatarUrl i.client url

def whoami (i : Intent) : Act Value := do
  ensureRegistered i
  readWhoami i.client

def sent (id : Value) : Value :=
  .record [("event_id", id)]

def perform (i : Intent) : Operation → Act Value
  | .register => do registerUser i; return .null
  | .ensureRegistered => do ensureRegistered i; return .null
  | .ensureJoined room ignoreCache inviter => do
    ensureJoined i room ignoreCache inviter; return .null
  | .sendMessageEvent room type content => sent <$> sendMessageEvent i room type content .null
  | .sendMassagedMessageEvent room type content timestamp =>
    sent <$> sendMessageEvent i room type content timestamp
  | .sendText room text => sent <$> sendTyped i room MessageType.text [("body", text)]
  | .sendNotice room text => sent <$> sendTyped i room MessageType.notice [("body", text)]
  | .sendImage room body url =>
    sent <$> sendTyped i room MessageType.image [("body", body), ("url", url)]
  | .sendVideo room body url =>
    sent <$> sendTyped i room MessageType.video [("body", body), ("url", url)]
  | .redactEvent room event reason => sent <$> redactEvent i room event reason
  | .sendStateEvent room type key content => sent <$> sendStateEvent i room type key content .null
  | .sendMassagedStateEvent room type key content timestamp =>
    sent <$> sendStateEvent i room type key content timestamp
  | .stateEvent room type key => stateEvent i room type key
  | .state room => RoomState.toValue <$> roomState i room
  | .setRoomName room name => sent <$> setRoomField i room EventType.roomName "name" name
  | .setRoomTopic room topic => sent <$> setRoomField i room EventType.roomTopic "topic" topic
  | .setRoomAvatar room url => sent <$> setRoomField i room EventType.roomAvatar "url" url
  | .changeMembership action room user reason => do
    changeMembership i action room user reason; return .null
  | .ensureInvited room user => do ensureInvited i room user; return .null
  | .joinedMembers room => Value.map <$> joinedMembers i room
  | .members room membership notMembership => do
    return .list ((← memberEvents i room membership notMembership).map Event.toValue)
  | .member room user => (fun m => m.elim .null Member.toValue) <$> member i room user
  | .powerLevels room => PowerRecord.toValue <$> powerLevels i room
  | .setPowerLevels room levels => sent <$> setPowerLevels i room levels
  | .setPowerLevel room user level =>
    (fun id => id.elim .null sent) <$> setPowerLevel i room user level
  | .userTyping room typing timeout => Value.bool <$> userTyping i room typing timeout
  | .setDisplayName name => do setDisplayName i name; return .null
  | .setAvatarUrl url => do setAvatarUrl i url; return .null
  | .whoami => whoami i

end Bridge

end VirtualUsers
