import VirtualUsers.Protocol
import VirtualUsers.Text
import VirtualUsers.Value.Coerce
/-!
# Requests to a homeserver

What can be asked of a homeserver, how a request for it is made, and what its answer comes down to.
-/

namespace VirtualUsers

/-! ## Endpoints

What can be asked of a homeserver, with the method and the path of each request. Ids are segments
of the path; they are texts or byte strings, and every byte that could end a segment is escaped. -/

abbrev Segment := List UInt8

def Value.segment : Value → Except Failure Segment
  | .text s => .ok (Text.utf8 s)
  | .bytes bs => .ok bs
  | _ => .error .wrongType

/-- How the membership of a user is changed by someone else. -/
inductive MembershipAction where
  | invite
  | kick
  | ban
  | unban
deriving DecidableEq

def MembershipAction.name : MembershipAction → String
  | invite => "invite"
  | kick => "kick"
  | ban => "ban"
  | unban => "unban"

inductive Endpoint where
  | register
  | join (room : Segment)
  | membership (action : MembershipAction) (room : Segment)
  | sendMessage (room type : Segment) (transaction : String)
  | writeState (room type key : Segment)
  | readState (room type key : Segment)
  | roomState (room : Segment)
  | joinedMembers (room : Segment)
  | members (room : Segment)
  | redact (room event : Segment) (transaction : String)
  | typing (room user : Segment)
  | displayName (user : Segment)
  | avatarUrl (user : Segment)
  | whoami
deriving DecidableEq

namespace Endpoint

def method : Endpoint → String
  | register | join _ | membership .. => "POST"
  | readState .. | roomState _ | joinedMembers _ | members _ | whoami => "GET"
  | _ => "PUT"

def segments : Endpoint → List (List Char)
  | register => [fixed "register"]
  | join room => [fixed "join", id room]
  | membership action room => [fixed "rooms", id room, fixed action.name]
  | sendMessage room type transaction =>
    [fixed "rooms", id room, fixed "send", id type, fixed transaction]
  | writeState room type key | readState room type key =>
    [fixed "rooms", id room, fixed "state", id type, id key]
  | roomState room => [fixed "rooms", id room, fixed "state"]
  | joinedMembers room => [fixed "rooms", id room, fixed "joined_members"]
  | members room => [fixed "rooms", id room, fixed "members"]
  | redact room event transaction =>
    [fixed "rooms", id room, fixed "redact", id event, fixed transaction]
  | typing room user => [fixed "rooms", id room, fixed "typing", id user]
  | displayName user => [fixed "profile", id user, fixed "displayname"]
  | avatarUrl user => [fixed "profile", id user, fixed "avatar_url"]
  | whoami => [fixed "account", fixed "whoami"]
where
  fixed (s : String) : List Char := s.toList
  id (bytes : Segment) : List Char := Text.Percent.encode bytes

def path (e : Endpoint) : String :=
  String.ofList (e.segments.flatMap ('/' :: ·))

end Endpoint

end VirtualUsers

namespace VirtualUsers.Refusal

open Text

/-! ## Refusals

The kind of a refused request, from the text, the error code and the status of the answer. The text
that says that a user is in the room already has precedence, since its code is the one for
forbidden requests. -/

def kindOfCode? (code : String) : Option ErrorKind :=
  [ (ErrorCode.forbidden, ErrorKind.forbidden),
    (ErrorCode.userInUse, .userInUse),
    (ErrorCode.notFound, .notFound),
    (ErrorCode.limitExceeded, .rateLimited),
    (ErrorCode.unknownToken, .unknownToken),
    (ErrorCode.missingToken, .unknownToken),
    (ErrorCode.badJson, .badRequest),
    (ErrorCode.notJson, .badRequest),
    (ErrorCode.invalidUsername, .badRequest) ].lookup code

def kindOfStatus : Int → ErrorKind
  | 400 => .badRequest
  | 401 => .unknownToken
  | 403 => .forbidden
  | 404 => .notFound
  | 429 => .rateLimited
  | _ => .unknown

def alreadyInRoomText := "is already in the room"

def saysAlreadyInRoom (message : Value) : Except Failure Bool :=
  if message.truthy then
    match message with
    | .text s => .ok (contains (lower s) alreadyInRoomText)
    | .bytes _ => .error .wrongType
    | _ => .error .noAttribute
  else .ok false

/-- The kind of a code given by a homeserver, in any case and with white space around. -/
def kindOfGivenCode? (errcode : Value) : Except Failure (Option ErrorKind) :=
  if errcode.truthy then
    match errcode with
    | .text s => .ok (kindOfCode? (upperName (strip s)))
    | .bytes _ => .ok none
    | _ => .error .noAttribute
  else .ok none

def classify (status errcode message : Value) : Except Failure ErrorKind := do
  if ← saysAlreadyInRoom message then
    return .alreadyInRoom
  match ← kindOfGivenCode? errcode with
  | some kind => return kind
  | none => if status.isNull then return .unknown else return kindOfStatus (← status.toInt)

end VirtualUsers.Refusal

namespace VirtualUsers

/-! ## Requests

What is sent to a homeserver and what may come back. -/

structure Request where
  endpoint : Endpoint
  url : String
  body : Value
  params : List (String × Value)
  authorization : String
  timeout : Double

inductive Answer where
  /-- A status, and the body if it is readable. -/
  | reply (status : Int) (body : Option Value)
  | unreachable (text : String)
deriving Inhabited

namespace Answer

/-- The answer where no other is expected: success without content. -/
def empty : Answer := .reply 200 (some (.map []))

def refusal (status : Int) (body : Value) : Except Failure RequestError := do
  let standard := "HTTP " ++ toString status
  let (errcode, message) := match body with
    | .map entries =>
      ((Value.lookup? "errcode" entries).getD .null,
        ((Value.lookup? "error" entries).getD .null).orElse (.text standard))
    | _ => (.null, .text standard)
  let kind ← Refusal.classify (.int status) errcode message
  return ⟨kind, message.display, errcode, .int status⟩

/-- The content of an answer to a request, or why it is refused. A body that is missing or `null`
counts as an empty map. -/
def content (endpoint : Endpoint) : Answer → Except Failure Value
  | .unreachable text =>
    .error (.request ⟨.network, endpoint.method ++ " " ++ endpoint.path ++ ": " ++ text, .null,
      .null⟩)
  | .reply status body =>
    let body := body.getD .null
    if 400 ≤ status then do throw (.request (← refusal status body))
    else .ok (if body.isNull then .map [] else body)

end Answer

end VirtualUsers
