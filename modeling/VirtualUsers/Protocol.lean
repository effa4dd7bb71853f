/-!
# Names of the client-server protocol

Event types, memberships, message types and error codes, and the levels that hold where a room
gives none.
-/

namespace VirtualUsers

namespace EventType

def member := "m.room.member"
def powerLevels := "m.room.power_levels"
def roomName := "m.room.name"
def roomTopic := "m.room.topic"
def roomAvatar := "m.room.avatar"
def message := "m.room.message"

end EventType

namespace Membership

/-- No membership at all. It is never sent. -/
def none := ""
def join := "join"
def invite := "invite"
def leave := "leave"
def ban := "ban"

def recognised : List String := [none, join, invite, leave, ban]

end Membership

namespace MessageType

def text := "m.text"
def notice := "m.notice"
def image := "m.image"
def video := "m.video"

end MessageType

namespace ErrorCode

def forbidden := "M_FORBIDDEN"
def userInUse := "M_USER_IN_USE"
def notFound := "M_NOT_FOUND"
def limitExceeded := "M_LIMIT_EXCEEDED"
def unknownToken := "M_UNKNOWN_TOKEN"
def missingToken := "M_MISSING_TOKEN"
def badJson := "M_BAD_JSON"
def notJson := "M_NOT_JSON"
def invalidUsername := "M_INVALID_USERNAME"

end ErrorCode

namespace DefaultLevel

def users : Int := 0
def events : Int := 0
def state : Int := 50
def ban : Int := 50
def kick : Int := 50
def redact : Int := 50
def invite : Int := 0

end DefaultLevel

def registrationType := "m.login.application_service"

def typingStopped : Int := -1

def apiRoot := "/_matrix/client/v3"

end VirtualUsers
