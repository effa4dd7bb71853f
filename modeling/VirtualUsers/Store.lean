import VirtualUsers.Failure
import VirtualUsers.Room.Event
import VirtualUsers.Room.PowerLevels
import VirtualUsers.Table
/-!
# The store

What is known of users and rooms: who is registered, the member records and the power levels of
rooms, and until when users are typing. Ids that cannot be keys are refused.
-/

namespace VirtualUsers

inductive PowerRecord where
  | levels (levels : PowerLevels)
  /-- A map or a list that was set in place of a record. -/
  | raw (content : Value)
deriving Inhabited

/-- What is known of users and rooms. -/
structure Store where
  registered : List Key := []
  members : Table Key (Table Key Member) := []
  powerLevels : Table Key PowerRecord := []
  typing : Table Key (Table Key Int) := []
deriving Inhabited

structure StoreCounts where
  registered : Nat
  rooms : Nat
  memberships : Nat
  joined : Nat
  powerLevels : Nat
deriving DecidableEq

namespace PowerRecord

def toValue : PowerRecord → Value
  | levels l => l.draft.toValue
  | raw content => content

/-- The record that is kept of what is set: levels are finished, a map or a list stands for
itself. -/
def ofValue : Value → Except Failure PowerRecord
  | .levels users usersDefault events eventsDefault stateDefault ban kick redact invite =>
    (PowerLevels.Draft.finish ⟨users, usersDefault, events, eventsDefault, stateDefault, ban, kick,
      redact, invite⟩).map levels
  | .map entries => .ok (raw (.map entries))
  | .list items => .ok (raw (.list items))
  | _ => .error .noAttribute

def copy : PowerRecord → Except Failure PowerRecord
  | levels l => l.draft.finish.map levels
  | raw content => .ok (raw content)

def draft : PowerRecord → Except Failure PowerLevels.Draft
  | levels l => .ok l.draft
  | raw _ => .error .noAttribute

end PowerRecord

namespace Store

def cell? (room user : Key) (rooms : Table Key (Table Key α)) : Option α :=
  (Table.get? room rooms).bind (Table.get? user)

def enter (room user : Key) (a : α) (rooms : Table Key (Table Key α)) : Table Key (Table Key α) :=
  Table.put room (Table.put user a ((Table.get? room rooms).getD [])) rooms

theorem cell?_enter (room user room' user' : Key) (a : α) (rooms : Table Key (Table Key α)) :
    cell? room user (enter room' user' a rooms) =
      if room = room' ∧ user = user' then some a else cell? room user rooms := by
  rw [cell?, enter, Table.get?_put]
  by_cases hroom : room = room'
  · subst hroom
    rw [if_pos rfl, Option.bind_some, Table.get?_put]
    by_cases huser : user = user'
    · simp only [huser, and_self, if_true]
    · simp only [huser, and_false, if_false]
      rw [cell?]
      cases Table.get? room rooms <;> rfl
  · simp only [hroom, false_and, if_false]
    rfl

@[simp] theorem cell?_enter_self (room user : Key) (a : α) (rooms : Table Key (Table Key α)) :
    cell? room user (enter room user a rooms) = some a := by
  rw [cell?_enter]
  exact if_pos ⟨rfl, rfl⟩

/-- A room that is entered holds nothing yet. -/
theorem cell?_putNew (room user room' : Key) (rooms : Table Key (Table Key α)) :
    cell? room user (Table.putNew room' [] rooms) = cell? room user rooms := by
  rw [Table.putNew]
  split
  · rfl
  · next hnew =>
    rw [cell?, Table.get?_put]
    by_cases hroom : room = room'
    · rw [if_pos hroom, hroom, cell?, hnew]
      rfl
    · rw [if_neg hroom]
      rfl

def register (user : Key) (s : Store) : Store :=
  if s.registered.contains user then s else { s with registered := s.registered ++ [user] }

def isRegistered (user : Value) (s : Store) : Except Failure Bool :=
  user.toKey.map s.registered.contains

def member? (room user : Value) (s : Store) : Except Failure (Option Member) := do
  return cell? (← room.toKey) (← user.toKey) s.members

def member (room user : Value) (s : Store) : Except Failure Member :=
  (s.member? room user).map (·.getD {})

def membership (room user : Value) (s : Store) : Except Failure Value :=
  (s.member room user).map (·.membership)

def hasMembership (room user : Value) (allowed : List Value) (s : Store) : Except Failure Bool :=
  (s.membership room user).map fun m => allowed.any m.same

def isJoined (room user : Value) (s : Store) : Except Failure Bool :=
  s.hasMembership room user [.text Membership.join]

def isInvited (room user : Value) (s : Store) : Except Failure Bool :=
  s.hasMembership room user [.text Membership.invite]

/-- The key of a user in a room. A room is entered even if the user turns out to have no key. -/
def userKey (user : Value) (enterRoom : Store → Store) : Attempt Store Key := do
  match Key.ofValue? user with
  | some key => return key
  | none =>
    modify enterRoom
    throw .wrongType

/-- Sets the membership of a user in a room and keeps the rest of the record. -/
def setMembership (room user membership : Value) : Attempt Store Unit := do
  let room ← Attempt.ofResult room.toKey
  let user ← userKey user fun s => { s with members := Table.putNew room [] s.members }
  modify fun s =>
    let record := (cell? room user s.members).getD {}
    { s with members := enter room user { record with membership } s.members }

def setMember (room user : Value) (record : Member) : Attempt Store Unit := do
  let room ← Attempt.ofResult room.toKey
  let user ← userKey user fun s => { s with members := Table.putNew room [] s.members }
  modify fun s => { s with members := enter room user record s.members }

def powerRecord? (room : Value) (s : Store) : Except Failure (Option PowerRecord) := do
  (Table.get? (← room.toKey) s.powerLevels).mapM PowerRecord.copy

def setPowerLevels (room levels : Value) : Attempt Store Unit := do
  let record ← Attempt.ofResult (PowerRecord.ofValue levels)
  let room ← Attempt.ofResult room.toKey
  modify fun s => { s with powerLevels := Table.put room record s.powerLevels }

def isTyping (now : Int) (room user : Value) (s : Store) : Except Failure Bool := do
  let expiry := (cell? (← room.toKey) (← user.toKey) s.typing).getD typingStopped
  return now < expiry

/-- When a typing notice that lasts for the given time expires. -/
def typingExpiry (now : Int) (timeout : Value) : Except Failure Int := do
  if ← timeout.positive then return now + (← timeout.toInt) else return typingStopped

def setTyping (now : Int) (room user timeout : Value) : Attempt Store Unit := do
  let expiry ← Attempt.ofResult (typingExpiry now timeout)
  let room ← Attempt.ofResult room.toKey
  let user ← userKey user fun s => { s with typing := Table.putNew room [] s.typing }
  modify fun s => { s with typing := enter room user expiry s.typing }

/-- Takes in a membership. One that is not recognised leaves no trace and is the result. -/
def observeMember (e : Event) : Attempt Store (Option Value) := do
  let membership ← Attempt.ofResult (e.content.field "membership")
  if Member.isRecognised membership then
    setMember e.room e.stateKey (← Attempt.ofResult (Member.ofContent e.content))
    return none
  else return some membership

def observeLevels (e : Event) : Attempt Store Unit := do
  let levels ← Attempt.ofResult (PowerLevels.ofContent e.content)
  setPowerLevels e.room levels.draft.toValue

/-- Takes in a state event. Events other than memberships and power levels leave no trace. The
result is a membership that is not recognised. -/
def observe (e : Event) : Attempt Store (Option Value) :=
  if e.stateKey.isNull then return none
  else if e.type.same (.text EventType.member) then observeMember e
  else if e.type.same (.text EventType.powerLevels) then do
    observeLevels e
    return none
  else return none

def counts (s : Store) : StoreCounts :=
  let records := s.members.flatMap (·.2)
  { registered := s.registered.length
    rooms := s.members.length
    memberships := records.length
    joined := records.countP (·.2.isJoined)
    powerLevels := s.powerLevels.length }

end Store

end VirtualUsers
