import VirtualUsers.Call
import VirtualUsers.Proofs.Absorption
import VirtualUsers.Proofs.Requests
/-!
# The contract of requests

A request of a client gives a result, or it fails with a request error that carries the status of
the answer. That much is promised of every answer. It is kept for the answers that can be read as
answers to the request, whatever else they hold, and broken by all others: an error whose code or
text is no text, and a body of another shape than the one that is looked into, make the request fail
in ways that its callers do not expect.
-/

namespace VirtualUsers

/-! ## Requests with arguments of their types -/

/-- A request of a client, with its arguments. -/
inductive Inquiry where
  | register (localpart : String) (inhibitLogin : Bool)
  | join (room : String)
  | change (action : MembershipAction) (room user : String) (reason : Option String)
  | sendMessage (room type : String) (content : Value) (timestamp : Option Int)
  | writeState (room type key : String) (content : Value) (timestamp : Option Int)
  | readState (room type key : String)
  | roomState (room : String)
  | joinedMembers (room : String)
  | members (room : String) (membership notMembership : Option String)
  | redact (room event : String) (reason : Option String)
  | typing (room : String) (isTyping : Bool) (length : Int)
  | displayName (name : String)
  | avatarUrl (url : String)
  | whoami

namespace Inquiry

def givenText (s : Option String) : Value :=
  s.elim .null .text

def givenTime (n : Option Int) : Value :=
  n.elim .null .int

def name : Inquiry → String
  | register .. => "register"
  | join .. => "join_room"
  | change .invite .. => "invite_user"
  | change .kick .. => "kick_user"
  | change .ban .. => "ban_user"
  | change .unban .. => "unban_user"
  | sendMessage .. => "send_message_event"
  | writeState .. => "send_state_event"
  | readState .. => "state_event"
  | roomState .. => "state"
  | joinedMembers .. => "joined_members"
  | members .. => "members"
  | redact .. => "redact_event"
  | typing .. => "set_typing"
  | displayName .. => "set_display_name"
  | avatarUrl .. => "set_avatar_url"
  | whoami => "whoami"

def arguments : Inquiry → Call.Arguments
  | register localpart inhibit =>
    { positional := [.text localpart], byName := [("inhibit_login", .bool inhibit)] }
  | join room | roomState room | joinedMembers room => { positional := [.text room] }
  | change _ room user reason =>
    { positional := [.text room, .text user], byName := [("reason", givenText reason)] }
  | sendMessage room type content timestamp =>
    { positional := [.text room, .text type, content]
      byName := [("timestamp", givenTime timestamp)] }
  | writeState room type key content timestamp =>
    { positional := [.text room, .text type, .text key, content]
      byName := [("timestamp", givenTime timestamp)] }
  | readState room type key => { positional := [.text room, .text type, .text key] }
  | members room membership notMembership =>
    { positional := [.text room]
      byName := [("membership", givenText membership),
        ("not_membership", givenText notMembership)] }
  | redact room event reason =>
    { positional := [.text room, .text event], byName := [("reason", givenText reason)] }
  | typing room isTyping length => { positional := [.text room, .bool isTyping, .int length] }
  | displayName name => { positional := [.text name] }
  | avatarUrl url => { positional := [.text url] }
  | whoami => {}

/-- The content of an event as its type has it: JSON, or a record with maps where it has maps. -/
def IsContent : Value → Prop
  | .member .. => True
  | .levels users _ events _ _ _ _ _ _ => users.isMap ∧ events.isMap
  | content => content.IsJson

def IsDeclared : Inquiry → Prop
  | sendMessage _ _ content _ | writeState _ _ _ content _ => IsContent content
  | _ => True

def read : Inquiry → Value → Except Failure Value
  | join room, data => (Bridge.joinedRoom (.text room) data).map fun r => .record [("room_id", r)]
  | sendMessage .., data | writeState .., data | redact .., data =>
    (Bridge.eventId data).map fun id => .record [("event_id", id)]
  | roomState room, data => (Bridge.stateOf (.text room) data).map RoomState.toValue
  | joinedMembers _, data => (Bridge.joinedOf data).map Value.map
  | members room _ _, data =>
    (Bridge.membersOf (.text room) data).map fun events => .list (events.map Event.toValue)
  | register .., data | readState .., data | whoami, data => .ok data
  | change .., _ | typing .., _ | displayName _, _ | avatarUrl _, _ => .ok .null

end Inquiry

theorem map_ok_iff {α β : Type} {r : Except Failure α} {f : α → β} :
    (∃ w, r.map f = .ok w) ↔ ∃ a, r = .ok a := by
  cases r <;> simp [Except.map]

/-! ## Answers that can be read -/

namespace Answer

def code : Value → Value
  | .map entries => (Value.lookup? "errcode" entries).getD .null
  | _ => .null

def told (status : Int) : Value → Value
  | .map entries =>
    ((Value.lookup? "error" entries).getD .null).orElse (.text ("HTTP " ++ toString status))
  | _ => .text ("HTTP " ++ toString status)

def IsCode (v : Value) : Prop :=
  v.truthy = true → (∃ s, v = .text s) ∨ ∃ bs, v = .bytes bs

/-- An error body can be read: what it gives as a text is one, and so is its code. The code is not
looked at where the text says that the user is in the room already. -/
def Legible (status : Int) (body : Value) : Prop :=
  ∃ s, told status body = .text s ∧
    (Text.contains (Text.lower s) Refusal.alreadyInRoomText = true ∨ IsCode (code body))

/-- What a successful answer holds. No body, or `null`, counts as an empty map. -/
def data (body : Option Value) : Value :=
  if (body.getD .null).isNull then .map [] else body.getD .null

/-- What is promised of every request: a result where the answer is a success, and otherwise a
request error, which carries the status of the answer if there is one. -/
def Promised (a : Answer) (r : Except Failure Value) : Prop :=
  match a with
  | .unreachable _ => ∃ e, r = .error (.request e) ∧ e.kind = .network
  | .reply status _ =>
    if 400 ≤ status then ∃ e, r = .error (.request e) ∧ e.status = .int status else ∃ v, r = .ok v

end Answer

def Event.AllReadable (room : String) (raws : List Value) : Prop :=
  ∀ raw ∈ raws, ∃ e, Event.read raw (.text room) = .ok e

namespace Inquiry

/-- The body of a successful answer has the shape that the request looks into. -/
def Shape : Inquiry → Value → Prop
  | join _, data | sendMessage .., data | writeState .., data | redact .., data
  | joinedMembers _, data => data.isMap
  | roomState room, data => Event.AllReadable room (Bridge.listed data)
  | members room _ _, data => ∃ chunk items, data.field "chunk" = .ok chunk ∧
      Bridge.elements (chunk.orElse (.list [])) = .ok items ∧ Event.AllReadable room items
  | _, _ => True

/-- The answer can be read as an answer to the request. -/
def Fits (q : Inquiry) : Answer → Prop
  | .unreachable _ => True
  | .reply status body =>
    if 400 ≤ status then Answer.Legible status (body.getD .null) else q.Shape (Answer.data body)

end Inquiry

/-! ## The exchange of a request -/

namespace Bridge

theorem timeParams_givenTime (timestamp : Option Int) :
    ∃ params, timeParams (Inquiry.givenTime timestamp) = .ok params := by
  cases timestamp <;> exact ⟨_, rfl⟩

theorem copyMap_ok {v : Value} (h : v.isMap) : ∃ w, PowerLevels.Draft.copyMap v = .ok w := by
  cases v with
  | map entries => exact ⟨_, rfl⟩
  | _ => cases h

theorem ofRecord_ok {content : Value} (h : Inquiry.IsContent content) :
    ∃ body, Content.ofRecord content = .ok body := by
  cases content with
  | levels users usersDefault events =>
    exact ok_bind (copyMap_ok h.1) fun _ => ok_bind (copyMap_ok h.2) fun _ => ⟨_, rfl⟩
  | _ => exact ⟨_, rfl⟩

end Bridge

namespace Inquiry

open Attempt (ofResult)
open Bridge

variable {b : Bridge} {c : ClientId}

def act (c : ClientId) : Inquiry → Act Value
  | register localpart inhibit => sendRegister c (.text localpart) (.bool inhibit)
  | join room => Call.single "room_id" (sendJoin c (.text room))
  | change action room user reason =>
    Call.request.change c action (.text room) (.text user) (givenText reason)
  | sendMessage room type content timestamp =>
    Call.single "event_id"
      (Bridge.sendMessage c (.text room) (.text type) content (givenTime timestamp))
  | writeState room type key content timestamp =>
    Call.single "event_id"
      (Bridge.writeState c (.text room) (.text type) (.text key) content (givenTime timestamp))
  | readState room type key => Bridge.readState c (.text room) (.text type) (.text key)
  | roomState room => RoomState.toValue <$> readRoomState c (.text room)
  | joinedMembers room => Value.map <$> readJoinedMembers c (.text room)
  | members room membership notMembership => do
    let events ← readMembers c (.text room) (givenText membership) (givenText notMembership)
    return .list (events.map Event.toValue)
  | redact room event reason =>
    Call.single "event_id" (sendRedaction c (.text room) (.text event) (givenText reason))
  | typing room isTyping length => do
    sendTyping c (.text room) (.bool isTyping) (.int length); return .null
  | displayName name => do sendDisplayName c (.text name); return .null
  | avatarUrl url => do sendAvatarUrl c (.text url); return .null
  | whoami => readWhoami c

def values : Inquiry → List Value
  | register localpart inhibit => [.text localpart, .bool inhibit]
  | join room | roomState room | joinedMembers room => [.text room]
  | change _ room user reason => [.text room, .text user, givenText reason]
  | sendMessage room type content timestamp =>
    [.text room, .text type, content, givenTime timestamp]
  | writeState room type key content timestamp =>
    [.text room, .text type, .text key, content, givenTime timestamp]
  | readState room type key => [.text room, .text type, .text key]
  | members room membership notMembership =>
    [.text room, givenText membership, givenText notMembership]
  | redact room event reason => [.text room, .text event, givenText reason]
  | typing room isTyping length => [.text room, .bool isTyping, .int length]
  | displayName name => [.text name]
  | avatarUrl url => [.text url]
  | whoami => []

theorem bind_arguments (q : Inquiry) :
    ∃ s, Call.clientSignature q.name = some s ∧ s.bind q.arguments = .ok q.values := by
  cases q with
  | change action => cases action <;> exact ⟨_, rfl, rfl⟩
  | _ => exact ⟨_, rfl, rfl⟩

theorem outcome_request (q : Inquiry) (b : Bridge) :
    (Call.request c q.name q.arguments).outcome b = (q.act c).outcome b := by
  obtain ⟨s, hs, hvalues⟩ := q.bind_arguments
  rw [Call.request, hs]
  simp only []
  rw [hvalues, Attempt.outcome_bind, Attempt.outcome_ofResult, Attempt.follow_ok]
  clear hs hvalues
  cases q with
  | change action => cases action <;> rfl
  | _ => rfl

/-- Arguments of the right types never keep a request from being sent. -/
theorem makes_act (q : Inquiry) (hq : q.IsDeclared) {u : String}
    (hu : (b.clientAt c).user = .text u) : Makes b q.read (q.act c) := by
  have hsegment : (b.clientAt c).user.segment = .ok (Text.utf8 u) := by rw [hu]; rfl
  cases q with
  | register | whoami => exact makes_send b c _ _ _ _
  | join room =>
    obtain ⟨x, b', hout, -, hb'⟩ := outcome_sendJoin b c (segment_text room)
    exact Makes.giving ⟨x, b', hout, hb'⟩ _
  | change action room user reason =>
    obtain ⟨x, b', hout, -, hb'⟩ := outcome_sendMembership b c action (segment_text room)
      (.text user) (givenText reason)
    exact Makes.giving ⟨x, b', hout, hb'⟩ _
  | sendMessage room type content timestamp =>
    obtain ⟨params, hparams⟩ := timeParams_givenTime timestamp
    obtain ⟨body, hbody⟩ := ofRecord_ok hq
    obtain ⟨transaction, b₁, hnext, hb₁⟩ := outcome_nextTransaction c b
    refine Makes.giving (.check hparams (.check (segment_text room) (.check (segment_text type)
      (.after hnext hb₁ (.check hbody ?_))))) _
    exact (makes_send b₁ c _ _ _ _).reading eventId
  | writeState room type key content timestamp =>
    obtain ⟨params, hparams⟩ := timeParams_givenTime timestamp
    obtain ⟨body, hbody⟩ := ofRecord_ok hq
    refine Makes.giving (.check hparams (.check (segment_text room) (.check (segment_text type)
      (.check (segment_text key) (.check hbody ?_))))) _
    exact (makes_send b c _ _ _ _).reading eventId
  | readState room type key =>
    exact .check (segment_text room) (.check (segment_text type) (.check (segment_text key)
      (makes_send b c _ _ _ _)))
  | roomState room =>
    exact Makes.giving (.check (segment_text room)
      ((makes_send b c _ _ _ _).reading (stateOf (.text room)))) _
  | joinedMembers room =>
    exact Makes.giving (.check (segment_text room) ((makes_send b c _ _ _ _).reading joinedOf)) _
  | members room membership notMembership =>
    exact Makes.giving (.check (segment_text room)
      ((makes_send b c _ _ _ _).reading (membersOf (.text room)))) _
  | redact room event reason =>
    obtain ⟨transaction, b₁, hnext, hb₁⟩ := outcome_nextTransaction c b
    exact Makes.giving (.check (segment_text room) (.check (segment_text event)
      (.after hnext hb₁ ((makes_send b₁ c _ _ _ _).reading eventId)))) _
  | typing room isTyping length =>
    have hsend : Makes b (fun _ => .ok ())
        (sendTyping c (.text room) (.bool isTyping) (.int length)) := by
      rw [sendTyping_eq]
      exact .check (segment_text room) (.after (outcome_client c b) (.refl b)
        (.check hsegment ((makes_send b c _ _ _ _).reading fun _ => .ok ())))
    exact hsend.giving _
  | displayName name =>
    have hsend : Makes b (fun _ => .ok ()) (sendDisplayName c (.text name)) :=
      .after (outcome_client c b) (.refl b)
        (.check hsegment ((makes_send b c _ _ _ _).reading fun _ => .ok ()))
    exact hsend.giving _
  | avatarUrl url =>
    have hsend : Makes b (fun _ => .ok ()) (sendAvatarUrl c (.text url)) :=
      .after (outcome_client c b) (.refl b)
        (.check hsegment ((makes_send b c _ _ _ _).reading fun _ => .ok ()))
    exact hsend.giving _

/-! ## Readings -/

theorem field?_iff {v : Value} {key : String} : (∃ w, v.field? key = .ok w) ↔ v.isMap := by
  cases v <;> simp [Value.field?, Value.isMap]

theorem readEvents_ok_iff {room : String} {raws : List Value} :
    (∃ events, readEvents (.text room) raws = .ok events) ↔ Event.AllReadable room raws := by
  induction raws with
  | nil => exact iff_of_true ⟨[], rfl⟩ fun _ h => absurd h List.not_mem_nil
  | cons raw raws ih =>
    rw [Event.AllReadable, List.forall_mem_cons, ← Event.AllReadable, ← ih]
    constructor
    · rintro ⟨events, h⟩
      obtain ⟨first, rest, hfirst, hrest, -⟩ := readEvents_cons.mp h
      exact ⟨⟨first, hfirst⟩, rest, hrest⟩
    · rintro ⟨⟨first, hfirst⟩, rest, hrest⟩
      exact ⟨_, readEvents_cons.mpr ⟨first, rest, hfirst, hrest, rfl⟩⟩

/-- The body of a success is read if and only if it has the right shape. -/
theorem read_ok_iff (q : Inquiry) (data : Value) : (∃ v, q.read data = .ok v) ↔ q.Shape data := by
  cases q with
  | join room | joinedMembers room =>
    simp only [read, Shape, joinedRoom, joinedOf, Value.field, map_ok_iff, field?_iff]
  | sendMessage | writeState | redact =>
    simp only [read, Shape, eventId, map_ok_iff, field?_iff]
  | roomState room => simp only [read, Shape, stateOf, map_ok_iff, readEvents_ok_iff]
  | members room =>
    simp only [read, Shape, map_ok_iff, ← readEvents_ok_iff]
    constructor
    · rintro ⟨events, h⟩
      obtain ⟨chunk, hchunk, h⟩ := bind_eq_ok h
      obtain ⟨items, hitems, hevents⟩ := bind_eq_ok h
      exact ⟨chunk, items, hchunk, hitems, events, hevents⟩
    · rintro ⟨chunk, items, hchunk, hitems, events, hevents⟩
      refine ⟨events, ?_⟩
      rw [membersOf, hchunk]
      change elements (chunk.orElse (.list [])) >>= readEvents (.text room) = .ok events
      rw [hitems]
      exact hevents
  | _ => exact iff_of_true ⟨_, rfl⟩ trivial

theorem staysLocal_read (q : Inquiry) (data : Value) : StaysLocal (q.read data) := by
  cases q with
  | join room => exact (data.staysLocal_field _).map.map
  | sendMessage | writeState | redact => exact (data.staysLocal_field? _).map.map
  | roomState room => exact (staysLocal_mapM (fun raw => Event.staysLocal_read raw _) _).map.map
  | joinedMembers room => exact (data.staysLocal_field _).map.map
  | members room =>
    refine StaysLocal.map ((data.staysLocal_field _).bind fun chunk => StaysLocal.bind ?_
      fun items => staysLocal_mapM (fun raw => Event.staysLocal_read raw _) _)
    cases chunk.orElse (.list []) <;> simp [elements]
  | _ => exact staysLocal_ok _

end Inquiry

namespace Answer

theorem classify_ok_iff (status : Int) (errcode message : Value) :
    (∃ kind, Refusal.classify (.int status) errcode message = .ok kind) ↔
      ∃ already, Refusal.saysAlreadyInRoom message = .ok already ∧
        (already = true ∨ ∃ kind, Refusal.kindOfGivenCode? errcode = .ok kind) := by
  rw [Refusal.classify]
  cases Refusal.saysAlreadyInRoom message with
  | error e => simp [bind, Except.bind]
  | ok already =>
    cases already with
    | true => exact iff_of_true ⟨_, rfl⟩ ⟨_, rfl, .inl rfl⟩
    | false =>
      cases Refusal.kindOfGivenCode? errcode with
      | error e => simp [bind, Except.bind]
      | ok kind => cases kind <;> exact iff_of_true ⟨_, rfl⟩ ⟨_, rfl, .inr ⟨_, rfl⟩⟩

theorem kindOfGivenCode?_ok_iff (errcode : Value) :
    (∃ kind, Refusal.kindOfGivenCode? errcode = .ok kind) ↔ IsCode errcode := by
  unfold Refusal.kindOfGivenCode? IsCode
  split
  · next h => cases errcode <;> simp_all
  · next h => simp [h]

theorem saysAlreadyInRoom_ok_iff {message : Value} (h : message.truthy = true) (already : Bool) :
    Refusal.saysAlreadyInRoom message = .ok already ↔
      ∃ s, message = .text s ∧
        Text.contains (Text.lower s) Refusal.alreadyInRoomText = already := by
  cases message <;> simp [Refusal.saysAlreadyInRoom, h]

theorem truthy_standard (status : Int) :
    (Value.text ("HTTP " ++ toString status)).truthy = true := by
  rw [Value.truthy, bne_iff_ne]
  intro h
  have hlength := congrArg String.length h
  rw [String.length_append] at hlength
  change 5 + _ = 0 at hlength
  omega

theorem truthy_told (status : Int) (body : Value) : (told status body).truthy = true := by
  cases body with
  | map entries =>
    rw [told, Value.orElse]
    split
    · next h => exact h
    · exact truthy_standard status
  | _ => exact truthy_standard status

theorem refusal_eq (status : Int) (body : Value) :
    refusal status body = (Refusal.classify (.int status) (code body) (told status body)).map
      fun kind => ⟨kind, (told status body).display, code body, .int status⟩ := by
  have hmap (r : Except Failure ErrorKind) (f : ErrorKind → RequestError) :
      (r >>= fun kind => pure (f kind)) = r.map f := by cases r <;> rfl
  cases body <;> exact hmap _ _

/-- The error of an answer is made out if and only if its body can be read. -/
theorem refusal_ok_iff (status : Int) (body : Value) :
    (∃ e, refusal status body = .ok e) ↔ Legible status body := by
  rw [refusal_eq, map_ok_iff, classify_ok_iff, kindOfGivenCode?_ok_iff]
  simp only [saysAlreadyInRoom_ok_iff (truthy_told status body)]
  constructor
  · rintro ⟨already, ⟨s, hs, halready⟩, h⟩
    exact ⟨s, hs, h.imp_left halready.trans⟩
  · rintro ⟨s, hs, h⟩
    exact ⟨_, ⟨s, hs, rfl⟩, h⟩

theorem status_of_refusal {status : Int} {body : Value} {e : RequestError}
    (h : refusal status body = .ok e) : e.status = .int status := by
  rw [refusal_eq] at h
  obtain ⟨kind, -, rfl⟩ := map_eq_ok h
  rfl

theorem content_refused {status : Int} (h : 400 ≤ status) (body : Option Value)
    (endpoint : Endpoint) : (Answer.reply status body).content endpoint =
      refusal status (body.getD .null) >>= fun e => .error (.request e) := by
  rw [content]
  exact if_pos h

theorem content_taken {status : Int} (h : ¬ 400 ≤ status) (body : Option Value)
    (endpoint : Endpoint) : (Answer.reply status body).content endpoint = .ok (data body) := by
  rw [content]
  exact if_neg h

end Answer

namespace Bridge

variable {α : Type} {b b' : Bridge} {data : Value}

def upcoming (b : Bridge) : Option Value :=
  match b.answers.head?.getD .empty with
  | .reply status body => if 400 ≤ status then none else some (Answer.data body)
  | .unreachable _ => none

theorem Heard.content_iff {x : Exchange} (h : Heard b x b') :
    x.content = .ok data ↔ b.upcoming = some data := by
  rw [Exchange.content, h.answer, upcoming]
  cases b.answers.head?.getD .empty with
  | unreachable text => exact iff_of_false (fun hx => by cases hx) (fun hb => by cases hb)
  | reply status body =>
    by_cases hstatus : 400 ≤ status
    · rw [Answer.content_refused hstatus]
      simp only [if_pos hstatus]
      refine iff_of_false (fun hx => ?_) (fun hb => by cases hb)
      obtain ⟨e, -, he⟩ := bind_eq_ok hx
      cases he
    · rw [Answer.content_taken hstatus]
      simp only [if_neg hstatus, Except.ok.injEq, Option.some.injEq]

/-- A request whose answer holds what is read from it gives that. -/
theorem Makes.reads {read : Value → Except Failure α} {act : Act α} {a : α}
    (h : Makes b read act) (hdata : b.upcoming = some data) (hread : read data = .ok a) :
    ∃ c, act.outcome b = (.ok a, c) ∧ c.store = b.store := by
  obtain ⟨x, c, hout, hheard⟩ := h
  refine ⟨c, ?_, hheard.store⟩
  rw [hout, hheard.content_iff.mpr hdata]
  change (read data, c) = _
  rw [hread]

end Bridge

/-! ## The contract -/

namespace Inquiry

/-- What is promised of a request holds if and only if its answer can be read. Otherwise the request
fails in some other way. -/
theorem promised_or_not (q : Inquiry) (a : Answer) (endpoint : Endpoint) :
    (q.Fits a → a.Promised (a.content endpoint >>= q.read)) ∧
    (¬ q.Fits a → ∃ e, a.content endpoint >>= q.read = .error e ∧ ¬ e.FromHomeserver) := by
  cases a with
  | unreachable text => exact ⟨fun _ => ⟨_, rfl, rfl⟩, fun h => absurd trivial h⟩
  | reply status body =>
    by_cases hstatus : 400 ≤ status
    · rw [Answer.content_refused hstatus]
      simp only [Fits, Answer.Promised, if_pos hstatus, ← Answer.refusal_ok_iff]
      cases hr : Answer.refusal status (body.getD .null) with
      | ok e => exact ⟨fun _ => ⟨e, rfl, Answer.status_of_refusal hr⟩, fun h => absurd ⟨e, rfl⟩ h⟩
      | error e =>
        refine ⟨fun ⟨_, h⟩ => (nomatch h), fun _ => ⟨e, rfl, ?_⟩⟩
        exact Answer.staysLocal_refusal _ _ e hr
    · rw [Answer.content_taken hstatus]
      simp only [Fits, Answer.Promised, if_neg hstatus, ← read_ok_iff]
      change ((∃ v, q.read (Answer.data body) = .ok v) → ∃ v, q.read (Answer.data body) = .ok v) ∧
        (¬ (∃ v, q.read (Answer.data body) = .ok v) → ∃ e, q.read (Answer.data body) = .error e ∧ _)
      refine ⟨id, fun h => ?_⟩
      cases hr : q.read (Answer.data body) with
      | ok v => exact absurd ⟨v, hr⟩ h
      | error e => exact ⟨e, rfl, q.staysLocal_read _ e hr⟩

/-- Every request with arguments of its types sends one request. If the answer to that can be read
then the promise is kept, and otherwise what comes of it is no request error. -/
theorem request_promised {b : Bridge} {c : ClientId} {u : String} {a : Answer} (q : Inquiry)
    (hq : q.IsDeclared) (hu : (b.clientAt c).user = .text u) (ha : b.answers.head? = some a) :
    ∃ r b', (Call.request c q.name q.arguments).outcome b = (r, b') ∧
      (∃ x, b'.traffic = b.traffic ++ [x] ∧ x.answer = a) ∧
      (q.Fits a → a.Promised r) ∧ (¬ q.Fits a → ∃ e, r = .error e ∧ ¬ e.FromHomeserver) := by
  obtain ⟨x, b', hout, hb'⟩ := makes_act (c := c) q hq hu
  have hanswer : x.answer = a := by rw [hb'.answer, ha]; rfl
  refine ⟨_, b', (q.outcome_request b).trans hout, ⟨x, hb'.traffic, hanswer⟩, ?_⟩
  rw [Exchange.content, hanswer]
  exact q.promised_or_not a x.request.endpoint

def Example.asked (a : Answer) : Bridge where
  clients := [{ (default : Client) with user := .text "@alice:hs" }]
  answers := [a]

/-- A request that is refused for its content, with a code. -/
theorem request_promised_refused :
    let body := Value.record [("errcode", .text "M_BAD_JSON"), ("error", .text "No")]
    ∃ e b', (Call.request 0 whoami.name whoami.arguments).outcome
        (Example.asked (.reply 400 (some body))) = (.error (.request e), b') ∧
      e.status = .int 400 := by
  intro body
  have hfits : whoami.Fits (.reply 400 (some body)) :=
    ⟨"No", rfl, .inr fun _ => .inl ⟨"M_BAD_JSON", rfl⟩⟩
  obtain ⟨r, b', hout, -, hkept, -⟩ := request_promised (c := 0) (u := "@alice:hs")
    (b := Example.asked (.reply 400 (some body))) whoami trivial rfl rfl
  obtain ⟨e, rfl, he⟩ := hkept hfits
  exact ⟨e, b', hout, he⟩

/-- An error whose code is a number is no request error to those who asked. -/
theorem numbered_code_escapes :
    ∃ e, ((Call.request 0 whoami.name whoami.arguments).outcome
        (Example.asked (.reply 400 (some (.record [("errcode", .int 5)]))))).1 = .error e ∧
      ¬ e.FromHomeserver := by
  refine ⟨.noAttribute, ?_, id⟩
  rw [outcome_request]
  rfl

end Inquiry

end VirtualUsers
