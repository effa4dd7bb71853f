import VirtualUsers.Proofs.Absorption
import VirtualUsers.Proofs.Payloads
import VirtualUsers.Proofs.Turns
/-!
# Effects

An effect is a membership that a user gets in a room. For each exchange and each event it is laid
down what effects it has. Refused requests have none, and neither has the invitation with which a
helper lets a user in. The writes of the store are shown to have the effects of what was written.
-/

namespace VirtualUsers

/-- A membership that a user gets in a room. -/
structure Effect where
  room : String
  user : String
  membership : String
deriving DecidableEq

namespace Effect

/-- A user gets a membership in a room. Nothing is asked about ids that are no texts. -/
def on (room user : Value) (membership : String) : List Effect :=
  match room, user with
  | .text r, .text u => [⟨r, u, membership⟩]
  | _, _ => []

/-- What comes of a result. Of a failure comes nothing. -/
def upon (r : Except Failure α) (f : α → List Effect) : List Effect :=
  match r with
  | .ok a => f a
  | .error _ => []

def latest? (room user : String) (effects : List Effect) : Option String :=
  (effects.reverse.find? fun e => e.room == room && e.user == user).map (·.membership)

theorem on_eq_nil {room user : Value} (membership : String)
    (h : ¬ ∃ r u, room = .text r ∧ user = .text u) : on room user membership = [] := by
  unfold on
  split
  · exact absurd ⟨_, _, rfl, rfl⟩ h
  · rfl

theorem on_no_room {room : Value} (user : Value) (membership : String)
    (h : ∀ r, room ≠ .text r) : on room user membership = [] := by
  apply on_eq_nil
  rintro ⟨r, u, hr, -⟩
  exact h r hr

theorem on_no_user {user : Value} (room : Value) (membership : String)
    (h : ∀ u, user ≠ .text u) : on room user membership = [] := by
  apply on_eq_nil
  rintro ⟨r, u, -, hu⟩
  exact h u hu

theorem upon_const (r : Except Failure Value) (effects : List Effect) :
    upon (r >>= fun _ => .ok ()) (fun _ => effects) = upon r fun _ => effects := by
  cases r <;> rfl

theorem upon_ok (r : Except Failure Value) (f : Value → List Effect) :
    upon (r >>= Except.ok) f = upon r f := by
  cases r <;> rfl

theorem latest?_append (room user : String) (before after : List Effect) :
    latest? room user (before ++ after) =
      (latest? room user after).or (latest? room user before) := by
  rw [latest?, List.reverse_append, List.find?_append]
  cases hfind : after.reverse.find? fun e => e.room == room && e.user == user <;>
    simp [latest?, hfind]

theorem latest?_singleton (room user : String) (e : Effect) :
    latest? room user [e] = if e.room = room ∧ e.user = user then some e.membership else none := by
  by_cases h : e.room = room ∧ e.user = user
  · simp [latest?, h]
  · rw [if_neg h]
    simpa [latest?] using h

end Effect

def Value.membership? (content : Value) : Option String :=
  match content.field "membership" with
  | .ok (.text m) => if Membership.recognised.contains m then some m else none
  | _ => none

namespace Event

def isMember (e : Event) : Bool :=
  match e.type with
  | .text t => t == EventType.member
  | _ => false

/-- The user whose id is the state key gets the membership that the content gives. -/
def grants (e : Event) : List Effect :=
  match e.content.membership? with
  | some m => Effect.on e.room e.stateKey m
  | none => []

def effects (e : Event) : List Effect :=
  if e.isMember then e.grants else []

end Event

def Operation.change? : Operation → Option (MembershipAction × Value × Value)
  | changeMembership action room user _ => some (action, room, user)
  | ensureInvited room user => some (.invite, room, user)
  | _ => none

/-- The room, the type and the state key of the state that an operation reads, if it is not for the
power levels. -/
def Operation.reads? : Operation → Option (Value × Value × Value)
  | stateEvent room type key => some (room, type, key)
  | member room user => some (room, .text EventType.member, user)
  | _ => none

/-- The content that is sent, if a payload can hold it. If several entries of a map had the same key
the last one would count. -/
def Content.sent (content : Value) : Except Failure Value := do
  let _ ← clone content
  match ← ofRecord content with
  | .map entries => return .map entries.reverse
  | v => return v

/-- A state that was sent has the effects of its content if a payload can hold that. There is no
room without a name. -/
def Effect.ofSent (room type key content : Value) : List Effect :=
  match room with
  | .text "" => []
  | _ => upon (Content.sent content) fun sent =>
    Event.effects { room, type, stateKey := key, content := sent }

open Effect Bridge in
/-- The effects of an exchange of an operation, by what the homeserver was asked for. -/
def Exchange.effects (i : Intent) (op : Operation) (x : Exchange) : List Effect :=
  match x.request.endpoint with
  | .join _ =>
    match op.entry? with
    | some (room, _) => upon (x.content >>= joinedRoom room) fun joined =>
      on joined (.text i.userId) Membership.join
    | none => []
  | .membership .. =>
    match op.change? with
    | some (action, room, user) => upon x.content fun _ =>
      on room user (membershipAfter action)
    | none => []
  | .writeState .. =>
    match op.writes? with
    | some (room, type, key, content) => upon (x.content >>= eventId) fun _ =>
      ofSent room type key content
    | none => []
  | .readState .. =>
    match op.reads? with
    | some (room, type, key) => upon x.content fun content =>
      Event.effects { room, type, stateKey := key, content }
    | none => []
  | .roomState _ =>
    match op with
    | .state room => upon (x.content >>= stateOf room) fun state =>
      state.events.flatMap Event.effects
    | _ => []
  | .joinedMembers _ =>
    match op with
    | .joinedMembers room => upon (x.content >>= joinedOf) fun joined =>
      joined.flatMap fun entry => on room entry.1 Membership.join
    | _ => []
  | .members _ =>
    match op with
    | .members room _ _ => upon (x.content >>= membersOf room) fun events =>
      events.flatMap Event.effects
    | _ => []
  | _ => []

theorem Value.membership?_eq {content v : Value} (h : content.field "membership" = .ok v) :
    content.membership? = v.text?.filter Membership.recognised.contains := by
  rw [membership?, h]
  cases v with
  | text m => simp [text?, Option.filter]
  | _ => rfl

/-- A content either gives a recognised membership or none that is. -/
theorem Member.recognised_cases {content v : Value} (h : content.field "membership" = .ok v) :
    (∃ m, v = .text m ∧ isRecognised v = true ∧ content.membership? = some m) ∨
      (isRecognised v = false ∧ content.membership? = none) := by
  rw [Value.membership?, h]
  cases v with
  | text m =>
    cases hm : Membership.recognised.contains m with
    | true => exact .inl ⟨m, rfl, hm, by simp only [hm, if_true]⟩
    | false => exact .inr ⟨hm, by simp only [hm, Bool.false_eq_true, if_false]⟩
  | _ => exact .inr ⟨rfl, rfl⟩

/-- A record holds the membership that its content gives, and else none. -/
theorem Member.membership_ofContent {content : Value} {record : Member}
    (h : ofContent content = .ok record) :
    record.membership = .text (content.membership?.getD Membership.none) := by
  cases content with
  | map entries =>
    cases h
    dsimp only
    rcases recognised_cases (Value.field_map "membership" entries) with
      ⟨m, hv, hrecognised, hgiven⟩ | ⟨hrecognised, hgiven⟩
    · rw [if_pos hrecognised, hv, hgiven]
      rfl
    · rw [if_neg (by rw [hrecognised]; exact Bool.false_ne_true), hgiven]
      rfl
  | _ => cases h

theorem Content.sent_of_error {content : Value} {e : Failure} (h : clone content = .error e) :
    sent content = .error e := by
  rw [sent, h]
  rfl

/-- A copy gives the membership that was sent. -/
theorem Content.sent_of_clone {content copy : Value} (h : clone content = .ok copy) :
    ∃ body, sent content = .ok body ∧ body.membership? = copy.membership? := by
  obtain ⟨entries, hbody, htexts⟩ := clone_texts h
  obtain ⟨v, hfield, htext⟩ := htexts "membership"
  refine ⟨.map entries.reverse, ?_, ?_⟩
  · rw [sent, h, hbody]
    rfl
  · rw [Value.membership?_eq hfield, Value.membership?_eq (Value.field_map _ _), htext]

/-! ## What the store shows -/

namespace Key

theorem eq_text_of_ofValue? {v : Value} {s : String} (h : ofValue? v = some (.text s)) :
    v = .text s := by
  cases v with
  | text t =>
    cases h
    rfl
  | real x =>
    simp only [ofValue?] at h
    split at h <;> cases h
  | bool _ | int _ | null | bytes _ => cases h
  | _ => cases h

end Key

namespace Store

def shown (room user : String) (s : Store) : Value :=
  ((cell? (.text room) (.text user) s.members).getD {}).membership

theorem membership_eq_shown (room user : String) (s : Store) :
    s.membership (.text room) (.text user) = .ok (s.shown room user) := rfl

/-- After the effects the store shows the latest of them, and else what it showed before. -/
def After (effects : List Effect) (s s' : Store) : Prop :=
  ∀ room user, s'.shown room user =
    ((Effect.latest? room user effects).map Value.text).getD (s.shown room user)

variable {s s' s'' : Store} {effects more : List Effect}

theorem After.of_members (h : s'.members = s.members) : After [] s s' := by
  intro room user
  rw [shown, h]
  rfl

theorem After.trans (h : After effects s s') (h' : After more s' s'') :
    After (effects ++ more) s s'' := by
  intro room user
  rw [h' room user, h room user, Effect.latest?_append]
  cases Effect.latest? room user more <;> rfl

/-- A record that is entered under two keys is an effect if the keys are texts. -/
theorem after_enter {room user : Value} {r u : Key} {record : Member} {membership : String}
    (hroom : Key.ofValue? room = some r) (huser : Key.ofValue? user = some u)
    (hrecord : record.membership = .text membership) (s : Store) :
    After (Effect.on room user membership) s
      { s with members := enter r u record s.members } := by
  intro room' user'
  have hshown : shown room' user' { s with members := enter r u record s.members } =
      if Key.text room' = r ∧ Key.text user' = u then .text membership
      else s.shown room' user' := by
    rw [shown, cell?_enter]
    split
    · exact hrecord
    · rfl
  rw [hshown]
  by_cases htexts : ∃ a c, room = .text a ∧ user = .text c
  · obtain ⟨a, c, rfl, rfl⟩ := htexts
    cases hroom
    cases huser
    rw [Effect.on, Effect.latest?_singleton]
    simp only [Key.text.injEq, eq_comm (a := room'), eq_comm (a := user')]
    split <;> rfl
  · have hother : ¬ (Key.text room' = r ∧ Key.text user' = u) := by
      rintro ⟨rfl, rfl⟩
      exact htexts ⟨_, _, Key.eq_text_of_ofValue? hroom, Key.eq_text_of_ofValue? huser⟩
    rw [Effect.on_eq_nil membership htexts, if_neg hother]
    rfl

theorem ne_text_of_not_key {v : Value} (h : Key.ofValue? v = none) (s : String) : v ≠ .text s := by
  rintro rfl
  cases h

/-- A room that is entered for a user without a key shows nothing new. -/
theorem after_putNew (r : Key) (s : Store) :
    After [] s { s with members := Table.putNew r [] s.members } := by
  intro room user
  rw [shown, cell?_putNew]
  rfl

/-- A record with a membership is entered where there are keys for it. -/
theorem after_atCell (room user : Value) (record : Key → Key → Store → Member)
    {membership : String} (hrecord : ∀ r u s, (record r u s).membership = .text membership)
    (s : Store) :
    After (Effect.on room user membership) s
      ((Attempt.ofResult room.toKey >>= fun r =>
        userKey user (fun s => { s with members := Table.putNew r [] s.members }) >>= fun u =>
          modify fun s =>
            { s with members := enter r u (record r u s) s.members }).outcome s).2 := by
  apply state_atCell (P := After (Effect.on room user membership) s)
  case keyless =>
    intro hroom
    rw [Effect.on_no_room user membership (ne_text_of_not_key hroom)]
    exact .of_members rfl
  case userless =>
    intro r huser
    rw [Effect.on_no_user room membership (ne_text_of_not_key huser)]
    exact after_putNew r s
  case placed => exact fun r u hroom huser => after_enter hroom huser (hrecord r u s) s

theorem after_setMembership (room user : Value) (membership : String) (s : Store) :
    After (Effect.on room user membership) s
      ((setMembership room user (.text membership)).outcome s).2 :=
  after_atCell room user
    (fun r u s => { (cell? r u s.members).getD {} with membership := .text membership })
    (fun _ _ _ => rfl) s

theorem after_setMember (room user : Value) {record : Member} {membership : String}
    (hrecord : record.membership = .text membership) (s : Store) :
    After (Effect.on room user membership) s ((setMember room user record).outcome s).2 :=
  after_atCell room user (fun _ _ _ => record) (fun _ _ _ => hrecord) s

theorem isMember_iff (e : Event) : e.isMember = true ↔ e.type.same (.text EventType.member) := by
  rw [Value.same_text_iff, Event.isMember]
  cases e.type <;> simp [Value.text?]

theorem type_of_isMember {e : Event} (h : e.isMember) : e.type = .text EventType.member :=
  Value.text?_eq_some.mp ((Value.same_text_iff _ _).mp ((isMember_iff e).mp h))

/-- A membership is taken in as the event gives it, whether it can be kept or not. -/
theorem after_observeMember (e : Event) (s : Store) :
    After e.grants s ((observeMember e).outcome s).2 := by
  rw [observeMember, Attempt.outcome_bind, Attempt.outcome_ofResult, Event.grants]
  cases hfield : e.content.field "membership" with
  | error f =>
    rw [Value.membership?, hfield]
    exact .of_members rfl
  | ok v =>
    rw [Attempt.follow_ok]
    rcases Member.recognised_cases hfield with ⟨m, -, hv, hgiven⟩ | ⟨hv, hgiven⟩
    · rw [if_pos hv, hgiven, Attempt.outcome_bind, Attempt.outcome_ofResult]
      cases hrecord : Member.ofContent e.content with
      | error f =>
        rw [Member.ofContent, hfield] at hrecord
        cases hcontent : e.content with
        | map entries => rw [hcontent] at hrecord; cases hrecord
        | _ => rw [hcontent] at hfield; cases hfield
      | ok record =>
        rw [Attempt.follow_ok, Attempt.state_return]
        refine after_setMember _ _ ?_ s
        rw [Member.membership_ofContent hrecord, hgiven]
        rfl
    · rw [if_neg (by rw [hv]; exact Bool.false_ne_true), hgiven]
      exact .of_members rfl

theorem after_observe (e : Event) (s : Store) : After e.effects s ((observe e).outcome s).2 := by
  rw [observe, Event.effects]
  by_cases hkey : e.stateKey.isNull
  · have hnone : e.grants = [] := by
      rw [Event.grants]
      split
      · apply Effect.on_no_user
        intro u hu
        rw [hu] at hkey
        cases hkey
      · rfl
    rw [if_pos hkey, hnone, ite_self]
    exact .of_members rfl
  · rw [if_neg hkey]
    by_cases htype : e.type.same (.text EventType.member)
    · rw [if_pos htype, if_pos ((isMember_iff e).mpr htype)]
      exact after_observeMember e s
    · rw [if_neg htype, if_neg (fun h => htype ((isMember_iff e).mp h))]
      split
      · obtain ⟨l, hl⟩ := observeLevels_powerLevels e s
        rw [Attempt.state_return, hl]
        exact .of_members rfl
      · exact .of_members rfl

end Store

end VirtualUsers
