import VirtualUsers.Proofs.Traffic
/-!
# What clients send

Each request of a client either fails before anything is sent, because an argument has no written
form, or it is one exchange whose answer is then read. The predicates on exchanges name the requests
by their arguments.
-/

namespace VirtualUsers

namespace Exchange

variable (c : Client)

def Registers (localpart inhibitLogin : Value) (x : Exchange) : Prop :=
  x.IsFrom c .register
    (.record [("username", localpart), ("type", .text registrationType),
      ("inhibit_login", .bool inhibitLogin.truthy)]) [] false

def Joins (room : Value) (x : Exchange) : Prop :=
  ∃ r, room.segment = .ok r ∧ x.IsFrom c (.join r) (.map []) [] true

def ChangesMembership (action : MembershipAction) (room user reason : Value) (x : Exchange) :
    Prop :=
  ∃ r, room.segment = .ok r ∧ x.IsFrom c (.membership action r)
    (.record (("user_id", user) :: Bridge.reasonFields reason)) [] true

def SendsMessage (room type content timestamp : Value) (x : Exchange) : Prop :=
  ∃ params r t transaction body, Bridge.timeParams timestamp = .ok params ∧ room.segment = .ok r ∧
    type.segment = .ok t ∧ Content.ofRecord content = .ok body ∧
    x.IsFrom c (.sendMessage r t transaction) body params true

def WritesState (room type key content timestamp : Value) (x : Exchange) : Prop :=
  ∃ params r t k body, Bridge.timeParams timestamp = .ok params ∧ room.segment = .ok r ∧
    type.segment = .ok t ∧ key.segment = .ok k ∧ Content.ofRecord content = .ok body ∧
    x.IsFrom c (.writeState r t k) body params true

def ReadsState (room type key : Value) (x : Exchange) : Prop :=
  ∃ r t k, room.segment = .ok r ∧ type.segment = .ok t ∧ key.segment = .ok k ∧
    x.IsFrom c (.readState r t k) .null [] true

def ReadsRoomState (room : Value) (x : Exchange) : Prop :=
  ∃ r, room.segment = .ok r ∧ x.IsFrom c (.roomState r) .null [] true

def ReadsJoinedMembers (room : Value) (x : Exchange) : Prop :=
  ∃ r, room.segment = .ok r ∧ x.IsFrom c (.joinedMembers r) .null [] true

def ReadsMembers (room : Value) (x : Exchange) : Prop :=
  ∃ r params, room.segment = .ok r ∧ x.IsFrom c (.members r) .null params true

def Redacts (room event reason : Value) (x : Exchange) : Prop :=
  ∃ r e transaction, room.segment = .ok r ∧ event.segment = .ok e ∧
    x.IsFrom c (.redact r e transaction) (.record (Bridge.reasonFields reason)) [] true

def Types (room typing : Value) (x : Exchange) : Prop :=
  ∃ r u length, room.segment = .ok r ∧ c.user.segment = .ok u ∧
    x.IsFrom c (.typing r u) (.record (("typing", .bool typing.truthy) :: length)) [] true

def SetsDisplayName (name : Value) (x : Exchange) : Prop :=
  ∃ u, c.user.segment = .ok u ∧
    x.IsFrom c (.displayName u) (.record [("displayname", name)]) [] true

def SetsAvatarUrl (url : Value) (x : Exchange) : Prop :=
  ∃ u, c.user.segment = .ok u ∧ x.IsFrom c (.avatarUrl u) (.record [("avatar_url", url)]) [] true

def AsksWhoami (x : Exchange) : Prop :=
  x.IsFrom c .whoami .null [] true

/-! ## Endpoints of requests -/

section Endpoints

variable {c : Client} {x : Exchange} {room type key user event content timestamp reason : Value}

theorem Registers.endpoint {localpart inhibitLogin : Value}
    (h : x.Registers c localpart inhibitLogin) : x.request.endpoint = .register :=
  h.endpoint_eq

theorem Joins.endpoint (h : x.Joins c room) : ∃ r, x.request.endpoint = .join r := by
  obtain ⟨r, -, h⟩ := h
  exact ⟨r, h.endpoint_eq⟩

theorem ChangesMembership.endpoint {action : MembershipAction}
    (h : x.ChangesMembership c action room user reason) :
    ∃ r, x.request.endpoint = .membership action r := by
  obtain ⟨r, -, h⟩ := h
  exact ⟨r, h.endpoint_eq⟩

theorem SendsMessage.endpoint (h : x.SendsMessage c room type content timestamp) :
    ∃ r t n, x.request.endpoint = .sendMessage r t n := by
  obtain ⟨_, r, t, n, _, -, -, -, -, h⟩ := h
  exact ⟨r, t, n, h.endpoint_eq⟩

theorem WritesState.endpoint (h : x.WritesState c room type key content timestamp) :
    ∃ r t k, x.request.endpoint = .writeState r t k := by
  obtain ⟨_, r, t, k, _, -, -, -, -, -, h⟩ := h
  exact ⟨r, t, k, h.endpoint_eq⟩

theorem ReadsState.endpoint (h : x.ReadsState c room type key) :
    ∃ r t k, x.request.endpoint = .readState r t k := by
  obtain ⟨r, t, k, -, -, -, h⟩ := h
  exact ⟨r, t, k, h.endpoint_eq⟩

theorem ReadsRoomState.endpoint (h : x.ReadsRoomState c room) :
    ∃ r, x.request.endpoint = .roomState r := by
  obtain ⟨r, -, h⟩ := h
  exact ⟨r, h.endpoint_eq⟩

theorem ReadsJoinedMembers.endpoint (h : x.ReadsJoinedMembers c room) :
    ∃ r, x.request.endpoint = .joinedMembers r := by
  obtain ⟨r, -, h⟩ := h
  exact ⟨r, h.endpoint_eq⟩

theorem ReadsMembers.endpoint (h : x.ReadsMembers c room) :
    ∃ r, x.request.endpoint = .members r := by
  obtain ⟨r, _, -, h⟩ := h
  exact ⟨r, h.endpoint_eq⟩

theorem Redacts.endpoint (h : x.Redacts c room event reason) :
    ∃ r e n, x.request.endpoint = .redact r e n := by
  obtain ⟨r, e, n, -, -, h⟩ := h
  exact ⟨r, e, n, h.endpoint_eq⟩

theorem Types.endpoint {typing : Value} (h : x.Types c room typing) :
    ∃ r u, x.request.endpoint = .typing r u := by
  obtain ⟨r, u, _, -, -, h⟩ := h
  exact ⟨r, u, h.endpoint_eq⟩

theorem SetsDisplayName.endpoint {name : Value} (h : x.SetsDisplayName c name) :
    ∃ u, x.request.endpoint = .displayName u := by
  obtain ⟨u, -, h⟩ := h
  exact ⟨u, h.endpoint_eq⟩

theorem SetsAvatarUrl.endpoint {url : Value} (h : x.SetsAvatarUrl c url) :
    ∃ u, x.request.endpoint = .avatarUrl u := by
  obtain ⟨u, -, h⟩ := h
  exact ⟨u, h.endpoint_eq⟩

theorem AsksWhoami.endpoint (h : x.AsksWhoami c) : x.request.endpoint = .whoami :=
  h.endpoint_eq

end Endpoints

end Exchange

namespace Bridge

open Attempt (ofResult)

theorem SameService.joins {b b' : Bridge} (h : SameService b b') {c : ClientId} {room : Value}
    {x : Exchange} : x.Joins (b'.clientAt c) room ↔ x.Joins (b.clientAt c) room := by
  simp only [Exchange.Joins, h.isFrom]

/-- From `b` on, the attempt fails on the spot, or it sends one request and reads what comes of
it. -/
def Asks (b : Bridge) (sends : Exchange → Prop) (read : Value → Except Failure α) (ask : Act α) :
    Prop :=
  (∃ e b', ask.outcome b = (.error e, b') ∧ ¬ e.FromHomeserver ∧ Untouched b b') ∨
    ∃ x b', ask.outcome b = (x.content >>= read, b') ∧ sends x ∧ Heard b x b'

section Rules

variable {α β : Type} {b b₁ : Bridge} {sends : Exchange → Prop} {read : Value → Except Failure α}

theorem asks_send (b : Bridge) (c : ClientId) (endpoint : Endpoint) (body : Value)
    (params : List (String × Value)) (asUser : Bool) :
    Asks b (·.IsFrom (b.clientAt c) endpoint body params asUser) .ok
      (send c endpoint body params asUser) := by
  obtain ⟨x, b', hout, hx, hb'⟩ := outcome_send c endpoint body params asUser b
  refine Or.inr ⟨x, b', ?_, hx, hb'⟩
  have hread : x.content >>= Except.ok = x.content := bind_pure x.content
  rw [hout, hread]

theorem Asks.imp {ask : Act α} {sends' : Exchange → Prop} (h : Asks b sends read ask)
    (himp : ∀ x, sends x → sends' x) : Asks b sends' read ask := by
  rcases h with hlocal | ⟨x, b', hout, hx, hb'⟩
  · exact Or.inl hlocal
  · exact Or.inr ⟨x, b', hout, himp x hx, hb'⟩

/-- An argument is checked first. -/
theorem Asks.check {r : Except Failure β} {f : β → Act α} (hr : StaysLocal r)
    (hf : ∀ v, r = .ok v → Asks b sends read (f v)) : Asks b sends read (ofResult r >>= f) := by
  cases r with
  | ok v =>
    have h := hf v rfl
    simpa only [Asks, Attempt.outcome_bind, Attempt.outcome_ofResult, Attempt.follow_ok] using h
  | error e =>
    refine Or.inl ⟨e, b, ?_, hr e rfl, .refl b⟩
    rw [Attempt.outcome_bind, Attempt.outcome_ofResult, Attempt.follow_error]

/-- Something that nobody notices is done first. -/
theorem Asks.after {first : Act β} {f : β → Act α} {v : β} (hfirst : first.outcome b = (.ok v, b₁))
    (hb₁ : Untouched b b₁) (hf : Asks b₁ sends read (f v)) : Asks b sends read (first >>= f) := by
  have hout : (first >>= f).outcome b = (f v).outcome b₁ := by
    rw [Attempt.outcome_bind, hfirst, Attempt.follow_ok]
  rcases hf with ⟨e, b', hf, he, hb'⟩ | ⟨x, b', hf, hx, hb'⟩
  · exact Or.inl ⟨e, b', hout.trans hf, he, hb₁.trans hb'⟩
  · exact Or.inr ⟨x, b', hout.trans hf, hx, hb₁.heard hb'⟩

theorem outcome_reading {act : Act α} {r : Except Failure Value}
    (hout : act.outcome b = (r >>= read, b₁)) (g : α → Except Failure β) :
    (act >>= fun a => ofResult (g a)).outcome b = (r >>= fun data => read data >>= g, b₁) := by
  rw [Attempt.outcome_bind, hout]
  cases hr : r >>= read with
  | error e =>
    rw [Attempt.follow_error, ← bind_assoc, hr]
    rfl
  | ok a =>
    rw [Attempt.follow_ok, Attempt.outcome_ofResult, ← bind_assoc, hr]
    rfl

theorem outcome_giving {act : Act α} {r : Except Failure Value}
    (hout : act.outcome b = (r >>= read, b₁)) (g : α → β) :
    (act >>= fun a => pure (g a)).outcome b = (r >>= fun data => (read data).map g, b₁) := by
  rw [Attempt.outcome_bind, hout]
  cases r with
  | error e => rfl
  | ok data =>
    change Attempt.follow _ (read data, b₁) = ((read data).map g, b₁)
    cases read data <;> rfl

/-- What was read is read once more. -/
theorem Asks.reading {ask : Act α} (h : Asks b sends read ask) (g : α → Except Failure β) :
    Asks b sends (fun data => read data >>= g) (ask >>= fun a => ofResult (g a)) := by
  rcases h with ⟨e, b', hout, he, hb'⟩ | ⟨x, b', hout, hx, hb'⟩
  · refine Or.inl ⟨e, b', ?_, he, hb'⟩
    rw [Attempt.outcome_bind, hout, Attempt.follow_error]
  · exact Or.inr ⟨x, b', outcome_reading hout g, hx, hb'⟩

/-- From `b` on, the attempt sends one request and reads what comes of it. -/
def Makes (b : Bridge) (read : Value → Except Failure α) (act : Act α) : Prop :=
  ∃ x b', act.outcome b = (x.content >>= read, b') ∧ Heard b x b'

theorem makes_send (b : Bridge) (c : ClientId) (endpoint : Endpoint) (body : Value)
    (params : List (String × Value)) (asUser : Bool) :
    Makes b .ok (send c endpoint body params asUser) := by
  obtain ⟨x, b', hout, -, hb'⟩ := outcome_send c endpoint body params asUser b
  have hread : x.content >>= Except.ok = x.content := bind_pure x.content
  exact ⟨x, b', by rw [hout, hread], hb'⟩

/-- An argument of the right type passes its check. -/
theorem Makes.check {r : Except Failure β} {v : β} {f : β → Act α} (hr : r = .ok v)
    (hf : Makes b read (f v)) : Makes b read (ofResult r >>= f) := by
  obtain ⟨x, b', hout, hb'⟩ := hf
  refine ⟨x, b', ?_, hb'⟩
  rw [hr, Attempt.outcome_bind, Attempt.outcome_ofResult, Attempt.follow_ok, hout]

/-- Something that nobody notices is done first. -/
theorem Makes.after {first : Act β} {f : β → Act α} {v : β} (hfirst : first.outcome b = (.ok v, b₁))
    (hb₁ : Untouched b b₁) (hf : Makes b₁ read (f v)) : Makes b read (first >>= f) := by
  obtain ⟨x, b', hout, hb'⟩ := hf
  refine ⟨x, b', ?_, hb₁.heard hb'⟩
  rw [Attempt.outcome_bind, hfirst, Attempt.follow_ok, hout]

/-- What was read is read once more. -/
theorem Makes.reading {act : Act α} (h : Makes b read act) (g : α → Except Failure β) :
    Makes b (fun data => read data >>= g) (act >>= fun a => ofResult (g a)) := by
  obtain ⟨x, b', hout, hb'⟩ := h
  exact ⟨x, b', outcome_reading hout g, hb'⟩

/-- What was read is given another form. -/
theorem Makes.giving {act : Act α} (h : Makes b read act) (g : α → β) :
    Makes b (fun data => (read data).map g) (act >>= fun a => pure (g a)) := by
  obtain ⟨x, b', hout, hb'⟩ := h
  exact ⟨x, b', outcome_giving hout g, hb'⟩

end Rules

theorem segment_text (s : String) : (Value.text s).segment = .ok (Text.utf8 s) := rfl

/-- A new transaction changes nothing but the number that its client gives next. -/
theorem outcome_nextTransaction (c : ClientId) (b : Bridge) :
    ∃ t b', (nextTransaction c).outcome b = (.ok t, b') ∧ Untouched b b' := by
  refine ⟨_, _, rfl, ⟨⟨rfl, rfl, rfl, rfl, rfl, ?_⟩, rfl, rfl, rfl, rfl⟩⟩
  change (b.clients.set c { b.clientAt c with issued := (b.clientAt c).issued + 1 }).map _ = _
  apply List.ext_getElem?
  intro n
  simp only [Bridge.senders, List.getElem?_map, List.getElem?_set, clientAt]
  split
  · next h =>
    subst h
    split
    · next h => rw [List.getElem?_eq_getElem h]; rfl
    · next h => rw [List.getElem?_eq_none (Nat.le_of_not_lt h)]
  · rfl

variable (b : Bridge) (c : ClientId)

theorem asks_sendRegister (localpart inhibitLogin : Value) :
    Asks b (·.Registers (b.clientAt c) localpart inhibitLogin) .ok
      (sendRegister c localpart inhibitLogin) :=
  asks_send b c _ _ _ _

/-- A join of a room that has a written form is always sent. -/
theorem outcome_sendJoin {room : Value} {r : Segment} (hr : room.segment = .ok r) :
    ∃ x b', (sendJoin c room).outcome b = (x.content >>= joinedRoom room, b') ∧
      x.Joins (b.clientAt c) room ∧ Heard b x b' := by
  obtain ⟨x, b', hout, hx, hb'⟩ := outcome_send c (.join r) (.map []) [] true b
  refine ⟨x, b', ?_, ⟨r, hr, hx⟩, hb'⟩
  rw [sendJoin, hr, Attempt.outcome_bind, Attempt.outcome_ofResult, Attempt.follow_ok,
    Attempt.outcome_bind, hout]
  cases x.content with
  | error e => rfl
  | ok data => rw [Attempt.follow_ok, Attempt.outcome_ofResult]; rfl

theorem asks_sendJoin (room : Value) :
    Asks b (·.Joins (b.clientAt c) room) (joinedRoom room) (sendJoin c room) :=
  Asks.check room.staysLocal_segment fun r hr =>
    ((asks_send b c _ _ _ _).reading (joinedRoom room)).imp fun _ hx => ⟨r, hr, hx⟩

theorem outcome_sendMembership (action : MembershipAction) {room : Value} {r : Segment}
    (hr : room.segment = .ok r) (user reason : Value) :
    ∃ x b', (sendMembership c action room user reason).outcome b =
        (x.content >>= fun _ => .ok (), b') ∧
      x.ChangesMembership (b.clientAt c) action room user reason ∧ Heard b x b' := by
  obtain ⟨x, b', hout, hx, hb'⟩ := outcome_send c (.membership action r)
    (.record (("user_id", user) :: reasonFields reason)) [] true b
  refine ⟨x, b', ?_, ⟨r, hr, hx⟩, hb'⟩
  rw [sendMembership, hr, Attempt.outcome_bind, Attempt.outcome_ofResult, Attempt.follow_ok,
    Attempt.outcome_bind, hout]
  cases x.content <;> rfl

theorem asks_sendMembership (action : MembershipAction) (room user reason : Value) :
    Asks b (·.ChangesMembership (b.clientAt c) action room user reason) (fun _ => .ok ())
      (sendMembership c action room user reason) :=
  Asks.check room.staysLocal_segment fun r hr =>
    ((asks_send b c _ _ _ _).reading fun _ => .ok ()).imp fun _ hx => ⟨r, hr, hx⟩

theorem staysLocal_timeParams (timestamp : Value) : StaysLocal (timeParams timestamp) := by
  unfold timeParams
  split
  · exact staysLocal_ok []
  · exact timestamp.staysLocal_toInt.map

theorem asks_sendMessage (room type content timestamp : Value) :
    Asks b (·.SendsMessage (b.clientAt c) room type content timestamp) eventId
      (sendMessage c room type content timestamp) := by
  refine Asks.check (staysLocal_timeParams timestamp) fun params hparams =>
    Asks.check room.staysLocal_segment fun r hr =>
    Asks.check type.staysLocal_segment fun t ht => ?_
  obtain ⟨transaction, b₁, hnext, hb₁⟩ := outcome_nextTransaction c b
  apply Asks.after hnext hb₁
  apply Asks.check (Content.staysLocal_ofRecord content)
  intro body hbody
  apply ((asks_send b₁ c _ _ _ _).reading eventId).imp
  intro x hx
  exact ⟨params, r, t, transaction, body, hparams, hr, ht, hbody, hb₁.isFrom.mp hx⟩

theorem asks_writeState (room type key content timestamp : Value) :
    Asks b (·.WritesState (b.clientAt c) room type key content timestamp) eventId
      (writeState c room type key content timestamp) :=
  Asks.check (staysLocal_timeParams timestamp) fun params hparams =>
    Asks.check room.staysLocal_segment fun r hr =>
    Asks.check type.staysLocal_segment fun t ht =>
    Asks.check key.staysLocal_segment fun k hk =>
    Asks.check (Content.staysLocal_ofRecord content) fun body hbody =>
    ((asks_send b c _ _ _ _).reading eventId).imp fun _ hx =>
      ⟨params, r, t, k, body, hparams, hr, ht, hk, hbody, hx⟩

theorem asks_readState (room type key : Value) :
    Asks b (·.ReadsState (b.clientAt c) room type key) .ok (readState c room type key) :=
  Asks.check room.staysLocal_segment fun r hr =>
    Asks.check type.staysLocal_segment fun t ht =>
    Asks.check key.staysLocal_segment fun k hk =>
    (asks_send b c _ _ _ _).imp fun _ hx => ⟨r, t, k, hr, ht, hk, hx⟩

theorem asks_readRoomState (room : Value) :
    Asks b (·.ReadsRoomState (b.clientAt c) room) (stateOf room) (readRoomState c room) :=
  Asks.check room.staysLocal_segment fun r hr =>
    ((asks_send b c _ _ _ _).reading (stateOf room)).imp fun _ hx => ⟨r, hr, hx⟩

theorem asks_readJoinedMembers (room : Value) :
    Asks b (·.ReadsJoinedMembers (b.clientAt c) room) joinedOf (readJoinedMembers c room) :=
  Asks.check room.staysLocal_segment fun r hr =>
    ((asks_send b c _ _ _ _).reading joinedOf).imp fun _ hx => ⟨r, hr, hx⟩

theorem asks_readMembers (room membership notMembership : Value) :
    Asks b (·.ReadsMembers (b.clientAt c) room) (membersOf room)
      (readMembers c room membership notMembership) :=
  Asks.check room.staysLocal_segment fun r hr =>
    ((asks_send b c _ _ _ _).reading (membersOf room)).imp fun _ hx => ⟨r, _, hr, hx⟩

theorem asks_sendRedaction (room event reason : Value) :
    Asks b (·.Redacts (b.clientAt c) room event reason) eventId
      (sendRedaction c room event reason) := by
  refine Asks.check room.staysLocal_segment fun r hr =>
    Asks.check event.staysLocal_segment fun e he => ?_
  obtain ⟨transaction, b₁, hnext, hb₁⟩ := outcome_nextTransaction c b
  refine Asks.after hnext hb₁ (((asks_send b₁ c _ _ _ _).reading eventId).imp fun x hx => ?_)
  exact ⟨r, e, transaction, hr, he, hb₁.isFrom.mp hx⟩

theorem asks_sendTyping (room typing timeout : Value) :
    Asks b (·.Types (b.clientAt c) room typing) (fun _ => .ok ())
      (sendTyping c room typing timeout) := by
  have hsend (length : List (String × Value)) :
      Asks b (·.Types (b.clientAt c) room typing) (fun _ => .ok ()) (do
        let room ← ofResult room.segment
        let user ← ofResult (← client c).user.segment
        let _ ← send c (.typing room user) (.record (("typing", .bool typing.truthy) :: length)) []
          true) :=
    Asks.check room.staysLocal_segment fun r hr =>
      Asks.after (outcome_client c b) (.refl b) <|
      Asks.check (Value.staysLocal_segment _) fun u hu =>
      ((asks_send b c _ _ _ _).reading fun _ => .ok ()).imp fun _ hx => ⟨r, u, length, hr, hu, hx⟩
  unfold sendTyping
  split
  · exact Asks.check timeout.staysLocal_toInt fun n _ => hsend _
  · exact hsend _

/-- The arguments of a typing notice pass their checks if they are of the right types. -/
theorem sendTyping_eq (room : Value) (typing : Bool) (timeout : Int) :
    sendTyping c room (.bool typing) (.int timeout) = (do
      let room ← ofResult room.segment
      let user ← ofResult (← client c).user.segment
      let _ ← send c (.typing room user) (.record (("typing", .bool typing) ::
        if typing = true then [("timeout", .int timeout)] else [])) [] true) := by
  cases typing with
  | true => rfl
  | false => rfl

theorem asks_sendDisplayName (name : Value) :
    Asks b (·.SetsDisplayName (b.clientAt c) name) (fun _ => .ok ()) (sendDisplayName c name) :=
  Asks.after (outcome_client c b) (.refl b) <|
    Asks.check (Value.staysLocal_segment _) fun u hu =>
    ((asks_send b c _ _ _ _).reading fun _ => .ok ()).imp fun _ hx => ⟨u, hu, hx⟩

theorem asks_sendAvatarUrl (url : Value) :
    Asks b (·.SetsAvatarUrl (b.clientAt c) url) (fun _ => .ok ()) (sendAvatarUrl c url) :=
  Asks.after (outcome_client c b) (.refl b) <|
    Asks.check (Value.staysLocal_segment _) fun u hu =>
    ((asks_send b c _ _ _ _).reading fun _ => .ok ()).imp fun _ hx => ⟨u, hu, hx⟩

theorem asks_readWhoami :
    Asks b (·.AsksWhoami (b.clientAt c)) .ok (readWhoami c) :=
  asks_send b c _ _ _ _

end Bridge

end VirtualUsers
