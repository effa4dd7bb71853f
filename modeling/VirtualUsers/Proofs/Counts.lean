import Mathlib.Data.List.Nodup
import VirtualUsers.Proofs.Effects
import VirtualUsers.Proofs.Runs
/-!
# What is counted

An exchange counts for one counter of requests at most, and turn by turn the tally grows by what the
exchange of the turn counts for. Only an invitation that helps a user into a room is counted when it
is sent; everything else is counted once it was answered.
-/

namespace VirtualUsers

/-- The counters of requests. All others are for what was left out or taken in. -/
def Counter.ofRequests : List Counter :=
  [registrations, registrationsInUse, joins, joinInviteFallbacks, invites, kicks, bans, unbans,
    eventsSent, stateEventsSent, typingSent]

theorem Counter.eq_of_name {c d : Counter} (h : c.name = d.name) : c = d := by
  have hnodup : (all.map name).Nodup := by decide +kernel
  have hmem (c : Counter) : c ∈ all := by cases c <;> decide
  exact List.inj_on_of_nodup_map hnodup (hmem c) (hmem d) h

namespace Tally

variable {o : Option Counter} {t t' t'' : Tally}

theorem count_zero (c : Counter) : zero.count c = 0 := by
  cases c <;> rfl

theorem count_add (c d : Counter) (n : Int) (t : Tally) :
    (t.add c n).count d = t.count d + if c = d then n else 0 := by
  have hput : (t.add c n).count d = ((Table.get? (.text d.name)
      (Table.put (.text c.name) (t.count c + n) t.counts)).getD 0) := rfl
  rw [hput, Table.get?_put]
  by_cases h : c = d
  · subst h
    rw [if_pos rfl, if_pos rfl, Option.getD_some]
  · have hname : Key.text d.name ≠ .text c.name := fun hkey =>
      h (Counter.eq_of_name (Key.text.inj hkey)).symm
    rw [if_neg hname, if_neg h, Int.add_zero]
    rfl

def Adds (o : Option Counter) (t t' : Tally) : Prop :=
  ∀ c ∈ Counter.ofRequests, t'.count c = t.count c + if o = some c then 1 else 0

theorem adds_none (h : ∀ c ∈ Counter.ofRequests, t'.count c = t.count c) : Adds none t t' := by
  intro c hc
  rw [h c hc, if_neg nofun, Int.add_zero]

theorem Adds.refl (t : Tally) : Adds none t t :=
  adds_none fun _ _ => rfl

theorem Adds.trans (h : Adds o t t') (h' : Adds none t' t'') : Adds o t t'' := by
  intro c hc
  rw [h' c hc, if_neg nofun, Int.add_zero, h c hc]

theorem adds_add (c : Counter) (t : Tally) : Adds (some c) t (t.add c 1) := by
  intro d _
  simp only [count_add, Option.some.injEq]

/-- Other counts may grow as they like. -/
theorem adds_aside {c : Counter} (hc : c ∉ Counter.ofRequests) (n : Int) (t : Tally) :
    Adds none t (t.add c n) := by
  refine adds_none fun d hd => ?_
  have hne : c ≠ d := fun h => hc (h ▸ hd)
  rw [count_add, if_neg hne, Int.add_zero]

theorem adds_foldl {cs : List Counter} (hcs : ∀ c ∈ cs, c ∉ Counter.ofRequests) (t : Tally) :
    Adds none t (cs.foldl (fun t c => t.add c 1) t) := by
  induction cs generalizing t with
  | nil => exact .refl t
  | cons c cs ih =>
    have hrest := ih (fun d hd => hcs d (List.mem_cons_of_mem c hd)) (t.add c 1)
    exact (adds_aside (hcs c List.mem_cons_self) 1 t).trans hrest

end Tally

/-! ## What exchanges count for -/

def Endpoint.counter? : Endpoint → Option Counter
  | register => some .registrations
  | join _ => some .joins
  | membership .invite _ => some .invites
  | membership .kick _ => some .kicks
  | membership .ban _ => some .bans
  | membership .unban _ => some .unbans
  | sendMessage .. => some .eventsSent
  | writeState .. => some .stateEventsSent
  | typing .. => some .typingSent
  | _ => none

theorem Endpoint.counter?_membership (action : MembershipAction) (room : Segment) :
    (membership action room).counter? = some (Bridge.membershipCounter action) := by
  cases action <;> rfl

def Endpoint.isInvite : Endpoint → Bool
  | membership .invite _ => true
  | _ => false

namespace Exchange

variable {x : Exchange}

def isAccepted (x : Exchange) : Bool :=
  match x.answer with
  | .reply status _ => status < 400
  | .unreachable _ => false

theorem isAccepted_iff : x.isAccepted = true ↔ x.Accepted := by
  rw [isAccepted, Accepted, content]
  cases x.answer with
  | unreachable text =>
    refine iff_of_false Bool.false_ne_true ?_
    rintro ⟨data, hdata⟩
    cases hdata
  | reply status body =>
    simp only [Answer.content, decide_eq_true_eq]
    split
    · next h =>
      refine iff_of_false (fun hstatus => absurd h (Int.not_le.mpr hstatus)) ?_
      rintro ⟨data, hdata⟩
      cases hr : Answer.refusal status (body.getD .null) <;> rw [hr] at hdata <;> cases hdata
    · next h => exact ⟨fun _ => ⟨_, rfl⟩, fun _ => Int.not_le.mp h⟩

theorem isAccepted_of_error {e : Failure} (h : x.content = .error e) : x.isAccepted = false := by
  rw [Bool.eq_false_iff]
  intro haccepted
  obtain ⟨data, hdata⟩ := isAccepted_iff.mp haccepted
  rw [h] at hdata
  cases hdata

def isInUse (x : Exchange) : Bool :=
  match x.content with
  | .error (.request q) => q.kind == .userInUse
  | _ => false

/-- A success has the shape that the endpoint gives it, as far as it is read before anything is
counted: the event id and the room are read from a map, and the room is a text if it is there. -/
def isShaped (x : Exchange) : Bool :=
  match x.content with
  | .error _ => true
  | .ok data =>
    match x.request.endpoint with
    | .join _ =>
      match data with
      | .map entries => (Value.lookup? "room_id" entries).all Value.isText
      | _ => false
    | .sendMessage .. | .writeState .. => data.isMap
    | _ => true

/-- The invitation follows on a request to join the room, which was forbidden. -/
def IsOnBehalf (user : String) (previous : Option Exchange) (x : Exchange) : Prop :=
  ∃ r y q, previous = some y ∧ y.request.endpoint = .join r ∧ y.RefusedWith q ∧
    q.kind = .forbidden ∧ x.request.endpoint = .membership .invite r ∧
    x.request.body.field "user_id" = .ok (.text user)

theorem isShaped_join {r : Segment} {data : Value} (h : x.isShaped = true)
    (he : x.request.endpoint = .join r) (hdata : x.content = .ok data) :
    ∃ entries, data = .map entries ∧
      (Value.lookup? "room_id" entries).all Value.isText = true := by
  simp only [isShaped, hdata, he] at h
  cases data with
  | map entries => exact ⟨entries, rfl, h⟩
  | _ => cases h

theorem isMap_of_isShaped (h : x.isShaped = true)
    (he : (∃ r t n, x.request.endpoint = .sendMessage r t n) ∨
      ∃ r t k, x.request.endpoint = .writeState r t k) :
    ∀ data, x.content = .ok data → data.isMap = true := by
  intro data hdata
  rcases he with ⟨r, t, n, he⟩ | ⟨r, t, k, he⟩ <;> simpa only [isShaped, hdata, he] using h

end Exchange

namespace Moment

/-- An invitation in an operation that brings its user into a room helps the user there. -/
def helps : Moment → Bool
  | asked _ op x => op.entry?.isSome && x.request.endpoint.isInvite
  | observed _ => false

def isAccepted (m : Moment) : Bool :=
  m.exchange?.any Exchange.isAccepted

/-- The request was accepted, and its endpoint is one that the counter is for. -/
def isAcceptedFor (c : Counter) (m : Moment) : Bool :=
  m.exchange?.any fun x => decide (x.request.endpoint.counter? = some c) && x.isAccepted

/-- The request to register a user was refused because the user is there already. -/
def findsInUse (m : Moment) : Bool :=
  m.exchange?.any fun x => decide (x.request.endpoint = .register) && x.isInUse

/-- What a moment counts for. -/
def counter? (m : Moment) : Option Counter :=
  if m.helps then some .joinInviteFallbacks
  else if m.isAccepted then m.exchange?.bind fun x => x.request.endpoint.counter?
  else if m.findsInUse then some .registrationsInUse
  else none

variable {i : Intent} {op : Operation} {x : Exchange} {e : Endpoint}

theorem helps_of_endpoint (hx : x.request.endpoint = e) (he : e.isInvite = false) :
    helps (asked i op x) = false := by
  rw [helps, hx, he, Bool.and_false]

theorem helps_of_entry (hop : op.entry? = none) : helps (asked i op x) = false := by
  rw [helps, hop]
  rfl

/-- What helps nobody and registers nobody counts by its endpoint. -/
theorem counter?_asked (hhelps : helps (asked i op x) = false) (hx : x.request.endpoint = e)
    (he : e ≠ .register) :
    (asked i op x).counter? = if x.isAccepted then e.counter? else none := by
  have hinUse : (asked i op x).findsInUse = false := by
    simp [findsInUse, exchange?, hx, he]
  have haccepted : (asked i op x).isAccepted = x.isAccepted := rfl
  have hcounter : ((asked i op x).exchange?.bind fun x => x.request.endpoint.counter?) =
      e.counter? := by
    rw [← hx]
    rfl
  rw [counter?, hhelps, hinUse, haccepted, hcounter, if_neg Bool.false_ne_true,
    if_neg Bool.false_ne_true]

theorem counter?_uncounted (hx : x.request.endpoint = e) (he : e.counter? = none) :
    (asked i op x).counter? = none := by
  have hinvite : e.isInvite = false := by
    cases e with
    | membership action room => cases action <;> cases he
    | _ => rfl
  have hregister : e ≠ .register := by
    rintro rfl
    cases he
  rw [counter?_asked (helps_of_endpoint hx hinvite) hx hregister, he, ite_self]

theorem counter?_register (hx : x.request.endpoint = .register) :
    (asked i op x).counter? = if x.isAccepted then some .registrations
      else if x.isInUse then some .registrationsInUse else none := by
  have hinUse : (asked i op x).findsInUse = x.isInUse := by
    simp [findsInUse, exchange?, hx]
  have haccepted : (asked i op x).isAccepted = x.isAccepted := rfl
  have hcounter : ((asked i op x).exchange?.bind fun x => x.request.endpoint.counter?) =
      some .registrations := by
    simp [exchange?, hx, Endpoint.counter?]
  rw [counter?, helps_of_endpoint hx rfl, hinUse, haccepted, hcounter, if_neg Bool.false_ne_true]

end Moment

namespace Store

theorem setMembership_returns {room user : Value} {r u : Key} (hroom : room.toKey = .ok r)
    (huser : Key.ofValue? user = some u) (membership : Value) (s : Store) :
    ∃ s', (setMembership room user membership).outcome s = (.ok (), s') := by
  rw [setMembership, Attempt.outcome_bind, Attempt.outcome_ofResult, hroom, Attempt.follow_ok,
    userKey, huser]
  exact ⟨_, rfl⟩

end Store

namespace Bridge

open Attempt (ofResult)
open Tally (Adds)

/-! ## What acts count -/

/-- The act counts for a counter of requests, or for none of them. -/
def Counts (o : Option Counter) (x : Act α) : Prop :=
  ∀ b, Adds o b.tally (x.outcome b).2.tally

section Rules

variable {α β : Type} {o : Option Counter} {x : Act α} {f : α → Act β}

theorem Fixes.counts (h : Fixes Bridge.tally x) : Counts none x := by
  intro b
  rw [h b]
  exact .refl _

theorem counts_count (c : Counter) : Counts (some c) (count c 1) :=
  fun b => Tally.adds_add c b.tally

theorem counts_aside {c : Counter} (hc : c ∉ Counter.ofRequests) (n : Int) :
    Counts none (count c n) :=
  fun b => Tally.adds_aside hc n b.tally

/-- What is done afterwards counts for nothing. -/
theorem Counts.bind (hx : Counts o x) (hf : ∀ a, Counts none (f a)) : Counts o (x >>= f) := by
  intro b
  have hb := hx b
  rw [Attempt.outcome_bind]
  rcases hout : x.outcome b with ⟨e | a, b'⟩ <;> rw [hout] at hb
  · exact hb
  · exact hb.trans (hf a b')

/-- What is done first does not fail and leaves the tally alone. -/
theorem Counts.after (hx : ∀ b, ∃ a b', x.outcome b = (.ok a, b') ∧ b'.tally = b.tally)
    (hf : ∀ a, Counts o (f a)) : Counts o (x >>= f) := by
  intro b
  obtain ⟨a, b', hout, htally⟩ := hx b
  rw [Attempt.outcome_bind, hout, Attempt.follow_ok, ← htally]
  exact hf a b'

theorem Counts.result (hx : Counts o x) : Counts o (Attempt.result x) := by
  intro b
  rw [Attempt.outcome_result]
  exact hx b

variable {read : Value → Except Failure α} {next : α → Act β}

theorem counts_passed (h : ∀ a, Counts none (next a)) (r : Except Failure Value) :
    Counts none (reading read next r) :=
  Counts.bind (fixes_ofResult _).counts h

/-- An answer that can be read whenever it is a success counts if it is one. -/
theorem counts_reading {y : Exchange}
    (h : ∀ data, y.content = .ok data → ∃ a, read data = .ok a ∧ Counts o (next a)) :
    Counts (if y.isAccepted then o else none) (reading read next y.content) := by
  intro b
  cases hc : y.content with
  | error e =>
    rw [Exchange.isAccepted_of_error hc, if_neg Bool.false_ne_true]
    exact .refl _
  | ok data =>
    obtain ⟨a, hread, hnext⟩ := h data hc
    rw [if_pos (Exchange.isAccepted_iff.mpr ⟨data, hc⟩)]
    change Adds o b.tally ((ofResult (read data) >>= next).outcome b).2.tally
    rw [hread, Attempt.outcome_bind, Attempt.outcome_ofResult, Attempt.follow_ok]
    exact hnext b

/-- A map is read as an answer with the id of an event. -/
theorem counts_eventId {next : Value → Act β} {y : Exchange}
    (hmap : ∀ data, y.content = .ok data → data.isMap = true) (h : ∀ id, Counts o (next id)) :
    Counts (if y.isAccepted then o else none) (reading eventId next y.content) := by
  refine counts_reading fun data hdata => ?_
  cases data with
  | map entries => exact ⟨_, rfl, h _⟩
  | _ => cases hmap _ hdata

end Rules

theorem fixes_note (name : String) (level : Int) (text : String) :
    Fixes Bridge.tally (note name level text) := fun _ => rfl

theorem fixes_onStore (x : Attempt Store α) : Fixes Bridge.tally (onStore x) := by
  intro b
  rw [outcome_onStore]

theorem fixes_observe (e : Event) : Fixes Bridge.tally (observe e) := by
  refine Fixes.bind (fixes_onStore _) fun membership => ?_
  cases membership with
  | none => exact fixes_pure ()
  | some m => exact fixes_note _ _ _

theorem fixes_absorbEvents (events : List Event) : Fixes Bridge.tally (absorbEvents events) :=
  Fixes.bind (Fixes.forM fun _ _ => Fixes.bind (fixes_ofResult _) fixes_observe) fun _ =>
    fixes_pure _

theorem fixes_absorbJoined (room : Value) (joined : List (Value × Value)) :
    Fixes Bridge.tally (absorbJoined room joined) :=
  Fixes.bind (Fixes.forM fun _ _ => fixes_onStore _) fun _ => fixes_pure _

theorem fixes_observeSent (room type key content sender id : Value) :
    Fixes Bridge.tally (observeSent room type key content sender id) := by
  intro b
  unfold observeSent
  split
  · split <;> rfl
  · rw [Attempt.outcome_bind, Attempt.outcome_get, Attempt.follow_ok]
    dsimp only
    split
    · rfl
    · exact fixes_observe _ b

theorem fixes_markRegistered (user : String) : Fixes Bridge.tally (markRegistered (.text user)) :=
  fun b => (untouched_markRegistered user b).tally

theorem counts_absorbed {absorbed : Act Int} (h : Fixes Bridge.tally absorbed) :
    Counts none (absorbed >>= count .stateAbsorbed) :=
  Counts.bind h.counts fun n => counts_aside (by decide) n

/-! ## What is counted with an answer -/

section Answers

variable {room user : Value} {r u : Key}

/-- A membership that is set between keys leaves the tally alone. -/
theorem onStore_setMembership (hroom : room.toKey = .ok r) (huser : Key.ofValue? user = some u)
    (membership : Value) (b : Bridge) :
    ∃ a b', (onStore (Store.setMembership room user membership)).outcome b = (.ok a, b') ∧
      b'.tally = b.tally := by
  obtain ⟨s, hs⟩ := Store.setMembership_returns hroom huser membership b.store
  exact ⟨(), { b with store := s }, by rw [outcome_onStore, hs], rfl⟩

theorem counts_recordJoin (i : Intent) (hroom : room.toKey = .ok r) :
    Counts (some .joins) (recordJoin i room) :=
  Counts.after (onStore_setMembership hroom (Key.ofValue?_text i.userId) _) fun _ =>
    Counts.bind (counts_count .joins) fun _ => (fixes_note _ _ _).counts

theorem counts_recordChange (action : MembershipAction) (hroom : room.toKey = .ok r)
    (huser : Key.ofValue? user = some u) :
    Counts (some (membershipCounter action)) (recordChange action room user) :=
  Counts.after (onStore_setMembership hroom huser _) fun _ => counts_count _

theorem counts_recordState (i : Intent) (room type key content id : Value) :
    Counts (some .stateEventsSent) (recordState i room type key content id) :=
  Counts.bind (counts_count _) fun _ => (fixes_observeSent _ _ _ _ _ _).counts

theorem counts_recordTyping (i : Intent) (now : Int) (room typing timeout : Value) :
    Counts (some .typingSent) (recordTyping i now room typing timeout) :=
  Counts.bind (counts_count _) fun _ => (fixes_onStore _).counts

theorem counts_acceptMember (room user : Value) (r : Except Failure Unit) :
    Counts none (acceptMember room user r) := by
  rcases acceptMember_cases room user r with ⟨-, h⟩ | ⟨text, h⟩ | ⟨e, -, h⟩
  · exact h ▸ (fixes_pure ()).counts
  · exact h ▸ Counts.bind (counts_aside (by decide) 1) fun _ => (fixes_note _ _ text).counts
  · exact h ▸ (fixes_throw e).counts

theorem fixes_recordLevels (room content : Value) :
    Fixes Bridge.tally (recordLevels room content) :=
  Fixes.bind (fixes_ofResult _) fun _ => Fixes.bind (fixes_onStore _) fun _ => fixes_pure _

theorem counts_recordRegistered (i : Intent) (x : Exchange) :
    Counts (if x.isAccepted then some .registrations
      else if x.isInUse then some .registrationsInUse else none)
      (recordRegistered i x.content) := by
  cases hc : x.content with
  | ok data =>
    rw [if_pos (Exchange.isAccepted_iff.mpr ⟨data, hc⟩)]
    exact Counts.bind (Counts.bind (counts_count _) fun _ => (fixes_note _ _ _).counts) fun _ =>
      (fixes_markRegistered i.userId).counts
  | error e =>
    rw [Exchange.isAccepted_of_error hc, if_neg Bool.false_ne_true, Exchange.isInUse, hc]
    cases e with
    | request q =>
      change Counts _ (recordClaim i (.error (.request q)) >>= fun _ => markRegistered _)
      refine Counts.bind ?_ fun _ => (fixes_markRegistered i.userId).counts
      simp only [recordClaim]
      split
      · exact Counts.bind (counts_count _) fun _ => (fixes_note _ _ _).counts
      · exact (fixes_throw _).counts
    | _ => exact (fixes_throw _).counts

end Answers

/-! ## What turns count -/

section Turns

variable {α β : Type} {i : Intent} {op : Operation} {b b' : Bridge} {x : Exchange}
  {o : Option Counter}

theorem Follows.adds {next : Except Failure Value → Act α} (h : Follows b x next b')
    (hnext : Counts o (next x.content)) : Adds o b.tally b'.tally := by
  obtain ⟨c, hheard, rfl⟩ := h
  rw [← hheard.tally]
  exact hnext c

theorem Follows.tallyThen {next : Except Failure Value → Act α} (h : Follows b x next b') :
    x.tally = b.tally := by
  obtain ⟨c, hheard, -⟩ := h
  exact hheard.tallyThen

theorem Heard.adds (h : Heard b x b') : Adds none b.tally b'.tally := by
  rw [h.tally]
  exact .refl _

theorem toKey_of_segment {room : Value} {r : Segment} (h : room.segment = .ok r) :
    ∃ k, room.toKey = .ok k := by
  cases room with
  | text | bytes => exact ⟨_, rfl⟩
  | _ => cases h

theorem ofValue?_of_isText {user : Value} (h : user.isText = true) :
    ∃ u, Key.ofValue? user = some u := by
  cases user with
  | text s => exact ⟨.text s, rfl⟩
  | _ => cases h

/-- An answer of the right shape to a join names a room that the store can hold. -/
theorem key_of_joinedRoom {c : Client} {room data : Value} (hx : x.Joins c room)
    (hshaped : x.isShaped = true) (hdata : x.content = .ok data) :
    ∃ named k, joinedRoom room data = .ok named ∧ named.toKey = .ok k := by
  obtain ⟨r, hroom, hfrom⟩ := hx
  obtain ⟨entries, rfl, htext⟩ := Exchange.isShaped_join hshaped hfrom.endpoint_eq hdata
  have hkey : ∃ k, (((Value.lookup? "room_id" entries).getD .null).orElse room).toKey = .ok k := by
    rw [Value.orElse]
    split
    · next htruthy =>
      cases hlookup : Value.lookup? "room_id" entries with
      | none =>
        rw [hlookup] at htruthy
        cases htruthy
      | some v =>
        rw [hlookup] at htext
        cases v with
        | text named => exact ⟨.text named, rfl⟩
        | _ => cases htext
    · exact toKey_of_segment hroom
  obtain ⟨k, hk⟩ := hkey
  exact ⟨_, k, rfl, hk⟩

/-- When a request was sent nothing was counted for it yet, but for an invitation that helps a user
into a room: that was counted, and follows on a join that was forbidden. -/
theorem Turn.sent (h : Turn i op b x b') :
    (Moment.helps (.asked i op x) = true ∧ x.tally = b.tally.add .joinInviteFallbacks 1 ∧
      x.IsOnBehalf i.userId b.traffic.getLast?) ∨
    (Moment.helps (.asked i op x) = false ∧ x.tally = b.tally) := by
  cases h with
  | helped room inviter helper hop _ hx h hforbidden =>
    obtain ⟨r, hroom, hx⟩ := hx
    obtain ⟨y, q, hlast, ⟨r', hroom', hy⟩, hq, hkind⟩ := hforbidden
    obtain rfl : r = r' := Except.ok.inj (hroom.symm.trans hroom')
    have hbody : x.request.body.field "user_id" = .ok (.text i.userId) := by
      rw [hx.body_eq]
      rfl
    refine .inl ⟨?_, h.tallyThen, r, y, q, hlast, hy.endpoint_eq, hq, hkind, hx.endpoint_eq, hbody⟩
    rw [Moment.helps, hop, hx.endpoint_eq]
    rfl
  | registered _ hx h | claimed _ _ _ hx h | whoamiAsked _ _ hx h =>
    exact .inr ⟨Moment.helps_of_endpoint hx.endpoint rfl, h.tallyThen⟩
  | joined _ _ _ _ hx h | roomStateRead _ _ hx h | joinedMembersRead _ _ hx h
  | membersRead _ _ _ _ hx h | displayNameSet _ _ _ hx h | avatarUrlSet _ _ _ hx h =>
    obtain ⟨r, hx⟩ := hx.endpoint
    exact .inr ⟨Moment.helps_of_endpoint hx rfl, h.tallyThen⟩
  | typingSent _ _ _ _ hx h =>
    obtain ⟨r, u, hx⟩ := hx.endpoint
    exact .inr ⟨Moment.helps_of_endpoint hx rfl, h.tallyThen⟩
  | messageSent _ _ _ _ _ hx h | redacted _ _ _ _ hx h | stateWritten _ _ _ _ _ _ hx h
  | levelsWritten _ _ _ hx h | stateRead _ _ _ _ hx h | memberRead _ _ _ _ hx h
  | levelsRead _ _ hx h =>
    obtain ⟨r, t, k, hx⟩ := hx.endpoint
    exact .inr ⟨Moment.helps_of_endpoint hx rfl, h.tallyThen⟩
  | membershipChanged _ _ _ _ hop _ h | invited _ _ hop _ h =>
    subst hop
    exact .inr ⟨Moment.helps_of_entry rfl, h.tallyThen⟩

/-- With a turn the counts grow by what its exchange counts for. -/
theorem Turn.adds (h : Turn i op b x b') (hop : op ≠ .register)
    (huser : ∀ action room user, op.change? = some (action, room, user) → user.isText = true)
    (hshaped : x.isShaped = true) :
    Adds (Moment.counter? (.asked i op x)) b.tally b'.tally := by
  cases h with
  | registered hop' => exact absurd hop' hop
  | claimed _ _ _ hx h =>
    rw [Moment.counter?_register hx.endpoint]
    exact h.adds (counts_recordRegistered i x)
  | joined room _ _ _ hx h =>
    obtain ⟨r, he⟩ := hx.endpoint
    rw [Moment.counter?_asked (Moment.helps_of_endpoint he rfl) he nofun]
    -- The store takes the room that was joined, so that nothing fails before the join is counted.
    refine h.adds (counts_reading fun data hdata => ?_)
    obtain ⟨named, k, hnamed, hk⟩ := key_of_joinedRoom hx hshaped hdata
    exact ⟨named, hnamed, counts_recordJoin i hk⟩
  | helped _ _ _ hop' _ hx h =>
    obtain ⟨r, he⟩ := hx.endpoint
    have hhelps : Moment.helps (.asked i op x) = true := by
      rw [Moment.helps, hop', he]
      rfl
    rw [Moment.counter?, if_pos hhelps, h.tally]
    exact Tally.adds_add _ _
  | messageSent _ _ _ _ _ hx h =>
    have hmap := Exchange.isMap_of_isShaped hshaped (.inl hx.endpoint)
    obtain ⟨r, t, n, he⟩ := hx.endpoint
    rw [Moment.counter?_asked (Moment.helps_of_endpoint he rfl) he nofun]
    exact h.adds (counts_eventId hmap fun _ => counts_count .eventsSent)
  | stateWritten _ _ _ _ _ _ hx h =>
    have hmap := Exchange.isMap_of_isShaped hshaped (.inr hx.endpoint)
    obtain ⟨r, t, k, he⟩ := hx.endpoint
    rw [Moment.counter?_asked (Moment.helps_of_endpoint he rfl) he nofun]
    exact h.adds (counts_eventId hmap fun _ => counts_recordState _ _ _ _ _ _)
  | levelsWritten _ _ _ hx h =>
    have hmap := Exchange.isMap_of_isShaped hshaped (.inr hx.endpoint)
    obtain ⟨r, t, k, he⟩ := hx.endpoint
    rw [Moment.counter?_asked (Moment.helps_of_endpoint he rfl) he nofun]
    exact h.adds (counts_eventId hmap fun _ =>
      Counts.bind (counts_recordState _ _ _ _ _ _) fun _ => (fixes_onStore _).counts)
  | membershipChanged action room user reason hop' hx h =>
    subst hop'
    obtain ⟨u, hu⟩ := ofValue?_of_isText (huser action room user rfl)
    obtain ⟨r, hroom, hx⟩ := hx
    obtain ⟨k, hk⟩ := toKey_of_segment hroom
    rw [Moment.counter?_asked (Moment.helps_of_entry rfl) hx.endpoint_eq nofun,
      Endpoint.counter?_membership]
    exact h.adds (counts_reading fun data _ => ⟨(), rfl, counts_recordChange action hk hu⟩)
  | invited room user hop' hx h =>
    subst hop'
    obtain ⟨u, hu⟩ := ofValue?_of_isText (huser .invite room user rfl)
    obtain ⟨r, hroom, hx⟩ := hx
    obtain ⟨k, hk⟩ := toKey_of_segment hroom
    rw [Moment.counter?_asked (Moment.helps_of_entry rfl) hx.endpoint_eq nofun]
    refine h.adds (Counts.bind (Counts.result ?_) (counts_acceptMember room user))
    exact counts_reading fun data _ => ⟨(), rfl, counts_recordChange .invite hk hu⟩
  | typingSent _ _ _ _ hx h =>
    obtain ⟨r, u, he⟩ := hx.endpoint
    rw [Moment.counter?_asked (Moment.helps_of_endpoint he rfl) he nofun]
    exact h.adds (counts_reading fun data _ => ⟨(), rfl, counts_recordTyping _ _ _ _ _⟩)
  | redacted _ _ _ _ hx h =>
    obtain ⟨r, e, n, he⟩ := hx.endpoint
    rw [Moment.counter?_uncounted he rfl]
    exact h.adds
  | displayNameSet _ _ _ hx h | avatarUrlSet _ _ _ hx h =>
    obtain ⟨u, he⟩ := hx.endpoint
    rw [Moment.counter?_uncounted he rfl]
    exact h.adds
  | whoamiAsked _ _ hx h =>
    rw [Moment.counter?_uncounted hx.endpoint rfl]
    exact h.adds
  | stateRead _ _ _ _ hx h =>
    obtain ⟨r, t, k, he⟩ := hx.endpoint
    rw [Moment.counter?_uncounted he rfl]
    exact h.adds (counts_passed (fun _ => (fixes_absorbEvents _).counts) _)
  | memberRead room user _ _ hx h =>
    obtain ⟨r, t, k, he⟩ := hx.endpoint
    rw [Moment.counter?_uncounted he rfl]
    exact h.adds (fixes_recordMember (fun _ => fixes_onStore _) _).counts
  | levelsRead room _ hx h =>
    obtain ⟨r, t, k, he⟩ := hx.endpoint
    rw [Moment.counter?_uncounted he rfl]
    exact h.adds (counts_passed (fun _ => (fixes_recordLevels room _).counts) _)
  | roomStateRead _ _ hx h =>
    obtain ⟨r, he⟩ := hx.endpoint
    rw [Moment.counter?_uncounted he rfl]
    exact h.adds (counts_passed (fun _ => counts_absorbed (fixes_absorbEvents _)) _)
  | joinedMembersRead room _ hx h =>
    obtain ⟨r, he⟩ := hx.endpoint
    rw [Moment.counter?_uncounted he rfl]
    exact h.adds (counts_passed (fun _ => counts_absorbed (fixes_absorbJoined room _)) _)
  | membersRead _ _ _ _ hx h =>
    obtain ⟨r, he⟩ := hx.endpoint
    rw [Moment.counter?_uncounted he rfl]
    exact h.adds (counts_passed (fun _ => counts_absorbed (fixes_absorbEvents _)) _)

end Turns

end Bridge

end VirtualUsers
