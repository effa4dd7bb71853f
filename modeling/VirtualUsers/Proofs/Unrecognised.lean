import VirtualUsers.Proofs.Memberships
import VirtualUsers.Proofs.Reordering
/-!
# Unrecognised memberships

Content that gives no recognised membership is no reason to touch the records of members. Wherever
events are taken in, those with such content can as well be left out: the store is what it is
without them. The one operation that reads the content of a single member for a record of its own,
and not as an event, keeps an empty record of it.
-/

namespace VirtualUsers

namespace Event

def isUnrecognised (e : Event) : Bool :=
  e.isMember && e.content.membership?.isNone

theorem isUnrecognised_iff {e : Event} :
    e.isUnrecognised = true ↔ e.isMember = true ∧ e.content.membership? = none := by
  rw [isUnrecognised, Bool.and_eq_true, Option.isNone_iff_eq_none]

end Event

/-- What is sent of the content gives no recognised membership, if a payload can hold it at all. -/
def Value.SentUnrecognised (content : Value) : Prop :=
  ∀ body, Content.sent content = .ok body → body.membership? = none

namespace Store

/-- Such an event leaves the store alone, and if its content is a map it does not even fail. -/
theorem observe_unrecognised {e : Event} (h : e.isUnrecognised) (s : Store) :
    ∃ r, (observe e).outcome s = (r, s) ∧ (e.content.isMap → ∃ m, r = .ok m) := by
  obtain ⟨hmember, hnone⟩ := Event.isUnrecognised_iff.mp h
  rw [observe, if_pos ((isMember_iff e).mp hmember), observeMember]
  split
  · exact ⟨_, rfl, fun _ => ⟨none, rfl⟩⟩
  · rw [Attempt.outcome_bind, Attempt.outcome_ofResult]
    cases hfield : e.content.field "membership" with
    | error f =>
      refine ⟨_, rfl, fun hcontent => ?_⟩
      cases hmap : e.content with
      | map entries => rw [hmap, Value.field_map] at hfield; cases hfield
      | _ => rw [hmap] at hcontent; cases hcontent
    | ok v =>
      rcases Member.recognised_cases hfield with ⟨m, -, -, hgiven⟩ | ⟨hv, -⟩
      · rw [hgiven] at hnone
        cases hnone
      · rw [Attempt.follow_ok, hv]
        exact ⟨_, rfl, fun _ => ⟨some v, rfl⟩⟩

/-- Of events those without a recognised membership can be left out. -/
theorem absorbed_recognised {events : List Event} (h : ∀ e ∈ events, e.content.isMap) (s : Store) :
    s.absorbed events = s.absorbed (events.filter fun e => !e.isUnrecognised) := by
  induction events generalizing s with
  | nil => rfl
  | cons e events ih =>
    have hrest (s : Store) := ih (fun e' he' => h e' (List.mem_cons_of_mem e he')) s
    by_cases he : e.isUnrecognised
    · obtain ⟨r, hout, hok⟩ := observe_unrecognised he s
      obtain ⟨m, rfl⟩ := hok (h e List.mem_cons_self)
      rw [List.filter_cons_of_neg (by simpa using he), absorbed, hout]
      exact hrest s
    · rw [List.filter_cons_of_pos (by simpa using he), absorbed, absorbed]
      rcases (observe e).outcome s with ⟨f | m, s'⟩
      · rfl
      · exact hrest s'

/-- The record of a user is not touched when another one's is set. -/
theorem cell?_setMember {given : Value} {user : String} (h : given ≠ .text user) (room : Key)
    (room' : Value) (record : Member) (s : Store) :
    cell? room (.text user) ((setMember room' given record).outcome s).2.members =
      cell? room (.text user) s.members := by
  apply state_atCell
    (P := fun s' => cell? room (.text user) s'.members = cell? room (.text user) s.members)
  case keyless => exact fun _ => rfl
  case userless => exact fun r _ => cell?_putNew room (.text user) r s.members
  case placed =>
    intro r u _ hkey
    have hne : ¬ (room = r ∧ Key.text user = u) := by
      rintro ⟨-, rfl⟩
      exact h (Key.eq_text_of_ofValue? hkey)
    exact (cell?_enter room (.text user) r u record s.members).trans (if_neg hne)

theorem cell?_observeMember {e : Event} {user : String} (h : e.stateKey ≠ .text user) (room : Key)
    (s : Store) : cell? room (.text user) ((observeMember e).outcome s).2.members =
      cell? room (.text user) s.members := by
  let Same (s' : Store) : Prop :=
    cell? room (.text user) s'.members = cell? room (.text user) s.members
  rw [observeMember]
  refine Attempt.state_check (P := Same) rfl fun membership _ => ?_
  split
  · refine Attempt.state_check (P := Same) rfl fun record _ => ?_
    rw [Attempt.state_return]
    exact cell?_setMember h room e.room record s
  · rfl

/-- An event that gives a user no recognised membership leaves the record of the user alone. -/
theorem cell?_observe {e : Event} {user : String}
    (h : e.isMember → e.stateKey = .text user → e.isUnrecognised) (room : Key) (s : Store) :
    cell? room (.text user) ((observe e).outcome s).2.members =
      cell? room (.text user) s.members := by
  by_cases hunrecognised : e.isUnrecognised
  · obtain ⟨r, hout, -⟩ := observe_unrecognised hunrecognised s
    rw [hout]
  · rw [observe]
    split
    · rfl
    · split
      · next hmember =>
        exact cell?_observeMember
          (fun hkey => hunrecognised (h ((isMember_iff e).mpr hmember) hkey)) room s
      · split
        · obtain ⟨l, hl⟩ := observeLevels_powerLevels e s
          rw [Attempt.state_return, hl]
        · rfl

theorem cell?_absorbed {events : List Event} {user : String}
    (h : ∀ e ∈ events, e.isMember → e.stateKey = .text user → e.isUnrecognised) (room : Key)
    (s : Store) :
    cell? room (.text user) (s.absorbed events).members = cell? room (.text user) s.members := by
  induction events generalizing s with
  | nil => rfl
  | cons e events ih =>
    have he := cell?_observe (h e List.mem_cons_self) room s
    rw [absorbed]
    rcases hout : (observe e).outcome s with ⟨f | m, s'⟩ <;> rw [hout] at he
    · exact he
    · exact (ih (fun e' he' => h e' (List.mem_cons_of_mem e he')) s').trans he

end Store

namespace Bridge

open Attempt (ofResult)

variable {i : Intent} {b b' g : Bridge} {e : Event} {events : List Event}

/-! ## Taking events in -/

theorem fixes_observe_unrecognised (h : e.isUnrecognised) : Fixes Bridge.store (observe e) := by
  intro b
  obtain ⟨r, hstore, -⟩ := Store.observe_unrecognised h b.store
  obtain ⟨c, hout, hc⟩ := outcome_observe hstore
  rw [hout]
  exact hc

theorem fixes_observeSent_unrecognised {content : Value} (h : content.SentUnrecognised)
    (room key sender id : Value) :
    Fixes Bridge.store (observeSent room (.text EventType.member) key content sender id) := by
  intro b
  unfold observeSent
  cases hclone : Content.clone content with
  | error e =>
    dsimp only
    split <;> rfl
  | ok copy =>
    dsimp only
    rw [Attempt.outcome_bind, Attempt.outcome_get, Attempt.follow_ok]
    cases (sentEvent b.now room (.text EventType.member) key sender copy id).validate with
    | error e => rfl
    | ok _ =>
      obtain ⟨body, hsent, hsame⟩ := Content.sent_of_clone hclone
      have hevent : (sentEvent b.now room (.text EventType.member) key sender copy
          id).isUnrecognised :=
        Event.isUnrecognised_iff.mpr ⟨rfl, hsame.symm.trans (h body hsent)⟩
      exact fixes_observe_unrecognised hevent b

/-- To send a state without a recognised membership leaves the store alone. -/
theorem fixes_sendState_unrecognised {content : Value} (h : content.SentUnrecognised)
    (room key timestamp : Value) :
    Fixes Bridge.store (writeState i.client room (.text EventType.member) key content timestamp
      >>= fun id => recordState i room (.text EventType.member) key content id
        >>= fun _ => pure id) := by
  refine Fixes.bind (fun b => ?_) fun id => Fixes.bind (Fixes.bind (fun _ => rfl) fun _ => ?_)
    fun _ => fixes_pure id
  · rcases asks_writeState b i.client room (.text EventType.member) key content timestamp with
      ⟨e, c, hout, -, hc⟩ | ⟨x, c, hout, -, hc⟩
    · rw [hout]
      exact hc.store
    · rw [hout]
      exact hc.store
  · exact fixes_observeSent_unrecognised h room key (.text i.userId) id

/-! ## Reading what the homeserver gives -/

def afterEntry (i : Intent) (room : Value) (b : Bridge) : Bridge :=
  ((ensureJoined i room false none).outcome b).2

/-- A state that is read has no recognised membership. -/
theorem store_readMember_unrecognised (room key : Value)
    (h : ∀ data, g.upcoming = some data → data.membership? = none) :
    ((readState i.client room (.text EventType.member) key >>= fun content =>
      absorbEvents [.seen room (.text EventType.member) key content] >>= fun _ =>
        pure content).outcome g).2.store = g.store := by
  rcases asks_readState g i.client room (.text EventType.member) key with
    ⟨e, c, hout, -, hc⟩ | ⟨x, c, hout, -, hc⟩
  · rw [Attempt.outcome_bind, hout]
    exact hc.store
  · rw [Attempt.outcome_bind, hout]
    cases hcontent : x.content with
    | error e => exact hc.store
    | ok data =>
      have hunrecognised : (Event.seen room (.text EventType.member) key data).isUnrecognised :=
        Event.isUnrecognised_iff.mpr ⟨rfl, h data (hc.content_iff.mp hcontent)⟩
      change ((absorbEvents [.seen room (.text EventType.member) key data] >>= fun _ =>
        pure data).outcome c).2.store = _
      rw [Attempt.state_return, store_absorbEvents, ← hc.store, Store.absorbed]
      obtain ⟨r, hr, -⟩ := Store.observe_unrecognised hunrecognised c.store
      rw [hr]
      cases r <;> rfl

theorem isMap_of_readEvents {room : Value} {raws : List Value}
    (h : readEvents room raws = .ok events) : ∀ e ∈ events, e.content.isMap := by
  intro e he
  obtain ⟨raw, -, hread⟩ := mem_readEvents h he
  obtain ⟨-, -, -, entries, hcontent⟩ := Event.of_validate (Event.of_read hread).1
  rw [hcontent]
  rfl

theorem isMap_of_stateOf {room data : Value} {state : RoomState}
    (h : stateOf room data = .ok state) : ∀ e ∈ state.events, e.content.isMap := by
  obtain ⟨events, hread, rfl⟩ := map_eq_ok h
  intro e he
  rcases mem_fileEvents he with he | he
  · exact isMap_of_readEvents hread e he
  · cases he

theorem isMap_of_membersOf {room data : Value} (h : membersOf room data = .ok events) :
    ∀ e ∈ events, e.content.isMap := by
  obtain ⟨chunk, -, h⟩ := bind_eq_ok h
  obtain ⟨items, -, hread⟩ := bind_eq_ok h
  exact isMap_of_readEvents hread

/-- The store after a list was taken in is the one without the unrecognised memberships of the list,
and users for whom there are no others have the records that they had. -/
structure TakenIn (events : List Event) (s s' : Store) : Prop where
  store : s' = s.absorbed (events.filter fun e => !e.isUnrecognised)
  records : ∀ room user, (∀ e ∈ events, e.isMember → e.stateKey = .text user → e.isUnrecognised) →
    Store.cell? room (.text user) s'.members = Store.cell? room (.text user) s.members

theorem takenIn_absorbed (h : ∀ e ∈ events, e.content.isMap) (s : Store) :
    TakenIn events s (s.absorbed events) :=
  ⟨Store.absorbed_recognised h s, fun room _ hrecords => Store.cell?_absorbed hrecords room s⟩

theorem store_memberEvents {room : String} {membership notMembership data : Value}
    (hdata : b.upcoming = some data) (hevents : membersOf (.text room) data = .ok events) :
    ((memberEvents i (.text room) membership notMembership).outcome b).2.store =
      b.store.absorbed events := by
  have hmakes : Makes b (membersOf (.text room))
      (readMembers i.client (.text room) membership notMembership) :=
    .check (segment_text room) ((makes_send b i.client _ _ _ _).reading (membersOf (.text room)))
  obtain ⟨c, hout, hc⟩ := hmakes.reads hdata hevents
  obtain ⟨d, hcounted, hd⟩ := outcome_countAbsorbed (absorbEvents events) events c
  rw [memberEvents, Attempt.outcome_bind, hout, Attempt.follow_ok, hcounted, hd,
    store_absorbEvents, hc]

/-- The record that is made of the content of a single member is kept whatever it says. -/
theorem store_member {room user : String} {content : Value} {record : Member}
    (hnew : b.store.member? (.text room) (.text user) = .ok none)
    (hdata : b.upcoming = some content) (hrecord : Member.ofContent content = .ok record) :
    ((member i (.text room) (.text user)).outcome b).2.store =
      { b.store with
        members := Store.enter (.text room) (.text user) record b.store.members } := by
  have hmakes : Makes b .ok (readState i.client (.text room) (.text EventType.member)
      (.text user)) :=
    .check (segment_text room) (.check (segment_text _) (.check (segment_text user)
      (makes_send b i.client _ _ _ _)))
  obtain ⟨c, hout, hc⟩ := hmakes.reads hdata rfl
  have hset := Store.setMember_ok room (Key.ofValue?_text user) record c.store
  rw [member, Attempt.outcome_bind, outcome_ask, hnew, Attempt.follow_ok]
  dsimp only
  rw [Attempt.outcome_bind, Attempt.outcome_result, hout, Attempt.follow_ok, recordMember,
    hrecord, Attempt.outcome_bind, Attempt.outcome_ofResult, Attempt.follow_ok,
    Attempt.outcome_bind, outcome_onStore, hset, hc]
  rfl

/-! ## What is left of unrecognised memberships -/

/-- What content without a recognised membership leaves in the store, by the ways on which it comes
there. What is sent, and a state that is read by its key, leave nothing but the entry to the room;
in lists such content can be left out; and the content of a single member is kept as an empty
record. -/
structure LeavesNoTrace (i : Intent) (b : Bridge) : Prop where
  observed (e : Event) (h : e.isUnrecognised) : ((observe e).outcome b).2.store = b.store
  sent (op : Operation) (room key content : Value)
    (hop : op.writes? = some (room, .text EventType.member, key, content))
    (h : content.SentUnrecognised) :
    ((perform i op).outcome b).2.store = (afterEntry i room b).store
  stateRead (room key : Value)
    (h : ∀ content, (afterEntry i room b).upcoming = some content → content.membership? = none) :
    ((perform i (.stateEvent room (.text EventType.member) key)).outcome b).2.store =
      (afterEntry i room b).store
  roomStateRead (room : String) (g : Bridge) (data : Value) (state : RoomState)
    (hgate : (ensureJoined i (.text room) false none).outcome b = (.ok (), g))
    (hdata : g.upcoming = some data) (hstate : stateOf (.text room) data = .ok state) :
    TakenIn state.events g.store ((perform i (.state (.text room))).outcome b).2.store
  membersRead (room : String) (membership notMembership data : Value) (events : List Event)
    (hdata : b.upcoming = some data) (hevents : membersOf (.text room) data = .ok events) :
    TakenIn events b.store
      ((perform i (.members (.text room) membership notMembership)).outcome b).2.store
  memberRead (room user : String) (entries : List (Value × Value))
    (hnew : b.store.member? (.text room) (.text user) = .ok none)
    (hdata : b.upcoming = some (.map entries)) (h : (Value.map entries).membership? = none) :
    ∃ record, record.membership = .text Membership.none ∧
      ((perform i (.member (.text room) (.text user))).outcome b).2.store =
        { b.store with
          members := Store.enter (.text room) (.text user) record b.store.members }

theorem writes?_cases {op : Operation} {room type key content : Value}
    (h : op.writes? = some (room, type, key, content)) :
    ∃ timestamp, perform i op = sent <$> sendStateEvent i room type key content timestamp := by
  cases op <;> cases h <;> exact ⟨_, rfl⟩

theorem unrecognised_leaves_no_trace (i : Intent) (b : Bridge) : LeavesNoTrace i b where
  observed e h := fixes_observe_unrecognised h b
  sent op room key content hop h := by
    obtain ⟨timestamp, hperform⟩ := writes?_cases hop
    rw [hperform, Attempt.outcome_map]
    exact Fixes.after (fun _ => fixes_sendState_unrecognised h room key timestamp) _ b
  stateRead room key h := by
    change ((stateEvent i room (.text EventType.member) key).outcome b).2.store = _
    rw [stateEvent_eq, Attempt.outcome_bind]
    rw [afterEntry] at h ⊢
    rcases hentry : (ensureJoined i room false none).outcome b with ⟨e | _, g⟩ <;>
      rw [hentry] at h
    · rfl
    · exact store_readMember_unrecognised room key h
  roomStateRead room g data state hgate hdata hstate := by
    obtain ⟨_, c, hout, hc⟩ := outcome_roomState hgate hdata hstate
    change TakenIn _ _ ((RoomState.toValue <$> roomState i (.text room)).outcome b).2.store
    rw [Attempt.outcome_map, hout, hc]
    exact takenIn_absorbed (isMap_of_stateOf hstate) g.store
  membersRead room membership notMembership data events hdata hevents := by
    change TakenIn _ _ ((memberEvents i (.text room) membership notMembership >>= fun events =>
      pure (Value.list (events.map Event.toValue))).outcome b).2.store
    rw [Attempt.state_return, store_memberEvents hdata hevents]
    exact takenIn_absorbed (isMap_of_membersOf hevents) b.store
  memberRead room user entries hnew hdata h := by
    have hrecord : ∃ record, Member.ofContent (.map entries) = .ok record := ⟨_, rfl⟩
    obtain ⟨record, hrecord⟩ := hrecord
    have hmembership := Member.membership_ofContent hrecord
    rw [h] at hmembership
    refine ⟨record, hmembership, ?_⟩
    change ((_ <$> member i (.text room) (.text user)).outcome b).2.store = _
    rw [Attempt.outcome_map, store_member hnew hdata hrecord]

/-- A user knocks and is listed as a member. That makes no record of the user. -/
theorem unrecognised_leaves_no_trace_listed :
    let knocks := Example.raw EventType.member "@bob:hs" [("membership", .text "knock")]
    let b : Bridge := { answers := [.reply 200 (some (.record [("chunk", .list [knocks])]))] }
    let listed := (perform Example.alice (.members (.text "!r:hs") .null .null)).outcome b
    Store.cell? (.text "!r:hs") (.text "@bob:hs") listed.2.store.members = none := by
  intro knocks b listed
  have hread : membersOf (.text "!r:hs") (.record [("chunk", .list [knocks])]) =
      .ok [Example.readAs EventType.member "@bob:hs" [("membership", .text "knock")]] := rfl
  have htaken := (unrecognised_leaves_no_trace Example.alice b).membersRead "!r:hs" .null .null _ _
    rfl hread
  refine (htaken.records (.text "!r:hs") "@bob:hs" fun e he _ _ => ?_).trans rfl
  rw [List.mem_singleton.mp he]
  decide +kernel

/-- A user knocks, which is no membership that is kept, and has a record as soon as it is asked
for. -/
theorem knocking_member_kept :
    let content := Value.record [("membership", .text "knock")]
    let b : Bridge := { answers := [.reply 200 (some content)] }
    let asked := ((perform Example.alice (.member (.text "!r:hs") (.text "@bob:hs"))).outcome b).2
    content.membership? = none ∧ b.store.member? (.text "!r:hs") (.text "@bob:hs") = .ok none ∧
      ∃ record, asked.store.member? (.text "!r:hs") (.text "@bob:hs") = .ok (some record) := by
  intro content b asked
  have hkept : (asked.store.member? (.text "!r:hs") (.text "@bob:hs")).toOption.join.isSome := by
    decide +kernel
  refine ⟨by decide +kernel, rfl, ?_⟩
  cases hrecord : asked.store.member? (.text "!r:hs") (.text "@bob:hs") with
  | error e =>
    rw [hrecord] at hkept
    cases hkept
  | ok record =>
    rw [hrecord] at hkept
    cases record with
    | none => cases hkept
    | some m => exact ⟨m, rfl⟩

end Bridge

end VirtualUsers
