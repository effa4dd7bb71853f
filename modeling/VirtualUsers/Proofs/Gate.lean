import VirtualUsers.Proofs.Carriage
import VirtualUsers.Proofs.Refusals
/-!
# The gate of a room

An operation that needs its user in a room sends requests for entry, unless the store has the user
there, and then the request that it is for. By that time the store has the user in the room, or else
in another one that the answer to the last join named.
-/

namespace VirtualUsers

def Endpoint.room? : Endpoint → Option Segment
  | join room | membership _ room | sendMessage room .. | writeState room .. | readState room ..
  | roomState room | joinedMembers room | members room | redact room .. | typing room _ => some room
  | register | displayName _ | avatarUrl _ | whoami => none

namespace Operation

/-- The room whose gate an operation passes before it sends the request that it is for. -/
def guarded? : Operation → Option Value
  | ensureJoined .. => none
  | op => op.entry?.map (·.1)

def owns : Operation → Endpoint → Bool
  | stateEvent .., .readState .. => true
  | _, .sendMessage .. | _, .redact .. | _, .writeState .. | _, .roomState _ => true
  | _, _ => false

end Operation

namespace Exchange

def IsFor (room : Value) (x : Exchange) : Prop :=
  ∃ r, room.segment = .ok r ∧ x.request.endpoint.room? = some r

def IsJoinOf (room : Value) (x : Exchange) : Prop :=
  ∃ r, room.segment = .ok r ∧ x.request.endpoint = .join r

variable {c : Client} {x : Exchange} {room type key event content timestamp reason : Value}

theorem Joins.isJoinOf (h : x.Joins c room) : x.IsJoinOf room := by
  obtain ⟨r, hr, h⟩ := h
  exact ⟨r, hr, h.endpoint_eq⟩

theorem IsJoinOf.isEntry (h : x.IsJoinOf room) : x.IsEntry := by
  obtain ⟨r, -, h⟩ := h
  rw [IsEntry, h]
  trivial

theorem SendsMessage.isFor (h : x.SendsMessage c room type content timestamp) : x.IsFor room := by
  obtain ⟨_, r, t, n, _, -, hr, -, -, h⟩ := h
  exact ⟨r, hr, h.endpoint_eq ▸ rfl⟩

theorem WritesState.isFor (h : x.WritesState c room type key content timestamp) :
    x.IsFor room := by
  obtain ⟨_, r, t, k, _, -, hr, -, -, -, h⟩ := h
  exact ⟨r, hr, h.endpoint_eq ▸ rfl⟩

theorem ReadsState.isFor (h : x.ReadsState c room type key) : x.IsFor room := by
  obtain ⟨r, t, k, hr, -, -, h⟩ := h
  exact ⟨r, hr, h.endpoint_eq ▸ rfl⟩

theorem ReadsRoomState.isFor (h : x.ReadsRoomState c room) : x.IsFor room := by
  obtain ⟨r, hr, h⟩ := h
  exact ⟨r, hr, h.endpoint_eq ▸ rfl⟩

theorem Redacts.isFor (h : x.Redacts c room event reason) : x.IsFor room := by
  obtain ⟨r, e, n, hr, -, h⟩ := h
  exact ⟨r, hr, h.endpoint_eq ▸ rfl⟩

theorem isEntry_iff : x.IsEntry ↔ x.request.endpoint.IsEntry := by
  unfold Exchange.IsEntry Endpoint.IsEntry
  cases x.request.endpoint with
  | membership action r => cases action <;> rfl
  | _ => rfl

end Exchange

namespace Bridge

open Attempt (ofResult)

variable {i : Intent} {op : Operation} {room : Value} {b b₁ b' : Bridge} {x : Exchange}

def KnownIn (i : Intent) (room : Value) (s : Store) : Prop :=
  s.isJoined room (.text i.userId) = .ok true

theorem knownIn_congr {s s' : Store} (h : s'.members = s.members) :
    KnownIn i room s' ↔ KnownIn i room s := by
  rw [KnownIn, KnownIn, Store.isJoined, Store.isJoined, Store.hasMembership, Store.hasMembership,
    Store.membership, Store.membership, Store.member, Store.member, Store.member?, Store.member?, h]

theorem knownIn_of_joined {s : Store} {m : Member}
    (h : s.member? room (.text i.userId) = .ok (some m))
    (hm : m.membership = .text Membership.join) : KnownIn i room s := by
  simp [KnownIn, Store.isJoined, Store.hasMembership, Store.membership, Store.member, h, hm,
    Except.map, Value.same, Value.sameScalar]

/-- The store has the user in the room, or in one that the answer to the previous request, a join of
the room, named. -/
def Admitted (i : Intent) (room : Value) (previous : Option Exchange) (s : Store) : Prop :=
  KnownIn i room s ∨ ∃ y named, previous = some y ∧ y.IsJoinOf room ∧
    y.content >>= joinedRoom room = .ok named ∧ KnownIn i named s

theorem Admitted.after {xs : List Exchange} {s : Store} (h : Admitted i room xs.getLast? s)
    (early : List Exchange) : Admitted i room (early ++ xs).getLast? s := by
  rcases h with h | ⟨y, named, hy, h⟩
  · exact .inl h
  · refine .inr ⟨y, named, ?_, h⟩
    rw [List.getLast?_append, hy]
    rfl

/-! ## Requests for entry -/

/-- Only requests for entry were made, and all the while no record of a member was touched. -/
structure Knocks (b b' : Bridge) : Prop where
  members : b'.store.members = b.store.members
  made : ∃ xs, b'.traffic = b.traffic ++ xs ∧
    ∀ x ∈ xs, x.IsEntry ∧ x.store.members = b.store.members

theorem Knocks.still (hmembers : b'.store.members = b.store.members)
    (htraffic : b'.traffic = b.traffic) : Knocks b b' :=
  ⟨hmembers, [], by rw [htraffic, List.append_nil], List.forall_mem_nil _⟩

theorem Knocks.heard (h : Heard b x b') (hx : x.IsEntry) : Knocks b b' := by
  refine ⟨congrArg Store.members h.store, [x], h.traffic, fun y hy => ?_⟩
  cases List.mem_singleton.mp hy
  exact ⟨hx, congrArg Store.members h.storeThen⟩

theorem welcomes_knocks : Welcomes Knocks where
  refl _ := .still rfl rfl
  trans h h' := by
    obtain ⟨hmembers, xs, htraffic, hxs⟩ := h
    obtain ⟨hmembers', ys, htraffic', hys⟩ := h'
    refine ⟨hmembers'.trans hmembers, xs ++ ys, ?_, fun x hx => ?_⟩
    · rw [htraffic', htraffic, List.append_assoc]
    · rcases List.mem_append.mp hx with hx | hx
      · exact hxs x hx
      · exact ⟨(hys x hx).1, (hys x hx).2.trans hmembers⟩
  note _ _ _ _ := .still rfl rfl
  tally _ _ := .still rfl rfl
  powerLevels _ _ := .still rfl rfl
  typing _ _ := .still rfl rfl
  files _ _ := .still rfl rfl
  users _ _ := .still rfl rfl
  entry d endpoint body params asUser hentry b := by
    obtain ⟨x, b', hout, hx, hheard⟩ := outcome_send d endpoint body params asUser b
    rw [hout]
    exact .heard hheard (Exchange.isEntry_iff.mpr (hx.endpoint_eq ▸ hentry))

/-- A join that succeeds was accepted, and its answer names the room. -/
theorem sendJoin_ok {c : ClientId} {named : Value}
    (h : (sendJoin c room).outcome b = (.ok named, b')) :
    ∃ y, Heard b y b' ∧ y.IsJoinOf room ∧ y.content >>= joinedRoom room = .ok named := by
  cases hroom : room.segment with
  | error e =>
    rw [sendJoin, hroom] at h
    cases h
  | ok r =>
    obtain ⟨y, c', hout, hy, hheard⟩ := outcome_sendJoin b c hroom
    rw [hout] at h
    obtain ⟨hnamed, rfl⟩ := Prod.mk.inj h
    exact ⟨y, hheard, hy.isJoinOf, hnamed⟩

/-- What succeeds in a stage succeeds. -/
theorem inStage_ok {stage : String} {isCause : Failure → Bool} {x : Act α} {a : α}
    (h : (inStage stage isCause x).outcome b = (.ok a, b')) : x.outcome b = (.ok a, b') := by
  rw [outcome_inStage] at h
  rcases hout : x.outcome b with ⟨e | a', c⟩
  · rw [hout] at h
    cases h
  · rw [hout] at h
    cases h
    rfl

/-- The last request of a join that succeeds, with or without help, is a join that was accepted. -/
theorem joinRoom_ok {inviter : Option ClientId} {named : Value}
    (h : (joinRoom i room inviter).outcome b = (.ok named, b')) :
    ∃ mid y, Knocks b mid ∧ Heard mid y b' ∧ y.IsJoinOf room ∧
      y.content >>= joinedRoom room = .ok named := by
  have hW := welcomes_knocks
  rw [joinRoom, Attempt.outcome_bind, Attempt.outcome_result, Attempt.follow_ok] at h
  have hfirst := keeps_sendJoin hW i.client room b
  rcases hout : (sendJoin i.client room).outcome b with ⟨r, c⟩
  rw [hout] at h hfirst
  rcases settleJoin_cases i room inviter r with hsettled | ⟨q, helper, -, -, -, hsettled⟩
  · rw [hsettled, Attempt.outcome_ofResult] at h
    cases r with
    | error e => cases h
    | ok joined =>
      cases h
      obtain ⟨y, hy⟩ := sendJoin_ok hout
      exact ⟨b, y, hW.refl b, hy⟩
  · rw [hsettled, joinAfterInvite, Attempt.outcome_bind] at h
    have hinvited := keeps_getInvited hW i room helper c
    rcases hout' : (getInvited i room helper).outcome c with ⟨e | _, d⟩
    · rw [hout'] at h
      cases h
    · rw [hout'] at h hinvited
      obtain ⟨y, hy⟩ := sendJoin_ok (inStage_ok h)
      exact ⟨d, y, hW.trans hfirst hinvited, hy⟩

/-- A join that is recorded makes the user known in the room that was joined. -/
theorem recordJoin_ok {named : Value} (h : (recordJoin i named).outcome b = (.ok (), b')) :
    KnownIn i named b'.store := by
  rw [recordJoin, Attempt.outcome_bind, outcome_onStore, Store.setMembership, Attempt.outcome_bind,
    Attempt.outcome_ofResult] at h
  cases hkey : named.toKey with
  | error e =>
    rw [hkey] at h
    cases h
  | ok r =>
    rw [hkey] at h
    have hstore : b'.store = { b.store with
        members := Store.enter r (.text i.userId)
          { (Store.cell? r (.text i.userId) b.store.members).getD {} with
            membership := .text Membership.join } b.store.members } := by
      cases h
      rfl
    have hmember : Store.member? named (.text i.userId) b'.store =
        .ok (some { (Store.cell? r (.text i.userId) b.store.members).getD {} with
          membership := .text Membership.join }) := by
      rw [hstore, Store.member?, hkey]
      exact congrArg Except.ok (Store.cell?_enter_self _ _ _ _)
    exact knownIn_of_joined hmember rfl

/-! ## Passing the gate -/

/-- What was sent by the time a gate opened or turned out to stay shut. -/
def Passes (i : Intent) (room : Value) (b : Bridge) (out : Except Failure Unit × Bridge) : Prop :=
  ∃ xs, out.2.traffic = b.traffic ++ xs ∧ (∀ x ∈ xs, x.IsEntry ∧ ¬ KnownIn i room x.store) ∧
    (out.1 = .ok () → Admitted i room xs.getLast? out.2.store)

theorem Knocks.outside (h : Knocks b b') (hnot : ¬ KnownIn i room b.store) :
    ∃ xs, b'.traffic = b.traffic ++ xs ∧ ∀ x ∈ xs, x.IsEntry ∧ ¬ KnownIn i room x.store := by
  obtain ⟨-, xs, htraffic, hmade⟩ := h
  exact ⟨xs, htraffic, fun x hx =>
    ⟨(hmade x hx).1, fun h => hnot ((knownIn_congr (hmade x hx).2).mp h)⟩⟩

theorem Knocks.shut {e : Failure} (h : Knocks b b') (hnot : ¬ KnownIn i room b.store) :
    Passes i room b (.error e, b') := by
  obtain ⟨xs, htraffic, hmade⟩ := h.outside hnot
  exact ⟨xs, htraffic, hmade, nofun⟩

/-- A user who is not known to be in a room knocks, and is let in with the last answer. -/
theorem enterRoom_passes (hnot : ¬ KnownIn i room b.store) :
    Passes i room b ((enterRoom i room none).outcome b) := by
  have hW := welcomes_knocks
  have hregister := Keeps.inStage hW.toFrame joiningStage isPrecondition
    (keeps_ensureRegistered hW i) b
  rw [enterRoom, Attempt.outcome_bind]
  rcases hreg : (inStage joiningStage isPrecondition (ensureRegistered i)).outcome b with ⟨e | _, c⟩
  · rw [hreg] at hregister
    exact hregister.shut hnot
  · rw [hreg] at hregister
    have hjoin := hW.trans hregister (keeps_joinRoom hW i room none c)
    rw [Attempt.follow_ok, Attempt.outcome_bind]
    rcases hout : (joinRoom i room none).outcome c with ⟨e | named, d⟩
    · rw [hout] at hjoin
      exact hjoin.shut hnot
    · obtain ⟨mid, y, hmid, hheard, hy, hnamed⟩ := joinRoom_ok hout
      have hknocks := hW.trans hregister hmid
      obtain ⟨xs, htraffic, hmade⟩ := hknocks.outside hnot
      have hquiet := keeps_recordJoin frame_silent i named d
      refine ⟨xs ++ [y], ?_, fun x hx => ?_, fun hok => ?_⟩
      · rw [Attempt.follow_ok, hquiet.traffic, hheard.traffic, htraffic, List.append_assoc]
      · rcases List.mem_append.mp hx with hx | hx
        · exact hmade x hx
        · cases List.mem_singleton.mp hx
          refine ⟨hy.isEntry, fun h => hnot ?_⟩
          rw [hheard.storeThen] at h
          exact (knownIn_congr hknocks.members).mp h
      · exact .inr ⟨y, named, List.getLast?_concat, hy, hnamed, recordJoin_ok (Prod.ext hok rfl)⟩

theorem ensureJoined_passes (i : Intent) (room : Value) (b : Bridge) :
    Passes i room b ((ensureJoined i room false none).outcome b) := by
  have hask : (ensureJoined i room false none).outcome b =
      (ask (Store.isJoined room (.text i.userId)) >>= fun known =>
        if known then count .joinCacheHits 1 else enterRoom i room none).outcome b := rfl
  rw [hask, Attempt.outcome_bind, outcome_ask]
  have hsame : b.traffic = b.traffic ++ [] := (List.append_nil _).symm
  cases hknown : b.store.isJoined room (.text i.userId) with
  | error e => exact ⟨[], hsame, List.forall_mem_nil _, nofun⟩
  | ok known =>
    cases known with
    | true => exact ⟨[], hsame, List.forall_mem_nil _, fun _ => .inl hknown⟩
    | false =>
      apply enterRoom_passes
      rw [KnownIn, hknown]
      nofun

/-! ## Behind the gate -/

theorem traffic_bind {x : Act α} {f : α → Act β} (hf : ∀ a, Quiet (f a)) (b : Bridge) :
    ((x >>= f).outcome b).2.traffic = (x.outcome b).2.traffic := by
  rw [Attempt.outcome_bind]
  rcases x.outcome b with ⟨e | a, c⟩
  · rfl
  · exact (hf a c).traffic

/-- At most one request was sent, for the room and not for entry to it. -/
def AsksOnce (room : Value) (b b' : Bridge) : Prop :=
  b'.traffic = b.traffic ∨
    ∃ x, b'.traffic = b.traffic ++ [x] ∧ x.IsFor room ∧ ¬ x.IsEntry ∧ x.store = b.store

theorem Asks.once {sends : Exchange → Prop} {read : Value → Except Failure α} {ask : Act α}
    (h : Asks b sends read ask) (hsends : ∀ x, sends x → x.IsFor room ∧ ¬ x.IsEntry) :
    AsksOnce room b (ask.outcome b).2 := by
  rcases h with ⟨e, b', hout, -, hb'⟩ | ⟨x, b', hout, hx, hheard⟩
  · rw [hout]
    exact .inl hb'.traffic
  · rw [hout]
    exact .inr ⟨x, hheard.traffic, (hsends x hx).1, (hsends x hx).2, hheard.storeThen⟩

theorem AsksOnce.before {x : Act α} {f : α → Act β} (h : AsksOnce room b (x.outcome b).2)
    (hf : ∀ a, Quiet (f a)) : AsksOnce room b ((x >>= f).outcome b).2 := by
  rw [AsksOnce, traffic_bind hf]
  exact h

/-- The gate was passed: no request came before it but those for entry and those that the operation
is not for, and at most one request came after it. -/
def Passage (i : Intent) (op : Operation) (room : Value) (b b' : Bridge) : Prop :=
  ∃ early own, b'.traffic = b.traffic ++ (early ++ own) ∧
    (∀ x ∈ early, op.owns x.request.endpoint = false ∧
      (x.IsEntry → ¬ KnownIn i room x.store)) ∧
    ∀ x ∈ own, own = [x] ∧ x.IsFor room ∧ ¬ x.IsEntry ∧ Admitted i room early.getLast? x.store

theorem owns_of_isEntry (op : Operation) (h : x.IsEntry) : op.owns x.request.endpoint = false := by
  rw [Exchange.isEntry_iff] at h
  cases hx : x.request.endpoint with
  | register | join | membership => cases op <;> rfl
  | _ =>
    rw [hx] at h
    cases h

theorem passage_gated {f : Unit → Act α} (hf : ∀ c, AsksOnce room c ((f ()).outcome c).2) :
    Passage i op room b ((ensureJoined i room false none >>= f).outcome b).2 := by
  obtain ⟨early, htraffic, hearly, hopens⟩ := ensureJoined_passes i room b
  have hnotOwn (x : Exchange) (hx : x ∈ early) := And.intro (owns_of_isEntry op (hearly x hx).1)
    fun _ : x.IsEntry => (hearly x hx).2
  rw [Attempt.outcome_bind]
  rcases hout : (ensureJoined i room false none).outcome b with ⟨e | _, c⟩
  · rw [hout] at htraffic
    exact ⟨early, [], by rw [List.append_nil]; exact htraffic, hnotOwn, List.forall_mem_nil _⟩
  · rw [hout] at htraffic hopens
    rcases hf c with hnone | ⟨x, hx, hfor, hentry, hstore⟩
    · exact ⟨early, [], by rw [List.append_nil]; exact hnone.trans htraffic, hnotOwn,
        List.forall_mem_nil _⟩
    · refine ⟨early, [x], ?_, hnotOwn, fun y hy => ?_⟩
      · rw [← List.append_assoc, ← htraffic]
        exact hx
      · cases List.mem_singleton.mp hy
        exact ⟨rfl, hfor, hentry, hstore ▸ hopens rfl⟩

theorem Passage.before {x : Act α} {f : α → Act β} (h : Passage i op room b (x.outcome b).2)
    (hf : ∀ a, Quiet (f a)) : Passage i op room b ((x >>= f).outcome b).2 := by
  rw [Passage, traffic_bind hf]
  exact h

theorem Passage.map {x : Act α} (g : α → β) (h : Passage i op room b (x.outcome b).2) :
    Passage i op room b ((g <$> x).outcome b).2 := by
  rw [Attempt.outcome_map]
  exact h

section Operations

variable {type key content timestamp event reason : Value}

theorem passage_sendMessageEvent :
    Passage i op room b ((sendMessageEvent i room type content timestamp).outcome b).2 := by
  refine passage_gated fun c => AsksOnce.before ((asks_sendMessage c i.client room type content
    timestamp).once fun x hx => ⟨hx.isFor, ?_⟩) fun _ => ?_
  · obtain ⟨r, t, n, hendpoint⟩ := hx.endpoint
    rw [Exchange.IsEntry, hendpoint]
    exact id
  · exact Keeps.bind frame_silent.toFrame (keeps_count frame_silent.toFrame _ _) fun _ =>
      keeps_pure frame_silent.toFrame _

theorem asksOnce_writeState :
    AsksOnce room b ((writeState i.client room type key content timestamp).outcome b).2 := by
  refine (asks_writeState b i.client room type key content timestamp).once fun x hx =>
    ⟨hx.isFor, ?_⟩
  obtain ⟨r, t, k, hendpoint⟩ := hx.endpoint
  rw [Exchange.IsEntry, hendpoint]
  exact id

theorem passage_sendStateEvent :
    Passage i op room b ((sendStateEvent i room type key content timestamp).outcome b).2 :=
  passage_gated fun _ => AsksOnce.before asksOnce_writeState fun id =>
    Keeps.bind frame_silent.toFrame (keeps_recordState frame_silent i room type key content id)
      fun _ => keeps_pure frame_silent.toFrame _

theorem passage_redactEvent :
    Passage i op room b ((redactEvent i room event reason).outcome b).2 := by
  refine passage_gated fun c => (asks_sendRedaction c i.client room event reason).once fun x hx =>
    ⟨hx.isFor, ?_⟩
  obtain ⟨r, e, n, hendpoint⟩ := hx.endpoint
  rw [Exchange.IsEntry, hendpoint]
  exact id

theorem passage_stateEvent : Passage i op room b ((stateEvent i room type key).outcome b).2 := by
  refine passage_gated fun c => AsksOnce.before ((asks_readState c i.client room type key).once
    fun x hx => ⟨hx.isFor, ?_⟩) fun content => ?_
  · obtain ⟨r, t, k, hendpoint⟩ := hx.endpoint
    rw [Exchange.IsEntry, hendpoint]
    exact id
  · exact Keeps.bind frame_silent.toFrame (keeps_absorbEvents frame_silent _) fun _ =>
      keeps_pure frame_silent.toFrame _

theorem passage_roomState : Passage i op room b ((roomState i room).outcome b).2 := by
  refine passage_gated fun c => AsksOnce.before ((asks_readRoomState c i.client room).once
    fun x hx => ⟨hx.isFor, ?_⟩) fun state => ?_
  · obtain ⟨r, hendpoint⟩ := hx.endpoint
    rw [Exchange.IsEntry, hendpoint]
    exact id
  · exact Keeps.bind frame_silent.toFrame (keeps_absorbEvents frame_silent _) fun _ =>
      Keeps.bind frame_silent.toFrame (keeps_count frame_silent.toFrame _ _) fun _ =>
      keeps_pure frame_silent.toFrame _

theorem passage_setPowerLevels {levels : Value} :
    Passage i op room b ((setPowerLevels i room levels).outcome b).2 :=
  passage_sendStateEvent.before fun _ =>
    Keeps.bind frame_silent.toFrame (keeps_setPowerLevels frame_silent.toFrame room levels)
      fun _ => keeps_pure frame_silent.toFrame _

/-- What was read before, for another purpose, is no matter of the gate. -/
theorem Passage.after {early : List Exchange} (h : Passage i op room b₁ b')
    (htraffic : b₁.traffic = b.traffic ++ early)
    (hearly : ∀ x ∈ early, op.owns x.request.endpoint = false ∧ ¬ x.IsEntry) :
    Passage i op room b b' := by
  obtain ⟨more, own, htraffic', hmore, hown⟩ := h
  refine ⟨early ++ more, own, ?_, fun x hx => ?_, fun x hx => ?_⟩
  · rw [htraffic', htraffic]
    simp only [List.append_assoc]
  · rcases List.mem_append.mp hx with hx | hx
    · exact ⟨(hearly x hx).1, fun hentry => absurd hentry (hearly x hx).2⟩
    · exact hmore x hx
  · obtain ⟨hsingle, hfor, hentry, hadmitted⟩ := hown x hx
    exact ⟨hsingle, hfor, hentry, hadmitted.after early⟩

theorem Passage.silent (h : Silent b b') : Passage i op room b b' :=
  ⟨[], [], by rw [h.traffic]; simp, List.forall_mem_nil _, List.forall_mem_nil _⟩

/-- The power levels are read at most once. -/
theorem powerLevels_traffic (i : Intent) (room : Value) (b : Bridge) :
    ∃ early, ((powerLevels i room).outcome b).2.traffic = b.traffic ++ early ∧
      ∀ x ∈ early, ∃ r t k, x.request.endpoint = .readState r t k := by
  have hsame : b.traffic = b.traffic ++ [] := (List.append_nil _).symm
  rw [powerLevels, Attempt.outcome_bind, outcome_ask]
  cases Store.powerRecord? room b.store with
  | error e => exact ⟨[], hsame, List.forall_mem_nil _⟩
  | ok known =>
    cases known with
    | some record => exact ⟨[], hsame, List.forall_mem_nil _⟩
    | none =>
      rw [Attempt.follow_ok]
      dsimp only
      rw [traffic_bind fun content => keeps_recordLevels frame_silent.toFrame room content]
      rcases asks_readState b i.client room (.text EventType.powerLevels) (.text "") with
        ⟨e, c, hout, -, hc⟩ | ⟨x, c, hout, hx, hheard⟩
      · rw [hout]
        exact ⟨[], hc.traffic.trans hsame, List.forall_mem_nil _⟩
      · rw [hout]
        refine ⟨[x], hheard.traffic, fun y hy => ?_⟩
        cases List.mem_singleton.mp hy
        exact hx.endpoint

/-- The power levels are read before the gate, if at all. -/
theorem passage_setPowerLevel {user level : Value} :
    Passage i (.setPowerLevel room user level) room b
      ((setPowerLevel i room user level).outcome b).2 := by
  obtain ⟨early, htraffic, hearly⟩ := powerLevels_traffic i room b
  have hread (x : Exchange) (hx : x ∈ early) :
      Operation.owns (.setPowerLevel room user level) x.request.endpoint = false ∧
        ¬ x.IsEntry := by
    obtain ⟨r, t, k, hendpoint⟩ := hearly x hx
    rw [Exchange.IsEntry, hendpoint]
    exact ⟨rfl, id⟩
  rw [setPowerLevel, Attempt.outcome_bind]
  rcases hout : (powerLevels i room).outcome b with ⟨e | record, c⟩
  · rw [hout] at htraffic
    exact Passage.after (.silent (frame_silent.refl c)) htraffic hread
  · rw [hout] at htraffic
    suffices hpassage : Passage i (.setPowerLevel room user level) room c _ from
      hpassage.after htraffic hread
    refine Attempt.state_check (.silent (frame_silent.refl c)) fun current _ =>
      Attempt.state_check (.silent (frame_silent.refl c)) fun own _ => ?_
    split
    · exact .silent (Keeps.bind frame_silent.toFrame (keeps_count frame_silent.toFrame _ _)
        (fun _ => keeps_pure frame_silent.toFrame _) c)
    · exact Attempt.state_check (.silent (frame_silent.refl c)) fun edited _ =>
        passage_setPowerLevels.map some

/-- Every operation with a gate passes it before it sends the request that it is for. -/
theorem perform_passage (h : op.guarded? = some room) :
    Passage i op room b ((perform i op).outcome b).2 := by
  cases op with
  | sendMessageEvent | sendMassagedMessageEvent | sendText | sendNotice | sendImage | sendVideo =>
    cases h
    exact passage_sendMessageEvent.map sent
  | redactEvent =>
    cases h
    exact passage_redactEvent.map sent
  | sendStateEvent | sendMassagedStateEvent | setRoomName | setRoomTopic | setRoomAvatar =>
    cases h
    exact passage_sendStateEvent.map sent
  | stateEvent =>
    cases h
    exact passage_stateEvent
  | state =>
    cases h
    exact passage_roomState.map RoomState.toValue
  | setPowerLevels =>
    cases h
    exact passage_setPowerLevels.map sent
  | setPowerLevel =>
    cases h
    exact passage_setPowerLevel.map _
  | _ => cases h

end Operations

end Bridge

end VirtualUsers
