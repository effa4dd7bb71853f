import VirtualUsers.Proofs.LevelChange
import VirtualUsers.Proofs.Reordering
import VirtualUsers.Proofs.Runs
/-!
# Levels that stay known

Levels that were read of any content are whole numbers under texts, and reading them again from what
they are written as gives the same levels. The store relies on this: it copies what it takes and
what it gives by writing and reading it. Main statement: once the levels of a room are known, from
an answer or from an event, they are given as they were read, without a request, until there is
another event with levels of the room.
-/

namespace VirtualUsers

/-! ## Copies of levels -/

namespace PowerLevels

/-- What becomes of levels that are copied some times, each copy from the one before. -/
def copied (l : PowerLevels) : Nat → Except Failure PowerLevels
  | 0 => .ok l
  | n + 1 => l.copied n >>= fun copy => copy.draft.finish

theorem copied_eq (l : PowerLevels) (n : Nat) : l.copied n = .ok l := by
  induction n with
  | zero => rfl
  | succ n ih =>
    rw [copied, ih]
    exact l.finish_draft

/-- Levels are written as a map with nothing but whole numbers and maps of whole numbers, and are
read again from it. -/
theorem toContent_wellFormed (l : PowerLevels) :
    ∃ entries, l.draft.toContent = .ok (.map entries) ∧ WellFormed entries ∧
      ofContent (.map entries) = .ok l := by
  refine ⟨_, rfl, ⟨fun key hkey v hv => ?_, fun key hkey hnumber v hv => ?_⟩, l.ofContent_content⟩
  · simp only [List.mem_cons, List.not_mem_nil, or_false] at hkey
    rcases hkey with rfl | rfl
    · exact ⟨l.users, (Option.some.inj hv).symm⟩
    · exact ⟨l.events, (Option.some.inj hv).symm⟩
  · simp only [keys, defaults, List.map_cons, List.map_nil, List.mem_cons, List.not_mem_nil,
      or_false] at hkey
    rcases hkey with rfl | rfl | rfl | rfl | rfl | rfl | rfl | rfl | rfl
    · exact absurd List.mem_cons_self hnumber
    · exact ⟨_, (Option.some.inj hv).symm⟩
    · exact absurd (List.mem_cons_of_mem _ List.mem_cons_self) hnumber
    all_goals exact ⟨_, (Option.some.inj hv).symm⟩

end PowerLevels

/-! ## Events with levels -/

/-- The event is a state event with the levels of a room. -/
structure Event.IsLevelsOf (room : String) (e : Event) : Prop where
  room : e.room = .text room
  type : e.isLevels
  state : e.stateKey ≠ .null

/-- What was seen was an event with the levels of a room: it was observed, the homeserver took it,
or it was in an answer to who asked for the state. -/
inductive Moment.GivesLevels (room : String) : Moment → Prop
  | observed (e : Event) (he : e.IsLevelsOf room) : GivesLevels room (.observed e)
  | written (i : Intent) (op : Operation) (x : Exchange) (key : Segment)
    (hx : x.request.endpoint = .writeState (Text.utf8 room) (Text.utf8 EventType.powerLevels) key)
    (haccepted : x.Accepted) : GivesLevels room (.asked i op x)
  | read (i : Intent) (key : Value) (x : Exchange) (k : Segment)
    (hx : x.request.endpoint = .readState (Text.utf8 room) (Text.utf8 EventType.powerLevels) k)
    (haccepted : x.Accepted) :
    GivesLevels room (.asked i (.stateEvent (.text room) (.text EventType.powerLevels) key) x)
  | listed (i : Intent) (room' : Value) (x : Exchange) (r : Segment) (data : Value)
    (state : RoomState) (e : Event) (hx : x.request.endpoint = .roomState r)
    (hdata : x.content = .ok data) (hstate : Bridge.stateOf room' data = .ok state)
    (hmem : e ∈ state.events) (he : e.IsLevelsOf room) :
    GivesLevels room (.asked i (.state room') x)
  | amongMembers (i : Intent) (room' membership notMembership : Value) (x : Exchange) (r : Segment)
    (data : Value) (events : List Event) (e : Event) (hx : x.request.endpoint = .members r)
    (hdata : x.content = .ok data) (hevents : Bridge.membersOf room' data = .ok events)
    (hmem : e ∈ events) (he : e.IsLevelsOf room) :
    GivesLevels room (.asked i (.members room' membership notMembership) x)

namespace Store

variable {room : String}

/-- Levels that are set for another room leave those of a room alone. -/
theorem get?_setPowerLevels {room' : Value} (h : room' ≠ .text room) (levels : Value) (s : Store) :
    Table.get? (.text room) ((setPowerLevels room' levels).outcome s).2.powerLevels =
      Table.get? (.text room) s.powerLevels := by
  rw [setPowerLevels, Attempt.outcome_bind, Attempt.outcome_ofResult]
  cases PowerRecord.ofValue levels with
  | error e => rfl
  | ok record =>
    rw [Attempt.follow_ok, Attempt.outcome_bind, Attempt.outcome_ofResult]
    cases hkey : Key.ofValue? room' with
    | none =>
      rw [Value.toKey, hkey]
      rfl
    | some key =>
      rw [Value.toKey, hkey]
      refine Table.get?_put_of_ne ?_ _ _
      rintro rfl
      exact h (Key.eq_text_of_ofValue? hkey)

/-- So do all events but those with levels of the room. -/
theorem get?_observe {e : Event} (h : ¬ e.IsLevelsOf room) (s : Store) :
    Table.get? (.text room) ((observe e).outcome s).2.powerLevels =
      Table.get? (.text room) s.powerLevels := by
  rw [observe]
  split
  · rfl
  · next hkey =>
    split
    · obtain ⟨m, hm⟩ := observeMember_members e s
      rw [hm]
    · split
      · next hlevels =>
        have hroom : e.room ≠ .text room := fun hroom =>
          h ⟨hroom, (Event.isLevels_iff e).mpr hlevels, fun hnull => hkey (by rw [hnull]; rfl)⟩
        rw [Attempt.state_return, observeLevels, Attempt.outcome_bind, Attempt.outcome_ofResult]
        cases PowerLevels.ofContent e.content with
        | error f => rfl
        | ok levels => exact get?_setPowerLevels hroom levels.draft.toValue s
      · rfl

end Store

namespace Bridge

open Attempt (ofResult)

variable {i : Intent} {op : Operation} {b b' : Bridge} {x : Exchange} {room : String}

/-! ## What keeps the levels of a room -/

abbrev KeepsLevels (room : String) (x : Act α) : Prop :=
  Fixes (keptLevels room) x

theorem SparesLevels.keeps {x : Act α} (h : SparesLevels x) : KeepsLevels room x :=
  fun b => congrArg (Table.get? (Key.text room)) (h b)

theorem sparesLevels_setMembership (room user membership : Value) :
    SparesLevels (onStore (Store.setMembership room user membership)) := by
  intro b
  obtain ⟨m, hm⟩ := Store.setMembership_members room user membership b.store
  rw [outcome_onStore, hm]

theorem sparesLevels_setMember (room user : Value) (record : Member) :
    SparesLevels (onStore (Store.setMember room user record)) := by
  intro b
  obtain ⟨m, hm⟩ := Store.setMember_members room user record b.store
  rw [outcome_onStore, hm]

theorem sparesLevels_setTyping (now : Int) (room user timeout : Value) :
    SparesLevels (onStore (Store.setTyping now room user timeout)) := by
  intro b
  obtain ⟨t, ht⟩ := Store.setTyping_typing now room user timeout b.store
  rw [outcome_onStore, ht]

theorem sparesLevels_recordChange (action : MembershipAction) (room user : Value) :
    SparesLevels (recordChange action room user) :=
  Fixes.bind (sparesLevels_setMembership room user _) fun _ _ => rfl

theorem sparesLevels_acceptMember (room user : Value) (r : Except Failure Unit) :
    SparesLevels (acceptMember room user r) := by
  rcases acceptMember_cases room user r with ⟨-, h⟩ | ⟨text, h⟩ | ⟨e, -, h⟩
  · exact h ▸ fixes_pure ()
  · exact h ▸ fun _ => rfl
  · exact h ▸ fixes_throw e

theorem fixes_reading {part : Bridge → γ} {read : Value → Except Failure α} {next : α → Act β}
    {r : Except Failure Value}
    (h : ∀ data a, r = .ok data → read data = .ok a → Fixes part (next a)) :
    Fixes part (reading read next r) := by
  intro b
  rw [reading, Attempt.outcome_bind, Attempt.outcome_ofResult]
  cases hr : r >>= read with
  | error e => rfl
  | ok a =>
    obtain ⟨data, hdata, hread⟩ := bind_eq_ok hr
    exact h data a hdata hread b

theorem sparesLevels_recordInvited (room user : Value) (r : Except Failure Value) :
    SparesLevels (recordInvited room user r) := by
  refine Fixes.bind (fun b => ?_) (sparesLevels_acceptMember room user)
  rw [Attempt.outcome_result]
  exact fixes_reading (fun _ _ _ _ => sparesLevels_recordChange .invite room user) b

theorem sparesLevels_absorbJoined (room : Value) (joined : List (Value × Value)) :
    SparesLevels (absorbJoined room joined) :=
  Fixes.bind (Fixes.forM fun _ _ => sparesLevels_setMember room _ _) fun _ => fixes_pure _

theorem sparesLevels_recordTyping (i : Intent) (now : Int) (room typing timeout : Value) :
    SparesLevels (recordTyping i now room typing timeout) :=
  Fixes.bind (fun _ => rfl) fun _ => sparesLevels_setTyping now room _ _

theorem keepsLevels_setPowerLevels {room' : Value} (h : room' ≠ .text room) (levels : Value) :
    KeepsLevels room (onStore (Store.setPowerLevels room' levels)) := by
  intro b
  rw [outcome_onStore]
  exact Store.get?_setPowerLevels h levels b.store

theorem keepsLevels_recordLevels {room' : Value} (h : room' ≠ .text room) (content : Value) :
    KeepsLevels room (recordLevels room' content) :=
  Fixes.bind (fixes_ofResult _) fun _ =>
    Fixes.bind (keepsLevels_setPowerLevels h _) fun _ => fixes_pure _

theorem keepsLevels_observe {e : Event} (h : ¬ e.IsLevelsOf room) :
    KeepsLevels room (observe e) := by
  refine Fixes.bind (fun b => ?_) fun membership => ?_
  · rw [outcome_onStore]
    exact Store.get?_observe h b.store
  · cases membership with
    | none => exact fixes_pure _
    | some m => exact fun _ => rfl

theorem keepsLevels_absorbEvents {events : List Event} (h : ∀ e ∈ events, ¬ e.IsLevelsOf room) :
    KeepsLevels room (absorbEvents events) := by
  refine Fixes.bind (Fixes.forM fun r hr => ?_) fun _ => fixes_pure _
  obtain ⟨e, he, rfl⟩ := List.mem_map.mp hr
  intro b
  rw [Attempt.outcome_bind, Attempt.outcome_ofResult, Attempt.follow_ok]
  exact keepsLevels_observe (h e he) b

theorem keepsLevels_observeSent {type key : Value} {room' : Value}
    (h : ¬ (room' = .text room ∧ type = .text EventType.powerLevels)) (content sender id : Value) :
    KeepsLevels room (observeSent room' type key content sender id) := by
  intro b
  unfold observeSent
  split
  · split
    · rfl
    · rfl
  · next copy _ =>
    rw [Attempt.outcome_bind, Attempt.outcome_get, Attempt.follow_ok]
    dsimp only
    split
    · rfl
    · exact keepsLevels_observe (fun he => h ⟨he.room, Event.isLevels_type he.type⟩) b

theorem keepsLevels_recordState {type key : Value} {room' : Value}
    (h : ¬ (room' = .text room ∧ type = .text EventType.powerLevels)) (i : Intent)
    (content id : Value) : KeepsLevels room (recordState i room' type key content id) :=
  Fixes.bind (fun _ => rfl) fun _ => keepsLevels_observeSent h content (.text i.userId) id

/-! ## What is done in turns -/

theorem Heard.keptLevels (h : Heard b x b') : b'.keptLevels room = b.keptLevels room := by
  rw [Bridge.keptLevels, h.store]
  rfl

theorem Follows.keptLevels {next : Except Failure Value → Act α} (h : Follows b x next b')
    (hnext : KeepsLevels room (next x.content)) : b'.keptLevels room = b.keptLevels room := by
  obtain ⟨c, hheard, rfl⟩ := h
  exact (hnext c).trans hheard.keptLevels

theorem Idle.keptLevels (h : Idle b b') : b'.keptLevels room = b.keptLevels room := by
  rw [Bridge.keptLevels, h.store]
  rfl

/-- A write of the levels of a room that the homeserver took gives levels. -/
theorem givesLevels_of_writesState {c : Client} {room' type key content timestamp data : Value}
    (hx : x.WritesState c room' type key content timestamp) (hdata : x.content = .ok data)
    (h : room' = .text room ∧ type = .text EventType.powerLevels) :
    Moment.GivesLevels room (.asked i op x) := by
  obtain ⟨rfl, rfl⟩ := h
  obtain ⟨params, r, t, k, body, -, hr, ht, -, -, hfrom⟩ := hx
  cases hr
  cases ht
  exact .written i op x k hfrom.endpoint_eq ⟨data, hdata⟩

/-- In a turn of an operation that does not need the levels of a room, they are kept unless the turn
gives other ones. -/
theorem Turn.keptLevels (h : Turn i op b x b') (hop : ¬ op.ReadsLevels (.text room))
    (hquiet : ¬ Moment.GivesLevels room (.asked i op x)) :
    b'.keptLevels room = b.keptLevels room := by
  cases h with
  | registered _ _ h | redacted _ _ _ _ _ h | displayNameSet _ _ _ _ h | avatarUrlSet _ _ _ _ h
  | whoamiAsked _ _ _ h => exact h.keptLevels
  | helped _ _ _ _ _ _ h => exact h.keptLevels
  | claimed _ _ _ _ h => exact h.keptLevels (sparesLevels_recordRegistered i _).keeps
  | joined _ _ _ _ _ h =>
    exact h.keptLevels (fixes_reading fun _ _ _ _ => (sparesLevels_recordJoin i _).keeps)
  | messageSent _ _ _ _ _ _ h => exact h.keptLevels (fixes_reading fun _ _ _ _ _ => rfl)
  | stateWritten room' type key content timestamp _ hx h =>
    refine h.keptLevels (fixes_reading fun data id hdata _ => ?_)
    exact keepsLevels_recordState
      (fun hsame => hquiet (givesLevels_of_writesState hx hdata hsame)) i content id
  | levelsWritten room' levels _ hx h =>
    refine h.keptLevels (fixes_reading fun data id hdata _ => ?_)
    have hother : ¬ (room' = .text room ∧ Value.text EventType.powerLevels = .text _) :=
      fun hsame => hquiet (givesLevels_of_writesState hx hdata hsame)
    exact Fixes.bind (keepsLevels_recordState hother i levels id) fun _ =>
      keepsLevels_setPowerLevels (fun hroom => hother ⟨hroom, rfl⟩) levels
  | stateRead room' type key hop' hx h =>
    refine h.keptLevels (fixes_reading fun data content hdata _ => ?_)
    refine keepsLevels_absorbEvents fun e he hlevels => hquiet ?_
    cases List.mem_singleton.mp he
    obtain ⟨hroom, htype, -⟩ := hlevels
    cases hroom
    cases Event.isLevels_type htype
    obtain ⟨r, t, k, hr, ht, -, hfrom⟩ := hx
    cases hr
    cases ht
    rw [hop']
    exact .read i key x k hfrom.endpoint_eq ⟨data, hdata⟩
  | roomStateRead room' hop' hx h =>
    refine h.keptLevels (fixes_reading fun data state hdata hstate => ?_)
    refine Fixes.bind (keepsLevels_absorbEvents fun e he hlevels => hquiet ?_) fun _ _ => rfl
    obtain ⟨r, hr⟩ := hx.endpoint
    rw [hop']
    exact .listed i room' x r data state e hr hdata hstate he hlevels
  | membershipChanged action room' user _ _ _ h =>
    exact h.keptLevels
      (fixes_reading fun _ _ _ _ => (sparesLevels_recordChange action room' user).keeps)
  | invited room' user _ _ h => exact h.keptLevels (sparesLevels_recordInvited room' user _).keeps
  | joinedMembersRead room' _ _ h =>
    exact h.keptLevels (fixes_reading fun _ joined _ _ =>
      Fixes.bind (sparesLevels_absorbJoined room' joined).keeps fun _ _ => rfl)
  | membersRead room' membership notMembership hop' hx h =>
    refine h.keptLevels (fixes_reading fun data events hdata hevents => ?_)
    refine Fixes.bind (keepsLevels_absorbEvents fun e he hlevels => hquiet ?_) fun _ _ => rfl
    obtain ⟨r, hr⟩ := hx.endpoint
    rw [hop']
    exact .amongMembers i room' membership notMembership x r data events e hr hdata hevents he
      hlevels
  | memberRead room' user _ _ _ h =>
    exact h.keptLevels
      (SparesLevels.keeps (fixes_recordMember (sparesLevels_setMember room' user) _))
  | levelsRead room' hop' _ h =>
    have hother : room' ≠ .text room := by
      rintro rfl
      exact hop hop'
    exact h.keptLevels (fixes_reading fun _ content _ _ => keepsLevels_recordLevels hother content)
  | typingSent room' typing timeout _ _ h =>
    exact h.keptLevels (fixes_reading fun _ _ _ _ =>
      (sparesLevels_recordTyping i b.now room' typing timeout).keeps)

theorem Path.keptLevels {xs : List Exchange} (h : Path i op b xs b')
    (hop : ¬ op.ReadsLevels (.text room))
    (hquiet : ∀ y ∈ xs, ¬ Moment.GivesLevels room (.asked i op y)) :
    b'.keptLevels room = b.keptLevels room := by
  induction h with
  | still h => exact h.keptLevels
  | turn hidle hturn _ ih =>
    obtain ⟨hfirst, hrest⟩ := List.forall_mem_cons.mp hquiet
    rw [ih hrest, hturn.keptLevels hop hfirst, hidle.keptLevels]

/-! ## What is done when the levels are known -/

variable {record : PowerRecord}

/-- Who asks for levels that are known gets them without a request. -/
theorem outcome_powerLevels_known (hkept : b.keptLevels room = some record) (i : Intent) :
    (powerLevels i (.text room)).outcome b = (.ok record, b) := by
  rw [outcome_powerLevels, hkept]

/-- Where the levels are known, to give a user one is to set the levels of the room, if anything. -/
theorem setPowerLevel_known (hkept : b.keptLevels room = some record) (i : Intent)
    (user level : Value) :
    Idle b ((setPowerLevel i (.text room) user level).outcome b).2 ∨
      ∃ levels, ((setPowerLevel i (.text room) user level).outcome b).2 =
        ((setPowerLevels i (.text room) levels).outcome b).2 := by
  rw [setPowerLevel, Attempt.outcome_bind, outcome_powerLevels_known hkept, Attempt.follow_ok,
    Attempt.outcome_bind, Attempt.outcome_ofResult]
  cases record.draft with
  | error e => exact .inl (.refl b)
  | ok current =>
    rw [Attempt.follow_ok, Attempt.outcome_bind, Attempt.outcome_ofResult]
    cases current.userLevel user with
    | error e => exact .inl (.refl b)
    | ok own =>
      rw [Attempt.follow_ok]
      split
      · exact .inl (idle_count (by simp [asideCounters]) b)
      · rw [Attempt.outcome_bind, Attempt.outcome_ofResult]
        cases current.setUserLevel user level with
        | error e => exact .inl (.refl b)
        | ok edited => exact .inr ⟨edited.toValue, Attempt.state_return _ some b⟩

/-- An operation that does not give other levels of a room keeps those that are known. -/
theorem keptLevels_perform (hkept : b.keptLevels room = some record)
    (hquiet : ∀ y ∈ newTraffic b ((perform i op).outcome b).2,
      ¬ Moment.GivesLevels room (.asked i op y)) :
    ((perform i op).outcome b).2.keptLevels room = some record := by
  by_cases hop : op.ReadsLevels (.text room)
  · cases op with
    | powerLevels room' =>
      cases hop
      change ((PowerRecord.toValue <$> powerLevels i (.text room)).outcome b).2.keptLevels room = _
      rw [Attempt.outcome_map, outcome_powerLevels_known hkept]
      exact hkept
    | setPowerLevel room' user level =>
      cases hop
      change ((_ <$> setPowerLevel i (.text room) user level).outcome b).2.keptLevels room = _
      have hsame : ((perform i (.setPowerLevel (.text room) user level)).outcome b).2 =
          ((setPowerLevel i (.text room) user level).outcome b).2 := by
        rw [perform, Attempt.outcome_map]
      rw [hsame] at hquiet
      rw [Attempt.outcome_map]
      rcases setPowerLevel_known hkept i user level with hidle | ⟨levels, hset⟩
      · rw [hidle.keptLevels, hkept]
      · have hwrites : Operation.WritesLevels (.text room) levels
            (.setPowerLevels (.text room) levels) := ⟨rfl, rfl⟩
        obtain ⟨xs, hpath, -⟩ := walk_setPowerLevels (i := i) (b := b) hwrites rfl
        rw [hset, Run.newTraffic_eq hpath.traffic] at hquiet
        rw [hset, hpath.keptLevels not_false fun y hy hgives => hquiet y hy ?_, hkept]
        cases hgives with
        | written _ _ _ key hx haccepted => exact .written i _ y key hx haccepted
    | _ => exact hop.elim
  · obtain ⟨xs, hpath, -⟩ := perform_walk i op b
    rw [Run.newTraffic_eq hpath.traffic] at hquiet
    rw [hpath.keptLevels hop hquiet, hkept]

/-- Asking for an intent teaches nothing of rooms. -/
theorem intent_same (localpart : Value) (puppet : Bool) (b : Bridge) :
    SameButIntents b ((intent localpart puppet).outcome b).2 := by
  have hcases := intent_cases localpart puppet b
  generalize (intent localpart puppet).outcome b = out at hcases ⊢
  have hclientFor (user : String) (b : Bridge) := (clientFor_same (.text user) b).1
  have hinviterFor (user : String) (b : Bridge) := (inviterFor_same user b).1
  cases hcases with
  | nameless => exact .refl b
  | clientless name e c _ hclient =>
    have hsame := hclientFor (userId b.settings (.text name)) b
    rwa [hclient] at hsame
  | botless name client e c d _ hclient hinviter =>
    have hsame := hclientFor (userId b.settings (.text name)) b
    have hsame' := hinviterFor (userId b.settings (.text name)) c
    rw [hclient] at hsame
    rw [hinviter] at hsame'
    exact hsame.trans hsame'
  | kept made c d _ _ _ hclient hinviter =>
    have hsame := hclientFor made.userId b
    have hsame' := hinviterFor made.userId c
    rw [hclient] at hsame
    rw [hinviter] at hsame'
    refine (hsame.trans hsame').trans ?_
    have hkeeping := keepIntent_cases made d
    generalize (keepIntent made).outcome d = out at hkeeping ⊢
    cases hkeeping with
    | found | differs => exact .refl d
    | new => exact ⟨rfl, rfl, rfl, rfl, rfl, rfl⟩

theorem SameButIntents.keptLevels (h : SameButIntents b b') :
    b'.keptLevels room = b.keptLevels room := by
  rw [Bridge.keptLevels, h.store]
  rfl

/-- Whatever happens but events with levels of the room, who asks for its levels then is given the
levels, without a request. -/
def KnowsLevels (room : String) (l : PowerLevels) (b : Bridge) : Prop :=
  ∀ steps, (∀ m ∈ (Run.through steps b).moments, ¬ m.GivesLevels room) → ∀ i,
    (powerLevels i (.text room)).outcome (Run.through steps b).bridge =
      (.ok (.levels l), (Run.through steps b).bridge)

end Bridge

namespace Run

open Bridge (KnowsLevels keptLevels)

variable {room : String} {record : PowerRecord}

/-- In each step the levels that are known are kept, unless there is an event with other ones. -/
theorem keptLevels_step (r : Run) (s : Step)
    (hr : (∀ m ∈ r.moments, ¬ m.GivesLevels room) → r.bridge.keptLevels room = some record)
    (hquiet : ∀ m ∈ (r.step s).moments, ¬ m.GivesLevels room) :
    (r.step s).bridge.keptLevels room = some record := by
  cases s with
  | act localpart puppet op =>
    have hsame := Bridge.intent_same localpart puppet r.bridge
    rcases hout : (Bridge.intent localpart puppet).outcome r.bridge with ⟨e | i, b⟩
    all_goals
      rw [hout] at hsame
      simp only [step, hout] at hquiet ⊢
    · rw [hsame.keptLevels, hr hquiet]
    · obtain ⟨hbefore, hnew⟩ := List.forall_mem_append.mp hquiet
      refine Bridge.keptLevels_perform (hsame.keptLevels.trans (hr hbefore)) fun y hy => ?_
      exact hnew _ (List.mem_map_of_mem hy)
  | observe e =>
    obtain ⟨hbefore, hnew⟩ := List.forall_mem_append.mp hquiet
    have he : ¬ e.IsLevelsOf room := fun he =>
      hnew _ (List.mem_singleton_self _) (.observed e he)
    exact (Bridge.keepsLevels_observe he r.bridge).trans (hr hbefore)
  | client user => rw [← hr hquiet]; exact (Bridge.clientFor_same user r.bridge).1.keptLevels
  | clock now => exact hr hquiet

theorem keptLevels_through {b : Bridge} (hb : b.keptLevels room = some record) (steps : List Step)
    (hquiet : ∀ m ∈ (through steps b).moments, ¬ m.GivesLevels room) :
    (through steps b).bridge.keptLevels room = some record :=
  through_induction
    (P := fun r => (∀ m ∈ r.moments, ¬ m.GivesLevels room) →
      r.bridge.keptLevels room = some record)
    (fun _ => hb) (fun r s _ hr => keptLevels_step r s hr) hquiet

theorem knowsLevels_of_kept {b : Bridge} {l : PowerLevels}
    (hb : b.keptLevels room = some (.levels l)) : KnowsLevels room l b :=
  fun steps hquiet i => Bridge.outcome_powerLevels_known (keptLevels_through hb steps hquiet) i

end Run

namespace Bridge

/-! ## What makes levels known -/

variable {b : Bridge} {room : String} {content : Value} {l : PowerLevels}

/-- Levels that are fetched are known from then on. -/
theorem powerLevels_fetched (hl : PowerLevels.ofContent content = .ok l)
    (hnone : b.keptLevels room = none) (hanswer : b.upcoming = some content) (i : Intent) :
    ∃ c, (powerLevels i (.text room)).outcome b = (.ok (.levels l), c) ∧
      c.keptLevels room = some (.levels l) := by
  obtain ⟨x, c, hout, -, hheard⟩ := outcome_send i.client
    (.readState (Text.utf8 room) (Text.utf8 EventType.powerLevels) (Text.utf8 "")) .null [] true b
  rw [outcome_powerLevels, hnone]
  dsimp only
  rw [Attempt.outcome_bind, outcome_readState, hout, hheard.content_iff.mpr hanswer,
    Attempt.follow_ok, recordLevels, hl, Attempt.outcome_bind, Attempt.outcome_ofResult,
    Attempt.follow_ok, Attempt.outcome_bind, outcome_keepLevels]
  exact ⟨_, rfl, Table.get?_put_self _ _ _⟩

/-- Levels that an event gives are known from then on. -/
theorem observe_levels {e : Event} (he : e.IsLevelsOf room) (hcontent : e.content = content)
    (hl : PowerLevels.ofContent content = .ok l) (b : Bridge) :
    ∃ c, (observe e).outcome b = (.ok (), c) ∧ c.keptLevels room = some (.levels l) := by
  have hkey : ¬ e.stateKey.isNull := by
    intro hnull
    cases hstate : e.stateKey with
    | null => exact he.state hstate
    | _ => rw [hstate] at hnull; cases hnull
  have hmember : ¬ e.type.same (.text EventType.member) := by
    rw [Event.isLevels_type he.type, Value.text_same_text]
    decide
  have hstore : (Store.observe e).outcome b.store =
      (.ok none, { b.store with
        powerLevels := Table.put (.text room) (.levels l) b.store.powerLevels }) := by
    rw [Store.observe, if_neg hkey, if_neg hmember, if_pos ((Event.isLevels_iff e).mp he.type),
      Store.observeLevels, hcontent, hl, he.room]
    simp only [Attempt.outcome_bind, Attempt.outcome_ofResult, Attempt.follow_ok,
      Store.setPowerLevels_ok l.finish_draft]
    rfl
  obtain ⟨c, hout, hc⟩ := outcome_observe hstore
  refine ⟨c, hout, ?_⟩
  rw [keptLevels, hc]
  exact Table.get?_put_self _ _ _

/-- Whatever content levels were read of, they are whole numbers under texts, and are the same when
they are written and read again, however often. So once they are known of a room, because they were
fetched or because an event gave them, whoever asks is given just these levels, without a request,
until there is another event with levels of the room. -/
theorem levels_stay_known (hl : PowerLevels.ofContent content = .ok l) :
    (∃ entries, l.draft.toContent = .ok (.map entries) ∧ PowerLevels.WellFormed entries ∧
        PowerLevels.ofContent (.map entries) = .ok l) ∧
      (∀ n, l.copied n = .ok l) ∧
      (∀ i room b, b.keptLevels room = none → b.upcoming = some content →
        ∃ c, (powerLevels i (.text room)).outcome b = (.ok (.levels l), c) ∧
          KnowsLevels room l c) ∧
      ∀ e room b, e.IsLevelsOf room → e.content = content →
        ∃ c, (observe e).outcome b = (.ok (), c) ∧ KnowsLevels room l c := by
  refine ⟨l.toContent_wellFormed, l.copied_eq, fun i room b hnone hanswer => ?_,
    fun e room b he hcontent => ?_⟩
  · obtain ⟨c, hout, hc⟩ := powerLevels_fetched hl hnone hanswer i
    exact ⟨c, hout, Run.knowsLevels_of_kept hc⟩
  · obtain ⟨c, hout, hc⟩ := observe_levels he hcontent hl b
    exact ⟨c, hout, Run.knowsLevels_of_kept hc⟩

def Example.isAside : Moment → Bool
  | .observed e => !e.isLevels
  | .asked .. => false

/-- Levels of odd kinds: a number as a text, a truth value, a list, and a user who is a number. -/
def Example.oddLevels : Value :=
  .map [(.text "users", .map [(.text "@a:hs", .text " 50 "), (.text "@b:hs", .bool true),
    (.int 3, .int 4)]), (.text "ban", .list []), (.text "kick", .text "1e2")]

def Example.topicSeen : Event :=
  { room := .text "!r:hs", type := .text EventType.roomTopic, stateKey := .text "" }

/-- A topic is seen, time passes, and Alice asks for the levels of the room. -/
def Example.quietSteps : List Step :=
  [.observe topicSeen, .clock 5, .act (.text "alice") false (.powerLevels (.text "!r:hs"))]

def Example.oddlyAnswered : Bridge :=
  { answers := [.reply 200 (some oddLevels)] }

theorem levels_stay_known_odd :
    ∃ l : PowerLevels, l.users = [("@a:hs", 50), ("@b:hs", 0)] ∧ l.ban = 50 ∧ l.kick = 50 ∧
      ∃ c, (powerLevels Example.alice (.text "!r:hs")).outcome Example.oddlyAnswered =
          (.ok (.levels l), c) ∧
        (Run.through Example.quietSteps c).bridge.traffic.length = 1 ∧
        (powerLevels Example.alice (.text "!r:hs")).outcome
          (Run.through Example.quietSteps c).bridge =
            (.ok (.levels l), (Run.through Example.quietSteps c).bridge) := by
  let l : PowerLevels := { users := [("@a:hs", 50), ("@b:hs", 0)] }
  have hl : PowerLevels.ofContent Example.oddLevels = .ok l := by rfl
  obtain ⟨-, -, hfetched, -⟩ := levels_stay_known hl
  obtain ⟨c, hout, hknows⟩ := hfetched Example.alice "!r:hs" Example.oddlyAnswered rfl rfl
  obtain rfl : ((powerLevels Example.alice (.text "!r:hs")).outcome Example.oddlyAnswered).2 = c :=
    congrArg Prod.snd hout
  refine ⟨l, rfl, rfl, rfl, _, hout, by decide +kernel, hknows Example.quietSteps ?_ Example.alice⟩
  have haside : (Run.through Example.quietSteps
      ((powerLevels Example.alice (.text "!r:hs")).outcome Example.oddlyAnswered).2).moments.all
        Example.isAside = true := by decide +kernel
  intro m hm hgives
  have hm' := List.all_eq_true.mp haside m hm
  cases hgives with
  | observed e he => simp [Example.isAside, he.type] at hm'
  | _ => cases hm'

end Bridge

end VirtualUsers
