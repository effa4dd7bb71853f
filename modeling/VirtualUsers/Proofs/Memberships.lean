import VirtualUsers.Proofs.Effects
/-!
# What memberships are written

The store that a turn leaves shows the latest of the effects that the exchange of the turn has, and
of the other users and rooms what it showed before. This holds for each act that follows on an
answer, whether the act fails or not.
-/

namespace VirtualUsers

namespace Bridge

open Attempt (ofResult)
open Store (After)

/-! ## What acts write -/

def ShowsSame (b b' : Bridge) : Prop :=
  After [] b.store b'.store

def Writes (effects : List Effect) (x : Act α) : Prop :=
  ∀ b, After effects b.store (x.outcome b).2.store

theorem frame_showsSame : Frame ShowsSame where
  refl _ := .of_members rfl
  trans h h' := h.trans h'
  note _ _ _ _ := .of_members rfl
  tally _ _ := .of_members rfl
  powerLevels _ _ := .of_members rfl
  typing _ _ := .of_members rfl

section Rules

variable {α β : Type} {effects : List Effect}

/-- What is done afterwards has no effects. -/
theorem Writes.bind {x : Act α} {f : α → Act β} (hx : Writes effects x)
    (hf : ∀ a, Keeps ShowsSame (f a)) : Writes effects (x >>= f) := by
  intro b
  have hb := hx b
  rw [Attempt.outcome_bind]
  rcases hout : x.outcome b with ⟨_ | a, b'⟩
  · rw [hout] at hb
    exact hb
  · rw [hout] at hb
    have hafter := hb.trans (hf a b')
    rw [List.append_nil] at hafter
    exact hafter

theorem writes_onStore {x : Attempt Store α} (h : ∀ s, After effects s (x.outcome s).2) :
    Writes effects (onStore x) := by
  intro b
  rw [outcome_onStore]
  exact h b.store

/-- None of the acts fails, so all have their effects. -/
theorem Writes.forM {f : α → Act PUnit} {g : α → List Effect} {as : List α}
    (hok : ∀ a ∈ as, ∀ b, ∃ b', (f a).outcome b = (.ok ⟨⟩, b'))
    (hf : ∀ a ∈ as, Writes (g a) (f a)) : Writes (as.flatMap g) (as.forM f) := by
  induction as with
  | nil => exact fun _ => .of_members rfl
  | cons a as ih =>
    intro b
    obtain ⟨b', hb'⟩ := hok a List.mem_cons_self b
    have hfirst := hf a List.mem_cons_self b
    have hrest := ih (fun c hc => hok c (List.mem_cons_of_mem a hc))
      (fun c hc => hf c (List.mem_cons_of_mem a hc)) b'
    rw [hb'] at hfirst
    change After _ b.store ((f a >>= fun _ => as.forM f).outcome b).2.store
    rw [Attempt.outcome_bind, hb', Attempt.follow_ok, List.flatMap_cons]
    exact hfirst.trans hrest

theorem writes_reading {read : Value → Except Failure α} {next : α → Act β} {g : α → List Effect}
    {r : Except Failure Value} (h : ∀ data a, r = .ok data → read data = .ok a →
      Writes (g a) (next a)) : Writes (Effect.upon (r >>= read) g) (reading read next r) := by
  intro b
  rw [reading, Attempt.outcome_bind, Attempt.outcome_ofResult]
  cases r with
  | error e => exact .of_members rfl
  | ok data =>
    change After (Effect.upon (read data) g) b.store
      ((Attempt.follow next (read data, b)).2.store)
    cases hread : read data with
    | error e => exact .of_members rfl
    | ok a => exact h data a rfl hread b

end Rules

/-! ## What is written with an answer -/

theorem writes_recordJoin (i : Intent) (joined : Value) :
    Writes (Effect.on joined (.text i.userId) Membership.join) (recordJoin i joined) :=
  Writes.bind (writes_onStore (Store.after_setMembership joined _ _)) fun _ =>
    Keeps.bind frame_showsSame (keeps_count frame_showsSame _ _) fun _ =>
      keeps_note frame_showsSame _ _ _

theorem writes_recordChange (action : MembershipAction) (room user : Value) :
    Writes (Effect.on room user (membershipAfter action)) (recordChange action room user) :=
  Writes.bind (writes_onStore (Store.after_setMembership room user _)) fun _ =>
    keeps_count frame_showsSame _ _

theorem writes_observe (e : Event) : Writes e.effects (observe e) := by
  apply Writes.bind (writes_onStore (Store.after_observe e))
  intro membership
  cases membership with
  | none => exact keeps_pure frame_showsSame ()
  | some m => exact keeps_note frame_showsSame _ _ _

theorem writes_absorbEvents {events : List Event} (h : ∀ e ∈ events, e.Absorbable) :
    Writes (events.flatMap Event.effects) (absorbEvents events) := by
  refine Writes.bind ?_ fun _ => keeps_pure frame_showsSame _
  have heffects : events.flatMap Event.effects =
      (events.map Except.ok).flatMap fun e => Effect.upon e Event.effects := by
    rw [List.flatMap_map]
    rfl
  rw [heffects]
  refine Writes.forM (fun r hr => ?_) fun r hr => ?_
  · obtain ⟨e, he, rfl⟩ := List.mem_map.mp hr
    exact observe_ok (h e he)
  · obtain ⟨e, -, rfl⟩ := List.mem_map.mp hr
    exact writes_observe e

/-- A single event is taken in as far as it can be. -/
theorem writes_absorbOne (e : Event) : Writes e.effects (absorbEvents [e]) := by
  have hone : Writes e.effects (observe e >>= fun _ => (pure ⟨⟩ : Act PUnit)) :=
    Writes.bind (writes_observe e) fun _ => keeps_pure frame_showsSame _
  exact Writes.bind hone fun _ => keeps_pure frame_showsSame _

theorem writes_absorbJoined (room : Value) {joined : List (Value × Value)}
    (h : ∀ e ∈ joined, ∃ user, e.1 = .text user) :
    Writes (joined.flatMap fun e => Effect.on room e.1 Membership.join)
      (absorbJoined room joined) := by
  refine Writes.bind ?_ fun _ => keeps_pure frame_showsSame _
  have hwrites (e : Value × Value) : Writes (Effect.on room e.1 Membership.join)
      (onStore (Store.setMember room e.1 (joinedRecord e.2))) :=
    writes_onStore (Store.after_setMember room e.1 rfl)
  by_cases hroom : ∃ r, room = .text r
  · obtain ⟨r, rfl⟩ := hroom
    refine Writes.forM (fun e he b => ?_) fun e _ => hwrites e
    obtain ⟨user, huser⟩ := h e he
    change ∃ b', (onStore (Store.setMember (.text r) e.1 (joinedRecord e.2))).outcome b = _
    rw [outcome_onStore, huser, Store.setMember_ok r (Key.ofValue?_text user)]
    exact ⟨_, rfl⟩
  · have hnone (user : Value) : Effect.on room user Membership.join = [] :=
      Effect.on_no_room user _ fun r hr => hroom ⟨r, hr⟩
    have hall : (joined.flatMap fun e => Effect.on room e.1 Membership.join) = [] := by
      simp only [hnone, List.flatMap_eq_nil_iff, implies_true]
    rw [hall]
    refine Keeps.forM frame_showsSame fun e _ => ?_
    have he := hwrites e
    rw [hnone] at he
    exact he

/-- An event has effects only if its ids are texts and its content is a map. -/
theorem of_effects_ne_nil {e : Event} (h : e.effects ≠ []) :
    e.type = .text EventType.member ∧ (∃ r, e.room = .text r) ∧ e.content.isMap ∧
      e.stateKey.isText := by
  rw [Event.effects] at h
  by_cases hmember : e.isMember
  · rw [if_pos hmember, Event.grants] at h
    have htype := Store.type_of_isMember hmember
    cases hm : e.content.membership? with
    | none =>
      rw [hm] at h
      exact absurd rfl h
    | some m =>
      rw [hm] at h
      refine ⟨htype, ?_, ?_, ?_⟩
      · by_cases hroom : ∃ r, e.room = .text r
        · exact hroom
        · exact absurd (Effect.on_no_room _ m fun r hr => hroom ⟨r, hr⟩) h
      · cases hcontent : e.content with
        | map entries => rfl
        | _ => rw [hcontent] at hm; cases hm
      · cases hkey : e.stateKey with
        | text k => rfl
        | _ => exact absurd (Effect.on_no_user _ m fun u hu => by rw [hkey] at hu; cases hu) h
  · rw [if_neg hmember] at h
    exact absurd rfl h

/-- What is sent for a room with a name is taken in unless it has no effects. -/
theorem validate_of_effects {e : Event} (h : e.effects ≠ []) (hroom : e.room ≠ .text "") :
    e.validate = .ok () := by
  obtain ⟨htype, ⟨r, hr⟩, hcontent, hkey⟩ := of_effects_ne_nil h
  have hname : Event.isNonEmptyText e.room = true := by
    rw [hr, Event.isNonEmptyText, bne_iff_ne]
    rintro rfl
    exact hroom hr
  have htype' : Event.isNonEmptyText e.type = true := by
    rw [htype]
    rfl
  simp only [Event.validate, hname, htype', hcontent, hkey, Bool.or_true, if_true]
  rfl

theorem ofSent_of_error {content : Value} {e : Failure} (h : Content.clone content = .error e)
    (room type key : Value) : Effect.ofSent room type key content = [] := by
  unfold Effect.ofSent
  split
  · rfl
  · rw [Content.sent_of_error h]
    rfl

/-- What is sent for a room with a name has the effects of the event that is made for the store. -/
theorem ofSent_of_clone {room content copy : Value} (h : Content.clone content = .ok copy)
    (hroom : room ≠ .text "") (now : Int) (type key sender id : Value) :
    Effect.ofSent room type key content = (sentEvent now room type key sender copy id).effects := by
  obtain ⟨body, hbody, hmembership⟩ := Content.sent_of_clone h
  unfold Effect.ofSent
  split
  · exact absurd rfl hroom
  · rw [hbody, Effect.upon, Event.effects, Event.effects, Event.grants, Event.grants, hmembership]
    rfl

/-- An event that is made for the store and cannot be taken in has no effects. -/
theorem ofSent_of_invalid {now : Int} {room type key sender content copy id : Value}
    {e : Failure} (h : Content.clone content = .ok copy)
    (hinvalid : (sentEvent now room type key sender copy id).validate = .error e) :
    Effect.ofSent room type key content = [] := by
  by_cases hroom : room = .text ""
  · rw [hroom]
    rfl
  · rw [ofSent_of_clone h hroom now type key sender id]
    by_cases heffects : (sentEvent now room type key sender copy id).effects = []
    · exact heffects
    · rw [validate_of_effects heffects hroom] at hinvalid
      cases hinvalid

theorem writes_observeSent (room type key content sender id : Value) :
    Writes (Effect.ofSent room type key content) (observeSent room type key content sender id) := by
  intro b
  unfold observeSent
  cases hclone : Content.clone content with
  | error e =>
    rw [ofSent_of_error hclone]
    dsimp only
    split
    · exact keeps_note frame_showsSame _ _ _ b
    · exact keeps_throw frame_showsSame e b
  | ok copy =>
    dsimp only
    rw [Attempt.outcome_bind, Attempt.outcome_get, Attempt.follow_ok]
    cases hvalid : (sentEvent b.now room type key sender copy id).validate with
    | error e =>
      rw [ofSent_of_invalid hclone hvalid]
      exact keeps_note frame_showsSame _ _ _ b
    | ok _ =>
      have hroom : room ≠ .text "" := by
        rintro rfl
        cases hvalid
      rw [ofSent_of_clone hclone hroom b.now type key sender id]
      exact writes_observe _ b

theorem writes_recordState (i : Intent) (room type key content id : Value) :
    Writes (Effect.ofSent room type key content) (recordState i room type key content id) := by
  intro b
  rw [recordState, Attempt.outcome_bind, outcome_count, Attempt.follow_ok]
  exact writes_observeSent room type key content (.text i.userId) id _

theorem writes_countAbsorbed {effects : List Effect} {absorbed : Act Int}
    (h : Writes effects absorbed) : Writes effects (absorbed >>= count .stateAbsorbed) :=
  h.bind (keeps_count frame_showsSame _)

theorem writes_recordInvited (room user : Value) (r : Except Failure Value) :
    Writes (Effect.upon r fun _ => Effect.on room user Membership.invite)
      (recordInvited room user r) := by
  have hread : Writes (Effect.upon r fun _ => Effect.on room user Membership.invite)
      (reading (fun _ => .ok ()) (fun _ => recordChange .invite room user) r) := by
    rw [← Effect.upon_const]
    exact writes_reading fun _ _ _ _ => writes_recordChange .invite room user
  refine Writes.bind (fun b => ?_) (keeps_acceptMember frame_showsSame room user)
  rw [Attempt.outcome_result]
  exact hread b

/-- To write what is shown already is no effect. -/
theorem after_shown {room user : Value} {m : String} {s s' : Store}
    (h : After (Effect.on room user m) s s')
    (hshown : ∀ r u, room = .text r → user = .text u → s.shown r u = .text m) : After [] s s' := by
  intro r u
  rw [h r u]
  by_cases htexts : ∃ r' u', room = .text r' ∧ user = .text u'
  · obtain ⟨r', u', rfl, rfl⟩ := htexts
    rw [Effect.on, Effect.latest?_singleton]
    split
    · next heq =>
      obtain ⟨rfl, rfl⟩ := heq
      exact (hshown r' u' rfl rfl).symm
    · rfl
  · rw [Effect.on_eq_nil m htexts]

/-- A record that was read where there was none shows a recognised membership, or still nothing. -/
theorem after_recordMember {room user : Value} {b : Bridge}
    (hnew : b.store.member? room user = .ok none) (r : Except Failure Value) :
    After (Effect.upon r fun content =>
        Event.effects { room, type := .text EventType.member, stateKey := user, content })
      b.store ((recordMember room user r).outcome b).2.store := by
  rcases recordMember_cases room user r with ⟨content, rfl⟩ | ⟨q, rfl, -, h⟩ | ⟨e, rfl, h⟩
  · change After (Event.grants _) _ _
    rw [Event.grants, recordMember, Attempt.outcome_bind, Attempt.outcome_ofResult]
    cases hrecord : Member.ofContent content with
    | error e =>
      cases content with
      | map entries => cases hrecord
      | _ => exact .of_members rfl
    | ok record =>
      have hmembership := Member.membership_ofContent hrecord
      rw [Attempt.follow_ok, Attempt.state_return, outcome_onStore]
      dsimp only
      cases hgiven : content.membership? with
      | some m =>
        rw [hgiven] at hmembership
        exact Store.after_setMember room user hmembership b.store
      | none =>
        -- The record is kept without a membership, which is what the store showed.
        rw [hgiven] at hmembership
        apply after_shown (Store.after_setMember room user hmembership b.store)
        rintro r u rfl rfl
        have hcell : Store.cell? (.text r) (.text u) b.store.members = none := Except.ok.inj hnew
        rw [Store.shown, hcell]
        rfl
  · exact h ▸ .of_members rfl
  · exact h ▸ .of_members rfl

/-! ## What turns write -/

theorem change?_of_entry {op : Operation} {room : Value} {inviter : Option ClientId}
    (h : op.entry? = some (room, inviter)) : op.change? = none := by
  cases op <;> first | rfl | cases h

theorem writes?_of_writesLevels {op : Operation} {room levels : Value}
    (h : op.WritesLevels room levels) : op.writes? = none := by
  cases op <;> first | rfl | cases h

theorem reads?_of_readsLevels {op : Operation} {room : Value} (h : op.ReadsLevels room) :
    op.reads? = none := by
  cases op <;> first | rfl | cases h

variable {i : Intent} {op : Operation} {b b' : Bridge} {x : Exchange}

theorem Heard.after (h : Heard b x b') : After [] b.store b'.store :=
  .of_members (congrArg Store.members h.store)

theorem Follows.after {next : Except Failure Value → Act α} {effects : List Effect}
    (h : Follows b x next b') (hnext : Writes effects (next x.content)) :
    After effects b.store b'.store := by
  obtain ⟨c, hheard, rfl⟩ := h
  exact hheard.after.trans (hnext c)

theorem Follows.after_reading {read : Value → Except Failure α} {next : α → Act β}
    {g : α → List Effect} (h : Follows b x (reading read next) b')
    (hnext : ∀ data a, x.content = .ok data → read data = .ok a → Writes (g a) (next a)) :
    After (Effect.upon (x.content >>= read) g) b.store b'.store :=
  h.after (writes_reading hnext)

/-- After a turn the store shows the effects of its exchange. -/
theorem Turn.after (h : Turn i op b x b') (hjson : x.answer.IsJson) :
    After (x.effects i op) b.store b'.store := by
  have hdata {data : Value} (hdata : x.content = .ok data) : data.IsJson := hjson.content hdata
  cases h with
  | registered _ hx h | whoamiAsked _ _ hx h =>
    unfold Exchange.effects
    rw [hx.endpoint]
    exact h.after
  | claimed _ _ _ hx h =>
    unfold Exchange.effects
    rw [hx.endpoint]
    apply h.after
    apply Keeps.bind frame_showsSame (keeps_recordClaim frame_showsSame i _)
    intro _ c
    have hstore := (untouched_markRegistered i.userId c).store
    refine .of_members ?_
    rw [hstore, Store.register]
    split <;> rfl
  | joined room inviter hop _ hx h =>
    obtain ⟨r, hendpoint⟩ := hx.endpoint
    simp only [Exchange.effects, hendpoint, hop]
    exact h.after_reading fun _ joined _ _ => writes_recordJoin i joined
  | helped room inviter helper hop _ hx h =>
    obtain ⟨r, hendpoint⟩ := hx.endpoint
    simp only [Exchange.effects, hendpoint, change?_of_entry hop]
    exact h.after
  | messageSent room type content timestamp _ hx h =>
    obtain ⟨r, t, n, hendpoint⟩ := hx.endpoint
    unfold Exchange.effects
    rw [hendpoint]
    exact h.after (keeps_reading frame_showsSame (fun _ => keeps_count frame_showsSame _ _) _)
  | redacted room event reason _ hx h =>
    obtain ⟨r, e, n, hendpoint⟩ := hx.endpoint
    unfold Exchange.effects
    rw [hendpoint]
    exact h.after
  | stateWritten room type key content timestamp hop hx h =>
    obtain ⟨r, t, k, hendpoint⟩ := hx.endpoint
    simp only [Exchange.effects, hendpoint, hop]
    exact h.after_reading fun _ id _ _ => writes_recordState i room type key content id
  | levelsWritten room levels hop hx h =>
    obtain ⟨r, t, k, hendpoint⟩ := hx.endpoint
    simp only [Exchange.effects, hendpoint, writes?_of_writesLevels hop]
    have hnone : Effect.ofSent room (.text EventType.powerLevels) (.text "") levels = [] := by
      unfold Effect.ofSent
      split
      · rfl
      · cases Content.sent levels <;> rfl
    refine h.after (keeps_reading frame_showsSame (fun id => ?_) _)
    refine Keeps.bind frame_showsSame ?_ fun _ => keeps_setPowerLevels frame_showsSame room levels
    have hwrites := writes_recordState i room (.text EventType.powerLevels) (.text "") levels id
    rw [hnone] at hwrites
    exact hwrites
  | stateRead room type key hop hx h =>
    obtain ⟨r, t, k, hendpoint⟩ := hx.endpoint
    subst hop
    simp only [Exchange.effects, hendpoint, Operation.reads?]
    rw [← Effect.upon_ok]
    exact h.after_reading fun _ content _ _ => writes_absorbOne _
  | roomStateRead room hop hx h =>
    obtain ⟨r, hendpoint⟩ := hx.endpoint
    subst hop
    simp only [Exchange.effects, hendpoint]
    exact h.after_reading fun _ state hcontent hstate => writes_countAbsorbed
      (writes_absorbEvents (absorbable_of_stateOf (hdata hcontent) hstate))
  | membershipChanged action room user reason hop hx h =>
    obtain ⟨r, hendpoint⟩ := hx.endpoint
    subst hop
    simp only [Exchange.effects, hendpoint, Operation.change?]
    rw [← Effect.upon_const]
    exact h.after_reading fun _ _ _ _ => writes_recordChange action room user
  | invited room user hop hx h =>
    obtain ⟨r, hendpoint⟩ := hx.endpoint
    subst hop
    simp only [Exchange.effects, hendpoint, Operation.change?]
    exact h.after (writes_recordInvited room user x.content)
  | joinedMembersRead room hop hx h =>
    obtain ⟨r, hendpoint⟩ := hx.endpoint
    subst hop
    simp only [Exchange.effects, hendpoint]
    exact h.after_reading fun _ joined hcontent hjoined => writes_countAbsorbed
      (writes_absorbJoined room (text_of_joinedOf (hdata hcontent) hjoined))
  | membersRead room membership notMembership hop hx h =>
    obtain ⟨r, hendpoint⟩ := hx.endpoint
    subst hop
    simp only [Exchange.effects, hendpoint]
    exact h.after_reading fun _ events hcontent hevents => writes_countAbsorbed
      (writes_absorbEvents (absorbable_of_membersOf (hdata hcontent) hevents))
  | memberRead room user hop hnew hx h =>
    obtain ⟨r, t, k, hendpoint⟩ := hx.endpoint
    subst hop
    simp only [Exchange.effects, hendpoint, Operation.reads?]
    obtain ⟨c, hheard, rfl⟩ := h
    rw [← hheard.store] at hnew
    exact hheard.after.trans (after_recordMember hnew x.content)
  | levelsRead room hop hx h =>
    obtain ⟨r, t, k, hendpoint⟩ := hx.endpoint
    simp only [Exchange.effects, hendpoint, reads?_of_readsLevels hop]
    exact h.after (keeps_reading frame_showsSame (keeps_recordLevels frame_showsSame room) _)
  | typingSent room typing timeout hop hx h =>
    obtain ⟨r, u, hendpoint⟩ := hx.endpoint
    unfold Exchange.effects
    rw [hendpoint]
    exact h.after (keeps_reading frame_showsSame (fun _ =>
      keeps_recordTyping frame_showsSame i b.now room typing timeout) _)
  | displayNameSet _ _ _ hx h | avatarUrlSet _ _ _ hx h =>
    obtain ⟨u, hendpoint⟩ := hx.endpoint
    unfold Exchange.effects
    rw [hendpoint]
    exact h.after

end Bridge

end VirtualUsers
