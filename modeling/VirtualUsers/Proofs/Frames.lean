import VirtualUsers.Proofs.Traffic
/-!
# What is done without the homeserver

With an answer, notes are made, things are counted, and member records, power levels and typing
notices are kept. A wide frame is a relation that allows all of this, and whatever is done with an
answer keeps it. A frame allows the same, but for member records. Users are marked as registered in
one place only.
-/

namespace VirtualUsers

namespace Bridge

open Attempt (ofResult)

/-- A relation between bridges that says nothing of notes and counts, nor of power levels and typing
notices. -/
structure Frame (R : Bridge → Bridge → Prop) : Prop where
  refl (b : Bridge) : R b b
  trans {b b' b'' : Bridge} : R b b' → R b' b'' → R b b''
  note (b : Bridge) (name : String) (level : Int) (text : String) : R b (b.noted name level text)
  tally (b : Bridge) (t : Tally) : R b { b with tally := t }
  powerLevels (b : Bridge) (l : Table Key PowerRecord) :
    R b { b with store := { b.store with powerLevels := l } }
  typing (b : Bridge) (t : Table Key (Table Key Int)) :
    R b { b with store := { b.store with typing := t } }

/-- A frame that says nothing of the members of rooms either. -/
structure WideFrame (R : Bridge → Bridge → Prop) : Prop extends Frame R where
  members (b : Bridge) (m : Table Key (Table Key Member)) :
    R b { b with store := { b.store with members := m } }

/-- The act changes nothing that a relation speaks of. -/
def Keeps (R : Bridge → Bridge → Prop) (x : Act α) : Prop :=
  ∀ b, R b (x.outcome b).2

/-- The same service, and nothing was said to the homeserver. -/
structure Silent (b b' : Bridge) : Prop extends SameService b b' where
  traffic : b'.traffic = b.traffic
  answers : b'.answers = b.answers

abbrev Quiet (x : Act α) : Prop :=
  Keeps Silent x

def SameUsers (b b' : Bridge) : Prop :=
  b'.store.registered = b.store.registered

variable {α β : Type} {b b' b'' : Bridge}

theorem Silent.trans (h : Silent b b') (h' : Silent b' b'') : Silent b b'' :=
  ⟨h.toSameService.trans h'.toSameService, h'.traffic.trans h.traffic,
    h'.answers.trans h.answers⟩

theorem Untouched.silent (h : Untouched b b') : Silent b b' :=
  ⟨h.toSameService, h.traffic, h.answers⟩

theorem frame_silent : WideFrame Silent where
  refl b := ⟨.refl b, rfl, rfl⟩
  trans h h' := h.trans h'
  note b name level text := (untouched_noted b name level text).silent
  tally _ _ := ⟨⟨rfl, rfl, rfl, rfl, rfl, rfl⟩, rfl, rfl⟩
  members _ _ := ⟨⟨rfl, rfl, rfl, rfl, rfl, rfl⟩, rfl, rfl⟩
  powerLevels _ _ := ⟨⟨rfl, rfl, rfl, rfl, rfl, rfl⟩, rfl, rfl⟩
  typing _ _ := ⟨⟨rfl, rfl, rfl, rfl, rfl, rfl⟩, rfl, rfl⟩

theorem frame_sameUsers : WideFrame SameUsers where
  refl _ := rfl
  trans h h' := Eq.trans h' h
  note _ _ _ _ := rfl
  tally _ _ := rfl
  members _ _ := rfl
  powerLevels _ _ := rfl
  typing _ _ := rfl

section Rules

variable {R : Bridge → Bridge → Prop} (hR : Frame R)
include hR

theorem keeps_pure (a : α) : Keeps R (pure a) := fun b => hR.refl b

theorem keeps_throw (e : Failure) : Keeps R (throw e : Act α) := fun b => hR.refl b

theorem keeps_ofResult (r : Except Failure α) : Keeps R (ofResult r) := by
  intro b
  rw [Attempt.outcome_ofResult]
  exact hR.refl b

theorem Keeps.bind {x : Act α} {f : α → Act β} (hx : Keeps R x) (hf : ∀ a, Keeps R (f a)) :
    Keeps R (x >>= f) := by
  intro b
  have hb := hx b
  rw [Attempt.outcome_bind]
  rcases hout : x.outcome b with ⟨_ | a, b'⟩
  · rw [hout] at hb
    exact hb
  · rw [hout] at hb
    exact hR.trans hb (hf a b')

omit hR in
theorem Keeps.result {x : Act α} (hx : Keeps R x) : Keeps R (Attempt.result x) := by
  intro b
  rw [Attempt.outcome_result]
  exact hx b

theorem Keeps.forM {f : α → Act PUnit} {as : List α} (hf : ∀ a ∈ as, Keeps R (f a)) :
    Keeps R (as.forM f) := by
  induction as with
  | nil => exact keeps_pure hR ()
  | cons a as ih =>
    exact Keeps.bind hR (hf a List.mem_cons_self) fun _ =>
      ih fun a' ha' => hf a' (List.mem_cons_of_mem a ha')

theorem keeps_count (c : Counter) (n : Int) : Keeps R (count c n) := fun b => hR.tally b _

theorem keeps_note (name : String) (level : Int) (text : String) :
    Keeps R (note name level text) := fun b => hR.note b name level text

end Rules

/-- The act leaves a part of the bridge as it is. -/
def Fixes (part : Bridge → γ) (x : Act α) : Prop :=
  ∀ b, part (x.outcome b).2 = part b

section Parts

variable {γ : Type} {part : Bridge → γ}

theorem fixes_pure (a : α) : Fixes part (pure a) := fun _ => rfl

theorem fixes_throw (e : Failure) : Fixes part (throw e : Act α) := fun _ => rfl

theorem fixes_ofResult (r : Except Failure α) : Fixes part (ofResult r) := by
  intro b
  rw [Attempt.outcome_ofResult]

theorem Fixes.bind {x : Act α} {f : α → Act β} (hx : Fixes part x) (hf : ∀ a, Fixes part (f a)) :
    Fixes part (x >>= f) := by
  intro b
  have hb := hx b
  rw [Attempt.outcome_bind]
  rcases hout : x.outcome b with ⟨_ | a, b'⟩
  · rw [hout] at hb
    exact hb
  · rw [hout] at hb
    exact (hf a b').trans hb

/-- What fixes a part afterwards leaves it as it was before that. -/
theorem Fixes.after {f : α → Act β} (hf : ∀ a, Fixes part (f a)) (x : Act α) (b : Bridge) :
    part ((x >>= f).outcome b).2 = part (x.outcome b).2 := by
  rw [Attempt.outcome_bind]
  rcases x.outcome b with ⟨_ | a, b'⟩
  · rfl
  · exact hf a b'

theorem Fixes.forM {f : α → Act PUnit} {as : List α} (hf : ∀ a ∈ as, Fixes part (f a)) :
    Fixes part (as.forM f) := by
  induction as with
  | nil => exact fixes_pure ()
  | cons a as ih =>
    exact Fixes.bind (hf a List.mem_cons_self) fun _ =>
      ih fun a' ha' => hf a' (List.mem_cons_of_mem a ha')

end Parts

end Bridge

/-! ## What the store keeps -/

namespace Store

open Attempt (ofResult)

/-- A cell is changed only if both keys are there, and the room is entered if the user has none. -/
theorem state_atCell {P : Store → Prop} {room user : Value} {enterRoom : Key → Store → Store}
    {change : Key → Key → Store → Store} {s : Store} (keyless : Key.ofValue? room = none → P s)
    (userless : ∀ r, Key.ofValue? user = none → P (enterRoom r s))
    (placed : ∀ r u, Key.ofValue? room = some r → Key.ofValue? user = some u →
      P (change r u s)) :
    P ((ofResult room.toKey >>= fun r =>
      userKey user (enterRoom r) >>= fun u => modify (change r u)).outcome s).2 := by
  rw [Attempt.outcome_bind, Attempt.outcome_ofResult, Value.toKey]
  cases hroom : Key.ofValue? room with
  | none => exact keyless hroom
  | some r =>
    rw [Option.elim_some, Attempt.follow_ok, userKey]
    cases huser : Key.ofValue? user with
    | none => exact userless r huser
    | some u => exact placed r u hroom huser

theorem setMembership_members (room user membership : Value) (s : Store) :
    ∃ m, ((setMembership room user membership).outcome s).2 = { s with members := m } :=
  state_atCell (P := fun s' => ∃ m, s' = { s with members := m }) (fun _ => ⟨_, rfl⟩)
    (fun _ _ => ⟨_, rfl⟩) fun _ _ _ _ => ⟨_, rfl⟩

theorem setMember_members (room user : Value) (record : Member) (s : Store) :
    ∃ m, ((setMember room user record).outcome s).2 = { s with members := m } :=
  state_atCell (P := fun s' => ∃ m, s' = { s with members := m }) (fun _ => ⟨_, rfl⟩)
    (fun _ _ => ⟨_, rfl⟩) fun _ _ _ _ => ⟨_, rfl⟩

theorem setPowerLevels_powerLevels (room levels : Value) (s : Store) :
    ∃ l, ((setPowerLevels room levels).outcome s).2 = { s with powerLevels := l } :=
  Attempt.state_check (P := fun s' => ∃ l, s' = { s with powerLevels := l }) ⟨_, rfl⟩ fun _ _ =>
    Attempt.state_check (P := fun s' => ∃ l, s' = { s with powerLevels := l }) ⟨_, rfl⟩
      fun _ _ => ⟨_, rfl⟩

theorem setTyping_typing (now : Int) (room user timeout : Value) (s : Store) :
    ∃ t, ((setTyping now room user timeout).outcome s).2 = { s with typing := t } :=
  Attempt.state_check (P := fun s' => ∃ t, s' = { s with typing := t }) ⟨_, rfl⟩ fun _ _ =>
    state_atCell (P := fun s' => ∃ t, s' = { s with typing := t }) (fun _ => ⟨_, rfl⟩)
      (fun _ _ => ⟨_, rfl⟩) fun _ _ _ _ => ⟨_, rfl⟩

theorem observeMember_members (e : Event) (s : Store) :
    ∃ m, ((observeMember e).outcome s).2 = { s with members := m } := by
  let Members (s' : Store) : Prop := ∃ m, s' = { s with members := m }
  rw [observeMember]
  refine Attempt.state_check (P := Members) ⟨_, rfl⟩ fun membership _ => ?_
  split
  · refine Attempt.state_check (P := Members) ⟨_, rfl⟩ fun record _ => ?_
    rw [Attempt.state_return]
    exact setMember_members e.room e.stateKey record s
  · exact ⟨s.members, rfl⟩

theorem observeLevels_powerLevels (e : Event) (s : Store) :
    ∃ l, ((observeLevels e).outcome s).2 = { s with powerLevels := l } :=
  Attempt.state_check (P := fun s' => ∃ l, s' = { s with powerLevels := l }) ⟨_, rfl⟩
    fun levels _ => setPowerLevels_powerLevels e.room levels.draft.toValue s

end Store

namespace Bridge

open Attempt (ofResult)

/-! ## What is done with an answer -/

/-- An invite that was refused is taken for done if the user is in the room already. -/
theorem acceptMember_cases (room user : Value) (r : Except Failure Unit) :
    (r = .ok () ∧ acceptMember room user r = pure ()) ∨
      (∃ text, acceptMember room user r =
        count .invitesAlreadyMember 1 >>= fun _ => debug "mxintent.intent" text) ∨
      ∃ e, r = .error e ∧ acceptMember room user r = throw e := by
  rcases r with e | _
  · cases e with
    | request q =>
      by_cases hkind : q.kind = .alreadyInRoom
      · exact .inr (.inl ⟨_, by simp only [acceptMember, hkind]; rfl⟩)
      · exact .inr (.inr ⟨_, rfl, by simp [acceptMember, hkind]⟩)
    | _ => exact .inr (.inr ⟨_, rfl, rfl⟩)
  · exact .inl ⟨rfl, rfl⟩

/-- A record that is not found is none, and any other failure to read it is passed on. -/
theorem recordMember_cases (room user : Value) (r : Except Failure Value) :
    (∃ content, r = .ok content) ∨
      (∃ q, r = .error (.request q) ∧ q.kind = .notFound ∧ recordMember room user r = pure none) ∨
      ∃ e, r = .error e ∧ recordMember room user r = throw e := by
  rcases r with e | content
  · cases e with
    | request q =>
      by_cases hkind : q.kind = .notFound
      · exact .inr (.inl ⟨q, rfl, hkind, by simp [recordMember, hkind]⟩)
      · exact .inr (.inr ⟨_, rfl, by simp [recordMember, hkind]⟩)
    | _ => exact .inr (.inr ⟨_, rfl, rfl⟩)
  · exact .inl ⟨content, rfl⟩

/-- What a record that was read does is left alone if setting it does. -/
theorem fixes_recordMember {γ : Type} {part : Bridge → γ} {room user : Value}
    (hset : ∀ record, Fixes part (onStore (Store.setMember room user record)))
    (r : Except Failure Value) : Fixes part (recordMember room user r) := by
  rcases recordMember_cases room user r with ⟨content, rfl⟩ | ⟨q, -, -, h⟩ | ⟨e, -, h⟩
  · exact Fixes.bind (fixes_ofResult _) fun record =>
      Fixes.bind (hset record) fun _ => fixes_pure _
  · exact h ▸ fixes_pure none
  · exact h ▸ fixes_throw e

section Answers

variable {R : Bridge → Bridge → Prop} (hR : Frame R)
include hR

theorem keeps_setPowerLevels (room levels : Value) :
    Keeps R (onStore (Store.setPowerLevels room levels)) := by
  intro b
  obtain ⟨l, hl⟩ := Store.setPowerLevels_powerLevels room levels b.store
  rw [outcome_onStore, hl]
  exact hR.powerLevels b l

theorem keeps_setTyping (now : Int) (room user timeout : Value) :
    Keeps R (onStore (Store.setTyping now room user timeout)) := by
  intro b
  obtain ⟨t, ht⟩ := Store.setTyping_typing now room user timeout b.store
  rw [outcome_onStore, ht]
  exact hR.typing b t

theorem keeps_countAbsorbed {absorbed : Act Int} (h : Keeps R absorbed) :
    Keeps R (absorbed >>= count .stateAbsorbed) :=
  Keeps.bind hR h (keeps_count hR _)

theorem keeps_recordClaim (i : Intent) (r : Except Failure Unit) : Keeps R (recordClaim i r) := by
  rcases r with e | _
  · cases e with
    | request q =>
      simp only [recordClaim]
      split
      · exact Keeps.bind hR (keeps_count hR _ _) fun _ => keeps_note hR _ _ _
      · exact keeps_throw hR _
    | _ => exact keeps_throw hR _
  · exact Keeps.bind hR (keeps_count hR _ _) fun _ => keeps_note hR _ _ _

theorem keeps_acceptMember (room user : Value) (r : Except Failure Unit) :
    Keeps R (acceptMember room user r) := by
  rcases acceptMember_cases room user r with ⟨-, h⟩ | ⟨text, h⟩ | ⟨e, -, h⟩
  · exact h ▸ keeps_pure hR ()
  · exact h ▸ Keeps.bind hR (keeps_count hR _ _) fun _ => keeps_note hR _ _ text
  · exact h ▸ keeps_throw hR e

theorem keeps_recordLevels (room content : Value) : Keeps R (recordLevels room content) :=
  Keeps.bind hR (keeps_ofResult hR _) fun _ =>
    Keeps.bind hR (keeps_setPowerLevels hR _ _) fun _ => keeps_pure hR _

theorem keeps_recordTyping (i : Intent) (now : Int) (room typing timeout : Value) :
    Keeps R (recordTyping i now room typing timeout) :=
  Keeps.bind hR (keeps_count hR _ _) fun _ => keeps_setTyping hR _ _ _ _

end Answers

section Members

variable {R : Bridge → Bridge → Prop} (hR : WideFrame R)
include hR

theorem keeps_setMembership (room user membership : Value) :
    Keeps R (onStore (Store.setMembership room user membership)) := by
  intro b
  obtain ⟨m, hm⟩ := Store.setMembership_members room user membership b.store
  rw [outcome_onStore, hm]
  exact hR.members b m

theorem keeps_setMember (room user : Value) (record : Member) :
    Keeps R (onStore (Store.setMember room user record)) := by
  intro b
  obtain ⟨m, hm⟩ := Store.setMember_members room user record b.store
  rw [outcome_onStore, hm]
  exact hR.members b m

theorem keeps_onStore_observe (e : Event) : Keeps R (onStore (Store.observe e)) := by
  intro b
  rw [outcome_onStore, Store.observe]
  split
  · exact hR.refl b
  · split
    · obtain ⟨m, hm⟩ := Store.observeMember_members e b.store
      rw [hm]
      exact hR.members b m
    · split
      · obtain ⟨l, hl⟩ := Store.observeLevels_powerLevels e b.store
        rw [Attempt.state_return, hl]
        exact hR.powerLevels b l
      · exact hR.refl b

theorem keeps_observe (e : Event) : Keeps R (observe e) := by
  apply Keeps.bind hR.toFrame (keeps_onStore_observe hR e)
  intro membership
  cases membership with
  | none => exact keeps_pure hR.toFrame ()
  | some m => exact keeps_note hR.toFrame _ _ _

theorem keeps_absorbEvents (events : List Event) : Keeps R (absorbEvents events) :=
  have heach (e : Except Failure Event) : Keeps R (ofResult e >>= observe) :=
    Keeps.bind hR.toFrame (keeps_ofResult hR.toFrame e) (keeps_observe hR)
  Keeps.bind hR.toFrame (Keeps.forM hR.toFrame fun e _ => heach e) fun _ =>
    keeps_pure hR.toFrame _

theorem keeps_absorbJoined (room : Value) (joined : List (Value × Value)) :
    Keeps R (absorbJoined room joined) :=
  Keeps.bind hR.toFrame (Keeps.forM hR.toFrame fun _ _ => keeps_setMember hR _ _ _) fun _ =>
    keeps_pure hR.toFrame _

theorem keeps_observeSent (room type key content sender id : Value) :
    Keeps R (observeSent room type key content sender id) := by
  intro b
  unfold observeSent
  split
  · split
    · exact keeps_note hR.toFrame _ _ _ b
    · exact keeps_throw hR.toFrame _ b
  · rw [Attempt.outcome_bind, Attempt.outcome_get, Attempt.follow_ok]
    dsimp only
    split
    · exact keeps_note hR.toFrame _ _ _ b
    · exact keeps_observe hR _ b

theorem keeps_recordJoin (i : Intent) (joined : Value) : Keeps R (recordJoin i joined) :=
  Keeps.bind hR.toFrame (keeps_setMembership hR _ _ _) fun _ =>
    Keeps.bind hR.toFrame (keeps_count hR.toFrame _ _) fun _ => keeps_note hR.toFrame _ _ _

theorem keeps_recordState (i : Intent) (room type key content id : Value) :
    Keeps R (recordState i room type key content id) :=
  Keeps.bind hR.toFrame (keeps_count hR.toFrame _ _) fun _ => keeps_observeSent hR _ _ _ _ _ _

theorem keeps_recordChange (action : MembershipAction) (room user : Value) :
    Keeps R (recordChange action room user) :=
  Keeps.bind hR.toFrame (keeps_setMembership hR _ _ _) fun _ => keeps_count hR.toFrame _ _

theorem keeps_recordMember (room user : Value) (r : Except Failure Value) :
    Keeps R (recordMember room user r) := by
  rcases recordMember_cases room user r with ⟨content, rfl⟩ | ⟨q, -, -, h⟩ | ⟨e, -, h⟩
  · exact Keeps.bind hR.toFrame (keeps_ofResult hR.toFrame _) fun _ =>
      Keeps.bind hR.toFrame (keeps_setMember hR _ _ _) fun _ => keeps_pure hR.toFrame _
  · exact h ▸ keeps_pure hR.toFrame none
  · exact h ▸ keeps_throw hR.toFrame e

end Members

/-! ## Marking users as registered -/

theorem untouched_saveRegistered (path : String) (b : Bridge) :
    Untouched b ((saveRegistered path).outcome b).2 := by
  simp only [saveRegistered, Attempt.outcome_bind, Attempt.outcome_get, Attempt.follow_ok,
    Attempt.outcome_result, Attempt.outcome_within]
  generalize (Registry.save path b.store.registered).outcome b.files = saved
  rcases saved with ⟨e | _, files⟩
  · cases e <;> exact ⟨⟨rfl, rfl, rfl, rfl, rfl, rfl⟩, rfl, rfl, rfl, rfl⟩
  · exact ⟨⟨rfl, rfl, rfl, rfl, rfl, rfl⟩, rfl, rfl, rfl, rfl⟩

/-- Marking a user changes who is registered, also if that could not be saved. -/
theorem untouched_markRegistered (user : String) (b : Bridge) :
    Untouched { b with store := b.store.register (.text user) }
      ((markRegistered (.text user)).outcome b).2 := by
  rw [markRegistered, Attempt.outcome_bind, Attempt.outcome_ofResult, Value.toKey_text,
    Attempt.follow_ok, Attempt.outcome_bind, Attempt.outcome_get, Attempt.follow_ok]
  by_cases hcontains : b.store.registered.contains (.text user)
  · simp only [hcontains, Store.register, if_true]
    exact .refl b
  · simp only [hcontains, Bool.false_eq_true, if_false]
    rw [Attempt.outcome_bind, Attempt.outcome_modify, Attempt.follow_ok, Attempt.outcome_bind,
      Attempt.outcome_get, Attempt.follow_ok]
    dsimp only
    cases b.registryPath with
    | none => exact .refl _
    | some path => exact untouched_saveRegistered path _

theorem mem_register (user : Key) (s : Store) : user ∈ (s.register user).registered := by
  rw [Store.register]
  split
  · next h => exact List.contains_iff_mem.mp h
  · exact List.mem_append_right _ List.mem_cons_self

theorem quiet_markRegistered (user : String) : Quiet (markRegistered (.text user)) := by
  intro b
  have hmark := untouched_markRegistered user b
  exact ⟨⟨hmark.now, hmark.settings, hmark.registryPath, hmark.intents, hmark.clientOf,
    hmark.senders⟩, hmark.traffic, hmark.answers⟩

end Bridge

end VirtualUsers
