import VirtualUsers.Proofs.Gate
import VirtualUsers.Proofs.Mirroring
import VirtualUsers.Proofs.Registrations
/-!
# Nobody acts in a room from outside

All through a run, when an operation sends the request that it needs its user in a room for, the
store has the user there, or the user has just joined the room under another name. So as long as
nothing else is seen of the membership, the next operation in the room need not ask for entry again.
-/

namespace VirtualUsers

def Throughout (P : List α → α → Prop) (l : List α) : Prop :=
  ∀ before a after, l = before ++ a :: after → P before a

theorem Throughout.append {P : List α → α → Prop} {l more : List α} (h : Throughout P l)
    (hmore : ∀ before a after, more = before ++ a :: after → P (l ++ before) a) :
    Throughout P (l ++ more) := by
  intro before a after heq
  rcases List.append_eq_append_iff.mp heq with ⟨c, hbefore, hmore'⟩ | ⟨c, hl, hafter⟩
  · rw [hbefore]
    exact hmore c a after hmore'
  · cases c with
    | nil =>
      rw [List.append_nil] at hl
      have hfirst := hmore [] a after hafter.symm
      rwa [List.append_nil, hl] at hfirst
    | cons d c =>
      obtain ⟨rfl, -⟩ := List.cons.inj hafter
      exact h before _ c hl

theorem throughout_nil (P : List α → α → Prop) : Throughout P [] := fun _ _ _ h =>
  absurd h.symm (List.append_ne_nil_of_right_ne_nil _ (List.cons_ne_nil _ _))

theorem Throughout.concat {P : List α → α → Prop} {l : List α} {a : α} (h : Throughout P l)
    (ha : P l a) : Throughout P (l ++ [a]) := by
  refine h.append fun before d after heq => ?_
  rcases List.append_eq_singleton_iff.mp heq.symm with ⟨rfl, hd⟩ | ⟨-, hnone⟩
  · cases hd
    rwa [List.append_nil]
  · cases hnone

namespace Bridge

variable {i : Intent} {op : Operation} {room : Value} {b b' : Bridge} {x : Exchange}
  {xs : List Exchange}

/-- What holds of the exchange of every turn holds of all exchanges of a path. -/
theorem Path.forall {Q : Exchange → Prop} (h : Path i op b xs b')
    (hturn : ∀ {b x b'}, Turn i op b x b' → Q x) : ∀ x ∈ xs, Q x := by
  induction h with
  | still _ => exact List.forall_mem_nil _
  | turn _ h _ ih =>
    intro x hx
    rcases List.mem_cons.mp hx with rfl | hx
    · exact hturn h
    · exact ih x hx

structure Remembers (b : Bridge) (xs : List Exchange) (b' : Bridge) : Prop where
  ends : b.store.registered ⊆ b'.store.registered
  first : ∀ x ∈ xs, b.store.registered ⊆ x.store.registered
  last : ∀ x ∈ xs, x.store.registered ⊆ b'.store.registered
  ordered : xs.Pairwise fun x y => x.store.registered ⊆ y.store.registered

theorem Path.remembers (h : Path i op b xs b') : Remembers b xs b' := by
  induction h with
  | still hidle =>
    exact ⟨by rw [hidle.store]; exact List.Subset.refl _, List.forall_mem_nil _,
      List.forall_mem_nil _, .nil⟩
  | @turn b b₁ b₂ b' x xs hidle hturn _ ih =>
    have hthen : x.store.registered = b.store.registered := by
      rw [hturn.grown.storeThen, hidle.store]
    have hnext : b.store.registered ⊆ b₂.store.registered := by
      rw [← hidle.store]
      exact hturn.registered_subset
    refine ⟨fun _ hk => ih.ends (hnext hk), fun y hy => ?_, fun y hy => ?_,
      List.pairwise_cons.mpr ⟨fun y hy => ?_, ih.ordered⟩⟩
    · rcases List.mem_cons.mp hy with rfl | hy
      · rw [hthen]
        exact List.Subset.refl _
      · exact fun _ hk => ih.first y hy (hnext hk)
    · rcases List.mem_cons.mp hy with rfl | hy
      · rw [hthen]
        exact fun _ hk => ih.ends (hnext hk)
      · exact ih.last y hy
    · rw [hthen]
      exact fun _ hk => ih.first y hy (hnext hk)

/-- An operation with a request of its own has a gate. -/
theorem Turn.guarded (h : Turn i op b x b') (hown : op.owns x.request.endpoint) :
    op.guarded?.isSome := by
  cases h with
  | messageSent _ _ _ _ hop | stateWritten _ _ _ _ _ hop | levelsWritten _ _ hop =>
    cases op <;> first | rfl | cases hop
  | redacted _ _ _ hop | stateRead _ _ _ hop | roomStateRead _ hop =>
    subst hop
    rfl
  | registered _ hx | claimed _ _ _ hx | whoamiAsked _ _ hx =>
    rw [hx.endpoint] at hown
    cases op <;> cases hown
  | joined _ _ _ _ hx | helped _ _ _ _ _ hx | membershipChanged _ _ _ _ _ hx | invited _ _ _ hx
  | joinedMembersRead _ _ hx | membersRead _ _ _ _ hx | displayNameSet _ _ _ hx
  | avatarUrlSet _ _ _ hx =>
    obtain ⟨r, hx⟩ := hx.endpoint
    rw [hx] at hown
    cases op <;> cases hown
  | typingSent _ _ _ _ hx =>
    obtain ⟨r, u, hx⟩ := hx.endpoint
    rw [hx] at hown
    cases op <;> cases hown
  | memberRead _ _ hop _ hx =>
    obtain ⟨r, t, k, hx⟩ := hx.endpoint
    rw [hx, hop] at hown
    cases hown
  | levelsRead _ hop hx =>
    obtain ⟨r, t, k, hx⟩ := hx.endpoint
    rw [hx] at hown
    cases op <;> first | rfl | cases hown

/-- A user of an operation with a gate is registered only if the store does not know it. -/
theorem Turn.unknown (h : Turn i op b x b') (hguarded : op.guarded?.isSome)
    (hx : x.request.endpoint = .register) : ¬ Knows i x.store := by
  have hop : op ≠ .register := by
    rintro rfl
    cases hguarded
  rw [h.grown.storeThen]
  exact (h.registering hop hx).2.1

/-- The request that an operation with a gate is for, right after those before it in the traffic. -/
theorem Passage.own {early own done rest : List Exchange}
    (hearly : ∀ x ∈ early, op.owns x.request.endpoint = false) (hown : ∀ x ∈ own, own = [x])
    (h : early ++ own = done ++ x :: rest) (hx : op.owns x.request.endpoint) :
    done = early ∧ own = [x] := by
  have hnot : x ∉ early := by
    intro hmem
    rw [hearly x hmem] at hx
    cases hx
  have hmem : x ∈ own := by
    have hall : x ∈ early ++ own := h ▸ List.mem_append_right done List.mem_cons_self
    exact (List.mem_append.mp hall).resolve_left hnot
  have hsingle := hown x hmem
  rw [hsingle] at h
  rcases List.append_eq_append_iff.mp h with ⟨c, rfl, hc⟩ | ⟨c, rfl, hc⟩
  · cases c with
    | nil => exact ⟨List.append_nil _, hsingle⟩
    | cons d c => simp at hc
  · cases c with
    | nil => exact ⟨(List.append_nil _).symm, hsingle⟩
    | cons d c =>
      obtain ⟨rfl, -⟩ := List.cons.inj hc
      exact absurd (List.mem_append_right done List.mem_cons_self) hnot

end Bridge

namespace Run

open Bridge (KnownIn Knows Path Passage Entitled IntentsNamed joinedRoom)

/-! ## Moments of a run -/

/-- If the moment is the own request of an operation then its user was known to be in the room, or
has just joined it under another name. -/
def Admits (before : List Moment) : Moment → Prop
  | .observed _ => True
  | .asked i op x => op.owns x.request.endpoint → ∃ room, op.guarded? = some room ∧
      x.IsFor room ∧ (KnownIn i room x.store ∨ ∃ earlier y named,
        before = earlier ++ [.asked i op y] ∧ y.IsJoinOf room ∧
        y.content >>= joinedRoom room = .ok named ∧ KnownIn i named x.store)

/-- An operation with a gate asks for entry to it only for users who are not known to be there, and
registers only users who are not known. -/
def Needy : Moment → Prop
  | .observed _ => True
  | .asked i op x => op.guarded?.isSome → Entitled i x ∧
      (x.request.endpoint = .register → ¬ Knows i x.store) ∧
      ∀ room, op.guarded? = some room → x.IsEntry → ¬ KnownIn i room x.store

/-- The moments of a run are as they should be, and no user was forgotten between them. -/
structure Admitting (r : Run) : Prop where
  admits : Throughout Admits r.moments
  needy : ∀ m ∈ r.moments, Needy m
  last : ∀ x ∈ r.moments.filterMap Moment.exchange?,
    x.store.registered ⊆ r.bridge.store.registered
  ordered : (r.moments.filterMap Moment.exchange?).Pairwise fun x y =>
    x.store.registered ⊆ y.store.registered

theorem of_map_eq {i : Intent} {op : Operation} {xs : List Exchange} {before after : List Moment}
    {m : Moment} (h : xs.map (Moment.asked i op) = before ++ m :: after) :
    ∃ done x rest, xs = done ++ x :: rest ∧ before = done.map (.asked i op) ∧
      m = .asked i op x := by
  obtain ⟨done, more, rfl, rfl, hmore⟩ := List.map_eq_append_iff.mp h
  obtain ⟨x, rest, rfl, rfl, -⟩ := List.map_eq_cons_iff.mp hmore
  exact ⟨done, x, rest, rfl, rfl, rfl⟩

variable {r : Run} {i : Intent} {op : Operation} {b : Bridge} {xs : List Exchange}

/-- An operation with a gate makes requests as it should. -/
theorem admits_of_passage {room : Value}
    (h : Passage i op room b (Bridge.perform i op |>.outcome b).2)
    (hguarded : op.guarded? = some room)
    (htraffic : ((Bridge.perform i op).outcome b).2.traffic = b.traffic ++ xs)
    (moments : List Moment) {done rest : List Exchange} {x : Exchange}
    (hxs : xs = done ++ x :: rest) :
    Admits (moments ++ done.map (.asked i op)) (.asked i op x) := by
  intro hx
  obtain ⟨early, own, htraffic', hearly, hown⟩ := h
  have hsame : early ++ own = done ++ x :: rest := by
    rw [← hxs]
    exact List.append_cancel_left (htraffic'.symm.trans htraffic)
  obtain ⟨rfl, rfl⟩ :=
    Passage.own (fun y hy => (hearly y hy).1) (fun y hy => (hown y hy).1) hsame hx
  obtain ⟨-, hfor, -, hadmitted⟩ := hown x List.mem_cons_self
  refine ⟨room, hguarded, hfor, ?_⟩
  rcases hadmitted with hknown | ⟨y, named, hlast, hy⟩
  · exact .inl hknown
  · obtain ⟨init, rfl⟩ := List.getLast?_eq_some_iff.mp hlast
    refine .inr ⟨moments ++ init.map (.asked i op), y, named, ?_, hy⟩
    simp

/-- An operation with a gate asks only for what its user needs. -/
theorem needy_of_path (h : Path i op b xs ((Bridge.perform i op).outcome b).2) :
    ∀ x ∈ xs, Needy (.asked i op x) := by
  intro x hx hguarded
  have hop : op ≠ .register := by
    rintro rfl
    cases hguarded
  refine ⟨h.entitled hop x hx, h.forall (Q := fun x => x.request.endpoint = .register →
    ¬ Knows i x.store) (fun h => h.unknown hguarded) x hx, fun room hroom hentry => ?_⟩
  obtain ⟨early, own, htraffic, hearly, hown⟩ := Bridge.perform_passage (i := i) (b := b) hroom
  have hsame : xs = early ++ own := List.append_cancel_left (h.traffic.symm.trans htraffic)
  rw [hsame] at hx
  rcases List.mem_append.mp hx with hx | hx
  · exact (hearly x hx).2 hentry
  · exact absurd hentry (hown x hx).2.2.1

/-- The moments that an operation adds to a run. -/
theorem perform_admitting (i : Intent) (op : Operation) (hr : Admitting r) :
    Admitting (Run.perform i op r) := by
  obtain ⟨xs, hpath, -⟩ := Bridge.perform_walk i op r.bridge
  have htraffic := hpath.traffic
  have hmoments : (Run.perform i op r).moments = r.moments ++ xs.map (.asked i op) := by
    rw [← newTraffic_eq htraffic]
    rfl
  have hbridge : (Run.perform i op r).bridge = ((Bridge.perform i op).outcome r.bridge).2 := rfl
  have hremembers := hpath.remembers
  constructor
  · rw [hmoments]
    refine hr.admits.append fun before m after heq => ?_
    obtain ⟨done, x, rest, hxs, rfl, rfl⟩ := of_map_eq heq
    intro hx
    have hmem : x ∈ xs := hxs ▸ List.mem_append_right done List.mem_cons_self
    have hsome := hpath.forall (Q := fun x => op.owns x.request.endpoint → op.guarded?.isSome)
      (fun h => h.guarded) x hmem hx
    obtain ⟨room, hroom⟩ := Option.isSome_iff_exists.mp hsome
    exact admits_of_passage (Bridge.perform_passage hroom) hroom htraffic r.moments hxs hx
  · intro m hm
    rw [hmoments] at hm
    rcases List.mem_append.mp hm with hm | hm
    · exact hr.needy m hm
    · obtain ⟨x, hx, rfl⟩ := List.mem_map.mp hm
      exact needy_of_path hpath x hx
  · intro x hx
    rw [hmoments, List.filterMap_append, filterMap_asked] at hx
    rcases List.mem_append.mp hx with hx | hx
    · exact fun _ hk => hremembers.ends (hr.last x hx hk)
    · exact hremembers.last x hx
  · rw [hmoments, List.filterMap_append, filterMap_asked, List.pairwise_append]
    exact ⟨hr.ordered, hremembers.ordered, fun x hx y hy _ hk =>
      hremembers.first y hy (hr.last x hx hk)⟩

/-- Nothing is asked, and no user is forgotten. -/
theorem Admitting.quiet (hr : Admitting r) {b : Bridge} {seen : List Moment}
    (hseen : ∀ m ∈ seen, ∃ e, m = .observed e)
    (hsame : b.store.registered = r.bridge.store.registered) :
    Admitting ⟨b, r.moments ++ seen⟩ := by
  have hnone : seen.filterMap Moment.exchange? = [] := by
    rw [List.filterMap_eq_nil_iff]
    intro m hm
    obtain ⟨e, rfl⟩ := hseen m hm
    rfl
  refine ⟨hr.admits.append fun before m after heq => ?_, fun m hm => ?_, fun x hx => ?_, ?_⟩
  · obtain ⟨e, rfl⟩ := hseen m (heq ▸ List.mem_append_right before List.mem_cons_self)
    trivial
  · rcases List.mem_append.mp hm with hm | hm
    · exact hr.needy m hm
    · obtain ⟨e, rfl⟩ := hseen m hm
      trivial
  · rw [List.filterMap_append, hnone, List.append_nil] at hx
    rw [hsame]
    exact hr.last x hx
  · rw [List.filterMap_append, hnone, List.append_nil]
    exact hr.ordered

theorem Admitting.still (hr : Admitting r) {b : Bridge} (hstore : b.store = r.bridge.store) :
    Admitting ⟨b, r.moments⟩ := by
  have hquiet : Admitting ⟨b, r.moments ++ []⟩ :=
    hr.quiet (fun _ hm => absurd hm List.not_mem_nil) (congrArg Store.registered hstore)
  rwa [List.append_nil] at hquiet

theorem step_admitting (s : Step) (hnamed : IntentsNamed r.bridge) (hr : Admitting r) :
    Admitting (r.step s) := by
  cases s with
  | act localpart puppet op =>
    have hfinds := Bridge.intent_finds localpart puppet hnamed
    rcases hout : (Bridge.intent localpart puppet).outcome r.bridge with ⟨e | i, c⟩
    · rw [hout] at hfinds
      simp only [step, hout]
      exact hr.still hfinds.store
    · rw [hout] at hfinds
      simp only [step, hout]
      exact perform_admitting i op (hr.still hfinds.store)
  | observe e =>
    refine hr.quiet (fun m hm => ⟨e, List.mem_singleton.mp hm⟩) ?_
    exact Bridge.keeps_observe Bridge.frame_sameUsers e r.bridge
  | client user => exact hr.still (Bridge.clientFor_same user r.bridge).1.store
  | clock now => exact hr.still rfl

/-- A run of a service that acted as nobody yet is as it should be. -/
theorem through_admitting {b : Bridge} (steps : List Step) (hintents : b.intents = []) :
    Admitting (through steps b) := by
  have hstart : Admitting ⟨b, []⟩ :=
    ⟨throughout_nil _, fun _ hm => absurd hm List.not_mem_nil,
      fun _ hx => absurd hx List.not_mem_nil, .nil⟩
  refine (through_induction (P := fun r => Settled b.settings r ∧ Admitting r)
    ⟨settled_through [] hintents, hstart⟩ fun r s _ hr => ?_).2
  exact ⟨(step_moved s r hr.1.named).settled hr.1, step_admitting s hr.1.named hr.2⟩

/-! ## Whole runs -/

/-- What is known of a membership decides whether the user is known to be in the room. -/
theorem knownIn_of_membership {room : Value} {s s' : Store}
    (h : s'.membership room (.text i.userId) = s.membership room (.text i.userId)) :
    KnownIn i room s' ↔ KnownIn i room s := by
  rw [KnownIn, KnownIn, Store.isJoined, Store.isJoined, Store.hasMembership, Store.hasMembership, h]

/-- While nothing is seen of a membership, the store gives the same one. -/
theorem membership_unseen {b : Bridge} (steps : List Step) (hintents : b.intents = [])
    (hmembers : b.store.members = []) (hjson : ∀ a ∈ b.answers, a.IsJson) {room user : String}
    {before between after : List Moment} {j : Intent} {next : Operation} {x y : Exchange}
    (h : (through steps b).moments =
      before ++ .asked i op x :: (between ++ .asked j next y :: after))
    (hnone : Effect.latest? room user ((.asked i op x :: between).flatMap Moment.effects) = none) :
    y.store.membership (.text room) (.text user) =
      x.store.membership (.text room) (.text user) := by
  obtain ⟨-, hlatest⟩ := membership_latest b steps hintents hmembers hjson room user
  have hsplit : (through steps b).moments =
      (before ++ .asked i op x :: between) ++ .asked j next y :: after := by
    rw [h, List.append_assoc, List.cons_append]
  rw [hlatest _ _ _ _ _ h, hlatest _ _ _ _ _ hsplit, Moment.latest, Moment.latest,
    List.flatMap_append, Effect.latest?_append, hnone, Option.none_or]

/-- Whenever an operation sends the request that it needs its user in a room for, the store has the
user in the room, or else the request before was the operation's own join of the room, and the store
has the user in the room that the answer to it names. When the same user later passes the gate of
the same room, nobody is registered and no entry is asked for, as long as the store gives the same
membership; and if the user had joined under another name then nobody is registered in any case. The
store gives the same membership while nothing is seen of it. -/
theorem gate_recorded (b : Bridge) (steps : List Step) (hintents : b.intents = []) :
    Throughout Admits (through steps b).moments ∧
    ∀ before i op x between next y after, (through steps b).moments =
        before ++ .asked i op x :: (between ++ .asked i next y :: after) →
      (∀ room, op.owns x.request.endpoint → op.guarded? = some room → next.guarded? = some room →
        (KnownIn i room x.store →
          y.store.membership room (.text i.userId) = x.store.membership room (.text i.userId) →
          ¬ y.IsEntry) ∧
        (¬ KnownIn i room x.store → y.request.endpoint ≠ .register)) ∧
      (∀ room, b.store.members = [] → (∀ a ∈ b.answers, a.IsJson) →
        Effect.latest? room i.userId ((.asked i op x :: between).flatMap Moment.effects) = none →
        y.store.membership (.text room) (.text i.userId) =
          x.store.membership (.text room) (.text i.userId)) := by
  have hr := through_admitting steps hintents
  refine ⟨hr.admits, fun before i op x between next y after hmoments =>
    ⟨fun room hown hroom hnext => ?_, fun room hmembers hjson hnone =>
      membership_unseen steps hintents hmembers hjson hmoments hnone⟩⟩
  have hy : Moment.asked i next y ∈ (through steps b).moments := by
    rw [hmoments]
    simp
  obtain ⟨hentitled, hunknown, houtside⟩ := hr.needy _ hy (by rw [hnext]; rfl)
  refine ⟨fun hknown hsame hentry => ?_, fun hnot hregister => ?_⟩
  · exact houtside room hnext hentry ((knownIn_of_membership hsame).mpr hknown)
  · -- The user has joined under another name, so it was registered by then, and still is.
    obtain ⟨room', hroom', -, hadmits⟩ := hr.admits before _ _ hmoments hown
    cases hroom.symm.trans hroom'
    obtain ⟨earlier, join, named, rfl, ⟨s, -, hjoin⟩, -⟩ := hadmits.resolve_left hnot
    have hmem : Moment.asked i op join ∈ (through steps b).moments := by
      rw [hmoments]
      simp
    have hpuppet : i.puppet = false := by
      cases hpuppet : i.puppet with
      | false => rfl
      | true => exact absurd hregister (hentitled.puppet hpuppet)
    obtain ⟨hjoined, -, -⟩ := hr.needy _ hmem (by rw [hroom]; rfl)
    have hknows := hjoined.known hpuppet (by rw [hjoin]; rfl)
    have hordered := hr.ordered
    rw [hmoments, List.filterMap_append, List.pairwise_append] at hordered
    refine hunknown hregister (hordered.2.2 join ?_ y ?_ hknows) <;>
      simp [Moment.exchange?]

def Example.saying (room : String) : List Step :=
  [.act (.text "alice") false (.sendText (.text room) (.text "hello")),
    .act (.text "alice") false (.sendText (.text room) (.text "hello again"))]

/-- The room is joined once, under its own name, and the second message is sent at once. -/
theorem gate_recorded_once :
    (through (Example.saying "!r:hs") {}).bridge.traffic.map (·.request.endpoint) =
        [.register, .join (Text.utf8 "!r:hs"),
          .sendMessage (Text.utf8 "!r:hs") (Text.utf8 EventType.message) "mxi0.1",
          .sendMessage (Text.utf8 "!r:hs") (Text.utf8 EventType.message) "mxi0.2"] ∧
      Throughout Admits (through (Example.saying "!r:hs") {}).moments :=
  ⟨by decide +kernel, (gate_recorded {} (Example.saying "!r:hs") rfl).1⟩

def Example.aliased : Bridge where
  answers := [.empty, .reply 200 (some (.record [("room_id", .text "!r:hs")])), .empty,
    .reply 200 (some (.record [("room_id", .text "!r:hs")])), .empty]

/-- A user who joins a room by its alias is not known to be there when it says something, and joins
once more before it says something again. -/
theorem alias_not_recorded :
    (through (Example.saying "#lounge:hs") Example.aliased).bridge.traffic.map
        (·.request.endpoint) =
      [.register, .join (Text.utf8 "#lounge:hs"),
        .sendMessage (Text.utf8 "#lounge:hs") (Text.utf8 EventType.message) "mxi0.1",
        .join (Text.utf8 "#lounge:hs"),
        .sendMessage (Text.utf8 "#lounge:hs") (Text.utf8 EventType.message) "mxi0.2"] ∧
    ¬ ∀ i op x room,
      .asked i op x ∈ (through (Example.saying "#lounge:hs") Example.aliased).moments →
      op.owns x.request.endpoint → op.guarded? = some room → KnownIn i room x.store := by
  refine ⟨by decide +kernel, fun hknown => ?_⟩
  let outside : Moment → Bool
    | .observed _ => false
    | .asked i op x => op.owns x.request.endpoint && op.guarded?.any fun room =>
        (x.store.isJoined room (.text i.userId)).toOption == some false
  have houtside : (through (Example.saying "#lounge:hs") Example.aliased).moments.any outside := by
    decide +kernel
  obtain ⟨m, hm, hout⟩ := List.any_eq_true.mp houtside
  cases m with
  | observed e => cases hout
  | asked i op x =>
    obtain ⟨hown, hany⟩ := Bool.and_eq_true_iff.mp hout
    cases hroom : op.guarded? with
    | none =>
      rw [hroom] at hany
      cases hany
    | some room =>
      rw [hroom] at hany
      have hjoined : x.store.isJoined room (.text i.userId) = .ok true :=
        hknown i op x room hm hown hroom
      rw [Option.any_some, hjoined] at hany
      cases hany

end Run

end VirtualUsers
