import VirtualUsers.Proofs.Memberships
import VirtualUsers.Proofs.Runs
/-!
# The store mirrors memberships

All through a run the store shows for every user and room the membership that was written last, and
none if none was. This holds between steps and also whenever a request is sent.
-/

namespace VirtualUsers

namespace Bridge

open Store (After)

variable {i : Intent} {op : Operation} {b b' : Bridge} {x : Exchange}

/-! ## Along a path -/

theorem isJson_answer (hjson : ∀ a ∈ b.answers, a.IsJson) (h : Grown b x b') : x.answer.IsJson := by
  rw [h.answer]
  cases hanswers : b.answers with
  | nil => exact Answer.isJson_empty
  | cons a rest => exact hjson a (hanswers ▸ List.mem_cons_self)

/-- After idling and a turn the answers are JSON still, and the store shows the exchange. -/
theorem Turn.after_idle {b₁ b₂ : Bridge} (h : Turn i op b₁ x b₂) (hidle : Idle b b₁)
    (hjson : ∀ a ∈ b.answers, a.IsJson) :
    (∀ a ∈ b₂.answers, a.IsJson) ∧ After (x.effects i op) b.store b₂.store := by
  have hgrown := h.grown
  have hjson₁ : ∀ a ∈ b₁.answers, a.IsJson := hidle.answers ▸ hjson
  have hturned := h.after (isJson_answer hjson₁ hgrown)
  rw [hidle.store] at hturned
  exact ⟨fun a ha => hjson₁ a (List.mem_of_mem_tail (hgrown.answers ▸ ha)), hturned⟩

/-- The answers after a path are JSON, and the store shows the effects of the exchanges. -/
theorem Path.after {xs : List Exchange} (h : Path i op b xs b')
    (hjson : ∀ a ∈ b.answers, a.IsJson) :
    (∀ a ∈ b'.answers, a.IsJson) ∧ After (xs.flatMap (·.effects i op)) b.store b'.store := by
  induction h with
  | still hidle => exact ⟨hidle.answers ▸ hjson, .of_members (congrArg Store.members hidle.store)⟩
  | turn hidle hturn _ ih =>
    obtain ⟨hnext, hturned⟩ := hturn.after_idle hidle hjson
    exact ⟨(ih hnext).1, hturned.trans (ih hnext).2⟩

/-- The store that an exchange was made with shows the effects of the ones before. -/
theorem Path.after_take {xs : List Exchange} (h : Path i op b xs b')
    (hjson : ∀ a ∈ b.answers, a.IsJson) {n : Nat} (hn : xs[n]? = some x) :
    After ((xs.take n).flatMap (·.effects i op)) b.store x.store := by
  induction h generalizing n with
  | still _ => cases hn
  | turn hidle hturn _ ih =>
    cases n with
    | zero =>
      cases hn
      refine .of_members (congrArg Store.members ?_)
      rw [hturn.grown.storeThen, hidle.store]
    | succ n =>
      obtain ⟨hnext, hturned⟩ := hturn.after_idle hidle hjson
      exact hturned.trans (ih hnext hn)

end Bridge

def Moment.effects : Moment → List Effect
  | asked i op x => x.effects i op
  | observed e => e.effects

/-- The membership that a user was given last in a room, and none if there was none. -/
def Moment.latest (room user : String) (moments : List Moment) : String :=
  (Effect.latest? room user (moments.flatMap effects)).getD Membership.none

namespace Run

open Store (After)

/-! ## Whole runs -/

/-- The store shows the effects of all that was seen, and when a request was sent it showed the
effects of what had been seen by then. -/
structure Mirrors (r : Run) : Prop where
  answers : ∀ a ∈ r.bridge.answers, a.IsJson
  store : After (r.moments.flatMap Moment.effects) {} r.bridge.store
  asked : ∀ n i op x, r.moments[n]? = some (.asked i op x) →
    After ((r.moments.take n).flatMap Moment.effects) {} x.store

theorem Moved.mirrors {s : Step} {r r' : Run} (h : Moved s r r') (hr : Mirrors r) :
    Mirrors r' := by
  cases h with
  | acted localpart puppet op i c b xs hs hfinds hpath =>
    have hjson : ∀ a ∈ c.answers, a.IsJson := hfinds.answers ▸ hr.answers
    have hstore : After (r.moments.flatMap Moment.effects) {} c.store := hfinds.store ▸ hr.store
    have heffects (ys : List Exchange) :
        (ys.map (Moment.asked i op)).flatMap Moment.effects = ys.flatMap (·.effects i op) := by
      rw [List.flatMap_map]
      rfl
    obtain ⟨hjson', hafter⟩ := hpath.after hjson
    refine ⟨hjson', ?_, fun n j op' x hx => ?_⟩
    · rw [List.flatMap_append, heffects]
      exact hstore.trans hafter
    · -- The exchange is an old one, or one of those that the step added.
      rw [List.getElem?_append] at hx
      rw [List.take_append, List.flatMap_append]
      split at hx
      · next hn =>
        rw [Nat.sub_eq_zero_of_le (Nat.le_of_lt hn), List.take_zero, List.flatMap_nil,
          List.append_nil]
        exact hr.asked n j op' x hx
      · next hn =>
        rw [List.getElem?_map, Option.map_eq_some_iff] at hx
        obtain ⟨y, hy, heq⟩ := hx
        cases heq
        rw [List.take_of_length_le (Nat.le_of_not_lt hn), ← List.map_take, heffects]
        exact hstore.trans (hpath.after_take hjson hy)
  | observed e =>
    have hsilent := Bridge.keeps_observe Bridge.frame_silent e r.bridge
    refine ⟨hsilent.answers ▸ hr.answers, ?_, fun n i op x hx => ?_⟩
    · rw [List.flatMap_append, List.flatMap_singleton]
      exact hr.store.trans (Bridge.writes_observe e r.bridge)
    · rw [List.getElem?_append] at hx
      split at hx
      · next hn =>
        rw [List.take_append_of_le_length (Nat.le_of_lt hn)]
        exact hr.asked n i op x hx
      · rw [List.getElem?_singleton] at hx
        split at hx <;> cases hx
  | still b _ hstore _ hanswers _ =>
    exact ⟨hanswers ▸ hr.answers, hstore ▸ hr.store, hr.asked⟩

theorem membership_of_after {effects : List Effect} {s : Store} (h : After effects {} s)
    (room user : String) : s.membership (.text room) (.text user) =
      .ok (.text ((Effect.latest? room user effects).getD Membership.none)) := by
  rw [Store.membership_eq_shown, h room user]
  cases Effect.latest? room user effects <;> rfl

/-- In a run of a service that knew of no members, with answers that are JSON, the store gives at
the end the membership that was written last, and whenever a request was sent the one that had been
written last by then. -/
theorem membership_latest (b : Bridge) (steps : List Step) (hintents : b.intents = [])
    (hmembers : b.store.members = []) (hjson : ∀ a ∈ b.answers, a.IsJson) (room user : String) :
    (through steps b).bridge.store.membership (.text room) (.text user) =
      .ok (.text (Moment.latest room user (through steps b).moments)) ∧
    ∀ before i op x after, (through steps b).moments = before ++ .asked i op x :: after →
      x.store.membership (.text room) (.text user) =
        .ok (.text (Moment.latest room user before)) := by
  have hstart : Mirrors ⟨b, []⟩ :=
    ⟨hjson, .of_members hmembers, fun n _ _ _ hx => by rw [List.getElem?_nil] at hx; cases hx⟩
  obtain ⟨-, hr⟩ := through_moved hintents hstart fun _ _ _ _ _ hmoved hr => hmoved.mirrors hr
  refine ⟨membership_of_after hr.store room user, fun before i op x after hmoments => ?_⟩
  have hasked : (through steps b).moments[before.length]? = some (.asked i op x) := by
    rw [hmoments, List.getElem?_append_right (Nat.le_refl _), Nat.sub_self]
    rfl
  have hafter := hr.asked _ i op x hasked
  rw [hmoments, List.take_left] at hafter
  exact membership_of_after hafter room user

/-- A user is invited, is seen to join and is banned. The ban is not lifted in the end. -/
def Example.banning : List Step :=
  [.act (.text "alice") false (.ensureInvited (.text "!r:hs") (.text "@bob:hs")),
    .observe {
      room := .text "!r:hs"
      type := .text EventType.member
      stateKey := .text "@bob:hs"
      content := .record [("membership", .text Membership.join)] },
    .act (.text "alice") false (.changeMembership .ban (.text "!r:hs") (.text "@bob:hs") .null),
    .act (.text "alice") false (.changeMembership .unban (.text "!r:hs") (.text "@bob:hs") .null)]

theorem membership_latest_banned :
    let b : Bridge := { answers := [.empty, .empty, .reply 403 none] }
    (through Example.banning b).bridge.store.membership (.text "!r:hs") (.text "@bob:hs") =
      .ok (.text Membership.ban) := by
  intro b
  have hjson : ∀ a ∈ [Answer.empty, .empty, .reply 403 none], a.IsJson := by
    intro a ha
    simp only [List.mem_cons, List.not_mem_nil, or_false] at ha
    rcases ha with rfl | rfl | rfl
    · exact Answer.isJson_empty
    · exact Answer.isJson_empty
    · trivial
  rw [(membership_latest b Example.banning rfl rfl hjson "!r:hs" "@bob:hs").1]
  have hlatest :
      Moment.latest "!r:hs" "@bob:hs" (through Example.banning b).moments = Membership.ban := by
    decide +kernel
  rw [hlatest]

def Example.nameless : List Step :=
  [.act (.text "alice") false (.sendStateEvent (.text "") (.text EventType.member)
    (.text "@bob:hs") (.record [("membership", .text Membership.join)]))]

/-- A homeserver that registers a user, lets it into a room and takes its event. -/
def Example.willing : Bridge where
  answers := [.reply 200 (some (.record [("user_id", .text "@alice:localhost")])),
    .reply 200 (some (.record [("room_id", .text "!r:hs")])),
    .reply 200 (some (.record [("event_id", .text "$1")]))]

/-- The homeserver takes the event for a room without a name, a payload can hold its content, and
still the store does not show the membership. -/
theorem nameless_room_not_mirrored :
    ((through Example.nameless Example.willing).moments.getLast?.bind Moment.exchange?).map
        (fun x => (x.request.endpoint, x.content.isOk)) =
      some (.writeState [] (Text.utf8 EventType.member) (Text.utf8 "@bob:hs"), true) ∧
    (Content.clone (.record [("membership", .text Membership.join)])).isOk ∧
    (through Example.nameless Example.willing).bridge.store.membership (.text "")
      (.text "@bob:hs") ≠ .ok (.text Membership.join) := by
  refine ⟨by decide +kernel, by decide +kernel, fun hjoined => ?_⟩
  have hnot : ((through Example.nameless Example.willing).bridge.store.membership (.text "")
      (.text "@bob:hs")).toOption.any (·.same (.text Membership.join)) = false := by
    decide +kernel
  rw [hjoined] at hnot
  have hsame := (Value.same_text_iff (.text Membership.join) Membership.join).mpr rfl
  change Value.same (.text Membership.join) (.text Membership.join) = false at hnot
  rw [hsame] at hnot
  cases hnot

end Run

end VirtualUsers
