import VirtualUsers.Proofs.Walks
/-!
# Refused requests leave no trace

An operation that fails because of the homeserver does so with its last request, and what is known
and counted stays as it was when that request was sent. A gated operation whose user cannot join
never sends its own request.
-/

namespace VirtualUsers

def Exchange.IsEntry (x : Exchange) : Prop :=
  match x.request.endpoint with
  | .register | .join _ | .membership .invite _ => True
  | _ => False

/-- The room that an operation sends a request of its own for, once its user was joined. -/
def Operation.gate? : Operation → Option Value
  | ensureJoined .. | setPowerLevel .. => none
  | op => op.entry?.map (·.1)

namespace Bridge

open Attempt (ofResult)

variable {i : Intent} {op : Operation} {b b' : Bridge}

/-! ## The last request -/

theorem Walk.refused {out : Except Failure α × Bridge} (h : Walk i op b out) {e : Failure}
    (he : out.1 = .error e) (hfrom : e.FromHomeserver) :
    ∃ made x q, out.2.traffic = b.traffic ++ made ++ [x] ∧ x.RefusedWith q ∧
      e.root = .request q ∧ out.2.store = x.store ∧ out.2.tally = x.tally := by
  obtain ⟨xs, hpath, hends⟩ := h
  obtain ⟨made, x, q, rfl, hx, hroot, hstore, htally⟩ := hends e he hfrom
  refine ⟨made, x, q, ?_, hx, hroot, hstore, htally⟩
  rw [hpath.traffic, List.append_assoc]

/-! ## The gate -/

/-- To enter a room the user is registered and joins, or somebody helps it into the room. -/
theorem Turn.entering {room : Value} {ignoreCache : Bool} {inviter : Option ClientId} {x : Exchange}
    (h : Turn i (.ensureJoined room ignoreCache inviter) b x b') :
    (x.Registers (b.clientAt i.client) (.text i.localpart) (.bool true) ∧
      Follows b x (recordRegistered i) b') ∨
    (x.Joins (b.clientAt i.client) room ∧
      Follows b x (reading (joinedRoom room) (recordJoin i)) b') ∨
    ∃ helper, x.ChangesMembership (b.clientAt helper) .invite room (.text i.userId) .null ∧
      Heard ((count .joinInviteFallbacks 1).outcome b).2 x b' := by
  cases h with
  | claimed _ _ _ hx h => exact .inl ⟨hx, h⟩
  | joined room inviter hop _ hx h =>
    cases hop
    exact .inr (.inl ⟨hx, h⟩)
  | helped room inviter helper hop _ hx h =>
    cases hop
    exact .inr (.inr ⟨helper, hx, h⟩)
  | registered hop | messageSent _ _ _ _ hop | redacted _ _ _ hop | stateWritten _ _ _ _ _ hop
  | levelsWritten _ _ hop | stateRead _ _ _ hop | roomStateRead _ hop
  | membershipChanged _ _ _ _ hop | invited _ _ hop | joinedMembersRead _ hop
  | membersRead _ _ _ hop | memberRead _ _ hop _ | levelsRead _ hop | typingSent _ _ _ hop
  | displayNameSet _ hop | avatarUrlSet _ hop | whoamiAsked hop => cases hop

/-- An operation that only enters a room makes no other requests. -/
theorem Turn.isEntry {room : Value} {ignoreCache : Bool} {inviter : Option ClientId} {x : Exchange}
    (h : Turn i (.ensureJoined room ignoreCache inviter) b x b') : x.IsEntry := by
  rcases h.entering with ⟨hx, -⟩ | ⟨⟨r, -, hx⟩, -⟩ | ⟨helper, ⟨r, -, hx⟩, -⟩ <;>
  · rw [Exchange.IsEntry, hx.endpoint_eq]
    trivial

theorem Path.isEntry {room : Value} {ignoreCache : Bool} {inviter : Option ClientId}
    {xs : List Exchange} (h : Path i (.ensureJoined room ignoreCache inviter) b xs b') :
    ∀ x ∈ xs, x.IsEntry := by
  induction h with
  | still _ => nofun
  | turn _ hturn _ ih =>
    intro x hx
    rcases List.mem_cons.mp hx with rfl | hx
    · exact hturn.isEntry
    · exact ih x hx

/-- Only requests for entry are sent before a gate. -/
theorem ensureJoined_traffic (i : Intent) (room : Value) (ignoreCache : Bool)
    (inviter : Option ClientId) (b : Bridge) :
    ∃ made, ((ensureJoined i room ignoreCache inviter).outcome b).2.traffic = b.traffic ++ made ∧
      ∀ x ∈ made, x.IsEntry := by
  have hwalk : Walk i (.ensureJoined room ignoreCache inviter) b
      ((ensureJoined i room ignoreCache inviter).outcome b) := walk_ensureJoined rfl
  obtain ⟨made, hpath, -⟩ := hwalk
  exact ⟨made, hpath.traffic, hpath.isEntry⟩

/-- What comes after a gate that stays shut is not done. -/
theorem outcome_shut {room : Value} {f : Unit → Act α} {e : Failure}
    (h : (ensureJoined i room false none).outcome b = (.error e, b')) :
    (ensureJoined i room false none >>= f).outcome b = (.error e, b') := by
  rw [Attempt.outcome_bind, h, Attempt.follow_error]

theorem map_shut {room : Value} {f : Unit → Act α} {e : Failure} (g : α → Value)
    (h : (ensureJoined i room false none).outcome b = (.error e, b')) :
    (g <$> (ensureJoined i room false none >>= f)).outcome b = (.error e, b') := by
  rw [Attempt.outcome_map, outcome_shut h]
  rfl

theorem setPowerLevels_shut {room levels : Value} {e : Failure}
    (h : (ensureJoined i room false none).outcome b = (.error e, b')) :
    (setPowerLevels i room levels).outcome b = (.error e, b') := by
  rw [setPowerLevels, sendStateEvent, Attempt.outcome_bind, outcome_shut h, Attempt.follow_error]

theorem perform_shut {room : Value} {e : Failure} (hop : op.gate? = some room)
    (h : (ensureJoined i room false none).outcome b = (.error e, b')) :
    (perform i op).outcome b = (.error e, b') := by
  cases op with
  | setPowerLevels room levels =>
    cases hop
    rw [perform, Attempt.outcome_map, setPowerLevels_shut h]
    rfl
  | stateEvent room type key =>
    cases hop
    exact outcome_shut h
  | sendMessageEvent | sendMassagedMessageEvent | sendText | sendNotice | sendImage | sendVideo
  | redactEvent | sendStateEvent | sendMassagedStateEvent | setRoomName | setRoomTopic
  | setRoomAvatar | state =>
    cases hop
    exact map_shut _ h
  | _ => cases hop

/-- A power level is set behind the gate too, after the levels were read. -/
theorem setPowerLevel_shut {room user level : Value} {record : PowerRecord} {b₁ : Bridge}
    {e : Failure} (hlevels : (powerLevels i room).outcome b = (.ok record, b₁))
    (h : (ensureJoined i room false none).outcome b₁ = (.error e, b')) :
    ((perform i (.setPowerLevel room user level)).outcome b).2.traffic = b₁.traffic ∨
      (perform i (.setPowerLevel room user level)).outcome b = (.error e, b') := by
  simp only [perform, setPowerLevel, Attempt.outcome_map, Attempt.outcome_bind, hlevels,
    Attempt.follow_ok, Attempt.outcome_ofResult]
  cases record.draft with
  | error f => exact .inl rfl
  | ok current =>
    rw [Attempt.follow_ok, Attempt.outcome_bind, Attempt.outcome_ofResult]
    cases current.userLevel user with
    | error f => exact .inl rfl
    | ok own =>
      rw [Attempt.follow_ok]
      split
      · exact .inl rfl
      · cases hedit : current.setUserLevel user level with
        | error f =>
          rw [Attempt.outcome_bind, Attempt.outcome_ofResult]
          exact .inl rfl
        | ok edited =>
          rw [Attempt.outcome_bind, Attempt.outcome_ofResult, Attempt.follow_ok,
            Attempt.outcome_bind, setPowerLevels_shut h]
          exact .inr rfl

/-! ## Records that the homeserver does not have -/

theorem recordMember_none {room user : Value} {r : Except Failure Value}
    (h : (recordMember room user r).outcome b = (.ok none, b')) :
    ∃ q, r = .error (.request q) ∧ q.kind = .notFound ∧ b' = b := by
  rcases recordMember_cases room user r with
    ⟨content, rfl⟩ | ⟨q, hq, hkind, hnone⟩ | ⟨e, -, hthrow⟩
  · simp only [recordMember, Attempt.outcome_bind, Attempt.outcome_ofResult] at h
    cases hm : Member.ofContent content with
    | error e =>
      rw [hm] at h
      cases h
    | ok m =>
      rw [hm, Attempt.follow_ok, Attempt.outcome_bind] at h
      rcases hout : (onStore (Store.setMember room user m)).outcome b with ⟨_ | _, c⟩ <;>
      · rw [hout] at h
        cases h
  · rw [hnone] at h
    cases h
    exact ⟨q, hq, hkind, rfl⟩
  · rw [hthrow] at h
    cases h

/-- There is no record of a member only if the homeserver said so, and then none is kept. -/
theorem member_none {room user : Value} (h : (member i room user).outcome b = (.ok none, b')) :
    ∃ x q, b'.traffic = b.traffic ++ [x] ∧ x.RefusedWith q ∧ q.kind = .notFound ∧
      b'.store = x.store ∧ b'.tally = x.tally := by
  rw [member, Attempt.outcome_bind, outcome_ask] at h
  cases hknown : Store.member? room user b.store with
  | error e =>
    rw [hknown] at h
    cases h
  | ok known =>
    rw [hknown, Attempt.follow_ok] at h
    cases known with
    | some m => cases h
    | none =>
      simp only [Attempt.outcome_bind, Attempt.outcome_result, Attempt.follow_ok] at h
      obtain ⟨q, hr, hkind, rfl⟩ := recordMember_none h
      rcases asks_readState b i.client room (.text EventType.member) user with
        ⟨e, c, hout, he, -⟩ | ⟨x, c, hout, -, hheard⟩
      · rw [hout] at hr
        cases hr
        exact absurd trivial he
      · have hread : x.content >>= Except.ok = x.content := bind_pure x.content
        rw [hout, hread] at hr ⊢
        exact ⟨x, q, hheard.traffic, hr, hkind, hheard.store.trans hheard.storeThen.symm,
          hheard.tally.trans hheard.tallyThen.symm⟩

/-! ## All operations -/

/-- What is known and counted after a failure of the homeserver is what was known and counted when
the request that failed was sent. A gate that stays shut is the end of an operation, and a record
that the homeserver does not have is not kept. -/
theorem refusal_leaves_no_trace (i : Intent) (op : Operation) (b : Bridge) :
    (∀ e b', (perform i op).outcome b = (.error e, b') → e.FromHomeserver →
      ∃ made x q, b'.traffic = b.traffic ++ made ++ [x] ∧ x.RefusedWith q ∧ e.root = .request q ∧
        b'.store = x.store ∧ b'.tally = x.tally) ∧
    (∀ room e b', op.gate? = some room →
      (ensureJoined i room false none).outcome b = (.error e, b') →
      (perform i op).outcome b = (.error e, b') ∧
        ∃ made, b'.traffic = b.traffic ++ made ∧ ∀ x ∈ made, x.IsEntry) ∧
    (∀ room user level record b₁ e b', op = .setPowerLevel room user level →
      (powerLevels i room).outcome b = (.ok record, b₁) →
      (ensureJoined i room false none).outcome b₁ = (.error e, b') →
      ∃ made, ((perform i op).outcome b).2.traffic = b₁.traffic ++ made ∧
        ∀ x ∈ made, x.IsEntry) ∧
    (∀ room user b', op = .member room user → (member i room user).outcome b = (.ok none, b') →
      ∃ x q, b'.traffic = b.traffic ++ [x] ∧ x.RefusedWith q ∧ q.kind = .notFound ∧
        b'.store = x.store ∧ b'.tally = x.tally) := by
  refine ⟨fun e b' hout hfrom => ?_, fun room e b' hop hshut => ?_, ?_, ?_⟩
  · have hwalk := perform_walk i op b
    rw [hout] at hwalk
    exact hwalk.refused rfl hfrom
  · obtain ⟨made, htraffic, hmade⟩ := ensureJoined_traffic i room false none b
    rw [hshut] at htraffic
    exact ⟨perform_shut hop hshut, made, htraffic, hmade⟩
  · rintro room user level record b₁ e b' rfl hlevels hshut
    obtain ⟨made, htraffic, hmade⟩ := ensureJoined_traffic i room false none b₁
    rw [hshut] at htraffic
    have hcases := @setPowerLevel_shut i b b' room user level record b₁ e hlevels hshut
    rcases hcases with hnone | hend
    · exact ⟨[], by rw [hnone, List.append_nil], nofun⟩
    · rw [hend]
      exact ⟨made, htraffic, hmade⟩
  · rintro room user b' rfl hnone
    exact member_none hnone

instance (e : Failure) : Decidable e.FromHomeserver :=
  decidable_of_iff ((isRequest e || isPrecondition e) = true) (by cases e <;> simp [isRequest,
    isPrecondition])

instance (r : Except Failure α) : Decidable (∃ e, r = .error e ∧ e.FromHomeserver) :=
  match r with
  | .ok _ => isFalse nofun
  | .error e => decidable_of_iff e.FromHomeserver
      ⟨fun h => ⟨e, rfl, h⟩, fun ⟨_, he, h⟩ => by cases he; exact h⟩

/-- A bridge that knows that a user is in a room and what the power levels are there. The next
request is forbidden. -/
def Example.forbidden : Bridge where
  store := {
    registered := [.text "@alice:hs"]
    members := [(.text "!r:hs", [(.text "@alice:hs", { membership := .text Membership.join })])]
    powerLevels := [(.text "!r:hs", .levels {})] }
  answers := [.reply 403 none]

/-- A power level that may not be set is edited before the request is refused, and not kept. -/
theorem setPowerLevel_leaves_no_trace :
    ∃ e b' made x q,
      (perform ⟨0, "alice", "@alice:hs", none, false⟩
          (.setPowerLevel (.text "!r:hs") (.text "@bob:hs") (.int 50))).outcome Example.forbidden =
        (.error e, b') ∧
      b'.traffic = Example.forbidden.traffic ++ made ++ [x] ∧ x.RefusedWith q ∧
      b'.store = x.store ∧ b'.tally = x.tally := by
  let i : Intent := ⟨0, "alice", "@alice:hs", none, false⟩
  let op : Operation := .setPowerLevel (.text "!r:hs") (.text "@bob:hs") (.int 50)
  have hfails :
      ∃ e, ((perform i op).outcome Example.forbidden).1 = .error e ∧ e.FromHomeserver := by
    decide +kernel
  obtain ⟨e, he, hfrom⟩ := hfails
  have hout : (perform i op).outcome Example.forbidden =
      (.error e, ((perform i op).outcome Example.forbidden).2) := Prod.ext he rfl
  obtain ⟨made, x, q, htraffic, hx, -, hstore, htally⟩ :=
    (refusal_leaves_no_trace i op Example.forbidden).1 e _ hout hfrom
  exact ⟨e, _, made, x, q, hout, htraffic, hx, hstore, htally⟩

end Bridge

end VirtualUsers
