import VirtualUsers.Call
import VirtualUsers.Proofs.Walks
/-!
# What requests keep, operations keep

A relation between bridges that is kept by every request of a client is kept by everything that is
done with that client: by all operations of an intent and by all requests that are asked for by
name. Requests that carry a transaction are told apart from all others, since they have two parts,
of which only the second one is sent. To enter a room takes fewer requests, and no record of a
member is touched before it is over.
-/

namespace VirtualUsers

namespace Endpoint

def transaction? : Endpoint → Option String
  | sendMessage _ _ transaction | redact _ _ transaction => some transaction
  | _ => none

/-- The request is one of those that bring a user into a room. -/
def IsEntry : Endpoint → Prop
  | register | join _ | membership .invite _ => True
  | _ => False

end Endpoint

namespace Bridge

open Attempt (ofResult)

/-- A relation that the requests for entry keep, and that says nothing of files and users. -/
structure Welcomes (R : Bridge → Bridge → Prop) : Prop extends Frame R where
  files (b : Bridge) (files : FileTree) : R b { b with files }
  users (b : Bridge) (users : List Key) :
    R b { b with store := { b.store with registered := users } }
  entry (d : ClientId) {endpoint : Endpoint} (body : Value) (params : List (String × Value))
    (asUser : Bool) (h : endpoint.IsEntry) : Keeps R (send d endpoint body params asUser)

/-- A relation that the requests of a client keep, and that says nothing of files and users. -/
structure Carries (c : ClientId) (R : Bridge → Bridge → Prop) : Prop extends WideFrame R where
  files (b : Bridge) (files : FileTree) : R b { b with files }
  users (b : Bridge) (users : List Key) :
    R b { b with store := { b.store with registered := users } }
  /-- Anyone may send a request without a transaction. -/
  request (d : ClientId) {endpoint : Endpoint} (body : Value) (params : List (String × Value))
    (asUser : Bool) (h : endpoint.transaction? = none) :
    Keeps R (send d endpoint body params asUser)
  message (room type content timestamp : Value) :
    Keeps R (sendMessage c room type content timestamp)
  redaction (room event reason : Value) : Keeps R (sendRedaction c room event reason)

theorem Carries.welcomes {c : ClientId} {R : Bridge → Bridge → Prop} (hR : Carries c R) :
    Welcomes R where
  toFrame := hR.toFrame
  files := hR.files
  users := hR.users
  entry d endpoint body params asUser h := hR.request d body params asUser (by
    cases endpoint <;> first | rfl | cases h)

section Rules

variable {α β : Type} {R : Bridge → Bridge → Prop}

/-- An act that leaves the bridge alone. -/
theorem keeps_still (hR : Frame R) {x : Act α} (h : ∀ b, (x.outcome b).2 = b) : Keeps R x := by
  intro b
  rw [h b]
  exact hR.refl b

theorem keeps_client (hR : Frame R) (c : ClientId) : Keeps R (client c) :=
  keeps_still hR fun _ => rfl

theorem keeps_get (hR : Frame R) : Keeps R (get : Act Bridge) :=
  keeps_still hR fun _ => rfl

theorem keeps_ask (hR : Frame R) (question : Store → Except Failure α) : Keeps R (ask question) :=
  keeps_still hR fun b => by rw [outcome_ask]

/-- An argument is checked before anything is done. -/
theorem Keeps.check (hR : Frame R) {r : Except Failure β} {f : β → Act α}
    (hf : ∀ v, Keeps R (f v)) : Keeps R (ofResult r >>= f) :=
  Keeps.bind hR (keeps_ofResult hR r) hf

theorem Keeps.map {x : Act α} (g : α → β) (hx : Keeps R x) : Keeps R (g <$> x) := by
  intro b
  rw [Attempt.outcome_map]
  exact hx b

theorem Keeps.inStage (hR : Frame R) {x : Act α} (stage : String) (isCause : Failure → Bool)
    (hx : Keeps R x) : Keeps R (inStage stage isCause x) := by
  rw [inStage_eq]
  exact Keeps.bind hR hx.result fun _ => keeps_ofResult hR _

end Rules

section Entry

variable {R : Bridge → Bridge → Prop} (hR : Welcomes R)
include hR

theorem keeps_sendRegister (d : ClientId) (localpart inhibitLogin : Value) :
    Keeps R (sendRegister d localpart inhibitLogin) :=
  hR.entry d _ _ _ trivial

theorem keeps_sendJoin (d : ClientId) (room : Value) : Keeps R (sendJoin d room) :=
  Keeps.check hR.toFrame fun _ =>
    Keeps.bind hR.toFrame (hR.entry d _ _ _ trivial) fun _ => keeps_ofResult hR.toFrame _

theorem keeps_saveRegistered (path : String) : Keeps R (saveRegistered path) := by
  intro b
  simp only [saveRegistered, Attempt.outcome_bind, Attempt.outcome_get, Attempt.follow_ok,
    Attempt.outcome_result, Attempt.outcome_within]
  generalize (Registry.save path b.store.registered).outcome b.files = saved
  rcases saved with ⟨e | _, files⟩
  · cases e with
    | file p at_ => exact hR.trans (hR.files b files) (hR.note _ _ _ _)
    | _ => exact hR.files b files
  · exact hR.files b files

theorem keeps_markRegistered (user : String) : Keeps R (markRegistered (.text user)) := by
  intro b
  rw [markRegistered, Attempt.outcome_bind, Attempt.outcome_ofResult, Value.toKey_text,
    Attempt.follow_ok, Attempt.outcome_bind, Attempt.outcome_get, Attempt.follow_ok]
  by_cases hcontains : b.store.registered.contains (.text user)
  · simp only [hcontains]
    exact hR.refl b
  · simp only [hcontains, Bool.false_eq_true, if_false]
    rw [Attempt.outcome_bind, Attempt.outcome_modify, Attempt.follow_ok, Attempt.outcome_bind,
      Attempt.outcome_get, Attempt.follow_ok]
    have hregister : R b { b with store := b.store.register (.text user) } := by
      rw [Store.register, if_neg hcontains]
      exact hR.users b _
    generalize hb : ({ b with store := b.store.register (.text user) } : Bridge) = b' at hregister ⊢
    cases hpath : b'.registryPath with
    | none => exact hregister
    | some path => exact hR.trans hregister (keeps_saveRegistered hR path b')

theorem keeps_ensureRegistered (i : Intent) : Keeps R (ensureRegistered i) := by
  intro b
  rw [outcome_ensureRegistered]
  split
  · exact hR.refl b
  · have hregister : Keeps R (registerUser i) :=
      Keeps.bind hR.toFrame (keeps_sendRegister hR i.client _ _) fun _ => keeps_pure hR.toFrame _
    have hclaim : Keeps R (claimUser i) :=
      Keeps.bind hR.toFrame hregister.result fun _ => keeps_recordClaim hR.toFrame i _
    exact Keeps.bind hR.toFrame hclaim (fun _ => keeps_markRegistered hR i.userId) b

theorem keeps_getInvited (i : Intent) (room : Value) (inviter : ClientId) :
    Keeps R (getInvited i room inviter) :=
  Keeps.bind hR.toFrame (keeps_count hR.toFrame _ _) fun _ =>
    Keeps.bind hR.toFrame (keeps_client hR.toFrame inviter) fun _ =>
    Keeps.bind hR.toFrame (keeps_note hR.toFrame _ _ _) fun _ =>
    Keeps.inStage hR.toFrame _ _ (Keeps.check hR.toFrame fun _ =>
      Keeps.bind hR.toFrame (hR.entry inviter _ _ _ trivial) fun _ => keeps_pure hR.toFrame _)

theorem keeps_joinAfterInvite (i : Intent) (room : Value) (inviter : ClientId) :
    Keeps R (joinAfterInvite i room inviter) :=
  Keeps.bind hR.toFrame (keeps_getInvited hR i room inviter) fun _ =>
    Keeps.inStage hR.toFrame _ _ (keeps_sendJoin hR i.client room)

theorem keeps_joinRoom (i : Intent) (room : Value) (inviter : Option ClientId) :
    Keeps R (joinRoom i room inviter) := by
  refine Keeps.bind hR.toFrame (keeps_sendJoin hR i.client room).result fun r => ?_
  rcases settleJoin_cases i room inviter r with hsettled | ⟨_, helper, -, -, -, hsettled⟩
  · rw [hsettled]
    exact keeps_ofResult hR.toFrame _
  · rw [hsettled]
    exact keeps_joinAfterInvite hR i room helper

end Entry

section Requests

variable {c : ClientId} {R : Bridge → Bridge → Prop} (hR : Carries c R) (d : ClientId)
include hR

theorem keeps_sendMembership (action : MembershipAction) (room user reason : Value) :
    Keeps R (sendMembership d action room user reason) :=
  Keeps.check hR.toFrame fun _ =>
    Keeps.bind hR.toFrame (hR.request d _ _ _ rfl) fun _ => keeps_pure hR.toFrame _

theorem keeps_writeState (room type key content timestamp : Value) :
    Keeps R (writeState d room type key content timestamp) :=
  Keeps.check hR.toFrame fun _ => Keeps.check hR.toFrame fun _ => Keeps.check hR.toFrame fun _ =>
    Keeps.check hR.toFrame fun _ => Keeps.check hR.toFrame fun _ =>
    Keeps.bind hR.toFrame (hR.request d _ _ _ rfl) fun _ => keeps_ofResult hR.toFrame _

theorem keeps_readState (room type key : Value) : Keeps R (readState d room type key) :=
  Keeps.check hR.toFrame fun _ => Keeps.check hR.toFrame fun _ => Keeps.check hR.toFrame fun _ =>
    hR.request d _ _ _ rfl

theorem keeps_readRoomState (room : Value) : Keeps R (readRoomState d room) :=
  Keeps.check hR.toFrame fun _ =>
    Keeps.bind hR.toFrame (hR.request d _ _ _ rfl) fun _ => keeps_ofResult hR.toFrame _

theorem keeps_readJoinedMembers (room : Value) : Keeps R (readJoinedMembers d room) :=
  Keeps.check hR.toFrame fun _ =>
    Keeps.bind hR.toFrame (hR.request d _ _ _ rfl) fun _ => keeps_ofResult hR.toFrame _

theorem keeps_readMembers (room membership notMembership : Value) :
    Keeps R (readMembers d room membership notMembership) :=
  Keeps.check hR.toFrame fun _ =>
    Keeps.bind hR.toFrame (hR.request d _ _ _ rfl) fun _ => keeps_ofResult hR.toFrame _

theorem keeps_sendTyping (room typing timeout : Value) :
    Keeps R (sendTyping d room typing timeout) := by
  have hsend (length : List (String × Value)) : Keeps R (do
      let room ← ofResult room.segment
      let user ← ofResult (← client d).user.segment
      let _ ← send d (.typing room user) (.record (("typing", .bool typing.truthy) :: length)) []
        true) :=
    Keeps.check hR.toFrame fun _ => Keeps.bind hR.toFrame (keeps_client hR.toFrame d) fun _ =>
      Keeps.check hR.toFrame fun _ =>
      Keeps.bind hR.toFrame (hR.request d _ _ _ rfl) fun _ => keeps_pure hR.toFrame _
  unfold sendTyping
  split
  · exact Keeps.check hR.toFrame fun _ => hsend _
  · exact hsend _

theorem keeps_sendDisplayName (name : Value) : Keeps R (sendDisplayName d name) :=
  Keeps.bind hR.toFrame (keeps_client hR.toFrame d) fun _ => Keeps.check hR.toFrame fun _ =>
    Keeps.bind hR.toFrame (hR.request d _ _ _ rfl) fun _ => keeps_pure hR.toFrame _

theorem keeps_sendAvatarUrl (url : Value) : Keeps R (sendAvatarUrl d url) :=
  Keeps.bind hR.toFrame (keeps_client hR.toFrame d) fun _ => Keeps.check hR.toFrame fun _ =>
    Keeps.bind hR.toFrame (hR.request d _ _ _ rfl) fun _ => keeps_pure hR.toFrame _

theorem keeps_readWhoami : Keeps R (readWhoami d) :=
  hR.request d _ _ _ rfl

/-- Whatever request a client is asked for by name, the relation is kept. -/
theorem keeps_request (name : String) (a : Call.Arguments) : Keeps R (Call.request c name a) := by
  have hF := hR.toFrame
  have hsingle (field : String) {x : Act Value} (hx : Keeps R x) : Keeps R (Call.single field x) :=
    Keeps.bind hF hx fun _ => keeps_pure hF _
  have hnull {x : Act Unit} (hx : Keeps R x) :
      Keeps R (x >>= fun _ => (pure .null : Act Value)) :=
    Keeps.bind hF hx fun _ => keeps_pure hF _
  unfold Call.request
  split
  · refine Keeps.check hF fun arguments => ?_
    split
    · exact keeps_sendRegister hR.welcomes c _ _
    · exact hsingle _ (keeps_sendJoin hR.welcomes c _)
    iterate 4 · exact hnull (keeps_sendMembership hR c _ _ _ _)
    · exact hsingle _ (hR.message _ _ _ _)
    · exact hsingle _ (keeps_writeState hR c _ _ _ _ _)
    · exact keeps_readState hR c _ _ _
    · exact (keeps_readRoomState hR c _).map _
    · exact (keeps_readJoinedMembers hR c _).map _
    · exact Keeps.bind hF (keeps_readMembers hR c _ _ _) fun _ => keeps_pure hF _
    · exact hsingle _ (hR.redaction _ _ _)
    · exact hnull (keeps_sendTyping hR c _ _ _)
    · exact hnull (keeps_sendDisplayName hR c _)
    · exact hnull (keeps_sendAvatarUrl hR c _)
    · exact keeps_readWhoami hR c
    · exact keeps_throw hF _
  · exact keeps_throw hF _

end Requests

section Operations

variable {i : Intent} {R : Bridge → Bridge → Prop} (hR : Carries i.client R)
include hR

theorem keeps_ensureJoined (room : Value) (ignoreCache : Bool) (inviter : Option ClientId) :
    Keeps R (ensureJoined i room ignoreCache inviter) := by
  have hregistered := Keeps.inStage hR.toFrame joiningStage isPrecondition
    (keeps_ensureRegistered hR.welcomes i)
  have henter : Keeps R (enterRoom i room inviter) :=
    Keeps.bind hR.toFrame hregistered fun _ => Keeps.bind hR.toFrame
      (keeps_joinRoom hR.welcomes i room inviter) (keeps_recordJoin hR.toWideFrame i)
  have hknown (known : Bool) :
      Keeps R (if known then count .joinCacheHits 1 else enterRoom i room inviter) := by
    cases known with
    | true => exact keeps_count hR.toFrame _ _
    | false => exact henter
  unfold ensureJoined
  cases ignoreCache with
  | true => exact hknown false
  | false => exact Keeps.bind hR.toFrame (keeps_ask hR.toFrame _) hknown

/-- The requests that need membership come after the user was joined. -/
theorem Keeps.gated {room : Value} {f : Unit → Act α} (hf : Keeps R (f ())) :
    Keeps R (ensureJoined i room false none >>= f) :=
  Keeps.bind hR.toFrame (keeps_ensureJoined hR room false none) fun _ => hf

theorem keeps_sendMessageEvent (room type content timestamp : Value) :
    Keeps R (sendMessageEvent i room type content timestamp) :=
  Keeps.gated hR <| Keeps.bind hR.toFrame (hR.message room type content timestamp) fun _ =>
    Keeps.bind hR.toFrame (keeps_count hR.toFrame _ _) fun _ => keeps_pure hR.toFrame _

theorem keeps_sendStateEvent (room type key content timestamp : Value) :
    Keeps R (sendStateEvent i room type key content timestamp) :=
  Keeps.gated hR <|
    Keeps.bind hR.toFrame (keeps_writeState hR i.client room type key content timestamp) fun _ =>
    Keeps.bind hR.toFrame (keeps_recordState hR.toWideFrame i _ _ _ _ _) fun _ =>
    keeps_pure hR.toFrame _

theorem keeps_stateEvent (room type key : Value) : Keeps R (stateEvent i room type key) :=
  Keeps.gated hR <| Keeps.bind hR.toFrame (keeps_readState hR i.client room type key) fun _ =>
    Keeps.bind hR.toFrame (keeps_absorbEvents hR.toWideFrame _) fun _ => keeps_pure hR.toFrame _

/-- What was taken in is counted before it is returned. -/
theorem Keeps.absorbing {x : Act α} {absorbed : α → Act Int} (hx : Keeps R x)
    (habsorbed : ∀ a, Keeps R (absorbed a)) :
    Keeps R (do
      let a ← x
      count .stateAbsorbed (← absorbed a)
      return a) :=
  Keeps.bind hR.toFrame hx fun a => Keeps.bind hR.toFrame (habsorbed a) fun _ =>
    Keeps.bind hR.toFrame (keeps_count hR.toFrame _ _) fun _ => keeps_pure hR.toFrame a

theorem keeps_changeMembership (action : MembershipAction) (room user reason : Value) :
    Keeps R (changeMembership i action room user reason) :=
  Keeps.bind hR.toFrame (keeps_sendMembership hR i.client action room user reason) fun _ =>
    keeps_recordChange hR.toWideFrame action room user

theorem keeps_ensureInvited (room user : Value) : Keeps R (ensureInvited i room user) := by
  refine Keeps.bind hR.toFrame (keeps_ask hR.toFrame _) fun known => ?_
  cases known with
  | true => exact keeps_pure hR.toFrame ()
  | false =>
    exact Keeps.bind hR.toFrame (keeps_changeMembership hR .invite room user .null).result
      (keeps_acceptMember hR.toFrame room user)

theorem keeps_member (room user : Value) : Keeps R (member i room user) := by
  refine Keeps.bind hR.toFrame (keeps_ask hR.toFrame _) fun known => ?_
  cases known with
  | some m => exact keeps_pure hR.toFrame _
  | none =>
    exact Keeps.bind hR.toFrame (keeps_readState hR i.client room _ user).result
      (keeps_recordMember hR.toWideFrame room user)

theorem keeps_powerLevels (room : Value) : Keeps R (powerLevels i room) := by
  refine Keeps.bind hR.toFrame (keeps_ask hR.toFrame _) fun known => ?_
  cases known with
  | some record => exact keeps_pure hR.toFrame _
  | none =>
    exact Keeps.bind hR.toFrame (keeps_readState hR i.client room _ _)
      (keeps_recordLevels hR.toFrame room)

theorem keeps_writeLevels (room levels : Value) : Keeps R (setPowerLevels i room levels) :=
  Keeps.bind hR.toFrame (keeps_sendStateEvent hR room _ _ levels _) fun _ =>
    Keeps.bind hR.toFrame (keeps_setPowerLevels hR.toFrame room levels) fun _ =>
    keeps_pure hR.toFrame _

theorem keeps_setPowerLevel (room user level : Value) :
    Keeps R (setPowerLevel i room user level) := by
  refine Keeps.bind hR.toFrame (keeps_powerLevels hR room) fun record =>
    Keeps.check hR.toFrame fun current => Keeps.check hR.toFrame fun own => ?_
  split
  · exact Keeps.bind hR.toFrame (keeps_count hR.toFrame _ _) fun _ => keeps_pure hR.toFrame _
  · exact Keeps.check hR.toFrame fun edited => (keeps_writeLevels hR room edited.toValue).map some

theorem keeps_userTyping (room typing timeout : Value) :
    Keeps R (userTyping i room typing timeout) := by
  refine Keeps.bind hR.toFrame (keeps_get hR.toFrame) fun b =>
    Keeps.bind hR.toFrame (keeps_ask hR.toFrame _) fun known => ?_
  split
  · exact Keeps.bind hR.toFrame (keeps_count hR.toFrame _ _) fun _ => keeps_pure hR.toFrame _
  · exact Keeps.bind hR.toFrame (keeps_sendTyping hR i.client room typing timeout) fun _ =>
      Keeps.bind hR.toFrame (keeps_recordTyping hR.toFrame i _ room typing timeout) fun _ =>
      keeps_pure hR.toFrame _

/-- Whatever operation is done as a user, the relation is kept. -/
theorem keeps_perform (op : Operation) : Keeps R (perform i op) := by
  have hF := hR.toFrame
  have hnull {x : Act Unit} (hx : Keeps R x) :
      Keeps R (x >>= fun _ => (pure .null : Act Value)) :=
    Keeps.bind hF hx fun _ => keeps_pure hF _
  have hregistered {α : Type} {x : Act α} (hx : Keeps R x) :
      Keeps R (ensureRegistered i >>= fun _ => x) :=
    Keeps.bind hF (keeps_ensureRegistered hR.welcomes i) fun _ => hx
  cases op with
  | register =>
    exact hnull <|
      Keeps.bind hF (keeps_sendRegister hR.welcomes i.client _ _) fun _ => keeps_pure hF _
  | ensureRegistered => exact hnull (keeps_ensureRegistered hR.welcomes i)
  | ensureJoined room ignoreCache inviter => exact hnull (keeps_ensureJoined hR _ _ _)
  | sendMessageEvent | sendMassagedMessageEvent | sendText | sendNotice | sendImage | sendVideo =>
    exact (keeps_sendMessageEvent hR _ _ _ _).map sent
  | redactEvent room event reason =>
    exact (Keeps.gated hR (hR.redaction room event reason)).map sent
  | sendStateEvent | sendMassagedStateEvent | setRoomName | setRoomTopic | setRoomAvatar =>
    exact (keeps_sendStateEvent hR _ _ _ _ _).map sent
  | stateEvent room type key => exact keeps_stateEvent hR room type key
  | state room =>
    exact (Keeps.gated hR (Keeps.absorbing hR (keeps_readRoomState hR i.client room) fun _ =>
      keeps_absorbEvents hR.toWideFrame _)).map RoomState.toValue
  | changeMembership action room user reason =>
    exact hnull (keeps_changeMembership hR action room user reason)
  | ensureInvited room user => exact hnull (keeps_ensureInvited hR room user)
  | joinedMembers room =>
    exact (Keeps.absorbing hR (keeps_readJoinedMembers hR i.client room)
      (keeps_absorbJoined hR.toWideFrame room)).map Value.map
  | members room membership notMembership =>
    exact Keeps.bind hF (Keeps.absorbing hR
      (keeps_readMembers hR i.client room membership notMembership)
      (keeps_absorbEvents hR.toWideFrame)) fun _ => keeps_pure hF _
  | member room user => exact (keeps_member hR room user).map _
  | powerLevels room => exact (keeps_powerLevels hR room).map PowerRecord.toValue
  | setPowerLevels room levels => exact (keeps_writeLevels hR room levels).map sent
  | setPowerLevel room user level => exact (keeps_setPowerLevel hR room user level).map _
  | userTyping room typing timeout =>
    exact (keeps_userTyping hR room typing timeout).map Value.bool
  | setDisplayName name => exact hnull (hregistered (keeps_sendDisplayName hR i.client name))
  | setAvatarUrl url => exact hnull (hregistered (keeps_sendAvatarUrl hR i.client url))
  | whoami => exact hregistered (keeps_readWhoami hR i.client)

end Operations

end Bridge

end VirtualUsers
