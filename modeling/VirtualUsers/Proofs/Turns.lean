import VirtualUsers.Proofs.Frames
import VirtualUsers.Proofs.Requests
/-!
# The turns of an operation

An operation takes turns with the homeserver: it sends a request, and with what came of it goes on
until it sends the next one or ends. `Turn` lists what a turn can be, `Path` puts turns together,
and `perform_walk` says that no operation does anything else. It also says how an operation can fail
because of the homeserver: only with its last request, after which it does nothing more.
-/

namespace VirtualUsers

def Failure.root : Failure → Failure
  | precondition _ cause => cause.root
  | e => e

namespace Operation

/-- The room that an operation joins its user to first, and who helps if that is forbidden. -/
def entry? : Operation → Option (Value × Option ClientId)
  | ensureJoined room _ inviter => some (room, inviter)
  | sendMessageEvent room .. | sendMassagedMessageEvent room .. | sendText room _
  | sendNotice room _ | sendImage room .. | sendVideo room .. | redactEvent room ..
  | sendStateEvent room .. | sendMassagedStateEvent room .. | stateEvent room .. | state room
  | setRoomName room _ | setRoomTopic room _ | setRoomAvatar room _ | setPowerLevels room _
  | setPowerLevel room .. => some (room, none)
  | _ => none

def typedContent (type : String) (fields : List (String × Value)) : Value :=
  .record (("msgtype", .text type) :: fields)

/-- The room, the type and the content of the message that an operation sends. -/
def message? : Operation → Option (Value × Value × Value)
  | sendMessageEvent room type content | sendMassagedMessageEvent room type content _ =>
    some (room, type, content)
  | sendText room text =>
    some (room, .text EventType.message, typedContent MessageType.text [("body", text)])
  | sendNotice room text =>
    some (room, .text EventType.message, typedContent MessageType.notice [("body", text)])
  | sendImage room body url =>
    some (room, .text EventType.message,
      typedContent MessageType.image [("body", body), ("url", url)])
  | sendVideo room body url =>
    some (room, .text EventType.message,
      typedContent MessageType.video [("body", body), ("url", url)])
  | _ => none

/-- The room, the type, the state key and the content of the state that an operation sets, if it is
not for the power levels. -/
def writes? : Operation → Option (Value × Value × Value × Value)
  | sendStateEvent room type key content | sendMassagedStateEvent room type key content _ =>
    some (room, type, key, content)
  | setRoomName room name =>
    some (room, .text EventType.roomName, .text "", .record [("name", name)])
  | setRoomTopic room topic =>
    some (room, .text EventType.roomTopic, .text "", .record [("topic", topic)])
  | setRoomAvatar room url =>
    some (room, .text EventType.roomAvatar, .text "", .record [("url", url)])
  | _ => none

def WritesLevels (room levels : Value) : Operation → Prop
  | setPowerLevels room' levels' => room = room' ∧ levels = levels'
  | setPowerLevel room' .. => room = room'
  | _ => False

def ReadsLevels (room : Value) : Operation → Prop
  | powerLevels room' | setPowerLevel room' .. => room = room'
  | _ => False

end Operation

namespace Bridge

open Attempt (ofResult)

/-! ## What a turn can be -/

def asideCounters : List Counter := [.joinCacheHits, .typingSkipped, .powerLevelNoops]

/-- Nothing but such counters is changed. -/
structure Idle (b b' : Bridge) : Prop extends SameService b b' where
  store : b'.store = b.store
  traffic : b'.traffic = b.traffic
  answers : b'.answers = b.answers
  tally : ∃ cs : List Counter, (∀ c ∈ cs, c ∈ asideCounters) ∧
    b'.tally = cs.foldl (fun t c => t.add c 1) b.tally

/-- After an exchange one goes on with what came of it. -/
def Follows (b : Bridge) (x : Exchange) (next : Except Failure Value → Act α) (b' : Bridge) :
    Prop :=
  ∃ h, Heard b x h ∧ b' = ((next x.content).outcome h).2

/-- Reads an answer and goes on. A refusal is passed on. -/
def reading (read : Value → Except Failure α) (next : α → Act β) (r : Except Failure Value) :
    Act β :=
  ofResult (r >>= read) >>= next

def recordRegistered (i : Intent) (r : Except Failure Value) : Act Unit := do
  recordClaim i (r.map fun _ => ())
  markRegistered (.text i.userId)

def recordInvited (room user : Value) (r : Except Failure Value) : Act Unit := do
  acceptMember room user (← Attempt.result
    (reading (fun _ => .ok ()) (fun _ => recordChange .invite room user) r))

def Knows (i : Intent) (s : Store) : Prop :=
  Key.text i.userId ∈ s.registered

instance (i : Intent) (s : Store) : Decidable (Knows i s) :=
  inferInstanceAs (Decidable (Key.text i.userId ∈ s.registered))

/-- The last request was the one of the user to join the room, and it was forbidden. -/
def JoinForbidden (i : Intent) (room : Value) (b : Bridge) : Prop :=
  ∃ y q, b.traffic.getLast? = some y ∧ y.Joins (b.clientAt i.client) room ∧ y.RefusedWith q ∧
    q.kind = .forbidden

/-- A turn of an operation that `i` does: the request that it sends from `b` on, and the bridge
before the next one. -/
inductive Turn (i : Intent) (op : Operation) (b : Bridge) (x : Exchange) (b' : Bridge) : Prop
  | registered (hop : op = .register)
      (hx : x.Registers (b.clientAt i.client) (.text i.localpart) (.bool true)) (h : Heard b x b')
  | claimed (hop : op ≠ .register) (hpuppet : i.puppet = false) (hnew : ¬ Knows i b.store)
      (hx : x.Registers (b.clientAt i.client) (.text i.localpart) (.bool true))
      (h : Follows b x (recordRegistered i) b')
  | joined (room : Value) (inviter : Option ClientId) (hop : op.entry? = some (room, inviter))
      (hknows : i.puppet = true ∨ Knows i b.store) (hx : x.Joins (b.clientAt i.client) room)
      (h : Follows b x (reading (joinedRoom room) (recordJoin i)) b')
  | helped (room : Value) (inviter : Option ClientId) (helper : ClientId)
      (hop : op.entry? = some (room, inviter)) (hhelper : (inviter <|> i.inviter) = some helper)
      (hx : x.ChangesMembership (b.clientAt helper) .invite room (.text i.userId) .null)
      (h : Heard ((count .joinInviteFallbacks 1).outcome b).2 x b')
      (hforbidden : JoinForbidden i room b)
  | messageSent (room type content timestamp : Value)
      (hop : op.message? = some (room, type, content))
      (hx : x.SendsMessage (b.clientAt i.client) room type content timestamp)
      (h : Follows b x (reading eventId fun _ => count .eventsSent 1) b')
  | redacted (room event reason : Value) (hop : op = .redactEvent room event reason)
      (hx : x.Redacts (b.clientAt i.client) room event reason) (h : Heard b x b')
  | stateWritten (room type key content timestamp : Value)
      (hop : op.writes? = some (room, type, key, content))
      (hx : x.WritesState (b.clientAt i.client) room type key content timestamp)
      (h : Follows b x (reading eventId (recordState i room type key content)) b')
  | levelsWritten (room levels : Value) (hop : op.WritesLevels room levels)
      (hx : x.WritesState (b.clientAt i.client) room (.text EventType.powerLevels) (.text "") levels
        .null)
      (h : Follows b x (reading eventId fun id => do
        recordState i room (.text EventType.powerLevels) (.text "") levels id
        onStore (Store.setPowerLevels room levels)) b')
  | stateRead (room type key : Value) (hop : op = .stateEvent room type key)
      (hx : x.ReadsState (b.clientAt i.client) room type key)
      (h : Follows b x (reading .ok fun content =>
        absorbEvents [{ room, type, stateKey := key, content }]) b')
  | roomStateRead (room : Value) (hop : op = .state room)
      (hx : x.ReadsRoomState (b.clientAt i.client) room)
      (h : Follows b x (reading (stateOf room) fun state => do
        count .stateAbsorbed (← absorbState state)) b')
  | membershipChanged (action : MembershipAction) (room user reason : Value)
      (hop : op = .changeMembership action room user reason)
      (hx : x.ChangesMembership (b.clientAt i.client) action room user reason)
      (h : Follows b x (reading (fun _ => .ok ()) fun _ => recordChange action room user) b')
  | invited (room user : Value) (hop : op = .ensureInvited room user)
      (hx : x.ChangesMembership (b.clientAt i.client) .invite room user .null)
      (h : Follows b x (recordInvited room user) b')
  | joinedMembersRead (room : Value) (hop : op = .joinedMembers room)
      (hx : x.ReadsJoinedMembers (b.clientAt i.client) room)
      (h : Follows b x (reading joinedOf fun joined => do
        count .stateAbsorbed (← absorbJoined room joined)) b')
  | membersRead (room membership notMembership : Value)
      (hop : op = .members room membership notMembership)
      (hx : x.ReadsMembers (b.clientAt i.client) room)
      (h : Follows b x (reading (membersOf room) fun events => do
        count .stateAbsorbed (← absorbEvents events)) b')
  | memberRead (room user : Value) (hop : op = .member room user)
      (hnew : b.store.member? room user = .ok none)
      (hx : x.ReadsState (b.clientAt i.client) room (.text EventType.member) user)
      (h : Follows b x (recordMember room user) b')
  | levelsRead (room : Value) (hop : op.ReadsLevels room)
      (hx : x.ReadsState (b.clientAt i.client) room (.text EventType.powerLevels) (.text ""))
      (h : Follows b x (reading .ok (recordLevels room)) b')
  | typingSent (room typing timeout : Value) (hop : op = .userTyping room typing timeout)
      (hx : x.Types (b.clientAt i.client) room typing)
      (h : Follows b x (reading (fun _ => .ok ()) fun _ =>
        recordTyping i b.now room typing timeout) b')
  | displayNameSet (name : Value) (hop : op = .setDisplayName name)
      (hknows : i.puppet = true ∨ Knows i b.store)
      (hx : x.SetsDisplayName (b.clientAt i.client) name) (h : Heard b x b')
  | avatarUrlSet (url : Value) (hop : op = .setAvatarUrl url)
      (hknows : i.puppet = true ∨ Knows i b.store)
      (hx : x.SetsAvatarUrl (b.clientAt i.client) url) (h : Heard b x b')
  | whoamiAsked (hop : op = .whoami) (hknows : i.puppet = true ∨ Knows i b.store)
      (hx : x.AsksWhoami (b.clientAt i.client)) (h : Heard b x b')

/-- Turns one after the other, with the exchanges that they made. -/
inductive Path (i : Intent) (op : Operation) : Bridge → List Exchange → Bridge → Prop
  | still {b b' : Bridge} (h : Idle b b') : Path i op b [] b'
  | turn {b b₁ b₂ b' : Bridge} {x : Exchange} {xs : List Exchange} (hidle : Idle b b₁)
      (h : Turn i op b₁ x b₂) (rest : Path i op b₂ xs b') : Path i op b (x :: xs) b'

def EndsRefused (e : Failure) (xs : List Exchange) (b' : Bridge) : Prop :=
  ∃ made x q, xs = made ++ [x] ∧ x.RefusedWith q ∧ e.root = .request q ∧ b'.store = x.store ∧
    b'.tally = x.tally

/-- What came of `b` came of it in turns, and a failure of the homeserver was the end. -/
def Walk (i : Intent) (op : Operation) (b : Bridge) (out : Except Failure α × Bridge) : Prop :=
  ∃ xs, Path i op b xs out.2 ∧
    ∀ e, out.1 = .error e → e.FromHomeserver → EndsRefused e xs out.2

/-! ## What all turns do -/

/-- The traffic has grown by an exchange, whose request was sent from `b`. -/
structure Grown (b : Bridge) (x : Exchange) (b' : Bridge) : Prop extends SameService b b' where
  traffic : b'.traffic = b.traffic ++ [x]
  answers : b'.answers = b.answers.tail
  storeThen : x.store = b.store
  answer : x.answer = b.answers.head?.getD .empty

section Turns

variable {α β : Type} {i : Intent} {op : Operation} {b b' : Bridge} {x : Exchange}

theorem Heard.grown (h : Heard b x b') : Grown b x b' :=
  ⟨h.toSameService, h.traffic, h.answers, h.storeThen, h.answer⟩

theorem Grown.silent {b'' : Bridge} (h : Grown b x b') (h' : Silent b' b'') : Grown b x b'' :=
  ⟨h.toSameService.trans h'.toSameService, h'.traffic.trans h.traffic,
    h'.answers.trans h.answers, h.storeThen, h.answer⟩

theorem keeps_reading {R : Bridge → Bridge → Prop} (hR : Frame R) {read : Value → Except Failure α}
    {next : α → Act β} (hnext : ∀ a, Keeps R (next a)) (r : Except Failure Value) :
    Keeps R (reading read next r) :=
  Keeps.bind hR (keeps_ofResult hR _) hnext

theorem keeps_recordInvited {R : Bridge → Bridge → Prop} (hR : WideFrame R) (room user : Value)
    (r : Except Failure Value) : Keeps R (recordInvited room user r) :=
  Keeps.bind hR.toFrame
    (keeps_reading hR.toFrame (fun _ => keeps_recordChange hR .invite room user) r).result
    (keeps_acceptMember hR.toFrame room user)

theorem quiet_recordRegistered (i : Intent) (r : Except Failure Value) :
    Quiet (recordRegistered i r) :=
  Keeps.bind frame_silent.toFrame (keeps_recordClaim frame_silent.toFrame i _) fun _ =>
    quiet_markRegistered i.userId

/-- The bridge has heard an answer, and what was done with it keeps all frames. -/
def Settles (b : Bridge) (x : Exchange) (b' : Bridge) : Prop :=
  ∃ c, Grown b x c ∧ c.store = b.store ∧ ∀ {R : Bridge → Bridge → Prop}, WideFrame R → R c b'

theorem Heard.settles (h : Heard b x b') : Settles b x b' :=
  ⟨b', h.grown, h.store, fun hR => hR.refl b'⟩

theorem Follows.settles {next : Except Failure Value → Act α} (h : Follows b x next b')
    (hnext : ∀ {R : Bridge → Bridge → Prop}, WideFrame R → ∀ r, Keeps R (next r)) :
    Settles b x b' := by
  obtain ⟨c, hheard, rfl⟩ := h
  exact ⟨c, hheard.grown, hheard.store, fun hR => hnext hR x.content c⟩

/-- In every turn but one that registers a user, frames are kept. -/
theorem Turn.settles (h : Turn i op b x b') :
    (op ≠ .register ∧ i.puppet = false ∧ ¬ Knows i b.store ∧
      x.Registers (b.clientAt i.client) (.text i.localpart) (.bool true) ∧
      Follows b x (recordRegistered i) b') ∨ Settles b x b' := by
  cases h with
  | claimed hop hpuppet hnew hx h => exact .inl ⟨hop, hpuppet, hnew, hx, h⟩
  | registered _ _ h | redacted _ _ _ _ _ h | displayNameSet _ _ _ _ h | avatarUrlSet _ _ _ _ h
  | whoamiAsked _ _ _ h => exact .inr h.settles
  | helped _ _ _ _ _ _ h =>
    exact .inr ⟨b', ⟨⟨h.now, h.settings, h.registryPath, h.intents, h.clientOf, h.senders⟩,
      h.traffic, h.answers, h.storeThen, h.answer⟩, h.store, fun hR => hR.refl b'⟩
  | joined _ _ _ _ _ h =>
    exact .inr (h.settles fun hR => keeps_reading hR.toFrame (keeps_recordJoin hR i))
  | messageSent _ _ _ _ _ _ h =>
    exact .inr (h.settles fun hR => keeps_reading hR.toFrame fun _ => keeps_count hR.toFrame _ _)
  | stateWritten room type key content _ _ _ h =>
    exact .inr (h.settles fun hR =>
      keeps_reading hR.toFrame (keeps_recordState hR i room type key content))
  | levelsWritten room levels _ _ h =>
    exact .inr (h.settles fun hR => keeps_reading hR.toFrame fun id =>
      Keeps.bind hR.toFrame (keeps_recordState hR i room _ _ levels id) fun _ =>
        keeps_setPowerLevels hR.toFrame room levels)
  | stateRead _ _ _ _ _ h =>
    exact .inr (h.settles fun hR => keeps_reading hR.toFrame fun _ => keeps_absorbEvents hR _)
  | roomStateRead _ _ _ h =>
    exact .inr (h.settles fun hR => keeps_reading hR.toFrame fun _ =>
      keeps_countAbsorbed hR.toFrame (keeps_absorbEvents hR _))
  | membershipChanged action room user _ _ _ h =>
    exact .inr (h.settles fun hR =>
      keeps_reading hR.toFrame fun _ => keeps_recordChange hR action room user)
  | invited room user _ _ h => exact .inr (h.settles fun hR => keeps_recordInvited hR room user)
  | joinedMembersRead room _ _ h =>
    exact .inr (h.settles fun hR => keeps_reading hR.toFrame fun joined =>
      keeps_countAbsorbed hR.toFrame (keeps_absorbJoined hR room joined))
  | membersRead _ _ _ _ _ h =>
    exact .inr (h.settles fun hR => keeps_reading hR.toFrame fun events =>
      keeps_countAbsorbed hR.toFrame (keeps_absorbEvents hR events))
  | memberRead room user _ _ _ h =>
    exact .inr (h.settles fun hR => keeps_recordMember hR room user)
  | levelsRead room _ _ h =>
    exact .inr (h.settles fun hR => keeps_reading hR.toFrame (keeps_recordLevels hR.toFrame room))
  | typingSent room typing timeout _ _ h =>
    exact .inr (h.settles fun hR => keeps_reading hR.toFrame fun _ =>
      keeps_recordTyping hR.toFrame i b.now room typing timeout)

theorem Turn.grown (h : Turn i op b x b') : Grown b x b' := by
  rcases h.settles with ⟨-, -, -, -, c, hheard, rfl⟩ | ⟨c, hgrown, -, hframe⟩
  · exact hheard.grown.silent (quiet_recordRegistered i x.content c)
  · exact hgrown.silent (hframe frame_silent)

theorem Path.sameService {xs : List Exchange} (h : Path i op b xs b') : SameService b b' := by
  induction h with
  | still h => exact h.toSameService
  | turn hidle hturn _ ih => exact (hidle.toSameService.trans hturn.grown.toSameService).trans ih

/-- The exchanges of a path are what the traffic has grown by. -/
theorem Path.traffic {xs : List Exchange} (h : Path i op b xs b') :
    b'.traffic = b.traffic ++ xs := by
  induction h with
  | still h => rw [h.traffic, List.append_nil]
  | turn hidle hturn _ ih =>
    rw [ih, hturn.grown.traffic, hidle.traffic, List.append_assoc, List.singleton_append]

end Turns

/-! ## Putting turns together -/

section Rules

variable {α β γ : Type} {i : Intent} {op : Operation} {b b₁ b' b'' : Bridge}
  {sends : Exchange → Prop} {read : Value → Except Failure α}

theorem Idle.refl (b : Bridge) : Idle b b :=
  ⟨.refl b, rfl, rfl, rfl, [], by simp, rfl⟩

theorem Untouched.idle (h : Untouched b b') : Idle b b' :=
  ⟨h.toSameService, h.store, h.traffic, h.answers, [], by simp, h.tally⟩

theorem Idle.trans (h : Idle b b') (h' : Idle b' b'') : Idle b b'' := by
  obtain ⟨cs, hcs, htally⟩ := h.tally
  obtain ⟨ds, hds, htally'⟩ := h'.tally
  refine ⟨h.toSameService.trans h'.toSameService, h'.store.trans h.store,
    h'.traffic.trans h.traffic, h'.answers.trans h.answers, cs ++ ds, ?_, ?_⟩
  · intro c hc
    rcases List.mem_append.mp hc with hc | hc
    · exact hcs c hc
    · exact hds c hc
  · rw [htally', htally, List.foldl_append]

theorem idle_count {c : Counter} (hc : c ∈ asideCounters) (b : Bridge) :
    Idle b ((count c 1).outcome b).2 :=
  ⟨⟨rfl, rfl, rfl, rfl, rfl, rfl⟩, rfl, rfl, rfl, [c], by simpa using hc, rfl⟩

theorem Path.idle (h : Idle b b₁) {xs : List Exchange} (h' : Path i op b₁ xs b') :
    Path i op b xs b' := by
  cases h' with
  | still hidle => exact .still (h.trans hidle)
  | turn hidle hturn rest => exact .turn (h.trans hidle) hturn rest

theorem Path.trans {xs ys : List Exchange} (h : Path i op b xs b') (h' : Path i op b' ys b'') :
    Path i op b (xs ++ ys) b'' := by
  induction h with
  | still hidle => exact h'.idle hidle
  | turn hidle hturn _ ih => exact .turn hidle hturn (ih h')

/-- Any exchange of a path is the one of a turn between two paths. -/
theorem Path.split {xs ys : List Exchange} {x : Exchange} (h : Path i op b (xs ++ x :: ys) b') :
    ∃ c c', Path i op b xs c ∧ Turn i op c x c' ∧ Path i op c' ys b' := by
  induction xs generalizing b with
  | nil =>
    cases h with
    | turn hidle hturn rest => exact ⟨_, _, .still hidle, hturn, rest⟩
  | cons y xs ih =>
    cases h with
    | turn hidle hturn rest =>
      obtain ⟨c, c', hbefore, hx, hafter⟩ := ih rest
      exact ⟨c, c', .turn hidle hturn hbefore, hx, hafter⟩

theorem Path.one {x : Exchange} (h : Turn i op b x b') : Path i op b [x] b' :=
  .turn (.refl b) h (.still (.refl b'))

/-- Without a request there is nothing that the homeserver could refuse. -/
theorem Walk.still {out : Except Failure α × Bridge} (h : Idle b out.2)
    (hlocal : StaysLocal out.1) : Walk i op b out :=
  ⟨[], .still h, fun e he hfrom => absurd hfrom (hlocal e he)⟩

theorem EndsRefused.after {e : Failure} {ys : List Exchange} (h : EndsRefused e ys b')
    (xs : List Exchange) : EndsRefused e (xs ++ ys) b' := by
  obtain ⟨made, x, q, rfl, hx, hroot, hstore, htally⟩ := h
  exact ⟨xs ++ made, x, q, (List.append_assoc xs made [x]).symm, hx, hroot, hstore, htally⟩

theorem Walk.bind {x : Act α} {f : α → Act β} (hx : Walk i op b (x.outcome b))
    (hf : ∀ a b', x.outcome b = (.ok a, b') → Walk i op b' ((f a).outcome b')) :
    Walk i op b ((x >>= f).outcome b) := by
  obtain ⟨xs, hpath, hends⟩ := hx
  rw [Attempt.outcome_bind]
  rcases hout : x.outcome b with ⟨e | a, b'⟩
  · rw [hout] at hpath hends
    refine ⟨xs, hpath, fun e' he' => ?_⟩
    cases he'
    exact hends e rfl
  · obtain ⟨ys, hpath', hends'⟩ := hf a b' hout
    rw [hout] at hpath
    exact ⟨xs ++ ys, hpath.trans hpath', fun e he hfrom => (hends' e he hfrom).after xs⟩

theorem Walk.map {x : Act α} (g : α → β) (hx : Walk i op b (x.outcome b)) :
    Walk i op b ((g <$> x).outcome b) := by
  obtain ⟨xs, hpath, hends⟩ := hx
  rw [Attempt.outcome_map]
  refine ⟨xs, hpath, fun e he => hends e ?_⟩
  cases hout : (x.outcome b).1 with
  | error e' => rw [hout] at he; cases he; rfl
  | ok a => rw [hout] at he; cases he

theorem Walk.ofResult {r : Except Failure α} {f : α → Act β} (hr : StaysLocal r)
    (hf : ∀ a, Walk i op b ((f a).outcome b)) :
    Walk i op b ((Attempt.ofResult r >>= f).outcome b) := by
  refine Walk.bind (.still ?_ ?_) fun a b' hout => ?_
  · rw [Attempt.outcome_ofResult]
    exact .refl b
  · rw [Attempt.outcome_ofResult]
    exact hr
  · rw [Attempt.outcome_ofResult] at hout
    cases hout
    exact hf a

theorem Walk.ask {question : Store → Except Failure α} {f : α → Act β}
    (hq : StaysLocal (question b.store))
    (hf : ∀ a, question b.store = .ok a → Walk i op b ((f a).outcome b)) :
    Walk i op b ((ask question >>= f).outcome b) := by
  rw [Attempt.outcome_bind, outcome_ask]
  cases hr : question b.store with
  | ok a => exact hf a hr
  | error e => exact .still (.refl b) (staysLocal_error.mpr (hq e hr))

/-- A stage only gives failures another name. -/
theorem inStage_eq (stage : String) (isCause : Failure → Bool) (x : Act α) :
    inStage stage isCause x = Attempt.result x >>= fun r =>
      Attempt.ofResult (r.mapError fun e => if isCause e then .precondition stage e else e) := by
  rw [inStage]
  congr 1
  funext r
  cases r with
  | ok a => rfl
  | error e =>
    rw [Attempt.mapError_error]
    cases hcause : isCause e <;> simp [hcause] <;> rfl

theorem Walk.inStage {stage : String} {isCause : Failure → Bool} {x : Act α} {c : Bridge}
    (hx : Walk i op b (x.outcome c)) (hcause : ∀ e, isCause e → e.FromHomeserver) :
    Walk i op b ((inStage stage isCause x).outcome c) := by
  obtain ⟨xs, hpath, hends⟩ := hx
  rw [inStage_eq, Attempt.outcome_bind, Attempt.outcome_result, Attempt.follow_ok,
    Attempt.outcome_ofResult]
  refine ⟨xs, hpath, fun e he hfrom => ?_⟩
  cases hout : (x.outcome c).1 with
  | ok a =>
    rw [hout] at he
    cases he
  | error e' =>
    rw [hout, Attempt.mapError_error] at he
    by_cases hc : isCause e'
    · simp only [hc, if_true, Except.error.injEq] at he
      subst he
      exact hends e' hout (hcause e' hc)
    · simp only [hc] at he
      cases he
      exact hends e' hout hfrom

/-- A request that was sent is a turn, and if it is refused then either that is tolerated or it is
the end. -/
theorem Walk.heard {ask : Act α} {next : Except Failure α → Act β} (h : Asks b sends read ask)
    (hread : ∀ data, StaysLocal (read data)) (hok : ∀ a, (next (.ok a)).StaysLocal)
    (hlocal : ∀ e, ¬ e.FromHomeserver → next (.error e) = throw e)
    (hrefused : ∀ q h e, ((next (.error (.request q))).outcome h).1 = .error e →
      e.FromHomeserver → e.root = .request q ∧
        ((next (.error (.request q))).outcome h).2 = h)
    (hturn : ∀ x h, sends x → Heard b x h →
      Turn i op b x ((next (x.content >>= read)).outcome h).2) :
    Walk i op b ((Attempt.result ask >>= next).outcome b) := by
  rw [Attempt.outcome_bind, Attempt.outcome_result, Attempt.follow_ok]
  rcases h with ⟨e, b', hout, he, hb'⟩ | ⟨x, b', hout, hx, hb'⟩
  · rw [hout, hlocal e he, Attempt.outcome_throw]
    exact .still hb'.idle (staysLocal_error.mpr he)
  · rw [hout]
    refine ⟨[x], .one (hturn x b' hx hb'), fun e he hfrom => ?_⟩
    change ((next (x.content >>= read)).outcome b').1 = .error e at he
    cases hc : x.content with
    | error f =>
      have hbind : x.content >>= read = .error f := by rw [hc]; rfl
      rw [hbind] at he
      by_cases hf : f.FromHomeserver
      · obtain ⟨q, rfl⟩ := Answer.request_of_content hc hf
        obtain ⟨hroot, hsame⟩ := hrefused q b' e he hfrom
        refine ⟨[], x, q, rfl, hc, hroot, ?_, ?_⟩
        · change ((next (.error (.request q))).outcome b').2.store = x.store
          rw [hsame, hb'.store, hb'.storeThen]
        · change ((next (.error (.request q))).outcome b').2.tally = x.tally
          rw [hsame, hb'.tally, hb'.tallyThen]
      · rw [hlocal f hf] at he
        cases he
        exact absurd hfrom hf
    | ok data =>
      have hbind : x.content >>= read = read data := by rw [hc]; rfl
      rw [hbind] at he
      cases hr : read data with
      | error f =>
        have hf := hread data f hr
        rw [hr, hlocal f hf] at he
        cases he
        exact absurd hfrom hf
      | ok a =>
        rw [hr] at he
        exact absurd hfrom (hok a b' e he)

/-- A request whose refusal is passed on. What is returned in the end does not matter. -/
theorem Walk.asked {ask : Act α} {next : α → Act β} {next' : α → Act γ}
    (h : Asks b sends read ask) (hread : ∀ data, StaysLocal (read data))
    (hnext : ∀ a, (next a).StaysLocal)
    (hsame : ∀ a h, ((next a).outcome h).2 = ((next' a).outcome h).2)
    (hturn : ∀ x, sends x → ∀ b', Follows b x (reading read next') b' → Turn i op b x b') :
    Walk i op b ((ask >>= next).outcome b) := by
  rw [Attempt.outcome_bind_result]
  refine Walk.heard h hread hnext (fun e _ => rfl) (fun q h' e he _ => ?_)
    fun x h' hx hheard => hturn x hx _ ⟨h', hheard, ?_⟩
  · cases he
    exact ⟨rfl, rfl⟩
  · rw [reading]
    cases x.content >>= read with
    | error e => rfl
    | ok a => exact hsame a h'

end Rules

end Bridge

end VirtualUsers
