import VirtualUsers.Proofs.Refusals
/-!
# Given times

A message or a state can be sent with a time of its own. Apart from that it is sent like any other:
nothing that is done before or afterwards looks at what was sent. Main statement: two runs, with and
without a time, give the same result and leave the same bridge, but for the time among the
parameters of the one request that sends the event.
-/

namespace VirtualUsers

def Exchange.timed (n : Int) (x : Exchange) : Exchange :=
  { x with request := { x.request with params := ("ts", .int n) :: x.request.params } }

namespace Bridge

open Attempt (ofResult)

variable {α β : Type}

/-! ## Acts that do not look at what was sent -/

def Blind (x : Act α) : Prop :=
  ∀ b t, x.outcome { b with traffic := t } =
    ((x.outcome b).1, { (x.outcome b).2 with traffic := t })

theorem Blind.traffic {x : Act α} (h : Blind x) (b : Bridge) :
    (x.outcome b).2.traffic = b.traffic :=
  congrArg (fun o => o.2.traffic) (h b b.traffic)

theorem blind_pure (a : α) : Blind (pure a) := fun _ _ => rfl

theorem blind_throw (e : Failure) : Blind (throw e : Act α) := fun _ _ => rfl

theorem blind_count (c : Counter) (n : Int) : Blind (count c n) := fun _ _ => rfl

theorem blind_note (name : String) (level : Int) (text : String) : Blind (note name level text) :=
  fun _ _ => rfl

theorem blind_onStore (x : Attempt Store α) : Blind (onStore x) := by
  intro b t
  rw [outcome_onStore, outcome_onStore]

theorem blind_nextTransaction (c : ClientId) : Blind (nextTransaction c) := fun _ _ => rfl

theorem Blind.bind {x : Act α} {f : α → Act β} (hx : Blind x) (hf : ∀ a, Blind (f a)) :
    Blind (x >>= f) := by
  intro b t
  rw [Attempt.outcome_bind, Attempt.outcome_bind, hx b t]
  rcases x.outcome b with ⟨e | a, c⟩
  · rfl
  · exact hf a c t

theorem blind_observe (e : Event) : Blind (observe e) := by
  refine (blind_onStore _).bind fun unknown => ?_
  cases unknown with
  | none => exact blind_pure _
  | some membership => exact blind_note _ _ _

theorem blind_observeSent (room type key content sender id : Value) :
    Blind (observeSent room type key content sender id) := by
  unfold observeSent
  split
  · split
    · exact blind_note _ _ _
    · exact blind_throw _
  · next copy _ =>
    intro b t
    rw [Attempt.outcome_bind, Attempt.outcome_bind, Attempt.outcome_get, Attempt.outcome_get,
      Attempt.follow_ok, Attempt.follow_ok]
    dsimp only
    split
    · exact blind_note _ _ _ b t
    · exact blind_observe _ b t

theorem blind_recordState (i : Intent) (room type key content id : Value) :
    Blind (recordState i room type key content id) :=
  (blind_count _ _).bind fun _ => blind_observeSent _ _ _ _ _ _

/-! ## Acts with and without a time -/

/-- Two runs that differ in no more than a time: after what was sent before, the first one sends at
most one request, of the given kind and without a time, and it does send it if it succeeds. The
second one sends it with the time. The results and all else that the bridges hold are the same. -/
structure DifferInTime (n : Int) (P : Endpoint → Prop) (before sent : List Exchange)
    (plain timed : Except Failure α × Bridge) : Prop where
  single : sent.length ≤ 1
  success : plain.1.isOk → sent ≠ []
  kind : ∀ x ∈ sent, P x.request.endpoint ∧ ∀ p ∈ x.request.params, p.1 ≠ "ts"
  traffic : plain.2.traffic = before ++ sent
  same : timed = (plain.1,
    { plain.2 with traffic := before ++ sent.map (Exchange.timed n) })

/-- A run that fails before anything is sent. -/
theorem differInTime_error {n : Int} {P : Endpoint → Prop} (e : Failure) (b : Bridge) :
    DifferInTime n P b.traffic [] (.error e, b) ((.error e, b) : Except Failure α × Bridge) where
  single := Nat.zero_le _
  success := Bool.noConfusion
  kind := nofun
  traffic := (List.append_nil _).symm
  same := by rw [List.map_nil, List.append_nil]

/-- The second act is like the first one, but what it sends has a time of its own. -/
def Timed (n : Int) (P : Endpoint → Prop) (x y : Act α) : Prop :=
  ∀ b, ∃ sent, DifferInTime n P b.traffic sent (x.outcome b) (y.outcome b)

section Timing

variable {n : Int} {P : Endpoint → Prop}

theorem Timed.check {r : Except Failure β} {f g : β → Act α} (h : ∀ a, Timed n P (f a) (g a)) :
    Timed n P (ofResult r >>= f) (ofResult r >>= g) := by
  cases r with
  | error e => exact fun b => ⟨[], differInTime_error e b⟩
  | ok a => exact h a

/-- What comes before the request is the same. -/
theorem Timed.after {z : Act β} {f g : β → Act α} (hz : Blind z) (h : ∀ a, Timed n P (f a) (g a)) :
    Timed n P (z >>= f) (z >>= g) := by
  intro b
  have htraffic := hz.traffic b
  rw [Attempt.outcome_bind, Attempt.outcome_bind, ← htraffic]
  rcases z.outcome b with ⟨e | a, c⟩
  · exact ⟨[], differInTime_error e c⟩
  · exact h a c

/-- What comes after the request is the same. -/
theorem Timed.bind {x y : Act β} {f : β → Act α} (h : Timed n P x y) (hf : ∀ a, Blind (f a)) :
    Timed n P (x >>= f) (y >>= f) := by
  intro b
  obtain ⟨sent, hsent⟩ := h b
  refine ⟨sent, hsent.single, fun hok => hsent.success ?_, hsent.kind, ?_, ?_⟩
  · rw [Attempt.outcome_bind] at hok
    revert hok
    rcases x.outcome b with ⟨e | a, c⟩
    · exact id
    · exact fun _ => rfl
  · rw [Attempt.outcome_bind, ← hsent.traffic]
    rcases x.outcome b with ⟨e | a, c⟩
    · rfl
    · exact (hf a).traffic c
  · rw [Attempt.outcome_bind, Attempt.outcome_bind, hsent.same]
    rcases x.outcome b with ⟨e | a, c⟩
    · rfl
    · exact hf a c _

def exchanged (b : Bridge) (c : ClientId) (endpoint : Endpoint) (body : Value)
    (params : List (String × Value)) : Exchange where
  sender := (b.clientAt c).user
  request := (b.clientAt c).request endpoint body params true
  store := b.store
  tally := b.tally
  answer := b.answers.head?.getD .empty

theorem outcome_send_exchanged (c : ClientId) (endpoint : Endpoint) (body : Value)
    (params : List (String × Value)) (b : Bridge) :
    (send c endpoint body params true).outcome b =
      ((b.exchanged c endpoint body params).content,
        { b.noted "mxintent.transport" 10
            (endpoint.method ++ " " ++ endpoint.path ++ " as=" ++ (b.clientAt c).user.display) with
          answers := b.answers.tail
          traffic := b.traffic ++ [b.exchanged c endpoint body params] }) := by
  simp only [send, exchange, Attempt.outcome_bind, outcome_client, Attempt.follow_ok, outcome_debug,
    Attempt.outcome_get, Attempt.outcome_set, Attempt.outcome_pure, Attempt.outcome_ofResult]
  rfl

theorem timed_send (c : ClientId) {endpoint : Endpoint} (h : P endpoint) (body : Value) :
    Timed n P (send c endpoint body [] true) (send c endpoint body [("ts", .int n)] true) := by
  intro b
  rw [outcome_send_exchanged, outcome_send_exchanged]
  refine ⟨[b.exchanged c endpoint body []], Nat.le_refl _, fun _ => List.cons_ne_nil _ _, ?_, rfl,
    rfl⟩
  intro x hx
  cases List.mem_singleton.mp hx
  refine ⟨h, fun p hp => ?_⟩
  cases List.mem_singleton.mp hp
  exact (by decide : "user_id" ≠ "ts")

/-- What is read from the answer is the same. -/
theorem Timed.reading {x y : Act β} (h : Timed n P x y) (read : β → Except Failure α) :
    Timed n P (x >>= fun a => ofResult (read a)) (y >>= fun a => ofResult (read a)) :=
  h.bind fun a b t => by rw [Attempt.outcome_ofResult, Attempt.outcome_ofResult]

def IsMessage (endpoint : Endpoint) : Prop :=
  ∃ room type transaction, endpoint = .sendMessage room type transaction

def IsState (endpoint : Endpoint) : Prop :=
  ∃ room type key, endpoint = .writeState room type key

theorem timed_sendMessage (c : ClientId) (room type content : Value) :
    Timed n IsMessage (sendMessage c room type content .null)
      (sendMessage c room type content (.int n)) := by
  unfold sendMessage
  -- The time decides on the parameters, which are put together before anything else.
  change Timed n IsMessage (ofResult room.segment >>= _) (ofResult room.segment >>= _)
  refine .check fun r => .check fun t => .after (blind_nextTransaction c) fun transaction => ?_
  exact .check fun body => (timed_send c ⟨r, t, transaction, rfl⟩ body).reading eventId

theorem timed_writeState (c : ClientId) (room type key content : Value) :
    Timed n IsState (writeState c room type key content .null)
      (writeState c room type key content (.int n)) := by
  unfold writeState
  change Timed n IsState (ofResult room.segment >>= _) (ofResult room.segment >>= _)
  refine .check fun r => .check fun t => .check fun k => .check fun body => ?_
  exact (timed_send c ⟨r, t, k, rfl⟩ body).reading eventId

end Timing

/-! ## Events with and without a time -/

/-- Two runs from the same bridge: both send the same requests for entry, and from then on they
differ in no more than a time. -/
def EnterAndDiffer (n : Int) (P : Endpoint → Prop) (b : Bridge)
    (plain timed : Except Failure α × Bridge) : Prop :=
  ∃ entry sent, (∀ x ∈ entry, x.IsEntry) ∧
    DifferInTime n P (b.traffic ++ entry) sent plain timed

theorem enterAndDiffer_gate {n : Int} {P : Endpoint → Prop} (i : Intent) (room : Value)
    {x y : Act α} (h : Timed n P x y) (b : Bridge) :
    EnterAndDiffer n P b ((ensureJoined i room false none >>= fun _ => x).outcome b)
      ((ensureJoined i room false none >>= fun _ => y).outcome b) := by
  obtain ⟨entry, hentry, hkind⟩ := ensureJoined_traffic i room false none b
  refine ⟨entry, ?_⟩
  rw [Attempt.outcome_bind, Attempt.outcome_bind, ← hentry]
  rcases (ensureJoined i room false none).outcome b with ⟨e | u, c⟩
  · exact ⟨[], hkind, differInTime_error e c⟩
  · obtain ⟨sent, hsent⟩ := h c
    exact ⟨sent, hkind, hsent⟩

theorem EnterAndDiffer.map {n : Int} {P : Endpoint → Prop} {b : Bridge} {x y : Act α} (g : α → β)
    (h : EnterAndDiffer n P b (x.outcome b) (y.outcome b)) :
    EnterAndDiffer n P b ((g <$> x).outcome b) ((g <$> y).outcome b) := by
  obtain ⟨entry, sent, hentry, hsent⟩ := h
  rw [Attempt.outcome_map, Attempt.outcome_map, hsent.same]
  refine ⟨entry, sent, hentry, hsent.single, fun hok => hsent.success ?_, hsent.kind,
    hsent.traffic, rfl⟩
  revert hok
  rcases x.outcome b with ⟨e | a, c⟩
  · exact id
  · exact fun _ => rfl

/-- A time of its own, whatever it is, makes no difference to how a message or a state is sent but
that its request carries it: all requests before, the result, the store, the counts, the
transactions and all else are the same. -/
theorem differ_in_given_time (i : Intent) (b : Bridge) (room type key content : Value) (n : Int) :
    EnterAndDiffer n IsMessage b
      ((perform i (.sendMessageEvent room type content)).outcome b)
      ((perform i (.sendMassagedMessageEvent room type content (.int n))).outcome b) ∧
    EnterAndDiffer n IsState b
      ((perform i (.sendStateEvent room type key content)).outcome b)
      ((perform i (.sendMassagedStateEvent room type key content (.int n))).outcome b) := by
  constructor
  · refine EnterAndDiffer.map sent (enterAndDiffer_gate i room ?_ b)
    refine (timed_sendMessage i.client room type content).bind fun id => ?_
    exact (blind_count _ _).bind fun _ => blind_pure id
  · refine EnterAndDiffer.map sent (enterAndDiffer_gate i room ?_ b)
    refine (timed_writeState i.client room type key content).bind fun id => ?_
    exact (blind_recordState i room type key content id).bind fun _ => blind_pure id

end Bridge

end VirtualUsers
