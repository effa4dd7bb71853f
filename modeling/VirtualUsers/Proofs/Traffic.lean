import VirtualUsers.Proofs.LocalFailures
/-!
# Requests and their traces

What a request leaves behind: one exchange at the end of the traffic, which carries the store and
the tally as they were when it was sent. Everything else about a bridge, notes and transaction
numbers apart, is as before until the answer is read.
-/

namespace VirtualUsers

namespace Exchange

def content (x : Exchange) : Except Failure Value :=
  x.answer.content x.request.endpoint

def Accepted (x : Exchange) : Prop :=
  ∃ data, x.content = .ok data

def RefusedWith (x : Exchange) (e : RequestError) : Prop :=
  x.content = .error (.request e)

def IsFrom (c : Client) (endpoint : Endpoint) (body : Value) (params : List (String × Value))
    (asUser : Bool) (x : Exchange) : Prop :=
  x.sender = c.user ∧ x.request = c.request endpoint body params asUser

theorem IsFrom.endpoint_eq {c : Client} {endpoint : Endpoint} {body : Value}
    {params : List (String × Value)} {asUser : Bool} {x : Exchange}
    (h : x.IsFrom c endpoint body params asUser) : x.request.endpoint = endpoint := by
  rw [h.2]
  rfl

theorem IsFrom.body_eq {c : Client} {endpoint : Endpoint} {body : Value}
    {params : List (String × Value)} {asUser : Bool} {x : Exchange}
    (h : x.IsFrom c endpoint body params asUser) : x.request.body = body := by
  rw [h.2]
  rfl

end Exchange

/-- The only failure of a homeserver that an answer gives is a refused request. -/
theorem Answer.request_of_content {a : Answer} {endpoint : Endpoint} {e : Failure}
    (h : a.content endpoint = .error e) (he : e.FromHomeserver) : ∃ q, e = .request q := by
  cases a with
  | unreachable text =>
    cases h
    exact ⟨_, rfl⟩
  | reply status body =>
    simp only [Answer.content] at h
    split at h
    · have hlocal := Answer.staysLocal_refusal status (body.getD .null)
      cases hr : Answer.refusal status (body.getD .null) with
      | error f =>
        rw [hr] at h
        cases h
        exact absurd he (hlocal _ hr)
      | ok q =>
        rw [hr] at h
        cases h
        exact ⟨q, rfl⟩
    · cases h

namespace Bridge

def clientAt (b : Bridge) (c : ClientId) : Client :=
  (b.clients[c]?).getD default

def senders (b : Bridge) : List Client :=
  b.clients.map fun c => c.withUser c.user

/-- The same service: only what it knows and counts, its notes, its files and its traffic may
differ. -/
structure SameService (b b' : Bridge) : Prop where
  now : b'.now = b.now
  settings : b'.settings = b.settings
  registryPath : b'.registryPath = b.registryPath
  intents : b'.intents = b.intents
  clientOf : b'.clientOf = b.clientOf
  senders : b'.senders = b.senders

/-- A change that neither the store, nor the tally, nor the homeserver sees. -/
structure Untouched (b b' : Bridge) : Prop extends SameService b b' where
  store : b'.store = b.store
  tally : b'.tally = b.tally
  traffic : b'.traffic = b.traffic
  answers : b'.answers = b.answers

/-- The bridge after an exchange whose answer was not looked at yet. -/
structure Heard (b : Bridge) (x : Exchange) (b' : Bridge) : Prop extends SameService b b' where
  store : b'.store = b.store
  tally : b'.tally = b.tally
  traffic : b'.traffic = b.traffic ++ [x]
  answers : b'.answers = b.answers.tail
  storeThen : x.store = b.store
  tallyThen : x.tally = b.tally
  answer : x.answer = b.answers.head?.getD .empty

variable {b b' b'' : Bridge} {x : Exchange}

namespace SameService

theorem refl (b : Bridge) : SameService b b := ⟨rfl, rfl, rfl, rfl, rfl, rfl⟩

theorem trans (h : SameService b b') (h' : SameService b' b'') : SameService b b'' :=
  ⟨h'.now.trans h.now, h'.settings.trans h.settings, h'.registryPath.trans h.registryPath,
    h'.intents.trans h.intents, h'.clientOf.trans h.clientOf, h'.senders.trans h.senders⟩

theorem sender (h : SameService b b') (c : ClientId) :
    (b'.clientAt c).withUser (b'.clientAt c).user =
      (b.clientAt c).withUser (b.clientAt c).user := by
  have hat (a : Bridge) :
      (a.clientAt c).withUser (a.clientAt c).user = (a.senders[c]?).getD default := by
    simp only [Bridge.clientAt, Bridge.senders, List.getElem?_map]
    cases a.clients[c]? <;> rfl
  rw [hat, hat, h.senders]

theorem user (h : SameService b b') (c : ClientId) :
    (b'.clientAt c).user = (b.clientAt c).user := by
  have hsender := congrArg Client.user (h.sender c)
  exact hsender

theorem request (h : SameService b b') (c : ClientId) :
    (b'.clientAt c).request = (b.clientAt c).request := by
  have hsender := congrArg Client.request (h.sender c)
  exact hsender

/-- Exchanges of a client look the same before and after. -/
theorem isFrom (h : SameService b b') {c : ClientId} {endpoint : Endpoint} {body : Value}
    {params : List (String × Value)} {asUser : Bool} :
    x.IsFrom (b'.clientAt c) endpoint body params asUser ↔
      x.IsFrom (b.clientAt c) endpoint body params asUser := by
  rw [Exchange.IsFrom, Exchange.IsFrom, h.user, h.request]

end SameService

namespace Untouched

theorem refl (b : Bridge) : Untouched b b := ⟨.refl b, rfl, rfl, rfl, rfl⟩

theorem trans (h : Untouched b b') (h' : Untouched b' b'') : Untouched b b'' :=
  ⟨h.toSameService.trans h'.toSameService, h'.store.trans h.store, h'.tally.trans h.tally,
    h'.traffic.trans h.traffic, h'.answers.trans h.answers⟩

theorem heard (h : Untouched b b') (h' : Heard b' x b'') : Heard b x b'' :=
  ⟨h.toSameService.trans h'.toSameService, h'.store.trans h.store, h'.tally.trans h.tally,
    by rw [h'.traffic, h.traffic], by rw [h'.answers, h.answers], h'.storeThen.trans h.store,
    h'.tallyThen.trans h.tally, by rw [h'.answer, h.answers]⟩

end Untouched

/-! ## Steps without a request -/

@[simp] theorem outcome_client (c : ClientId) (b : Bridge) :
    (client c).outcome b = (.ok (b.clientAt c), b) := rfl

@[simp] theorem outcome_count (c : Counter) (n : Int) (b : Bridge) :
    (count c n).outcome b = (.ok (), { b with tally := b.tally.add c n }) := rfl

@[simp] theorem outcome_onStore (x : Attempt Store α) (b : Bridge) :
    (onStore x).outcome b =
      ((x.outcome b.store).1, { b with store := (x.outcome b.store).2 }) := by
  simp [onStore]

@[simp] theorem outcome_ask (question : Store → Except Failure α) (b : Bridge) :
    (ask question).outcome b = (question b.store, b) := by
  simp [ask]

def noted (b : Bridge) (name : String) (level : Int) (text : String) : Bridge :=
  ((note name level text).outcome b).2

section Notes

variable (b : Bridge) (name : String) (level : Int) (text : String)

@[simp] theorem outcome_debug :
    (debug name text).outcome b = (.ok (), b.noted name 10 text) := rfl

/-- A note is no change that anything but the journal and the files shows. -/
theorem untouched_noted : Untouched b (b.noted name level text) :=
  ⟨⟨rfl, rfl, rfl, rfl, rfl, rfl⟩, rfl, rfl, rfl, rfl⟩

end Notes

/-- A request leaves one exchange, and its result is what came of that. -/
theorem outcome_send (c : ClientId) (endpoint : Endpoint) (body : Value)
    (params : List (String × Value)) (asUser : Bool) (b : Bridge) :
    ∃ x b', (send c endpoint body params asUser).outcome b = (x.content, b') ∧
      x.IsFrom (b.clientAt c) endpoint body params asUser ∧ Heard b x b' := by
  let x : Exchange := {
    sender := (b.clientAt c).user
    request := (b.clientAt c).request endpoint body params asUser
    store := b.store
    tally := b.tally
    answer := b.answers.head?.getD .empty }
  let noted := b.noted "mxintent.transport" 10
    (endpoint.method ++ " " ++ endpoint.path ++ " as=" ++ (b.clientAt c).user.display)
  refine ⟨x, { noted with answers := b.answers.tail, traffic := b.traffic ++ [x] }, ?_, ⟨rfl, rfl⟩,
    ⟨⟨rfl, rfl, rfl, rfl, rfl, rfl⟩, rfl, rfl, rfl, rfl, rfl, rfl, rfl⟩⟩
  simp only [send, exchange, Attempt.outcome_bind, outcome_client, Attempt.follow_ok, outcome_debug,
    Attempt.outcome_get, Attempt.outcome_set, Attempt.outcome_pure, Attempt.outcome_ofResult]
  rfl

end Bridge

end VirtualUsers
