import VirtualUsers.Bridge.Service
import VirtualUsers.Proofs.Walks
/-!
# Runs of a service

A service is asked to act as its users, in any order, while events come in, clients are asked for
and the clock is set. A run keeps what could be seen of it: the requests, with the intents and the
operations that made them, and the events.
-/

namespace VirtualUsers

/-- What happens to a service from outside. -/
inductive Step where
  /-- An operation is done as the user with a localpart. -/
  | act (localpart : Value) (puppet : Bool) (op : Operation)
  | observe (e : Event)
  | client (user : Value)
  | clock (now : Int)

/-- What can be seen of a run. -/
inductive Moment where
  | asked (i : Intent) (op : Operation) (x : Exchange)
  | observed (e : Event)

/-- A service, and what was seen of it. -/
structure Run where
  bridge : Bridge
  moments : List Moment := []

namespace Moment

def exchange? : Moment → Option Exchange
  | asked _ _ x => some x
  | observed _ => none

end Moment

namespace Bridge

def newTraffic (b b' : Bridge) : List Exchange :=
  b'.traffic.drop b.traffic.length

end Bridge

namespace Run

open Bridge (newTraffic perform)

def perform (i : Intent) (op : Operation) (r : Run) : Run :=
  let b := ((Bridge.perform i op).outcome r.bridge).2
  ⟨b, r.moments ++ (newTraffic r.bridge b).map (.asked i op)⟩

def step (r : Run) : Step → Run
  | .act localpart puppet op =>
    match (Bridge.intent localpart puppet).outcome r.bridge with
    | (.ok i, b) => perform i op ⟨b, r.moments⟩
    | (.error _, b) => ⟨b, r.moments⟩
  | .observe e => ⟨((Bridge.observe e).outcome r.bridge).2, r.moments ++ [.observed e]⟩
  | .client user => ⟨((Bridge.clientFor user).outcome r.bridge).2, r.moments⟩
  | .clock now => ⟨{ r.bridge with now }, r.moments⟩

def through (steps : List Step) (b : Bridge) : Run :=
  steps.foldl step ⟨b, []⟩

/-- What holds at the start and is kept by each step holds at the end. -/
theorem through_induction {P : Run → Prop} {b : Bridge} {steps : List Step} (hstart : P ⟨b, []⟩)
    (hstep : ∀ r, ∀ s ∈ steps, P r → P (r.step s)) : P (through steps b) := by
  suffices h : ∀ r, P r → P (steps.foldl step r) from h _ hstart
  induction steps with
  | nil => exact fun r hr => hr
  | cons s steps ih =>
    intro r hr
    apply ih (fun r s' hs' => hstep r s' (List.mem_cons_of_mem s hs')) _
    exact hstep r s List.mem_cons_self hr

theorem through_append (steps more : List Step) (b : Bridge) :
    through (steps ++ more) b = more.foldl step (through steps b) :=
  List.foldl_append

end Run

namespace Bridge

/-! ## Intents -/

structure SameButIntents (b b' : Bridge) : Prop where
  settings : b'.settings = b.settings
  now : b'.now = b.now
  store : b'.store = b.store
  tally : b'.tally = b.tally
  traffic : b'.traffic = b.traffic
  answers : b'.answers = b.answers

variable {b b' b'' : Bridge}

theorem SameButIntents.refl (b : Bridge) : SameButIntents b b := ⟨rfl, rfl, rfl, rfl, rfl, rfl⟩

theorem SameButIntents.trans (h : SameButIntents b b') (h' : SameButIntents b' b'') :
    SameButIntents b b'' :=
  ⟨h'.settings.trans h.settings, h'.now.trans h.now, h'.store.trans h.store,
    h'.tally.trans h.tally, h'.traffic.trans h.traffic, h'.answers.trans h.answers⟩

theorem user_of_make {homeserver token user timeout : Value} {client : Client}
    (h : Client.make homeserver token user timeout = .ok client) : client.user = user := by
  unfold Client.make at h
  dsimp only at h
  split at h
  · obtain ⟨address, -, h⟩ := bind_eq_ok h
    obtain ⟨limit, -, h⟩ := bind_eq_ok h
    cases h
    rfl
  · cases h
  · cases h

/-- A new client is made for the user, unless it is the first one and the settings are of no use. -/
theorem newClient_cases (user : Value) (b : Bridge) :
    (∃ e, (newClient user).outcome b = (.error e, b) ∧ b.clients = []) ∨
      ∃ client, (newClient user).outcome b = (.ok client, b) ∧ client.user = user := by
  rw [newClient, Attempt.outcome_bind, Attempt.outcome_get, Attempt.follow_ok]
  cases hclients : b.clients with
  | cons base rest => exact .inr ⟨base.withUser user, rfl, rfl⟩
  | nil =>
    dsimp only [List.head?_nil]
    rw [Attempt.outcome_ofResult]
    cases hmake : Client.make b.settings.homeserverUrl b.settings.asToken user
        b.settings.requestTimeout with
    | error e => exact .inl ⟨e, rfl, rfl⟩
    | ok client => exact .inr ⟨client, rfl, user_of_make hmake⟩

/-- What asking for the client of a user comes to. -/
inductive ClientFor (b : Bridge) (user : Value) : Except Failure ClientId × Bridge → Prop
  | keyless (e : Failure) (hkey : user.toKey = .error e) : ClientFor b user (.error e, b)
  | unmade (e : Failure) (hclients : b.clients = []) : ClientFor b user (.error e, b)
  | kept (key : Key) (c : ClientId) (hkey : user.toKey = .ok key)
    (hget : Table.get? key b.clientOf = some c) : ClientFor b user (.ok c, b)
  | made (key : Key) (client : Client) (huser : client.user = user)
    (hkey : user.toKey = .ok key) (hget : Table.get? key b.clientOf = none) :
    ClientFor b user (.ok b.clients.length, { b with
      clients := b.clients ++ [client]
      clientOf := Table.put key b.clients.length b.clientOf })

theorem clientFor_cases (user : Value) (b : Bridge) :
    ClientFor b user ((clientFor user).outcome b) := by
  rw [clientFor, Attempt.outcome_bind, Attempt.outcome_ofResult]
  cases hkey : user.toKey with
  | error e => exact .keyless e hkey
  | ok key =>
    rw [Attempt.follow_ok, Attempt.outcome_bind, Attempt.outcome_get, Attempt.follow_ok]
    cases hget : Table.get? key b.clientOf with
    | some c => exact .kept key c hkey hget
    | none =>
      dsimp only
      rw [Attempt.outcome_bind]
      rcases newClient_cases user b with ⟨e, hnew, hclients⟩ | ⟨client, hnew, huser⟩
      · rw [hnew]
        exact .unmade e hclients
      · rw [hnew]
        exact .made key client huser hkey hget

theorem outcome_inviterFor (user : String) (b : Bridge) : (inviterFor user).outcome b =
    if user = botUserId b.settings then (.ok none, b)
    else
      let out := (clientFor (.text (botUserId b.settings))).outcome b
      (out.1.map some, out.2) := by
  rw [inviterFor, Attempt.outcome_bind, Attempt.outcome_get, Attempt.follow_ok]
  simp only [beq_iff_eq]
  split
  · rfl
  · exact Attempt.outcome_map some _ b

inductive Keeping (b : Bridge) (made : Intent) : Except Failure Intent × Bridge → Prop
  | found (i : Intent) (hget : Table.get? made.localpart b.intents = some i)
    (hpuppet : i.puppet = made.puppet) : Keeping b made (.ok i, b)
  | differs (i : Intent) (hget : Table.get? made.localpart b.intents = some i)
    (hpuppet : i.puppet ≠ made.puppet) :
    Keeping b made (.error (.puppetDiffers i.userId i.puppet), b)
  | new (hget : Table.get? made.localpart b.intents = none) :
    Keeping b made (.ok made, { b with intents := Table.put made.localpart made b.intents })

theorem keepIntent_cases (made : Intent) (b : Bridge) :
    Keeping b made ((keepIntent made).outcome b) := by
  rw [keepIntent, Attempt.outcome_bind, Attempt.outcome_get, Attempt.follow_ok]
  cases hget : Table.get? made.localpart b.intents with
  | none => exact .new hget
  | some i =>
    dsimp only
    split
    · next hpuppet => exact .found i hget (beq_iff_eq.mp hpuppet)
    · next hpuppet => exact .differs i hget (by simpa using hpuppet)

inductive IntentFor (b : Bridge) (localpart : Value) (puppet : Bool) :
    Except Failure Intent × Bridge → Prop
  | nameless (hname : Localpart.ofValue? localpart = none) :
    IntentFor b localpart puppet (.error (.localpart localpart), b)
  | clientless (name : String) (e : Failure) (c : Bridge)
    (hname : Localpart.ofValue? localpart = some name)
    (hclient : (clientFor (.text (userId b.settings (.text name)))).outcome b = (.error e, c)) :
    IntentFor b localpart puppet (.error e, c)
  | botless (name : String) (client : ClientId) (e : Failure) (c d : Bridge)
    (hname : Localpart.ofValue? localpart = some name)
    (hclient : (clientFor (.text (userId b.settings (.text name)))).outcome b = (.ok client, c))
    (hinviter : (inviterFor (userId b.settings (.text name))).outcome c = (.error e, d)) :
    IntentFor b localpart puppet (.error e, d)
  | kept (made : Intent) (c d : Bridge)
    (hname : Localpart.ofValue? localpart = some made.localpart) (hpuppet : made.puppet = puppet)
    (huser : made.userId = userId b.settings (.text made.localpart))
    (hclient : (clientFor (.text made.userId)).outcome b = (.ok made.client, c))
    (hinviter : (inviterFor made.userId).outcome c = (.ok made.inviter, d)) :
    IntentFor b localpart puppet ((keepIntent made).outcome d)

theorem intent_cases (localpart : Value) (puppet : Bool) (b : Bridge) :
    IntentFor b localpart puppet ((intent localpart puppet).outcome b) := by
  rw [intent]
  cases hname : Localpart.ofValue? localpart with
  | none => exact .nameless hname
  | some name =>
    dsimp only
    rw [Attempt.outcome_bind, Attempt.outcome_get, Attempt.follow_ok, Attempt.outcome_bind]
    rcases hclient : (clientFor (.text (userId b.settings (.text name)))).outcome b with
      ⟨e | client, c⟩
    · exact .clientless name e c hname hclient
    · rw [Attempt.follow_ok, Attempt.outcome_bind]
      rcases hinviter : (inviterFor (userId b.settings (.text name))).outcome c with
        ⟨e | inviter, d⟩
      · exact .botless name client e c d hname hclient hinviter
      · let made : Intent :=
          { client, localpart := name, userId := userId b.settings (.text name), inviter, puppet }
        exact .kept made c d hname rfl rfl hclient hinviter

/-- Asking for a client may add one, and nothing else. -/
theorem clientFor_same (user : Value) (b : Bridge) :
    SameButIntents b ((clientFor user).outcome b).2 ∧
      ((clientFor user).outcome b).2.intents = b.intents := by
  have hcases := clientFor_cases user b
  generalize (clientFor user).outcome b = out at hcases ⊢
  cases hcases with
  | keyless | unmade | kept => exact ⟨.refl b, rfl⟩
  | made => exact ⟨⟨rfl, rfl, rfl, rfl, rfl, rfl⟩, rfl⟩

def IntentsNamed (b : Bridge) : Prop :=
  ∀ name i, Table.get? name b.intents = some i →
    i.localpart = name ∧ i.userId = userId b.settings (.text name)

/-- What is found under a localpart is the intent of the user with that localpart. -/
structure Finds (b : Bridge) (puppet : Bool) (out : Except Failure Intent × Bridge) : Prop
    extends SameButIntents b out.2 where
  named : IntentsNamed out.2
  found : ∀ i, out.1 = .ok i → i.puppet = puppet ∧
    i.userId = userId b.settings (.text i.localpart)

theorem keepIntent_finds {made : Intent} (hnamed : IntentsNamed b)
    (hmade : made.userId = userId b.settings (.text made.localpart)) :
    Finds b made.puppet ((keepIntent made).outcome b) := by
  have hcases := keepIntent_cases made b
  generalize (keepIntent made).outcome b = out at hcases ⊢
  cases hcases with
  | found j hget hpuppet =>
    obtain ⟨hlocalpart, huser⟩ := hnamed _ j hget
    refine ⟨.refl b, hnamed, fun i hi => ?_⟩
    cases hi
    exact ⟨hpuppet, by rw [huser, hlocalpart]⟩
  | differs => exact ⟨.refl b, hnamed, nofun⟩
  | new =>
    refine ⟨⟨rfl, rfl, rfl, rfl, rfl, rfl⟩, fun name j hj => ?_, fun i hi => ?_⟩
    · change Table.get? name (Table.put made.localpart made b.intents) = some j at hj
      rw [Table.get?_put] at hj
      split at hj
      · next hname =>
        cases hj
        exact ⟨hname.symm, by rw [hname]; exact hmade⟩
      · exact hnamed name j hj
    · cases hi
      exact ⟨rfl, hmade⟩

theorem inviterFor_same (user : String) (b : Bridge) :
    SameButIntents b ((inviterFor user).outcome b).2 ∧
      ((inviterFor user).outcome b).2.intents = b.intents := by
  rw [outcome_inviterFor]
  split
  · exact ⟨.refl b, rfl⟩
  · exact clientFor_same _ b

theorem IntentsNamed.same (h : IntentsNamed b) (hsettings : b'.settings = b.settings)
    (hintents : b'.intents = b.intents) : IntentsNamed b' := by
  intro name i hi
  rw [hintents] at hi
  rw [hsettings]
  exact h name i hi

/-- Finding an intent says and teaches nothing. -/
theorem intent_finds (localpart : Value) (puppet : Bool) (hnamed : IntentsNamed b) :
    Finds b puppet ((intent localpart puppet).outcome b) := by
  have hboth {user : String} {client : ClientId} {r : Except Failure (Option ClientId)}
      {c d : Bridge} (hclient : (clientFor (.text user)).outcome b = (.ok client, c))
      (hinviter : (inviterFor user).outcome c = (r, d)) :
      SameButIntents b d ∧ IntentsNamed d := by
    obtain ⟨hsame, hintents⟩ := clientFor_same (.text user) b
    obtain ⟨hsame', hintents'⟩ := inviterFor_same user c
    rw [hclient] at hsame hintents
    rw [hinviter] at hsame' hintents'
    have hall := hsame.trans hsame'
    exact ⟨hall, hnamed.same hall.settings (hintents'.trans hintents)⟩
  have hcases := intent_cases localpart puppet b
  generalize (intent localpart puppet).outcome b = out at hcases ⊢
  cases hcases with
  | nameless => exact ⟨.refl b, hnamed, nofun⟩
  | clientless name e c _ hclient =>
    obtain ⟨hsame, hintents⟩ := clientFor_same (.text (userId b.settings (.text name))) b
    rw [hclient] at hsame hintents
    exact ⟨hsame, hnamed.same hsame.settings hintents, nofun⟩
  | botless name client e c d _ hclient hinviter =>
    obtain ⟨hsame, hnamed'⟩ := hboth hclient hinviter
    exact ⟨hsame, hnamed', nofun⟩
  | kept made c d _ hpuppet huser hclient hinviter =>
    obtain ⟨hsame, hnamed'⟩ := hboth hclient hinviter
    have hfinds := keepIntent_finds hnamed' (hsame.settings ▸ huser)
    refine ⟨hsame.trans hfinds.toSameButIntents, hfinds.named, fun i hi => ?_⟩
    rw [← hpuppet, ← hsame.settings]
    exact hfinds.found i hi

end Bridge

namespace Run

open Bridge (IntentsNamed Finds Path newTraffic observe intent_finds)

/-! ## What a step does -/

/-- What a step can make of a run: an operation is done turn by turn, an event is observed, or
nothing happens that a user or the homeserver would notice. -/
inductive Moved (s : Step) (r : Run) : Run → Prop
  | acted (localpart : Value) (puppet : Bool) (op : Operation) (i : Intent) (c b : Bridge)
      (xs : List Exchange) (hs : s = .act localpart puppet op)
      (hfinds : Finds r.bridge puppet (.ok i, c)) (hpath : Path i op c xs b) :
      Moved s r ⟨b, r.moments ++ xs.map (.asked i op)⟩
  | observed (e : Event) :
      Moved s r ⟨((observe e).outcome r.bridge).2, r.moments ++ [.observed e]⟩
  | still (b : Bridge) (hsettings : b.settings = r.bridge.settings)
      (hstore : b.store = r.bridge.store) (htraffic : b.traffic = r.bridge.traffic)
      (hanswers : b.answers = r.bridge.answers) (hnamed : IntentsNamed b)
      (htally : b.tally = r.bridge.tally) : Moved s r ⟨b, r.moments⟩

theorem newTraffic_eq {b b' : Bridge} {xs : List Exchange} (h : b'.traffic = b.traffic ++ xs) :
    newTraffic b b' = xs := by
  rw [newTraffic, h, List.drop_left]

theorem step_moved (s : Step) (r : Run) (hnamed : IntentsNamed r.bridge) :
    Moved s r (r.step s) := by
  cases s with
  | act localpart puppet op =>
    have hfinds := intent_finds localpart puppet hnamed
    rcases hout : (Bridge.intent localpart puppet).outcome r.bridge with ⟨e | i, c⟩
    · rw [hout] at hfinds
      simp only [step, hout]
      exact .still c hfinds.settings hfinds.store hfinds.traffic hfinds.answers hfinds.named
        hfinds.tally
    · rw [hout] at hfinds
      obtain ⟨xs, hpath, -⟩ := Bridge.perform_walk i op c
      simp only [step, hout]
      have hmoved := Moved.acted (s := .act localpart puppet op) localpart puppet op i c _ xs rfl
        hfinds hpath
      rw [← newTraffic_eq hpath.traffic] at hmoved
      exact hmoved
  | observe e => exact .observed e
  | client user =>
    obtain ⟨hsame, hintents⟩ := Bridge.clientFor_same user r.bridge
    exact .still _ hsame.settings hsame.store hsame.traffic hsame.answers
      (hnamed.same hsame.settings hintents) hsame.tally
  | clock now => exact .still _ rfl rfl rfl rfl (hnamed.same rfl rfl) rfl

/-- The settings are the given ones and all intents belong to them. -/
structure Settled (settings : Settings) (r : Run) : Prop where
  settings : r.bridge.settings = settings
  named : IntentsNamed r.bridge

theorem Moved.settled {settings : Settings} {s : Step} {r r' : Run} (h : Moved s r r')
    (hr : Settled settings r) : Settled settings r' := by
  cases h with
  | acted localpart puppet op i c b xs hs hfinds hpath =>
    have hsame := hpath.sameService
    exact ⟨hsame.settings.trans (hfinds.settings.trans hr.settings),
      hfinds.named.same hsame.settings hsame.intents⟩
  | observed e =>
    have hsilent := Bridge.keeps_observe Bridge.frame_silent e r.bridge
    exact ⟨hsilent.settings.trans hr.settings, hr.named.same hsilent.settings hsilent.intents⟩
  | still b hsettings _ _ _ hnamed => exact ⟨hsettings.trans hr.settings, hnamed⟩

/-- The user whom an intent acts as is the one with its localpart. -/
theorem Settled.userId {settings : Settings} {r : Run} (hr : Settled settings r) {puppet : Bool}
    {i : Intent} {c : Bridge} (h : Finds r.bridge puppet (.ok i, c)) :
    i.userId = Bridge.userId settings (.text i.localpart) := by
  rw [← hr.settings]
  exact (h.found i rfl).2

/-- What holds at the start and is kept by all that a step can do holds at the end. -/
theorem through_moved {P : Run → Prop} {b : Bridge} {steps : List Step} (hintents : b.intents = [])
    (hstart : P ⟨b, []⟩)
    (hstep : ∀ r r', ∀ s ∈ steps, Settled b.settings r → Moved s r r' → P r → P r') :
    Settled b.settings (through steps b) ∧ P (through steps b) := by
  refine through_induction (P := fun r => Settled b.settings r ∧ P r)
    ⟨⟨rfl, ?_⟩, hstart⟩ fun r s hs hr => ?_
  · intro name i hi
    change Table.get? name b.intents = some i at hi
    rw [hintents] at hi
    cases hi
  · have hmoved := step_moved s r hr.1.named
    exact ⟨hmoved.settled hr.1, hstep r _ s hs hr.1 hmoved hr.2⟩

theorem settled_through {b : Bridge} (steps : List Step) (hintents : b.intents = []) :
    Settled b.settings (through steps b) :=
  (through_moved (P := fun _ => True) hintents trivial fun _ _ _ _ _ _ _ => trivial).1

theorem filterMap_asked (i : Intent) (op : Operation) (xs : List Exchange) :
    (xs.map (Moment.asked i op)).filterMap Moment.exchange? = xs := by
  rw [List.filterMap_map]
  exact List.filterMap_some

theorem Moved.exchanges {s : Step} {r r' : Run} (h : Moved s r r')
    (hr : r.moments.filterMap Moment.exchange? = r.bridge.traffic) :
    r'.moments.filterMap Moment.exchange? = r'.bridge.traffic := by
  cases h with
  | acted localpart puppet op i c b xs hs hfinds hpath =>
    rw [List.filterMap_append, hr, filterMap_asked, hpath.traffic, hfinds.traffic]
  | observed e =>
    have hsilent := Bridge.keeps_observe Bridge.frame_silent e r.bridge
    rw [List.filterMap_append, hr, hsilent.traffic]
    exact List.append_nil _
  | still b _ _ htraffic _ _ => rw [hr, htraffic]

end Run

end VirtualUsers
