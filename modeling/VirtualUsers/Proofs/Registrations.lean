import VirtualUsers.Proofs.Runs
/-!
# Users are registered once

A request to register a user is only sent while the store does not know the user, and once the
homeserver took it, or had the user before, the store knows. So over a whole run no user is
registered again, and whoever makes requests of its own is known. Custom puppets register nobody.
-/

namespace VirtualUsers

def Endpoint.needsUser : Endpoint → Bool
  | join _ | displayName _ | avatarUrl _ | whoami => true
  | _ => false

namespace Exchange

def Claims (s : Settings) (user : String) (x : Exchange) : Prop :=
  x.request.endpoint = .register ∧
    ∃ name, x.request.body.field "username" = .ok name ∧ Bridge.userId s name = user

/-- The homeserver took the request to register a user, or it has the user already. -/
def Takes (x : Exchange) : Prop :=
  x.Accepted ∨ ∃ q, x.RefusedWith q ∧ q.kind = .userInUse

theorem Registers.claims_iff {c : Client} {name inhibitLogin : Value} {x : Exchange} {s : Settings}
    {user : String} (h : x.Registers c name inhibitLogin) :
    x.Claims s user ↔ Bridge.userId s name = user := by
  have hname : x.request.body.field "username" = .ok name := by
    rw [h.body_eq]
    rfl
  rw [Claims, hname]
  constructor
  · rintro ⟨-, name', hname', huser⟩
    cases hname'
    exact huser
  · exact fun huser => ⟨h.endpoint, name, rfl, huser⟩

end Exchange

namespace Bridge

variable {i : Intent} {op : Operation} {b b' : Bridge} {x : Exchange} {s : Settings}

/-! ## Who is known -/

theorem register_subset (user : Key) (s : Store) :
    s.registered ⊆ (s.register user).registered := by
  intro key hkey
  rw [Store.register]
  split
  · exact hkey
  · exact List.mem_append_left _ hkey

/-- A request that was taken is counted, and nothing fails there. -/
theorem recordClaim_takes (i : Intent) (b : Bridge) (hx : x.Takes) :
    ∃ c, (recordClaim i (x.content.map fun _ => ())).outcome b = (.ok (), c) := by
  rcases hx with ⟨data, hdata⟩ | ⟨q, hq, hkind⟩
  · rw [hdata]
    exact ⟨_, rfl⟩
  · rw [hq]
    change ∃ c, (recordClaim i (.error (.request q))).outcome b = (.ok (), c)
    simp only [recordClaim, hkind, beq_self_eq_true, if_true]
    exact ⟨_, rfl⟩

/-- Nobody is forgotten, and a user who was taken is known even if that could not be saved. -/
theorem Follows.registered (h : Follows b x (recordRegistered i) b') :
    b.store.registered ⊆ b'.store.registered ∧ (x.Takes → Knows i b'.store) := by
  obtain ⟨c, hheard, rfl⟩ := h
  have hsame : SameUsers c ((recordClaim i (x.content.map fun _ => ())).outcome c).2 :=
    keeps_recordClaim frame_sameUsers.toFrame i _ c
  rw [recordRegistered, Attempt.outcome_bind, ← hheard.store]
  rcases hout : (recordClaim i (x.content.map fun _ => ())).outcome c with ⟨e | _, d⟩
  · rw [hout] at hsame
    refine ⟨fun key hkey => hsame.symm ▸ hkey, fun hx => ?_⟩
    obtain ⟨d', htaken⟩ := recordClaim_takes i c hx
    rw [hout] at htaken
    cases htaken
  · rw [hout] at hsame
    have hstore := (untouched_markRegistered i.userId d).store
    rw [Attempt.follow_ok]
    constructor
    · intro key hkey
      rw [hstore]
      exact register_subset _ _ (hsame.symm ▸ hkey)
    · intro _
      rw [Knows, hstore]
      exact mem_register _ _

theorem Turn.registered_subset (h : Turn i op b x b') :
    b.store.registered ⊆ b'.store.registered := by
  rcases h.settles with ⟨-, -, -, -, hfollows⟩ | ⟨c, -, hstore, hframe⟩
  · exact hfollows.registered.1
  · have hsame : SameUsers c b' := hframe frame_sameUsers
    rw [← hstore, ← hsame]
    exact List.Subset.refl _

/-! ## Who registers -/

/-- A request registers the user, outright or because the user is one of the service whom the store
does not know, or it registers nobody and the user is known if it needs one. -/
theorem Turn.registering_or_needing (h : Turn i op b x b') :
    (x.request.endpoint = .register ∧ (op = .register ∨
      i.puppet = false ∧ ¬ Knows i b.store ∧
        x.Registers (b.clientAt i.client) (.text i.localpart) (.bool true) ∧
        Follows b x (recordRegistered i) b')) ∨
      (x.request.endpoint ≠ .register ∧
        (x.request.endpoint.needsUser → i.puppet = true ∨ Knows i b.store)) := by
  cases h with
  | registered hop hx => exact .inl ⟨hx.endpoint, .inl hop⟩
  | claimed _ hpuppet hnew hx h => exact .inl ⟨hx.endpoint, .inr ⟨hpuppet, hnew, hx, h⟩⟩
  | whoamiAsked _ hknows hx => exact .inr ⟨by rw [hx.endpoint]; nofun, fun _ => hknows⟩
  | joined _ _ _ hknows hx | displayNameSet _ _ hknows hx | avatarUrlSet _ _ hknows hx =>
    obtain ⟨r, he⟩ := hx.endpoint
    exact .inr ⟨by rw [he]; nofun, fun _ => hknows⟩
  | helped _ _ _ _ _ hx | roomStateRead _ _ hx | membershipChanged _ _ _ _ _ hx
  | invited _ _ _ hx | joinedMembersRead _ _ hx | membersRead _ _ _ _ hx =>
    obtain ⟨r, he⟩ := hx.endpoint
    exact .inr (by rw [he]; exact ⟨nofun, nofun⟩)
  | typingSent _ _ _ _ hx =>
    obtain ⟨r, u, he⟩ := hx.endpoint
    exact .inr (by rw [he]; exact ⟨nofun, nofun⟩)
  | messageSent _ _ _ _ _ hx | redacted _ _ _ _ hx | stateWritten _ _ _ _ _ _ hx
  | levelsWritten _ _ _ hx | stateRead _ _ _ _ hx | memberRead _ _ _ _ hx | levelsRead _ _ hx =>
    obtain ⟨r, t, k, he⟩ := hx.endpoint
    exact .inr (by rw [he]; exact ⟨nofun, nofun⟩)

/-- No other operation than registering outright sends a request to register a user, unless the
user is one of the service whom the store does not know. -/
theorem Turn.registering (h : Turn i op b x b') (hop : op ≠ .register)
    (hx : x.request.endpoint = .register) :
    i.puppet = false ∧ ¬ Knows i b.store ∧
      x.Registers (b.clientAt i.client) (.text i.localpart) (.bool true) ∧
      Follows b x (recordRegistered i) b' := by
  rcases h.registering_or_needing with ⟨-, hclaims⟩ | ⟨hother, -⟩
  · exact hclaims.resolve_left hop
  · exact absurd hx hother

/-- A user makes requests of its own only when it is known, or none to register here. -/
theorem Turn.needing (h : Turn i op b x b') (hx : x.request.endpoint.needsUser) :
    i.puppet = true ∨ Knows i b.store := by
  rcases h.registering_or_needing with ⟨hregister, -⟩ | ⟨-, hneeds⟩
  · rw [hregister] at hx
    cases hx
  · exact hneeds hx

/-- Whoever is claimed was not known, and is known if the homeserver takes it. -/
theorem Turn.claims (h : Turn i op b x b') (hop : op ≠ .register)
    (huser : i.userId = userId s (.text i.localpart)) {user : String} (hx : x.Claims s user) :
    Key.text user ∉ b.store.registered ∧ (x.Takes → Key.text user ∈ b'.store.registered) := by
  obtain ⟨-, hnew, hregisters, hfollows⟩ := h.registering hop hx.1
  obtain rfl : i.userId = user := huser.trans (hregisters.claims_iff.mp hx)
  exact ⟨hnew, hfollows.registered.2⟩

/-- Who was taken is known, and nobody was claimed after being taken. -/
structure Enlists (s : Settings) (b : Bridge) : Prop where
  known : ∀ x ∈ b.traffic, ∀ user, x.Claims s user → x.Takes → Key.text user ∈ b.store.registered
  once : b.traffic.Pairwise fun x y => ∀ user, x.Claims s user → x.Takes → ¬ y.Claims s user

theorem Enlists.same (h : Enlists s b) (htraffic : b'.traffic = b.traffic)
    (hsame : SameUsers b b') : Enlists s b' := by
  constructor
  · rw [htraffic, hsame]
    exact h.known
  · rw [htraffic]
    exact h.once

theorem Turn.enlists (h : Turn i op b x b') (hop : op ≠ .register)
    (huser : i.userId = userId s (.text i.localpart)) (hb : Enlists s b) : Enlists s b' := by
  have htraffic := h.grown.traffic
  constructor
  · intro y hy user hclaims htakes
    rw [htraffic] at hy
    rcases List.mem_append.mp hy with hy | hy
    · exact h.registered_subset (hb.known y hy user hclaims htakes)
    · obtain rfl := List.mem_singleton.mp hy
      exact (h.claims hop huser hclaims).2 htakes
  · -- Whoever was taken before is known, so the new exchange cannot claim that user.
    rw [htraffic, List.pairwise_append]
    refine ⟨hb.once, List.pairwise_singleton _ _, fun y hy z hz user hclaims htakes hagain => ?_⟩
    obtain rfl := List.mem_singleton.mp hz
    exact (h.claims hop huser hagain).1 (hb.known y hy user hclaims htakes)

theorem Idle.sameUsers (h : Idle b b') : SameUsers b b' :=
  congrArg Store.registered h.store

theorem Path.enlists {xs : List Exchange} (h : Path i op b xs b') (hop : op ≠ .register)
    (huser : i.userId = userId s (.text i.localpart)) (hb : Enlists s b) : Enlists s b' := by
  induction h with
  | still hidle => exact hb.same hidle.traffic hidle.sameUsers
  | turn hidle hturn _ ih =>
    exact ih (hturn.enlists hop huser (hb.same hidle.traffic hidle.sameUsers))

/-- The user of an intent may make a request: it is known if the request needs that, and a custom
puppet is not registered. -/
structure Entitled (i : Intent) (x : Exchange) : Prop where
  known : i.puppet = false → x.request.endpoint.needsUser → Knows i x.store
  puppet : i.puppet = true → x.request.endpoint ≠ .register

theorem Path.entitled {xs : List Exchange} (h : Path i op b xs b') (hop : op ≠ .register) :
    ∀ x ∈ xs, Entitled i x := by
  induction h with
  | still _ => nofun
  | turn _ hturn _ ih =>
    intro x hx
    rcases List.mem_cons.mp hx with rfl | hx
    · constructor
      · intro hpuppet hneeds
        rw [hturn.grown.storeThen]
        exact (hturn.needing hneeds).resolve_left (by rw [hpuppet]; exact Bool.false_ne_true)
      · intro hpuppet hregister
        rw [(hturn.registering hop hregister).1] at hpuppet
        cases hpuppet
    · exact ih x hx

/-- What a custom puppet does leaves the registered users alone. -/
theorem Path.sameUsers {xs : List Exchange} (h : Path i op b xs b') (hpuppet : i.puppet = true) :
    SameUsers b b' := by
  induction h with
  | still hidle => exact hidle.sameUsers
  | turn hidle hturn _ ih =>
    refine frame_sameUsers.trans hidle.sameUsers (frame_sameUsers.trans ?_ ih)
    rcases hturn.settles with ⟨-, hfalse, -⟩ | ⟨c, -, hstore, hframe⟩
    · rw [hfalse] at hpuppet
      cases hpuppet
    · have hsame : SameUsers c _ := hframe frame_sameUsers
      exact hsame.trans (congrArg Store.registered hstore)

end Bridge

namespace Run

open Bridge (Enlists Entitled SameUsers)

/-! ## Whole runs -/

/-- The step is not the request to register a user whether it is known or not. -/
def NotOutright (s : Step) : Prop :=
  ∀ localpart puppet, s ≠ .act localpart puppet .register

/-- The users of a run are registered as it should be. -/
structure Orderly (settings : Settings) (r : Run) : Prop where
  enlists : Enlists settings r.bridge
  entitled : ∀ i op x, .asked i op x ∈ r.moments → Entitled i x

theorem Moved.orderly {settings : Settings} {s : Step} {r r' : Run} (h : Moved s r r')
    (hs : NotOutright s) (hsettled : Settled settings r) (hr : Orderly settings r) :
    Orderly settings r' := by
  cases h with
  | acted localpart puppet op i c b xs hact hfinds hpath =>
    have hop : op ≠ .register := by
      rintro rfl
      exact hs localpart puppet hact
    have hc := hr.enlists.same hfinds.traffic (congrArg Store.registered hfinds.store)
    refine ⟨hpath.enlists hop (hsettled.userId hfinds) hc, fun j op' x hx => ?_⟩
    rcases List.mem_append.mp hx with hx | hx
    · exact hr.entitled j op' x hx
    · obtain ⟨y, hy, heq⟩ := List.mem_map.mp hx
      cases heq
      exact hpath.entitled hop x hy
  | observed e =>
    have hsilent := Bridge.keeps_observe Bridge.frame_silent e r.bridge
    have hsame := Bridge.keeps_observe Bridge.frame_sameUsers e r.bridge
    refine ⟨hr.enlists.same hsilent.traffic hsame, fun j op x hx => ?_⟩
    rcases List.mem_append.mp hx with hx | hx
    · exact hr.entitled j op x hx
    · cases List.mem_singleton.mp hx
  | still b _ hstore htraffic _ _ =>
    exact ⟨hr.enlists.same htraffic (congrArg Store.registered hstore), hr.entitled⟩

/-- A step of a custom puppet registers nobody. -/
theorem Moved.sameUsers {localpart : Value} {op : Operation} {r r' : Run}
    (h : Moved (.act localpart true op) r r') : SameUsers r.bridge r'.bridge := by
  cases h with
  | acted localpart puppet op i c b xs hact hfinds hpath =>
    cases hact
    have hsame := hpath.sameUsers (hfinds.found i rfl).1
    exact hsame.trans (congrArg Store.registered hfinds.store)
  | observed e => exact Bridge.keeps_observe Bridge.frame_sameUsers e r.bridge
  | still b _ hstore _ _ _ => exact congrArg Store.registered hstore

/-- In a run of a new service in which users are not registered outright, nobody is claimed again
once taken, whoever asks for something that needs a registered user is known by then, and custom
puppets are never registered, neither with the homeserver nor in the store. -/
theorem registers_once (b : Bridge) (steps : List Step) (hintents : b.intents = [])
    (htraffic : b.traffic = []) (hsteps : ∀ s ∈ steps, NotOutright s) :
    (through steps b).bridge.traffic.Pairwise
      (fun x y => ∀ user, x.Claims b.settings user → x.Takes → ¬ y.Claims b.settings user) ∧
    (∀ i op x, .asked i op x ∈ (through steps b).moments → i.puppet = false →
      x.request.endpoint.needsUser → Key.text i.userId ∈ x.store.registered) ∧
    (∀ i op x, .asked i op x ∈ (through steps b).moments → i.puppet = true →
      x.request.endpoint ≠ .register) ∧
    (∀ earlier localpart op later, steps = earlier ++ .act localpart true op :: later →
      (through (earlier ++ [.act localpart true op]) b).bridge.store.registered =
        (through earlier b).bridge.store.registered) := by
  have hstart : Orderly b.settings ⟨b, []⟩ := by
    refine ⟨⟨?_, ?_⟩, fun _ _ _ hx => absurd hx List.not_mem_nil⟩
    · rw [htraffic]
      exact fun _ hx => absurd hx List.not_mem_nil
    · rw [htraffic]
      exact .nil
  obtain ⟨-, hr⟩ := through_moved hintents hstart fun r r' s hs hsettled hmoved hr =>
    hmoved.orderly (hsteps s hs) hsettled hr
  refine ⟨hr.enlists.once, fun i op x hx => (hr.entitled i op x hx).known,
    fun i op x hx => (hr.entitled i op x hx).puppet, fun earlier localpart op later _ => ?_⟩
  rw [through_append]
  exact (step_moved _ _ (settled_through earlier hintents).named).sameUsers

/-- Two users of a service that ask who they are, one of them twice. The other one is a puppet. -/
def Example.asking : List Step :=
  [.act (.text "alice") false .whoami, .act (.text "alice") false .whoami,
    .act (.text "bob") true .whoami]

/-- The first answer says that the user is there already, and the user is not registered again. -/
theorem registers_once_in_use :
    let inUse : Value := .record [("errcode", .text "M_USER_IN_USE")]
    let b : Bridge := { answers := [.reply 400 (some inUse)] }
    (through Example.asking b).bridge.traffic.map (·.request.endpoint) =
        [.register, .whoami, .whoami, .whoami] ∧
      (through Example.asking b).bridge.traffic.Pairwise
        (fun x y => ∀ user, x.Claims {} user → x.Takes → ¬ y.Claims {} user) := by
  intro inUse b
  have hsteps : ∀ s ∈ Example.asking, NotOutright s := by
    intro s hs localpart puppet hregister
    simp only [Example.asking, List.mem_cons, List.not_mem_nil, or_false] at hs
    rcases hs with rfl | rfl | rfl <;> cases hregister
  exact ⟨by decide +kernel, (registers_once b Example.asking rfl rfl hsteps).1⟩

end Run

end VirtualUsers
