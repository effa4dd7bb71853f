import VirtualUsers.Proofs.Transactions
/-!
# The transactions of a service

A service is used through its operations, and directly through the clients that it gives out. Main
statement: among all that it sends, no two messages or redactions have the address and the user in
common, nor the transaction and the user.
-/

namespace VirtualUsers

/-- How a service is used: a step from outside, or a request of the client of a user. -/
inductive Use where
  | step (s : Step)
  | request (user name : String) (a : Call.Arguments)

namespace Bridge

open Attempt (state_check state_reading)

variable {b b' : Bridge} {c d : ClientId}

/-! ## Requests and operations -/

theorem frame_numbered : WideFrame fun b b' => Numbered b → Numbered b' where
  refl _ h := h
  trans h h' hb := h' (h hb)
  note _ _ _ _ h := h.same rfl rfl rfl rfl
  tally _ _ h := h.same rfl rfl rfl rfl
  powerLevels _ _ h := h.same rfl rfl rfl rfl
  typing _ _ h := h.same rfl rfl rfl rfl
  members _ _ h := h.same rfl rfl rfl rfl

/-- Messages and redactions are sent with the transaction that is issued for them, all else without
one. -/
theorem carries_numberedAt (c : ClientId) :
    Carries c fun b b' => NumberedAt c b → NumberedAt c b' where
  refl _ h := h
  trans h h' hb := h' (h hb)
  note b name level text h := ⟨frame_numbered.note b name level text h.toNumbered, h.present⟩
  tally b t h := ⟨frame_numbered.tally b t h.toNumbered, h.present⟩
  powerLevels b l h := ⟨frame_numbered.powerLevels b l h.toNumbered, h.present⟩
  typing b t h := ⟨frame_numbered.typing b t h.toNumbered, h.present⟩
  members b m h := ⟨frame_numbered.members b m h.toNumbered, h.present⟩
  files _ _ h := ⟨h.toNumbered.same rfl rfl rfl rfl, h.present⟩
  users _ _ h := ⟨h.toNumbered.same rfl rfl rfl rfl, h.present⟩
  request d endpoint body params asUser hnone b h := by
    refine ⟨h.toNumbered.send fun x hfrom hsome => ?_, ?_⟩
    · rw [Exchange.transaction?, hfrom.endpoint_eq, hnone] at hsome
      cases hsome
    · rw [send_clients]
      exact h.present
  message room type content timestamp b h := by
    refine state_check h fun params hparams => state_check h fun room _ =>
      state_check h fun type _ => ?_
    obtain ⟨transaction, b', hnext, hissued⟩ := issued_nextTransaction h
    rw [Attempt.outcome_bind, hnext, Attempt.follow_ok]
    refine state_check hissued.toNumberedAt fun body _ => ?_
    rw [state_reading]
    refine hissued.send rfl ?_ body
    rw [timeParams] at hparams
    split at hparams
    · cases hparams
      rfl
    · obtain ⟨n, -, rfl⟩ := map_eq_ok hparams
      rfl
  redaction room event reason b h := by
    refine state_check h fun room _ => state_check h fun event _ => ?_
    obtain ⟨transaction, b', hnext, hissued⟩ := issued_nextTransaction h
    rw [Attempt.outcome_bind, hnext, Attempt.follow_ok, state_reading]
    exact hissued.send rfl rfl _

/-! ## Clients and intents -/

/-- A service with at least the clients of another one, of which the client is one. -/
structure Given (b : Bridge) (out : Except Failure ClientId × Bridge) : Prop where
  numbered : Numbered out.2
  length : b.clients.length ≤ out.2.clients.length
  present : ∀ c, out.1 = .ok c → c < out.2.clients.length

/-- One more client, for a user that has none. -/
theorem Numbered.addClient (h : Numbered b) {client : Client} {key : Key}
    (hkey : client.user.toKey = .ok key) (hnone : Table.get? key b.clientOf = none) :
    Numbered { b with
      clients := b.clients ++ [client]
      clientOf := Table.put key b.clients.length b.clientOf } := by
  have hlength : (b.clients ++ [client]).length = b.clients.length + 1 := by simp
  have hold {c : ClientId} {old : Client} (hc : b.clients[c]? = some old) :
      (b.clients ++ [client])[c]? = some old := by
    rw [List.getElem?_append_left (List.getElem?_eq_some_iff.mp hc).1, hc]
  refine ⟨fun c old hc => ?_, fun l c hc => ?_, fun name i hi => ?_, fun x hx hsome => ?_, h.apart⟩
  · rw [List.getElem?_append] at hc
    split at hc
    · obtain ⟨l, hl, hget⟩ := h.keyed c old hc
      refine ⟨l, hl, ?_⟩
      have hne : l ≠ key := by
        rintro rfl
        rw [hnone] at hget
        cases hget
      exact (Table.get?_put_of_ne hne _ _).trans hget
    · next hge =>
      obtain ⟨hlast, rfl⟩ := List.getElem?_eq_some_iff.mp hc
      have hc : c = b.clients.length :=
        Nat.le_antisymm (Nat.sub_eq_zero_iff_le.mp (Nat.lt_one_iff.mp hlast)) (Nat.le_of_not_lt hge)
      cases hc
      exact ⟨key, by simpa using hkey, Table.get?_put_self _ _ _⟩
  · rw [hlength]
    rw [Table.get?_put] at hc
    split at hc
    · cases hc
      exact Nat.lt_succ_self _
    · exact Nat.lt_succ_of_lt (h.known l c hc)
  · rw [hlength]
    exact Nat.lt_succ_of_lt (h.intents name i hi)
  · obtain ⟨c, old, n, hc, hn, hnumbered⟩ := h.issued x hx hsome
    exact ⟨c, old, n, hold hc, hn, hnumbered⟩

/-- A client that is asked for is there, and is the only one of its user. -/
theorem clientFor_given (user : Value) (h : Numbered b) :
    Given b ((clientFor user).outcome b) := by
  have hcases := clientFor_cases user b
  generalize (clientFor user).outcome b = out at hcases ⊢
  cases hcases with
  | keyless | unmade => exact ⟨h, Nat.le_refl _, nofun⟩
  | kept key c _ hget =>
    refine ⟨h, Nat.le_refl _, fun d hd => ?_⟩
    cases hd
    exact h.known key c hget
  | made key client huser hkey hget =>
    refine ⟨h.addClient (huser ▸ hkey) hget, ?_, fun d hd => ?_⟩
    · exact Nat.le_of_lt (List.length_append ▸ Nat.lt_succ_self _)
    · cases hd
      exact List.length_append ▸ Nat.lt_succ_self _

theorem inviterFor_given (user : String) (h : Numbered b) :
    Numbered ((inviterFor user).outcome b).2 ∧
      b.clients.length ≤ ((inviterFor user).outcome b).2.clients.length := by
  rw [outcome_inviterFor]
  split
  · exact ⟨h, Nat.le_refl _⟩
  · exact ⟨(clientFor_given _ h).numbered, (clientFor_given _ h).length⟩

/-- An intent is kept with a client that is there. -/
theorem keepIntent_numbered {made : Intent} (h : Numbered b)
    (hmade : made.client < b.clients.length) :
    Numbered ((keepIntent made).outcome b).2 ∧ ∀ i, ((keepIntent made).outcome b).1 = .ok i →
      i.client < ((keepIntent made).outcome b).2.clients.length := by
  have hcases := keepIntent_cases made b
  generalize (keepIntent made).outcome b = out at hcases ⊢
  cases hcases with
  | found kept hget =>
    refine ⟨h, fun i hi => ?_⟩
    cases hi
    exact h.intents _ kept hget
  | differs => exact ⟨h, nofun⟩
  | new =>
    refine ⟨⟨h.keyed, h.known, fun name i hi => ?_, h.issued, h.apart⟩, fun i hi => ?_⟩
    · change Table.get? name (Table.put made.localpart made b.intents) = some i at hi
      rw [Table.get?_put] at hi
      split at hi
      · cases hi
        exact hmade
      · exact h.intents name i hi
    · cases hi
      exact hmade

/-- An intent has a client of its service. -/
theorem intent_numbered (localpart : Value) (puppet : Bool) (h : Numbered b) :
    Numbered ((intent localpart puppet).outcome b).2 ∧
      ∀ i, ((intent localpart puppet).outcome b).1 = .ok i →
        i.client < ((intent localpart puppet).outcome b).2.clients.length := by
  have hboth {user : String} {client : ClientId} {r : Except Failure (Option ClientId)}
      {b₁ b₂ : Bridge} (hclient : (clientFor (.text user)).outcome b = (.ok client, b₁))
      (hinviter : (inviterFor user).outcome b₁ = (r, b₂)) :
      Numbered b₂ ∧ client < b₂.clients.length := by
    have hgiven := clientFor_given (.text user) h
    rw [hclient] at hgiven
    have hgiven' := inviterFor_given user hgiven.numbered
    rw [hinviter] at hgiven'
    exact ⟨hgiven'.1, Nat.lt_of_lt_of_le (hgiven.present client rfl) hgiven'.2⟩
  have hcases := intent_cases localpart puppet b
  generalize (intent localpart puppet).outcome b = out at hcases ⊢
  cases hcases with
  | nameless => exact ⟨h, nofun⟩
  | clientless name e b₁ _ hclient =>
    have hgiven := clientFor_given (.text (userId b.settings (.text name))) h
    rw [hclient] at hgiven
    exact ⟨hgiven.numbered, nofun⟩
  | botless name client e b₁ b₂ _ hclient hinviter => exact ⟨(hboth hclient hinviter).1, nofun⟩
  | kept made b₁ b₂ _ _ _ hclient hinviter =>
    obtain ⟨hnumbered, hpresent⟩ := hboth hclient hinviter
    exact keepIntent_numbered hnumbered hpresent

/-! ## Uses of a service -/

def used (b : Bridge) : Use → Bridge
  | .step s => (Run.step ⟨b, []⟩ s).bridge
  | .request user name a =>
    ((clientFor (.text user) >>= fun c => Call.request c name a).outcome b).2

/-- A service that gave out no client and no intent yet. -/
structure Unused (b : Bridge) : Prop where
  clients : b.clients = []
  clientOf : b.clientOf = []
  intents : b.intents = []
  traffic : b.traffic = []

theorem Unused.numbered (h : Unused b) : Numbered b := by
  constructor
  · rw [h.clients]
    nofun
  · rw [h.clientOf]
    nofun
  · rw [h.intents]
    nofun
  · rw [h.traffic]
    exact fun x hx => absurd hx List.not_mem_nil
  · rw [h.traffic]
    exact .nil

theorem Numbered.used (h : Numbered b) (u : Use) : Numbered (b.used u) := by
  cases u with
  | step s =>
    cases s with
    | act localpart puppet op =>
      obtain ⟨hnumbered, hpresent⟩ := intent_numbered localpart puppet h
      rcases hout : (intent localpart puppet).outcome b with ⟨e | i, b'⟩
      · rw [hout] at hnumbered
        simpa only [Bridge.used, Run.step, hout] using hnumbered
      · rw [hout] at hnumbered hpresent
        simp only [Bridge.used, Run.step, hout, Run.perform]
        exact (keeps_perform (carries_numberedAt i.client) op b'
          ⟨hnumbered, hpresent i rfl⟩).toNumbered
    | observe e => exact keeps_observe frame_numbered e b h
    | client user => exact (clientFor_given user h).numbered
    | clock now => exact h.same rfl rfl rfl rfl
  | request user name a =>
    have hgiven := clientFor_given (.text user) h
    rw [Bridge.used, Attempt.outcome_bind]
    rcases hout : (clientFor (.text user)).outcome b with ⟨e | c, b'⟩
    · rw [hout] at hgiven
      exact hgiven.numbered
    · rw [hout] at hgiven
      exact (keeps_request (carries_numberedAt c) name a b'
        ⟨hgiven.numbered, hgiven.present c rfl⟩).toNumbered

theorem Numbered.through (h : Numbered b) (uses : List Use) :
    Numbered (uses.foldl Bridge.used b) := by
  induction uses generalizing b with
  | nil => exact h
  | cons u uses ih => exact ih (h.used u)

/-- What comes to one address from one user has one transaction. -/
theorem Numbered.issue_of_place (h : Numbered b) {x y : Exchange} (hx : x ∈ b.traffic)
    (hy : y ∈ b.traffic) {place : String × Option Value} (hplace : x.place? = some place)
    (hplace' : y.place? = some place) : ∃ issue, x.issue? = some issue ∧ y.issue? = some issue := by
  obtain ⟨t, ht, rfl⟩ := Option.map_eq_some_iff.mp hplace
  obtain ⟨u, hu, hpair⟩ := Option.map_eq_some_iff.mp hplace'
  obtain ⟨hurl, huser⟩ := Prod.mk.injEq .. ▸ hpair
  obtain ⟨c, client, n, hc, -, hnumbered⟩ := h.issued x hx (ht ▸ rfl)
  obtain ⟨d, client', m, hd, -, hnumbered'⟩ := h.issued y hy (hu ▸ rfl)
  have hsame : client'.user = client.user :=
    Option.some.inj (hnumbered'.userId.symm.trans (huser.trans hnumbered.userId))
  cases h.client_unique hd hc hsame
  cases hc.symm.trans hd
  have hpath : y.request.endpoint.path = x.request.endpoint.path := by
    rw [hnumbered.url, hnumbered'.url] at hurl
    apply String.toList_inj.mp
    have hlist := congrArg String.toList hurl
    simp only [String.toList_append] at hlist
    exact List.append_cancel_left hlist
  obtain ⟨start, hstart⟩ := Endpoint.path_transaction ht
  obtain ⟨start', hstart'⟩ := Endpoint.path_transaction hu
  obtain ⟨now, hnow⟩ := hnumbered.transaction
  obtain ⟨now', hnow'⟩ := hnumbered'.transaction
  cases ht.symm.trans hnow
  cases hu.symm.trans hnow'
  have hlast := eq_of_append_cons (Client.slash_notMem now' m) (Client.slash_notMem now n)
    (hstart'.symm.trans ((congrArg String.toList hpath).trans hstart))
  have htransaction := String.toList_inj.mp hlast
  refine ⟨_, by rw [Exchange.issue?, ht]; rfl, ?_⟩
  rw [Exchange.issue?, hu, htransaction, huser]
  rfl

/-- Among the messages and redactions of a service, no two go to the same address for the same user,
and all transactions that a user gets are different. -/
theorem transactions_distinct (b : Bridge) (hb : Unused b) (uses : List Use) :
    ((uses.foldl used b).traffic.filterMap Exchange.place?).Nodup ∧
      ((uses.foldl used b).traffic.filterMap Exchange.issue?).Nodup := by
  have h := hb.numbered.through uses
  constructor
  · refine List.pairwise_filterMap.mpr ?_
    refine h.apart.imp_of_mem fun hx hy hapart place hplace place' hplace' heq => ?_
    cases heq
    obtain ⟨issue, hissue, hissue'⟩ := h.issue_of_place hx hy hplace hplace'
    exact hapart issue hissue hissue'
  · refine List.pairwise_filterMap.mpr ?_
    refine h.apart.imp fun hapart issue hissue issue' hissue' heq => ?_
    cases heq
    exact hapart issue hissue hissue'

/-- While the clock is set back, a user says something twice and takes something back directly. The
second message is refused. In between, another user says something. -/
def Example.repeating : List Use :=
  let say (localpart : String) : Use := .step (.act (.text localpart) false
    (.sendText (.text "!r:hs") (.text "hello")))
  [.step (.clock 2000), say "alice", say "alice", say "bob", .step (.clock 1000),
    .request "@alice:localhost" "redact_event" { positional := [.text "!r:hs", .text "$1"] }]

theorem transactions_distinct_repeating :
    let taken : Answer := .reply 200 (some (.map []))
    let b : Bridge := { answers := [taken, taken, taken, .unreachable "timeout"] }
    let traffic := (Example.repeating.foldl used b).traffic
    traffic.filterMap Exchange.transaction? =
        ["mxi2000.1", "mxi2000.2", "mxi2000.1", "mxi1000.3"] ∧
      (traffic.filterMap Exchange.place?).Nodup ∧ (traffic.filterMap Exchange.issue?).Nodup := by
  intro taken b traffic
  exact ⟨by decide +kernel,
    transactions_distinct b ⟨rfl, rfl, rfl, rfl⟩ Example.repeating⟩

end Bridge

end VirtualUsers
