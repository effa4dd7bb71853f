import VirtualUsers.Proofs.Effects
import VirtualUsers.Proofs.Identities
/-!
# The bot and those whom it invites

The bot of a service invites all others, and needs no inviter itself. Who the bot is is read off the
settings twice: its intent is the one of the localpart in normal form, its client the one of the
localpart as it is set. Main statement: the two are one user if the localpart is set in normal form,
and else the bot is invited by somebody who is not there.
-/

namespace VirtualUsers

namespace Bridge

variable {b : Bridge} {c : ClientId} {id : String}

/-- A client acts as the user for whom it is kept. -/
theorem Staffed.user (h : Staffed b) (hc : b.HasClient id c) : (b.clientAt c).user = .text id := by
  have hkey := (h.clients _ c hc).2
  rw [Value.toKey] at hkey
  cases hvalue : Key.ofValue? (b.clientAt c).user with
  | none =>
    rw [hvalue] at hkey
    cases hkey
  | some key =>
    rw [hvalue] at hkey
    cases hkey
    exact Key.eq_text_of_ofValue? hvalue

end Bridge

namespace Reception

open Bridge

/-- Whom the intents of a service turn to, where `set` is the localpart of the bot in the settings
and `name` its normal form. -/
structure Guided (s : Settings) (set name : String) (r : Reception) : Prop where
  /-- The client of the bot acts as the user of its intent. -/
  oneBot : botUserId s = userId s (.text name) ↔ set = name
  /-- Under every spelling of its localpart the bot is the same user, who should be alone. -/
  bot : ∀ x ∈ r.askings, ∀ i, x.result = .ok i → Localpart.ofValue? x.localpart = some name →
    i.userId = userId s (.text name) ∧ (i.inviter = none ↔ set = name)
  others : ∀ x ∈ r.askings, ∀ i, x.result = .ok i → Localpart.ofValue? x.localpart ≠ some name →
    i.inviter ≠ none
  inviters : ∀ x ∈ r.askings, ∀ i c, x.result = .ok i → i.inviter = some c →
    (r.bridge.clientAt c).user = .text (botUserId s)

theorem botUserId_iff {s : Settings} {set name : String} (hset : s.botLocalpart = .text set) :
    userId s (.text name) = botUserId s ↔ name = set := by
  rw [botUserId, hset]
  exact ⟨userId_injective, fun h => h ▸ rfl⟩

theorem Orderly.guided {s : Settings} {r : Reception} {set name : String} (h : Orderly s r)
    (hset : s.botLocalpart = .text set) (hname : Localpart.normalize? set = some name) :
    Guided s set name r := by
  have hbelongs {x : Asking} (hx : x ∈ r.askings) {i : Intent} (hi : x.result = .ok i) :
      Localpart.ofValue? x.localpart = some i.localpart ∧ r.bridge.Belongs i.localpart i :=
    ⟨(h.given x hx i hi).2.1, h.staffed.intents _ i (h.given x hx i hi).2.2⟩
  -- An intent has no inviter if it is the one of the localpart as it is set.
  have halone {i : Intent} (hi : r.bridge.Belongs i.localpart i) :
      i.inviter = none ↔ i.localpart = set := by
    rw [hi.alone, hi.userId, h.settings]
    exact botUserId_iff hset
  refine ⟨?_, ?_, ?_, ?_⟩
  · rw [eq_comm, botUserId_iff hset, eq_comm]
  · intro x hx i hi hspelling
    obtain ⟨hlocalpart, hb⟩ := hbelongs hx hi
    cases hlocalpart.symm.trans hspelling
    rw [halone hb, ← h.settings]
    exact ⟨hb.userId, eq_comm⟩
  · intro x hx i hi hother hnone
    obtain ⟨hlocalpart, hb⟩ := hbelongs hx hi
    have hnormal := hb.normal
    rw [(halone hb).mp hnone, Localpart.ofValue?_text, hname] at hnormal
    rw [hlocalpart, (halone hb).mp hnone] at hother
    exact hother hnormal.symm
  · intro x hx i c hi hc
    have hinviter := (hbelongs hx hi).2.inviter c hc
    rw [h.settings] at hinviter
    exact h.staffed.user hinviter

/-- Whatever is done with a service, its bot is the one who invites all others, and is not invited
itself, if and only if its localpart is set in normal form. -/
theorem intents_guided (b : Bridge) (hb : Unused b) {set name : String}
    (hset : b.settings.botLocalpart = .text set) (hname : Localpart.normalize? set = some name)
    (errands : List Errand) : Guided b.settings set name (after errands b) :=
  (orderly_after hb errands).guided hset hname

theorem intents_guided_errands :
    let r := after Example.errands {}
    r.askings.map (fun x => x.result.toOption.map fun i => (i.localpart, i.inviter)) =
        [some ("ghost_alice", some 1), some ("bridgebot", none), some ("bob", some 1),
          some ("ghost_alice", some 1), none, none] ∧
      Guided {} "bridgebot" "bridgebot" r := by
  intro r
  exact ⟨by decide +kernel,
    intents_guided {} ⟨rfl, rfl, rfl, rfl⟩ rfl (by decide +kernel) Example.errands⟩

/-- A bot with a capital letter in its localpart gets an inviter, who is another user. -/
theorem capital_bot_invited :
    let b : Bridge := { settings := { botLocalpart := .text "BridgeBot" } }
    let asked := botIntent.outcome b
    Localpart.normalize? "BridgeBot" = some "bridgebot" ∧
      asked.1.toOption.map (fun i => (i.userId, i.inviter)) =
        some ("@bridgebot:localhost", some 1) ∧
      botUserId b.settings = "@BridgeBot:localhost" ∧
      asked.2.clients.map (fun c => c.user.display) =
        ["@bridgebot:localhost", "@BridgeBot:localhost"] := by
  decide +kernel

end Reception

end VirtualUsers
