import VirtualUsers.Proofs.Localparts
import VirtualUsers.Proofs.Numbering
/-!
# One intent for each user

A service keeps its intents by localpart and its clients by user id. Whatever is kept belongs where
it is kept, and stays there while the service is used. Main statement: an intent is found again
under every spelling of its localpart, different intents have different users and clients, and a
service is as it was after an intent was declined.
-/

namespace VirtualUsers

namespace Bridge

def HasClient (b : Bridge) (user : String) (c : ClientId) : Prop :=
  Table.get? (.text user) b.clientOf = some c

/-- The intent is the one for a localpart in normal form. The client of the bot is its inviter
unless it acts as the bot. -/
structure Belongs (b : Bridge) (name : String) (i : Intent) : Prop where
  localpart : i.localpart = name
  normal : Localpart.ofValue? (.text name) = some name
  userId : i.userId = userId b.settings (.text name)
  client : b.HasClient i.userId i.client
  alone : i.inviter = none ↔ i.userId = botUserId b.settings
  inviter : ∀ c, i.inviter = some c → b.HasClient (botUserId b.settings) c

/-- All clients and intents belong where they are kept. -/
structure Staffed (b : Bridge) : Prop where
  clients : ∀ key c, Table.get? key b.clientOf = some c →
    c < b.clients.length ∧ (b.clientAt c).user.toKey = .ok key
  intents : ∀ name i, Table.get? name b.intents = some i → b.Belongs name i

/-- All clients and intents that were kept are still kept. -/
structure Grows (b b' : Bridge) : Prop where
  settings : b'.settings = b.settings
  clients : ∀ key c, Table.get? key b.clientOf = some c → Table.get? key b'.clientOf = some c
  intents : ∀ name i, Table.get? name b.intents = some i → Table.get? name b'.intents = some i

variable {b b' b'' : Bridge} {name : String} {i j : Intent} {c : ClientId}

namespace Grows

theorem refl (b : Bridge) : Grows b b := ⟨rfl, fun _ _ h => h, fun _ _ h => h⟩

theorem trans (h : Grows b b') (h' : Grows b' b'') : Grows b b'' :=
  ⟨h'.settings.trans h.settings, fun key c hc => h'.clients key c (h.clients key c hc),
    fun name i hi => h'.intents name i (h.intents name i hi)⟩

theorem belongs (h : Grows b b') (hi : b.Belongs name i) : b'.Belongs name i := by
  refine ⟨hi.localpart, hi.normal, ?_, h.clients _ _ hi.client, ?_, fun c hc => ?_⟩
  · rw [h.settings]
    exact hi.userId
  · rw [h.settings]
    exact hi.alone
  · rw [h.settings]
    exact h.clients _ _ (hi.inviter c hc)

end Grows

/-! ## What does not ask for intents -/

theorem SameService.grows (h : SameService b b') : Grows b b' := by
  refine ⟨h.settings, ?_, ?_⟩
  · rw [h.clientOf]
    exact fun _ _ hc => hc
  · rw [h.intents]
    exact fun _ _ hi => hi

theorem Staffed.same (hb : Staffed b) (h : SameService b b') : Staffed b' := by
  have hlength : b'.clients.length = b.clients.length := by
    have hsenders := congrArg List.length h.senders
    rwa [senders, senders, List.length_map, List.length_map] at hsenders
  refine ⟨fun key c hc => ?_, fun name i hi => ?_⟩
  · rw [h.clientOf] at hc
    rw [hlength, h.user]
    exact hb.clients key c hc
  · rw [h.intents] at hi
    exact h.grows.belongs (hb.intents name i hi)

theorem Asks.sameService {sends : Exchange → Prop} {read : Value → Except Failure α} {ask : Act α}
    (h : Asks b sends read ask) : SameService b (ask.outcome b).2 := by
  rcases h with ⟨e, b', hout, -, hb'⟩ | ⟨x, b', hout, -, hb'⟩
  · rw [hout]
    exact hb'.toSameService
  · rw [hout]
    exact hb'.toSameService

/-- A service is the same after any request. -/
theorem carries_sameService (c : ClientId) : Carries c SameService where
  refl := .refl
  trans h h' := h.trans h'
  note b name level text := (untouched_noted b name level text).toSameService
  tally _ _ := ⟨rfl, rfl, rfl, rfl, rfl, rfl⟩
  powerLevels _ _ := ⟨rfl, rfl, rfl, rfl, rfl, rfl⟩
  typing _ _ := ⟨rfl, rfl, rfl, rfl, rfl, rfl⟩
  members _ _ := ⟨rfl, rfl, rfl, rfl, rfl, rfl⟩
  files _ _ := ⟨rfl, rfl, rfl, rfl, rfl, rfl⟩
  users _ _ := ⟨rfl, rfl, rfl, rfl, rfl, rfl⟩
  request d endpoint body params asUser _ b :=
    (asks_send b d endpoint body params asUser).sameService
  message room type content timestamp b :=
    (asks_sendMessage b c room type content timestamp).sameService
  redaction room event reason b := (asks_sendRedaction b c room event reason).sameService

/-! ## Clients -/

/-- A service that was asked for a client is staffed, and has it. It is as it was if it declines,
which it does only before it has its first client. -/
structure Hires (b : Bridge) (key : Key) (out : Except Failure ClientId × Bridge) : Prop where
  staffed : Staffed out.2
  grows : Grows b out.2
  intents : out.2.intents = b.intents
  hired : ∀ c, out.1 = .ok c → Table.get? key out.2.clientOf = some c
  declined : ∀ e, out.1 = .error e → out.2 = b ∧ b.clients = []

theorem Staffed.addClient (h : Staffed b) {client : Client} {key : Key}
    (hkey : client.user.toKey = .ok key) (hnone : Table.get? key b.clientOf = none) :
    Hires b key (.ok b.clients.length, { b with
      clients := b.clients ++ [client]
      clientOf := Table.put key b.clients.length b.clientOf }) := by
  have hgrows : Grows b { b with
      clients := b.clients ++ [client]
      clientOf := Table.put key b.clients.length b.clientOf } := by
    refine ⟨rfl, fun l c hc => ?_, fun _ _ hi => hi⟩
    have hne : l ≠ key := by
      rintro rfl
      rw [hnone] at hc
      cases hc
    exact (Table.get?_put_of_ne hne _ _).trans hc
  refine ⟨⟨fun l c hc => ?_, fun name i hi => hgrows.belongs (h.intents name i hi)⟩, hgrows, rfl,
    fun c hc => ?_, fun e he => by cases he⟩
  · rw [Table.get?_put] at hc
    simp only [clientAt, List.length_append, List.length_singleton]
    split at hc
    · next hl =>
      cases hc
      rw [List.getElem?_concat_length, hl]
      exact ⟨Nat.lt_succ_self _, hkey⟩
    · obtain ⟨hlt, huser⟩ := h.clients l c hc
      rw [List.getElem?_append_left hlt]
      exact ⟨Nat.lt_succ_of_lt hlt, huser⟩
  · cases hc
    exact Table.get?_put_self _ _ _

theorem clientFor_hires (h : Staffed b) {user : Value} {key : Key} (hkey : user.toKey = .ok key) :
    Hires b key ((clientFor user).outcome b) := by
  have hcases := clientFor_cases user b
  generalize (clientFor user).outcome b = out at hcases ⊢
  cases hcases with
  | keyless e hnone =>
    rw [hkey] at hnone
    cases hnone
  | unmade e hclients => exact ⟨h, .refl b, rfl, nofun, fun _ _ => ⟨rfl, hclients⟩⟩
  | kept key' c hkey' hget =>
    cases Except.ok.inj (hkey.symm.trans hkey')
    refine ⟨h, .refl b, rfl, fun d hd => ?_, nofun⟩
    cases hd
    exact hget
  | made key' client huser hkey' hget =>
    cases Except.ok.inj (hkey.symm.trans hkey')
    exact h.addClient (huser ▸ hkey) hget

theorem clientFor_staffed (user : Value) (h : Staffed b) :
    Staffed ((clientFor user).outcome b).2 ∧ Grows b ((clientFor user).outcome b).2 := by
  cases hkey : user.toKey with
  | error e =>
    rw [clientFor, Attempt.outcome_bind, Attempt.outcome_ofResult, hkey]
    exact ⟨h, .refl b⟩
  | ok key =>
    have hhires := clientFor_hires h hkey
    exact ⟨hhires.staffed, hhires.grows⟩

/-- The client of a user who has one is found. -/
theorem outcome_clientFor {user : String} (h : b.HasClient user c) :
    (clientFor (.text user)).outcome b = (.ok c, b) := by
  rw [clientFor, Attempt.outcome_bind, Attempt.outcome_ofResult, Value.toKey_text,
    Attempt.follow_ok, Attempt.outcome_bind, Attempt.outcome_get, Attempt.follow_ok, h]
  rfl

/-! ## Intents -/

/-- An intent that belongs to the service has the inviter that is chosen for it. -/
theorem Belongs.outcome_inviterFor (h : b.Belongs name i) :
    (inviterFor i.userId).outcome b = (.ok i.inviter, b) := by
  rw [Bridge.outcome_inviterFor]
  cases hinviter : i.inviter with
  | none => rw [if_pos (h.alone.mp hinviter)]
  | some c =>
    have hother : i.userId ≠ botUserId b.settings := fun heq => by
      rw [h.alone.mpr heq] at hinviter
      cases hinviter
    rw [if_neg hother, outcome_clientFor (h.inviter c hinviter)]
    rfl

/-- The intent that is kept under a localpart is found, unless it is asked for in the other
capacity. -/
theorem outcome_intent_kept (h : Staffed b) {localpart : Value}
    (hname : Localpart.ofValue? localpart = some name) (hkept : Table.get? name b.intents = some i)
    (puppet : Bool) :
    (intent localpart puppet).outcome b =
      (if i.puppet == puppet then .ok i else .error (.puppetDiffers i.userId i.puppet), b) := by
  have hi := h.intents name i hkept
  rw [intent, hname]
  dsimp only
  rw [Attempt.outcome_bind, Attempt.outcome_get, Attempt.follow_ok, ← hi.userId,
    Attempt.outcome_bind, outcome_clientFor hi.client, Attempt.follow_ok, Attempt.outcome_bind,
    hi.outcome_inviterFor, Attempt.follow_ok, keepIntent, Attempt.outcome_bind,
    Attempt.outcome_get, Attempt.follow_ok, hkept]
  dsimp only
  split <;> rfl

/-- Why an intent can be declined: its localpart has no normal form, the user has an intent in the
other capacity, or the first client of the service cannot be made. -/
inductive Declines (b : Bridge) (localpart : Value) (puppet : Bool) : Failure → Prop
  | localpart (h : Localpart.ofValue? localpart = none) :
    Declines b localpart puppet (.localpart localpart)
  | capacity (name : String) (i : Intent) (hname : Localpart.ofValue? localpart = some name)
    (hkept : Table.get? name b.intents = some i) (hpuppet : i.puppet ≠ puppet) :
    Declines b localpart puppet (.puppetDiffers i.userId i.puppet)
  | client (e : Failure) (h : b.clients = []) : Declines b localpart puppet e

/-- A service that was asked for an intent is staffed, and keeps it. It is as it was if it
declines. -/
structure Employs (b : Bridge) (localpart : Value) (puppet : Bool)
    (out : Except Failure Intent × Bridge) : Prop where
  staffed : Staffed out.2
  grows : Grows b out.2
  employed : ∀ i, out.1 = .ok i → i.puppet = puppet ∧
    Localpart.ofValue? localpart = some i.localpart ∧
    Table.get? i.localpart out.2.intents = some i
  declined : ∀ e, out.1 = .error e → out.2 = b ∧ Declines b localpart puppet e

/-- A user who acts for the first time gets the client of its id, and the one of the bot. -/
theorem inviterFor_chosen (h : Staffed b) {user : String} (hc : b.HasClient user c) :
    ∃ inviter b', (inviterFor user).outcome b = (.ok inviter, b') ∧ Staffed b' ∧ Grows b b' ∧
      b'.intents = b.intents ∧ (inviter = none ↔ user = botUserId b.settings) ∧
      ∀ d, inviter = some d → b'.HasClient (botUserId b.settings) d := by
  rw [outcome_inviterFor]
  by_cases hbot : user = botUserId b.settings
  · rw [if_pos hbot]
    exact ⟨none, b, rfl, h, .refl b, rfl, iff_of_true rfl hbot, nofun⟩
  · rw [if_neg hbot]
    have hhires := clientFor_hires h (Value.toKey_text (botUserId b.settings))
    rcases hout : (clientFor (.text (botUserId b.settings))).outcome b with ⟨e | d, b'⟩
    · -- The user has a client, so this one is not the first.
      rw [hout] at hhires
      have hpresent := (h.clients _ c hc).1
      rw [(hhires.declined e rfl).2] at hpresent
      exact absurd hpresent (Nat.not_lt_zero _)
    · rw [hout] at hhires
      refine ⟨some d, b', rfl, hhires.staffed, hhires.grows, hhires.intents,
        iff_of_false nofun hbot, fun e he => ?_⟩
      cases he
      exact hhires.hired d rfl

/-- An intent that belongs to the service is kept. -/
theorem keepIntent_new (h : Staffed b) (hi : b.Belongs i.localpart i)
    (hnone : Table.get? i.localpart b.intents = none) :
    ∃ b', (keepIntent i).outcome b = (.ok i, b') ∧ Staffed b' ∧ Grows b b' ∧
      Table.get? i.localpart b'.intents = some i := by
  have hgrows : Grows b { b with intents := Table.put i.localpart i b.intents } := by
    refine ⟨rfl, fun _ _ hc => hc, fun name j hj => ?_⟩
    have hne : name ≠ i.localpart := by
      rintro rfl
      rw [hnone] at hj
      cases hj
    exact (Table.get?_put_of_ne hne _ _).trans hj
  refine ⟨{ b with intents := Table.put i.localpart i b.intents }, ?_, ⟨h.clients, ?_⟩, hgrows,
    Table.get?_put_self _ _ _⟩
  · rw [keepIntent, Attempt.outcome_bind, Attempt.outcome_get, Attempt.follow_ok, hnone]
    rfl
  · intro name j hj
    rw [Table.get?_put] at hj
    split at hj
    · next hname =>
      cases hj
      exact hname ▸ hgrows.belongs hi
    · exact hgrows.belongs (h.intents name j hj)

theorem intent_made (h : Staffed b) {localpart : Value}
    (hname : Localpart.ofValue? localpart = some name) (hnone : Table.get? name b.intents = none)
    (puppet : Bool) : Employs b localpart puppet ((intent localpart puppet).outcome b) := by
  have hcases := intent_cases localpart puppet b
  generalize (intent localpart puppet).outcome b = out at hcases ⊢
  cases hcases with
  | nameless hno =>
    rw [hname] at hno
    cases hno
  | clientless name' e b₁ _ hclient =>
    have hhires := clientFor_hires h (Value.toKey_text (userId b.settings (.text name')))
    rw [hclient] at hhires
    obtain ⟨hsame, hclients⟩ := hhires.declined e rfl
    cases hsame
    exact ⟨h, .refl b₁, nofun, fun e' _ => ⟨rfl, .client e' hclients⟩⟩
  | botless name' c e b₁ b₂ _ hclient hinviter =>
    -- Once the user has a client, there is one for the bot.
    have hhires := clientFor_hires h (Value.toKey_text (userId b.settings (.text name')))
    rw [hclient] at hhires
    obtain ⟨inviter, b', hchosen, -⟩ := inviterFor_chosen hhires.staffed (hhires.hired c rfl)
    cases hinviter.symm.trans hchosen
  | kept made b₁ b₂ hname' hpuppet huser hclient hinviter =>
    have hhires := clientFor_hires h (Value.toKey_text made.userId)
    rw [hclient] at hhires
    have hc := hhires.hired made.client rfl
    have hsettings := hhires.grows.settings
    obtain ⟨inviter, b', hchosen, hstaffed, hgrows, hintents, halone, hbot⟩ :=
      inviterFor_chosen hhires.staffed hc
    cases hinviter.symm.trans hchosen
    have hmade : b₂.Belongs made.localpart made := by
      refine ⟨rfl, Localpart.ofValue?_normal hname', ?_, hgrows.clients _ _ hc, ?_, ?_⟩
      · rw [hgrows.settings, hsettings]
        exact huser
      · rw [hgrows.settings]
        exact halone
      · rw [hgrows.settings]
        exact hbot
    have hnone₂ : Table.get? made.localpart b₂.intents = none := by
      rw [hintents, hhires.intents, ← Option.some.inj (hname.symm.trans hname')]
      exact hnone
    obtain ⟨b₃, hkeep, hstaffed₃, hgrows₃, hget⟩ := keepIntent_new hstaffed hmade hnone₂
    rw [hkeep]
    refine ⟨hstaffed₃, (hhires.grows.trans hgrows).trans hgrows₃, fun i hi => ?_, nofun⟩
    cases hi
    exact ⟨hpuppet, hname', hget⟩

theorem intent_employs (h : Staffed b) (localpart : Value) (puppet : Bool) :
    Employs b localpart puppet ((intent localpart puppet).outcome b) := by
  cases hname : Localpart.ofValue? localpart with
  | none =>
    rw [intent, hname]
    refine ⟨h, .refl b, fun i hi => ?_, fun e he => ?_⟩
    · cases hi
    · cases he
      exact ⟨rfl, .localpart hname⟩
  | some name =>
    cases hget : Table.get? name b.intents with
    | none => exact intent_made h hname hget puppet
    | some i =>
      rw [outcome_intent_kept h hname hget puppet]
      by_cases hpuppet : i.puppet = puppet
      · rw [if_pos (beq_iff_eq.mpr hpuppet)]
        refine ⟨h, .refl b, fun j hj => ?_, fun e he => ?_⟩
        · cases hj
          rw [(h.intents name i hget).localpart]
          exact ⟨hpuppet, hname, hget⟩
        · cases he
      · rw [if_neg (by simpa using hpuppet)]
        refine ⟨h, .refl b, fun j hj => ?_, fun e he => ?_⟩
        · cases hj
        · cases he
          exact ⟨rfl, .capacity name i hname hget hpuppet⟩

/-! ## A service in use -/

theorem Unused.staffed (h : Unused b) : Staffed b := by
  constructor
  · rw [h.clientOf]
    nofun
  · rw [h.intents]
    nofun

/-- However a service is used, it stays staffed and lets nobody go. -/
theorem Staffed.used (h : Staffed b) (u : Use) : Staffed (b.used u) ∧ Grows b (b.used u) := by
  have hsame {b b' : Bridge} (hb : Staffed b) (hb' : SameService b b') : Staffed b' ∧ Grows b b' :=
    ⟨hb.same hb', hb'.grows⟩
  cases u with
  | step s =>
    cases s with
    | act localpart puppet op =>
      have hemploys := intent_employs h localpart puppet
      rcases hout : (intent localpart puppet).outcome b with ⟨e | i, b'⟩
      · rw [hout] at hemploys
        simp only [Bridge.used, Run.step, hout]
        exact ⟨hemploys.staffed, hemploys.grows⟩
      · rw [hout] at hemploys
        simp only [Bridge.used, Run.step, hout, Run.perform]
        obtain ⟨hstaffed, hgrows⟩ := hsame hemploys.staffed
          (keeps_perform (carries_sameService i.client) op b')
        exact ⟨hstaffed, hemploys.grows.trans hgrows⟩
    | observe e =>
      exact hsame h (keeps_observe frame_silent e b).toSameService
    | client user => exact clientFor_staffed user h
    | clock now =>
      have hgrows : Grows b { b with now } := ⟨rfl, fun _ _ hc => hc, fun _ _ hi => hi⟩
      exact ⟨⟨h.clients, fun name i hi => hgrows.belongs (h.intents name i hi)⟩, hgrows⟩
  | request user name a =>
    have hclient := clientFor_staffed (.text user) h
    rw [Bridge.used, Attempt.outcome_bind]
    rcases hout : (clientFor (.text user)).outcome b with ⟨e | c, b'⟩
    · rw [hout] at hclient
      exact hclient
    · rw [hout] at hclient
      obtain ⟨hstaffed, hgrows⟩ := hsame hclient.1
        (keeps_request (carries_sameService c) name a b')
      exact ⟨hstaffed, hclient.2.trans hgrows⟩

end Bridge

/-- What is wanted of a service: the intent for a localpart, the one of its bot, or something
else. -/
inductive Errand where
  | intent (localpart : Value) (puppet : Bool)
  | bot
  | use (u : Use)

/-- An intent that was asked for, what came of it, and the service before and after. -/
structure Asking where
  localpart : Value
  puppet : Bool
  before : Bridge
  result : Except Failure Intent
  after : Bridge

/-- A service, and the intents that it was asked for. -/
structure Reception where
  bridge : Bridge
  askings : List Asking := []

namespace Reception

open Bridge

def ask (localpart : Value) (puppet : Bool) (x : Act Intent) (r : Reception) : Reception :=
  let out := x.outcome r.bridge
  ⟨out.2, r.askings ++ [⟨localpart, puppet, r.bridge, out.1, out.2⟩]⟩

def run (r : Reception) : Errand → Reception
  | .intent localpart puppet => r.ask localpart puppet (intent localpart puppet)
  | .bot => r.ask r.bridge.settings.botLocalpart false botIntent
  | .use u => ⟨r.bridge.used u, r.askings⟩

def after (errands : List Errand) (b : Bridge) : Reception :=
  errands.foldl run ⟨b, []⟩

/-- The intents that were given out are kept, and those that were declined left no trace. -/
structure Orderly (settings : Settings) (r : Reception) : Prop where
  settings : r.bridge.settings = settings
  staffed : Staffed r.bridge
  given : ∀ x ∈ r.askings, ∀ i, x.result = .ok i → i.puppet = x.puppet ∧
    Localpart.ofValue? x.localpart = some i.localpart ∧
    Table.get? i.localpart r.bridge.intents = some i
  declined : ∀ x ∈ r.askings, ∀ e, x.result = .error e →
    x.after = x.before ∧ Declines x.before x.localpart x.puppet e

variable {settings : Settings} {r : Reception}

theorem Orderly.ask (h : Orderly settings r) {localpart : Value} {puppet : Bool} {x : Act Intent}
    (hx : x.outcome r.bridge = (intent localpart puppet).outcome r.bridge) :
    Orderly settings (r.ask localpart puppet x) := by
  have hemploys := intent_employs h.staffed localpart puppet
  rw [← hx] at hemploys
  refine ⟨hemploys.grows.settings.trans h.settings, hemploys.staffed, ?_, ?_⟩
  · intro y hy i hi
    rcases List.mem_append.mp hy with hy | hy
    · obtain ⟨hpuppet, hname, hkept⟩ := h.given y hy i hi
      exact ⟨hpuppet, hname, hemploys.grows.intents _ _ hkept⟩
    · cases List.mem_singleton.mp hy
      exact hemploys.employed i hi
  · intro y hy e he
    rcases List.mem_append.mp hy with hy | hy
    · exact h.declined y hy e he
    · cases List.mem_singleton.mp hy
      exact hemploys.declined e he

theorem Orderly.run (h : Orderly settings r) (errand : Errand) :
    Orderly settings (r.run errand) := by
  cases errand with
  | intent localpart puppet => exact h.ask rfl
  | bot =>
    refine h.ask ?_
    rw [botIntent, Attempt.outcome_bind, Attempt.outcome_get, Attempt.follow_ok]
  | use u =>
    obtain ⟨hstaffed, hgrows⟩ := h.staffed.used u
    refine ⟨hgrows.settings.trans h.settings, hstaffed, fun x hx i hi => ?_, h.declined⟩
    obtain ⟨hpuppet, hname, hkept⟩ := h.given x hx i hi
    exact ⟨hpuppet, hname, hgrows.intents _ _ hkept⟩

theorem orderly_after {b : Bridge} (hb : Unused b) (errands : List Errand) :
    Orderly b.settings (after errands b) := by
  suffices h : ∀ r, Orderly b.settings r → Orderly b.settings (errands.foldl Reception.run r) from
    h _ ⟨rfl, hb.staffed, fun x hx => absurd hx List.not_mem_nil,
      fun x hx => absurd hx List.not_mem_nil⟩
  induction errands with
  | nil => exact fun r hr => hr
  | cons errand errands ih => exact fun r hr => ih _ (hr.run errand)

/-! ## Users and their intents -/

/-- The id of a user tells its localpart. -/
theorem userId_injective {s : Settings} {name name' : String}
    (h : userId s (.text name) = userId s (.text name')) : name = name' := by
  have hlist := congrArg String.toList h
  simp only [userId, Localpart.userId, Value.display, String.toList_append] at hlist
  exact String.toList_inj.mp (List.append_cancel_left (List.append_cancel_right
    (List.append_cancel_right hlist)))

/-- Intents and users belong together one to one. -/
structure OneToOne (r : Reception) : Prop where
  /-- An intent is found under all spellings of its localpart, and under no other one. -/
  spellings : ∀ x ∈ r.askings, ∀ y ∈ r.askings, ∀ i j, x.result = .ok i → y.result = .ok j →
    (i = j ↔ Localpart.ofValue? x.localpart = Localpart.ofValue? y.localpart)
  apart : ∀ x ∈ r.askings, ∀ y ∈ r.askings, ∀ i j, x.result = .ok i → y.result = .ok j →
    i ≠ j → i.userId ≠ j.userId ∧ i.client ≠ j.client
  again : ∀ x ∈ r.askings, ∀ i, x.result = .ok i →
    (intent (.text i.localpart) x.puppet).outcome r.bridge = (.ok i, r.bridge)
  declined : ∀ x ∈ r.askings, ∀ e, x.result = .error e →
    x.after = x.before ∧ Declines x.before x.localpart x.puppet e

theorem Orderly.oneToOne (h : Orderly settings r) : OneToOne r := by
  have hbelongs {x : Asking} (hx : x ∈ r.askings) {i : Intent} (hi : x.result = .ok i) :
      r.bridge.Belongs i.localpart i :=
    h.staffed.intents _ i (h.given x hx i hi).2.2
  have hsame {x y : Asking} (hx : x ∈ r.askings) (hy : y ∈ r.askings) {i j : Intent}
      (hi : x.result = .ok i) (hj : y.result = .ok j) (hname : i.localpart = j.localpart) :
      i = j := by
    have hkept := (h.given x hx i hi).2.2
    rw [hname, (h.given y hy j hj).2.2] at hkept
    exact (Option.some.inj hkept).symm
  refine ⟨?_, ?_, ?_, h.declined⟩
  · intro x hx y hy i j hi hj
    rw [(h.given x hx i hi).2.1, (h.given y hy j hj).2.1, Option.some.injEq]
    exact ⟨fun heq => heq ▸ rfl, hsame hx hy hi hj⟩
  · intro x hx y hy i j hi hj hne
    have huser : i.userId ≠ j.userId := by
      intro heq
      rw [(hbelongs hx hi).userId, (hbelongs hy hj).userId] at heq
      exact hne (hsame hx hy hi hj (userId_injective heq))
    refine ⟨huser, fun hclient => huser ?_⟩
    -- One client acts as one user.
    have hkey := (h.staffed.clients _ _ (hbelongs hx hi).client).2
    rw [hclient, (h.staffed.clients _ _ (hbelongs hy hj).client).2] at hkey
    exact (Key.text.inj (Except.ok.inj hkey)).symm
  · intro x hx i hi
    obtain ⟨hpuppet, -, hkept⟩ := h.given x hx i hi
    rw [outcome_intent_kept h.staffed (hbelongs hx hi).normal hkept,
      if_pos (beq_iff_eq.mpr hpuppet)]

/-- Whatever is done with a service, its intents and its users belong together one to one. A
localpart in normal form stays as it is. -/
theorem intents_oneToOne (b : Bridge) (hb : Unused b) (errands : List Errand) :
    OneToOne (after errands b) ∧
      ∀ s name, Localpart.normalize? s = some name → Localpart.normalize? name = some name :=
  ⟨(orderly_after hb errands).oneToOne, fun _ _ => Localpart.normalize?_normal⟩

/-- A user is asked for under two spellings. A puppet is asked for as if it were none, and a name is
no localpart. In between, the user says something. -/
def Example.errands : List Errand :=
  [.intent (.text "Ghost_Alice") false, .bot, .intent (.text "bob") true,
    .use (.step (.act (.text "ghost_alice") false (.sendText (.text "!r:hs") (.text "hello")))),
    .intent (.text " GHOST_ALICE\n") false, .intent (.text "Bob") false,
    .intent (.text "bad:name") false]

theorem intents_oneToOne_errands :
    let r := after Example.errands {}
    r.askings.map (fun x => x.result.toOption.map fun i => (i.localpart, i.client)) =
        [some ("ghost_alice", 0), some ("bridgebot", 1), some ("bob", 2), some ("ghost_alice", 0),
          none, none] ∧
      OneToOne r := by
  intro r
  exact ⟨by decide +kernel, (intents_oneToOne {} ⟨rfl, rfl, rfl, rfl⟩ Example.errands).1⟩

end Reception

end VirtualUsers
