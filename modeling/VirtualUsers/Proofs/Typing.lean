import VirtualUsers.Proofs.Admissions
import VirtualUsers.Proofs.Inviters
/-!
# Who is shown as typing

Users are shown as typing in a room from when the homeserver takes the notice that says so, until
the notice expires or another one is taken. Of this the store keeps the time of expiry, with a time
before all others for who is not typing. Main statement: while users call to be shown as typing or
as not typing and the clock goes on, the store always tells what is shown, so that a call sends a
notice if and only if that would change something.
-/

namespace VirtualUsers

/-- Until when a notice taken at a time shows its user as typing, if it does. -/
def typingUntil? (now : Int) (typing : Bool) (timeout : Int) : Option Int :=
  if typing = true ∧ 0 < timeout then some (now + timeout) else none

/-- The exchange tells that a user types in a room for some time, or has stopped. -/
structure Exchange.Notifies (user room : String) (typing : Bool) (timeout : Int) (x : Exchange) :
    Prop where
  sender : x.sender = .text user
  endpoint : x.request.endpoint = .typing (Text.utf8 room) (Text.utf8 user)
  body : x.request.body = .record (("typing", .bool typing) ::
    if typing = true then [("timeout", .int timeout)] else [])

/-- A call to be shown as typing or as not typing, what came of it, and the service before and
after. -/
structure TypingCall where
  intent : Intent
  room : String
  typing : Bool
  timeout : Int
  before : Bridge
  result : Except Failure Bool
  after : Bridge

namespace TypingCall

def sent (c : TypingCall) : List Exchange :=
  Bridge.newTraffic c.before c.after

def isAccepted (c : TypingCall) : Bool :=
  c.sent.any fun x => x.content.isOk

def until? (c : TypingCall) : Option Int :=
  typingUntil? c.before.now c.typing c.timeout

def isFor (user room : String) (c : TypingCall) : Bool :=
  c.intent.userId == user && c.room == room

/-- Until when a user is shown as typing in a room: the last request for the two that was accepted
decides. -/
def shownUntil? (user room : String) (calls : List TypingCall) : Option Int :=
  (calls.filter fun c => c.isFor user room && c.isAccepted).getLast?.bind until?

def isShown (user room : String) (now : Int) (calls : List TypingCall) : Bool :=
  (shownUntil? user room calls).any fun expiry => now < expiry

/-- After those before it, the call does what it should. -/
structure Apt (before : List TypingCall) (c : TypingCall) : Prop where
  /-- What is shown already is not said again. -/
  silent : c.typing = isShown c.intent.userId c.room c.before.now before → c.sent = []
  told : c.typing ≠ isShown c.intent.userId c.room c.before.now before →
    ∃ x, c.sent = [x] ∧ x.Notifies c.intent.userId c.room c.typing c.timeout
  accepted : c.result = .ok true ↔ c.isAccepted = true
  skipped : c.result = .ok false ↔ c.sent = []
  failed : ∀ e, c.result = .error e →
    c.after.store = c.before.store ∧ c.after.tally = c.before.tally

end TypingCall

/-- What goes on between users who type and their service: the user with a localpart calls to be
shown as typing for some time or as not typing, or time passes. -/
inductive TypingStep where
  | call (localpart : Value) (puppet : Bool) (room : String) (typing : Bool) (timeout : Int)
  | wait (time : Nat)

structure TypingRun where
  bridge : Bridge
  calls : List TypingCall := []

namespace TypingRun

def call (i : Intent) (room : String) (typing : Bool) (timeout : Int) (r : TypingRun) : TypingRun :=
  let out := (Bridge.userTyping i (.text room) (.bool typing) (.int timeout)).outcome r.bridge
  ⟨out.2, r.calls ++ [⟨i, room, typing, timeout, r.bridge, out.1, out.2⟩]⟩

def step (r : TypingRun) : TypingStep → TypingRun
  | .call localpart puppet room typing timeout =>
    match (Bridge.intent localpart puppet).outcome r.bridge with
    | (.ok i, b) => call i room typing timeout ⟨b, r.calls⟩
    | (.error _, b) => ⟨b, r.calls⟩
  | .wait time => ⟨{ r.bridge with now := r.bridge.now + time }, r.calls⟩

def through (steps : List TypingStep) (b : Bridge) : TypingRun :=
  steps.foldl step ⟨b, []⟩

end TypingRun

theorem Value.bool_same_bool (p q : Bool) : (bool p).same (bool q) = (p == q) := by
  cases p <;> cases q <;> simp [same, sameScalar, wholeNumber?, Bool.toInt]

/-! ## Expiries -/

namespace Store

def expiryOf (user room : String) (s : Store) : Int :=
  (cell? (.text room) (.text user) s.typing).getD typingStopped

def note (user room : String) (expiry : Option Int) (s : Store) : Store :=
  { s with typing := enter (.text room) (.text user) (expiry.getD typingStopped) s.typing }

theorem expiryOf_note (user room user' room' : String) (expiry : Option Int) (s : Store) :
    (s.note user' room' expiry).expiryOf user room =
      if user' = user ∧ room' = room then expiry.getD typingStopped else s.expiryOf user room := by
  rw [expiryOf, note, cell?_enter]
  by_cases hsame : user' = user ∧ room' = room
  · obtain ⟨rfl, rfl⟩ := hsame
    simp only [and_self, if_true, Option.getD_some]
  · have hne : ¬ (Key.text room = .text room' ∧ Key.text user = .text user') := by
      simpa only [Key.text.injEq, and_comm, eq_comm] using hsame
    rw [if_neg hsame, if_neg hne]
    rfl

theorem isTyping_text (now : Int) (user room : String) (s : Store) :
    s.isTyping now (.text room) (.text user) = .ok (now < s.expiryOf user room) := rfl

/-- Who is not typing has an expiry that is always over. -/
theorem lt_getD_typingStopped {now : Int} (hnow : 0 ≤ now) (expiry : Option Int) :
    decide (now < expiry.getD typingStopped) = expiry.any fun e => now < e := by
  cases expiry with
  | some e => rfl
  | none =>
    rw [Option.getD_none, Option.any_none, decide_eq_false_iff_not, typingStopped]
    omega

theorem typingExpiry_int (now timeout : Int) :
    typingExpiry now (.int timeout) =
      .ok ((typingUntil? now true timeout).getD typingStopped) := by
  by_cases hpositive : 0 < timeout
  · simp [typingExpiry, typingUntil?, Value.positive, Value.toInt, hpositive]
    rfl
  · simp [typingExpiry, typingUntil?, Value.positive, hpositive]
    rfl

theorem typingExpiry_told (now timeout : Int) (typing : Bool) :
    typingExpiry now (if (Value.bool typing).truthy then .int timeout else .int typingStopped) =
      .ok ((typingUntil? now typing timeout).getD typingStopped) := by
  cases typing with
  | true => exact typingExpiry_int now timeout
  | false => exact typingExpiry_int now typingStopped

end Store

namespace Bridge

variable {b : Bridge} {i : Intent} {user : String}

/-! ## One call -/

/-- A notice of a client of a user is always sent. -/
theorem outcome_sendTyping {d : ClientId} (huser : (b.clientAt d).user = .text user)
    (room : String) (typing : Bool) (timeout : Int) :
    ∃ x b', (sendTyping d (.text room) (.bool typing) (.int timeout)).outcome b =
        (x.content.map fun _ => (), b') ∧
      x.Notifies user room typing timeout ∧ Heard b x b' := by
  obtain ⟨x, b', hout, hfrom, hheard⟩ := outcome_send d
    (.typing (Text.utf8 room) (Text.utf8 user)) (.record (("typing", .bool typing) ::
      if typing = true then [("timeout", .int timeout)] else [])) [] true b
  refine ⟨x, b', ?_, ⟨hfrom.1.trans huser, hfrom.endpoint_eq, hfrom.body_eq⟩, hheard⟩
  rw [sendTyping_eq, segment_text, Attempt.outcome_bind, Attempt.outcome_ofResult,
    Attempt.follow_ok, Attempt.outcome_bind, outcome_client, Attempt.follow_ok, huser, segment_text,
    Attempt.outcome_bind, Attempt.outcome_ofResult, Attempt.follow_ok]
  exact (Attempt.outcome_map (fun _ => ()) _ b).trans (by rw [hout])

/-- What a call comes to: nothing is sent, or a notice that is refused or taken. -/
inductive Notice (b : Bridge) (i : Intent) (room : String) (typing : Bool) (timeout : Int) :
    Except Failure Bool × Bridge → Prop
  | needless (hshown : b.store.isTyping b.now (.text room) (.text i.userId) = .ok typing) :
    Notice b i room typing timeout (.ok false, { b with tally := b.tally.add .typingSkipped 1 })
  | refused (x : Exchange) (e : Failure) (c : Bridge)
    (hshown : b.store.isTyping b.now (.text room) (.text i.userId) = .ok !typing)
    (hx : x.Notifies i.userId room typing timeout) (hheard : Heard b x c)
    (hrefused : x.content = .error e) : Notice b i room typing timeout (.error e, c)
  | taken (x : Exchange) (data : Value) (c : Bridge)
    (hshown : b.store.isTyping b.now (.text room) (.text i.userId) = .ok !typing)
    (hx : x.Notifies i.userId room typing timeout) (hheard : Heard b x c)
    (htaken : x.content = .ok data) :
    Notice b i room typing timeout (.ok true, { c with
      tally := c.tally.add .typingSent 1
      store := c.store.note i.userId room (typingUntil? b.now typing timeout) })

/-- A notice that was taken is counted, and its expiry noted. -/
theorem outcome_recordTyping (i : Intent) (now : Int) (room : String) (typing : Bool)
    (timeout : Int) (b : Bridge) :
    (recordTyping i now (.text room) (.bool typing) (.int timeout)).outcome b =
      (.ok (), { b with
        tally := b.tally.add .typingSent 1
        store := b.store.note i.userId room (typingUntil? now typing timeout) }) := by
  rw [recordTyping, Attempt.outcome_bind, outcome_count, Attempt.follow_ok, outcome_onStore,
    Store.setTyping, Store.typingExpiry_told]
  rfl

theorem userTyping_notice (huser : (b.clientAt i.client).user = .text i.userId) (room : String)
    (typing : Bool) (timeout : Int) : Notice b i room typing timeout
      ((userTyping i (.text room) (.bool typing) (.int timeout)).outcome b) := by
  have hshown := b.store.isTyping_text b.now i.userId room
  generalize decide (b.now < b.store.expiryOf i.userId room) = shown at hshown
  rw [userTyping, Attempt.outcome_bind, Attempt.outcome_get, Attempt.follow_ok,
    Attempt.outcome_bind, outcome_ask, hshown, Attempt.follow_ok, Value.bool_same_bool]
  split
  · next hsame =>
    rw [beq_iff_eq.mp hsame] at hshown
    exact .needless hshown
  · next hother =>
    have hnot : shown = !typing := Bool.eq_not.mpr fun heq => hother (beq_iff_eq.mpr heq)
    rw [hnot] at hshown
    obtain ⟨x, c, hout, hx, hheard⟩ := outcome_sendTyping huser room typing timeout
    rw [Attempt.outcome_bind, hout]
    cases hcontent : x.content with
    | error e => exact .refused x e c hshown hx hheard hcontent
    | ok data =>
      change Notice b i room typing timeout (Attempt.follow _ (.ok (), c))
      rw [Attempt.follow_ok, Attempt.outcome_bind, outcome_recordTyping, Attempt.follow_ok]
      exact .taken x data c hshown hx hheard hcontent

theorem Staffed.named (h : Staffed b) : IntentsNamed b := fun name i hi =>
  ⟨(h.intents name i hi).localpart, (h.intents name i hi).userId⟩

end Bridge

/-! ## All calls -/

namespace TypingCall

variable {user room : String} {before calls : List TypingCall} {c : TypingCall} {x : Exchange}

theorem shownUntil?_concat (user room : String) (calls : List TypingCall) (c : TypingCall) :
    shownUntil? user room (calls ++ [c]) =
      if c.isFor user room && c.isAccepted then c.until? else shownUntil? user room calls := by
  rw [shownUntil?, List.filter_append, List.filter_cons, List.filter_nil]
  split
  · rw [List.getLast?_concat, Option.bind_some]
  · rw [List.append_nil, shownUntil?]

theorem isFor_iff : c.isFor user room = true ↔ c.intent.userId = user ∧ c.room = room := by
  rw [isFor, Bool.and_eq_true, beq_iff_eq, beq_iff_eq]

theorem sent_eq {xs : List Exchange} (h : c.after.traffic = c.before.traffic ++ xs) :
    c.sent = xs :=
  Run.newTraffic_eq h

theorem isAccepted_of_nil (hsent : c.sent = []) : c.isAccepted = false := by
  rw [isAccepted, hsent, List.any_nil]

theorem isAccepted_of_singleton (hsent : c.sent = [x]) : c.isAccepted = x.content.isOk := by
  rw [isAccepted, hsent, List.any_cons, List.any_nil, Bool.or_false]

theorem apt_of_needless (hshown : c.typing = isShown c.intent.userId c.room c.before.now before)
    (hsent : c.sent = []) (hresult : c.result = .ok false) : Apt before c where
  silent _ := hsent
  told hne := absurd hshown hne
  accepted := by
    rw [isAccepted_of_nil hsent, hresult]
    exact iff_of_false (fun h => nomatch h) Bool.false_ne_true
  skipped := iff_of_true hresult hsent
  failed e he := by
    rw [hresult] at he
    cases he

theorem apt_of_told (hshown : c.typing ≠ isShown c.intent.userId c.room c.before.now before)
    (hsent : c.sent = [x]) (hx : x.Notifies c.intent.userId c.room c.typing c.timeout)
    (hresult : c.result = x.content.map fun _ => true)
    (hfailed : ∀ e, c.result = .error e →
      c.after.store = c.before.store ∧ c.after.tally = c.before.tally) : Apt before c where
  silent heq := absurd heq hshown
  told _ := ⟨x, hsent, hx⟩
  accepted := by
    rw [isAccepted_of_singleton hsent, hresult]
    cases x.content with
    | ok data => exact iff_of_true rfl rfl
    | error e => exact iff_of_false (fun h => nomatch h) Bool.false_ne_true
  skipped := by
    rw [hsent, hresult]
    refine iff_of_false (fun h => ?_) (List.cons_ne_nil x [])
    cases hcontent : x.content <;> rw [hcontent] at h <;> cases h
  failed := hfailed

end TypingCall

namespace TypingRun

open Bridge
open TypingCall (Apt isShown shownUntil?)

/-- The store knows what the calls have come to. -/
structure Known (r : TypingRun) : Prop where
  staffed : Staffed r.bridge
  clock : 0 ≤ r.bridge.now
  expiry : ∀ user room, r.bridge.store.expiryOf user room =
    (shownUntil? user room r.calls).getD typingStopped
  apt : Throughout Apt r.calls

variable {r : TypingRun} {i : Intent}

theorem Known.isTyping (h : Known r) (user room : String) :
    r.bridge.store.isTyping r.bridge.now (.text room) (.text user) =
      .ok (isShown user room r.bridge.now r.calls) := by
  rw [Store.isTyping_text, h.expiry, Store.lt_getD_typingStopped h.clock, isShown]

/-- One more call, with what the store knows after it. -/
theorem Known.concat (h : Known r) {c : TypingCall} (hservice : SameService r.bridge c.after)
    (hexpiry : ∀ user room, c.after.store.expiryOf user room =
      if c.isFor user room && c.isAccepted then c.until?.getD typingStopped
      else r.bridge.store.expiryOf user room)
    (hapt : Apt r.calls c) : Known ⟨c.after, r.calls ++ [c]⟩ where
  staffed := h.staffed.same hservice
  clock := hservice.now ▸ h.clock
  expiry user room := by
    rw [TypingCall.shownUntil?_concat, hexpiry user room]
    split
    · rfl
    · exact h.expiry user room
  apt := h.apt.concat hapt

/-- A call after which the store knows what it did before. -/
theorem Known.concat_same (h : Known r) {c : TypingCall} (hservice : SameService r.bridge c.after)
    (hstore : c.after.store = r.bridge.store) (hrefused : c.isAccepted = false)
    (hapt : Apt r.calls c) : Known ⟨c.after, r.calls ++ [c]⟩ := by
  refine h.concat hservice (fun user room => ?_) hapt
  rw [hrefused, Bool.and_false, hstore]
  rfl

/-- A user who has a client calls. -/
theorem Known.call (h : Known r) (huser : (r.bridge.clientAt i.client).user = .text i.userId)
    (room : String) (typing : Bool) (timeout : Int) : Known (r.call i room typing timeout) := by
  have hknown := h.isTyping i.userId room
  have hother (hshown : r.bridge.store.isTyping r.bridge.now (.text room) (.text i.userId) =
      .ok !typing) : typing ≠ isShown i.userId room r.bridge.now r.calls := by
    rw [Except.ok.inj (hknown.symm.trans hshown)]
    exact fun heq => Bool.eq_not.mp heq rfl
  have hnotice := userTyping_notice huser room typing timeout
  rw [TypingRun.call]
  generalize (userTyping i (.text room) (.bool typing) (.int timeout)).outcome r.bridge = out
    at hnotice ⊢
  let c : TypingCall := ⟨i, room, typing, timeout, r.bridge, out.1, out.2⟩
  change Known ⟨c.after, r.calls ++ [c]⟩
  cases hnotice with
  | needless hshown =>
    have hsent : c.sent = [] := TypingCall.sent_eq (List.append_nil _).symm
    have hapt : Apt r.calls c :=
      TypingCall.apt_of_needless (Except.ok.inj (hshown.symm.trans hknown)) hsent rfl
    exact h.concat_same ⟨rfl, rfl, rfl, rfl, rfl, rfl⟩ rfl (TypingCall.isAccepted_of_nil hsent) hapt
  | refused x e b hshown hx hheard hrefused =>
    have hsent : c.sent = [x] := TypingCall.sent_eq hheard.traffic
    have hapt : Apt r.calls c := TypingCall.apt_of_told (hother hshown) hsent hx
      (by rw [hrefused]; rfl) fun _ _ => ⟨hheard.store, hheard.tally⟩
    refine h.concat_same hheard.toSameService hheard.store ?_ hapt
    rw [TypingCall.isAccepted_of_singleton hsent, hrefused]
    rfl
  | taken x data b hshown hx hheard htaken =>
    have hsent : c.sent = [x] := TypingCall.sent_eq hheard.traffic
    have hapt : Apt r.calls c := TypingCall.apt_of_told (hother hshown) hsent hx
      (by rw [htaken]; rfl) nofun
    have haccepted : c.isAccepted = true := by
      rw [TypingCall.isAccepted_of_singleton hsent, htaken]
      rfl
    have hservice : SameService r.bridge c.after := hheard.toSameService.trans
      ⟨rfl, rfl, rfl, rfl, rfl, rfl⟩
    refine h.concat hservice (fun user room' => ?_) hapt
    change (b.store.note _ _ _).expiryOf user room' = _
    rw [Store.expiryOf_note, hheard.store, haccepted, Bool.and_true]
    simp only [TypingCall.isFor_iff]
    rfl

/-- Time passes. -/
theorem Known.wait (h : Known r) (time : Nat) : Known (r.step (.wait time)) where
  staffed := by
    have hgrows : Grows r.bridge { r.bridge with now := r.bridge.now + time } :=
      ⟨rfl, fun _ _ hc => hc, fun _ _ hi => hi⟩
    exact ⟨h.staffed.clients, fun name i hi => hgrows.belongs (h.staffed.intents name i hi)⟩
  clock := Int.add_nonneg h.clock (Int.natCast_nonneg time)
  expiry := h.expiry
  apt := h.apt

theorem Known.step (h : Known r) (s : TypingStep) : Known (r.step s) := by
  cases s with
  | wait time => exact h.wait time
  | call localpart puppet room typing timeout =>
    have hemploys := intent_employs h.staffed localpart puppet
    have hfinds := intent_finds localpart puppet h.staffed.named
    rcases hout : (intent localpart puppet).outcome r.bridge with ⟨e | i, b⟩
    all_goals
      rw [hout] at hemploys hfinds
      have hb : Known ⟨b, r.calls⟩ := ⟨hemploys.staffed, hfinds.now ▸ h.clock,
        fun user room => by rw [hfinds.store]; exact h.expiry user room, h.apt⟩
      simp only [TypingRun.step, hout]
    · exact hb
    · have hkept := (hemploys.employed i rfl).2.2
      have hclient := (hemploys.staffed.intents _ i hkept).client
      exact hb.call (hemploys.staffed.user hclient) room typing timeout

theorem known_through {b : Bridge} (hb : Unused b) (hnow : 0 ≤ b.now)
    (htyping : b.store.typing = []) (steps : List TypingStep) : Known (through steps b) := by
  suffices h : ∀ r, Known r → Known (steps.foldl TypingRun.step r) by
    refine h _ ⟨hb.staffed, hnow, fun user room => ?_, throughout_nil _⟩
    rw [Store.expiryOf, htyping]
    rfl
  induction steps with
  | nil => exact fun r hr => hr
  | cons s steps ih => exact fun r hr => ih _ (hr.step s)

/-- While users of a new service call to be shown as typing or as not typing, whatever becomes of
their requests, the store tells at any time who is shown, and each call does what it should. -/
theorem typing_told (b : Bridge) (hb : Unused b) (hnow : 0 ≤ b.now)
    (htyping : b.store.typing = []) (steps : List TypingStep) :
    let r := through steps b
    (∀ user room, r.bridge.store.isTyping r.bridge.now (.text room) (.text user) =
      .ok (isShown user room r.bridge.now r.calls)) ∧ Throughout Apt r.calls := by
  have h := known_through hb hnow htyping steps
  exact ⟨h.isTyping, h.apt⟩

def Example.halting : Bridge :=
  { answers := [.empty, .empty, .unreachable "down"] }

/-- Alice calls while she is shown, again when she no longer is, which is refused, and then not to
be shown. Bob is shown, stops, and calls to be shown for no time and for a short one. -/
def Example.typists : List TypingStep :=
  let alice := TypingStep.call (.text "alice") false "!r:hs"
  let bob := TypingStep.call (.text "bob") false "!r:hs"
  [alice true 1000, alice true 500, bob true 5000, .wait 999, alice true 1000, .wait 1,
    alice true 1000, alice false 0, bob false 0, bob true (-3), bob true 10]

theorem typing_told_typists :
    let r := through Example.typists Example.halting
    r.calls.map (fun c => (c.result.toOption, c.sent.length)) =
        [(some true, 1), (some false, 0), (some true, 1), (some false, 0), (none, 1),
          (some false, 0), (some true, 1), (some true, 1), (some true, 1)] ∧
      (∀ user room, r.bridge.store.isTyping r.bridge.now (.text room) (.text user) =
        .ok (isShown user room r.bridge.now r.calls)) ∧ Throughout Apt r.calls := by
  intro r
  exact ⟨by decide +kernel, typing_told Example.halting ⟨rfl, rfl, rfl, rfl⟩ (by decide) rfl _⟩

end TypingRun

end VirtualUsers
