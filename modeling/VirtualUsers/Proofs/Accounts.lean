import Mathlib.Data.List.Count
import VirtualUsers.Proofs.Admissions
import VirtualUsers.Proofs.Counts
/-!
# The tally is an account of the traffic

All through a run each count of requests is the number of exchanges that count for it, at the end as
well as whenever a request is sent.
-/

namespace VirtualUsers

namespace Moment

/-- Each count of requests is the number of the moments that count for it. -/
def Tallied (moments : List Moment) (t : Tally) : Prop :=
  ∀ c ∈ Counter.ofRequests, t.count c = moments.countP fun m => decide (m.counter? = some c)

variable {moments : List Moment} {m : Moment} {t t' : Tally}

theorem tallied_zero : Tallied [] .zero :=
  fun c _ => Tally.count_zero c

theorem Tallied.same (h : Tallied moments t) (h' : Tally.Adds none t t') : Tallied moments t' := by
  intro c hc
  rw [h' c hc, if_neg nofun, Int.add_zero]
  exact h c hc

theorem Tallied.concat (h : Tallied moments t) (h' : Tally.Adds m.counter? t t') :
    Tallied (moments ++ [m]) t' := by
  intro c hc
  rw [h' c hc, h c hc, List.countP_append, List.countP_singleton, Int.natCast_add]
  by_cases hm : m.counter? = some c <;> simp [hm]

/-! ## What counts are the numbers of -/

theorem findsInUse_of_isAccepted (h : m.isAccepted = true) : m.findsInUse = false := by
  cases m with
  | observed e => rfl
  | asked i op x =>
    obtain ⟨data, hdata⟩ := Exchange.isAccepted_iff.mp (show x.isAccepted = true from h)
    have hinUse : x.isInUse = false := by
      rw [Exchange.isInUse, hdata]
    simp [findsInUse, exchange?, hinUse]

/-- An invitation that helps counts for invitations if it is accepted, and for nothing else. -/
theorem isAcceptedFor_of_helps (h : m.helps = true) (c : Counter) :
    m.isAcceptedFor c = (decide (c = .invites) && m.isAccepted) := by
  cases m with
  | observed e => cases h
  | asked i op x =>
    obtain ⟨-, hinvite⟩ := (Bool.and_eq_true _ _).mp h
    cases he : x.request.endpoint with
    | membership action r =>
      rw [he] at hinvite
      cases action with
      | invite => simp [isAcceptedFor, isAccepted, exchange?, he, Endpoint.counter?, eq_comm]
      | _ => cases hinvite
    | _ =>
      rw [he] at hinvite
      cases hinvite

/-- No request counts for these because it was accepted. -/
theorem isAcceptedFor_eq_false {c : Counter}
    (hc : c = .joinInviteFallbacks ∨ c = .registrationsInUse) (m : Moment) :
    m.isAcceptedFor c = false := by
  have hne (e : Endpoint) : e.counter? ≠ some c := by
    cases e with
    | membership action r => cases action <;> rcases hc with rfl | rfl <;> nofun
    | _ => rcases hc with rfl | rfl <;> nofun
  cases m with
  | observed e => rfl
  | asked i op x => simp [isAcceptedFor, exchange?, hne]

theorem helps_of_findsInUse (h : m.findsInUse = true) : m.helps = false := by
  cases m with
  | observed e => rfl
  | asked i op x =>
    obtain ⟨hregister, -⟩ := (Bool.and_eq_true _ _).mp h
    exact helps_of_endpoint (of_decide_eq_true hregister) rfl

theorem counter?_eq_some_iff {c : Counter} : m.counter? = some c ↔
    m.helps = true ∧ c = .joinInviteFallbacks ∨
      m.helps = false ∧ (m.isAcceptedFor c = true ∨
        m.findsInUse = true ∧ c = .registrationsInUse) := by
  have hfor : m.isAcceptedFor c =
      (decide ((m.exchange?.bind fun x => x.request.endpoint.counter?) = some c) &&
        m.isAccepted) := by
    cases m <;> rfl
  rw [counter?]
  cases hhelps : m.helps with
  | true => simp [@eq_comm _ c]
  | false =>
    cases haccepted : m.isAccepted with
    | true => simp [hfor, haccepted, findsInUse_of_isAccepted haccepted]
    | false => cases hinUse : m.findsInUse <;> simp [hfor, haccepted, @eq_comm _ c]

/-! ## Whenever a request is sent -/

/-- When a request was sent its counts were those of the requests before it, and an invitation that
helps a user into a room was counted on top. -/
def SentTallied (before : List Moment) : Moment → Prop
  | .observed _ => True
  | .asked i op x => ∃ t, Tallied before t ∧
      ((helps (.asked i op x) = true ∧ x.tally = t.add .joinInviteFallbacks 1 ∧
        x.IsOnBehalf i.userId (before.filterMap exchange?).getLast?) ∨
      (helps (.asked i op x) = false ∧ x.tally = t))

end Moment

namespace Bridge

open Moment (Tallied SentTallied)

variable {i : Intent} {op : Operation} {b b' : Bridge} {x : Exchange} {xs : List Exchange}
  {moments : List Moment}

theorem Idle.adds (h : Idle b b') : Tally.Adds none b.tally b'.tally := by
  obtain ⟨cs, haside, htally⟩ := h.tally
  have hnone : ∀ c ∈ asideCounters, c ∉ Counter.ofRequests := by decide
  rw [htally]
  exact Tally.adds_foldl (fun c hc => hnone c (haside c hc)) b.tally

theorem Path.tallied (h : Path i op b xs b') (hop : op ≠ .register)
    (huser : ∀ action room user, op.change? = some (action, room, user) → user.isText = true)
    (hshaped : ∀ x ∈ xs, x.isShaped = true) (hmoments : Tallied moments b.tally) :
    Tallied (moments ++ xs.map (.asked i op)) b'.tally := by
  induction h generalizing moments with
  | still hidle =>
    rw [List.map_nil, List.append_nil]
    exact hmoments.same hidle.adds
  | @turn b b₁ b₂ b' x xs hidle hturn _ ih =>
    have hx := hturn.adds hop huser (hshaped x List.mem_cons_self)
    have hrest := ih (fun y hy => hshaped y (List.mem_cons_of_mem x hy))
      ((hmoments.same hidle.adds).concat hx)
    rwa [List.append_assoc] at hrest

/-- Whenever a request of a path is sent, the requests before it are counted. -/
theorem Path.sentTallied (h : Path i op b xs b') (hop : op ≠ .register)
    (huser : ∀ action room user, op.change? = some (action, room, user) → user.isText = true)
    (hshaped : ∀ x ∈ xs, x.isShaped = true) (hmoments : Tallied moments b.tally)
    (htraffic : moments.filterMap Moment.exchange? = b.traffic) {done rest : List Exchange}
    (hxs : xs = done ++ x :: rest) :
    SentTallied (moments ++ done.map (.asked i op)) (.asked i op x) := by
  subst hxs
  -- The request is sent from the bridge that the path before it leads to.
  obtain ⟨c, c', hbefore, hturn, -⟩ := h.split
  have hdone := hbefore.tallied hop huser
    (fun y hy => hshaped y (List.mem_append_left _ hy)) hmoments
  refine ⟨c.tally, hdone, ?_⟩
  rw [List.filterMap_append, htraffic, Run.filterMap_asked, ← hbefore.traffic]
  exact hturn.sent

end Bridge

namespace Run

open Moment (Tallied SentTallied)

def ChangesTexts (s : Step) : Prop :=
  ∀ localpart puppet op action room user, s = .act localpart puppet op →
    op.change? = some (action, room, user) → user.isText = true

/-- The counts of a run are right in the end, and whenever a request is sent. -/
structure Audited (r : Run) : Prop where
  traffic : r.moments.filterMap Moment.exchange? = r.bridge.traffic
  ends : Tallied r.moments r.bridge.tally
  sent : Throughout SentTallied r.moments

variable {s : Step} {r r' : Run}

theorem Moved.traffic_subset (h : Moved s r r') : r.bridge.traffic ⊆ r'.bridge.traffic := by
  cases h with
  | acted localpart puppet op i c b xs _ hfinds hpath =>
    change r.bridge.traffic ⊆ b.traffic
    rw [hpath.traffic, hfinds.traffic]
    exact List.subset_append_left _ _
  | observed e =>
    have hsilent := Bridge.keeps_observe Bridge.frame_silent e r.bridge
    exact fun x hx => hsilent.traffic.symm ▸ hx
  | still b _ _ htraffic _ _ => exact fun x hx => htraffic.symm ▸ hx

/-- What is counted right stays so with a step. -/
theorem Moved.audited (h : Moved s r r') (houtright : NotOutright s) (htexts : ChangesTexts s)
    (hshaped : ∀ x ∈ r'.bridge.traffic, x.isShaped = true) (hr : Audited r) : Audited r' := by
  have hexchanges := h.exchanges hr.traffic
  cases h with
  | acted localpart puppet op i c b xs hact hfinds hpath =>
    have hop : op ≠ .register := by
      rintro rfl
      exact houtright localpart puppet hact
    have huser (action : MembershipAction) (room user : Value)
        (h : op.change? = some (action, room, user)) : user.isText = true :=
      htexts localpart puppet op action room user hact h
    have hxs : ∀ x ∈ xs, x.isShaped = true := fun x hx =>
      hshaped x (hpath.traffic ▸ List.mem_append_right _ hx)
    have hends : Tallied r.moments c.tally := hfinds.tally.symm ▸ hr.ends
    have htraffic := hr.traffic.trans hfinds.traffic.symm
    refine ⟨hexchanges, hpath.tallied hop huser hxs hends,
      hr.sent.append fun before m after heq => ?_⟩
    obtain ⟨done, x, rest, hsplit, rfl, rfl⟩ := of_map_eq heq
    exact hpath.sentTallied hop huser hxs hends htraffic hsplit
  | observed e =>
    have hobserved : Tally.Adds (Moment.counter? (.observed e)) r.bridge.tally
        ((Bridge.observe e).outcome r.bridge).2.tally := (Bridge.fixes_observe e).counts r.bridge
    refine ⟨hexchanges, hr.ends.concat hobserved, hr.sent.append fun before m after heq => ?_⟩
    have hm : m ∈ [Moment.observed e] := heq ▸ List.mem_append_right before List.mem_cons_self
    rw [List.mem_singleton.mp hm]
    trivial
  | still b _ _ _ _ _ htally => exact ⟨hexchanges, htally.symm ▸ hr.ends, hr.sent⟩

/-- What the tally says of the requests that were sent, and of those that were answered. -/
structure Account (sent answered : List Moment) (t : Tally) : Prop where
  accepted : ∀ c ∈ [Counter.registrations, .joins, .kicks, .bans, .unbans, .eventsSent,
    .stateEventsSent, .typingSent], t.count c = answered.countP (Moment.isAcceptedFor c)
  registrationsInUse : t.count .registrationsInUse = answered.countP Moment.findsInUse
  joinInviteFallbacks : t.count .joinInviteFallbacks = sent.countP Moment.helps
  invites : (answered.countP (Moment.isAcceptedFor .invites) : Int) =
    t.count .invites + answered.countP fun m => m.helps && m.isAccepted

theorem account_of {sent answered : List Moment} {t : Tally}
    (hcounts : ∀ c ∈ Counter.ofRequests, c ≠ .joinInviteFallbacks →
      t.count c = answered.countP fun m => decide (m.counter? = some c))
    (hhelps : t.count .joinInviteFallbacks = sent.countP Moment.helps) :
    Account sent answered t := by
  have hcount {c : Counter} (hc : c ∈ Counter.ofRequests) (hne : c ≠ .joinInviteFallbacks)
      {p : Moment → Bool} (hp : ∀ m : Moment, m.counter? = some c ↔ p m = true) :
      t.count c = answered.countP p := by
    rw [hcounts c hc hne]
    congr 1
    exact List.countP_congr fun m _ => by rw [decide_eq_true_eq, hp]
  refine ⟨fun c hc => ?_, ?_, hhelps, ?_⟩
  · have hplain : ∀ c ∈ [Counter.registrations, .joins, .kicks, .bans, .unbans, .eventsSent,
        .stateEventsSent, .typingSent], c ∈ Counter.ofRequests ∧ c ≠ .joinInviteFallbacks ∧
        c ≠ .invites ∧ c ≠ .registrationsInUse := by decide
    obtain ⟨hmem, hfallback, hinvites, hinUse⟩ := hplain c hc
    refine hcount hmem hfallback fun m => ?_
    rw [Moment.counter?_eq_some_iff]
    cases hm : m.helps with
    | true => simp [hfallback, Moment.isAcceptedFor_of_helps hm, hinvites]
    | false => simp [hinUse]
  · refine hcount (by decide) (by decide) fun m => ?_
    rw [Moment.counter?_eq_some_iff]
    cases hm : m.findsInUse with
    | true => simp [Moment.helps_of_findsInUse hm]
    | false => simp [Moment.isAcceptedFor_eq_false (.inr rfl)]
  · -- The accepted invitations are those that count for themselves and those that help.
    have hown := hcount (c := .invites) (by decide) (by decide)
      (p := fun m => m.isAcceptedFor .invites && !m.helps) fun m => by
        rw [Moment.counter?_eq_some_iff]
        cases m.helps <;> simp
    have hhelp : (answered.countP fun m => m.helps && m.isAccepted) =
        answered.countP fun m => m.isAcceptedFor .invites && m.helps := by
      refine List.countP_congr fun m _ => ?_
      cases hm : m.helps with
      | true => simp [Moment.isAcceptedFor_of_helps hm]
      | false => simp
    have hsplit := List.countP_eq_countP_filter_add answered (Moment.isAcceptedFor .invites)
      Moment.helps
    rw [List.countP_filter, List.countP_filter] at hsplit
    rw [hown, hhelp, hsplit, Int.natCast_add, Int.add_comm]

theorem account_of_tallied {moments : List Moment} {t : Tally} (h : Tallied moments t) :
    Account moments moments t := by
  refine account_of (fun c hc _ => h c hc) ?_
  rw [h .joinInviteFallbacks (by decide)]
  congr 1
  refine List.countP_congr fun m _ => ?_
  rw [decide_eq_true_eq, Moment.counter?_eq_some_iff]
  simp [Moment.isAcceptedFor_eq_false (.inl rfl)]

/-- When a request is sent the ones before it were answered. -/
theorem account_of_sentTallied {before : List Moment} {i : Intent} {op : Operation} {x : Exchange}
    (h : SentTallied before (.asked i op x)) :
    Account (before ++ [.asked i op x]) before x.tally ∧
      (Moment.helps (.asked i op x) = true →
        x.IsOnBehalf i.userId (before.filterMap Moment.exchange?).getLast?) := by
  obtain ⟨t, htallied, hcases⟩ := h
  have hbefore := (account_of_tallied htallied).joinInviteFallbacks
  rcases hcases with ⟨hhelps, htally, hbehalf⟩ | ⟨hhelps, htally⟩
  · refine ⟨account_of (fun c hc hne => ?_) ?_, fun _ => hbehalf⟩
    · rw [htally, Tally.count_add, if_neg hne.symm, Int.add_zero]
      exact htallied c hc
    · rw [htally, Tally.count_add, if_pos rfl, hbefore, List.countP_append, List.countP_singleton,
        if_pos hhelps]
      rfl
  · refine ⟨account_of (fun c hc _ => ?_) ?_, fun h => ?_⟩
    · rw [htally]
      exact htallied c hc
    · rw [htally, hbefore, List.countP_append, List.countP_singleton, hhelps]
      rfl
    · rw [hhelps] at h
      cases h

/-- In a run of a new service in which users are not registered outright and successes have the
shape that their endpoints give them, the tally is an account of the requests, at the end and
whenever one is sent. An invitation that is counted as help follows on a join that was forbidden. -/
theorem tally_accounts (b : Bridge) (steps : List Step) (hintents : b.intents = [])
    (htraffic : b.traffic = []) (htally : b.tally = .zero)
    (houtright : ∀ s ∈ steps, NotOutright s) (htexts : ∀ s ∈ steps, ChangesTexts s)
    (hshaped : ∀ x ∈ (through steps b).bridge.traffic, x.isShaped = true) :
    Account (through steps b).moments (through steps b).moments (through steps b).bridge.tally ∧
    ∀ before i op x after, (through steps b).moments = before ++ .asked i op x :: after →
      Account (before ++ [.asked i op x]) before x.tally ∧
      (Moment.helps (.asked i op x) = true →
        x.IsOnBehalf i.userId (before.filterMap Moment.exchange?).getLast?) := by
  have hstart : Audited ⟨b, []⟩ := by
    refine ⟨htraffic.symm, htally.symm ▸ Moment.tallied_zero, fun before m after heq => ?_⟩
    exact absurd heq.symm (List.append_ne_nil_of_right_ne_nil _ (List.cons_ne_nil _ _))
  have haudited := (through_moved (P := fun r =>
    (∀ x ∈ r.bridge.traffic, x.isShaped = true) → Audited r) hintents (fun _ => hstart)
    fun r r' s hs _ hmoved hr hshaped' => hmoved.audited (houtright s hs) (htexts s hs) hshaped'
      (hr fun x hx => hshaped' x (hmoved.traffic_subset hx))).2 hshaped
  exact ⟨account_of_tallied haudited.ends, fun before i op x after hmoments =>
    account_of_sentTallied (haudited.sent before _ after hmoments)⟩

def Example.removing : List Step :=
  [.act (.text "alice") false (.sendText (.text "!r:hs") (.text "hello")),
    .act (.text "alice") false
      (.changeMembership .kick (.text "!r:hs") (.text "@bob:hs") .null)]

/-- The user is there already, and needs an invitation. Nobody is removed in the end. -/
theorem tally_accounts_removing :
    let b : Bridge := {
      answers := [.reply 400 (some (.record [("errcode", .text "M_USER_IN_USE")])),
        .reply 403 none, .empty, .empty, .empty, .reply 403 none] }
    let r := through Example.removing b
    [Counter.registrationsInUse, .joinInviteFallbacks, .joins, .eventsSent, .kicks].map
        (r.bridge.tally.count ·) = [1, 1, 1, 1, 0] ∧
      Account r.moments r.moments r.bridge.tally := by
  intro b r
  have houtright : ∀ s ∈ Example.removing, NotOutright s := by
    intro s hs localpart puppet hregister
    simp only [Example.removing, List.mem_cons, List.not_mem_nil, or_false] at hs
    rcases hs with rfl | rfl <;> cases hregister
  have htexts : ∀ s ∈ Example.removing, ChangesTexts s := by
    intro s hs localpart puppet op action room user hact hchange
    simp only [Example.removing, List.mem_cons, List.not_mem_nil, or_false] at hs
    rcases hs with rfl | rfl <;> cases hact <;> cases hchange
    rfl
  have hshaped : ∀ x ∈ r.bridge.traffic, x.isShaped = true := by
    have hall : r.bridge.traffic.all Exchange.isShaped = true := by decide +kernel
    exact List.all_eq_true.mp hall
  exact ⟨by decide +kernel,
    (tally_accounts b Example.removing rfl rfl rfl houtright htexts hshaped).1⟩

end Run

end VirtualUsers
