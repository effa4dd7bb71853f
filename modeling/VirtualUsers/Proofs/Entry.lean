import VirtualUsers.Proofs.Walks
/-!
# Entering a room

Before it acts in a room, a user is registered and joined to it. What is sent for that is a
registration if one is needed, then a join, and then an invitation and one more join if the first
one is forbidden and someone can invite. `ensureJoined_entry` says which of these requests are
sent, who sends them, when they stop, and what is known in the end.
-/

namespace VirtualUsers

/-- The requests that bring a user into a room. -/
inductive EntryStep where
  | register
  | join
  | invite
deriving DecidableEq

def Store.joinedIn (room user : String) (s : Store) : Store :=
  ((Store.setMembership (.text room) (.text user) (.text Membership.join)).outcome s).2

theorem Store.isJoined_joinedIn (room user : String) (s : Store) :
    Store.isJoined (.text room) (.text user) (s.joinedIn room user) = .ok true := by
  have hmember : Store.member? (.text room) (.text user) (s.joinedIn room user) =
      .ok (some { (Store.cell? (.text room) (.text user) s.members).getD {} with
        membership := .text Membership.join }) :=
    congrArg Except.ok (Store.cell?_enter_self _ _ _ _)
  simp [Store.isJoined, Store.hasMembership, Store.membership, Store.member, hmember, Except.map,
    Value.same, Value.sameScalar]

/-- The answer is a refusal or fits the request: one to a join names a room. -/
def Exchange.Fits (room : String) (x : Exchange) : Bool :=
  match x.content with
  | .error (.request _) => true
  | .error _ => false
  | .ok data =>
    match x.request.endpoint, Bridge.joinedRoom (.text room) data with
    | .join _, .ok (.text _) => true
    | .join _, _ => false
    | _, _ => true

namespace Bridge

open Attempt (ofResult)

/-! ## The steps of an entry -/

section Steps

variable (i : Intent) (room : String) (inviter : Option ClientId)

def EntryRequest (b : Bridge) (x : Exchange) : EntryStep → Prop
  | .register => x.Registers (b.clientAt i.client) (.text i.localpart) (.bool true)
  | .join => x.Joins (b.clientAt i.client) (.text room)
  | .invite => ∃ helper, (inviter <|> i.inviter) = some helper ∧
      x.ChangesMembership (b.clientAt helper) .invite (.text room) (.text i.userId) .null

/-- After the exchange there is a next step. A user who is in use counts as registered, and after
an invitation there is no second one. -/
def GoesOn (invited : Bool) (x : Exchange) : EntryStep → Prop
  | .register => x.Accepted ∨ ∃ q, x.RefusedWith q ∧ q.kind = .userInUse
  | .join => invited = false ∧ (inviter <|> i.inviter).isSome ∧
      ∃ q, x.RefusedWith q ∧ q.kind = .forbidden
  | .invite => x.Accepted

/-- One step comes after another exactly when it goes on. -/
def Proceeds : Bool → List (EntryStep × Exchange) → Prop
  | _, [] => True
  | invited, s :: rest =>
    (rest ≠ [] ↔ GoesOn i inviter invited s.2 s.1) ∧ Proceeds (invited || s.1 == .invite) rest

def entryFailure (invited : Bool) (q : RequestError) : EntryStep → Failure
  | .register => .precondition joiningStage (.precondition registeringStage (.request q))
  | .join => .precondition (if invited then rejoiningStage else joiningStage) (.request q)
  | .invite => .precondition invitingStage (.request q)

/-- The last step is a join that was accepted, or it was refused and nothing else happened. -/
def Concludes (known : Store) (invited : Bool) (out : Except Failure Unit × Bridge)
    (made : List (EntryStep × Exchange)) : Prop :=
  ∃ before step x, made = before ++ [(step, x)] ∧
    ((step = .join ∧ ∃ named, x.content >>= joinedRoom (.text room) = .ok (.text named) ∧
        out.1 = .ok () ∧ out.2.store = known.joinedIn named i.userId) ∨
      ∃ q, x.RefusedWith q ∧ out.2.store = x.store ∧
        out.1 = .error (entryFailure (invited || before.any (·.1 == .invite)) q step))

/-- The entry of a user from `b` on, as far as it was made. What is known when a registration is
sent is `first`, and afterwards `known`. -/
structure Entry (invited : Bool) (plan : List EntryStep) (b : Bridge) (first known : Store)
    (out : Except Failure Unit × Bridge) (made : List (EntryStep × Exchange)) : Prop where
  traffic : out.2.traffic = b.traffic ++ made.map (·.2)
  requests : ∀ s ∈ made, EntryRequest i room inviter b s.2 s.1
  order : made.map (·.1) <+: plan
  proceeds : Proceeds i inviter invited made
  stores : ∀ s ∈ made, s.2.store = if s.1 = .register then first else known
  concludes : Concludes i room known invited out made

end Steps

section Rules

variable {i : Intent} {room : String} {inviter : Option ClientId} {b b₁ b' : Bridge}
  {invited : Bool} {plan : List EntryStep} {first known : Store}
  {out : Except Failure Unit × Bridge} {step : EntryStep} {x : Exchange}
  {made : List (EntryStep × Exchange)}

theorem EntryRequest.before (hb : SameService b b₁) (h : EntryRequest i room inviter b₁ x step) :
    EntryRequest i room inviter b x step := by
  cases step with
  | register => exact hb.isFrom.mp h
  | join =>
    obtain ⟨r, hr, hx⟩ := h
    exact ⟨r, hr, hb.isFrom.mp hx⟩
  | invite =>
    obtain ⟨helper, hhelper, r, hr, hx⟩ := h
    exact ⟨helper, hhelper, r, hr, hb.isFrom.mp hx⟩

/-- A refused step that does not go on is the last one. -/
theorem Entry.refused {q : RequestError} (hx : EntryRequest i room inviter b x step)
    (hq : x.RefusedWith q) (hstop : ¬ GoesOn i inviter invited x step)
    (hheard : Heard b₁ x b') (htraffic : b₁.traffic = b.traffic)
    (hthen : b₁.store = if step = .register then first else known) :
    Entry i room inviter invited (step :: plan) b first known
      (.error (entryFailure invited q step), b') [(step, x)] where
  traffic := by rw [hheard.traffic, htraffic]; rfl
  requests := by simpa using hx
  order := List.prefix_append [step] plan
  proceeds := ⟨by simpa using hstop, trivial⟩
  stores := by
    intro s hs
    rw [List.mem_singleton.mp hs, hheard.storeThen, hthen]
  concludes := ⟨[], step, x, rfl, .inr ⟨q, hq, hheard.store.trans hheard.storeThen.symm, by simp⟩⟩

/-- A join that was accepted is the last step. -/
theorem Entry.accepted {named : String} (hx : x.Joins (b.clientAt i.client) (.text room))
    (hnamed : x.content >>= joinedRoom (.text room) = .ok (.text named))
    (htraffic : b'.traffic = b.traffic ++ [x]) (hthen : x.store = known)
    (hstore : b'.store = known.joinedIn named i.userId) :
    Entry i room inviter invited (.join :: plan) b first known (.ok (), b') [(.join, x)] where
  traffic := htraffic
  requests := by
    intro s hs
    rw [List.mem_singleton.mp hs]
    exact hx
  order := List.prefix_append [EntryStep.join] plan
  proceeds := by
    refine ⟨?_, trivial⟩
    have hstop : ¬ GoesOn i inviter invited x .join := by
      rintro ⟨-, -, q, hq, -⟩
      rw [Exchange.RefusedWith] at hq
      rw [hq] at hnamed
      cases hnamed
    simpa using hstop
  stores := by
    intro s hs
    rw [List.mem_singleton.mp hs]
    exact hthen
  concludes := ⟨[], .join, x, rfl, .inl ⟨rfl, named, hnamed, rfl, hstore⟩⟩

theorem Entry.ne_nil (h : Entry i room inviter invited plan b first known out made) :
    made ≠ [] := by
  obtain ⟨before, step, x, hmade, -⟩ := h.concludes
  rw [hmade]
  exact List.append_ne_nil_of_right_ne_nil before (List.cons_ne_nil _ _)

/-- A step that goes on comes before the others. -/
theorem Entry.cons (hx : EntryRequest i room inviter b x step)
    (hon : GoesOn i inviter invited x step) (hgrown : Grown b x b₁)
    (hthen : x.store = if step = .register then first else known)
    (h : Entry i room inviter (invited || step == .invite) plan b₁ first known out made) :
    Entry i room inviter invited (step :: plan) b first known out ((step, x) :: made) where
  traffic := by
    rw [h.traffic, hgrown.traffic, List.append_assoc]
    rfl
  requests := by
    intro s hs
    rcases List.mem_cons.mp hs with rfl | hs
    · exact hx
    · exact (h.requests s hs).before hgrown.toSameService
  order := List.cons_prefix_cons.mpr ⟨rfl, h.order⟩
  proceeds := ⟨iff_of_true h.ne_nil hon, h.proceeds⟩
  stores := by
    intro s hs
    rcases List.mem_cons.mp hs with rfl | hs
    · exact hthen
    · exact h.stores s hs
  concludes := by
    obtain ⟨before, last, y, rfl, hend⟩ := h.concludes
    refine ⟨(step, x) :: before, last, y, rfl, ?_⟩
    rcases hend with hjoined | ⟨q, hq, hstore, hout⟩
    · exact .inl hjoined
    · refine .inr ⟨q, hq, hstore, ?_⟩
      rw [hout, List.any_cons, Bool.or_assoc]

/-- A join that was accepted does not go on, so that nothing comes after it. -/
theorem Proceeds.last (h : Proceeds i inviter invited made) (hjoin : (.join, x) ∈ made)
    (hx : x.Accepted) : ∃ before, made = before ++ [(.join, x)] := by
  induction made generalizing invited with
  | nil => cases hjoin
  | cons s rest ih =>
    rcases List.mem_cons.mp hjoin with rfl | hjoin
    · have hstop : ¬ GoesOn i inviter invited x .join := by
        rintro ⟨-, -, q, hq, -⟩
        obtain ⟨data, hdata⟩ := hx
        rw [Exchange.RefusedWith, hdata] at hq
        cases hq
      have hrest : rest = [] := Classical.not_not.mp fun hne => hstop (h.1.mp hne)
      exact ⟨[], by rw [hrest]; rfl⟩
    · obtain ⟨before, rfl⟩ := ih h.2 hjoin
      exact ⟨s :: before, rfl⟩

/-- A join that was accepted is the last step, and it is kept. -/
theorem Entry.joined (h : Entry i room inviter invited plan b first known out made)
    (hjoin : (.join, x) ∈ made) (haccepted : x.Accepted) :
    ∃ named, x.content >>= joinedRoom (.text room) = .ok (.text named) ∧ out.1 = .ok () ∧
      out.2.store = known.joinedIn named i.userId := by
  obtain ⟨before, step, y, hmade, hend⟩ := h.concludes
  obtain ⟨before', hmade'⟩ := h.proceeds.last hjoin haccepted
  have hlast : (step, y) = (.join, x) :=
    List.singleton_inj.mp (List.append_inj' (hmade.symm.trans hmade') rfl).2
  cases hlast
  rcases hend with ⟨-, hnamed⟩ | ⟨q, hq, -, -⟩
  · exact hnamed
  · obtain ⟨data, hdata⟩ := haccepted
    rw [Exchange.RefusedWith, hdata] at hq
    cases hq

/-- An entry ends well exactly when a join was accepted. -/
theorem Entry.returns_iff (h : Entry i room inviter invited plan b first known out made) :
    out.1 = .ok () ↔ ∃ x, (.join, x) ∈ made ∧ x.Accepted := by
  constructor
  · intro hok
    obtain ⟨before, step, x, hmade, hend⟩ := h.concludes
    rcases hend with ⟨rfl, named, hnamed, -, -⟩ | ⟨q, -, -, hout⟩
    · refine ⟨x, by rw [hmade]; simp, ?_⟩
      cases hc : x.content with
      | ok data => exact ⟨data, hc⟩
      | error e =>
        rw [hc] at hnamed
        cases hnamed
    · rw [hok] at hout
      cases hout
  · rintro ⟨x, hjoin, haccepted⟩
    obtain ⟨named, -, hout, -⟩ := h.joined hjoin haccepted
    exact hout

theorem Entry.failed {e : Failure} (h : Entry i room inviter invited plan b first known out made)
    (he : out.1 = .error e) : ∃ before step x q, made = before ++ [(step, x)] ∧ x.RefusedWith q ∧
      e = entryFailure (invited || before.any (·.1 == .invite)) q step ∧
      out.2.store = if step = .register then first else known := by
  obtain ⟨before, step, x, hmade, hend⟩ := h.concludes
  rcases hend with ⟨-, named, -, hout, -⟩ | ⟨q, hq, hstore, hout⟩
  · rw [he] at hout
    cases hout
  · rw [he] at hout
    refine ⟨before, step, x, q, hmade, hq, Except.error.inj hout, ?_⟩
    rw [hstore]
    exact h.stores (step, x) (by rw [hmade]; simp)

end Rules

/-! ## The entry that is made -/

def Fitting (room : String) (b b' : Bridge) : Prop :=
  ∀ made, b'.traffic = b.traffic ++ made → ∀ x ∈ made, x.Fits room

section Making

variable {i : Intent} {room : String} {inviter : Option ClientId} {b b₁ b' : Bridge}
  {x : Exchange} {first : Store}

theorem Fitting.head (h : Fitting room b b') (hx : b₁.traffic = b.traffic ++ [x])
    (hgrows : ∃ more, b'.traffic = b₁.traffic ++ more) : x.Fits room := by
  obtain ⟨more, hmore⟩ := hgrows
  refine h (x :: more) ?_ x List.mem_cons_self
  rw [hmore, hx, List.append_assoc]
  rfl

theorem Fitting.tail (h : Fitting room b b') {xs : List Exchange}
    (hxs : b₁.traffic = b.traffic ++ xs) : Fitting room b₁ b' := by
  intro made hmade y hy
  refine h (xs ++ made) ?_ y (List.mem_append_right xs hy)
  rw [hmade, hxs, List.append_assoc]

theorem fits_cases (h : x.Fits room) : x.Accepted ∨ ∃ q, x.RefusedWith q := by
  rw [Exchange.Fits] at h
  cases hc : x.content with
  | ok data => exact .inl ⟨data, hc⟩
  | error e =>
    rw [hc] at h
    cases e with
    | request q => exact .inr ⟨q, hc⟩
    | _ => cases h

theorem fits_join {c : Client} (h : x.Fits room) (hx : x.Joins c (.text room)) :
    (∃ named, x.content >>= joinedRoom (.text room) = .ok (.text named)) ∨
      ∃ q, x.RefusedWith q := by
  rcases fits_cases h with ⟨data, hdata⟩ | hrefused
  · left
    obtain ⟨r, -, hx⟩ := hx
    simp only [Exchange.Fits, hdata, hx.endpoint_eq] at h
    cases hnamed : joinedRoom (.text room) data with
    | error e => simp [hnamed] at h
    | ok v =>
      cases v with
      | text named => exact ⟨named, by rw [hdata]; exact hnamed⟩
      | _ => simp [hnamed] at h
  · exact .inr hrefused

theorem outcome_recordJoin (i : Intent) (named : String) (b : Bridge) :
    ∃ b', (recordJoin i (.text named)).outcome b = (.ok (), b') ∧
      b'.store = b.store.joinedIn named i.userId ∧ b'.traffic = b.traffic :=
  ⟨_, rfl, rfl, rfl⟩

/-- A join that goes no further, with its failure called by its stage. -/
theorem entry_join {invited : Bool} {plan : List EntryStep} {h : Bridge}
    {settle : Except Failure Value → Act Value} {out : Except Failure Unit × Bridge}
    (hx : x.Joins (b.clientAt i.client) (.text room)) (hheard : Heard b x h)
    (hout : out = (settle (x.content >>= joinedRoom (.text room)) >>= recordJoin i).outcome h)
    (hfits : Fitting room b out.2) (hgrows : ∃ more, out.2.traffic = h.traffic ++ more)
    (hok : ∀ v, settle (.ok v) = pure v)
    (hstop : ∀ q, x.RefusedWith q → settle (.error (.request q)) =
      throw (entryFailure invited q .join) ∧ ¬ GoesOn i inviter invited x .join) :
    Entry i room inviter invited (.join :: plan) b first b.store out [(.join, x)] := by
  rcases fits_join (hfits.head hheard.traffic hgrows) hx with ⟨named, hnamed⟩ | ⟨q, hq⟩
  · obtain ⟨b', hrecord, hstore, htraffic⟩ := outcome_recordJoin i named h
    have hend : out = (.ok (), b') := by
      rw [hout, hnamed, hok, pure_bind, hrecord]
    rw [hend]
    exact .accepted hx hnamed (htraffic.trans hheard.traffic) hheard.storeThen
      (by rw [hstore, hheard.store])
  · obtain ⟨hsettle, hstop⟩ := hstop q hq
    have hbind : x.content >>= joinedRoom (.text room) = .error (.request q) := by
      rw [hq]
      rfl
    have hend : out = (.error (entryFailure invited q .join), h) := by
      rw [hout, hbind, hsettle]
      rfl
    rw [hend]
    exact .refused hx hq hstop hheard rfl rfl

theorem entry_rejoin {out : Except Failure Unit × Bridge}
    (hout : out = (inStage rejoiningStage isRequest (sendJoin i.client (.text room)) >>=
      recordJoin i).outcome b) (hfits : Fitting room b out.2) :
    ∃ made, Entry i room inviter true [.join] b first b.store out made := by
  obtain ⟨x, h, hjoin, hx, hheard⟩ := outcome_sendJoin b i.client (segment_text room)
  let settle (r : Except Failure Value) : Act Value :=
    ofResult (r.mapError fun e => if isRequest e then .precondition rejoiningStage e else e)
  have hsettle :
      out = (settle (x.content >>= joinedRoom (.text room)) >>= recordJoin i).outcome h := by
    rw [hout, inStage_eq, bind_assoc, Attempt.outcome_bind, Attempt.outcome_result,
      Attempt.follow_ok, hjoin]
  have hquiet : Quiet (settle (x.content >>= joinedRoom (.text room)) >>= recordJoin i) :=
    Keeps.bind frame_silent.toFrame (keeps_ofResult frame_silent.toFrame _)
      (keeps_recordJoin frame_silent i)
  refine ⟨_, entry_join hx hheard hsettle hfits ⟨[], ?_⟩ (fun _ => rfl) fun q _ => ⟨rfl, ?_⟩⟩
  · rw [hsettle, (hquiet h).traffic, List.append_nil]
  · rintro ⟨hinvited, -⟩
    cases hinvited

theorem grows_rejoin (i : Intent) (room : String) (b : Bridge) :
    ∃ more, ((inStage rejoiningStage isRequest (sendJoin i.client (.text room)) >>=
      recordJoin i).outcome b).2.traffic = b.traffic ++ more := by
  obtain ⟨x, h, hjoin, -, hheard⟩ := outcome_sendJoin b i.client (segment_text room)
  refine ⟨[x], ?_⟩
  rw [Attempt.outcome_bind, outcome_inStage, hjoin]
  cases (x.content >>= joinedRoom (.text room)).mapError fun e =>
      if isRequest e then .precondition rejoiningStage e else e with
  | error e => exact hheard.traffic
  | ok v => exact ((keeps_recordJoin frame_silent i v) h).traffic.trans hheard.traffic

theorem grows_settled (i : Intent) (room : String) (inviter : Option ClientId)
    (r : Except Failure Value) (b : Bridge) :
    ∃ more, ((settleJoin i (.text room) inviter r >>= recordJoin i).outcome b).2.traffic =
      b.traffic ++ more := by
  rcases settleJoin_cases i (.text room) inviter r with hsettled | ⟨q, helper, -, -, -, hsettled⟩
  · have hquiet := (Keeps.bind frame_silent.toFrame (keeps_ofResult frame_silent.toFrame _)
      (keeps_recordJoin frame_silent i) : Quiet (ofResult
      (r.mapError fun e => if isRequest e then .precondition joiningStage e else e) >>=
        recordJoin i)) b
    rw [hsettled]
    exact ⟨[], by rw [hquiet.traffic, List.append_nil]⟩
  · obtain ⟨x, h, hinvite, -, hheard⟩ := outcome_getInvited i helper (segment_text room) b
    rw [hsettled, joinAfterInvite, bind_assoc, Attempt.outcome_bind, hinvite]
    cases (x.content >>= fun _ => Except.ok ()).mapError fun e =>
        if isRequest e then Failure.precondition invitingStage e else e with
    | error e => exact ⟨[x], hheard.traffic⟩
    | ok _ =>
      obtain ⟨more, hmore⟩ := grows_rejoin i room h
      exact ⟨x :: more, by rw [Attempt.follow_ok, hmore, hheard.traffic, List.append_assoc]; rfl⟩

theorem entry_help {out : Except Failure Unit × Bridge} {helper : ClientId}
    (hhelper : (inviter <|> i.inviter) = some helper)
    (hout : out = (joinAfterInvite i (.text room) helper >>= recordJoin i).outcome b)
    (hfits : Fitting room b out.2) :
    ∃ made, Entry i room inviter false [.invite, .join] b first b.store out made := by
  obtain ⟨x, h, hinvite, hx, hheard⟩ := outcome_getInvited i helper (segment_text room) b
  have hrequest : EntryRequest i room inviter b x .invite := ⟨helper, hhelper, hx⟩
  rw [joinAfterInvite, bind_assoc, Attempt.outcome_bind, hinvite] at hout
  have hgrows : ∃ more, out.2.traffic = h.traffic ++ more := by
    rw [hout]
    cases (x.content >>= fun _ => Except.ok ()).mapError fun e =>
        if isRequest e then Failure.precondition invitingStage e else e with
    | error e => exact ⟨[], (List.append_nil _).symm⟩
    | ok _ => exact grows_rejoin i room h
  rcases fits_cases (hfits.head hheard.traffic hgrows) with haccepted | ⟨q, hq⟩
  · obtain ⟨data, hdata⟩ := haccepted
    have hgrown : Grown b x h := ⟨⟨hheard.now, hheard.settings, hheard.registryPath, hheard.intents,
      hheard.clientOf, hheard.senders⟩, hheard.traffic, hheard.answers, hheard.storeThen,
      hheard.answer⟩
    rw [hdata] at hout
    obtain ⟨made, hentry⟩ := entry_rejoin hout (hfits.tail hheard.traffic)
    rw [hheard.store] at hentry
    exact ⟨_, .cons hrequest ⟨data, hdata⟩ hgrown hheard.storeThen hentry⟩
  · have hend : out = (.error (entryFailure false q .invite), h) := by
      rw [hout, hq]
      rfl
    have hstop : ¬ GoesOn i inviter false x .invite := by
      rintro ⟨data, hdata⟩
      rw [Exchange.RefusedWith, hdata] at hq
      cases hq
    rw [hend]
    exact ⟨_, .refused hrequest hq hstop hheard rfl rfl⟩

/-- A join that cannot be helped is refused at once. -/
theorem settleJoin_refused {q : RequestError} (room : Value)
    (h : ¬ (q.kind = .forbidden ∧ (inviter <|> i.inviter).isSome)) :
    settleJoin i room inviter (.error (.request q)) =
      throw (.precondition joiningStage (.request q)) := by
  rcases settleJoin_cases i room inviter (.error (.request q)) with
    hsettled | ⟨q', helper, hq, hkind, hhelper, -⟩
  · exact hsettled
  · cases hq
    exact absurd ⟨hkind, by rw [hhelper]; rfl⟩ h

theorem entry_joinRoom {out : Except Failure Unit × Bridge}
    (hout : out = (joinRoom i (.text room) inviter >>= recordJoin i).outcome b)
    (hfits : Fitting room b out.2) :
    ∃ made, Entry i room inviter false [.join, .invite, .join] b first b.store out made := by
  obtain ⟨x, h, hjoin, hx, hheard⟩ := outcome_sendJoin b i.client (segment_text room)
  rw [joinRoom, bind_assoc, Attempt.outcome_bind, Attempt.outcome_result, Attempt.follow_ok,
    hjoin] at hout
  by_cases hon : GoesOn i inviter false x .join
  · have hrequest : EntryRequest i room inviter b x .join := hx
    obtain ⟨-, hsome, q, hq, hkind⟩ := id hon
    obtain ⟨helper, hhelper⟩ := Option.isSome_iff_exists.mp hsome
    have hsettle : settleJoin i (.text room) inviter (.error (.request q)) =
        joinAfterInvite i (.text room) helper := by
      simp only [settleJoin, hkind, hhelper]
    have hbind : x.content >>= joinedRoom (.text room) = .error (.request q) := by
      rw [hq]
      rfl
    rw [hbind, hsettle] at hout
    obtain ⟨made, hentry⟩ := entry_help hhelper hout (hfits.tail hheard.traffic)
    rw [hheard.store] at hentry
    exact ⟨_, .cons hrequest hon hheard.grown hheard.storeThen hentry⟩
  · have hgrows := grows_settled i room inviter (x.content >>= joinedRoom (.text room)) h
    refine ⟨_, entry_join hx hheard hout hfits (hout ▸ hgrows) (fun _ => rfl) fun q hq => ⟨?_, hon⟩⟩
    exact settleJoin_refused (.text room) fun h => hon ⟨rfl, h.2, q, hq, h.1⟩

def knownStore (i : Intent) (s : Store) : Store :=
  if i.puppet then s else s.register (.text i.userId)

theorem knownStore_known {s : Store} (h : i.puppet = true ∨ Knows i s) : knownStore i s = s := by
  rw [knownStore]
  split
  · rfl
  · next hpuppet =>
    have hcontains : s.registered.contains (.text i.userId) = true :=
      List.contains_iff_mem.mpr (h.resolve_left hpuppet)
    rw [Store.register, if_pos hcontains]

/-- A registration that was accepted, or whose user is in use, is counted. -/
theorem outcome_recordClaim {r : Except Failure Unit} (i : Intent) (b : Bridge)
    (hr : r = .ok () ∨ ∃ q, r = .error (.request q) ∧ q.kind = .userInUse) :
    ∃ b', (recordClaim i r).outcome b = (.ok (), b') ∧ b'.store = b.store := by
  rcases hr with rfl | ⟨q, rfl, hkind⟩
  · exact ⟨_, rfl, rfl⟩
  · simp only [recordClaim, hkind]
    exact ⟨_, rfl, rfl⟩

theorem outcome_registerUser (i : Intent) (b : Bridge) :
    ∃ x h, (registerUser i).outcome b = (x.content >>= fun _ => .ok (), h) ∧
      x.Registers (b.clientAt i.client) (.text i.localpart) (.bool true) ∧ Heard b x h := by
  obtain ⟨x, h, hout, hx, hheard⟩ := outcome_send i.client .register _ [] false b
  refine ⟨x, h, ?_, hx, hheard⟩
  rw [registerUser, Attempt.outcome_bind, sendRegister, hout]
  cases x.content <;> rfl

theorem grows_joinRoom (i : Intent) (room : String) (inviter : Option ClientId) (b : Bridge) :
    ∃ more, ((joinRoom i (.text room) inviter >>= recordJoin i).outcome b).2.traffic =
      b.traffic ++ more := by
  obtain ⟨x, h, hjoin, -, hheard⟩ := outcome_sendJoin b i.client (segment_text room)
  obtain ⟨more, hmore⟩ :=
    grows_settled i room inviter (x.content >>= joinedRoom (.text room)) h
  refine ⟨x :: more, ?_⟩
  rw [joinRoom, bind_assoc, Attempt.outcome_bind, Attempt.outcome_result, Attempt.follow_ok, hjoin,
    hmore, hheard.traffic, List.append_assoc]
  rfl

/-- A claim is counted and the user marked without a request. -/
theorem quiet_claimed (i : Intent) (r : Except Failure Unit) :
    Quiet (recordClaim i r >>= fun _ => markRegistered (.text i.userId)) :=
  Keeps.bind frame_silent.toFrame (keeps_recordClaim frame_silent.toFrame i r) fun _ =>
    quiet_markRegistered i.userId

theorem grows_claimed (i : Intent) (room : String) (inviter : Option ClientId)
    (r : Except Failure Unit) (name : Failure → Failure) (b : Bridge) :
    ∃ more, (Attempt.follow (fun _ => joinRoom i (.text room) inviter >>= recordJoin i)
      (((recordClaim i r >>= fun _ => markRegistered (.text i.userId)).outcome b).1.mapError name,
        ((recordClaim i r >>= fun _ => markRegistered (.text i.userId)).outcome b).2)).2.traffic =
        b.traffic ++ more := by
  have hquiet := quiet_claimed i r b
  rcases hmarked : (recordClaim i r >>= fun _ => markRegistered (.text i.userId)).outcome b with
    ⟨e | _, c⟩
  · rw [hmarked] at hquiet
    exact ⟨[], by rw [List.append_nil]; exact hquiet.traffic⟩
  · rw [hmarked] at hquiet
    obtain ⟨more, hmore⟩ := grows_joinRoom i room inviter c
    exact ⟨more, by rw [← hquiet.traffic]; exact hmore⟩

/-- After a registration that goes on the user is known. -/
theorem outcome_claimed {h : Bridge} (hon : GoesOn i inviter false x .register)
    (hheard : Heard b x h) (hnew : ¬ (i.puppet = true ∨ Knows i b.store))
    (hsaved : ∀ c, (recordClaim i (x.content >>= fun _ => .ok ())).outcome h = (.ok (), c) →
      ((markRegistered (.text i.userId)).outcome c).1 = .ok ()) :
    ∃ d, (recordClaim i (x.content >>= fun _ => .ok ()) >>= fun _ =>
        markRegistered (.text i.userId)).outcome h = (.ok (), d) ∧
      d.store = knownStore i b.store ∧ Grown b x d := by
  have hcounted : (x.content >>= fun _ => Except.ok ()) = .ok () ∨
      ∃ q, (x.content >>= fun _ => Except.ok ()) = .error (.request q) ∧ q.kind = .userInUse := by
    rcases hon with ⟨data, hdata⟩ | ⟨q, hq, hkind⟩
    · exact .inl (by rw [hdata]; rfl)
    · exact .inr ⟨q, by rw [hq]; rfl, hkind⟩
  obtain ⟨c, hrecord, hstore⟩ := outcome_recordClaim i h hcounted
  have hmark := untouched_markRegistered i.userId c
  have hquiet := quiet_claimed i (x.content >>= fun _ => .ok ()) h
  rw [Attempt.outcome_bind, hrecord, Attempt.follow_ok] at hquiet ⊢
  refine ⟨_, Prod.ext (hsaved c hrecord) rfl, ?_, ?_⟩
  · rw [not_or] at hnew
    rw [hmark.store, hstore, hheard.store, knownStore, if_neg hnew.1]
  · exact ⟨hheard.toSameService.trans hquiet.toSameService,
      hquiet.traffic.trans hheard.traffic, hquiet.answers.trans hheard.answers,
      hheard.storeThen, hheard.answer⟩

theorem entry_enterRoom {out : Except Failure Unit × Bridge}
    (hout : out = (enterRoom i (.text room) inviter).outcome b) (hfits : Fitting room b out.2)
    (hsaved : ∀ c, (claimUser i).outcome b = (.ok (), c) →
      ((markRegistered (.text i.userId)).outcome c).1 = .ok ()) :
    ∃ made, Entry i room inviter false
      ((if i.puppet = true ∨ Knows i b.store then [] else [.register]) ++ [.join, .invite, .join])
      b b.store (knownStore i b.store) out made := by
  rw [enterRoom, Attempt.outcome_bind, outcome_inStage, outcome_ensureRegistered] at hout
  by_cases hknows : i.puppet = true ∨ Knows i b.store
  · rw [if_pos hknows] at hout ⊢
    rw [knownStore_known hknows]
    exact entry_joinRoom hout hfits
  · rw [if_neg hknows] at hout ⊢
    obtain ⟨x, h, hregister, hx, hheard⟩ := outcome_registerUser i b
    have hrequest : EntryRequest i room inviter b x .register := hx
    have hclaim : (claimUser i).outcome b =
        (recordClaim i (x.content >>= fun _ => .ok ())).outcome h := by
      rw [claimUser, Attempt.outcome_bind, Attempt.outcome_result, Attempt.follow_ok, hregister]
    rw [Attempt.outcome_bind, hclaim, ← Attempt.outcome_bind] at hout
    -- A user in use goes on like one who was accepted, so the split is not by the answer.
    by_cases hon : GoesOn i inviter false x .register
    · rw [hclaim] at hsaved
      obtain ⟨d, hmarked, hknown, hgrown⟩ := outcome_claimed hon hheard hknows hsaved
      rw [hmarked] at hout
      obtain ⟨made, hentry⟩ := entry_joinRoom hout (hfits.tail hgrown.traffic)
      rw [hknown] at hentry
      exact ⟨_, .cons hrequest hon hgrown hheard.storeThen hentry⟩
    · have hgrows : ∃ more, out.2.traffic = h.traffic ++ more := by
        rw [hout]
        exact grows_claimed i room inviter _ _ h
      rcases fits_cases (hfits.head hheard.traffic hgrows) with haccepted | ⟨q, hq⟩
      · exact absurd (.inl haccepted) hon
      · have hthrow : recordClaim i (x.content >>= fun _ => .ok ()) =
            throw (.precondition registeringStage (.request q)) := by
          rw [hq]
          exact if_neg fun hkind => hon (.inr ⟨q, hq, by simpa using hkind⟩)
        have hend : out = (.error (entryFailure false q .register), h) := by
          rw [hout, hthrow]
          rfl
        rw [hend]
        exact ⟨_, .refused hrequest hq hon hheard rfl rfl⟩

end Making

/-! ## Making sure that a user is in a room -/

/-- All that is to say about making sure that a user is in a room: `made` are the requests. -/
structure EnsuredJoin (i : Intent) (room : String) (ignoreCache : Bool) (inviter : Option ClientId)
    (b : Bridge) (out : Except Failure Unit × Bridge) (made : List (EntryStep × Exchange)) :
    Prop where
  /-- These are all requests, and each is the one of its step. -/
  traffic : out.2.traffic = b.traffic ++ made.map (·.2)
  requests : ∀ s ∈ made, EntryRequest i room inviter b s.2 s.1
  order : made.map (·.1) <+: [.register, .join, .invite, .join] ∨
    made.map (·.1) <+: [.join, .invite, .join]
  none_iff : made = [] ↔
    ignoreCache = false ∧ Store.isJoined (.text room) (.text i.userId) b.store = .ok true
  register_iff : made ≠ [] →
    (.register ∈ made.map (·.1) ↔ i.puppet = false ∧ ¬ Knows i b.store)
  proceeds : Proceeds i inviter false made
  atMost : (made.map (·.1)).count .register ≤ 1 ∧ (made.map (·.1)).count .invite ≤ 1 ∧
    (made.map (·.1)).count .join ≤ 2
  returns_iff : out.1 = .ok () ↔ made = [] ∨ ∃ x, (.join, x) ∈ made ∧ x.Accepted
  /-- A join that was accepted is kept under the room that its answer names. -/
  joined : ∀ x, (.join, x) ∈ made → x.Accepted →
    ∃ named, x.content >>= joinedRoom (.text room) = .ok (.text named) ∧
      Store.isJoined (.text named) (.text i.userId) out.2.store = .ok true ∧
      out.2.store = (knownStore i b.store).joinedIn named i.userId
  hit : made = [] → out.2.store = b.store
  /-- A failure is the one of the last request, and no membership was touched. -/
  failed : ∀ e, out.1 = .error e → ∃ before step x q, made = before ++ [(step, x)] ∧
    x.RefusedWith q ∧ e = entryFailure (before.any (·.1 == .invite)) q step ∧ e.kind = q.kind ∧
    out.2.store = if step = .register then b.store else knownStore i b.store

theorem kind_entryFailure (invited : Bool) (q : RequestError) (step : EntryStep) :
    (entryFailure invited q step).kind = q.kind := by
  cases step <;> rfl

/-- What was made of an entry is all that is made where the user is not known to be there. -/
theorem Entry.ensured {i : Intent} {room : String} {ignoreCache : Bool}
    {inviter : Option ClientId} {b : Bridge} {out : Except Failure Unit × Bridge}
    {made : List (EntryStep × Exchange)}
    (h : Entry i room inviter false
      ((if i.puppet = true ∨ Knows i b.store then [] else [.register]) ++ [.join, .invite, .join])
      b b.store (knownStore i b.store) out made)
    (hunknown : ¬ (ignoreCache = false ∧
      Store.isJoined (.text room) (.text i.userId) b.store = .ok true)) :
    EnsuredJoin i room ignoreCache inviter b out made where
  traffic := h.traffic
  requests := h.requests
  order := by
    have horder := h.order
    split at horder
    · exact .inr horder
    · exact .inl horder
  none_iff := iff_of_false h.ne_nil hunknown
  register_iff := by
    intro _
    have horder := h.order
    have hknows :
        (i.puppet = false ∧ ¬ Knows i b.store) ↔ ¬ (i.puppet = true ∨ Knows i b.store) := by
      rw [not_or, Bool.not_eq_true]
    rw [hknows]
    split at horder
    · next hknown =>
      refine iff_of_false (fun hmem => ?_) (not_not_intro hknown)
      have hplan := horder.subset hmem
      simp at hplan
    · next hnew =>
      refine iff_of_true ?_ hnew
      obtain ⟨s, rest, hmade⟩ := List.exists_cons_of_ne_nil h.ne_nil
      rw [hmade] at horder ⊢
      have hhead := (List.cons_prefix_cons.mp horder).1
      simp [hhead]
  proceeds := h.proceeds
  atMost := by
    have hcount (step : EntryStep) : (made.map (·.1)).count step ≤
        [EntryStep.register, .join, .invite, .join].count step := by
      have horder := h.order.sublist.count_le step
      split at horder
      · exact Nat.le_trans horder ((List.sublist_cons_self _ _).count_le step)
      · exact horder
    exact ⟨hcount .register, hcount .invite, hcount .join⟩
  returns_iff := by
    rw [h.returns_iff, or_iff_right h.ne_nil]
  joined := by
    intro x hjoin haccepted
    obtain ⟨named, hnamed, -, hstore⟩ := h.joined hjoin haccepted
    exact ⟨named, hnamed, by rw [hstore]; exact Store.isJoined_joinedIn _ _ _, hstore⟩
  hit := fun hmade => absurd hmade h.ne_nil
  failed := by
    intro e he
    obtain ⟨before, step, x, q, hmade, hq, hfailure, hstore⟩ := h.failed he
    exact ⟨before, step, x, q, hmade, hq, hfailure, by rw [hfailure, kind_entryFailure], hstore⟩

theorem isJoined_text (room user : String) (s : Store) :
    ∃ known, Store.isJoined (.text room) (.text user) s = .ok known :=
  ⟨_, rfl⟩

/-- Whatever the homeserver answers, making sure that a user is in a room takes a registration, a
join, an invitation and one more join at most, in this order. -/
theorem ensureJoined_entry (i : Intent) (room : String) (ignoreCache : Bool)
    (inviter : Option ClientId) (b : Bridge)
    (hfits : Fitting room b ((ensureJoined i (.text room) ignoreCache inviter).outcome b).2)
    (hsaved : ∀ c, (claimUser i).outcome b = (.ok (), c) →
      ((markRegistered (.text i.userId)).outcome c).1 = .ok ()) :
    ∃ made, EnsuredJoin i room ignoreCache inviter b
      ((ensureJoined i (.text room) ignoreCache inviter).outcome b) made := by
  have henter (h : (ensureJoined i (.text room) ignoreCache inviter).outcome b =
        (enterRoom i (.text room) inviter).outcome b)
      (hunknown : ¬ (ignoreCache = false ∧
        Store.isJoined (.text room) (.text i.userId) b.store = .ok true)) :
      ∃ made, EnsuredJoin i room ignoreCache inviter b
        ((ensureJoined i (.text room) ignoreCache inviter).outcome b) made := by
    obtain ⟨made, hentry⟩ := entry_enterRoom h hfits hsaved
    exact ⟨made, hentry.ensured hunknown⟩
  cases ignoreCache with
  | true => exact henter rfl (by simp)
  | false =>
    have hask : (ensureJoined i (.text room) false inviter).outcome b =
        Attempt.follow (fun known => if known then count .joinCacheHits 1
          else enterRoom i (.text room) inviter)
          (Store.isJoined (.text room) (.text i.userId) b.store, b) := by
      rw [← outcome_ask, ← Attempt.outcome_bind]
      rfl
    obtain ⟨known, hknown⟩ := isJoined_text room i.userId b.store
    cases known with
    | false =>
      refine henter ?_ (by simp [hknown])
      rw [hask, hknown]
      rfl
    | true =>
      refine ⟨[], ?_⟩
      rw [hask, hknown]
      exact {
        traffic := (List.append_nil _).symm
        requests := nofun
        order := .inl List.nil_prefix
        none_iff := by simp [hknown]
        register_iff := fun h => absurd rfl h
        proceeds := trivial
        atMost := by simp
        returns_iff := iff_of_true rfl (.inl rfl)
        joined := nofun
        hit := fun _ => rfl
        failed := nofun }

theorem markRegistered_unsaved {user : String} {b : Bridge} (h : b.registryPath = none) :
    ((markRegistered (.text user)).outcome b).1 = .ok () := by
  rw [markRegistered, Attempt.outcome_bind, Attempt.outcome_ofResult, Value.toKey_text,
    Attempt.follow_ok, Attempt.outcome_bind, Attempt.outcome_get, Attempt.follow_ok]
  by_cases hcontains : b.store.registered.contains (.text user)
  · simp only [hcontains, if_true]
    rfl
  · simp only [hcontains, Bool.false_eq_true, if_false, Attempt.outcome_bind,
      Attempt.outcome_modify, Attempt.outcome_get, Attempt.follow_ok, h]
    rfl

/-- A user and the bot of a bridge. The first join is forbidden, the second one is not. -/
def Example.invited : Bridge where
  clients := [
    { homeserver := "http://hs", token := .text "t", user := .text "@alice:hs", timeout := .zero },
    { homeserver := "http://hs", token := .text "t", user := .text "@bot:hs", timeout := .zero }]
  answers := [.reply 200 none, .reply 403 none, .reply 200 none,
    .reply 200 (some (.record [("room_id", .text "!r:hs")]))]

/-- An entry that takes all the requests there are. -/
theorem ensureJoined_invited :
    ∃ made, EnsuredJoin ⟨0, "alice", "@alice:hs", some 1, false⟩ "#r:hs" false none
      Example.invited ((ensureJoined ⟨0, "alice", "@alice:hs", some 1, false⟩ (.text "#r:hs") false
        none).outcome Example.invited) made ∧
      made.map (·.1) = [.register, .join, .invite, .join] := by
  let i : Intent := ⟨0, "alice", "@alice:hs", some 1, false⟩
  let out := (ensureJoined i (.text "#r:hs") false none).outcome Example.invited
  have hall : ∀ x ∈ out.2.traffic, x.Fits "#r:hs" := by decide +kernel
  have hlength : out.2.traffic.length = 4 := by decide +kernel
  have hfits : Fitting "#r:hs" Example.invited out.2 := by
    intro made hmade x hx
    exact hall x (by rw [hmade]; exact List.mem_append_right _ hx)
  have hsaved (c : Bridge) (hc : (claimUser i).outcome Example.invited = (.ok (), c)) :
      ((markRegistered (.text i.userId)).outcome c).1 = .ok () := by
    have hpath : ((claimUser i).outcome Example.invited).2.registryPath = none := rfl
    rw [hc] at hpath
    exact markRegistered_unsaved hpath
  obtain ⟨made, hmade⟩ := ensureJoined_entry i "#r:hs" false none Example.invited hfits hsaved
  refine ⟨made, hmade, ?_⟩
  have hsteps : (made.map (·.1)).length = 4 := by
    have htraffic := congrArg List.length hmade.traffic
    rw [hlength] at htraffic
    simpa [Example.invited] using htraffic.symm
  rcases hmade.order with horder | horder
  · exact horder.eq_of_length hsteps
  · have hshort := horder.length_le
    rw [hsteps] at hshort
    exact absurd hshort (by decide)

end Bridge

end VirtualUsers
