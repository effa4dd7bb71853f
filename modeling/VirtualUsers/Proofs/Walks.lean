import VirtualUsers.Proofs.Turns
/-!
# Every operation goes by turns

One walk for each part of an operation, put together for all operations in `perform_walk`.
-/

namespace VirtualUsers.Bridge

open Attempt (ofResult)

variable {i : Intent} {op : Operation} {b : Bridge}

/-! ## Registration -/

theorem asks_registerUser (i : Intent) (b : Bridge) :
    Asks b (·.Registers (b.clientAt i.client) (.text i.localpart) (.bool true)) (fun _ => .ok ())
      (registerUser i) :=
  (asks_sendRegister b i.client _ _).reading fun _ => .ok ()

/-- Where nothing is done with an answer, the turn ends when it is heard. -/
theorem Follows.heard {x : Exchange} {read : Value → Except Failure α} {next : α → Act β}
    {b' : Bridge} (h : Follows b x (reading read next) b')
    (hnext : ∀ a c, ((next a).outcome c).2 = c) : Heard b x b' := by
  obtain ⟨c, hheard, rfl⟩ := h
  have hsame : ((reading read next x.content).outcome c).2 = c := by
    rw [reading]
    cases x.content >>= read with
    | error e => rfl
    | ok a => exact hnext a c
  rwa [hsame]

theorem walk_registerUser (hop : op = .register) :
    Walk i op b ((registerUser i).outcome b) :=
  Walk.asked (asks_sendRegister b i.client (.text i.localpart) (.bool true))
    (fun _ => staysLocal_ok _) (fun _ => Attempt.staysLocal_pure ()) (fun _ _ => rfl)
    fun _ hx _ h => .registered hop hx (h.heard fun _ _ => rfl)

theorem recordClaim_local (i : Intent) {e : Failure} (he : ¬ e.FromHomeserver) :
    recordClaim i (.error e) = throw e := by
  cases e with
  | request q => exact absurd trivial he
  | _ => rfl

/-- A refused registration either counts as one or ends everything. -/
theorem recordClaim_refused (i : Intent) (q : RequestError) :
    recordClaim i (.error (.request q)) = throw (.precondition registeringStage (.request q)) ∨
      (recordClaim i (.error (.request q))).StaysLocal := by
  simp only [recordClaim]
  split
  · exact .inr ((staysLocal_count _ _).bind fun _ => staysLocal_note _ _ _)
  · exact .inl rfl

theorem walk_claimUser (hop : op ≠ .register) (hpuppet : i.puppet = false)
    (hnew : ¬ Knows i b.store) :
    Walk i op b ((claimUser i >>= fun _ => markRegistered (.text i.userId)).outcome b) := by
  have hassoc : (claimUser i >>= fun _ => markRegistered (.text i.userId)) =
      Attempt.result (registerUser i) >>= fun r =>
        recordClaim i r >>= fun _ => markRegistered (.text i.userId) := bind_assoc _ _ _
  rw [hassoc]
  refine Walk.heard (asks_registerUser i b) (fun _ => staysLocal_ok _) (fun _ => ?_)
    (fun e he => ?_)
    (fun q h e he hfrom => ?_) fun x h hx hheard => ?_
  · have hclaim : (recordClaim i (.ok ())).StaysLocal :=
      (staysLocal_count _ _).bind fun _ => staysLocal_note _ _ _
    exact hclaim.bind fun _ => staysLocal_markRegistered _
  · rw [recordClaim_local i he]
    rfl
  · rcases recordClaim_refused i q with hthrow | hlocal
    · rw [hthrow] at he ⊢
      cases he
      exact ⟨rfl, rfl⟩
    · exact absurd hfrom (hlocal.bind (fun _ => staysLocal_markRegistered _) h e he)
  · refine .claimed hop hpuppet hnew hx ⟨h, hheard, ?_⟩
    cases x.content <;> rfl

/-- Who is known, or not for the bridge to register, is left alone. -/
theorem outcome_ensureRegistered (i : Intent) (b : Bridge) :
    (ensureRegistered i).outcome b =
      if i.puppet = true ∨ Knows i b.store then (.ok (), b)
      else (claimUser i >>= fun _ => markRegistered (.text i.userId)).outcome b := by
  have hask : (ask (Store.isRegistered (.text i.userId))).outcome b =
      (.ok (decide (Knows i b.store)), b) := by
    have hcontains : b.store.registered.contains (.text i.userId) = decide (Knows i b.store) :=
      List.contains_eq_mem _ _
    rw [← hcontains, outcome_ask]
    rfl
  rw [ensureRegistered, Attempt.outcome_bind, hask, Attempt.follow_ok]
  by_cases hpuppet : i.puppet = true
  · simp [hpuppet]
  · by_cases hknows : Knows i b.store <;> simp [hpuppet, hknows]

theorem walk_ensureRegistered (hop : op ≠ .register) :
    Walk i op b ((ensureRegistered i).outcome b) := by
  rw [outcome_ensureRegistered]
  split
  · exact .still (.refl b) (staysLocal_ok ())
  · next h =>
    rw [not_or, Bool.not_eq_true] at h
    exact walk_claimUser hop h.1 h.2

/-- After registration the user is known, unless it is not for the bridge to register. -/
theorem knows_ensureRegistered {b' : Bridge} (h : (ensureRegistered i).outcome b = (.ok (), b')) :
    i.puppet = true ∨ Knows i b'.store := by
  rw [outcome_ensureRegistered] at h
  split at h
  · next hknows =>
    cases h
    exact hknows
  · right
    rw [Attempt.outcome_bind] at h
    rcases hclaim : (claimUser i).outcome b with ⟨_ | _, c⟩
    · rw [hclaim] at h
      cases h
    · rw [hclaim, Attempt.follow_ok] at h
      have hmark := (untouched_markRegistered i.userId c).store
      rw [h] at hmark
      rw [Knows, hmark]
      exact mem_register _ _

/-! ## Joining -/

theorem staysLocal_joinedRoom (room data : Value) : StaysLocal (joinedRoom room data) :=
  (data.staysLocal_field _).map

theorem isRequest_fromHomeserver (e : Failure) (h : isRequest e) : e.FromHomeserver := by
  cases e <;> trivial

theorem isPrecondition_fromHomeserver (e : Failure) (h : isPrecondition e) : e.FromHomeserver := by
  cases e <;> trivial

section Joining

variable {room : Value} {inviter : Option ClientId}

/-- The turn of a join ends in the same state however its failure is called. -/
theorem walk_join (hop : op.entry? = some (room, inviter))
    (hknows : i.puppet = true ∨ Knows i b.store) (name : Failure → Failure)
    (hname : ∀ e, (name e).root = e.root) (hlocal : ∀ e, ¬ e.FromHomeserver → name e = e) :
    Walk i op b ((Attempt.result (sendJoin i.client room) >>= fun r =>
      ofResult (r.mapError name) >>= recordJoin i).outcome b) := by
  refine Walk.heard (asks_sendJoin b i.client room) (staysLocal_joinedRoom room)
    (staysLocal_recordJoin i) (fun e he => ?_) (fun q h e he _ => ?_) fun x h hx hheard => ?_
  · rw [Attempt.mapError_error, hlocal e he]
    rfl
  · cases he
    exact ⟨hname _, rfl⟩
  · refine .joined room inviter hop hknows hx ⟨h, hheard, ?_⟩
    rw [reading]
    cases x.content >>= joinedRoom room <;> rfl

/-- The invitation that helps into a room is one request, counted before it is sent. -/
theorem outcome_getInvited (i : Intent) (helper : ClientId) {r : Segment}
    (hroom : room.segment = .ok r) (b : Bridge) :
    ∃ x h, (getInvited i room helper).outcome b =
        ((x.content >>= fun _ => .ok ()).mapError
          (fun e => if isRequest e then .precondition invitingStage e else e), h) ∧
      x.ChangesMembership (b.clientAt helper) .invite room (.text i.userId) .null ∧
      Heard ((count .joinInviteFallbacks 1).outcome b).2 x h := by
  let counted := ((count .joinInviteFallbacks 1).outcome b).2
  let noted := counted.noted "mxintent.intent" 20 ("Join forbidden, inviting via "
    ++ (b.clientAt helper).user.display ++ " room=" ++ room.display ++ " user=" ++ i.userId)
  obtain ⟨x, h, hout, hx, hheard⟩ :=
    outcome_sendMembership noted helper .invite hroom (.text i.userId) .null
  refine ⟨x, h, ?_, hx, (untouched_noted counted _ _ _).heard hheard⟩
  have hstage : (inStage invitingStage isRequest
      (sendMembership helper .invite room (.text i.userId) .null)).outcome noted =
      ((x.content >>= fun _ => .ok ()).mapError
        (fun e => if isRequest e then .precondition invitingStage e else e), h) := by
    rw [inStage_eq, Attempt.outcome_bind, Attempt.outcome_result, Attempt.follow_ok,
      Attempt.outcome_ofResult, hout]
  exact hstage

theorem walk_getInvited {helper : ClientId} {r : Segment} (hop : op.entry? = some (room, inviter))
    (hhelper : (inviter <|> i.inviter) = some helper) (hroom : room.segment = .ok r)
    (hforbidden : JoinForbidden i room b) :
    Walk i op b ((getInvited i room helper).outcome b) := by
  obtain ⟨x, h, hout, hx, hheard⟩ := outcome_getInvited i helper hroom b
  rw [hout]
  refine ⟨[x], .one (.helped room inviter helper hop hhelper hx hheard hforbidden),
    fun e he hfrom => ?_⟩
  cases hc : x.content with
  | ok data =>
    rw [hc] at he
    cases he
  | error f =>
    rw [hc] at he
    by_cases hf : f.FromHomeserver
    · obtain ⟨q, rfl⟩ := Answer.request_of_content hc hf
      cases he
      exact ⟨[], x, q, rfl, hc, rfl, hheard.store.trans hheard.storeThen.symm,
        hheard.tally.trans hheard.tallyThen.symm⟩
    · have hname : ¬ isRequest f := fun h => hf (isRequest_fromHomeserver f h)
      have hsame : f = e := by
        change Except.error (if isRequest f then .precondition invitingStage f else f) = _ at he
        rw [if_neg hname] at he
        exact Except.error.inj he
      exact absurd (hsame ▸ hfrom) hf

theorem walk_joinAfterInvite {helper : ClientId} {r : Segment}
    (hop : op.entry? = some (room, inviter)) (hknows : i.puppet = true ∨ Knows i b.store)
    (hhelper : (inviter <|> i.inviter) = some helper) (hroom : room.segment = .ok r)
    (hforbidden : JoinForbidden i room b) :
    Walk i op b ((joinAfterInvite i room helper >>= recordJoin i).outcome b) := by
  rw [joinAfterInvite, bind_assoc]
  apply Walk.bind (walk_getInvited hop hhelper hroom hforbidden)
  intro _ b' hout
  have hstore : b'.store = b.store := by
    obtain ⟨x, h, hout', -, hheard⟩ := outcome_getInvited i helper hroom b
    have hsame : h = b' := congrArg Prod.snd (hout'.symm.trans hout)
    rw [← hsame, hheard.store]
    rfl
  rw [inStage_eq, bind_assoc]
  refine walk_join hop (by rwa [hstore]) _ (fun e => ?_) fun e he => ?_
  · split <;> rfl
  · rw [if_neg]
    exact fun h => he (isRequest_fromHomeserver e h)

/-- If the homeserver is behind the failure of a join then it refused the join. -/
theorem refused_of_joinedRoom {x : Exchange} {q : RequestError}
    (h : x.content >>= joinedRoom room = .error (.request q)) : x.RefusedWith q := by
  cases hc : x.content with
  | error e =>
    rw [hc] at h
    cases h
    exact hc
  | ok data =>
    rw [hc] at h
    exact absurd trivial (staysLocal_joinedRoom room data _ h)

/-- A join is settled at once, or it is forbidden and someone can help. -/
theorem settleJoin_cases (i : Intent) (room : Value) (inviter : Option ClientId)
    (r : Except Failure Value) :
    settleJoin i room inviter r =
        ofResult (r.mapError fun e => if isRequest e then .precondition joiningStage e else e) ∨
      ∃ q helper, r = .error (.request q) ∧ q.kind = .forbidden ∧
        (inviter <|> i.inviter) = some helper ∧
        settleJoin i room inviter r = joinAfterInvite i room helper := by
  rcases r with e | joined
  · cases e with
    | request q =>
      rcases hhelper : (inviter <|> i.inviter) with _ | helper
      · left
        simp only [settleJoin, hhelper]
        cases q.kind <;> rfl
      · by_cases hkind : q.kind = .forbidden
        · right
          exact ⟨q, helper, rfl, hkind, rfl, by simp only [settleJoin, hhelper, hkind]⟩
        · left
          simp only [settleJoin, hhelper]
          split
          · next h _ => exact absurd h hkind
          · rfl
    | _ => exact .inl rfl
  · exact .inl rfl

theorem walk_joinRoom (hop : op.entry? = some (room, inviter))
    (hknows : i.puppet = true ∨ Knows i b.store) :
    Walk i op b ((joinRoom i room inviter >>= recordJoin i).outcome b) := by
  rw [joinRoom, bind_assoc]
  rcases settleJoin_cases i room inviter ((sendJoin i.client room).outcome b).1 with
    hsettled | ⟨q, helper, hrefused, hkind, hhelper, hsettled⟩
  · have hwalk := walk_join hop hknows
      (fun e => if isRequest e then .precondition joiningStage e else e)
      (fun e => by split <;> rfl)
      fun e he => if_neg fun h => he (isRequest_fromHomeserver e h)
    rw [Attempt.outcome_bind, Attempt.outcome_result, Attempt.follow_ok] at hwalk ⊢
    rwa [hsettled]
  · rw [Attempt.outcome_bind, Attempt.outcome_result, Attempt.follow_ok, hsettled]
    cases hroom : room.segment with
    | error e =>
      have hlocal : ¬ e.FromHomeserver := room.staysLocal_segment e hroom
      have hout : (sendJoin i.client room).outcome b = (.error e, b) := by
        rw [sendJoin, hroom]
        rfl
      rw [hout] at hrefused
      cases hrefused
      exact absurd trivial hlocal
    | ok r =>
      obtain ⟨x, h, hout, hx, hheard⟩ := outcome_sendJoin b i.client hroom
      rw [hout] at hrefused ⊢
      have hturn : Turn i op b x h := by
        refine .joined room inviter hop hknows hx ⟨h, hheard, ?_⟩
        change x.content >>= joinedRoom room = _ at hrefused
        rw [reading, hrefused]
        rfl
      have hforbidden : JoinForbidden i room h :=
        ⟨x, q, by rw [hheard.traffic, List.getLast?_concat], hheard.toSameService.joins.mpr hx,
          refused_of_joinedRoom hrefused, hkind⟩
      obtain ⟨xs, hpath, hends⟩ := walk_joinAfterInvite hop
        (hheard.store.symm ▸ hknows) hhelper hroom hforbidden (b := h)
      exact ⟨x :: xs, .turn (.refl b) hturn hpath, fun e he hfrom => (hends e he hfrom).after [x]⟩

theorem outcome_inStage (stage : String) (isCause : Failure → Bool) (x : Act α) (b : Bridge) :
    (inStage stage isCause x).outcome b =
      ((x.outcome b).1.mapError fun e => if isCause e then .precondition stage e else e,
        (x.outcome b).2) := by
  rw [inStage_eq, Attempt.outcome_bind, Attempt.outcome_result, Attempt.follow_ok,
    Attempt.outcome_ofResult]

theorem walk_enterRoom (hop : op.entry? = some (room, inviter)) :
    Walk i op b ((enterRoom i room inviter).outcome b) := by
  have hne : op ≠ .register := by
    rintro rfl
    cases hop
  refine Walk.bind ((walk_ensureRegistered hne).inStage isPrecondition_fromHomeserver)
    fun _ b' hout => walk_joinRoom hop (knows_ensureRegistered (b := b) ?_)
  rw [outcome_inStage] at hout
  rcases hreg : (ensureRegistered i).outcome b with ⟨e | _, c⟩
  · rw [hreg] at hout
    cases hout
  · rw [hreg] at hout
    cases hout
    rfl

theorem walk_ensureJoined {ignoreCache : Bool} (hop : op.entry? = some (room, inviter)) :
    Walk i op b ((ensureJoined i room ignoreCache inviter).outcome b) := by
  have hknown (known : Bool) : Walk i op b
      ((if known then count .joinCacheHits 1 else enterRoom i room inviter).outcome b) := by
    cases known with
    | false => exact walk_enterRoom hop
    | true => exact .still (idle_count (by simp [asideCounters]) b) (staysLocal_ok ())
  unfold ensureJoined
  cases ignoreCache with
  | true => exact hknown false
  | false =>
    exact Walk.ask (Store.staysLocal_hasMembership _ _ _ _) fun known _ => hknown known

end Joining

/-! ## Operations -/

/-- The requests that need membership come after the user was joined. -/
theorem walk_gated {room : Value} {f : Unit → Act α} (hop : op.entry? = some (room, none))
    (hf : ∀ b', Walk i op b' ((f ()).outcome b')) :
    Walk i op b ((ensureJoined i room false none >>= f).outcome b) :=
  (walk_ensureJoined hop).bind fun _ b' _ => hf b'

theorem staysLocal_eventId (data : Value) : StaysLocal (eventId data) :=
  (data.staysLocal_field? _).map

theorem walk_sendMessageEvent {room type content timestamp : Value}
    (hop : op.message? = some (room, type, content)) (hentry : op.entry? = some (room, none)) :
    Walk i op b ((sendMessageEvent i room type content timestamp).outcome b) :=
  walk_gated hentry fun b' =>
    Walk.asked (asks_sendMessage b' i.client room type content timestamp) staysLocal_eventId
      (fun _ => (staysLocal_count _ _).bind fun _ => Attempt.staysLocal_pure _)
      (fun _ h => Attempt.state_return _ _ h)
      fun _ hx _ h => .messageSent room type content timestamp hop hx h

theorem walk_redactEvent {room event reason : Value} (hop : op = .redactEvent room event reason) :
    Walk i op b ((redactEvent i room event reason).outcome b) :=
  walk_gated (by rw [hop]; rfl) fun b' => by
    have hwalk : Walk i op b'
        ((sendRedaction i.client room event reason >>= fun id => pure id).outcome b') :=
      Walk.asked (asks_sendRedaction b' i.client room event reason) staysLocal_eventId
        (fun id => Attempt.staysLocal_pure id) (fun _ _ => rfl)
        fun _ hx _ h => .redacted room event reason hop hx (h.heard fun _ _ => rfl)
    rwa [bind_pure] at hwalk

theorem walk_sendStateEvent {room type key content timestamp : Value}
    (hop : op.writes? = some (room, type, key, content)) (hentry : op.entry? = some (room, none)) :
    Walk i op b ((sendStateEvent i room type key content timestamp).outcome b) :=
  walk_gated hentry fun b' =>
    Walk.asked (asks_writeState b' i.client room type key content timestamp) staysLocal_eventId
      (fun _ => (staysLocal_recordState _ _ _ _ _ _).bind fun _ => Attempt.staysLocal_pure _)
      (fun _ h => Attempt.state_return _ _ h)
      fun _ hx _ h => .stateWritten room type key content timestamp hop hx h

theorem walk_stateEvent {room type key : Value} (hop : op = .stateEvent room type key) :
    Walk i op b ((stateEvent i room type key).outcome b) :=
  walk_gated (by rw [hop]; rfl) fun b' =>
    Walk.asked (asks_readState b' i.client room type key) (fun _ => staysLocal_ok _)
      (fun _ => (staysLocal_absorbEvents _).bind fun _ => Attempt.staysLocal_pure _)
      (fun _ h => Attempt.state_return _ _ h)
      fun _ hx _ h => .stateRead room type key hop hx h

theorem staysLocal_readEvents (room : Value) (raws : List Value) :
    StaysLocal (readEvents room raws) :=
  staysLocal_mapM (fun raw => Event.staysLocal_read raw room) raws

theorem staysLocal_elements (v : Value) : StaysLocal (elements v) := by
  cases v <;> simp [elements]

theorem staysLocal_membersOf (room data : Value) : StaysLocal (membersOf room data) :=
  (data.staysLocal_field _).bind fun _ =>
    (staysLocal_elements _).bind fun _ => staysLocal_readEvents room _

/-- What is taken in is counted. -/
theorem staysLocal_countAbsorbed {absorbed : Act Int} (h : absorbed.StaysLocal) (a : α) :
    (absorbed >>= fun n => count .stateAbsorbed n >>= fun _ => (pure a : Act α)).StaysLocal :=
  h.bind fun _ => (staysLocal_count _ _).bind fun _ => Attempt.staysLocal_pure _

theorem state_countAbsorbed (absorbed : Act Int) (a : α) (b : Bridge) :
    ((absorbed >>= fun n => count .stateAbsorbed n >>= fun _ => (pure a : Act α)).outcome b).2 =
      ((absorbed >>= count .stateAbsorbed).outcome b).2 := by
  rw [← bind_assoc]
  exact Attempt.state_return _ _ b

theorem walk_roomState {room : Value} (hop : op = .state room) :
    Walk i op b ((roomState i room).outcome b) :=
  walk_gated (by rw [hop]; rfl) fun b' =>
    Walk.asked (asks_readRoomState b' i.client room)
      (fun _ => (staysLocal_readEvents room _).map)
      (fun s => staysLocal_countAbsorbed (staysLocal_absorbEvents _) s)
      (fun s h => state_countAbsorbed (absorbState s) s h)
      fun _ hx _ h => .roomStateRead room hop hx h

theorem walk_joinedMembers {room : Value} (hop : op = .joinedMembers room) :
    Walk i op b ((joinedMembers i room).outcome b) :=
  Walk.asked (asks_readJoinedMembers b i.client room) (fun data => (data.staysLocal_field _).map)
    (fun joined => staysLocal_countAbsorbed (staysLocal_absorbJoined room joined) joined)
    (fun joined h => state_countAbsorbed (absorbJoined room joined) joined h)
    fun _ hx _ h => .joinedMembersRead room hop hx h

theorem walk_memberEvents {room membership notMembership : Value}
    (hop : op = .members room membership notMembership) :
    Walk i op b ((memberEvents i room membership notMembership).outcome b) :=
  Walk.asked (asks_readMembers b i.client room membership notMembership)
    (staysLocal_membersOf room)
    (fun events => staysLocal_countAbsorbed (staysLocal_absorbEvents events) events)
    (fun events h => state_countAbsorbed (absorbEvents events) events h)
    fun _ hx _ h => .membersRead room membership notMembership hop hx h

theorem walk_changeMembership {action : MembershipAction} {room user reason : Value}
    (hop : op = .changeMembership action room user reason) :
    Walk i op b ((changeMembership i action room user reason).outcome b) :=
  Walk.asked (asks_sendMembership b i.client action room user reason) (fun _ => staysLocal_ok ())
    (fun _ => staysLocal_recordChange action room user) (fun _ _ => rfl)
    fun _ hx _ h => .membershipChanged action room user reason hop hx h

theorem acceptMember_local (room user : Value) {e : Failure} (he : ¬ e.FromHomeserver) :
    acceptMember room user (.error e) = throw e := by
  cases e with
  | request q => exact absurd trivial he
  | _ => rfl

theorem acceptMember_refused (room user : Value) (q : RequestError) :
    acceptMember room user (.error (.request q)) = throw (.request q) ∨
      (acceptMember room user (.error (.request q))).StaysLocal := by
  rcases acceptMember_cases room user (.error (.request q)) with ⟨hq, -⟩ | ⟨text, h⟩ | ⟨e, hq, h⟩
  · cases hq
  · exact .inr (h ▸ (staysLocal_count _ _).bind fun _ => staysLocal_note _ _ text)
  · cases hq
    exact .inl h

theorem staysLocal_acceptMember (room user : Value) {r : Except Failure Unit}
    (hr : StaysLocal r) : (acceptMember room user r).StaysLocal := by
  rcases r with e | _
  · rw [acceptMember_local room user (hr e rfl)]
    exact Attempt.staysLocal_throw (hr e rfl)
  · exact Attempt.staysLocal_pure ()

theorem walk_ensureInvited {room user : Value} (hop : op = .ensureInvited room user) :
    Walk i op b ((ensureInvited i room user).outcome b) := by
  apply Walk.ask (Store.staysLocal_hasMembership _ _ _ _)
  intro known _
  cases known with
  | true => exact .still (.refl b) (staysLocal_ok ())
  | false =>
    let settle (r : Except Failure Unit) : Act Unit :=
      Attempt.result (ofResult r >>= fun _ => recordChange .invite room user) >>=
        acceptMember room user
    let send := sendMembership i.client .invite room user .null
    have hsplit : (Attempt.result (changeMembership i .invite room user .null) >>=
        acceptMember room user).outcome b = (Attempt.result send >>= settle).outcome b := by
      simp only [send, settle, changeMembership, Attempt.outcome_bind, Attempt.outcome_result,
        Attempt.follow_ok, Attempt.outcome_bind_result (sendMembership _ _ _ _ _)]
    have hchange := staysLocal_recordChange .invite room user
    change Walk i op b ((Attempt.result (changeMembership i .invite room user .null) >>=
      acceptMember room user).outcome b)
    rw [hsplit]
    refine Walk.heard (asks_sendMembership b i.client .invite room user .null)
      (fun _ => staysLocal_ok ()) (fun _ => ?_) (fun e he => ?_) (fun q h e he hfrom => ?_)
      fun x h hx hheard => ?_
    · exact Attempt.StaysLocal.result_bind hchange fun r hr => staysLocal_acceptMember room user hr
    · exact acceptMember_local room user he
    · change ((acceptMember room user (.error (.request q))).outcome h).1 = .error e at he
      change e.root = _ ∧ ((acceptMember room user (.error (.request q))).outcome h).2 = h
      rcases acceptMember_refused room user q with hthrow | hlocal
      · rw [hthrow] at he ⊢
        cases he
        exact ⟨rfl, rfl⟩
      · exact absurd hfrom (hlocal h e he)
    · exact .invited room user hop hx ⟨h, hheard, rfl⟩

theorem walk_member {room user : Value} (hop : op = .member room user) :
    Walk i op b ((member i room user).outcome b) := by
  apply Walk.ask (Store.staysLocal_member? _ _ _)
  intro known hknown
  cases known with
  | some m => exact .still (.refl b) (staysLocal_ok _)
  | none =>
    refine Walk.heard (asks_readState b i.client room (.text EventType.member) user)
      (fun _ => staysLocal_ok _) (fun content => ?_) (fun e he => ?_) (fun q h e he hfrom => ?_)
      fun x h hx hheard => ?_
    · exact (Attempt.staysLocal_ofResult (Member.staysLocal_ofContent content)).bind fun _ =>
        (staysLocal_onStore (Store.staysLocal_setMember _ _ _)).bind fun _ =>
          Attempt.staysLocal_pure _
    · cases e with
      | request q => exact absurd trivial he
      | _ => rfl
    · simp only [recordMember] at he ⊢
      split at he
      · cases he
      · next hkind =>
        cases he
        simp only [hkind]
        exact ⟨rfl, rfl⟩
    · refine .memberRead room user hop hknown hx ⟨h, hheard, ?_⟩
      have hread : x.content >>= Except.ok = x.content := bind_pure x.content
      rw [hread]

theorem walk_powerLevels {room : Value} (hop : op.ReadsLevels room) :
    Walk i op b ((powerLevels i room).outcome b) := by
  apply Walk.ask (Store.staysLocal_powerRecord? room b.store)
  intro known _
  cases known with
  | some record => exact .still (.refl b) (staysLocal_ok _)
  | none =>
    exact Walk.asked (asks_readState b i.client room (.text EventType.powerLevels) (.text ""))
      (fun _ => staysLocal_ok _) (staysLocal_recordLevels room) (fun _ _ => rfl)
      fun _ hx _ h => .levelsRead room hop hx h

theorem walk_setPowerLevels {room levels : Value} (hop : op.WritesLevels room levels)
    (hentry : op.entry? = some (room, none)) :
    Walk i op b ((setPowerLevels i room levels).outcome b) := by
  have hassoc : setPowerLevels i room levels = ensureJoined i room false none >>= fun _ =>
      writeState i.client room (.text EventType.powerLevels) (.text "") levels .null >>= fun id =>
        (do
          recordState i room (.text EventType.powerLevels) (.text "") levels id
          onStore (Store.setPowerLevels room levels)) >>= fun _ => pure id := by
    simp only [setPowerLevels, sendStateEvent, bind_assoc, pure_bind]
  rw [hassoc]
  exact walk_gated hentry fun b' =>
    Walk.asked (asks_writeState b' i.client room _ _ levels .null) staysLocal_eventId
      (fun _ => ((staysLocal_recordState _ _ _ _ _ _).bind fun _ =>
        staysLocal_onStore (Store.staysLocal_setPowerLevels _ _)).bind fun _ =>
          Attempt.staysLocal_pure _)
      (fun _ h => Attempt.state_return _ _ h)
      fun _ hx _ h => .levelsWritten room levels hop hx h

theorem staysLocal_draft (record : PowerRecord) : StaysLocal record.draft := by
  cases record <;> simp [PowerRecord.draft]

theorem walk_setPowerLevel {room user level : Value} (hop : op = .setPowerLevel room user level) :
    Walk i op b ((setPowerLevel i room user level).outcome b) := by
  subst hop
  have hreads : Operation.ReadsLevels room (.setPowerLevel room user level) := rfl
  apply (walk_powerLevels hreads).bind
  intro record b' _
  apply Walk.ofResult (staysLocal_draft record)
  intro current
  apply Walk.ofResult (current.staysLocal_userLevel user)
  intro own
  split
  · exact .still (idle_count (by simp [asideCounters]) b') (staysLocal_ok _)
  · apply Walk.ofResult (current.staysLocal_setUserLevel user level)
    intro edited
    have hwrites :
        Operation.WritesLevels room edited.toValue (.setPowerLevel room user level) := rfl
    exact (walk_setPowerLevels hwrites rfl).map some

theorem walk_userTyping {room typing timeout : Value}
    (hop : op = .userTyping room typing timeout) :
    Walk i op b ((userTyping i room typing timeout).outcome b) := by
  rw [userTyping, Attempt.outcome_bind, Attempt.outcome_get, Attempt.follow_ok]
  apply Walk.ask (Store.staysLocal_isTyping _ _ _ _)
  intro known _
  split
  · exact .still (idle_count (by simp [asideCounters]) b) (staysLocal_ok _)
  · exact Walk.asked (asks_sendTyping b i.client room typing timeout) (fun _ => staysLocal_ok ())
      (fun _ => (staysLocal_recordTyping _ _ _ _ _).bind fun _ => Attempt.staysLocal_pure _)
      (fun _ h => Attempt.state_return _ _ h)
      fun _ hx _ h => .typingSent room typing timeout hop hx h

/-- What only needs a registered user comes after registration. -/
theorem walk_registeredFirst {f : Unit → Act α} (hop : op ≠ .register)
    (hf : ∀ b', (i.puppet = true ∨ Knows i b'.store) → Walk i op b' ((f ()).outcome b')) :
    Walk i op b ((ensureRegistered i >>= f).outcome b) :=
  (walk_ensureRegistered hop).bind fun _ b' hout => hf b' (knows_ensureRegistered hout)

theorem walk_setDisplayName {name : Value} (hop : op = .setDisplayName name) :
    Walk i op b ((setDisplayName i name).outcome b) :=
  walk_registeredFirst (by rw [hop]; nofun) fun b' hknows => by
    have hwalk : Walk i op b' ((sendDisplayName i.client name >>= fun _ => pure ()).outcome b') :=
      Walk.asked (asks_sendDisplayName b' i.client name) (fun _ => staysLocal_ok ())
        (fun _ => Attempt.staysLocal_pure ()) (fun _ _ => rfl)
        fun _ hx _ h => .displayNameSet name hop hknows hx (h.heard fun _ _ => rfl)
    rwa [bind_pure_unit] at hwalk

theorem walk_setAvatarUrl {url : Value} (hop : op = .setAvatarUrl url) :
    Walk i op b ((setAvatarUrl i url).outcome b) :=
  walk_registeredFirst (by rw [hop]; nofun) fun b' hknows => by
    have hwalk : Walk i op b' ((sendAvatarUrl i.client url >>= fun _ => pure ()).outcome b') :=
      Walk.asked (asks_sendAvatarUrl b' i.client url) (fun _ => staysLocal_ok ())
        (fun _ => Attempt.staysLocal_pure ()) (fun _ _ => rfl)
        fun _ hx _ h => .avatarUrlSet url hop hknows hx (h.heard fun _ _ => rfl)
    rwa [bind_pure_unit] at hwalk

theorem walk_whoami (hop : op = .whoami) : Walk i op b ((whoami i).outcome b) :=
  walk_registeredFirst (by rw [hop]; nofun) fun b' hknows => by
    have hwalk : Walk i op b' ((readWhoami i.client >>= fun data => pure data).outcome b') :=
      Walk.asked (asks_readWhoami b' i.client) (fun _ => staysLocal_ok _)
        (fun data => Attempt.staysLocal_pure data) (fun _ _ => rfl)
        fun _ hx _ h => .whoamiAsked hop hknows hx (h.heard fun _ _ => rfl)
    rwa [bind_pure] at hwalk

/-- Every operation goes by its turns, and fails because of the homeserver only in the last one. -/
theorem perform_walk (i : Intent) (op : Operation) (b : Bridge) :
    Walk i op b ((perform i op).outcome b) := by
  have hnull {x : Act Unit} (hx : Walk i op b (x.outcome b)) :
      Walk i op b ((x >>= fun _ => (pure .null : Act Value)).outcome b) :=
    hx.bind fun _ b' _ => .still (.refl b') (staysLocal_ok _)
  cases op with
  | register => exact hnull (walk_registerUser rfl)
  | ensureRegistered => exact hnull (walk_ensureRegistered nofun)
  | ensureJoined room ignoreCache inviter => exact hnull (walk_ensureJoined rfl)
  | sendMessageEvent room type content => exact (walk_sendMessageEvent rfl rfl).map sent
  | sendMassagedMessageEvent room type content timestamp =>
    exact (walk_sendMessageEvent rfl rfl).map sent
  | sendText room text => exact (walk_sendMessageEvent rfl rfl).map sent
  | sendNotice room text => exact (walk_sendMessageEvent rfl rfl).map sent
  | sendImage room body url => exact (walk_sendMessageEvent rfl rfl).map sent
  | sendVideo room body url => exact (walk_sendMessageEvent rfl rfl).map sent
  | redactEvent room event reason => exact (walk_redactEvent rfl).map sent
  | sendStateEvent room type key content =>
    exact (walk_sendStateEvent rfl rfl).map sent
  | sendMassagedStateEvent room type key content timestamp =>
    exact (walk_sendStateEvent rfl rfl).map sent
  | stateEvent room type key => exact walk_stateEvent rfl
  | state room => exact (walk_roomState rfl).map RoomState.toValue
  | setRoomName room name => exact (walk_sendStateEvent rfl rfl).map sent
  | setRoomTopic room topic => exact (walk_sendStateEvent rfl rfl).map sent
  | setRoomAvatar room url => exact (walk_sendStateEvent rfl rfl).map sent
  | changeMembership action room user reason => exact hnull (walk_changeMembership rfl)
  | ensureInvited room user => exact hnull (walk_ensureInvited rfl)
  | joinedMembers room => exact (walk_joinedMembers rfl).map Value.map
  | members room membership notMembership =>
    exact (walk_memberEvents rfl).bind fun _ b' _ => .still (.refl b') (staysLocal_ok _)
  | member room user => exact (walk_member rfl).map _
  | powerLevels room =>
    have hreads : Operation.ReadsLevels room (.powerLevels room) := rfl
    exact (walk_powerLevels hreads).map PowerRecord.toValue
  | setPowerLevels room levels =>
    have hwrites : Operation.WritesLevels room levels (.setPowerLevels room levels) := ⟨rfl, rfl⟩
    exact (walk_setPowerLevels hwrites rfl).map sent
  | setPowerLevel room user level => exact (walk_setPowerLevel rfl).map _
  | userTyping room typing timeout => exact (walk_userTyping rfl).map Value.bool
  | setDisplayName name => exact hnull (walk_setDisplayName rfl)
  | setAvatarUrl url => exact hnull (walk_setAvatarUrl rfl)
  | whoami => exact walk_whoami rfl

end VirtualUsers.Bridge
