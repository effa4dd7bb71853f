import VirtualUsers.Proofs.Levels
import VirtualUsers.Proofs.ReadBack
/-!
# Giving a user a power level

The levels of a room are read unless they are kept, edited, and written behind the gate. They are
kept in place of the old ones only after the homeserver took them, so a refusal leaves no trace of
the edit, and the same call has nothing to do the second time.
-/

namespace VirtualUsers

namespace Bridge

open Attempt (ofResult)

variable {i : Intent} {b b' : Bridge} {x : Exchange}

def keptLevels (room : String) (b : Bridge) : Option PowerRecord :=
  Table.get? (.text room) b.store.powerLevels

def ReadsLevels (i : Intent) (room : String) (b : Bridge) (x : Exchange) : Prop :=
  x.ReadsState (b.clientAt i.client) (.text room) (.text EventType.powerLevels) (.text "")

def WritesLevels (i : Intent) (room : String) (l : PowerLevels) (b : Bridge) (x : Exchange) :
    Prop :=
  x.WritesState (b.clientAt i.client) (.text room) (.text EventType.powerLevels) (.text "")
    l.draft.toValue .null

/-- The levels that a change of the levels of a room starts from, and the requests that it takes to
learn them. -/
inductive Prior (i : Intent) (room : String) (b : Bridge) (l : PowerLevels) : List Exchange → Prop
  | kept (h : b.keptLevels room = some (.levels l)) : Prior i room b l []
  | read (x : Exchange) (content : Value) (hnone : b.keptLevels room = none)
      (hx : ReadsLevels i room b x) (hanswer : x.answer = b.answers.head?.getD .empty)
      (hcontent : x.content = .ok content) (hl : PowerLevels.ofContent content = .ok l) :
      Prior i room b l [x]

/-! ## What entry leaves alone -/

abbrev SparesLevels (x : Act α) : Prop :=
  Fixes (·.store.powerLevels) x

theorem sparesLevels_recordClaim (i : Intent) (r : Except Failure Unit) :
    SparesLevels (recordClaim i r) := by
  have hcounted (c : Counter) (name text : String) (level : Int) :
      SparesLevels (count c 1 >>= fun _ => note name level text) := fun _ => rfl
  rcases r with e | _
  · cases e with
    | request q =>
      simp only [recordClaim]
      split
      · exact hcounted _ _ _ _
      · exact fixes_throw _
    | _ => exact fixes_throw _
  · exact hcounted _ _ _ _

theorem sparesLevels_markRegistered (user : String) :
    SparesLevels (markRegistered (.text user)) := by
  intro b
  dsimp only
  rw [(untouched_markRegistered user b).store, Store.register]
  split <;> rfl

theorem sparesLevels_recordJoin (i : Intent) (joined : Value) :
    SparesLevels (recordJoin i joined) := by
  refine Fixes.bind (fun b => ?_) fun _ b => rfl
  obtain ⟨m, hm⟩ := Store.setMembership_members joined (.text i.userId) (.text Membership.join)
    b.store
  rw [outcome_onStore, hm]

theorem sparesLevels_recordRegistered (i : Intent) (r : Except Failure Value) :
    SparesLevels (recordRegistered i r) :=
  Fixes.bind (sparesLevels_recordClaim i _) fun _ => sparesLevels_markRegistered i.userId

theorem Follows.sparesLevels {next : Except Failure Value → Act α} (h : Follows b x next b')
    (hnext : ∀ r, SparesLevels (next r)) : b'.store.powerLevels = b.store.powerLevels := by
  obtain ⟨c, hheard, rfl⟩ := h
  exact (hnext x.content c).trans (congrArg Store.powerLevels hheard.store)

section Entry

variable {room : Value} {ignoreCache : Bool} {inviter : Option ClientId}

theorem Turn.sparesLevels (h : Turn i (.ensureJoined room ignoreCache inviter) b x b') :
    b'.store.powerLevels = b.store.powerLevels := by
  rcases h.entering with ⟨-, h⟩ | ⟨-, h⟩ | ⟨helper, -, h⟩
  · exact h.sparesLevels (sparesLevels_recordRegistered i)
  · exact h.sparesLevels fun r => Fixes.bind (fixes_ofResult _) (sparesLevels_recordJoin i)
  · rw [h.store]
    rfl

theorem Path.sparesLevels {xs : List Exchange}
    (h : Path i (.ensureJoined room ignoreCache inviter) b xs b') :
    b'.store.powerLevels = b.store.powerLevels := by
  induction h with
  | still h => rw [h.store]
  | turn hidle hturn _ ih => rw [ih, hturn.sparesLevels, hidle.store]

/-- To enter a room takes requests for entry, and leaves the power levels that are kept alone. -/
theorem ensureJoined_sparesLevels (i : Intent) (room : Value) (b : Bridge) :
    ∃ entry, ((ensureJoined i room false none).outcome b).2.traffic = b.traffic ++ entry ∧
      (∀ y ∈ entry, y.IsEntry) ∧ SameService b ((ensureJoined i room false none).outcome b).2 ∧
      ((ensureJoined i room false none).outcome b).2.store.powerLevels = b.store.powerLevels := by
  have hwalk : Walk i (.ensureJoined room false none) b
      ((ensureJoined i room false none).outcome b) := walk_ensureJoined rfl
  obtain ⟨entry, hpath, -⟩ := hwalk
  exact ⟨entry, hpath.traffic, hpath.isEntry, hpath.sameService, hpath.sparesLevels⟩

end Entry

/-! ## Learning the levels -/

section Learning

variable {room : String}

/-- Levels that are set are kept. -/
theorem outcome_keepLevels (room : String) (l : PowerLevels) (b : Bridge) :
    (onStore (Store.setPowerLevels (.text room) l.draft.toValue)).outcome b =
      (.ok (), { b with store := { b.store with
        powerLevels := Table.put (.text room) (.levels l) b.store.powerLevels } }) := by
  rw [outcome_onStore, Store.setPowerLevels, PowerLevels.ofValue_draft]
  rfl

/-- What came of asking for the levels of a room: they are known, or the failure is a local one or
the refusal of the request that reads them. -/
inductive Learned (i : Intent) (room : String) (b : Bridge) :
    Except Failure PowerRecord × Bridge → Prop
  | known (l : PowerLevels) (reads : List Exchange) (c : Bridge) (hprior : Prior i room b l reads)
      (htraffic : c.traffic = b.traffic ++ reads) (hsame : SameService b c)
      (hkept : c.keptLevels room = some (.levels l)) : Learned i room b (.ok (.levels l), c)
  | raw (content : Value) : Learned i room b (.ok (.raw content), b)
  | failed (e : Failure) (reads : List Exchange) (c : Bridge) (he : ¬ e.FromHomeserver)
      (hreads : ∀ x ∈ reads, ReadsLevels i room b x) (htraffic : c.traffic = b.traffic ++ reads) :
      Learned i room b (.error e, c)
  | refused (x : Exchange) (q : RequestError) (c : Bridge) (hnone : b.keptLevels room = none)
      (hx : ReadsLevels i room b x) (hrefused : x.RefusedWith q)
      (htraffic : c.traffic = b.traffic ++ [x]) (hstore : c.store = b.store) :
      Learned i room b (.error (.request q), c)

theorem outcome_powerLevels (i : Intent) (room : String) (b : Bridge) :
    (powerLevels i (.text room)).outcome b =
      match b.keptLevels room with
      | some record => (.ok record, b)
      | none => (readState i.client (.text room) (.text EventType.powerLevels) (.text "") >>=
          recordLevels (.text room)).outcome b := by
  rw [powerLevels, Attempt.outcome_bind, outcome_ask, Store.powerRecord?_eq]
  change Attempt.follow _ (.ok (b.keptLevels room), b) = _
  rw [Attempt.follow_ok]
  cases b.keptLevels room <;> rfl

theorem learned_powerLevels (i : Intent) (room : String) (b : Bridge) :
    Learned i room b ((powerLevels i (.text room)).outcome b) := by
  rw [outcome_powerLevels]
  cases hkept : b.keptLevels room with
  | some record =>
    cases record with
    | levels l => exact .known l [] b (.kept hkept) (List.append_nil _).symm (.refl b) hkept
    | raw content => exact .raw content
  | none =>
    dsimp only
    rw [Attempt.outcome_bind]
    rcases asks_readState b i.client (.text room) (.text EventType.powerLevels) (.text "") with
      ⟨e, c, hout, he, hc⟩ | ⟨x, c, hout, hx, hheard⟩
    · rw [hout]
      exact .failed e [] c he (List.forall_mem_nil _) (hc.traffic.trans (List.append_nil _).symm)
    · have hreads : ∀ y ∈ [x], ReadsLevels i room b y := by
        intro y hy
        cases List.mem_singleton.mp hy
        exact hx
      have hread : x.content >>= Except.ok = x.content := bind_pure x.content
      rw [hout, hread]
      cases hcontent : x.content with
      | error e =>
        rw [Attempt.follow_error]
        by_cases he : e.FromHomeserver
        · obtain ⟨q, rfl⟩ := Answer.request_of_content hcontent he
          exact .refused x q c hkept hx hcontent hheard.traffic hheard.store
        · exact .failed e [x] c he hreads hheard.traffic
      | ok content =>
        rw [Attempt.follow_ok, recordLevels, Attempt.outcome_bind, Attempt.outcome_ofResult]
        cases hl : PowerLevels.ofContent content with
        | error e =>
          exact .failed e [x] c (PowerLevels.staysLocal_ofContent content e hl) hreads
            hheard.traffic
        | ok l =>
          rw [Attempt.follow_ok, Attempt.outcome_bind, outcome_keepLevels]
          exact .known l [x] _ (.read x content hkept hx hheard.answer hcontent hl) hheard.traffic
            ⟨hheard.now, hheard.settings, hheard.registryPath, hheard.intents, hheard.clientOf,
              hheard.senders⟩ (Table.get?_put_self _ _ _)

end Learning

/-! ## Writing the levels -/

/-- What came of setting the levels of a room: they were written and are kept, or nothing is kept in
place of the old ones unless the failure is a local one. In any case at most one request followed
those for entry. -/
inductive Written (i : Intent) (room : String) (l : PowerLevels) (b : Bridge) :
    Except Failure Value × Bridge → Prop
  | kept (id : Value) (entry : List Exchange) (x : Exchange) (c : Bridge)
      (hentry : ∀ y ∈ entry, y.IsEntry) (hx : WritesLevels i room l b x) (haccepted : x.Accepted)
      (htraffic : c.traffic = b.traffic ++ (entry ++ [x]))
      (hkept : c.keptLevels room = some (.levels l)) : Written i room l b (.ok id, c)
  | failed (e : Failure) (entry own : List Exchange) (c : Bridge) (hentry : ∀ y ∈ entry, y.IsEntry)
      (hown : ∀ x ∈ own, own = [x] ∧ WritesLevels i room l b x)
      (htraffic : c.traffic = b.traffic ++ (entry ++ own))
      (hkept : e.FromHomeserver → c.store.powerLevels = b.store.powerLevels) :
      Written i room l b (.error e, c)

theorem SameService.writesLevels {room : String} {l : PowerLevels} (h : SameService b b') :
    WritesLevels i room l b' x ↔ WritesLevels i room l b x := by
  simp only [WritesLevels, Exchange.WritesState, h.isFrom]

def writeLevels (i : Intent) (room : String) (l : PowerLevels) : Act Value := do
  let id ← writeState i.client (.text room) (.text EventType.powerLevels) (.text "")
    l.draft.toValue .null
  recordState i (.text room) (.text EventType.powerLevels) (.text "") l.draft.toValue id
  onStore (Store.setPowerLevels (.text room) l.draft.toValue)
  return id

theorem setPowerLevels_eq (i : Intent) (room : String) (l : PowerLevels) :
    setPowerLevels i (.text room) l.draft.toValue = (do
      ensureJoined i (.text room) false none
      writeLevels i room l) := by
  simp only [setPowerLevels, sendStateEvent, writeLevels, bind_assoc, pure_bind]

/-- What comes of the requests for entry does not matter for what is written after them. -/
theorem Written.after {room : String} {l : PowerLevels} {entry : List Exchange} {c : Bridge}
    {out : Except Failure Value × Bridge} (htraffic : c.traffic = b.traffic ++ entry)
    (hentry : ∀ y ∈ entry, y.IsEntry) (hsame : SameService b c)
    (hlevels : c.store.powerLevels = b.store.powerLevels) (h : Written i room l c out) :
    Written i room l b out := by
  have hall (more : List Exchange) (hmore : ∀ y ∈ more, y.IsEntry) :
      ∀ y ∈ entry ++ more, y.IsEntry := by
    intro y hy
    rcases List.mem_append.mp hy with hy | hy
    · exact hentry y hy
    · exact hmore y hy
  cases h with
  | kept id more x d hmore hx haccepted hsent hkept =>
    refine .kept id (entry ++ more) x d (hall more hmore) (hsame.writesLevels.mp hx) haccepted ?_
      hkept
    rw [hsent, htraffic]
    simp only [List.append_assoc]
  | failed e more own d hmore hown hsent hkept =>
    refine .failed e (entry ++ more) own d (hall more hmore)
      (fun x hx => ⟨(hown x hx).1, hsame.writesLevels.mp (hown x hx).2⟩) ?_
      fun he => (hkept he).trans hlevels
    rw [hsent, htraffic]
    simp only [List.append_assoc]

theorem written_writeLevels (i : Intent) (room : String) (l : PowerLevels) (b : Bridge) :
    Written i room l b ((writeLevels i room l).outcome b) := by
  rw [writeLevels, Attempt.outcome_bind]
  rcases asks_writeState b i.client (.text room) (.text EventType.powerLevels) (.text "")
    l.draft.toValue .null with ⟨e, c, hout, he, hc⟩ | ⟨x, c, hout, hx, hheard⟩
  · rw [hout]
    exact .failed e [] [] c (List.forall_mem_nil _) (List.forall_mem_nil _)
      (hc.traffic.trans (List.append_nil _).symm) fun h => absurd h he
  have hown : ∀ y ∈ [x], [x] = [y] ∧ WritesLevels i room l b y := by
    intro y hy
    cases List.mem_singleton.mp hy
    exact ⟨rfl, hx⟩
  rw [hout]
  cases hid : x.content >>= eventId with
  | error e =>
    exact .failed e [] [x] c (List.forall_mem_nil _) hown hheard.traffic
      fun _ => by rw [hheard.store]
  | ok id =>
    obtain ⟨data, hdata, -⟩ := bind_eq_ok hid
    rw [Attempt.follow_ok, Attempt.outcome_bind]
    have hquiet := keeps_recordState frame_silent i (.text room) (.text EventType.powerLevels)
      (.text "") l.draft.toValue id c
    have hlocal := staysLocal_recordState i (.text room) (.text EventType.powerLevels)
      (.text "") l.draft.toValue id c
    generalize (recordState i (.text room) (.text EventType.powerLevels) (.text "")
      l.draft.toValue id).outcome c = recorded at hquiet hlocal ⊢
    obtain ⟨e | _, d⟩ := recorded
    · exact .failed e [] [x] d (List.forall_mem_nil _) hown (hquiet.traffic.trans hheard.traffic)
        fun h => absurd h (hlocal e rfl)
    · rw [Attempt.follow_ok, Attempt.outcome_bind, outcome_keepLevels]
      exact .kept id [] x _ (List.forall_mem_nil _) hx ⟨data, hdata⟩
        (hquiet.traffic.trans hheard.traffic) (Table.get?_put_self _ _ _)

theorem written_setPowerLevels (i : Intent) (room : String) (l : PowerLevels) (b : Bridge) :
    Written i room l b ((setPowerLevels i (.text room) l.draft.toValue).outcome b) := by
  obtain ⟨entry, htraffic, hentry, hsame, hlevels⟩ := ensureJoined_sparesLevels i (.text room) b
  rw [setPowerLevels_eq, Attempt.outcome_bind]
  generalize (ensureJoined i (.text room) false none).outcome b = gate at htraffic hsame hlevels ⊢
  obtain ⟨e | _, c⟩ := gate
  · exact .failed e entry [] c hentry (List.forall_mem_nil _)
      (by rw [List.append_nil]; exact htraffic) fun _ => hlevels
  · exact (written_writeLevels i room l c).after htraffic hentry hsame hlevels

/-! ## Changing one level -/

section Change

variable {room user : String} {level : Int}

/-- What came of giving a user a level: there was nothing to do, or the levels were written with the
edit in them, or not, or they could not be learned. -/
inductive Changed (i : Intent) (room user : String) (level : Int) (b : Bridge) :
    Except Failure (Option Value) × Bridge → Prop
  | idle (l : PowerLevels) (reads : List Exchange) (c : Bridge) (hprior : Prior i room b l reads)
      (htraffic : c.traffic = b.traffic ++ reads) (hkept : c.keptLevels room = some (.levels l))
      (hlevel : l.userLevel user = level) : Changed i room user level b (.ok none, c)
  | written (l : PowerLevels) (reads entry : List Exchange) (x : Exchange) (id : Value) (c : Bridge)
      (hprior : Prior i room b l reads) (hentry : ∀ y ∈ entry, y.IsEntry)
      (hx : WritesLevels i room (l.grant user level) b x) (haccepted : x.Accepted)
      (htraffic : c.traffic = b.traffic ++ reads ++ entry ++ [x])
      (hkept : c.keptLevels room = some (.levels (l.grant user level))) :
      Changed i room user level b (.ok (some id), c)
  | unwritten (l : PowerLevels) (reads entry own : List Exchange) (e : Failure) (c : Bridge)
      (hprior : Prior i room b l reads) (hentry : ∀ y ∈ entry, y.IsEntry)
      (hown : ∀ x ∈ own, own = [x] ∧ WritesLevels i room (l.grant user level) b x)
      (htraffic : c.traffic = b.traffic ++ reads ++ entry ++ own)
      (hkept : e.FromHomeserver → c.keptLevels room = some (.levels l)) :
      Changed i room user level b (.error e, c)
  | failed (e : Failure) (reads : List Exchange) (c : Bridge) (he : ¬ e.FromHomeserver)
      (hreads : ∀ x ∈ reads, ReadsLevels i room b x) (htraffic : c.traffic = b.traffic ++ reads) :
      Changed i room user level b (.error e, c)
  | unread (x : Exchange) (q : RequestError) (c : Bridge) (hnone : b.keptLevels room = none)
      (hx : ReadsLevels i room b x) (hrefused : x.RefusedWith q)
      (htraffic : c.traffic = b.traffic ++ [x]) (hstore : c.store = b.store) :
      Changed i room user level b (.error (.request q), c)

/-- Once the levels are known, the level of the user decides whether they are set. -/
theorem outcome_setPowerLevel {l : PowerLevels} {c : Bridge}
    (hout : (powerLevels i (.text room)).outcome b = (.ok (.levels l), c)) :
    (setPowerLevel i (.text room) (.text user) (.int level)).outcome b =
      if l.userLevel user = level then
        (.ok none, { c with tally := c.tally.add .powerLevelNoops 1 })
      else
        (some <$> setPowerLevels i (.text room) (l.grant user level).draft.toValue).outcome c := by
  rw [setPowerLevel, Attempt.outcome_bind, hout, Attempt.follow_ok, PowerRecord.draft,
    Attempt.outcome_bind, Attempt.outcome_ofResult, Attempt.follow_ok, PowerLevels.userLevel_draft,
    Attempt.outcome_bind, Attempt.outcome_ofResult, Attempt.follow_ok]
  by_cases hlevel : l.userLevel user = level
  · rw [if_pos hlevel, if_pos ((Value.int_same_iff _ _).mpr hlevel)]
    rfl
  · rw [if_neg hlevel, if_neg fun h => hlevel ((Value.int_same_iff _ _).mp h),
      PowerLevels.setUserLevel_draft, Attempt.outcome_bind, Attempt.outcome_ofResult,
      Attempt.follow_ok]
    rfl

theorem changed_setPowerLevel (i : Intent) (room user : String) (level : Int) (b : Bridge) :
    Changed i room user level b
      ((setPowerLevel i (.text room) (.text user) (.int level)).outcome b) := by
  have hlearned := learned_powerLevels i room b
  rcases hout : (powerLevels i (.text room)).outcome b with ⟨r, c⟩
  rw [hout] at hlearned
  cases hlearned with
  | known l reads c hprior htraffic hsame hkept =>
    rw [outcome_setPowerLevel hout]
    by_cases hlevel : l.userLevel user = level
    · rw [if_pos hlevel]
      exact .idle l reads _ hprior htraffic hkept hlevel
    · rw [if_neg hlevel, Attempt.outcome_map]
      have hwritten := written_setPowerLevels i room (l.grant user level) c
      generalize (setPowerLevels i (.text room) (l.grant user level).draft.toValue).outcome c = out
        at hwritten ⊢
      cases hwritten with
      | kept id entry x d hentry hx haccepted hsent hkept' =>
        exact .written l reads entry x id d hprior hentry (hsame.writesLevels.mp hx) haccepted
          (by rw [hsent, htraffic, List.append_assoc _ entry]) hkept'
      | failed e entry own d hentry hown hsent hspared =>
        refine .unwritten l reads entry own e d hprior hentry
          (fun x hx => ⟨(hown x hx).1, hsame.writesLevels.mp (hown x hx).2⟩)
          (by rw [hsent, htraffic, List.append_assoc _ entry]) fun he => ?_
        rw [keptLevels, hspared he]
        exact hkept
  | raw content =>
    rw [setPowerLevel, Attempt.outcome_bind, hout]
    exact .failed .noAttribute [] b (by simp) (List.forall_mem_nil _) (List.append_nil _).symm
  | failed e reads c he hreads htraffic =>
    rw [setPowerLevel, Attempt.outcome_bind, hout]
    exact .failed e reads c he hreads htraffic
  | refused x q c hnone hx hrefused htraffic hstore =>
    rw [setPowerLevel, Attempt.outcome_bind, hout]
    exact .unread x q c hnone hx hrefused htraffic hstore

/-- A user who is known to have the level needs no request. -/
theorem outcome_setPowerLevel_kept {l : PowerLevels} (hkept : b.keptLevels room = some (.levels l))
    (hlevel : l.userLevel user = level) :
    (setPowerLevel i (.text room) (.text user) (.int level)).outcome b =
      (.ok none, { b with tally := b.tally.add .powerLevelNoops 1 }) := by
  have hout : (powerLevels i (.text room)).outcome b = (.ok (.levels l), b) := by
    rw [outcome_powerLevels, hkept]
  rw [outcome_setPowerLevel hout, if_pos hlevel]

theorem WritesLevels.body {l : PowerLevels} (h : WritesLevels i room l b x) :
    x.request.body = l.content := by
  obtain ⟨_, _, _, _, body, -, -, -, -, hbody, hx⟩ := h
  rw [hx.body_eq]
  exact Except.ok.inj (hbody.symm.trans (PowerLevels.ofRecord_draft l))

/-- Levels that are kept are the ones that a change starts from. -/
theorem Prior.eq_of_kept {l l' : PowerLevels} {reads : List Exchange}
    (h : Prior i room b l' reads) (hkept : b.keptLevels room = some (.levels l)) : l' = l := by
  cases h with
  | kept h => exact PowerRecord.levels.inj (Option.some.inj (h.symm.trans hkept))
  | read x content hnone => cases hnone.symm.trans hkept

/-- Giving a user a level, from any store and with any answers. Nothing to do means that the user
had the level, and then the levels were read at most. A result means one write of the levels, in
which only that user has another one, and they are kept as they were written: the same call has
nothing to do. After a refusal the levels are kept as they were before the edit, if they could be
read. -/
theorem power_level_change (i : Intent) (room user : String) (level : Int) (b : Bridge) :
    let change := setPowerLevel i (.text room) (.text user) (.int level)
    (∀ b', change.outcome b = (.ok none, b') →
      ∃ l reads, Prior i room b l reads ∧ b'.traffic = b.traffic ++ reads ∧
        b'.keptLevels room = some (.levels l) ∧ l.userLevel user = level) ∧
    (∀ id b', change.outcome b = (.ok (some id), b') →
      ∃ l reads entry x l', Prior i room b l reads ∧
        b'.traffic = b.traffic ++ reads ++ entry ++ [x] ∧ (∀ y ∈ entry, y.IsEntry) ∧
        WritesLevels i room l' b x ∧ x.Accepted ∧ x.request.body = l'.content ∧
        l.DiffersAt user l' ∧ l'.userLevel user = level ∧
        b'.keptLevels room = some (.levels l') ∧
        ∃ b'', change.outcome b' = (.ok none, b'') ∧ b''.traffic = b'.traffic ∧
          b''.store = b'.store) ∧
    (∀ e b', change.outcome b = (.error e, b') → e.FromHomeserver →
      (∃ l reads, Prior i room b l reads ∧ b'.keptLevels room = some (.levels l)) ∨
      (b.keptLevels room = none ∧ b'.keptLevels room = none ∧
        ∃ x q, b'.traffic = b.traffic ++ [x] ∧ ReadsLevels i room b x ∧ x.RefusedWith q ∧
          e = .request q)) ∧
    ∀ l, b.keptLevels room = some (.levels l) →
      ((∃ b', change.outcome b = (.ok none, b')) ↔ l.userLevel user = level) := by
  intro change
  have hchanged := changed_setPowerLevel i room user level b
  refine ⟨fun b' hout => ?_, fun id b' hout => ?_, fun e b' hout he => ?_, fun l hkept => ?_⟩
  · rw [hout] at hchanged
    cases hchanged with
    | idle l reads _ hprior htraffic hkept hlevel =>
      exact ⟨l, reads, hprior, htraffic, hkept, hlevel⟩
  · rw [hout] at hchanged
    cases hchanged with
    | written l reads entry x _ _ hprior hentry hx haccepted htraffic hkept =>
      have hown := PowerLevels.userLevel_grant user level l
      exact ⟨l, reads, entry, x, l.grant user level, hprior, htraffic, hentry, hx, haccepted,
        hx.body, PowerLevels.differsAt_grant user level l, hown, hkept, _,
        outcome_setPowerLevel_kept hkept hown, rfl, rfl⟩
  · rw [hout] at hchanged
    cases hchanged with
    | unwritten l reads _ _ _ _ hprior _ _ _ hkept => exact .inl ⟨l, reads, hprior, hkept he⟩
    | failed _ _ _ hlocal => exact absurd he hlocal
    | unread x q _ hnone hx hrefused htraffic hstore =>
      refine .inr ⟨hnone, ?_, x, q, htraffic, hx, hrefused, rfl⟩
      rw [keptLevels, hstore]
      exact hnone
  · refine ⟨fun ⟨b', hout⟩ => ?_, fun hlevel => ⟨_, outcome_setPowerLevel_kept hkept hlevel⟩⟩
    rw [hout] at hchanged
    cases hchanged with
    | idle l' reads _ hprior _ _ hlevel => rwa [hprior.eq_of_kept hkept] at hlevel

/-- What the homeserver has of the room: a level of Alice, one for bans, and notifications. -/
def Example.roomLevels : List (Value × Value) :=
  [(.text "users", .record [("@alice:hs", .int 100)]), (.text "ban", .int 60),
    (.text "notifications", .record [("room", .int 50)])]

def Example.unread : Bridge :=
  { Example.inside with
    answers := [.reply 200 (some (.map roomLevels)),
      .reply 200 (some (.record [("event_id", .text "$1")]))] }

/-- A level that is new is written, the level that Bob has is not, and one that is forbidden is not
kept. -/
theorem power_level_change_cases :
    let change (level : Int) :=
      setPowerLevel Example.alice (.text "!r:hs") (.text "@bob:hs") (.int level)
    (∃ b' l, (change 0).outcome Example.unread = (.ok none, b') ∧ l.userLevel "@bob:hs" = 0 ∧
      b'.keptLevels "!r:hs" = some (.levels l)) ∧
    (∃ id b' x, ∃ l : PowerLevels, (change 50).outcome Example.unread = (.ok (some id), b') ∧
      b'.traffic.getLast? = some x ∧ x.request.body = l.content ∧ l.userLevel "@bob:hs" = 50 ∧
      ∃ b'', (change 50).outcome b' = (.ok none, b'') ∧ b''.traffic = b'.traffic) ∧
    ∃ e b' l reads, (change 50).outcome Example.forbidden = (.error e, b') ∧
      Prior Example.alice "!r:hs" Example.forbidden l reads ∧
      b'.keptLevels "!r:hs" = some (.levels l) := by
  intro change
  refine ⟨?_, ?_, ?_⟩
  · have hnone : ((change 0).outcome Example.unread).1.toOption.any Option.isNone := by
      decide +kernel
    rcases hout : (change 0).outcome Example.unread with ⟨e | _ | id, b'⟩
    case error | ok.some =>
      rw [hout] at hnone
      cases hnone
    case ok.none =>
      obtain ⟨l, reads, -, -, hkept, hlevel⟩ :=
        (power_level_change Example.alice "!r:hs" "@bob:hs" 0 Example.unread).1 b' hout
      exact ⟨b', l, rfl, hlevel, hkept⟩
  · have hsome : ((change 50).outcome Example.unread).1.toOption.join.isSome := by decide +kernel
    rcases hout : (change 50).outcome Example.unread with ⟨e | _ | id, b'⟩
    case error | ok.none =>
      rw [hout] at hsome
      cases hsome
    case ok.some =>
      obtain ⟨_, reads, entry, x, l, -, htraffic, -, -, -, hbody, -, hlevel, -, b'', hagain, hsame,
        -⟩ := (power_level_change Example.alice "!r:hs" "@bob:hs" 50 Example.unread).2.1 id b' hout
      exact ⟨id, b', x, l, rfl, by rw [htraffic, List.getLast?_concat], hbody, hlevel, b'', hagain,
        hsame⟩
  · have hfails : ∃ e, ((change 50).outcome Example.forbidden).1 = .error e ∧ e.FromHomeserver := by
      decide +kernel
    obtain ⟨e, he, hfrom⟩ := hfails
    have hout : (change 50).outcome Example.forbidden =
        (.error e, ((change 50).outcome Example.forbidden).2) := Prod.ext he rfl
    rcases (power_level_change Example.alice "!r:hs" "@bob:hs" 50 Example.forbidden).2.2.1 e _ hout
      hfrom with ⟨l, reads, hprior, hkept⟩ | ⟨hnone, -⟩
    · exact ⟨e, _, l, reads, hout, hprior, hkept⟩
    · cases hnone

/-! ## What is written of what was read -/

theorem not_writes_of_isEntry (h : x.IsEntry) {r t k : Segment} :
    x.request.endpoint ≠ .writeState r t k := by
  intro hendpoint
  rw [Exchange.IsEntry, hendpoint] at h
  exact h

theorem ReadsLevels.not_writes (h : ReadsLevels i room b x) {r t k : Segment} :
    x.request.endpoint ≠ .writeState r t k := by
  obtain ⟨_, _, _, hread⟩ := h.endpoint
  rw [hread]
  nofun

theorem Prior.reads {l : PowerLevels} {reads : List Exchange} (h : Prior i room b l reads) :
    ∀ y ∈ reads, ReadsLevels i room b y := by
  cases h with
  | kept => exact List.forall_mem_nil _
  | read x content hnone hx =>
    intro y hy
    cases List.mem_singleton.mp hy
    exact hx

/-- The only state that a change writes is the levels with the edit in them. -/
theorem Changed.writes {r : Except Failure (Option Value)} (h : Changed i room user level b (r, b'))
    {made : List Exchange} (hmade : b'.traffic = b.traffic ++ made) (hx : x ∈ made)
    {s t k : Segment} (hwrites : x.request.endpoint = .writeState s t k) :
    ∃ l reads, Prior i room b l reads ∧ WritesLevels i room (l.grant user level) b x := by
  have hsame {new : List Exchange} (h : b'.traffic = b.traffic ++ new) : x ∈ new :=
    List.append_cancel_left (hmade.symm.trans h) ▸ hx
  have hread {reads : List Exchange} (hreads : ∀ y ∈ reads, ReadsLevels i room b y)
      (h : x ∈ reads) : False := (hreads x h).not_writes hwrites
  have hcases {l : PowerLevels} {reads entry own : List Exchange} (hprior : Prior i room b l reads)
      (hentry : ∀ y ∈ entry, y.IsEntry) (h : b'.traffic = b.traffic ++ reads ++ entry ++ own) :
      x ∈ own := by
    rw [List.append_assoc, List.append_assoc] at h
    rcases List.mem_append.mp (hsame h) with h | h
    · exact (hread hprior.reads h).elim
    · rcases List.mem_append.mp h with h | h
      · exact absurd hwrites (not_writes_of_isEntry (hentry x h))
      · exact h
  cases h with
  | idle l reads _ hprior htraffic => exact (hread hprior.reads (hsame htraffic)).elim
  | written l reads entry y id _ hprior hentry hy _ htraffic =>
    cases List.mem_singleton.mp (hcases hprior hentry htraffic)
    exact ⟨l, reads, hprior, hy⟩
  | unwritten l reads entry own e _ hprior hentry hown htraffic =>
    exact ⟨l, reads, hprior, (hown x (hcases hprior hentry htraffic)).2⟩
  | failed e reads _ _ hreads htraffic => exact (hread hreads (hsame htraffic)).elim
  | unread y q _ _ hy _ htraffic =>
    cases List.mem_singleton.mp (hsame htraffic)
    exact absurd hwrites hy.not_writes

theorem Prior.of_answer {l : PowerLevels} {reads : List Exchange} (h : Prior i room b l reads)
    (hnone : b.keptLevels room = none) {status : Int} {content : List (Value × Value)}
    (hstatus : status < 400)
    (hanswer : b.answers.head? = some (.reply status (some (.map content)))) :
    PowerLevels.ofContent (.map content) = .ok l := by
  cases h with
  | kept h => cases hnone.symm.trans h
  | read y content' _ _ hy hcontent hl =>
    rw [Exchange.content, hy, hanswer] at hcontent
    cases (Answer.content_map hstatus y.request.endpoint content).symm.trans hcontent
    exact hl

/-- Where the levels were read to give a user a level, what is written gives them again but for
that user, with the defaults of the keys that were not there. Keys that are none of a power level
record are not written. -/
theorem levels_written_as_read {status : Int} {content : List (Value × Value)}
    {r : Except Failure (Option Value)} {made : List Exchange} {s t k : Segment}
    (hnone : b.keptLevels room = none) (hstatus : status < 400)
    (hanswer : b.answers.head? = some (.reply status (some (.map content))))
    (hcontent : PowerLevels.WellFormed content)
    (hout : (setPowerLevel i (.text room) (.text user) (.int level)).outcome b = (r, b'))
    (hmade : b'.traffic = b.traffic ++ made) (hx : x ∈ made)
    (hwrites : x.request.endpoint = .writeState s t k) :
    PowerLevels.GivesAgain user content x.request.body := by
  have hchanged := changed_setPowerLevel i room user level b
  rw [hout] at hchanged
  obtain ⟨l, reads, hprior, hbody⟩ := hchanged.writes hmade hx hwrites
  rw [hbody.body]
  exact hcontent.givesAgain (hprior.of_answer hnone hstatus hanswer)
    (PowerLevels.differsAt_grant user level l)

end Change

theorem Example.wellFormed_roomLevels : PowerLevels.WellFormed roomLevels where
  maps key hkey v hv := by
    simp only [List.mem_cons, List.not_mem_nil, or_false] at hkey
    rcases hkey with rfl | rfl
    · cases hv
      exact ⟨[("@alice:hs", 100)], rfl⟩
    · cases hv
  numbers key hkey hnumber v hv := by
    simp only [PowerLevels.keys, PowerLevels.defaults, List.map_cons, List.map_nil, List.mem_cons,
      List.not_mem_nil, or_false] at hkey
    rcases hkey with rfl | rfl | rfl | rfl | rfl | rfl | rfl | rfl | rfl
    · exact absurd List.mem_cons_self hnumber
    · cases hv
    · exact absurd (List.mem_cons_of_mem _ List.mem_cons_self) hnumber
    · cases hv
    · cases hv
    · cases hv
      exact ⟨60, rfl⟩
    all_goals cases hv

theorem Example.writes_unread :
    ∃ x ∈ ((setPowerLevel Example.alice (.text "!r:hs") (.text "@bob:hs") (.int 50)).outcome
        Example.unread).2.traffic,
      x.request.endpoint =
        .writeState (Text.utf8 "!r:hs") (Text.utf8 EventType.powerLevels) [] := by
  decide +kernel

theorem levels_written_as_read_notifications :
    let change := setPowerLevel Example.alice (.text "!r:hs") (.text "@bob:hs") (.int 50)
    ∃ x ∈ (change.outcome Example.unread).2.traffic,
      PowerLevels.GivesAgain "@bob:hs" Example.roomLevels x.request.body := by
  intro change
  obtain ⟨x, hx, hwrites⟩ := Example.writes_unread
  have hnone : Example.unread.keptLevels "!r:hs" = none := rfl
  have hanswer :
      Example.unread.answers.head? = some (.reply 200 (some (.map Example.roomLevels))) := rfl
  have hout : change.outcome Example.unread =
      ((change.outcome Example.unread).1, (change.outcome Example.unread).2) := rfl
  exact ⟨x, hx, levels_written_as_read hnone (by decide) hanswer Example.wellFormed_roomLevels hout
    (List.nil_append _).symm hx hwrites⟩

/-- The notifications of a room are lost when a user is given a level. -/
theorem notifications_not_written :
    Example.unread.keptLevels "!r:hs" = none ∧
      Example.unread.answers.head? = some (.reply 200 (some (.map Example.roomLevels))) ∧
      PowerLevels.WellFormed Example.roomLevels ∧
      Value.lookup? "notifications" Example.roomLevels = some (.record [("room", .int 50)]) ∧
      ∃ x ∈ ((setPowerLevel Example.alice (.text "!r:hs") (.text "@bob:hs") (.int 50)).outcome
          Example.unread).2.traffic,
        x.request.endpoint =
          .writeState (Text.utf8 "!r:hs") (Text.utf8 EventType.powerLevels) [] ∧
        x.request.body.field? "notifications" = .ok none := by
  refine ⟨rfl, rfl, Example.wellFormed_roomLevels, rfl, ?_⟩
  obtain ⟨x, hx, hwrites⟩ := Example.writes_unread
  have hchanged := changed_setPowerLevel Example.alice "!r:hs" "@bob:hs" 50 Example.unread
  obtain ⟨l, reads, -, hbody⟩ := hchanged.writes (List.nil_append _).symm hx hwrites
  refine ⟨x, hx, hwrites, ?_⟩
  rw [hbody.body]
  exact PowerLevels.field?_content _ (by decide)

end Bridge

end VirtualUsers
