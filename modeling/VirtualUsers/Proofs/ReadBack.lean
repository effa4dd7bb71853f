import VirtualUsers.Proofs.Absorption
import VirtualUsers.Proofs.Copies
import VirtualUsers.Proofs.Gate
/-!
# Reading back what was sent

A state that the homeserver took is kept without being read. What the store holds then is what it
would hold had the state been read, with the body that was sent for an answer.
-/

namespace VirtualUsers

open Cbor (Fits Short depthLimit)

/-! ## Content -/

namespace Content

def optional : Option String → Value
  | some s => .text s
  | none => .null

/-- The keys of levels are distinct. They and the levels have lengths that a payload can give. -/
structure WritableLevels (levels : List (String × Int)) : Prop where
  length : Short levels.length
  distinct : (levels.map (·.1)).Nodup
  keys : ∀ l ∈ levels, Short (Text.utf8 l.1).length
  sizes : ∀ l ∈ levels, Short (Cbor.byteLength (Cbor.magnitude l.2))

/-- The content is a map of JSON, or a record whose fields have the types that they are to have. -/
inductive Writable : Value → Prop
  | map (entries : List (Value × Value)) (h : Fits depthLimit (.map entries)) :
    Writable (.map entries)
  | member (membership : String) (displayname avatarUrl : Option String)
      (h : ∀ s ∈ membership :: (displayname.toList ++ avatarUrl.toList),
        Short (Text.utf8 s).length) :
    Writable (.member (.text membership) (optional displayname) (optional avatarUrl))
  | levels (l : PowerLevels) (husers : WritableLevels l.users) (hevents : WritableLevels l.events)
      (h : ∀ n ∈ [l.usersDefault, l.eventsDefault, l.stateDefault, l.ban, l.kick, l.redact,
        l.invite], Short (Cbor.byteLength (Cbor.magnitude n))) :
    Writable l.draft.toValue

/-- A map whose keys are among given ones. -/
theorem fits_named {depth : Nat} (names : List String) {fields : List (String × Value)}
    (hlength : Short names.length) (hdistinct : names.Nodup)
    (hnames : ∀ name ∈ names, Short (Text.utf8 name).length)
    (hkeys : (fields.map (·.1)).Sublist names) (h : ∀ f ∈ fields, Fits depth f.2) :
    Fits (depth + 1) (.record fields) := by
  refine .map fields ?_ (hkeys.nodup hdistinct) (fun f hf => ?_) h
  · have hle := hkeys.length_le
    rw [List.length_map] at hle
    exact Nat.lt_of_le_of_lt hle hlength
  · exact hnames f.1 (hkeys.subset (List.mem_map_of_mem hf))

def memberTexts (membership : String) (displayname avatarUrl : Option String) :
    List (String × String) :=
  ("membership", membership) :: (displayname.toList.map (("displayname", ·))
    ++ avatarUrl.toList.map (("avatar_url", ·)))

theorem toContent_member (membership : String) (displayname avatarUrl : Option String) :
    Member.toContent ⟨.text membership, optional displayname, optional avatarUrl⟩ =
      .record ((memberTexts membership displayname avatarUrl).map fun (k, s) => (k, .text s)) := by
  cases displayname <;> cases avatarUrl <;> rfl

theorem fits_member {membership : String} {displayname avatarUrl : Option String}
    (h : ∀ s ∈ membership :: (displayname.toList ++ avatarUrl.toList),
      Short (Text.utf8 s).length) :
    Fits depthLimit
      (Member.toContent ⟨.text membership, optional displayname, optional avatarUrl⟩) := by
  rw [toContent_member]
  refine fits_named ["membership", "displayname", "avatar_url"] (by decide) (by decide)
    (by decide) ?_ fun f hf => ?_
  · rw [List.map_map]
    cases displayname <;> cases avatarUrl <;> simp [memberTexts]
  · obtain ⟨⟨key, s⟩, hmem, rfl⟩ := List.mem_map.mp hf
    have hs := List.mem_map_of_mem (f := Prod.snd) hmem
    exact .text s (h s (by simpa [memberTexts] using hs))

theorem fits_levelMap {depth : Nat} {levels : List (String × Int)} (h : WritableLevels levels) :
    Fits (depth + 2) (PowerLevels.levelMap levels) := by
  refine fits_named (levels.map (·.1)) ?_ h.distinct (fun name hname => ?_) ?_
    fun f hf => ?_
  · rw [List.length_map]
    exact h.length
  · obtain ⟨l, hl, rfl⟩ := List.mem_map.mp hname
    exact h.keys l hl
  · rw [List.map_map]
    exact List.Sublist.refl _
  · obtain ⟨l, hl, rfl⟩ := List.mem_map.mp hf
    exact .large l.2 (h.sizes l hl)

theorem toContent_levels (l : PowerLevels) : l.draft.toContent = .ok (.record [
    ("users", PowerLevels.levelMap l.users), ("users_default", .int l.usersDefault),
    ("events", PowerLevels.levelMap l.events), ("events_default", .int l.eventsDefault),
    ("state_default", .int l.stateDefault), ("ban", .int l.ban), ("kick", .int l.kick),
    ("redact", .int l.redact), ("invite", .int l.invite)]) := rfl

/-- What is sent of writable content has a payload from which it is read again. -/
theorem Writable.body {content : Value} (h : Writable content) :
    ∃ entries, ofRecord content = .ok (.map entries) ∧ Fits depthLimit (.map entries) := by
  cases h with
  | map entries h => exact ⟨entries, rfl, h⟩
  | member membership displayname avatarUrl h => exact ⟨_, rfl, fits_member h⟩
  | levels l husers hevents h =>
    refine ⟨_, toContent_levels l, fits_named ["users", "users_default", "events",
      "events_default", "state_default", "ban", "kick", "redact", "invite"] (by decide) (by decide)
      (by decide) (List.Sublist.refl _) fun f hf => ?_⟩
    simp only [List.mem_cons, List.not_mem_nil, or_false, forall_eq_or_imp, forall_eq] at hf h
    obtain ⟨husersDefault, heventsDefault, hstateDefault, hban, hkick, hredact, hinvite⟩ := h
    rcases hf with rfl | rfl | rfl | rfl | rfl | rfl | rfl | rfl | rfl
    · exact fits_levelMap husers
    · exact .large _ husersDefault
    · exact fits_levelMap hevents
    · exact .large _ heventsDefault
    · exact .large _ hstateDefault
    · exact .large _ hban
    · exact .large _ hkick
    · exact .large _ hredact
    · exact .large _ hinvite

theorem clone_fits {content : Value} {entries : List (Value × Value)}
    (hbody : ofRecord content = .ok (.map entries)) (h : Fits depthLimit (.map entries)) :
    clone content = .ok (.map (Value.keptEntries entries)) := by
  have hcopy := Cbor.decode_encode h
  obtain ⟨bytes, hencode, hdecode⟩ := bind_eq_ok hcopy
  rw [clone, hbody]
  change (Cbor.encode (.map entries) >>= fun bytes => Cbor.decode bytes >>= _) = _
  rw [hencode]
  change (Cbor.decode bytes >>= _) = _
  rw [hdecode]
  rfl

end Content

/-! ## What the store makes of a copy -/

namespace Value

theorem lookup?_kept (key : String) (entries : List (Value × Value)) :
    lookup? key (keptEntries entries) = (lookup? key entries).map kept := by
  induction entries with
  | nil => rfl
  | cons e rest ih =>
    obtain ⟨k, v⟩ := e
    rw [keptEntries, keptEntry, lookup?_cons, lookup?_cons, ih]
    split <;> rfl

theorem field_kept (key : String) (entries : List (Value × Value)) :
    (map (keptEntries entries)).field key = ((map entries).field key).map kept := by
  rw [field_map, field_map, lookup?_kept]
  cases lookup? key entries <;> rfl

/-- What is no number counts as the default in any form. -/
theorem toIntOr_kept (default : Int) (v : Value) : v.kept.toIntOr default = v.toIntOr default := by
  cases v with
  | real x =>
    rw [kept_real, Double.kept]
    split
    · next h =>
      have hnan : Double.nan.isNaN = true := by decide
      simp only [toIntOr, toInt, h, hnan, if_true]
    · rfl
  | _ => rfl

end Value

namespace Member

theorem isRecognised_kept (v : Value) : isRecognised v.kept = isRecognised v := by
  cases v <;> rfl

theorem textOrNull_kept (v : Value) : textOrNull v.kept = textOrNull v := by
  cases v <;> rfl

theorem ofContent_kept (entries : List (Value × Value)) :
    ofContent (.map (Value.keptEntries entries)) = ofContent (.map entries) := by
  have hmembership (v : Value) : (if isRecognised v.kept then v.kept else .text Membership.none) =
      if isRecognised v then v else .text Membership.none := by
    rw [isRecognised_kept]
    cases v <;> rfl
  rw [ofContent, ofContent, Value.field_kept, Value.field_kept, Value.field_kept]
  simp only [Value.field_map]
  change Except.ok _ = Except.ok _
  rw [hmembership, textOrNull_kept, textOrNull_kept]

end Member

namespace PowerLevels

theorem levelsOf_kept (default : Int) (entries : List (Value × Value)) :
    levelsOf default (Value.keptEntries entries) = levelsOf default entries := by
  induction entries with
  | nil => rfl
  | cons e rest ih =>
    obtain ⟨k, v⟩ := e
    rw [Value.keptEntries, Value.keptEntry]
    cases k with
    | text k => rw [levelsOf, levelsOf, ih, Value.toIntOr_kept]
    | _ => exact ih

theorem levelsOfValue_kept (default : Int) (v : Value) :
    levelsOfValue default v.kept = levelsOfValue default v := by
  cases v with
  | map entries => exact levelsOf_kept default entries
  | _ => rfl

theorem ofContent_kept (entries : List (Value × Value)) :
    ofContent (.map (Value.keptEntries entries)) = ofContent (.map entries) := by
  have hlevel (key : String) (default : Int) :
      ((Value.map (Value.keptEntries entries)).field key >>= Value.toIntOr default) =
        (Value.map entries).field key >>= Value.toIntOr default := by
    rw [Value.field_kept]
    exact Value.toIntOr_kept default _
  have hlevels (key : String) (default : Int) :
      ((Value.map (Value.keptEntries entries)).field key >>= levelsOfValue default) =
        (Value.map entries).field key >>= levelsOfValue default := by
    rw [Value.field_kept]
    exact levelsOfValue_kept default _
  simp only [ofContent, hlevel, hlevels]

end PowerLevels

def Event.seen (room type key content : Value) : Event where
  room := room
  type := type
  stateKey := key
  content := content

namespace Store

variable {room type key : Value} {entries : List (Value × Value)}

/-- Where no membership is left over, none is left over of a copy. -/
theorem outcome_unmarked (x : Attempt Store Unit) (s : Store) :
    (x >>= fun _ => pure (none : Option Value)).outcome s =
      (((x >>= fun _ => pure (none : Option Value)).outcome s).1.map (·.map Value.kept),
        ((x >>= fun _ => pure (none : Option Value)).outcome s).2) := by
  rw [Attempt.outcome_bind]
  rcases x.outcome s with ⟨_ | _, t⟩ <;> rfl

theorem observeMember_kept (s : Store) :
    (observeMember (.seen room type key (.map (Value.keptEntries entries)))).outcome s =
      (((observeMember (.seen room type key (.map entries))).outcome s).1.map (·.map Value.kept),
        ((observeMember (.seen room type key (.map entries))).outcome s).2) := by
  simp only [observeMember, Event.seen]
  rw [Member.ofContent_kept, Value.field_kept, Value.field_map]
  simp only [Except.map, Attempt.outcome_bind, Attempt.outcome_ofResult, Attempt.follow_ok,
    Member.isRecognised_kept]
  split
  · cases Member.ofContent (.map entries) with
    | error e => rfl
    | ok record => exact outcome_unmarked (setMember room key record) s
  · rfl

theorem observe_seen (content : Value) : observe (.seen room type key content) =
    if key.isNull then pure none
    else if type.same (.text EventType.member) then observeMember (.seen room type key content)
    else if type.same (.text EventType.powerLevels) then
      observeLevels (.seen room type key content) >>= fun _ => pure none
    else pure none := rfl

/-- What a copy of the content leaves in the store is what the content leaves there. -/
theorem observe_kept {r : Except Failure (Option Value)} {s s' : Store}
    (h : (observe (.seen room type key (.map entries))).outcome s = (r, s')) :
    (observe (.seen room type key (.map (Value.keptEntries entries)))).outcome s =
      (r.map (·.map Value.kept), s') := by
  have hsame : (observe (.seen room type key (.map (Value.keptEntries entries)))).outcome s =
      (((observe (.seen room type key (.map entries))).outcome s).1.map (·.map Value.kept),
        ((observe (.seen room type key (.map entries))).outcome s).2) := by
    rw [observe_seen, observe_seen]
    cases key.isNull with
    | true => rfl
    | false =>
      cases type.same (.text EventType.member) with
      | true => exact observeMember_kept s
      | false =>
        cases type.same (.text EventType.powerLevels) with
        | true =>
          simp only [observeLevels, Event.seen, PowerLevels.ofContent_kept]
          exact outcome_unmarked _ s
        | false => rfl
  rw [hsame, h]

end Store

/-! ## Sending and reading -/

theorem Answer.content_map {status : Int} (h : status < 400) (endpoint : Endpoint)
    (entries : List (Value × Value)) :
    (Answer.reply status (some (.map entries))).content endpoint = .ok (.map entries) := by
  simp only [Answer.content, if_neg (Int.not_le.mpr h)]
  rfl

namespace Bridge

variable {i : Intent} {room type key content : Value} {b b₁ : Bridge}

theorem map_ignored (r : Except Failure α) (f : α → β) (c : γ) :
    ((r.map f).map fun _ => c) = r.map fun _ => c := by
  cases r <;> rfl

theorem outcome_absorbOne {e : Event} (h : (observe e).outcome b = (.ok (), b₁)) :
    (absorbEvents [e]).outcome b = (.ok 1, b₁) := by
  have hone : (absorbEvents [e]).outcome b =
      ((observe e >>= fun _ => (pure ⟨⟩ : Act PUnit)) >>= fun _ => pure 1).outcome b := rfl
  rw [hone, Attempt.outcome_bind, Attempt.outcome_bind, h]
  rfl

/-- A user who is known to be in the room needs no entry. -/
theorem outcome_ensureJoined_known (h : KnownIn i room b.store) :
    (ensureJoined i room false none).outcome b =
      (.ok (), { b with tally := b.tally.add .joinCacheHits 1 }) := by
  have hask : (ensureJoined i room false none).outcome b =
      (ask (Store.isJoined room (.text i.userId)) >>= fun known =>
        if known then count .joinCacheHits 1 else enterRoom i room none).outcome b := rfl
  rw [hask, Attempt.outcome_bind, outcome_ask, h]
  rfl

/-- Who sent an event, when and under which id is not kept. -/
theorem observe_sentEvent (now : Int) (room type key sender content id : Value) :
    Store.observe (sentEvent now room type key sender content id) =
      Store.observe (Event.seen room type key content) := rfl

theorem validate_sentEvent {room type : String} (hroom : room ≠ "") (htype : type ≠ "")
    (now : Int) (key : String) (sender id : Value) (entries : List (Value × Value)) :
    (sentEvent now (.text room) (.text type) (.text key) sender (.map entries) id).validate =
      .ok () := by
  simp [sentEvent, Event.validate, Event.isNonEmptyText, hroom, htype, Value.isMap, Value.isText]
  rfl

/-- Content that can be kept is taken in when it was sent as if it had been read. -/
theorem outcome_observeSent {room type : String} {entries : List (Value × Value)}
    {r : Except Failure (Option Value)} {s : Store} (hroom : room ≠ "") (htype : type ≠ "")
    (hbody : Content.ofRecord content = .ok (.map entries)) (h : Fits depthLimit (.map entries))
    (key : String) (sender id : Value)
    (hread : (Store.observe (Event.seen (.text room) (.text type) (.text key)
      (.map entries))).outcome b.store = (r, s)) :
    ∃ c, (observeSent (.text room) (.text type) (.text key) content sender id).outcome b =
      (r.map fun _ => (), c) ∧ c.store = s := by
  let event := sentEvent b.now (.text room) (.text type) (.text key) sender
    (.map (Value.keptEntries entries)) id
  have hvalid : event.validate = .ok () :=
    validate_sentEvent hroom htype b.now key sender id _
  have hout : (observeSent (.text room) (.text type) (.text key) content sender id).outcome b =
      (observe event).outcome b := by
    simp only [observeSent, Content.clone_fits hbody h, Attempt.outcome_bind, Attempt.outcome_get,
      Attempt.follow_ok]
    rw [hvalid]
  have hkept := Store.observe_kept hread
  rw [← observe_sentEvent b.now _ _ _ sender _ id] at hkept
  obtain ⟨c, hobserve, hstore⟩ := outcome_observe hkept
  refine ⟨c, hout.trans (hobserve.trans ?_), hstore⟩
  rw [map_ignored]

/-- The one request of a state that was sent, and the store with the state in it. -/
theorem sendStateEvent_ok {room type key : String} {entries : List (Value × Value)} {id : Value}
    (hroom : room ≠ "") (htype : type ≠ "")
    (hbody : Content.ofRecord content = .ok (.map entries)) (h : Fits depthLimit (.map entries))
    (hjoined : KnownIn i (.text room) b.store)
    (hsent : (sendStateEvent i (.text room) (.text type) (.text key) content .null).outcome b =
      (.ok id, b₁)) :
    ∃ x unknown, b₁.traffic = b.traffic ++ [x] ∧
      x.WritesState (b.clientAt i.client) (.text room) (.text type) (.text key) content .null ∧
      (Store.observe (Event.seen (.text room) (.text type) (.text key) (.map entries))).outcome
        b.store = (.ok unknown, b₁.store) := by
  rw [sendStateEvent, Attempt.outcome_bind, outcome_ensureJoined_known hjoined, Attempt.follow_ok,
    Attempt.outcome_bind] at hsent
  rcases asks_writeState { b with tally := b.tally.add .joinCacheHits 1 } i.client (.text room)
    (.text type) (.text key) content .null with ⟨e, c, hout, -⟩ | ⟨x, c, hout, hx, hheard⟩
  · rw [hout] at hsent
    cases hsent
  · rw [hout] at hsent
    cases hid : x.content >>= eventId with
    | error e =>
      rw [hid] at hsent
      cases hsent
    | ok id' =>
      rw [hid, Attempt.follow_ok, Attempt.outcome_bind, recordState, Attempt.outcome_bind,
        outcome_count, Attempt.follow_ok] at hsent
      have hquiet := keeps_observeSent frame_silent (.text room) (.text type) (.text key) content
        (.text i.userId) id' { c with tally := c.tally.add .stateEventsSent 1 }
      rcases hread : (Store.observe (Event.seen (.text room) (.text type) (.text key)
        (.map entries))).outcome b.store with ⟨r, s⟩
      obtain ⟨d, hobserved, hstore⟩ := outcome_observeSent
        (b := { c with tally := c.tally.add .stateEventsSent 1 }) hroom htype hbody h key
        (.text i.userId) id' (hheard.store ▸ hread)
      rw [hobserved] at hsent hquiet
      cases r with
      | error e => cases hsent
      | ok unknown =>
        cases hsent
        exact ⟨x, unknown, hquiet.traffic.trans hheard.traffic, hx, by rw [hstore]⟩

theorem outcome_readState (c : ClientId) (room type key : String) (b : Bridge) :
    (readState c (.text room) (.text type) (.text key)).outcome b =
      (send c (.readState (Text.utf8 room) (Text.utf8 type) (Text.utf8 key)) .null []
        true).outcome b := by
  simp only [readState, Value.segment, Attempt.outcome_bind, Attempt.outcome_ofResult,
    Attempt.follow_ok]

theorem stateEvent_eq (i : Intent) (room type key : Value) :
    stateEvent i room type key = (do
      ensureJoined i room false none
      let content ← readState i.client room type key
      let _ ← absorbEvents [.seen room type key content]
      return content) := rfl

/-- A state that is read is taken in. -/
theorem stateEvent_ok {room type key : String} {entries : List (Value × Value)} {status : Int}
    {unknown : Option Value} {s : Store} (hjoined : KnownIn i (.text room) b.store)
    (hstatus : status < 400)
    (hanswer : b.answers.head? = some (.reply status (some (.map entries))))
    (hobserve : (Store.observe (Event.seen (.text room) (.text type) (.text key)
      (.map entries))).outcome b.store = (.ok unknown, s)) :
    ∃ c, (stateEvent i (.text room) (.text type) (.text key)).outcome b = (.ok (.map entries), c) ∧
      c.store = s := by
  obtain ⟨x, c, hout, -, hheard⟩ := outcome_send i.client
    (.readState (Text.utf8 room) (Text.utf8 type) (Text.utf8 key)) .null [] true
    { b with tally := b.tally.add .joinCacheHits 1 }
  have hcontent : x.content = .ok (.map entries) := by
    rw [Exchange.content, hheard.answer]
    change ((b.answers.head?).getD .empty).content _ = _
    rw [hanswer]
    exact Answer.content_map hstatus _ entries
  obtain ⟨d, hobserved, hstore⟩ := outcome_observe (b := c) (hheard.store ▸ hobserve)
  refine ⟨d, ?_, hstore⟩
  rw [stateEvent_eq, Attempt.outcome_bind, outcome_ensureJoined_known hjoined, Attempt.follow_ok,
    Attempt.outcome_bind, outcome_readState, hout, hcontent, Attempt.follow_ok,
    Attempt.outcome_bind, outcome_absorbOne hobserved]
  rfl

/-- The store after a state was sent is the store after it is read. -/
theorem sent_as_read {room type key : String} {v : Value} (hroom : room ≠ "") (htype : type ≠ "")
    (hcontent : Content.Writable content) (hjoined : KnownIn i (.text room) b.store)
    (hsent : (perform i (.sendStateEvent (.text room) (.text type) (.text key) content)).outcome b =
      (.ok v, b₁)) :
    ∃ x, b₁.traffic = b.traffic ++ [x] ∧
      x.WritesState (b.clientAt i.client) (.text room) (.text type) (.text key) content .null ∧
      ∀ c status, c.store = b.store → status < 400 →
        c.answers.head? = some (.reply status (some x.request.body)) →
        ∃ c₁, (perform i (.stateEvent (.text room) (.text type) (.text key))).outcome c =
          (.ok x.request.body, c₁) ∧ c₁.store = b₁.store := by
  obtain ⟨entries, hbody, hfits⟩ := hcontent.body
  change (sent <$> sendStateEvent i _ _ _ content .null).outcome b = _ at hsent
  rw [Attempt.outcome_map] at hsent
  rcases hout : (sendStateEvent i (.text room) (.text type) (.text key) content .null).outcome b
    with ⟨e | id, d⟩
  · rw [hout] at hsent
    cases hsent
  · rw [hout] at hsent
    obtain ⟨-, rfl⟩ := Prod.mk.inj hsent
    obtain ⟨x, unknown, htraffic, hx, hobserve⟩ :=
      sendStateEvent_ok hroom htype hbody hfits hjoined hout
    have hsame : x.request.body = .map entries := by
      obtain ⟨_, _, _, _, body, -, -, -, -, hbody', h⟩ := hx
      rw [h.body_eq]
      exact Except.ok.inj (hbody'.symm.trans hbody)
    refine ⟨x, htraffic, hx, fun c status hstore hstatus hanswer => ?_⟩
    rw [hsame] at hanswer ⊢
    exact stateEvent_ok (hstore ▸ hjoined) hstatus hanswer (hstore ▸ hobserve)

/-- Whole numbers of more than eight bytes, a tenth, a zero with a sign, and a map. -/
def Example.sizes : List Value :=
  [.int 1180591620717411303424, .int (-1180591620717411303424), .real ⟨0x3fb999999999999a⟩,
    .real ⟨0x8000000000000000⟩, .record [("deep", .list [.null, .bool true])]]

def Example.greeting : Value :=
  .record [("membership", .text Membership.join), ("displayname", .text "Bob"),
    ("sizes", .list sizes)]

theorem Example.writable_greeting : Content.Writable greeting := by
  have hsizes : Fits 399 (.list sizes) := by
    refine .list _ (by decide) fun v hv => ?_
    simp only [sizes, List.mem_cons, List.not_mem_nil, or_false] at hv
    rcases hv with rfl | rfl | rfl | rfl | rfl
    · exact .large _ (by decide +kernel)
    · exact .large _ (by decide +kernel)
    · exact .real _
    · exact .real _
    · refine .map _ (by decide) (by decide) (by decide) fun f hf => ?_
      cases List.mem_singleton.mp hf
      refine .list _ (by decide) fun v hv => ?_
      simp only [List.mem_cons, List.not_mem_nil, or_false] at hv
      rcases hv with rfl | rfl
      · exact .null
      · exact .bool true
  refine .map _ (.map _ (by decide) (by decide) (by decide) fun f hf => ?_)
  simp only [List.mem_cons, List.not_mem_nil, or_false] at hf
  rcases hf with rfl | rfl | rfl
  · exact .text _ (by decide)
  · exact .text _ (by decide)
  · exact hsizes

def Example.inside : Bridge where
  store := {
    members := [(.text "!r:hs", [(.text "@alice:hs", { membership := .text Membership.join })])] }
  clients := [{ homeserver := "http://localhost:8008", token := .text "token"
                user := .text "@alice:hs", timeout := .zero }]
  answers := [.reply 200 (some (.record [("event_id", .text "$1")]))]

def Example.alice : Intent := ⟨0, "alice", "@alice:hs", none, false⟩

theorem sent_as_read_greeting :
    let sending := Operation.sendStateEvent (.text "!r:hs") (.text EventType.member)
      (.text "@bob:hs") Example.greeting
    ∃ b₁ x, ((perform Example.alice sending).outcome Example.inside).2 = b₁ ∧
      b₁.traffic = [x] ∧
      ∀ c status, c.store = Example.inside.store → status < 400 →
        c.answers.head? = some (.reply status (some x.request.body)) →
        ∃ c₁, (perform Example.alice
          (.stateEvent (.text "!r:hs") (.text EventType.member) (.text "@bob:hs"))).outcome c =
            (.ok x.request.body, c₁) ∧ c₁.store = b₁.store := by
  intro sending
  have hok : ((perform Example.alice sending).outcome Example.inside).1.isOk := by decide +kernel
  have hjoined : KnownIn Example.alice (.text "!r:hs") Example.inside.store :=
    knownIn_of_joined rfl rfl
  rcases hout : (perform Example.alice sending).outcome Example.inside with ⟨e | v, b₁⟩
  · rw [hout] at hok
    cases hok
  · obtain ⟨x, htraffic, -, hread⟩ := sent_as_read (by decide) (by decide)
      Example.writable_greeting hjoined hout
    exact ⟨b₁, x, rfl, htraffic, hread⟩

end Bridge

end VirtualUsers
